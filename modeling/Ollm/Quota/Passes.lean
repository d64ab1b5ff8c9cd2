import Ollm.Keying.Names
import Ollm.Quota.Limit

/-!
# Pass after pass

One pass can leave files that are neither protected nor within the limit: the
sidecar of a scratch file that it deletes.  The next pass finds an orphan there.
Each pass peels one sidecar ending off the names that can be left, so quiet
passes converge after as many of them as names have such endings, and one more.
-/

namespace Ollm.Quota

open Keying Text Greedy

/-- What passes at the given times leave if nothing is written in between. -/
def passes (limit grace : UInt64) : List UInt64 → List CacheEntry → Option (List CacheEntry)
  | [], entries => some entries
  | now :: later, entries =>
      (planEvictions entries limit now grace).bind fun plan =>
        passes limit grace later (survivors entries plan)

/-- Grace protects the file, its sidecar, or a file it is a sidecar of, be it of
a sidecar. -/
def Shielded (entries : List CacheEntry) (now grace : UInt64) (e : CacheEntry) : Prop :=
  ∃ f ∈ entries, inGrace now grace f.mtimeUnix = true ∧
    (f.name = sidecarPath e.name ∨ ∃ n, e.name = sidecarPath^[n] f.name)

/-- One of the passes found the file shielded. -/
def EverShielded (limit grace : UInt64) (times : List UInt64) (entries : List CacheEntry)
    (e : CacheEntry) : Prop :=
  ∃ past now later listed, times = past ++ now :: later ∧
    passes limit grace past entries = some listed ∧ Shielded listed now grace e

section Pass

variable {entries : List CacheEntry} {limit now grace : UInt64}

theorem Protected.shielded {e : CacheEntry} (safe : Protected entries now grace e) :
    Shielded entries now grace e := by
  obtain ⟨f, listed, same | sidecar | base, fresh⟩ := safe
  · exact ⟨f, listed, fresh, .inr ⟨0, congrArg CacheEntry.name same.symm⟩⟩
  · exact ⟨f, listed, fresh, .inl sidecar⟩
  · exact ⟨f, listed, fresh, .inr ⟨1, base⟩⟩

/-- What shields a file shields its sidecar. -/
theorem Shielded.sidecar {base e : CacheEntry} (shielded : Shielded entries now grace base)
    (named : e.name = sidecarPath base.name) : Shielded entries now grace e := by
  obtain ⟨f, listed, fresh, sidecar | ⟨n, stem⟩⟩ := shielded
  · exact ⟨f, listed, fresh, .inr ⟨0, named.trans sidecar.symm⟩⟩
  · refine ⟨f, listed, fresh, .inr ⟨n + 1, ?_⟩⟩
    rw [Function.iterate_succ_apply', ← stem, named]

theorem bytes_survivors_le (entries : List CacheEntry) (plan : List String) :
    bytes (survivors entries plan) ≤ bytes entries :=
  List.Sublist.sum_le_sum (List.filter_sublist.map _) (by simp)

theorem distinct_survivors (distinct : (entries.map (·.name)).Nodup) (plan : List String) :
    ((survivors entries plan).map (·.name)).Nodup :=
  distinct.sublist (List.filter_sublist.map _)

/-- What one pass leaves fits the limit, or is stuck or protected. -/
theorem left_of_pass (distinct : (entries.map (·.name)).Nodup) (small : bytes entries < 2 ^ 64) :
    ∃ plan, planEvictions entries limit now grace = some plan ∧
      (bytes (survivors entries plan) ≤ limit.toNat ∨
        ∀ e ∈ survivors entries plan, Stuck entries e ∨ Protected entries now grace e) := by
  refine ⟨_, planEvictions_eq distinct limit now grace, ?_⟩
  rw [survivors_plan distinct]
  have evicted : evictedUnits entries limit now grace <+: evictionOrder entries now grace :=
    greedy_isPrefix _ _
  have finished : withinLimit (cacheUsageBytes entries) limit
      (0 + cost unitLen (evictedUnits entries limit now grace)) = true ∨
      evictedUnits entries limit now grace = evictionOrder entries now grace :=
    stop_or_greedy_eq 0 (evictionOrder entries now grace)
  rcases finished with stopped | whole
  · have fits := (withinLimit_iff distinct evicted).mp stopped
    have less : bytes (kept entries (evictedUnits entries limit now grace)) ≤ bytes entries :=
      List.Sublist.sum_le_sum (List.filter_sublist.map _) (by simp)
    rw [Nat.mod_eq_of_lt (less.trans_lt small)] at fits
    exact .inl fits
  · rw [whole]
    right
    intro e member
    obtain ⟨listed, outside⟩ := List.mem_filter.mp member
    exact stuck_or_protected distinct listed (of_decide_eq_true outside)

end Pass

section Passes

variable {entries : List CacheEntry} {limit grace : UInt64}

theorem passes_concat (times : List UInt64) (now : UInt64) :
    passes limit grace (times ++ [now]) entries =
      (passes limit grace times entries).bind fun listed =>
        (planEvictions listed limit now grace).map (survivors listed) := by
  induction times generalizing entries with
  | nil => simp [passes, Option.map_eq_bind]
  | cons first rest inductionHypothesis =>
      simp only [List.cons_append, passes, Option.bind_assoc]
      exact Option.bind_congr fun plan _ => inductionHypothesis

theorem EverShielded.concat {times : List UInt64} {e : CacheEntry}
    (shielded : EverShielded limit grace times entries e) (now : UInt64) :
    EverShielded limit grace (times ++ [now]) entries e := by
  obtain ⟨past, moment, later, listed, rfl, ran, shields⟩ := shielded
  exact ⟨past, moment, later ++ [now], listed, by simp, ran, shields⟩

theorem EverShielded.sidecar {times : List UInt64} {base e : CacheEntry}
    (shielded : EverShielded limit grace times entries base)
    (named : e.name = sidecarPath base.name) : EverShielded limit grace times entries e := by
  obtain ⟨past, moment, later, listed, split, ran, shields⟩ := shielded
  exact ⟨past, moment, later, listed, split, ran, shields.sidecar named⟩

/-- What a number of passes leaves over the limit was shielded, or its name has as
many sidecar endings. -/
theorem passes_peel (distinct : (entries.map (·.name)).Nodup) (small : bytes entries < 2 ^ 64)
    (times : List UInt64) :
    ∃ left, passes limit grace times entries = some left ∧ (left.map (·.name)).Nodup ∧
      bytes left < 2 ^ 64 ∧
      (bytes left ≤ limit.toNat ∨ ∀ e ∈ left, EverShielded limit grace times entries e ∨
        ∃ stem, e.name = sidecarPath^[times.length] stem) := by
  induction times using List.reverseRecOn with
  | nil => exact ⟨entries, rfl, distinct, small, .inr fun e _ => .inr ⟨e.name, rfl⟩⟩
  | append_singleton times now inductionHypothesis =>
      obtain ⟨listed, ran, distinct, small, peeled⟩ := inductionHypothesis
      obtain ⟨plan, planned, left⟩ := left_of_pass distinct small
      have less := bytes_survivors_le listed plan
      refine ⟨survivors listed plan, ?_, distinct_survivors distinct plan, by omega, ?_⟩
      · rw [passes_concat, ran, Option.bind_some, planned, Option.map_some]
      rcases peeled with fits | peeled
      · exact .inl (less.trans fits)
      rcases left with fits | left
      · exact .inl fits
      right
      intro e member
      rcases left e member with ⟨base, listedBase, named, -⟩ | safe
      · -- the base is one ending less, or shields its sidecar
        rcases peeled base listedBase with shielded | ⟨stem, chain⟩
        · exact .inl ((shielded.sidecar named).concat now)
        · right
          refine ⟨stem, ?_⟩
          rw [List.length_append, List.length_singleton, Function.iterate_succ_apply', ← chain]
          exact named
      · exact .inl ⟨times, now, [], listed, rfl, ran, safe.shielded⟩

theorem subset_of_passes {times : List UInt64} {left : List CacheEntry}
    (ran : passes limit grace times entries = some left) : left ⊆ entries := by
  induction times generalizing entries with
  | nil =>
      cases ran
      exact List.Subset.refl _
  | cons now later inductionHypothesis =>
      obtain ⟨plan, -, rest⟩ := Option.bind_eq_some_iff.mp ran
      exact fun e member => List.mem_of_mem_filter (inductionHypothesis rest member)

/-- Quiet passes at any times converge once they are more than the sidecar endings
of any name: what is left fits the limit or was shielded when a pass looked. -/
theorem passes_converge (distinct : (entries.map (·.name)).Nodup) (small : bytes entries < 2 ^ 64)
    {times : List UInt64}
    (endings : ∀ e ∈ entries, ∀ stem, e.name ≠ sidecarPath^[times.length] stem) :
    ∃ left, passes limit grace times entries = some left ∧
      (bytes left ≤ limit.toNat ∨ ∀ e ∈ left, EverShielded limit grace times entries e) := by
  obtain ⟨left, ran, -, -, peeled⟩ := passes_peel distinct small times
  refine ⟨left, ran, peeled.imp_right fun peeled e member => ?_⟩
  apply (peeled e member).resolve_right
  rintro ⟨stem, named⟩
  exact endings e (subset_of_passes ran member) stem named

/-- Nothing shields the files of a directory that grace is over for. -/
theorem eq_nil_of_everShielded {times : List UInt64} {left : List CacheEntry}
    (old : ∀ now ∈ times, ∀ e ∈ entries, inGrace now grace e.mtimeUnix = false)
    (shielded : ∀ e ∈ left, EverShielded limit grace times entries e) : left = [] := by
  rw [List.eq_nil_iff_forall_not_mem]
  intro e member
  obtain ⟨past, now, later, listed, rfl, ran, f, inListing, fresh, -⟩ := shielded e member
  have ended := old now (by simp) f (subset_of_passes ran inListing)
  rw [fresh] at ended
  cases ended

end Passes

/-- The names of the program's own files have one sidecar ending at most. -/
theorem fileOf_ne_sidecars {blob : String} (bin : endsWith blob ".bin" = true) (role : Role)
    (stem : String) : fileOf blob role ≠ sidecarPath^[2] stem := by
  obtain ⟨front, rfl⟩ := endsWith_iff.mp bin
  rw [fileOf_eq]
  have twice : sidecarPath^[2] stem = stem ++ ".ckpt.ckpt" := by
    simp [sidecarPath, String.append_assoc]
  rw [twice]
  cases role <;> exact append_ne_append (by decide) (by decide)

/-- Two passes over the scratch pair, which one pass does not bring within the limit. -/
theorem passes_converge_scratchPair :
    ∃ left, passes 50 60 [5000, 5010] scratchPair = some left ∧ bytes left ≤ 50 := by
  have endings : ∀ e ∈ scratchPair, ∀ stem, e.name ≠ sidecarPath^[2] stem := by
    intro e member
    have bin := endsWith_blobName "0123456789ab" "hdr-a"
    simp only [scratchPair, List.mem_cons, List.not_mem_nil, or_false] at member
    rcases member with rfl | rfl
    · exact fileOf_ne_sidecars bin .scratch
    · exact fileOf_ne_sidecars bin .scratchSidecar
  have converges : ∃ left, passes 50 60 [5000, 5010] scratchPair = some left ∧
      (bytes left ≤ 50 ∨ ∀ e ∈ left, EverShielded 50 60 [5000, 5010] scratchPair e) :=
    passes_converge (by decide) (by decide) endings
  obtain ⟨left, ran, fits | shielded⟩ := converges
  · exact ⟨left, ran, fits⟩
  · have old : ∀ now ∈ ([5000, 5010] : List UInt64), ∀ e ∈ scratchPair,
        inGrace now 60 e.mtimeUnix = false := by
      intro now moment e member
      simp only [scratchPair, List.mem_cons, List.not_mem_nil, or_false] at moment member
      rcases moment with rfl | rfl <;> rcases member with rfl | rfl <;> decide
    obtain rfl := eq_nil_of_everShielded old shielded
    exact ⟨[], ran, by decide⟩

end Ollm.Quota
