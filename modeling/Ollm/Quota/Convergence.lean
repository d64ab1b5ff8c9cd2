import Mathlib.Algebra.Order.BigOperators.Group.List
import Mathlib.Algebra.Order.Group.Nat
import Ollm.Quota.Order

/-!
# What the planner can and cannot converge to

After the plan is carried out the files left either fit the limit or are all
protected by grace, with two exceptions.  A sidecar of a listed name that is
not a blob (`<blob>.save.ckpt` beside `<blob>.save`) is counted but belongs to
neither pass.  And the byte counts wrap, so a total of `2 ^ 64` bytes or more
can look as if it fitted.
-/

namespace Ollm.Quota

open Text Greedy

/-- The true number of bytes, without wrapping. -/
def bytes (files : List CacheEntry) : Nat :=
  (files.map (·.len.toNat)).sum

@[simp]
theorem bytes_append (first second : List CacheEntry) :
    bytes (first ++ second) = bytes first + bytes second := by
  simp [bytes]

theorem bytes_perm {first second : List CacheEntry} (same : first.Perm second) :
    bytes first = bytes second :=
  (same.map _).sum_eq

theorem toNat_cacheUsageBytes (files : List CacheEntry) :
    (cacheUsageBytes files).toNat = bytes files % 2 ^ 64 := by
  induction files with
  | nil => rfl
  | cons e rest inductionHypothesis =>
      simp only [cacheUsageBytes, bytes, List.map_cons, List.sum_cons] at inductionHypothesis ⊢
      rw [UInt64.toNat_add, inductionHypothesis]
      omega

theorem cost_unitLen (units : List (List CacheEntry)) :
    cost unitLen units = cacheUsageBytes units.flatten := by
  induction units with
  | nil => rfl
  | cons unit rest inductionHypothesis =>
      simp [inductionHypothesis, unitLen, cacheUsageBytes]

def survivors (entries : List CacheEntry) (plan : List String) : List CacheEntry :=
  entries.filter fun e => e.name ∉ plan

def kept (entries : List CacheEntry) (units : List (List CacheEntry)) : List CacheEntry :=
  entries.filter fun e => e ∉ units.flatten

/-- The file, or a file it is paired with by name, is within its grace. -/
def Protected (entries : List CacheEntry) (now grace : UInt64) (e : CacheEntry) : Prop :=
  ∃ f ∈ entries, (f = e ∨ f.name = e.name ++ ".ckpt" ∨ e.name = f.name ++ ".ckpt") ∧
    inGrace now grace f.mtimeUnix = true

instance (entries : List CacheEntry) (now grace : UInt64) (e : CacheEntry) :
    Decidable (Protected entries now grace e) :=
  inferInstanceAs (Decidable (∃ f ∈ entries, _ ∧ _))

/-- A sidecar by name whose listed base is not a blob: neither junk nor half
of a pair. -/
def Stuck (entries : List CacheEntry) (e : CacheEntry) : Prop :=
  ∃ base ∈ entries, e.name = base.name ++ ".ckpt" ∧ endsWith base.name ".bin" = false

/-- After the plan, the rest fits the limit or is protected by grace. -/
def Converges (entries : List CacheEntry) (limit now grace : UInt64) : Prop :=
  ∃ plan, planEvictions entries limit now grace = some plan ∧
    (bytes (survivors entries plan) ≤ limit.toNat ∨
      ∀ e ∈ survivors entries plan, Protected entries now grace e)

/-- No prefix of the eviction order leaves files whose total only fits the
limit by wrapping, unless grace protects all of them. -/
def StopsHonestly (entries : List CacheEntry) (limit now grace : UInt64) : Prop :=
  ∀ units, units <+: evictionOrder entries now grace →
    2 ^ 64 ≤ bytes (kept entries units) →
    bytes (kept entries units) % 2 ^ 64 ≤ limit.toNat →
    ∀ e ∈ kept entries units, Protected entries now grace e

section Order

variable {entries : List CacheEntry} {now grace : UInt64}

theorem mem_junkUnits_iff {unit : List CacheEntry} :
    unit ∈ junkUnits entries now grace ↔
      ∃ e ∈ entries, isJunk entries e = true ∧ inGrace now grace e.mtimeUnix = false ∧
        unit = [e] := by
  simp only [junkUnits, junkInOrder, List.mem_map, List.mem_filter, List.mem_insertionSort,
    Bool.not_eq_true', and_assoc, @eq_comm _ unit]

theorem mem_pairUnits_iff {unit : List CacheEntry} :
    unit ∈ pairUnits entries now grace ↔
      ∃ b ∈ entries, endsWith b.name ".bin" = true ∧
        inGrace now grace (pairMtime entries b) = false ∧ unit = unitOf entries b := by
  simp only [pairUnits, blobsInOrder, List.mem_map, List.mem_filter, List.mem_insertionSort,
    Bool.not_eq_true', and_assoc, @eq_comm _ unit]

theorem not_blob_of_sidecar {e base : CacheEntry} (named : e.name = base.name ++ ".ckpt") :
    endsWith e.name ".bin" = false := by
  rw [named]
  exact endsWith_append_eq_false (by decide) (by decide)

theorem isJunk_sidecar_iff {e base : CacheEntry} (named : e.name = base.name ++ ".ckpt") :
    isJunk entries e = true ↔ ∀ f ∈ entries, f.name ≠ base.name := by
  have ends : endsWith e.name ".ckpt" = true := by
    rw [named]
    exact endsWith_append _ _
  rw [isJunk, not_blob_of_sidecar named, ends, named, stripSuffix?_append]
  simp

theorem not_junk_of_mem_unitOf {b e : CacheEntry} (listed : b ∈ entries)
    (blob : endsWith b.name ".bin" = true) (member : e ∈ unitOf entries b) :
    isJunk entries e = false := by
  rcases mem_unitOf_iff.mp member with rfl | found
  · simp [isJunk, blob]
  · rw [Bool.eq_false_iff]
    intro junk
    exact (isJunk_sidecar_iff (sidecarOf_mem found).2).mp junk b listed rfl

theorem unitOf_nodup {b : CacheEntry} (blob : endsWith b.name ".bin" = true) :
    (unitOf entries b).Nodup := by
  cases found : sidecarOf entries b with
  | none => simp [unitOf, found]
  | some s =>
      have distinct : b ≠ s := by
        rintro rfl
        simp [not_blob_of_sidecar (sidecarOf_mem found).2] at blob
      simp [unitOf, found, distinct]

theorem unitOf_disjoint (distinct : (entries.map (·.name)).Nodup) {b c : CacheEntry}
    (listedB : b ∈ entries) (listedC : c ∈ entries)
    (blobB : endsWith b.name ".bin" = true) (blobC : endsWith c.name ".bin" = true)
    (other : b ≠ c) : List.Disjoint (unitOf entries b) (unitOf entries c) := by
  intro e inB inC
  rcases mem_unitOf_iff.mp inB with rfl | foundB <;>
    rcases mem_unitOf_iff.mp inC with rfl | foundC
  · exact other rfl
  · simp [not_blob_of_sidecar (sidecarOf_mem foundC).2] at blobB
  · simp [not_blob_of_sidecar (sidecarOf_mem foundB).2] at blobC
  · have names : b.name ++ ".ckpt" = c.name ++ ".ckpt" :=
      (sidecarOf_mem foundB).2.symm.trans (sidecarOf_mem foundC).2
    exact other (eq_of_name_eq distinct listedB listedC
      ((String.append_left_inj ".ckpt").mp names))

theorem junkUnits_disjoint (distinct : (entries.map (·.name)).Nodup) :
    (junkUnits entries now grace).Pairwise List.Disjoint := by
  have nodup : ((junkInOrder entries).filter fun e => !inGrace now grace e.mtimeUnix).Nodup :=
    (((List.perm_insertionSort _ _).nodup_iff.mpr
      ((List.Nodup.of_map _ distinct).filter _)).filter _)
  apply List.pairwise_map.mpr
  apply nodup.imp
  intro e f other
  simpa using other.symm

theorem pairUnits_disjoint (distinct : (entries.map (·.name)).Nodup) :
    (pairUnits entries now grace).Pairwise List.Disjoint := by
  have nodup : ((blobsInOrder entries).filter
      fun b => !inGrace now grace (pairMtime entries b)).Nodup :=
    (((List.perm_insertionSort _ _).nodup_iff.mpr
      ((List.Nodup.of_map _ distinct).filter _)).filter _)
  have blobs : ∀ b ∈ (blobsInOrder entries).filter
      fun b => !inGrace now grace (pairMtime entries b),
      b ∈ entries ∧ endsWith b.name ".bin" = true := by
    intro b member
    exact List.mem_filter.mp ((List.mem_insertionSort _).mp (List.mem_filter.mp member).1)
  apply List.pairwise_map.mpr
  apply nodup.imp_of_mem
  intro b c memberB memberC other
  exact unitOf_disjoint distinct (blobs b memberB).1 (blobs c memberC).1
    (blobs b memberB).2 (blobs c memberC).2 other

/-- No file is in two units: every unit frees bytes of its own. -/
theorem evictionOrder_flatten_nodup (distinct : (entries.map (·.name)).Nodup) :
    (evictionOrder entries now grace).flatten.Nodup := by
  rw [List.nodup_flatten]
  constructor
  · intro unit member
    rcases List.mem_append.mp member with junk | pair
    · obtain ⟨e, _, _, _, rfl⟩ := mem_junkUnits_iff.mp junk
      simp
    · obtain ⟨b, _, blob, _, rfl⟩ := mem_pairUnits_iff.mp pair
      exact unitOf_nodup blob
  · refine List.pairwise_append.mpr
      ⟨junkUnits_disjoint distinct, pairUnits_disjoint distinct, ?_⟩
    intro junkUnit junk pairUnit pair e inJunk inPair
    obtain ⟨f, _, isJunk, _, rfl⟩ := mem_junkUnits_iff.mp junk
    obtain ⟨b, listed, blob, _, rfl⟩ := mem_pairUnits_iff.mp pair
    rw [List.mem_singleton] at inJunk
    subst inJunk
    simp [not_junk_of_mem_unitOf listed blob inPair] at isJunk

theorem evictionOrder_flatten_subset : (evictionOrder entries now grace).flatten ⊆ entries := by
  intro e member
  obtain ⟨unit, inOrder, inUnit⟩ := List.mem_flatten.mp member
  rcases List.mem_append.mp inOrder with junk | pair
  · obtain ⟨f, listed, _, _, rfl⟩ := mem_junkUnits_iff.mp junk
    rw [List.mem_singleton] at inUnit
    exact inUnit ▸ listed
  · obtain ⟨b, listed, _, _, rfl⟩ := mem_pairUnits_iff.mp pair
    exact unitOf_subset listed inUnit

theorem inGrace_max {now grace first second : UInt64}
    (graced : inGrace now grace (max first second) = true) :
    inGrace now grace first = true ∨ inGrace now grace second = true := by
  rw [UInt64.max_def] at graced
  split at graced
  · exact .inr graced
  · exact .inl graced

theorem exists_inGrace_of_pairMtime {b : CacheEntry} (listed : b ∈ entries)
    (graced : inGrace now grace (pairMtime entries b) = true) :
    ∃ f ∈ unitOf entries b, f ∈ entries ∧ inGrace now grace f.mtimeUnix = true := by
  cases found : sidecarOf entries b with
  | none =>
      have same : pairMtime entries b = b.mtimeUnix := by
        simp only [pairMtime, found, Option.map_none, Option.getD_none, UInt64.max_def]
        split <;> grind
      exact ⟨b, by simp [unitOf], listed, same ▸ graced⟩
  | some s =>
      simp only [pairMtime, found, Option.map_some, Option.getD_some] at graced
      rcases inGrace_max graced with blob | sidecar
      · exact ⟨b, by simp [unitOf], listed, blob⟩
      · exact ⟨s, by simp [unitOf, found], (sidecarOf_mem found).1, sidecar⟩

theorem protected_of_graced_pair {b e : CacheEntry} (listed : b ∈ entries)
    (graced : inGrace now grace (pairMtime entries b) = true)
    (member : e ∈ unitOf entries b) : Protected entries now grace e := by
  obtain ⟨f, inUnit, listedF, fresh⟩ := exists_inGrace_of_pairMtime listed graced
  refine ⟨f, listedF, ?_, fresh⟩
  rcases mem_unitOf_iff.mp member with rfl | foundE <;>
    rcases mem_unitOf_iff.mp inUnit with rfl | foundF
  · exact .inl rfl
  · exact .inr (.inl (sidecarOf_mem foundF).2)
  · exact .inr (.inr (sidecarOf_mem foundE).2)
  · exact .inl (Option.some.inj (foundF.symm.trans foundE))

/-- Every file is half of a pair, junk, or stuck. -/
theorem classified (distinct : (entries.map (·.name)).Nodup) {e : CacheEntry}
    (listed : e ∈ entries) :
    (∃ b ∈ entries, endsWith b.name ".bin" = true ∧ e ∈ unitOf entries b) ∨
      isJunk entries e = true ∨ Stuck entries e := by
  by_cases blob : endsWith e.name ".bin" = true
  · exact .inl ⟨e, listed, blob, List.mem_cons_self⟩
  cases junk : isJunk entries e with
  | true => exact .inr (.inl rfl)
  | false =>
      -- not junk, so it is a sidecar whose base name is listed
      have ends : endsWith e.name ".ckpt" = true := by
        by_contra other
        simp [isJunk, blob, other] at junk
      obtain ⟨front, named⟩ := endsWith_iff.mp ends
      rw [isJunk, if_neg blob, if_pos ends, named, stripSuffix?_append] at junk
      simp only [Option.getD_some, Bool.not_eq_false', List.contains_iff_mem,
        List.mem_map] at junk
      obtain ⟨base, listedBase, rfl⟩ := junk
      by_cases baseBlob : endsWith base.name ".bin" = true
      · exact .inl ⟨base, listedBase, baseBlob,
          mem_unitOf_iff.mpr (.inr (sidecarOf_eq_some distinct listed named))⟩
      · exact .inr (.inr ⟨base, listedBase, named, by simpa using baseBlob⟩)

theorem stuck_or_protected (distinct : (entries.map (·.name)).Nodup) {e : CacheEntry}
    (listed : e ∈ entries) (outside : e ∉ (evictionOrder entries now grace).flatten) :
    Stuck entries e ∨ Protected entries now grace e := by
  have notInUnit : ∀ unit ∈ evictionOrder entries now grace, e ∉ unit :=
    fun unit inOrder inUnit => outside (List.mem_flatten.mpr ⟨unit, inOrder, inUnit⟩)
  rcases classified distinct listed with ⟨b, listedB, blob, member⟩ | junk | stuck
  · cases graced : inGrace now grace (pairMtime entries b) with
    | true => exact .inr (protected_of_graced_pair listedB graced member)
    | false =>
        refine absurd member (notInUnit _ (List.mem_append_right _ ?_))
        exact mem_pairUnits_iff.mpr ⟨b, listedB, blob, graced, rfl⟩
  · cases graced : inGrace now grace e.mtimeUnix with
    | true => exact .inr ⟨e, listed, .inl rfl, graced⟩
    | false =>
        refine absurd (List.mem_singleton_self e)
          (notInUnit [e] (List.mem_append_left _ ?_))
        exact mem_junkUnits_iff.mpr ⟨e, listed, junk, graced, rfl⟩
  · exact .inl stuck

theorem not_mem_evictionOrder_of_stuck (distinct : (entries.map (·.name)).Nodup)
    {e : CacheEntry} (stuck : Stuck entries e) :
    e ∉ (evictionOrder entries now grace).flatten := by
  obtain ⟨base, listedBase, named, notBlob⟩ := stuck
  intro member
  obtain ⟨unit, inOrder, inUnit⟩ := List.mem_flatten.mp member
  rcases List.mem_append.mp inOrder with junk | pair
  · obtain ⟨f, _, isJunk, _, rfl⟩ := mem_junkUnits_iff.mp junk
    rw [List.mem_singleton] at inUnit
    subst inUnit
    exact (isJunk_sidecar_iff named).mp isJunk base listedBase rfl
  · obtain ⟨b, listedB, blob, _, rfl⟩ := mem_pairUnits_iff.mp pair
    rcases mem_unitOf_iff.mp inUnit with rfl | found
    · simp [not_blob_of_sidecar named] at blob
    · have names : base.name ++ ".ckpt" = b.name ++ ".ckpt" :=
        named.symm.trans (sidecarOf_mem found).2
      have same := eq_of_name_eq distinct listedBase listedB
        ((String.append_left_inj ".ckpt").mp names)
      simp [same, blob] at notBlob

end Order

section Accounting

variable {entries : List CacheEntry} {limit now grace : UInt64}

theorem kept_append_perm (distinct : (entries.map (·.name)).Nodup)
    {units : List (List CacheEntry)} (prefixed : units <+: evictionOrder entries now grace) :
    (units.flatten ++ kept entries units).Perm entries := by
  have included : units.flatten <+: (evictionOrder entries now grace).flatten := by
    obtain ⟨rest, whole⟩ := prefixed
    exact ⟨rest.flatten, by rw [← List.flatten_append, whole]⟩
  have nodup : units.flatten.Nodup :=
    (evictionOrder_flatten_nodup distinct).sublist included.sublist
  have subset : units.flatten ⊆ entries := fun e member =>
    evictionOrder_flatten_subset (included.subset member)
  have taken : (entries.filter fun e => e ∈ units.flatten).Perm units.flatten := by
    apply (List.perm_ext_iff_of_nodup ((List.Nodup.of_map _ distinct).filter _) nodup).mpr
    intro e
    simpa using fun unit member inUnit => subset (List.mem_flatten.mpr ⟨unit, member, inUnit⟩)
  apply (taken.symm.append_right _).trans
  simpa only [kept, decide_not] using
    List.filter_append_perm (fun e => decide (e ∈ units.flatten)) entries

/-- The break condition compares the true number of bytes left, wrapped. -/
theorem withinLimit_iff (distinct : (entries.map (·.name)).Nodup)
    {units : List (List CacheEntry)} (prefixed : units <+: evictionOrder entries now grace) :
    withinLimit (cacheUsageBytes entries) limit (0 + cost unitLen units) = true ↔
      bytes (kept entries units) % 2 ^ 64 ≤ limit.toNat := by
  have total : bytes entries = bytes units.flatten + bytes (kept entries units) := by
    rw [← bytes_perm (kept_append_perm distinct prefixed), bytes_append]
  rw [withinLimit, decide_eq_true_iff, UInt64.le_iff_toNat_le, UInt64.toNat_sub, zero_add,
    cost_unitLen, toNat_cacheUsageBytes, toNat_cacheUsageBytes, total]
  have below : bytes units.flatten % 2 ^ 64 < 2 ^ 64 := Nat.mod_lt _ (by decide)
  have wrapped : (2 ^ 64 - bytes units.flatten % 2 ^ 64 +
      (bytes units.flatten + bytes (kept entries units)) % 2 ^ 64) % 2 ^ 64 =
      bytes (kept entries units) % 2 ^ 64 := by omega
  rw [wrapped]

theorem kept_subset_of_isPrefix {shorter longer : List (List CacheEntry)}
    (included : shorter <+: longer) : kept entries longer ⊆ kept entries shorter := by
  intro e member
  obtain ⟨listed, outside⟩ := List.mem_filter.mp member
  refine List.mem_filter.mpr ⟨listed, ?_⟩
  simp only [decide_eq_true_eq, List.mem_flatten, not_exists, not_and] at outside ⊢
  exact fun unit inShorter => outside unit (included.subset inShorter)

theorem bytes_kept_le_of_isPrefix (entries : List CacheEntry)
    {shorter longer : List (List CacheEntry)}
    (included : shorter <+: longer) :
    bytes (kept entries longer) ≤ bytes (kept entries shorter) := by
  refine List.Sublist.sum_le_sum (List.Sublist.map _ ?_) (by simp)
  apply List.monotone_filter_right entries
  intro e outside
  simp only [decide_eq_true_eq, List.mem_flatten, not_exists, not_and] at outside ⊢
  exact fun unit inShorter => outside unit (included.subset inShorter)

theorem survivors_plan (distinct : (entries.map (·.name)).Nodup) :
    survivors entries ((evictedUnits entries limit now grace).flatten.map (·.name)) =
      kept entries (evictedUnits entries limit now grace) := by
  apply List.filter_congr
  intro e listed
  rw [decide_eq_decide, not_iff_not, List.mem_map]
  constructor
  · rintro ⟨f, member, same⟩
    obtain ⟨unit, inUnits, inUnit⟩ := List.mem_flatten.mp member
    have listedF : f ∈ entries := evictionOrder_flatten_subset
      (List.mem_flatten.mpr ⟨unit, (greedy_isPrefix _ _).subset inUnits, inUnit⟩)
    exact eq_of_name_eq distinct listedF listed same ▸ member
  · exact fun member => ⟨e, member, rfl⟩

theorem protected_of_all_evicted (distinct : (entries.map (·.name)).Nodup)
    (stuckProtected : ∀ e ∈ entries, Stuck entries e → Protected entries now grace e) :
    ∀ e ∈ kept entries (evictionOrder entries now grace), Protected entries now grace e := by
  intro e member
  obtain ⟨listed, outside⟩ := List.mem_filter.mp member
  rcases stuck_or_protected distinct listed (of_decide_eq_true outside) with stuck | safe
  · exact stuckProtected e listed stuck
  · exact safe

/-- The plan converges exactly when no total wraps into the limit and the
stuck files are either protected by grace or fit the limit together with the
other files that no unit contains. -/
theorem planEvictions_converges_iff (distinct : (entries.map (·.name)).Nodup) :
    Converges entries limit now grace ↔
      StopsHonestly entries limit now grace ∧
        (bytes (kept entries (evictionOrder entries now grace)) ≤ limit.toNat ∨
          ∀ e ∈ entries, Stuck entries e → Protected entries now grace e) := by
  have planned := planEvictions_eq distinct limit now grace
  have evicted : evictedUnits entries limit now grace <+: evictionOrder entries now grace :=
    greedy_isPrefix _ _
  have small : limit.toNat < 2 ^ 64 := limit.toNat_lt
  simp only [Converges, planned, Option.some.injEq, exists_eq_left', survivors_plan distinct]
  constructor
  · intro converges
    refine ⟨fun units prefixed large wraps => ?_, ?_⟩
    · -- the planner stops no later than `units`, so what it leaves is too large
      have earlier : evictedUnits entries limit now grace <+: units := by
        rcases List.prefix_or_prefix_of_prefix evicted prefixed with before | after
        · exact before
        · by_cases same : units = evictedUnits entries limit now grace
          · exact same ▸ List.prefix_rfl
          · have running := not_stop_of_isPrefix 0 after same
            rw [(withinLimit_iff distinct prefixed).mpr wraps] at running
            exact absurd running (by decide)
      have larger := bytes_kept_le_of_isPrefix entries earlier
      rcases converges with fits | safe
      · omega
      · exact fun e member => safe e (kept_subset_of_isPrefix earlier member)
    · rcases converges with fits | safe
      · exact .inl ((bytes_kept_le_of_isPrefix entries evicted).trans fits)
      · refine .inr fun e listed stuck => safe e (kept_subset_of_isPrefix evicted ?_)
        exact List.mem_filter.mpr
          ⟨listed, decide_eq_true (not_mem_evictionOrder_of_stuck distinct stuck)⟩
  · rintro ⟨honest, settled⟩
    have finished : withinLimit (cacheUsageBytes entries) limit
        (0 + cost unitLen (evictedUnits entries limit now grace)) = true ∨
        evictedUnits entries limit now grace = evictionOrder entries now grace :=
      stop_or_greedy_eq 0 (evictionOrder entries now grace)
    rcases finished with stopped | whole
    · have wraps := (withinLimit_iff distinct evicted).mp stopped
      by_cases large : 2 ^ 64 ≤ bytes (kept entries (evictedUnits entries limit now grace))
      · exact .inr (honest _ evicted large wraps)
      · exact .inl (by rwa [Nat.mod_eq_of_lt (not_le.mp large)] at wraps)
    · rw [whole]
      exact settled.imp_right (protected_of_all_evicted distinct)

end Accounting

/-- A scratch file and its sidecar, both long out of grace. -/
def scratchPair : List CacheEntry :=
  [⟨"hdr-a__0123456789ab.bin.save", 10, 1000⟩,
    ⟨"hdr-a__0123456789ab.bin.save.ckpt", 100, 1000⟩]

/-- The scratch sidecar is counted, unprotected and never deleted. -/
theorem scratchPair_not_converges :
    ¬ ∀ (entries : List CacheEntry) (limit now grace : UInt64),
      (entries.map (·.name)).Nodup → Converges entries limit now grace := by
  intro always
  obtain ⟨plan, planned, converged⟩ := always scratchPair 50 5000 60 (by decide)
  have sweep : planEvictions scratchPair 50 5000 60 =
      some ["hdr-a__0123456789ab.bin.save"] := by decide
  obtain rfl : ["hdr-a__0123456789ab.bin.save"] = plan :=
    Option.some.inj (sweep.symm.trans planned)
  revert converged
  decide

/-- Without the scratch file the sidecar is an orphan and the cache converges. -/
theorem planEvictions_converges_orphan :
    Converges [⟨"hdr-a__0123456789ab.bin.save.ckpt", 100, 1000⟩] 50 5000 60 := by
  refine (planEvictions_converges_iff (by decide)).mpr ⟨?_, .inl (by decide)⟩
  intro units prefixed large
  have few : bytes (kept [⟨"hdr-a__0123456789ab.bin.save.ckpt", 100, 1000⟩] units) ≤ 100 :=
    (bytes_kept_le_of_isPrefix _ List.nil_prefix).trans (by decide)
  omega

end Ollm.Quota
