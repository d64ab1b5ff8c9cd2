import Ollm.Quota.Minimality

/-!
# Whole pairs

A blob and its sidecar are one unit of the eviction order.  Junk never takes
half of a pair and no two units share a file, so the plan names both files of
a pair, next to each other, or neither.
-/

namespace Ollm.Quota

open Text Greedy

/-- What a plan may do to a blob and its sidecar. -/
structure PairWhole (entries : List CacheEntry) (now grace : UInt64) (plan : List String)
    (b s : CacheEntry) : Prop where
  together : b.name ∈ plan ↔ s.name ∈ plan
  adjacent : b.name ∈ plan → [b.name, s.name] <:+: plan
  graced : saturatingSub now b.mtimeUnix < grace ∨ saturatingSub now s.mtimeUnix < grace →
    b.name ∉ plan ∧ s.name ∉ plan
  survive : b ∈ survivors entries plan ↔ s ∈ survivors entries plan

section Units

variable {entries : List CacheEntry} {limit now grace : UInt64}

/-- One half in its grace keeps the pair in its grace. -/
theorem inGrace_pairMtime {b s : CacheEntry} (found : sidecarOf entries b = some s)
    (graced : inGrace now grace b.mtimeUnix = true ∨ inGrace now grace s.mtimeUnix = true) :
    inGrace now grace (pairMtime entries b) = true := by
  have newer : pairMtime entries b = max b.mtimeUnix s.mtimeUnix := by
    simp [pairMtime, found]
  rw [newer, inGrace_iff, toNat_max]
  rw [inGrace_iff, inGrace_iff] at graced
  omega

theorem evictedUnits_subset : evictedUnits entries limit now grace ⊆
    evictionOrder entries now grace :=
  (greedy_isPrefix _ _).subset

theorem evicted_subset : (evictedUnits entries limit now grace).flatten ⊆ entries := by
  intro e member
  obtain ⟨unit, taken, inUnit⟩ := List.mem_flatten.mp member
  apply evictionOrder_flatten_subset
  exact List.mem_flatten.mpr ⟨unit, evictedUnits_subset taken, inUnit⟩

/-- The only unit that a file of a pair is in is the pair. -/
theorem eq_unitOf_of_mem (distinct : (entries.map (·.name)).Nodup) {b e : CacheEntry}
    (listed : b ∈ entries) (blob : endsWith b.name ".bin" = true)
    (member : e ∈ unitOf entries b) {unit : List CacheEntry}
    (inOrder : unit ∈ evictionOrder entries now grace) (inUnit : e ∈ unit) :
    unit = unitOf entries b ∧ inGrace now grace (pairMtime entries b) = false := by
  rcases List.mem_append.mp inOrder with junk | pair
  · obtain ⟨f, _, isJunk, _, rfl⟩ := mem_junkUnits_iff.mp junk
    obtain rfl := List.mem_singleton.mp inUnit
    rw [not_junk_of_mem_unitOf listed blob member] at isJunk
    cases isJunk
  · obtain ⟨c, listedC, blobC, outside, rfl⟩ := mem_pairUnits_iff.mp pair
    have same : c = b := by
      by_contra other
      exact unitOf_disjoint distinct listedC listed blobC blob other inUnit member
    subst same
    exact ⟨rfl, outside⟩

/-- A file of a pair is planned exactly if the pair is evicted as a unit. -/
theorem planned_iff_evicted (distinct : (entries.map (·.name)).Nodup) {b e : CacheEntry}
    (listed : b ∈ entries) (blob : endsWith b.name ".bin" = true)
    (member : e ∈ unitOf entries b) :
    e.name ∈ (evictedUnits entries limit now grace).flatten.map (·.name) ↔
      unitOf entries b ∈ evictedUnits entries limit now grace := by
  constructor
  · intro planned
    obtain ⟨f, evicted, named⟩ := List.mem_map.mp planned
    obtain rfl := eq_of_name_eq distinct (evicted_subset evicted) (unitOf_subset listed member)
      named
    obtain ⟨unit, taken, inUnit⟩ := List.mem_flatten.mp evicted
    rw [← (eq_unitOf_of_mem distinct listed blob member (evictedUnits_subset taken) inUnit).1]
    exact taken
  · intro taken
    exact List.mem_map_of_mem (List.mem_flatten.mpr ⟨_, taken, member⟩)

theorem outside_grace_of_evicted (distinct : (entries.map (·.name)).Nodup) {b : CacheEntry}
    (listed : b ∈ entries) (blob : endsWith b.name ".bin" = true)
    (taken : unitOf entries b ∈ evictedUnits entries limit now grace) :
    inGrace now grace (pairMtime entries b) = false :=
  (eq_unitOf_of_mem distinct listed blob List.mem_cons_self (evictedUnits_subset taken)
    List.mem_cons_self).2

/-- No file is planned twice. -/
theorem plan_nodup (distinct : (entries.map (·.name)).Nodup) :
    ((evictedUnits entries limit now grace).flatten.map (·.name)).Nodup := by
  have included : (evictedUnits entries limit now grace).flatten <+:
      (evictionOrder entries now grace).flatten := by
    obtain ⟨rest, whole⟩ : evictedUnits entries limit now grace <+:
        evictionOrder entries now grace := greedy_isPrefix _ _
    exact ⟨rest.flatten, by rw [← List.flatten_append]; exact congrArg List.flatten whole⟩
  apply ((evictionOrder_flatten_nodup distinct).sublist included.sublist).map_on
  intro e memberE f memberF named
  exact eq_of_name_eq distinct (evicted_subset memberE) (evicted_subset memberF) named

/-- A planned blob was used no later than any listed blob that is left. -/
theorem pairMtime_le_of_planned (distinct : (entries.map (·.name)).Nodup) {plan : List String}
    (planned : planEvictions entries limit now grace = some plan) {a b : CacheEntry}
    (listedA : a ∈ entries) (blobA : endsWith a.name ".bin" = true) (taken : a.name ∈ plan)
    (listedB : b ∈ entries) (blobB : endsWith b.name ".bin" = true) (left : b.name ∉ plan) :
    (pairMtime entries a).toNat ≤ (pairMtime entries b).toNat := by
  obtain rfl := Option.some.inj ((planEvictions_eq distinct limit now grace).symm.trans planned)
  rw [planned_iff_evicted distinct listedA blobA List.mem_cons_self] at taken
  rw [planned_iff_evicted distinct listedB blobB List.mem_cons_self] at left
  have outside := outside_grace_of_evicted distinct listedA blobA taken
  by_cases graced : inGrace now grace (pairMtime entries b) = true
  · rw [inGrace_iff] at graced
    rw [Bool.eq_false_iff, ne_eq, inGrace_iff] at outside
    omega
  · have eligible : ∀ c ∈ entries, endsWith c.name ".bin" = true →
        inGrace now grace (pairMtime entries c) = false →
        unitOf entries c ∈ eligible now grace (pairClass entries) := by
      intro c listed blob old
      rw [eligible_pairClass distinct]
      exact mem_pairUnits_iff.mpr ⟨c, listed, blob, old, rfl⟩
    have eligibleB := eligible b listedB blobB (Bool.eq_false_iff.mpr graced)
    obtain ⟨rest, whole⟩ : evictedUnits entries limit now grace <+:
        evictionOrder entries now grace := greedy_isPrefix _ _
    have inRest : unitOf entries b ∈ rest := by
      have inOrder : unitOf entries b ∈ evictionOrder entries now grace := by
        rw [← lruOrder_eq distinct]
        exact List.mem_append_right _ eligibleB
      rw [← whole] at inOrder
      exact (List.mem_append.mp inOrder).resolve_left left
    have ordered : (lruOrder entries now grace).Pairwise _ := pairwise_lruOrder distinct
    rw [lruOrder_eq distinct, ← whole] at ordered
    have le := (List.pairwise_append.mp ordered).2.2 _ taken _ inRest _
      (List.mem_cons_of_mem _ List.mem_cons_self) (eligible a listedA blobA outside) eligibleB
    rwa [recency_unitOf, recency_unitOf] at le

end Units

/-- The planner keeps a blob and its sidecar together, and keeps both while either
is in its grace. -/
theorem planEvictions_pairs_whole {entries : List CacheEntry}
    (distinct : (entries.map (·.name)).Nodup) (limit now grace : UInt64) :
    ∃ plan, planEvictions entries limit now grace = some plan ∧ plan.Nodup ∧
      ∀ b ∈ entries, endsWith b.name ".bin" = true →
        ∀ s ∈ entries, s.name = b.name ++ ".ckpt" → PairWhole entries now grace plan b s := by
  refine ⟨_, planEvictions_eq distinct limit now grace, plan_nodup distinct, ?_⟩
  intro b listedB blob s listedS named
  have found : sidecarOf entries b = some s := sidecarOf_eq_some distinct listedS named
  have unit : unitOf entries b = [b, s] := by simp [unitOf, found]
  have memberB : b ∈ unitOf entries b := by simp [unit]
  have memberS : s ∈ unitOf entries b := by simp [unit]
  have plannedB := @planned_iff_evicted entries limit now grace distinct b b listedB blob memberB
  have plannedS := @planned_iff_evicted entries limit now grace distinct b s listedB blob memberS
  have together := plannedB.trans plannedS.symm
  refine ⟨together, ?_, ?_, ?_⟩
  · intro planned
    have inside := (List.infix_of_mem_flatten (plannedB.mp planned)).map (·.name)
    rwa [unit] at inside
  · intro graced
    have pair : inGrace now grace (pairMtime entries b) = true := by
      apply inGrace_pairMtime found
      simpa [inGrace] using graced
    have stays : unitOf entries b ∉ evictedUnits entries limit now grace := by
      intro taken
      rw [outside_grace_of_evicted distinct listedB blob taken] at pair
      cases pair
    exact ⟨fun planned => stays (plannedB.mp planned), fun planned => stays (plannedS.mp planned)⟩
  · simp only [survivors, List.mem_filter, listedB, listedS, true_and, decide_eq_true_eq]
    exact not_congr together

/-- A pair beside names that nest both endings. -/
def nestedListing : List CacheEntry :=
  [⟨"a.bin", 4, 10⟩, ⟨"a.bin.ckpt", 2, 90⟩, ⟨"a.bin.ckpt.ckpt", 1, 5⟩, ⟨"a.ckpt.bin", 4, 20⟩]

theorem nestedListing_pair_whole :
    ∃ plan, planEvictions nestedListing 3 200 60 = some plan ∧
      PairWhole nestedListing 200 60 plan ⟨"a.bin", 4, 10⟩ ⟨"a.bin.ckpt", 2, 90⟩ := by
  obtain ⟨plan, planned, -, whole⟩ :=
    @planEvictions_pairs_whole nestedListing (by decide) 3 200 60
  exact ⟨plan, planned, whole _ (by decide) (by decide) _ (by decide) (by decide)⟩

end Ollm.Quota
