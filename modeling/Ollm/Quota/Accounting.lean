import Ollm.Library.Transition
import Ollm.Quota.Convergence

/-!
# The planner's running totals

The planner as a machine that takes one turn of a loop at a time.  At every
point between two turns the plan names listed files, each once, and `freed` is
the number of their bytes.
-/

namespace Ollm.Quota

open Text

/-- The points of the planner: the loops with what is left to visit. -/
inductive PlannerState where
  | starting
  | sweeping (junk : List CacheEntry) (progress : Progress)
  | evicting (pairs : List (UInt64 × List String)) (progress : Progress)
  | stopped (plan : List String)
  | panicked

section Planner

variable (entries : List CacheEntry) (limit now grace : UInt64)

def plannerStep : PlannerState → Option PlannerState
  | .starting =>
      if cacheUsageBytes entries ≤ limit then some (.stopped [])
      else some (.sweeping (junkInOrder entries) ⟨[], 0⟩)
  | .sweeping [] progress => some (.evicting (pairsInOrder entries) progress)
  | .sweeping (e :: junk) progress =>
      if cacheUsageBytes entries - progress.freed ≤ limit then
        some (.evicting (pairsInOrder entries) progress)
      else if inGrace now grace e.mtimeUnix then
        some (.sweeping junk progress)
      else
        some (.sweeping junk ⟨progress.plan ++ [e.name], progress.freed + e.len⟩)
  | .evicting [] progress => some (.stopped progress.plan)
  | .evicting ((mtime, unit) :: pairs) progress =>
      if cacheUsageBytes entries - progress.freed ≤ limit then
        some (.stopped progress.plan)
      else if inGrace now grace mtime then
        some (.evicting pairs progress)
      else
        match unit.mapM (lenOf entries) with
        | some lens =>
            some (.evicting pairs ⟨progress.plan ++ unit, progress.freed + lens.sum⟩)
        | none => some .panicked
  | .stopped _ => none
  | .panicked => none

def planner : Machine PlannerState Unit where
  Initial := (· = .starting)
  step state _ := plannerStep entries limit now grace state

/-- What the planner returns from here. -/
def PlannerState.outcome : PlannerState → Option (List String)
  | .starting => planEvictions entries limit now grace
  | .sweeping junk progress =>
      (evictPairs entries (cacheUsageBytes entries) limit now grace (pairsInOrder entries)
        (sweepJunk (cacheUsageBytes entries) limit now grace junk progress)).map (·.plan)
  | .evicting pairs progress =>
      (evictPairs entries (cacheUsageBytes entries) limit now grace pairs progress).map (·.plan)
  | .stopped plan => some plan
  | .panicked => none

end Planner

section Runs

variable {entries : List CacheEntry} {limit now grace : UInt64}

theorem outcome_step {state next : PlannerState}
    (moved : plannerStep entries limit now grace state = some next) :
    next.outcome entries limit now grace = state.outcome entries limit now grace := by
  cases state with
  | starting =>
      rw [plannerStep] at moved
      split_ifs at moved with fits <;> obtain rfl := Option.some.inj moved
      · simp [PlannerState.outcome, planEvictions, fits]
      · simp [PlannerState.outcome, planEvictions, fits]
  | sweeping junk progress =>
      cases junk with
      | nil =>
          obtain rfl := Option.some.inj moved
          rfl
      | cons e junk =>
          rw [plannerStep] at moved
          split_ifs at moved with within graced <;> obtain rfl := Option.some.inj moved
          · simp [PlannerState.outcome, sweepJunk, within]
          · simp [PlannerState.outcome, sweepJunk, within, graced]
          · simp [PlannerState.outcome, sweepJunk, within, graced]
  | evicting pairs progress =>
      cases pairs with
      | nil =>
          obtain rfl := Option.some.inj moved
          rfl
      | cons pair pairs =>
          obtain ⟨mtime, unit⟩ := pair
          rw [plannerStep] at moved
          split_ifs at moved with within graced
          · obtain rfl := Option.some.inj moved
            simp [PlannerState.outcome, evictPairs, within]
          · obtain rfl := Option.some.inj moved
            simp [PlannerState.outcome, evictPairs, within, graced]
          · cases found : unit.mapM (lenOf entries) with
            | none =>
                rw [found] at moved
                obtain rfl := Option.some.inj moved
                simp [PlannerState.outcome, evictPairs, within, graced, found]
            | some lens =>
                rw [found] at moved
                obtain rfl := Option.some.inj moved
                simp [PlannerState.outcome, evictPairs, within, graced, found]
  | stopped plan => cases moved
  | panicked => cases moved

/-- Every run of the planner is heading for the result of `planEvictions`. -/
theorem outcome_of_reachable {state : PlannerState}
    (reached : (planner entries limit now grace).Reachable state) :
    state.outcome entries limit now grace = planEvictions entries limit now grace := by
  refine reached.invariant
    (fun state => state.outcome entries limit now grace = planEvictions entries limit now grace)
    ?_ ?_
  · rintro state rfl
    rfl
  · intro before _ after heading _ moved
    exact (outcome_step moved).trans heading

def PlannerState.left (entries : List CacheEntry) : PlannerState → Nat
  | .starting => (junkInOrder entries).length + (pairsInOrder entries).length + 3
  | .sweeping junk _ => junk.length + (pairsInOrder entries).length + 2
  | .evicting pairs _ => pairs.length + 1
  | .stopped _ => 0
  | .panicked => 0

theorem left_step {state next : PlannerState}
    (moved : plannerStep entries limit now grace state = some next) :
    next.left entries < state.left entries := by
  revert moved
  fun_cases plannerStep entries limit now grace state
  all_goals rintro ⟨⟩
  all_goals simp only [PlannerState.left, List.length_cons]
  all_goals omega

end Runs

/-- All files planned so far, and the files left to visit, are different files of the listing. -/
def Ledger (entries left : List CacheEntry) (progress : Progress) : Prop :=
  ∃ planned : List CacheEntry, (planned ++ left).Nodup ∧ planned ++ left ⊆ entries ∧
    progress.plan = planned.map (·.name) ∧ progress.freed = cacheUsageBytes planned

/-- The plan names listed files, each once, and `freed` is the number of their bytes. -/
def Accounted (entries : List CacheEntry) (progress : Progress) : Prop :=
  progress.plan.Nodup ∧ progress.plan ⊆ entries.map (·.name) ∧
    progress.freed.toNat = bytes (entries.filter fun e => e.name ∈ progress.plan) ∧
    progress.freed.toNat ≤ (cacheUsageBytes entries).toNat

section Ledgers

variable {entries left fewer files : List CacheEntry} {progress : Progress}

theorem Ledger.skip (ledger : Ledger entries left progress) (skipped : fewer.Sublist left) :
    Ledger entries fewer progress := by
  obtain ⟨planned, nodup, listed, plan, freed⟩ := ledger
  have shorter : (planned ++ fewer).Sublist (planned ++ left) := skipped.append_left planned
  exact ⟨planned, nodup.sublist shorter, fun _ member => listed (shorter.subset member), plan,
    freed⟩

theorem Ledger.take (ledger : Ledger entries (files ++ left) progress) :
    Ledger entries left
      ⟨progress.plan ++ files.map (·.name), progress.freed + cacheUsageBytes files⟩ := by
  obtain ⟨planned, nodup, listed, plan, freed⟩ := ledger
  rw [← List.append_assoc] at nodup listed
  refine ⟨planned ++ files, nodup, listed, ?_, ?_⟩
  · simp [plan]
  · simp [freed, cacheUsageBytes]

theorem Ledger.accounted (distinct : (entries.map (·.name)).Nodup)
    (small : bytes entries < 2 ^ 64) (ledger : Ledger entries left progress) :
    Accounted entries progress := by
  obtain ⟨planned, nodup, listed, plan, freed⟩ := ledger
  have own : planned.Nodup := (List.nodup_append.mp nodup).1
  have subset : planned ⊆ entries := fun e member => listed (List.mem_append_left _ member)
  have found : ∀ e ∈ entries, e.name ∈ progress.plan ↔ e ∈ planned := by
    intro e listedE
    rw [plan, List.mem_map]
    constructor
    · rintro ⟨f, member, same⟩
      exact eq_of_name_eq distinct (subset member) listedE same ▸ member
    · exact fun member => ⟨e, member, rfl⟩
  have same : (entries.filter fun e => e.name ∈ progress.plan).Perm planned := by
    apply (List.perm_ext_iff_of_nodup ((List.Nodup.of_map _ distinct).filter _) own).mpr
    intro e
    rw [List.mem_filter, decide_eq_true_iff]
    exact ⟨fun ⟨listedE, named⟩ => (found e listedE).mp named,
      fun member => ⟨subset member, (found e (subset member)).mpr member⟩⟩
  have fewer : bytes planned ≤ bytes entries := by
    rw [← bytes_perm same]
    exact List.Sublist.sum_le_sum (List.filter_sublist.map _) (by simp)
  have exact_freed : progress.freed.toNat = bytes planned := by
    rw [freed, toNat_cacheUsageBytes, Nat.mod_eq_of_lt (fewer.trans_lt small)]
  refine ⟨?_, ?_, ?_, ?_⟩
  · rw [plan]
    exact own.map_on fun e inE f inF => eq_of_name_eq distinct (subset inE) (subset inF)
  · rw [plan]
    exact List.map_subset _ subset
  · rw [exact_freed, bytes_perm same]
  · rw [exact_freed, toNat_cacheUsageBytes, Nat.mod_eq_of_lt small]
    exact fewer

/-- With no grace, every unit of both loops is in the eviction order. -/
theorem evictionOrder_without_grace (entries : List CacheEntry) (now : UInt64) :
    (evictionOrder entries now 0).flatten =
      junkInOrder entries ++ (blobsInOrder entries).flatMap (unitOf entries) := by
  have outside : ∀ mtime, inGrace now 0 mtime = false := fun mtime => by simp [inGrace]
  have singletons : ((junkInOrder entries).map ([·])).flatten = junkInOrder entries :=
    List.flatMap_singleton' _
  simp [evictionOrder, junkUnits, pairUnits, outside, singletons, List.flatMap]

theorem ledger_start (distinct : (entries.map (·.name)).Nodup) :
    Ledger entries (junkInOrder entries ++ (blobsInOrder entries).flatMap (unitOf entries))
      ⟨[], 0⟩ := by
  rw [← evictionOrder_without_grace entries 0]
  exact ⟨[], evictionOrder_flatten_nodup distinct, evictionOrder_flatten_subset, rfl, rfl⟩

end Ledgers

section Accounting

variable {entries : List CacheEntry} {limit now grace : UInt64}

/-- The loop invariants of both passes. -/
def PlannerState.Sound (entries : List CacheEntry) : PlannerState → Prop
  | .starting => True
  | .sweeping junk progress =>
      Ledger entries (junk ++ (blobsInOrder entries).flatMap (unitOf entries)) progress
  | .evicting pairs progress =>
      ∃ blobs ⊆ entries, pairs = blobs.map (pairOf entries) ∧
        Ledger entries (blobs.flatMap (unitOf entries)) progress
  | .stopped plan => ∃ progress, progress.plan = plan ∧ Ledger entries [] progress
  | .panicked => False

theorem sound_evicting {junk : List CacheEntry} {progress : Progress}
    (ledger : Ledger entries (junk ++ (blobsInOrder entries).flatMap (unitOf entries)) progress) :
    (PlannerState.evicting (pairsInOrder entries) progress).Sound entries :=
  ⟨blobsInOrder entries, blobsInOrder_subset entries, pairsInOrder_eq entries,
    ledger.skip (List.sublist_append_right _ _)⟩

theorem sound_stopped {left : List CacheEntry} {progress : Progress}
    (ledger : Ledger entries left progress) :
    (PlannerState.stopped progress.plan).Sound entries :=
  ⟨progress, rfl, ledger.skip (List.nil_sublist _)⟩

theorem sound_step (distinct : (entries.map (·.name)).Nodup) {state next : PlannerState}
    (sound : state.Sound entries)
    (moved : plannerStep entries limit now grace state = some next) : next.Sound entries := by
  cases state with
  | starting =>
      rw [plannerStep] at moved
      split_ifs at moved <;> obtain rfl := Option.some.inj moved
      · exact sound_stopped (ledger_start distinct)
      · exact ledger_start distinct
  | sweeping junk progress =>
      cases junk with
      | nil =>
          obtain rfl := Option.some.inj moved
          exact sound_evicting sound
      | cons e junk =>
          have ledger : Ledger entries
              ([e] ++ (junk ++ (blobsInOrder entries).flatMap (unitOf entries))) progress := sound
          rw [plannerStep] at moved
          split_ifs at moved <;> obtain rfl := Option.some.inj moved
          · exact sound_evicting sound
          · exact ledger.skip (List.sublist_append_right _ _)
          · have taken := ledger.take
            simpa [PlannerState.Sound, cacheUsageBytes] using taken
  | evicting pairs progress =>
      obtain ⟨blobs, listed, rfl, ledger⟩ := sound
      cases blobs with
      | nil =>
          obtain rfl := Option.some.inj moved
          exact sound_stopped ledger
      | cons b blobs =>
          have listedB : b ∈ entries := listed List.mem_cons_self
          have later : blobs ⊆ entries := fun f member => listed (List.mem_cons_of_mem _ member)
          rw [List.flatMap_cons] at ledger
          rw [List.map_cons, ← Prod.mk.eta (p := pairOf entries b), pairOf_snd,
            plannerStep] at moved
          split_ifs at moved
          · obtain rfl := Option.some.inj moved
            exact sound_stopped ledger
          · obtain rfl := Option.some.inj moved
            exact ⟨blobs, later, rfl, ledger.skip (List.sublist_append_right _ _)⟩
          · rw [mapM_lenOf distinct (unitOf_subset listedB)] at moved
            obtain rfl := Option.some.inj moved
            exact ⟨blobs, later, rfl, ledger.take⟩
  | stopped plan => cases moved
  | panicked => cases moved

theorem sound_of_reachable (distinct : (entries.map (·.name)).Nodup) {state : PlannerState}
    (reached : (planner entries limit now grace).Reachable state) : state.Sound entries := by
  refine reached.invariant (fun state => state.Sound entries) ?_ ?_
  · rintro state rfl
    trivial
  · intro before _ after sound _ moved
    exact sound_step distinct sound moved

theorem stopped_of_ended {state : PlannerState} (sound : state.Sound entries)
    (ended : plannerStep entries limit now grace state = none) :
    ∃ plan, state = .stopped plan := by
  revert ended
  fun_cases plannerStep entries limit now grace state
  case case12 plan => exact fun _ => ⟨plan, rfl⟩
  case case13 => exact sound.elim
  all_goals rintro ⟨⟩

theorem planner_stops (distinct : (entries.map (·.name)).Nodup) :
    ∃ plan, (planner entries limit now grace).Reachable (.stopped plan) := by
  have start : (planner entries limit now grace).Reachable .starting := .initial rfl
  obtain ⟨last, reached, ended⟩ := start.finishes (PlannerState.left entries)
    (fun _ _ goes => goes) fun _ _ _ _ moved => left_step moved
  obtain ⟨plan, rfl⟩ := stopped_of_ended (sound_of_reachable distinct reached) (ended () trivial)
  exact ⟨plan, reached⟩

def PlannerState.progress? : PlannerState → Option Progress
  | .sweeping _ progress => some progress
  | .evicting _ progress => some progress
  | _ => none

/-- The planner never panics, and its totals are exact at every turn of its loops. -/
theorem planner_accounting (distinct : (entries.map (·.name)).Nodup)
    (small : bytes entries < 2 ^ 64) :
    (∀ state, (planner entries limit now grace).Reachable state →
      state ≠ .panicked ∧
        ∀ progress, state.progress? = some progress → Accounted entries progress) ∧
    ∃ plan, planEvictions entries limit now grace = some plan ∧
      (planner entries limit now grace).Reachable (.stopped plan) ∧
      plan.Nodup ∧ plan ⊆ entries.map (·.name) := by
  constructor
  · intro state reached
    have sound := sound_of_reachable distinct reached
    refine ⟨?_, fun progress current => ?_⟩
    · rintro rfl
      exact sound
    · cases state with
      | sweeping junk ongoing =>
          obtain rfl := Option.some.inj current
          exact Ledger.accounted distinct small sound
      | evicting pairs ongoing =>
          obtain rfl := Option.some.inj current
          obtain ⟨blobs, -, -, ledger⟩ := sound
          exact ledger.accounted distinct small
      | _ => cases current
  · have stops : ∃ plan, (planner entries limit now grace).Reachable (.stopped plan) :=
      planner_stops distinct
    obtain ⟨plan, reached⟩ := stops
    obtain ⟨progress, rfl, ledger⟩ := sound_of_reachable distinct reached
    obtain ⟨nodup, listed, -⟩ := ledger.accounted distinct small
    exact ⟨progress.plan, (outcome_of_reachable reached).symm, reached, nodup, listed⟩

end Accounting

theorem planner_accounting_scratchPair :
    (∀ state, (planner scratchPair 50 5000 60).Reachable state →
      state ≠ .panicked ∧
        ∀ progress, state.progress? = some progress → Accounted scratchPair progress) ∧
    ∃ plan, planEvictions scratchPair 50 5000 60 = some plan ∧
      (planner scratchPair 50 5000 60).Reachable (.stopped plan) ∧
      plan.Nodup ∧ plan ⊆ scratchPair.map (·.name) :=
  planner_accounting (by decide) (by decide)

end Ollm.Quota
