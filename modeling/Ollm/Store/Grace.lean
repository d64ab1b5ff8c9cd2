import Ollm.Quota.Recency
import Ollm.Store.Steps

/-!
# Grace of fresh files

A quota pass plans from the modification times it scanned and then removes
files by name.  It removes no fresh file if the listing it plans from shows the
recency of every file, and no file is published or touched under a name that is
already planned.
-/

namespace Ollm.Store

open Keying Quota

variable {backendSig : String} {calls : CallId → Call} {limit : UInt64} {c : CallId}
  {world world' : World}

/-- The 60 s of `enforce_limit`, in nanoseconds. -/
def graceNanos : Nat := 60 * 10 ^ 9

def refreshed (backendSig : String) (calls : CallId → Call) (c : CallId) (world : World) :
    Action → Option String
  | .rename true => some (blobOf backendSig calls c)
  | .carry true =>
      if (world.dir (sidecarPath (scratchOf backendSig calls c))).isSome then
        some (sidecarPath (blobOf backendSig calls c))
      else none
  | .touch true =>
      if (world.dir (blobOf backendSig calls c)).isSome then some (blobOf backendSig calls c)
      else none
  | _ => none

/-- The listing shows the recency of each file that is fresh at planning time. -/
def ShowsRecency (world : World) (entries : List CacheEntry) : Prop :=
  ∀ e ∈ entries, ∀ time ∈ world.fresh e.name, world.clock < time + graceNanos →
    inGrace (secs world.clock) 60 (unitMtime entries e) = true

instance (world : World) (entries : List CacheEntry) : Decidable (ShowsRecency world entries) :=
  inferInstanceAs (Decidable (∀ e ∈ entries, ∀ time ∈ world.fresh e.name, _ → _))

def Phase.listing : Phase → List CacheEntry
  | .scanning entries => entries
  | _ => []

/-- The names that a pass has yet to remove. -/
def Phase.doomed : Phase → List String
  | .removing names => names
  | _ => []

/-- Passes plan from listings that show recency, and no name is refreshed that
a pass has yet to remove. -/
def Timely (backendSig : String) (calls : CallId → Call) (config : StoreState) :
    CallId × Action ⊕ (String → Bool) → Prop
  | .inl (c, action) =>
      (action = .plan → ShowsRecency config.world (config.locals c).listing) ∧
      ∀ name ∈ refreshed backendSig calls c config.world action,
        ∀ other, name ∉ (config.locals other).doomed
  | .inr _ => True

/-- Every removed file was last published or touched at least 60 s before. -/
def Graceful (world : World) : Prop :=
  ∀ removal ∈ world.removals, ∀ time, removal.fresh = some time →
    time + graceNanos ≤ removal.time

/-- What a quota pass relies on: it lists each name once, and no file that it is
about to remove is fresh. -/
structure Sparing (phase : Phase) (world : World) : Prop where
  distinct : (phase.listing.map (·.name)).Nodup
  aged : ∀ name ∈ phase.doomed, ∀ time ∈ world.fresh name, time + graceNanos ≤ world.clock

theorem Step.clock {action : Action} {phase phase' : Phase}
    (step : Step backendSig calls limit c action phase world phase' world') :
    world.clock ≤ world'.clock := by
  cases step with
  | touched =>
      simp only [World.finish, World.touch]
      split_ifs <;> exact Nat.le_refl _
  | tick => exact Nat.le_add_right _ _
  | _ => exact Nat.le_refl _

theorem Step.fresh {action : Action} {phase phase' : Phase}
    (step : Step backendSig calls limit c action phase world phase' world') {name : String}
    {time : Nat} (isFresh : world'.fresh name = some time) :
    world.fresh name = some time ∨ refreshed backendSig calls c world action = some name := by
  have updated : ∀ {target : String} {value : Option Nat},
      Function.update world.fresh target value name = some time →
      world.fresh name = some time ∨ target = name ∧ value.isSome = true := by
    intro target value changed
    by_cases same : target = name
    · subst same
      rw [Function.update_self] at changed
      exact .inr ⟨rfl, by simp [changed]⟩
    · exact .inl (by rwa [Function.update_of_ne (Ne.symm same)] at changed)
  cases step with
  | renamed => exact (updated isFresh).imp_right fun own => by simp [refreshed, own.1]
  | carried present =>
      exact (updated isFresh).imp_right fun own => by simp [refreshed, present, own.1]
  | touched =>
      simp only [World.finish, World.touch] at isFresh
      split_ifs at isFresh with present
      · exact (updated isFresh).imp_right fun own => by
          simpa only [refreshed, present, if_true, Option.some.injEq] using own.1
      · exact .inl isFresh
  | removed => exact .inl ((updated isFresh).resolve_right (by simp))
  | _ => exact .inl isFresh

theorem Sparing.undisturbed {actor : CallId} {action : Action} {phase own own' : Phase}
    (sparing : Sparing phase world)
    (apart : ∀ name ∈ refreshed backendSig calls actor world action, name ∉ phase.doomed)
    (step : Step backendSig calls limit actor action own world own' world') :
    Sparing phase world' := by
  refine ⟨sparing.distinct, fun name member time isFresh => ?_⟩
  rcases step.fresh isFresh with before | refreshes
  · exact (sparing.aged name member time before).trans step.clock
  · exact absurd member (apart name refreshes)

theorem aged_of_planned {entries : List CacheEntry} (distinct : (entries.map (·.name)).Nodup)
    (shows : ShowsRecency world entries) {plan : List String}
    (planned : planEvictions entries limit (secs world.clock) 60 = some plan) {name : String}
    (member : name ∈ plan) {time : Nat} (isFresh : time ∈ world.fresh name) :
    time + graceNanos ≤ world.clock := by
  obtain ⟨e, listed, rfl, outside⟩ := planned_outside_grace distinct planned member
  by_contra recent
  have inside := shows e listed time isFresh (Nat.lt_of_not_le recent)
  exact absurd (outside.symm.trans inside) (by decide)

theorem Sparing.of_idle {phase : Phase} (unlisted : phase.listing = [])
    (undoomed : phase.doomed = []) : Sparing phase world := by
  refine ⟨?_, ?_⟩
  · rw [unlisted]
    exact List.nodup_nil
  · rw [undoomed]
    nofun

theorem Sparing.step {config : StoreState} {action : Action} {phase' : Phase}
    (sparing : Sparing (config.locals c) config.world)
    (timely : Timely backendSig calls config (.inl (c, action)))
    (step : Step backendSig calls limit c action (config.locals c) config.world phase' world') :
    Sparing phase' world' := by
  obtain ⟨world, locals⟩ := config
  obtain ⟨shows, -⟩ := timely
  simp only at sparing shows step
  generalize locals c = phase at sparing shows step
  have moved := step
  cases step with
  | scan present unlisted =>
      refine ⟨?_, nofun⟩
      simp only [Phase.listing, List.map_append, List.map_cons, List.map_nil, entryOf]
      exact List.nodup_append.mpr ⟨sparing.distinct, List.nodup_singleton _, by grind⟩
  | @plan entries =>
      refine ⟨List.nodup_nil, fun name member time isFresh => ?_⟩
      cases planned : planEvictions entries limit (secs world'.clock) 60 with
      | none => simp [Phase.doomed, planned] at member
      | some plan =>
          simp only [Phase.doomed, planned, Option.getD_some] at member
          exact aged_of_planned sparing.distinct (shows rfl) planned member isFresh
  | removed =>
      refine ⟨List.nodup_nil, fun name member time isFresh => ?_⟩
      have before := (moved.fresh isFresh).resolve_right (by simp [refreshed])
      exact sparing.aged name (List.mem_cons_of_mem _ member) time before
  | notRemoved =>
      exact ⟨List.nodup_nil, fun name member =>
        sparing.aged name (List.mem_cons_of_mem _ member)⟩
  | tick | dropped => exact sparing.undisturbed (by simp [refreshed]) moved
  | _ => exact .of_idle rfl rfl

theorem Graceful.step {action : Action} {phase phase' : Phase}
    (graceful : Graceful world) (sparing : Sparing phase world)
    (step : Step backendSig calls limit c action phase world phase' world') :
    Graceful world' := by
  cases step with
  | touched =>
      simp only [World.finish, World.touch]
      split_ifs <;> exact graceful
  | removed =>
      intro removal member
      rcases List.mem_cons.mp member with rfl | earlier
      · exact sparing.aged _ List.mem_cons_self
      · exact graceful removal earlier
  | _ => exact graceful

/-- In timely runs a quota pass removes no file that was published or touched
under its name less than 60 s before. -/
theorem removal_after_grace {config : StoreState}
    (reached : (storeMachine backendSig calls limit).ReachedBy
      (Timely backendSig calls) config) : Graceful config.world := by
  refine ((store backendSig calls limit).assertion_of_crashing Graceful (fun _ => Sparing)
    ?_ ?_ ?_ ?_ reached).1
  · intro world fresh
    refine ⟨fun removal removed => ?_, fun _ => .of_idle rfl rfl⟩
    rw [fresh.removals] at removed
    cases removed
  · intro config call action phase' world' graceful sparing timely acted
    have step := step_of_act acted
    exact ⟨graceful.step (sparing call) step, (sparing call).step timely step⟩
  · intro config actor action phase' world' sparing timely acted other distinct
    exact (sparing other).undisturbed (fun name refreshes => timely.2 name refreshes other)
      (step_of_act acted)
  · intro world torn graceful
    refine ⟨graceful, fun _ phase => ?_⟩
    cases phase <;> exact .of_idle rfl rfl

/-! ## Runs -/

/-- Calls 0 and 2 save one session, call 1 is a quota pass. -/
def savesAndLimit : CallId → Call
  | 1 => .limit
  | _ => .save "hdr-a"

def limitPass (c : CallId) (names : List String) : List (CallId × Action ⊕ (String → Bool)) :=
  let actions : List Action := [.begin] ++ names.map .scan ++ [.plan]
  actions.map fun action => .inl (c, action)

/-- A pass plans an old blob; before it removes the name, a save publishes
under it. -/
theorem publishAfterPlan_removed :
    ¬ ∀ (backendSig : String) (calls : CallId → Call) (limit : UInt64) (config : StoreState),
      (storeMachine backendSig calls limit).Reachable config → Graceful config.world := by
  intro always
  have executed : (((storeMachine "0123456789ab" savesAndLimit 0).run (fun _ _ => true) storeStart
      (publishing 0 9 ++ [.inl (0, .carry true), .inl (0, .index), .inl (0, .touch true),
        .inl (0, .tick (100 * 10 ^ 9))] ++
        limitPass 1 [blobName "0123456789ab" "hdr-a"] ++ publishing 2 9 ++
        [.inl (1, .remove true)])).map fun config => config.world.removals) =
      some [⟨blobName "0123456789ab" "hdr-a", some (100 * 10 ^ 9), 100 * 10 ^ 9⟩] := by
    decide
  obtain ⟨config, reached, removals⟩ := Machine.reachedBy_of_observed (fun _ _ _ => trivial)
    (initial_storeStart "0123456789ab" savesAndLimit 0) executed
  have late := always _ savesAndLimit 0 config reached _
    (by rw [removals]; exact List.mem_cons_self) _ rfl
  exact absurd late (by decide)

/-- A check for `Timely` when only the first `n` calls have started. -/
def timelyAmong (backendSig : String) (calls : CallId → Call) (n : Nat) (config : StoreState) :
    CallId × Action ⊕ (String → Bool) → Bool
  | .inl (c, action) =>
      decide (action = .plan → ShowsRecency config.world (config.locals c).listing) &&
        (refreshed backendSig calls c config.world action).all fun name =>
          (List.range n).all fun other => decide (name ∉ (config.locals other).doomed)
  | .inr _ => true

theorem timely_of_timelyAmong {n : Nat} {config : StoreState}
    {event : CallId × Action ⊕ (String → Bool)}
    (unstarted : (store backendSig calls limit).Unstarted n config)
    (checked : timelyAmong backendSig calls n config event = true) :
    Timely backendSig calls config event := by
  rcases event with ⟨c, action⟩ | torn
  · rw [timelyAmong, Bool.and_eq_true, decide_eq_true_eq, Option.all_eq_true] at checked
    refine ⟨checked.1, fun name refreshes other => ?_⟩
    by_cases started : other < n
    · have apart :=
        List.all_eq_true.mp (checked.2 name refreshes) other (List.mem_range.mpr started)
      exact of_decide_eq_true apart
    · rw [unstarted other (Nat.le_of_not_lt started)]
      nofun
  · trivial

/-- A blob that was published 100 s before the pass is removed. -/
theorem removal_after_grace_old_blob :
    ∃ config : StoreState, config.world.removals =
        [⟨blobName "0123456789ab" "hdr-a", some 0, 100 * 10 ^ 9⟩] ∧
      Graceful config.world := by
  have executed : (((storeMachine "0123456789ab" savesAndLimit 0).run
      (fun config event => among 2 event &&
        timelyAmong "0123456789ab" savesAndLimit 2 config event) storeStart
      (publishing 0 9 ++ [.inl (0, .carry true), .inl (0, .index), .inl (0, .touch true),
        .inl (0, .tick (100 * 10 ^ 9))] ++
        limitPass 1 [blobName "0123456789ab" "hdr-a"] ++ [.inl (1, .remove true)])).map
          fun config => config.world.removals) =
      some [⟨blobName "0123456789ab" "hdr-a", some 0, 100 * 10 ^ 9⟩] := by
    decide
  obtain ⟨config, ran, removals⟩ := Option.map_eq_some_iff.mp executed
  have reached := storeRun _
    (fun _ _ unstarted _ checked => timely_of_timelyAmong unstarted checked) ran
  exact ⟨config, removals, removal_after_grace reached⟩

end Ollm.Store
