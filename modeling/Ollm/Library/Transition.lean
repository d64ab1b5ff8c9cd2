import Mathlib.Logic.Function.Basic
import Mathlib.Logic.Relation
import Mathlib.Data.List.Basic

/-!
# Guarded runs of labelled machines

A machine has a set of initial states and a partial step function.  A run may
be restricted to events that a guard allows in the state they are taken from;
the unrestricted runs are those of the trivial guard.  `Threads` builds a
machine from any number of threads that share one world, with or without
crashes that end all of them at once.
-/

universe u v w

/-- A labelled machine.  `step` is `none` where the event cannot happen. -/
structure Machine (State : Type u) (Event : Type v) where
  Initial : State → Prop
  step : State → Event → Option State

namespace Machine

variable {State : Type u} {Event : Type v} (machine : Machine State Event)

/-- The states of runs all of whose events are `allowed` where they happen. -/
inductive ReachedBy (allowed : State → Event → Prop) : State → Prop where
  | initial {state} : machine.Initial state → ReachedBy allowed state
  | step {before event after} :
      ReachedBy allowed before →
      allowed before event →
      machine.step before event = some after →
      ReachedBy allowed after

abbrev Reachable : State → Prop :=
  machine.ReachedBy fun _ _ => True

variable {machine}

/-- What holds initially and survives every allowed step holds throughout. -/
theorem ReachedBy.invariant {allowed : State → Event → Prop}
    (Invariant : State → Prop)
    (start : ∀ state, machine.Initial state → Invariant state)
    (preserved : ∀ before event after, Invariant before →
      allowed before event → machine.step before event = some after →
      Invariant after)
    {state : State} (reached : machine.ReachedBy allowed state) :
    Invariant state := by
  induction reached with
  | initial first => exact start _ first
  | step _ permitted moved inductionHypothesis =>
      exact preserved _ _ _ inductionHypothesis permitted moved

theorem ReachedBy.mono {allowed wider : State → Event → Prop}
    (included : ∀ state event, allowed state event → wider state event)
    {state : State} (reached : machine.ReachedBy allowed state) :
    machine.ReachedBy wider state := by
  induction reached with
  | initial first => exact .initial first
  | step _ permitted moved inductionHypothesis =>
      exact .step inductionHypothesis (included _ _ permitted) moved

/-- What is known of all states of guarded runs may be assumed of the states that
events are taken from. -/
theorem ReachedBy.attach {allowed : State → Event → Prop} {Known : State → Prop}
    (known : ∀ state, machine.ReachedBy allowed state → Known state)
    {state : State} (reached : machine.ReachedBy allowed state) :
    machine.ReachedBy (fun state event => allowed state event ∧ Known state) state := by
  induction reached with
  | initial first => exact .initial first
  | step earlier permitted moved inductionHypothesis =>
      exact .step inductionHypothesis ⟨permitted, known _ earlier⟩ moved

/-- The machine from a given state on. -/
def startingAt (machine : Machine State Event) (state : State) : Machine State Event :=
  { machine with Initial := (· = state) }

/-- Steps that use up a measure can be taken until none of them is possible. -/
theorem ReachedBy.finishes {allowed goes : State → Event → Prop} (measure : State → ℕ)
    (included : ∀ state event, goes state event → allowed state event)
    (decreases : ∀ before event after, goes before event →
      machine.step before event = some after → measure after < measure before)
    {state : State} (reached : machine.ReachedBy allowed state) :
    ∃ last, machine.ReachedBy allowed last ∧
      ∀ event, goes last event → machine.step last event = none := by
  induction left : measure state using Nat.strongRecOn generalizing state with
  | ind n inductionHypothesis =>
      by_cases ended : ∀ event, goes state event → machine.step state event = none
      · exact ⟨state, reached, ended⟩
      · obtain ⟨event, goes⟩ := not_forall.mp ended
        obtain ⟨permitted, moves⟩ := not_forall.mp goes
        obtain ⟨next, moved⟩ := Option.ne_none_iff_exists'.mp moves
        have smaller := decreases _ _ _ permitted moved
        exact inductionHypothesis (measure next) (left ▸ smaller)
          (reached.step (included _ _ permitted) moved) rfl

/-- If, in the view, each step of a guarded run is an allowed step of the abstract
machine or changes nothing, then guarded runs are runs of the abstract machine. -/
theorem ReachedBy.simulated {AbstractState AbstractEvent : Type*}
    {allowed : State → Event → Prop} {abstract : Machine AbstractState AbstractEvent}
    {permitted : AbstractState → AbstractEvent → Prop} (view : State → AbstractState)
    (start : ∀ state, machine.Initial state → abstract.Initial (view state))
    (step : ∀ before event after, machine.ReachedBy allowed before → allowed before event →
      machine.step before event = some after →
      view after = view before ∨ ∃ action, permitted (view before) action ∧
        abstract.step (view before) action = some (view after))
    {state : State} (reached : machine.ReachedBy allowed state) :
    abstract.ReachedBy permitted (view state) := by
  induction reached with
  | initial first => exact .initial (start _ first)
  | step earlier allows moved inductionHypothesis =>
      rcases step _ _ _ earlier allows moved with same | ⟨action, permits, moves⟩
      · rw [same]
        exact inductionHypothesis
      · exact .step inductionHypothesis permits moves

/-- In the view, each step of a guarded run is a step of the abstract machine or
changes nothing. -/
structure Refines {AbstractState AbstractEvent : Type*} (machine : Machine State Event)
    (allowed : State → Event → Prop) (abstract : Machine AbstractState AbstractEvent)
    (view : State → AbstractState) : Prop where
  start : ∀ state, machine.Initial state → abstract.Initial (view state)
  step : ∀ before event after, machine.ReachedBy allowed before → allowed before event →
    machine.step before event = some after →
    view after = view before ∨ ∃ action, abstract.step (view before) action = some (view after)

theorem Refines.reachable {AbstractState AbstractEvent : Type*}
    {allowed : State → Event → Prop} {abstract : Machine AbstractState AbstractEvent}
    {view : State → AbstractState} (refines : machine.Refines allowed abstract view)
    {state : State} (reached : machine.ReachedBy allowed state) :
    abstract.Reachable (view state) := by
  refine reached.simulated view refines.start fun before event after earlier allows moved => ?_
  rcases refines.step before event after earlier allows moved with same | ⟨action, moves⟩
  · exact .inl same
  · exact .inr ⟨action, trivial, moves⟩

/-- Execute a list of events as long as each passes the check. -/
def run (machine : Machine State Event) (check : State → Event → Bool) :
    State → List Event → Option State
  | state, [] => some state
  | state, event :: rest =>
      if check state event then (machine.step state event).bind (machine.run check · rest)
      else none

/-- A check that implies the guard executes guarded runs.  The check may rely
on an invariant of the runs that pass it. -/
theorem ReachedBy.run_of_invariant {allowed : State → Event → Prop}
    {check : State → Event → Bool} (Invariant : State → Prop)
    (sound : ∀ state event, Invariant state → check state event = true → allowed state event)
    (preserved : ∀ before event after, Invariant before → check before event = true →
      machine.step before event = some after → Invariant after)
    {first last : State} {events : List Event} (start : Invariant first)
    (reached : machine.ReachedBy allowed first)
    (executed : machine.run check first events = some last) :
    machine.ReachedBy allowed last := by
  induction events generalizing first with
  | nil =>
      cases executed
      exact reached
  | cons event rest inductionHypothesis =>
      rw [Machine.run] at executed
      split_ifs at executed with checked
      obtain ⟨next, moved, later⟩ := Option.bind_eq_some_iff.mp executed
      exact inductionHypothesis (preserved _ _ _ start checked moved)
        (reached.step (sound _ _ start checked) moved) later

theorem ReachedBy.run {allowed : State → Event → Prop} {check : State → Event → Bool}
    (sound : ∀ state event, check state event = true → allowed state event)
    {first last : State} {events : List Event} (reached : machine.ReachedBy allowed first)
    (executed : machine.run check first events = some last) :
    machine.ReachedBy allowed last :=
  reached.run_of_invariant (fun _ => True)
    (fun state event _ => sound state event) (fun _ _ _ _ _ _ => trivial) trivial executed

/-- What is observed at the end of a checked execution is observed in a guarded run. -/
theorem reachedBy_of_observed {Observation : Type*} {allowed : State → Event → Prop}
    {check : State → Event → Bool} {observe : State → Observation} {observed : Observation}
    (sound : ∀ state event, check state event = true → allowed state event)
    {first : State} {events : List Event} (initial : machine.Initial first)
    (executed : (machine.run check first events).map observe = some observed) :
    ∃ last, machine.ReachedBy allowed last ∧ observe last = observed := by
  obtain ⟨last, ran, same⟩ := Option.map_eq_some_iff.mp executed
  exact ⟨last, ReachedBy.run sound (.initial initial) ran, same⟩

theorem run_startingAt (machine : Machine State Event) (origin : State)
    (check : State → Event → Bool) (state : State) (events : List Event) :
    (machine.startingAt origin).run check state events = machine.run check state events := by
  induction events generalizing state with
  | nil => rfl
  | cons event rest inductionHypothesis =>
      simp only [Machine.run]
      congr 1
      apply Option.bind_congr
      intro next _
      exact inductionHypothesis next

theorem reachedBy_startingAt_of_run {allowed : State → Event → Prop}
    {check : State → Event → Bool}
    (sound : ∀ state event, check state event = true → allowed state event)
    {first last : State} {events : List Event}
    (executed : machine.run check first events = some last) :
    (machine.startingAt first).ReachedBy allowed last := by
  rw [← run_startingAt machine first] at executed
  exact ReachedBy.run sound (.initial rfl) executed

end Machine

/-- Threads named by `Name` share a world.  An action of one thread reads and
writes the world and that thread's own local state only. -/
structure Threads (Name : Type u) (World : Type v) (Local : Type w)
    (Action : Type*) where
  Initial : World → Prop
  start : Name → Local
  act : Name → Action → Local → World → Option (Local × World)

namespace Threads

variable {Name : Type u} {World : Type v} {Local : Type w} {Action : Type*}
  [DecidableEq Name]

structure Config (Name : Type u) (World : Type v) (Local : Type w) where
  world : World
  locals : Name → Local

/-- Any thread may take the next action: every interleaving is a run. -/
def machine (threads : Threads Name World Local Action) :
    Machine (Config Name World Local) (Name × Action) where
  Initial config := threads.Initial config.world ∧ config.locals = threads.start
  step config event :=
    (threads.act event.1 event.2 (config.locals event.1) config.world).map
      fun result => ⟨result.2, Function.update config.locals event.1 result.1⟩

theorem acts_of_machine_step (threads : Threads Name World Local Action)
    {before after : Config Name World Local} {name : Name} {action : Action}
    (moved : threads.machine.step before (name, action) = some after) :
    threads.act name action (before.locals name) before.world =
        some (after.locals name, after.world) ∧
      ∀ other, other ≠ name → after.locals other = before.locals other := by
  obtain ⟨⟨local', world'⟩, acted, rfl⟩ := Option.map_eq_some_iff.mp moved
  exact ⟨by simpa using acted, fun other distinct => by simp [distinct]⟩

/-- What one action of a thread makes of its own state and the world. -/
def OwnStep (threads : Threads Name World Local Action) (name : Name)
    (guard : Local → World → Action → Prop) (before after : Local × World) : Prop :=
  ∃ action, guard before.1 before.2 action ∧
    threads.act name action before.1 before.2 = some after

omit [DecidableEq Name] in
/-- One own step, and then the rest. -/
theorem goes_head {threads : Threads Name World Local Action} {name : Name}
    {guard : Local → World → Action → Prop} {own own' : Local} {world world' : World}
    {after : Local × World} (action : Action) (permitted : guard own world action)
    (acted : threads.act name action own world = some (own', world'))
    (rest : Relation.ReflTransGen (threads.OwnStep name guard) (own', world') after) :
    Relation.ReflTransGen (threads.OwnStep name guard) (own, world) after := by
  apply Relation.ReflTransGen.head _ rest
  exact ⟨action, permitted, acted⟩

/-- What a thread can do alone it can do in the system while the others stay where they are. -/
theorem reachedBy_of_alone (threads : Threads Name World Local Action)
    {allowed : Config Name World Local → Name × Action → Prop}
    {guard : Local → World → Action → Prop} {name : Name} {origin config : Config Name World Local}
    {after : Local × World}
    (permits : ∀ (config : Config Name World Local) action,
      guard (config.locals name) config.world action → allowed config (name, action))
    (reached : (threads.machine.startingAt origin).ReachedBy allowed config)
    (alone : Relation.ReflTransGen (threads.OwnStep name guard)
      (config.locals name, config.world) after) :
    ∃ last, (threads.machine.startingAt origin).ReachedBy allowed last ∧
      last.locals name = after.1 ∧ last.world = after.2 ∧
      ∀ other, other ≠ name → last.locals other = config.locals other := by
  induction alone with
  | refl => exact ⟨config, reached, rfl, rfl, fun _ _ => rfl⟩
  | tail _ own inductionHypothesis =>
      obtain ⟨last, reached', own', world, others⟩ := inductionHypothesis
      obtain ⟨action, guarded, acted⟩ := own
      rw [← own', ← world] at guarded acted
      have moved : (threads.machine.startingAt origin).step last (name, action) = _ :=
        congrArg (Option.map _) acted
      refine ⟨_, reached'.step (permits last action guarded) moved, ?_, rfl, ?_⟩
      · exact Function.update_self _ _ _
      · intro other distinct
        exact (Function.update_of_ne distinct _ _).trans (others other distinct)

/-- What a thread does alone, with what its actions emit on the way. -/
inductive OwnRun {Emission : Type*} (threads : Threads Name World Local Action) (name : Name)
    (emits : Action → Local → List Emission) (start : Local × World) :
    List Emission → Local × World → Prop where
  | refl : OwnRun threads name emits start [] start
  | step {log before after action} :
      OwnRun threads name emits start log before →
      threads.act name action before.1 before.2 = some after →
      OwnRun threads name emits start (log ++ emits action before.1) after

omit [DecidableEq Name] in
/-- What holds at the start and survives every own action holds at the end. -/
theorem OwnRun.invariant {Emission : Type*} {threads : Threads Name World Local Action}
    {name : Name} {emits : Action → Local → List Emission} {start last : Local × World}
    {log : List Emission} (Invariant : List Emission → Local × World → Prop)
    (holds : Invariant [] start)
    (preserved : ∀ log before action after, Invariant log before →
      threads.act name action before.1 before.2 = some after →
      Invariant (log ++ emits action before.1) after)
    (ran : threads.OwnRun name emits start log last) : Invariant log last := by
  induction ran with
  | refl => exact holds
  | step _ acted inductionHypothesis => exact preserved _ _ _ _ inductionHypothesis acted

/-- Execute a list of actions of one thread. -/
def execute {Emission : Type*} (threads : Threads Name World Local Action) (name : Name)
    (emits : Action → Local → List Emission) :
    Local × World → List Action → Option (List Emission × Local × World)
  | state, [] => some ([], state)
  | state, action :: rest =>
      (threads.act name action state.1 state.2).bind fun next =>
        (threads.execute name emits next rest).map fun result =>
          (emits action state.1 ++ result.1, result.2)

omit [DecidableEq Name] in
theorem OwnRun.execute {Emission : Type*} {threads : Threads Name World Local Action}
    {name : Name} {emits : Action → Local → List Emission} {start state last : Local × World}
    {past log : List Emission} {actions : List Action}
    (ran : threads.OwnRun name emits start past state)
    (executed : threads.execute name emits state actions = some (log, last)) :
    threads.OwnRun name emits start (past ++ log) last := by
  induction actions generalizing past state log with
  | nil =>
      obtain ⟨rfl, rfl⟩ := Prod.mk.inj (Option.some.inj executed)
      rwa [List.append_nil]
  | cons action rest inductionHypothesis =>
      obtain ⟨next, acted, later⟩ := Option.bind_eq_some_iff.mp executed
      obtain ⟨⟨log', last'⟩, continued, same⟩ := Option.map_eq_some_iff.mp later
      obtain ⟨rfl, rfl⟩ := Prod.mk.inj same
      rw [← List.append_assoc]
      exact inductionHypothesis (ran.step acted) continued

/-- The threads with a log of what their actions emit, which none of them reads. -/
def logging {Emission : Type*} (threads : Threads Name World Local Action)
    (emits : Name → Action → Local → World → List Emission) :
    Threads Name (List Emission × World) Local Action where
  Initial world := world.1 = [] ∧ threads.Initial world.2
  start := threads.start
  act name action own world :=
    (threads.act name action own world.2).map fun result =>
      (result.1, world.1 ++ emits name action own world.2, result.2)

omit [DecidableEq Name] in
theorem acts_of_logging {Emission : Type*} {threads : Threads Name World Local Action}
    {emits : Name → Action → Local → World → List Emission} {name : Name} {action : Action}
    {own own' : Local} {world world' : List Emission × World}
    (acted : (threads.logging emits).act name action own world = some (own', world')) :
    threads.act name action own world.2 = some (own', world'.2) ∧
      world'.1 = world.1 ++ emits name action own world.2 := by
  obtain ⟨result, did, same⟩ := Option.map_eq_some_iff.mp acted
  obtain ⟨rfl, rfl⟩ := Prod.mk.inj same
  exact ⟨did, rfl⟩

/-- Without their log, logged runs are runs. -/
theorem reachable_of_logging {Emission : Type*} {threads : Threads Name World Local Action}
    {emits : Name → Action → Local → World → List Emission}
    {config : Config Name (List Emission × World) Local}
    (reached : (threads.logging emits).machine.Reachable config) :
    threads.machine.Reachable ⟨config.world.2, config.locals⟩ := by
  have refines : (threads.logging emits).machine.Refines (fun _ _ => True) threads.machine
      fun config => ⟨config.world.2, config.locals⟩ := by
    refine ⟨?_, ?_⟩
    · rintro config ⟨⟨-, initial⟩, locals⟩
      exact ⟨initial, locals⟩
    · rintro before ⟨name, action⟩ after - - moved
      obtain ⟨result, acted, rfl⟩ := Option.map_eq_some_iff.mp moved
      right
      refine ⟨(name, action), ?_⟩
      exact congrArg (Option.map _) (acts_of_logging acted).1
  exact refines.reachable reached

/-- The threads from the `n`-th on are still in their initial states. -/
def Unstarted (threads : Threads ℕ World Local Action) (n : ℕ)
    (config : Config ℕ World Local) : Prop :=
  ∀ other, n ≤ other → config.locals other = threads.start other

theorem Unstarted.step {threads : Threads ℕ World Local Action} {n : ℕ}
    {before after : Config ℕ World Local} {name : ℕ} {action : Action}
    (unstarted : threads.Unstarted n before) (below : name < n)
    (moved : threads.machine.step before (name, action) = some after) :
    threads.Unstarted n after := by
  intro other beyond
  rw [(threads.acts_of_machine_step moved).2 other (Nat.ne_of_gt (Nat.lt_of_lt_of_le below beyond))]
  exact unstarted other beyond

/-- A check of the first `n` threads executes guarded runs of these. -/
theorem reachedBy_of_run_among (threads : Threads ℕ World Local Action) (n : ℕ)
    {allowed : Config ℕ World Local → ℕ × Action → Prop}
    {check : Config ℕ World Local → ℕ × Action → Bool}
    (among : ∀ config event, check config event = true → event.1 < n)
    (sound : ∀ config event, threads.Unstarted n config → check config event = true →
      allowed config event)
    {first last : Config ℕ World Local} {events : List (ℕ × Action)}
    (initial : threads.machine.Initial first)
    (executed : threads.machine.run check first events = some last) :
    threads.machine.ReachedBy allowed last := by
  refine (Machine.ReachedBy.initial initial).run_of_invariant (threads.Unstarted n) sound ?_ ?_
    executed
  · intro before event after unstarted checked moved
    exact unstarted.step (among before event checked) moved
  · intro other _
    rw [initial.2]

/-- Local assertions hold throughout if every thread starts in its own, its
own actions re-establish it, and no action of another thread disturbs it. -/
theorem assertion_of_reachedBy (threads : Threads Name World Local Action)
    {allowed : Config Name World Local → Name × Action → Prop}
    (Assertion : Name → Local → World → Prop)
    (start : ∀ world, threads.Initial world → ∀ name,
      Assertion name (threads.start name) world)
    (own : ∀ (config : Config Name World Local) name action local' world',
      (∀ each, Assertion each (config.locals each) config.world) →
      allowed config (name, action) →
      threads.act name action (config.locals name) config.world =
        some (local', world') →
      Assertion name local' world')
    (undisturbed : ∀ (config : Config Name World Local) name action local' world',
      (∀ each, Assertion each (config.locals each) config.world) →
      allowed config (name, action) →
      threads.act name action (config.locals name) config.world =
        some (local', world') →
      ∀ other, other ≠ name → Assertion other (config.locals other) world')
    {config : Config Name World Local}
    (reached : threads.machine.ReachedBy allowed config) (name : Name) :
    Assertion name (config.locals name) config.world := by
  refine reached.invariant
    (fun config => ∀ each, Assertion each (config.locals each) config.world)
    ?_ ?_ name
  · rintro config ⟨first, locals⟩ each
    rw [locals]
    exact start config.world first each
  · rintro before ⟨actor, action⟩ after holds permitted moved each
    obtain ⟨acted, others⟩ := threads.acts_of_machine_step moved
    by_cases same : each = actor
    · subst same
      exact own before each action _ _ holds permitted acted
    · rw [others each same]
      exact undisturbed before actor action _ _ holds permitted acted each same

/-- All threads but one rest, and the assertion holds of that one. -/
def Soloist (Resting : Local → Prop) (Solo : Name → Local → World → Prop)
    (config : Config Name World Local) : Prop :=
  ∃ name, (∀ other, other ≠ name → Resting (config.locals other)) ∧
    Solo name (config.locals name) config.world

section Soloists

variable {Resting : Local → Prop} {Solo : Name → Local → World → Prop}

omit [DecidableEq Name] in
theorem soloist_of_resting [Nonempty Name] {config : Config Name World Local}
    (start : ∀ name, Resting (config.locals name) ∧
      Solo name (config.locals name) config.world) : Soloist Resting Solo config := by
  obtain ⟨name⟩ := ‹Nonempty Name›
  exact ⟨name, fun other _ => (start other).1, (start name).2⟩

theorem Soloist.step {threads : Threads Name World Local Action}
    {before after : Config Name World Local} {actor : Name} {action : Action}
    (soloist : Soloist Resting Solo before)
    (serial : Resting (before.locals actor) →
      ∀ other, other ≠ actor → Resting (before.locals other))
    (handover : ∀ name next rest rest' world, Resting rest → Resting rest' →
      Solo name rest world → Solo next rest' world)
    (own : ∀ local' world', Solo actor (before.locals actor) before.world →
      threads.act actor action (before.locals actor) before.world = some (local', world') →
      Solo actor local' world')
    (moved : threads.machine.step before (actor, action) = some after) :
    Soloist Resting Solo after := by
  obtain ⟨name, rest, solo⟩ := soloist
  obtain ⟨acted, others⟩ := threads.acts_of_machine_step moved
  refine ⟨actor, fun other distinct => ?_, ?_⟩
  · rw [others other distinct]
    by_cases same : actor = name
    · exact rest other (same ▸ distinct)
    · exact serial (rest actor same) other distinct
  · refine own _ _ ?_ acted
    by_cases same : actor = name
    · exact same ▸ solo
    · have resting := rest actor same
      have others' := serial resting name (Ne.symm same)
      exact handover name actor _ _ _ others' resting solo

end Soloists

/-- In serial runs a resting thread starts to act only while all others rest.
An assertion that any resting thread can take over from any other then holds of
the one thread that may be active. -/
theorem solo_of_reachedBy [Nonempty Name] (threads : Threads Name World Local Action)
    {allowed : Config Name World Local → Name × Action → Prop}
    (Resting : Local → Prop) (Solo : Name → Local → World → Prop)
    (start : ∀ world, threads.Initial world → ∀ name,
      Resting (threads.start name) ∧ Solo name (threads.start name) world)
    (serial : ∀ (config : Config Name World Local) name action,
      allowed config (name, action) → Resting (config.locals name) →
      ∀ other, other ≠ name → Resting (config.locals other))
    (handover : ∀ name next rest rest' world, Resting rest → Resting rest' →
      Solo name rest world → Solo next rest' world)
    (own : ∀ (config : Config Name World Local) name action local' world',
      Solo name (config.locals name) config.world →
      allowed config (name, action) →
      threads.act name action (config.locals name) config.world =
        some (local', world') →
      Solo name local' world')
    {config : Config Name World Local} (reached : threads.machine.ReachedBy allowed config) :
    ∃ name, (∀ other, other ≠ name → Resting (config.locals other)) ∧
      Solo name (config.locals name) config.world := by
  refine reached.invariant (Soloist Resting Solo) ?_ ?_
  · rintro config ⟨first, locals⟩
    refine soloist_of_resting fun name => ?_
    rw [locals]
    exact start config.world first name
  · rintro before ⟨actor, action⟩ after soloist permitted moved
    refine soloist.step (serial before actor action permitted) handover ?_ moved
    exact fun local' world' solo acted =>
      own before actor action local' world' solo permitted acted

/-- Between any two actions a crash may change the world and abort all threads. -/
def crashing {Fault : Type*} (threads : Threads Name World Local Action)
    (abort : Local → Local) (crash : Fault → World → World) :
    Machine (Config Name World Local) (Name × Action ⊕ Fault) where
  Initial config := threads.Initial config.world ∧ config.locals = threads.start
  step
    | config, .inl event => threads.machine.step config event
    | config, .inr fault =>
        some ⟨crash fault config.world, fun name => abort (config.locals name)⟩

/-- Local assertions about a world that keeps a shared invariant: every step
keeps the invariant and the assertions of the acting and of all other threads,
and so does every crash. -/
theorem assertion_of_crashing {Fault : Type*} (threads : Threads Name World Local Action)
    {abort : Local → Local} {crash : Fault → World → World}
    {allowed : Config Name World Local → Name × Action ⊕ Fault → Prop}
    (Shared : World → Prop) (Assertion : Name → Local → World → Prop)
    (start : ∀ world, threads.Initial world →
      Shared world ∧ ∀ name, Assertion name (threads.start name) world)
    (own : ∀ (config : Config Name World Local) name action local' world',
      Shared config.world → (∀ each, Assertion each (config.locals each) config.world) →
      allowed config (.inl (name, action)) →
      threads.act name action (config.locals name) config.world =
        some (local', world') →
      Shared world' ∧ Assertion name local' world')
    (undisturbed : ∀ (config : Config Name World Local) name action local' world',
      (∀ each, Assertion each (config.locals each) config.world) →
      allowed config (.inl (name, action)) →
      threads.act name action (config.locals name) config.world =
        some (local', world') →
      ∀ other, other ≠ name → Assertion other (config.locals other) world')
    (crashed : ∀ (world : World) fault, Shared world →
      Shared (crash fault world) ∧
        ∀ name local', Assertion name (abort local') (crash fault world))
    {config : Config Name World Local}
    (reached : (threads.crashing abort crash).ReachedBy allowed config) :
    Shared config.world ∧ ∀ name, Assertion name (config.locals name) config.world := by
  refine reached.invariant
    (fun config => Shared config.world ∧
      ∀ name, Assertion name (config.locals name) config.world) ?_ ?_
  · rintro ⟨world, locals⟩ ⟨first, rfl⟩
    exact start world first
  · rintro before (⟨actor, action⟩ | fault) after ⟨shared, holds⟩ permitted moved
    · obtain ⟨acted, others⟩ := threads.acts_of_machine_step moved
      obtain ⟨shared', local'⟩ := own before actor action _ _ shared holds permitted acted
      refine ⟨shared', fun each => ?_⟩
      by_cases same : each = actor
      · exact same ▸ local'
      · rw [others each same]
        exact undisturbed before actor action _ _ holds permitted acted each same
    · cases moved
      obtain ⟨shared', aborted⟩ := crashed before.world fault shared
      exact ⟨shared', fun name => aborted name _⟩

/-- A check of the first `n` threads, none of which crashes start, executes guarded runs
with crashes, in which the other threads have not started. -/
theorem reachedBy_of_crashing_run {Fault : Type*} (threads : Threads ℕ World Local Action) (n : ℕ)
    {abort : Local → Local} {crash : Fault → World → World}
    {allowed : Config ℕ World Local → ℕ × Action ⊕ Fault → Prop}
    {check : Config ℕ World Local → ℕ × Action ⊕ Fault → Bool}
    (unmoved : ∀ name, abort (threads.start name) = threads.start name)
    (among : ∀ config name action, check config (.inl (name, action)) = true → name < n)
    (sound : ∀ config event, threads.Unstarted n config → check config event = true →
      allowed config event)
    {first last : Config ℕ World Local} {events : List (ℕ × Action ⊕ Fault)}
    (initial : threads.machine.Initial first)
    (executed : (threads.crashing abort crash).run check first events = some last) :
    (threads.crashing abort crash).ReachedBy allowed last ∧ threads.Unstarted n last := by
  have fresh : threads.Unstarted n first := fun other _ => by rw [initial.2]
  have kept : ∀ before event after, threads.Unstarted n before → check before event = true →
      (threads.crashing abort crash).step before event = some after →
      threads.Unstarted n after := by
    rintro before (⟨name, action⟩ | fault) after unstarted checked moved
    · exact unstarted.step (among before name action checked) moved
    · cases moved
      exact fun other beyond => (congrArg abort (unstarted other beyond)).trans (unmoved other)
  have start : (threads.crashing abort crash).Initial first := initial
  have reached : (threads.crashing abort crash).ReachedBy
      (fun config event => allowed config event ∧ check config event = true) last :=
    (Machine.ReachedBy.initial start).run_of_invariant (threads.Unstarted n)
      (fun config event unstarted checked => ⟨sound config event unstarted checked, checked⟩)
      kept fresh executed
  refine ⟨reached.mono fun _ _ both => both.1, ?_⟩
  refine reached.invariant (threads.Unstarted n) ?_ ?_
  · intro config initial other _
    rw [initial.2]
  · exact fun before event after unstarted both moved =>
      kept before event after unstarted both.2 moved

end Threads
