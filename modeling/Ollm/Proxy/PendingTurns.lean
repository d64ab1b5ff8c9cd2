import Ollm.Proxy.Exclusivity

/-!
# Pending turns

A steered turn is pending until its own save publishes it or it fails or is
abandoned.  One dirty flag stands for all pending turns of a slot, so the flag
outlasts each of them only if no save or cleanup runs while another turn is
pending on the same slot.
-/

namespace Ollm.Proxy

variable {backendSig : String} {requests : RequestId → Request} {r : RequestId}

/-- The phases in which a turn may still be pending on the slot. -/
def Phase.Unfinished (id : SlotId) : Phase → Prop
  | .forwarding steer _ _ => steer = some id
  | .receiving steer _ => steer = some id
  | .relabelling slot => slot = id
  | .saving .postTurn _ _ .cleaning => False
  | .saving .postTurn slot _ _ => slot = id
  | .enforcing => True
  | .done => True
  | _ => False

theorem Step.pending_other {action : Action} {phase phase' : Phase} {world world' : World}
    (step : Step backendSig requests r action phase world phase' world')
    {other : RequestId} (distinct : other ≠ r) :
    world'.history.pending other = world.history.pending other := by
  cases step <;> first
    | rfl
    | exact Function.update_of_ne distinct _ _

/-- A turn becomes pending by being marked; until it is settled it goes through
its unfinished phases, and none of these clears a dirty flag. -/
theorem Step.pending_own {action : Action} {phase phase' : Phase} {world world' : World}
    (step : Step backendSig requests r action phase world phase' world') {id : SlotId}
    (unfinished : world.history.pending r = some id → phase.Unfinished id)
    (pending : world'.history.pending r = some id) :
    phase'.Unfinished id ∧
      (markedSlot action phase = some id ∨
        (world.history.pending r = some id ∧ clearedSlot action phase = none)) := by
  cases step with
  | @mark slot =>
      have marked : some slot = some id := by simpa [World.mark] using pending
      exact ⟨marked, .inl marked⟩
  | failed | refused | streamBroken | bodyBroken | hungUp | drop | publishTurn =>
      simp [World.settle] at pending
  | land | success | relabel | remove | settle =>
      exact ⟨unfinished pending, .inr ⟨pending, rfl⟩⟩
  | @complete steer =>
      have steered : steer = some id := unfinished pending
      subst steered
      exact ⟨rfl, .inr ⟨pending, rfl⟩⟩
  | @lock caller | @capture caller | @saved caller =>
      cases caller with
      | eviction => exact (unfinished pending).elim
      | postTurn => exact ⟨unfinished pending, .inr ⟨pending, rfl⟩⟩
  | @saveFailed caller | @publishFailed caller =>
      cases caller with
      | eviction => exact (unfinished pending).elim
      | postTurn => exact ⟨trivial, .inr ⟨pending, rfl⟩⟩
  | @clean caller => cases caller <;> exact (unfinished pending).elim
  | _ => exact (unfinished pending).elim

/-- No dirty flag is cleared on a slot that another turn is pending on. -/
def Solitary (config : ProxyState) (event : RequestId × Action) : Prop :=
  ∀ id, clearedSlot event.2 (config.locals event.1) = some id →
    ∀ other, other ≠ event.1 → config.world.history.pending other ≠ some id

/-- A pending turn is unfinished and its slot held. -/
def PendingHeld (session : String) (r : RequestId) (phase : Phase) (world : World) : Prop :=
  ∀ id, world.history.pending r = some id →
    phase.Unfinished id ∧ Held world.slots id session

theorem PendingHeld.own {session : String} {action : Action} {phase phase' : Phase}
    {world world' : World} (single : (requests r).session = session)
    (holds : PendingHeld session r phase world)
    (step : Step backendSig requests r action phase world phase' world') :
    PendingHeld session r phase' world' := by
  intro slot pendingTurn
  obtain ⟨unfinished, marks | ⟨before, keeps⟩⟩ :=
    step.pending_own (fun before => (holds slot before).1) pendingTurn
  · exact ⟨unfinished, single ▸ step.held_of_marks marks⟩
  · exact ⟨unfinished, (holds slot before).2.registryStep step.registry
      (fun _ => single) (by simp [keeps]) fun _ => single⟩

theorem PendingHeld.other {session : String} {config : ProxyState} {actor other : RequestId}
    {action : Action} {phase' : Phase} {world' : World}
    (single : (requests actor).session = session)
    (holds : PendingHeld session other (config.locals other) config.world)
    (solitary : Solitary config (actor, action)) (distinct : other ≠ actor)
    (step : Step backendSig requests actor action (config.locals actor) config.world phase'
      world') : PendingHeld session other (config.locals other) world' := by
  intro slot pendingTurn
  rw [step.pending_other distinct] at pendingTurn
  obtain ⟨unfinished, held⟩ := holds slot pendingTurn
  refine ⟨unfinished, held.registryStep step.registry (fun _ => single) ?_ fun _ => single⟩
  intro clears
  exact solitary slot clears other distinct pendingTurn

/-- In solitary runs of one session's requests, every pending turn's slot is
dirty and owned by the session. -/
theorem pending_turn_held {session : String}
    (single : ∀ name, (requests name).session = session) {config : ProxyState}
    (reached : (chat backendSig requests).machine.ReachedBy Solitary config)
    {name : RequestId} {id : SlotId} (pending : config.world.history.pending name = some id) :
    config.world.slots.dirty id = true ∧ config.world.slots.owner id = some session := by
  refine ((chat backendSig requests).assertion_of_reachedBy (PendingHeld session) ?_ ?_ ?_
    reached name id pending).2
  · intro world fresh each slot pendingTurn
    rw [fresh.pending] at pendingTurn
    cases pendingTurn
  · intro config each action phase' world' holds _ acted
    exact (holds each).own (single each) (step_of_act acted)
  · intro config actor action phase' world' holds solitary acted other distinct
    exact (holds other).other (single actor) solitary distinct (step_of_act acted)

/-! ## Runs -/

def oneSession : RequestId → Request :=
  fun _ => ⟨"hdr-a", streamBody⟩

def firstTurn : List (RequestId × Action) :=
  [(0, .enter), (0, .miss), (0, idle [0]), (0, .pick), (0, .mark), (0, .land 0),
    (0, .answer .success)]

/-- The next turn of the session is steered to the same slot while the first
one streams; then the first client hangs up. -/
def hangUpUnderSteer : List (RequestId × Action) :=
  firstTurn ++ [(1, .enter), (1, .hot 0), (1, .mark), (0, .finish .hungUp), (0, .cleanUp)]

theorem hangUpUnderSteer_unholds :
    ¬ ∀ (backendSig session : String) (requests : RequestId → Request) (config : ProxyState),
      (∀ name, (requests name).session = session) →
      (chat backendSig requests).machine.Reachable config →
      ∀ name id, config.world.history.pending name = some id →
        config.world.slots.dirty id = true ∧ config.world.slots.owner id = some session := by
  intro held
  have executed : (((chat "0123456789ab" oneSession).machine.run (fun _ _ => true) chatStart
      hangUpUnderSteer).map fun config =>
        (config.world.history.pending 1, config.world.slots.dirty 0)) =
      some (some 0, false) := by
    decide
  obtain ⟨config, reached, observed⟩ := Machine.reachedBy_of_observed (fun _ _ _ => trivial)
    (initial_chatStart "0123456789ab" oneSession) executed
  have dirty := (held _ "hdr-a" oneSession config (fun _ => rfl) reached 1 0
    (congrArg Prod.fst observed)).1
  exact absurd (dirty.symm.trans (congrArg Prod.snd observed)) (by decide)

def clearsNothing (config : ProxyState) (event : RequestId × Action) : Bool :=
  (clearedSlot event.2 (config.locals event.1)).isNone

theorem solitary_of_clearsNothing (config : ProxyState) (event : RequestId × Action)
    (checked : clearsNothing config event = true) : Solitary config event := by
  intro id clears
  rw [Option.isNone_iff_eq_none.mp checked] at clears
  cases clears

theorem pending_turn_held_first :
    ∃ config : ProxyState, config.world.history.pending 0 = some 0 ∧
      config.world.slots.dirty 0 = true ∧ config.world.slots.owner 0 = some "hdr-a" := by
  have executed : (((chat "0123456789ab" oneSession).machine.run clearsNothing chatStart
      firstTurn).map fun config => config.world.history.pending 0) = some (some 0) := by
    decide
  obtain ⟨config, reached, pending⟩ := Machine.reachedBy_of_observed solitary_of_clearsNothing
    (initial_chatStart "0123456789ab" oneSession) executed
  exact ⟨config, pending, pending_turn_held (fun _ => rfl) reached pending⟩

end Ollm.Proxy
