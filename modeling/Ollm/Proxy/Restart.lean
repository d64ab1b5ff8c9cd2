import Ollm.Proxy.Resume

/-!
# Restarts

The proxy may go down at any moment and come up again: its registry and its gate
are new, the requests it served are gone, the blobs are still there, and the
backend's slots hold whatever they hold.  A session loses the turn that was not
published yet and nothing else.
-/

namespace Ollm.Proxy

open Keying

/-- What a restart leaves.  Sessions whose last turn was completed but not
published have lost it. -/
def World.restart (kv : SlotId → Content) (world : World) : World where
  slots := ∅
  gate := .free
  kv := kv
  blobs := world.blobs
  history := { world.history with
    lost := fun session => world.history.lost session ||
      ((world.history.last session).bind world.history.pending).isSome
    finished := fun _ => false
    pending := fun _ => none }

def Phase.abort : Phase → Phase
  | .waiting => .waiting
  | _ => .done

def restarting (backendSig : String) (requests : RequestId → Request) :
    Machine ProxyState (RequestId × Action ⊕ (SlotId → Content)) :=
  (chat backendSig requests).crashing Phase.abort World.restart

/-- Requests come one after the other and go smoothly, as far as they go. -/
def Undisturbed (config : ProxyState) : RequestId × Action ⊕ (SlotId → Content) → Prop
  | .inl event => Serial config event ∧ Smooth event.2
  | .inr _ => True

/-- From the marking of the slot until the turn is published, or given up. -/
def Phase.unsettled : Phase → Bool
  | .forwarding (some _) _ _ => true
  | .receiving (some _) _ => true
  | .relabelling _ => true
  | .saving .postTurn _ _ .cleaning => false
  | .saving .postTurn _ _ _ => true
  | _ => false

variable {backendSig : String} {requests : RequestId → Request} {r : RequestId}
  {world world' : World}

/-- Until a steered turn is published, a restart knows that it was not. -/
def Marked (r : RequestId) (world : World) (phase : Phase) : Prop :=
  phase.unsettled = true → (world.history.pending r).isSome = true

theorem unsettled_of_onward {phase : Phase} (onward : Onward phase) :
    phase.unsettled = false := by
  cases onward <;> rfl

theorem Marked.step {action : Action} {phase phase' : Phase} (marked : Marked r world phase)
    (whole : action ≠ .finish .broken)
    (step : Step backendSig requests r action phase world phase' world') :
    Marked r world' phase' := by
  intro unsettled
  cases step with
  | mark => simp [World.mark]
  | @land _ steer | @success steer | @complete steer =>
      cases steer with
      | none => cases unsettled
      | some id => exact marked rfl
  | relabel => exact marked rfl
  | @lock caller | @capture caller | @saved caller =>
      cases caller with
      | eviction => cases unsettled
      | postTurn => exact marked rfl
  | pick => simp [unsettled_of_onward (onward_afterPick _ _)] at unsettled
  | choose => simp [unsettled_of_onward (onward_afterChoice _ _)] at unsettled
  | saveFailed | publishFailed | clean =>
      simp [unsettled_of_onward (onward_afterSave _ _ _)] at unsettled
  | @hungUp steer => cases steer <;> cases unsettled
  | bodyBroken => exact absurd rfl whole
  | _ => cases unsettled

/-- Sessions whose turn is still to be published are lost, all others are as they
were: nothing that the registry knew is needed. -/
theorem Coherent.restart {slot : Option SlotId} {saving : Option String}
    (coherent : Coherent backendSig world slot saving)
    (unpublished : ∀ session turn, saving = some session →
      world.history.last session = some turn → (world.history.pending turn).isSome = true)
    (kv : SlotId → Content) : Coherent backendSig (world.restart kv) none none where
  clean id _ := Registry.dirty_empty id
  owned id session _ owned := by simp [World.restart] at owned
  unique id other session owned := by simp [World.restart] at owned
  stored session turn _ last lost := by
    have last : world.history.last session = some turn := last
    simp only [World.restart, last, Option.bind_some, Bool.or_eq_false_iff] at lost
    apply coherent.stored session turn _ last lost.1
    intro saves
    have pending := unpublished session turn saves last
    rw [lost.2] at pending
    cases pending

theorem Completed.restart {id : SlotId} {session : String}
    (completed : Completed backendSig requests r world id (some session))
    (own : session = (requests r).session)
    (pending : (world.history.pending r).isSome = true) (kv : SlotId → Content) :
    Coherent backendSig (world.restart kv) none none := by
  refine completed.coherent.restart ?_ kv
  intro saved turn saves last
  obtain rfl := Option.some.inj saves
  rw [own, completed.last] at last
  exact Option.some.inj last ▸ pending

/-- Wherever the active request is, a restart leaves an agreement between turns. -/
theorem During.restart {phase : Phase} (during : During backendSig requests r world phase)
    (marked : Marked r world phase) (kv : SlotId → Content) :
    Coherent backendSig (world.restart kv) none none := by
  cases phase with
  | waiting | enforcing | done => exact Coherent.restart during nofun kv
  | matching | snapshot | picking | restoring | marking =>
      exact Coherent.restart during.1 nofun kv
  | forwarding =>
      obtain ⟨id, -, running, -⟩ := during
      exact running.coherent.restart nofun kv
  | receiving => exact during.2.coherent.restart nofun kv
  | abandoning => exact Coherent.restart during.coherent nofun kv
  | relabelling id => exact Completed.restart during rfl (marked rfl) kv
  | saving caller id session stage =>
      cases caller with
      | eviction => exact during.elim
      | postTurn =>
          obtain ⟨own, during⟩ := during
          cases stage with
          | locking => exact Completed.restart during own (marked rfl) kv
          | asking => exact during.1.restart own (marked rfl) kv
          | publishing => exact during.1.restart own (marked rfl) kv
          | cleaning => exact during.coherent.restart nofun kv
  | seeking | choosing => exact during.elim

theorem resting_abort (phase : Phase) : phase.abort.resting = true := by
  cases phase <;> rfl

theorem marked_of_resting {phase : Phase} (resting : phase.resting = true) :
    Marked r world phase := by
  intro unsettled
  cases phase with
  | waiting | done => cases unsettled
  | _ => cases resting

end Ollm.Proxy
