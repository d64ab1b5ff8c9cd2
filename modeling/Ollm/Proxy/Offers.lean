import Ollm.Proxy.Ownership
import Ollm.Proxy.Restart

/-!
# Slots on offer

The proxy never makes up a slot number: whatever slot it steers a turn to, loads a
blob into or saves was reported by the backend, not processing, since the proxy was
started.  A slot that a session does not own yet was reported to the very request
that takes it; an owned one was reported to an earlier request of the session.
-/

namespace Ollm.Proxy

variable {backendSig : String} {requests : RequestId → Request} {r : RequestId}

/-- The slots that a report shows idle, with the request that it answers. -/
def offers (r : RequestId) : Action → Phase → World → List (RequestId × SlotId)
  | .report (some arr), _, _ => (arr.filter fun s => !s.isProcessing).map fun s => (r, s.id)
  | _, _, _ => []

/-- The proxy with a log of the slots on offer since it was started. -/
def offering (backendSig : String) (requests : RequestId → Request) :
    Machine (Threads.Config RequestId (List (RequestId × SlotId) × World) Phase)
      (RequestId × Action ⊕ (SlotId → Content)) :=
  ((chat backendSig requests).logging offers).crashing Phase.abort fun kv world =>
    ([], world.2.restart kv)

/-- The slot was on offer to some request of the session. -/
def OfferedTo (requests : RequestId → Request) (log : List (RequestId × SlotId))
    (session : String) (id : SlotId) : Prop :=
  ∃ name, (requests name).session = session ∧ (name, id) ∈ log

/-- Owners were offered what they own. -/
def OwnersOffered (requests : RequestId → Request) (world : List (RequestId × SlotId) × World) :
    Prop :=
  ∀ id session, world.2.slots.owner id = some session → OfferedTo requests world.1 session id

/-- What a request knows of the slots it handles. -/
def Offered (requests : RequestId → Request) (r : RequestId) (log : List (RequestId × SlotId)) :
    Phase → Prop
  | .picking _ arr | .choosing _ arr => ∀ s ∈ arr, s.isProcessing = false → (r, s.id) ∈ log
  | .restoring id _ | .marking id false | .forwarding (some id) false _
  | .saving (.eviction _) id _ _ => (r, id) ∈ log
  | .marking id true | .forwarding (some id) true _ | .receiving (some id) _ | .relabelling id
  | .saving .postTurn id _ _ => OfferedTo requests log (requests r).session id
  | _ => True

variable {log : List (RequestId × SlotId)} {world world' : World}

theorem OfferedTo.mono {session : String} {id : SlotId}
    (offered : OfferedTo requests log session id) (more : List (RequestId × SlotId)) :
    OfferedTo requests (log ++ more) session id := by
  obtain ⟨name, own, member⟩ := offered
  exact ⟨name, own, List.mem_append_left more member⟩

theorem Offered.mono {phase : Phase} (offered : Offered requests r log phase)
    (more : List (RequestId × SlotId)) : Offered requests r (log ++ more) phase := by
  unfold Offered at offered ⊢
  split
  case h_1 | h_2 => exact fun s member idle => List.mem_append_left more (offered s member idle)
  case h_3 | h_4 | h_5 | h_6 => exact List.mem_append_left more offered
  case h_7 | h_8 | h_9 | h_10 | h_11 => exact OfferedTo.mono offered more
  case h_12 => trivial

theorem offered_admission {diskHit : Bool} {id : SlotId} (member : (r, id) ∈ log) :
    Offered requests r log (admission diskHit id) := by
  cases diskHit <;> exact member

/-- A steered turn is steered to what its session was offered. -/
theorem Offered.steer {id : SlotId} {hot : Bool} {ranOn : Option SlotId}
    (offered : Offered requests r log (.forwarding (some id) hot ranOn)) :
    OfferedTo requests log (requests r).session id := by
  cases hot with
  | true => exact offered
  | false => exact ⟨r, rfl, offered⟩

/-- What a request handles after an action was on offer before, or is by that action. -/
theorem Step.offered {action : Action} {phase phase' : Phase}
    (owners : OwnersOffered requests (log, world)) (offered : Offered requests r log phase)
    (step : Step backendSig requests r action phase world phase' world') :
    Offered requests r (log ++ offers r action phase world) phase' := by
  cases step with
  | hot owned => exact OfferedTo.mono (owners _ _ owned) _
  | snapshot | seek =>
      intro s member idle
      apply List.mem_append_right
      apply List.mem_map.mpr
      exact ⟨s, by simp [member, idle], rfl⟩
  | @pick diskHit arr =>
      cases picked : (world.slots.pickSlot arr).1 with
      | none => trivial
      | some id =>
          obtain ⟨-, s, member, rfl, idle⟩ := Registry.pickSlot_some picked
          exact offered_admission (List.mem_append_left _ (offered s member idle))
  | @choose diskHit arr =>
      rcases found : (world.slots.findEvictable arr).1 with _ | ⟨id, victim⟩
      · trivial
      · obtain ⟨-, -, s, member, rfl, idle⟩ := Registry.findEvictable_some found
        have offer := List.mem_append_left (offers r .choose (.choosing diskHit arr) world)
          (offered s member idle)
        cases victim with
        | none => exact offered_admission offer
        | some victim => exact offer
  | @mark id hot =>
      cases hot <;> exact Offered.mono offered _
  | @land _ steer hot =>
      cases steer with
      | none => trivial
      | some id => cases hot <;> exact Offered.mono offered _
  | @success steer hot =>
      cases steer with
      | none => trivial
      | some id => exact OfferedTo.mono offered.steer _
  | @complete steer | @bodyBroken steer =>
      cases steer with
      | none => trivial
      | some id => exact OfferedTo.mono offered _
  | @hungUp steer => cases steer <;> trivial
  | relabel => exact OfferedTo.mono offered _
  | @lock caller | @capture caller | @saved caller =>
      cases caller <;> exact Offered.mono offered _
  | publishVictim | publishTurn => exact Offered.mono offered _
  | load | restored => exact List.mem_append_left _ offered
  | @saveFailed caller | @publishFailed caller => cases caller <;> trivial
  | @clean caller =>
      cases caller with
      | eviction => exact offered_admission (List.mem_append_left _ offered)
      | postTurn => trivial
  | _ => trivial

theorem offered_of_labelledSlot {action : Action} {phase : Phase} {g : Registry} {id : SlotId}
    (offered : Offered requests r log phase) (labels : labelledSlot action phase g = some id) :
    OfferedTo requests log (requests r).session id := by
  unfold labelledSlot at labels
  split at labels
  case h_1 hot =>
    obtain rfl := Option.some.inj labels
    cases hot with
    | true => exact offered
    | false => exact ⟨r, rfl, offered⟩
  case h_2 =>
    split_ifs at labels
    obtain rfl := Option.some.inj labels
    exact offered
  case h_3 => cases labels

theorem ownersOffered_of_empty (empty : world.slots = ∅) : OwnersOffered requests (log, world) := by
  intro id session owned
  rw [empty] at owned
  cases owned

theorem offered_abort (phase : Phase) : Offered requests r log phase.abort := by
  cases phase <;> trivial

theorem OwnersOffered.step {action : Action} {phase phase' : Phase}
    (owners : OwnersOffered requests (log, world)) (offered : Offered requests r log phase)
    (step : Step backendSig requests r action phase world phase' world') :
    OwnersOffered requests (log ++ offers r action phase world, world') := by
  intro id session owned
  cases step.owners with
  | kept _ kept => exact OfferedTo.mono (owners id session (kept id session owned)) _
  | @label slot labels labelled =>
      rw [labelled] at owned
      split_ifs at owned with here
      · obtain rfl := Option.some.inj owned
        exact OfferedTo.mono (offered_of_labelledSlot offered (here ▸ labels)) _
      · exact OfferedTo.mono (owners id session owned) _

theorem offered_of_reachable {config : Threads.Config RequestId _ Phase}
    (reached : (offering backendSig requests).Reachable config) (name : RequestId) :
    Offered requests name config.world.1 (config.locals name) := by
  refine (((chat backendSig requests).logging offers).assertion_of_crashing
    (OwnersOffered requests) (fun name phase world => Offered requests name world.1 phase)
    ?_ ?_ ?_ ?_ reached).2 name
  · rintro ⟨log, world⟩ ⟨rfl, fresh⟩
    exact ⟨ownersOffered_of_empty fresh.slots, fun _ => trivial⟩
  · rintro config actor action phase' ⟨log', world'⟩ owners offered - acted
    obtain ⟨did, rfl⟩ := Threads.acts_of_logging acted
    have step := step_of_act did
    exact ⟨owners.step (offered actor) step, step.offered owners (offered actor)⟩
  · rintro config actor action phase' ⟨log', world'⟩ offered - acted other -
    obtain ⟨-, rfl⟩ := Threads.acts_of_logging acted
    exact (offered other).mono _
  · exact fun world kv owners => ⟨ownersOffered_of_empty rfl, fun _ => offered_abort⟩

/-- In every interleaving, with restarts at any moment: a slot that a turn is steered to, that a
blob is loaded into or that is saved was reported not processing since the proxy was started:
to the request itself, or if it was hot or is saved after the turn to one of its session. -/
theorem handled_slots_offered {config : Threads.Config RequestId _ Phase}
    (reached : (offering backendSig requests).Reachable config) (name : RequestId) :
    (∀ id hot ranOn, config.locals name = .forwarding (some id) hot ranOn →
      OfferedTo requests config.world.1 (requests name).session id ∧
        (hot = false → (name, id) ∈ config.world.1)) ∧
    (∀ id loaded, config.locals name = .restoring id loaded → (name, id) ∈ config.world.1) ∧
    (∀ diskHit id victim stage,
      config.locals name = .saving (.eviction diskHit) id victim stage →
        (name, id) ∈ config.world.1) ∧
    ∀ id session stage, config.locals name = .saving .postTurn id session stage →
      OfferedTo requests config.world.1 (requests name).session id := by
  have offered := offered_of_reachable reached name
  refine ⟨fun id hot ranOn forwards => ?_, fun id loaded restores => ?_,
    fun diskHit id victim stage evicts => ?_, fun id session stage saves => ?_⟩
  · rw [forwards] at offered
    refine ⟨offered.steer, fun cold => ?_⟩
    subst cold
    exact offered
  · rw [restores] at offered
    exact offered
  · rw [evicts] at offered
    exact offered
  · rw [saves] at offered
    exact offered

/-- The second turn of `hdr-a` finds its slot hot. -/
def returning : List (RequestId × Action ⊕ (SlotId → Content)) :=
  (wholeTurn 0 0).map .inl ++ [.enter, .hot 0, .mark].map fun action => .inl (2, action)

theorem handled_slots_offered_again :
    ∃ config : Threads.Config RequestId (List (RequestId × SlotId) × World) Phase,
      config.locals 2 = .forwarding (some 0) true none ∧
      OfferedTo alternating config.world.1 "hdr-a" 0 := by
  have executed : (((offering "0123456789ab" alternating).run (fun _ _ => true)
      ⟨([], .empty), fun _ => .waiting⟩ returning).map fun config => config.locals 2) =
      some (.forwarding (some 0) true none) := by
    decide
  have start : (offering "0123456789ab" alternating).Initial
      ⟨([], .empty), fun _ => .waiting⟩ := ⟨⟨rfl, World.fresh_empty⟩, rfl⟩
  obtain ⟨config, reached, forwarded⟩ :=
    Machine.reachedBy_of_observed (fun _ _ _ => trivial) start executed
  exact ⟨config, forwarded, ((handled_slots_offered reached 2).1 0 true none forwarded).1⟩

end Ollm.Proxy
