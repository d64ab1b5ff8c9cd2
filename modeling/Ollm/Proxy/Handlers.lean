import Ollm.Proxy.Gate
import Ollm.Proxy.Offers
import Ollm.Proxy.Ownership
import Ollm.Proxy.PendingTurns

/-!
# Handlers and the registry

A handler that is dropped while its publish closure runs leaves the registry as it
is, and the closure does not look at it.  What requests keep of the registry they
keep as handlers too: which slots they hold, whose turns are pending, who owns what,
what is published before it is taken, and what was on offer.
-/

namespace Ollm.Proxy

universe u

variable {Entry : Type u}

/-- A restart ends closures as well. -/
def Handler.abort (own : Handler) : Handler :=
  ⟨own.phase.abort, .none⟩

def observed (observe : RequestId → Action → Phase → World → List Entry) (r : RequestId) :
    HandlerAction → Handler → World → List Entry
  | .act action, own, world => observe r action own.phase world
  | _, _, _ => []

abbrev HandlingState (Entry : Type u) := Threads.Config RequestId (List Entry × World) Handler

/-- Handlers with a log since the proxy was started, and restarts at any moment. -/
def handling (backendSig : String) (requests : RequestId → Request)
    (observe : RequestId → Action → Phase → World → List Entry) :
    Machine (HandlingState Entry) (RequestId × HandlerAction ⊕ (SlotId → Content)) :=
  ((handlers backendSig requests).logging (observed observe)).crashing Handler.abort
    fun kv world => ([], world.2.restart kv)

def handlersView (config : HandlingState Entry) : ProxyState :=
  ⟨config.world.2, fun r => (config.locals r).phase⟩

/-- A guard of requests, for handlers. -/
def OnActions (allowed : ProxyState → RequestId × Action → Prop) (config : HandlingState Entry) :
    RequestId × HandlerAction ⊕ (SlotId → Content) → Prop
  | .inl (r, .act action) => allowed (handlersView config) (r, action)
  | _ => True

theorem reachedBy_onActions {machine : Machine (HandlingState Entry)
    (RequestId × HandlerAction ⊕ (SlotId → Content))} {config : HandlingState Entry}
    (reached : machine.Reachable config) :
    machine.ReachedBy (OnActions fun _ _ => True) config := by
  refine reached.mono fun _ event _ => ?_
  rcases event with ⟨r, action | _ | _⟩ | kv <;> trivial

/-- The same registry, and no turn that was not pending. -/
structure World.Alike (world world' : World) : Prop where
  slots : world'.slots = world.slots
  pending : ∀ r, world'.history.pending r = world.history.pending r ∨
    world'.history.pending r = none

variable {backendSig : String} {requests : RequestId → Request}
  {observe : RequestId → Action → Phase → World → List Entry}

theorem observed_of_silent {r : RequestId} {action : HandlerAction} {own : Handler}
    {world : World} (silent : ∀ turn, action ≠ .act turn) :
    observed observe r action own world = [] := by
  cases action with
  | act turn => exact absurd rfl (silent turn)
  | _ => rfl

/-- A handler acts as a request, is gone, or its closure ends. -/
theorem HandlerStep.act_or_alike {r : RequestId} {action : HandlerAction} {own own' : Handler}
    {world world' : World}
    (step : HandlerStep backendSig requests r action own world own' world') :
    (∃ turn, action = .act turn ∧ Step backendSig requests r turn own.phase world own'.phase
      world') ∨
    ((∀ turn, action ≠ .act turn) ∧ world.Alike world' ∧
      (own'.phase = own.phase ∨ (own'.phase = .done ∧ world'.history.pending r = none))) := by
  cases step with
  | act step => exact .inl ⟨_, rfl, step⟩
  | detach =>
      refine .inr ⟨nofun, ⟨rfl, fun other => ?_⟩, .inr ⟨rfl, Function.update_self _ _ _⟩⟩
      by_cases same : other = r
      · subst same
        exact .inr (Function.update_self _ _ _)
      · exact .inl (Function.update_of_ne same _ _)
  | renamed | renameFailed => exact .inr ⟨nofun, ⟨rfl, fun _ => .inl rfl⟩, .inl rfl⟩

/-- Assertions that the actions of requests keep, about the registry and the pending
turns, hold of handlers too. -/
theorem assertion_of_handlers {allowed : ProxyState → RequestId × Action → Prop}
    (Shared : List Entry × World → Prop)
    (Assertion : RequestId → Phase → List Entry × World → Prop)
    (start : ∀ world : World, world.Fresh →
      Shared ([], world) ∧ ∀ r, Assertion r .waiting ([], world))
    (own : ∀ log (config : ProxyState) r action phase' world', Shared (log, config.world) →
      (∀ each, Assertion each (config.locals each) (log, config.world)) →
      allowed config (r, action) →
      Step backendSig requests r action (config.locals r) config.world phase' world' →
      Shared (log ++ observe r action (config.locals r) config.world, world') ∧
        Assertion r phase' (log ++ observe r action (config.locals r) config.world, world'))
    (undisturbed : ∀ log (config : ProxyState) r action phase' world',
      (∀ each, Assertion each (config.locals each) (log, config.world)) →
      allowed config (r, action) →
      Step backendSig requests r action (config.locals r) config.world phase' world' →
      ∀ other, other ≠ r → Assertion other (config.locals other)
        (log ++ observe r action (config.locals r) config.world, world'))
    (alike : ∀ log world world', world.Alike world' →
      (Shared (log, world) → Shared (log, world')) ∧
        ∀ r phase, Assertion r phase (log, world) → Assertion r phase (log, world'))
    (done : ∀ r log world, world.history.pending r = none → Assertion r .done (log, world))
    (restarted : ∀ log world kv, Shared (log, world) →
      Shared ([], world.restart kv) ∧
        ∀ r (phase : Phase), Assertion r phase.abort ([], world.restart kv))
    {config : HandlingState Entry}
    (reached : (handling backendSig requests observe).ReachedBy (OnActions allowed) config) :
    Shared config.world ∧ ∀ r, Assertion r (config.locals r).phase config.world := by
  refine ((handlers backendSig requests).logging (observed observe)).assertion_of_crashing
    Shared (fun r (own : Handler) => Assertion r own.phase) ?_ ?_ ?_ ?_ reached
  · rintro ⟨log, world⟩ ⟨rfl, fresh⟩
    exact start world fresh
  · rintro ⟨⟨log, world⟩, locals⟩ r action own' ⟨log', world'⟩ shared holds permitted acted
    obtain ⟨did, rfl⟩ := Threads.acts_of_logging acted
    rcases (handlerStep_of_handle did).act_or_alike with
      ⟨turn, rfl, step⟩ | ⟨silent, same, ended | ⟨ended, settled⟩⟩
    · exact own log (handlersView ⟨(log, world), locals⟩) r turn _ _ shared holds permitted step
    all_goals
      simp only [observed_of_silent silent, List.append_nil]
      obtain ⟨sharing, keeping⟩ := alike log world world' same
      refine ⟨sharing shared, ?_⟩
      rw [ended]
    · exact keeping r _ (holds r)
    · exact done r log world' settled
  · rintro ⟨⟨log, world⟩, locals⟩ r action own' ⟨log', world'⟩ holds permitted acted other distinct
    obtain ⟨did, rfl⟩ := Threads.acts_of_logging acted
    rcases (handlerStep_of_handle did).act_or_alike with ⟨turn, rfl, step⟩ | ⟨silent, same, -⟩
    · exact undisturbed log (handlersView ⟨(log, world), locals⟩) r turn _ _ holds permitted step
        other distinct
    · simp only [observed_of_silent silent, List.append_nil]
      exact (alike log world world' same).2 other _ (holds other)
  · rintro ⟨log, world⟩ kv shared
    obtain ⟨shared', aborted⟩ := restarted log world kv shared
    exact ⟨shared', fun r own => aborted r own.phase⟩

/-! ## What requests keep, handlers keep -/

/-- In orderly runs a turn holds the slot that it occupies, so that no turn of another session
occupies it. -/
theorem handlers_hold_slots {config : HandlingState Entry}
    (reached : (handling backendSig requests observe).ReachedBy (OnActions (Orderly requests))
      config) (name : RequestId) {id : SlotId}
    (occupied : (config.locals name).phase.occupies = some id) :
    Held config.world.2.slots id (requests name).session := by
  refine (assertion_of_handlers (fun _ => True)
    (fun r phase world => HoldsSlot requests r phase world.2) ?_ ?_ ?_ ?_ ?_ ?_ reached).2 name
    id occupied
  · exact fun world fresh => ⟨trivial, fun each slot occupies => by cases occupies⟩
  · exact fun log config r action phase' world' _ holds _ step => ⟨trivial, (holds r).own step⟩
  · intro log config r action phase' world' holds orderly step other distinct
    exact HoldsSlot.other holds orderly distinct step
  · intro log world world' same
    refine ⟨fun shared => shared, fun r phase holds slot occupies => ?_⟩
    rw [same.slots]
    exact holds slot occupies
  · intro r log world _ slot occupies
    cases occupies
  · intro log world kv _
    refine ⟨trivial, fun r phase slot occupies => ?_⟩
    cases phase <;> cases occupies

/-- In solitary runs of one session's requests every pending turn holds its slot. -/
theorem handlers_pending_held {session : String}
    (single : ∀ name, (requests name).session = session) {config : HandlingState Entry}
    (reached : (handling backendSig requests observe).ReachedBy (OnActions Solitary) config)
    {name : RequestId} {id : SlotId}
    (pending : config.world.2.history.pending name = some id) :
    Held config.world.2.slots id session := by
  refine ((assertion_of_handlers (fun _ => True)
    (fun r phase world => PendingHeld session r phase world.2) ?_ ?_ ?_ ?_ ?_ ?_ reached).2 name
    id pending).2
  · intro world fresh
    refine ⟨trivial, fun each slot pendingTurn => ?_⟩
    rw [fresh.pending] at pendingTurn
    cases pendingTurn
  · intro log config r action phase' world' _ holds _ step
    exact ⟨trivial, (holds r).own (single r) step⟩
  · intro log config r action phase' world' holds solitary step other distinct
    exact (holds other).other (single r) solitary distinct step
  · intro log world world' same
    refine ⟨fun shared => shared, fun r phase holds slot pendingTurn => ?_⟩
    rcases same.pending r with kept | settled
    · rw [same.slots]
      exact holds slot (kept.symm.trans pendingTurn)
    · cases settled.symm.trans pendingTurn
  · intro r log world settled slot pendingTurn
    cases settled.symm.trans pendingTurn
  · intro log world kv _
    exact ⟨trivial, fun r phase slot pendingTurn => by cases pendingTurn⟩

/-- As long as slots are labelled alone, no session owns two. -/
theorem handlers_own_one_slot {config : HandlingState Entry}
    (reached : (handling backendSig requests observe).ReachedBy
      (OnActions (LabelsAlone requests)) config) : config.world.2.slots.SingleOwner := by
  refine (assertion_of_handlers (fun world => world.2.slots.SingleOwner) (fun _ _ _ => True)
    ?_ ?_ ?_ ?_ ?_ ?_ reached).1
  · intro world fresh
    refine ⟨?_, fun _ => trivial⟩
    rw [fresh.slots]
    exact Registry.singleOwner_empty
  · intro log config r action phase' world' single _ alone step
    refine ⟨(step.owners.singleOwner_iff single).mpr ?_, trivial⟩
    simpa only [LabelsAlone, Registry.mem_hotSlots] using alone
  · exact fun log config r action phase' world' _ _ _ other _ => trivial
  · intro log world world' same
    exact ⟨fun single => same.slots.symm ▸ single, fun _ _ _ => trivial⟩
  · exact fun _ _ _ _ => trivial
  · exact fun log world kv _ => ⟨Registry.singleOwner_empty, fun _ _ => trivial⟩

/-- All dirty slots have an owner, and none is taken from him unpublished. -/
theorem handlers_publish_victims {config : HandlingState Deed}
    (reached : (handling backendSig requests deeds).Reachable config) :
    DirtyOwned config.world.2.slots ∧
    ∀ past r id later, config.world.1 = past ++ .marked r id :: later →
      Settled requests r id past := by
  suffices shared : DirtyOwned config.world.2.slots ∧
      Trace.Disciplined (Lawful requests) config.world.1 from
    ⟨shared.1, fun past r id later split => shared.2.lawful split⟩
  refine (assertion_of_handlers
    (fun world => DirtyOwned world.2.slots ∧ Trace.Disciplined (Lawful requests) world.1)
    (fun r phase world => Told requests r world.1 phase) ?_ ?_ ?_ ?_ ?_ ?_
    (reachedBy_onActions reached)).1
  · intro world fresh
    refine ⟨⟨?_, .nil⟩, fun _ => trivial⟩
    rw [fresh.slots]
    exact dirtyOwned_empty
  · rintro log config r action phase' world' ⟨owned, disciplined⟩ told _ step
    exact ⟨⟨owned.registryStep step.registry, Lawful.disciplined disciplined (told r)⟩,
      step.told owned (told r)⟩
  · exact fun log config r action phase' world' told _ _ other _ => (told other).mono _
  · intro log world world' same
    exact ⟨fun shared => ⟨same.slots.symm ▸ shared.1, shared.2⟩, fun _ _ told => told⟩
  · exact fun _ _ _ _ => trivial
  · intro log world kv _
    refine ⟨⟨dirtyOwned_empty, .nil⟩, fun r phase => ?_⟩
    cases phase <;> trivial

/-- What a request handles was on offer since the proxy was started. -/
theorem handlers_offered {config : HandlingState (RequestId × SlotId)}
    (reached : (handling backendSig requests offers).Reachable config) (name : RequestId) :
    Offered requests name config.world.1 (config.locals name).phase := by
  refine (assertion_of_handlers (OwnersOffered requests)
    (fun r phase world => Offered requests r world.1 phase) ?_ ?_ ?_ ?_ ?_ ?_
    (reachedBy_onActions reached)).2 name
  · exact fun world fresh => ⟨ownersOffered_of_empty fresh.slots, fun _ => trivial⟩
  · intro log config r action phase' world' owners offered _ step
    exact ⟨owners.step (offered r) step, step.offered owners (offered r)⟩
  · exact fun log config r action phase' world' offered _ _ other _ => (offered other).mono _
  · intro log world world' same
    refine ⟨fun owners id session owned => owners id session ?_, fun _ _ offered => offered⟩
    exact same.slots ▸ owned
  · exact fun _ _ _ _ => trivial
  · exact fun log world kv _ => ⟨ownersOffered_of_empty rfl, fun _ => offered_abort⟩

end Ollm.Proxy
