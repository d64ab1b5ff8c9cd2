import Ollm.Library.Guards
import Ollm.Proxy.Resume
import Ollm.Proxy.Victims

/-!
# The write gate

Lookups hold the gate shared, saves hold it exclusively, and nothing else is
awaited while another request may hold it: a lookup never decides during a save,
no guard is leaked, whatever fails or is dropped, and no two requests wait for
one another.
-/

namespace Ollm.Proxy

open Keying RwLock

/-- The guard that a request has: `_match` while it looks up, `_w` in `save_slot`. -/
def Phase.held : Phase → Option Hold
  | .matching _ | .snapshot _ | .picking _ _ => some .shared
  | .saving _ _ _ .locking => none
  | .saving _ _ _ _ => some .exclusive
  | _ => none

/-- The guard that a request awaits. -/
def Phase.asks : Phase → Option Hold
  | .waiting => some .shared
  | .saving _ _ _ .locking => some .exclusive
  | _ => none

def Saving.rank : Saving → Nat
  | .cleaning => 0
  | .publishing _ => 1
  | .asking (some _) => 2
  | .asking none => 3
  | .locking => 4

/-- Awaits before the end of a request and its post-turn work, at most. -/
def Phase.rank : Phase → Nat
  | .done => 0
  | .enforcing => 1
  | .saving .postTurn _ _ stage => 2 + stage.rank
  | .abandoning _ => 7
  | .relabelling _ => 7
  | .receiving _ _ => 8
  | .forwarding _ _ (some _) => 9
  | .forwarding _ _ none => 10
  | .marking _ _ => 11
  | .restoring _ true => 12
  | .restoring _ false => 13
  | .saving (.eviction _) _ _ stage => 14 + stage.rank
  | .choosing _ _ => 19
  | .seeking _ => 20
  | .picking _ _ => 21
  | .snapshot _ => 22
  | .matching _ => 23
  | .waiting => 24

theorem held_of_onward {phase : Phase} (onward : Onward phase) : phase.held = none := by
  cases onward <;> rfl

section Places

variable (caller : Caller) (id : SlotId) (diskHit ok : Bool)

theorem rank_admission : (admission diskHit id).rank ≤ 13 := by
  cases diskHit <;> simp [admission, Phase.rank]

theorem rank_afterSave (session : String) (stage : Saving) :
    (afterSave caller id ok).rank < (Phase.saving caller id session stage).rank := by
  cases caller with
  | postTurn =>
      change 1 < 2 + stage.rank
      omega
  | eviction diskHit =>
      have admitted := rank_admission id diskHit
      cases ok with
      | false =>
          change 10 < 14 + stage.rank
          omega
      | true =>
          change (admission diskHit id).rank < 14 + stage.rank
          omega

theorem rank_afterPick (picked : Option SlotId) : (afterPick diskHit picked).rank ≤ 20 := by
  cases picked with
  | none => exact Nat.le_refl 20
  | some id => exact (rank_admission id diskHit).trans (by decide)

theorem rank_afterChoice (free : Option (SlotId × Option String)) :
    (afterChoice diskHit free).rank ≤ 18 := by
  rcases free with - | ⟨id, - | victim⟩
  · exact (by decide : 10 ≤ 18)
  · exact (rank_admission id diskHit).trans (by decide)
  · exact Nat.le_refl 18

end Places

variable {backendSig : String} {requests : RequestId → Request} {r : RequestId}
  {world world' : World}

theorem Step.handles {action : Action} {phase phase' : Phase}
    (step : Step backendSig requests r action phase world phase' world') :
    Handles r phase.held phase'.held world.gate world'.gate := by
  cases step with
  | enter granted => exact .read granted
  | lock granted => exact .write granted
  | hot | snapshotFailed | drop => exact .release
  | pick =>
      rw [held_of_onward (onward_afterPick _ _)]
      exact .release
  | saveFailed | publishFailed | clean =>
      rw [held_of_onward (onward_afterSave _ _ _)]
      exact .release
  | choose =>
      rw [held_of_onward (onward_afterChoice _ _)]
      exact .keep
  | @complete steer | @bodyBroken steer | @hungUp steer => cases steer <;> exact .keep
  | _ => exact .keep

/-- What brings a request forward that need not wait for the gate: replies may
be failures, which are always possible. -/
theorem exists_act (r : RequestId) {phase : Phase} (world : World) (unfinished : phase.rank ≠ 0)
    (shared : phase.asks = some .shared → world.gate.writer = none)
    (exclusive : phase.asks = some .exclusive → world.gate = .free) :
    ∃ action phase' world', act backendSig requests r action phase world = some (phase', world') ∧
      phase'.rank < phase.rank := by
  cases phase with
  | waiting =>
      obtain ⟨gate, granted⟩ := exists_read r (shared rfl)
      refine ⟨.enter, .matching (world.blobs (blobName backendSig (requests r).session)).isSome,
        { world with gate := gate }, ?_, by simp [Phase.rank]⟩
      simp [act, granted]
  | matching diskHit =>
      cases hot : world.slots.hotSlots (requests r).session with
      | nil => exact ⟨.miss, .snapshot diskHit, world, if_pos hot, by simp [Phase.rank]⟩
      | cons id rest =>
          have listed : id ∈ world.slots.hotSlots (requests r).session := by
            rw [hot]
            exact List.mem_cons_self
          exact ⟨.hot id, .marking id true, world.release r, if_pos listed, by simp [Phase.rank]⟩
  | snapshot diskHit =>
      exact ⟨.report none, .seeking diskHit, world.release r, rfl, by simp [Phase.rank]⟩
  | picking diskHit arr =>
      exact ⟨.pick, _, _, rfl, Nat.lt_of_le_of_lt (rank_afterPick diskHit _) (Nat.lt_succ_self 20)⟩
  | seeking diskHit =>
      exact ⟨.report none, .forwarding none false none, world, rfl, by simp [Phase.rank]⟩
  | choosing diskHit arr =>
      exact ⟨.choose, _, _, rfl, Nat.lt_of_le_of_lt (rank_afterChoice diskHit _) (Nat.lt_succ_self 18)⟩
  | restoring id loaded =>
      refine ⟨.restoreReply false, .marking id false, world, rfl, ?_⟩
      cases loaded <;> simp [Phase.rank]
  | marking id hot => exact ⟨.mark, .forwarding (some id) hot none, _, rfl, by simp [Phase.rank]⟩
  | forwarding steer hot ranOn =>
      refine ⟨.answer .failed, .done, world.settle r, rfl, ?_⟩
      cases ranOn <;> simp [Phase.rank]
  | receiving steer slot =>
      refine ⟨.finish .broken, _, world.settle r, rfl, ?_⟩
      split_ifs
      · simp [Phase.rank]
      · cases steer <;> simp [afterBody, Phase.rank]
  | abandoning id => exact ⟨.cleanUp, .done, _, rfl, by simp [Phase.rank]⟩
  | relabelling id => exact ⟨.relabel, _, _, rfl, by simp [Phase.rank, Saving.rank]⟩
  | saving caller id session stage =>
      cases stage with
      | locking =>
          obtain ⟨gate, granted⟩ := exists_write r (exclusive rfl)
          refine ⟨.lock, .saving caller id session (.asking none), { world with gate := gate },
            ?_, ?_⟩
          · simp [act, granted]
          · cases caller <;> exact Nat.lt_succ_self _
      | asking captured =>
          exact ⟨.saveReply false, _, _, rfl, rank_afterSave caller id false session _⟩
      | publishing content =>
          refine ⟨.publish false, _, world.release r, ?_, rank_afterSave caller id false session _⟩
          cases caller <;> rfl
      | cleaning => exact ⟨.clean, _, _, rfl, rank_afterSave caller id true session _⟩
  | enforcing => exact ⟨.settle, .done, world, rfl, by simp [Phase.rank]⟩
  | done => exact absurd rfl unfinished

theorem eq_done_of_rank {phase : Phase} (ended : phase.rank = 0) : phase = .done := by
  unfold Phase.rank at ended
  split at ended
  case h_1 => rfl
  all_goals omega

theorem rank_le (phase : Phase) : phase.rank ≤ 24 := by
  have stages : ∀ stage : Saving, stage.rank ≤ 4 := by
    intro stage
    unfold Saving.rank
    split <;> omega
  unfold Phase.rank
  split
  case h_3 stage => have := stages stage; omega
  case h_12 stage => have := stages stage; omega
  all_goals omega

/-! ## Handlers that are dropped while they publish -/

/-- The closure that fsyncs and renames a blob runs on when the handler awaiting
it is dropped. -/
inductive Closure where
  | none
  | running (session : String) (content : Content)
  | ended (session : String)
  deriving DecidableEq, Repr

structure Handler where
  phase : Phase
  closure : Closure
  deriving DecidableEq, Repr

inductive HandlerAction where
  | act (action : Action)
  | detach
  | rename (ok : Bool)
  deriving DecidableEq, Repr

/-- All actions of `chat`, and the one that it leaves out: a client that goes
away during the rename of its write-on-eviction. -/
def handle (backendSig : String) (requests : RequestId → Request) (r : RequestId) :
    HandlerAction → Handler → World → Option (Handler × World)
  | .act action, own, world =>
      (act backendSig requests r action own.phase world).map fun result =>
        ({ own with phase := result.1 }, result.2)
  | .detach, ⟨.saving (.eviction _) _ session (.publishing content), .none⟩, world =>
      some (⟨.done, .running session content⟩, (world.release r).settle r)
  | .rename ok, ⟨phase, .running session content⟩, world =>
      some (⟨phase, .ended session⟩,
        if ok then world.publish (blobName backendSig session) session content else world)
  | _, _, _ => none

def handlers (backendSig : String) (requests : RequestId → Request) :
    Threads RequestId World Handler HandlerAction where
  Initial := World.Fresh
  start _ := ⟨.waiting, .none⟩
  act := handle backendSig requests

abbrev HandlersState := Threads.Config RequestId World Handler

def Handler.rank (own : Handler) : Nat :=
  own.phase.rank +
    match own.closure with
    | .running _ _ => 1
    | _ => 0

inductive HandlerStep (backendSig : String) (requests : RequestId → Request) (r : RequestId) :
    HandlerAction → Handler → World → Handler → World → Prop where
  | act {action phase phase' closure world world'}
      (step : Step backendSig requests r action phase world phase' world') :
      HandlerStep backendSig requests r (.act action) ⟨phase, closure⟩ world ⟨phase', closure⟩
        world'
  | detach {diskHit id session content world} :
      HandlerStep backendSig requests r .detach
        ⟨.saving (.eviction diskHit) id session (.publishing content), .none⟩ world
        ⟨.done, .running session content⟩ ((world.release r).settle r)
  | renamed {phase session content world} :
      HandlerStep backendSig requests r (.rename true) ⟨phase, .running session content⟩ world
        ⟨phase, .ended session⟩ (world.publish (blobName backendSig session) session content)
  | renameFailed {phase session content world} :
      HandlerStep backendSig requests r (.rename false) ⟨phase, .running session content⟩ world
        ⟨phase, .ended session⟩ world

theorem handlerStep_of_handle {action : HandlerAction} {own own' : Handler}
    (handled : handle backendSig requests r action own world = some (own', world')) :
    HandlerStep backendSig requests r action own world own' world' := by
  unfold handle at handled
  split at handled
  · obtain ⟨⟨phase', _⟩, acted, same⟩ := Option.map_eq_some_iff.mp handled
    obtain ⟨rfl, rfl⟩ := Prod.mk.inj same
    exact .act (step_of_act acted)
  · obtain ⟨rfl, rfl⟩ := Prod.mk.inj (Option.some.inj handled)
    exact .detach
  · rename_i ok _ _ _
    obtain ⟨rfl, rfl⟩ := Prod.mk.inj (Option.some.inj handled)
    cases ok with
    | true => exact .renamed
    | false => exact .renameFailed
  · cases handled

theorem guarded_handlers :
    (handlers backendSig requests).Guarded World.gate (fun own => own.phase.held) where
  free _ fresh := fresh.gate
  start _ := rfl
  step _ _ _ _ _ _ handled := by
    cases handlerStep_of_handle handled with
    | act step => exact step.handles
    | detach => exact .release
    | renamed | renameFailed => exact .keep

theorem proceeds_handlers :
    (handlers backendSig requests).Proceeds World.gate (fun own => own.phase.held)
      (fun own => own.phase.asks) Handler.rank where
  ended own ended := by
    rw [eq_done_of_rank (Nat.eq_zero_of_add_eq_zero_right ended)]
    rfl
  asking own asks := by
    unfold Phase.asks at asks
    split at asks
    · simp [*, Phase.held]
    · simp [*, Phase.held]
    · exact absurd rfl asks
  moves r own world unfinished shared exclusive := by
    by_cases ended : own.phase.rank = 0
    · obtain ⟨phase, closure⟩ := own
      cases closure with
      | running session content =>
          exact ⟨.rename false, ⟨phase, .ended session⟩, world, rfl, Nat.lt_succ_self _⟩
      | none | ended => exact absurd ended unfinished
    · have goes : ∃ action phase' world',
          act backendSig requests r action own.phase world = some (phase', world') ∧
            phase'.rank < own.phase.rank := exists_act r world ended shared exclusive
      obtain ⟨action, phase', world', acted, lower⟩ := goes
      refine ⟨.act action, { own with phase := phase' }, world', ?_, ?_⟩
      · simp [handlers, handle, acted]
      · exact Nat.add_lt_add_right lower _

/-! ## The lookup -/

/-- What a lookup that has not decided yet saw of its blob. -/
def Phase.lookup : Phase → Option Bool
  | .matching diskHit | .snapshot diskHit | .picking diskHit _ => some diskHit
  | _ => none

theorem held_of_lookup {phase : Phase} {diskHit : Bool} (looks : phase.lookup = some diskHit) :
    phase.held = some .shared := by
  cases phase with
  | matching | snapshot | picking => rfl
  | _ => cases looks

theorem lookup_of_onward {phase : Phase} (onward : Onward phase) {diskHit : Bool} :
    phase.lookup ≠ some diskHit := by
  cases onward <;> exact nofun

theorem Step.lookup {action : Action} {phase phase' : Phase}
    (step : Step backendSig requests r action phase world phase' world') {diskHit : Bool}
    (looks : phase'.lookup = some diskHit) :
    diskHit = (world'.blobs (blobName backendSig (requests r).session)).isSome ∨
      phase.lookup = some diskHit := by
  cases step with
  | enter => exact .inl (Option.some.inj looks).symm
  | miss | snapshot => exact .inr looks
  | pick => exact absurd looks (lookup_of_onward (onward_afterPick _ _))
  | choose => exact absurd looks (lookup_of_onward (onward_afterChoice _ _))
  | saveFailed | publishFailed | clean =>
      exact absurd looks (lookup_of_onward (onward_afterSave _ _ _))
  | @complete steer | @bodyBroken steer | @hungUp steer => cases steer <;> cases looks
  | _ => cases looks

/-- Handlers make blobs appear only while they hold the gate exclusively. -/
theorem Step.blob_before {action : Action} {phase phase' : Phase}
    (step : Step backendSig requests r action phase world phase' world') {name : String}
    (present : (world'.blobs name).isSome = true) :
    (world.blobs name).isSome = true ∨ phase.held = some .exclusive := by
  cases step with
  | publishVictim | publishTurn => exact .inr rfl
  | @remove removed =>
      by_cases same : name = removed
      · simp [World.evict, same] at present
      · exact .inl (by simpa [World.evict, same] using present)
  | _ => exact .inl present

theorem HandlerStep.lookup {action : HandlerAction} {own own' : Handler}
    (step : HandlerStep backendSig requests r action own world own' world') {diskHit : Bool}
    (looks : own'.phase.lookup = some diskHit) :
    diskHit = (world'.blobs (blobName backendSig (requests r).session)).isSome ∨
      own.phase.lookup = some diskHit := by
  cases step with
  | act step => exact step.lookup looks
  | detach => cases looks
  | renamed | renameFailed => exact .inr looks

theorem HandlerStep.blob_before {action : HandlerAction} {own own' : Handler}
    (step : HandlerStep backendSig requests r action own world own' world') {name : String}
    (present : (world'.blobs name).isSome = true) :
    (world.blobs name).isSome = true ∨ own.phase.held = some .exclusive ∨
      ∃ session, own'.closure = .ended session ∧ name = blobName backendSig session := by
  cases step with
  | act step => exact (step.blob_before present).imp_right .inl
  | @renamed _ session =>
      by_cases same : name = blobName backendSig session
      · exact .inr (.inr ⟨session, rfl, same⟩)
      · exact .inl (by simpa [World.publish, same] using present)
  | _ => exact .inl present

theorem HandlerStep.ended {action : HandlerAction} {own own' : Handler}
    (step : HandlerStep backendSig requests r action own world own' world') {session : String}
    (ended : own.closure = .ended session) : own'.closure = .ended session := by
  cases step with
  | act => exact ended
  | _ => cases ended

theorem gate_accounted (config : HandlersState)
    (reached : (handlers backendSig requests).machine.Reachable config) :
    Threads.Accounted World.gate (fun own : Handler => own.phase.held) config :=
  guarded_handlers.accounted reached

theorem not_exclusive_of_lookup {config : HandlersState}
    (accounted : Threads.Accounted World.gate (fun own : Handler => own.phase.held) config)
    {diskHit : Bool} (looks : (config.locals r).phase.lookup = some diskHit) (other : RequestId) :
    (config.locals other).phase.held ≠ some .exclusive := by
  intro exclusive
  have shared := held_of_lookup looks
  by_cases same : r = other
  · rw [← same, shared] at exclusive
    cases exclusive
  · exact absurd (shared.symm.trans (accounted.alone exclusive same)) (by decide)

/-- A blob that the undecided lookup of `r` did not see was renamed into place by
the closure of a handler that is gone. -/
def Matched (backendSig : String) (requests : RequestId → Request) (config : HandlersState)
    (r : RequestId) : Prop :=
  ∀ diskHit, (config.locals r).phase.lookup = some diskHit →
    (config.world.blobs (blobName backendSig (requests r).session)).isSome = true →
    diskHit = true ∨ ∃ other, (config.locals other).closure = .ended (requests r).session

theorem Matched.step {before after : HandlersState} {event : RequestId × HandlerAction}
    (matched : Matched backendSig requests before r)
    (accounted : Threads.Accounted World.gate (fun own : Handler => own.phase.held) before)
    (moved : (handlers backendSig requests).machine.step before event = some after) :
    Matched backendSig requests after r := by
  obtain ⟨actor, action⟩ := event
  obtain ⟨handled, others⟩ := (handlers backendSig requests).acts_of_machine_step moved
  have step := handlerStep_of_handle handled
  intro diskHit looks present
  have looked : diskHit =
        (after.world.blobs (blobName backendSig (requests r).session)).isSome ∨
      (before.locals r).phase.lookup = some diskHit := by
    by_cases same : r = actor
    · subst same
      exact step.lookup looks
    · exact .inr (by rw [← others r same, looks])
  rcases looked with saw | looked
  · exact .inl (saw.trans present)
  rcases step.blob_before present with present' | exclusive | ⟨session, ended, named⟩
  · refine (matched diskHit looked present').imp_right fun ⟨other, ended⟩ => ⟨other, ?_⟩
    by_cases same : other = actor
    · subst same
      exact step.ended ended
    · rw [others other same, ended]
  · exact absurd exclusive (not_exclusive_of_lookup accounted looked actor)
  · right
    rw [(blobName_inj rfl named).1]
    exact ⟨actor, ended⟩

/-- While a lookup has not decided no handler in a save has the gate, and the
lookup saw its session's blob if there is one, unless that was renamed into place
by the closure of a handler that is gone: only those can unsettle the forest. -/
theorem lookup_settled {config : HandlersState}
    (reached : (handlers backendSig requests).machine.Reachable config) {diskHit : Bool}
    (looks : (config.locals r).phase.lookup = some diskHit) :
    (∀ other, (config.locals other).phase.held ≠ some .exclusive) ∧
      ((config.world.blobs (blobName backendSig (requests r).session)).isSome = true →
        diskHit = true ∨
          ∃ other, (config.locals other).closure = .ended (requests r).session) := by
  refine ⟨not_exclusive_of_lookup (gate_accounted config reached) looks, ?_⟩
  have matched : Matched backendSig requests config r := by
    refine (reached.attach gate_accounted).invariant (Matched backendSig requests · r) ?_ ?_
    · rintro config ⟨-, locals⟩ diskHit looks
      rw [locals] at looks
      cases looks
    · exact fun before event after matched known moved => matched.step known.2 moved
  exact matched diskHit looks

def handlersStart : HandlersState :=
  ⟨.empty, fun _ => ⟨.waiting, .none⟩⟩

theorem initial_handlersStart (backendSig : String) (requests : RequestId → Request) :
    (handlers backendSig requests).machine.Initial handlersStart :=
  ⟨World.fresh_empty, rfl⟩

/-- The client of `hdr-b` goes away while the blob of `hdr-a` is renamed, and
`hdr-a` is looked up before the rename is through. -/
def lookupDuringRename : List (RequestId × HandlerAction) :=
  (takeover.take 14).map (fun event => (event.1, .act event.2)) ++
    [(1, .detach), (2, .act .enter), (1, .rename true)]

theorem lookup_settled_during_rename :
    ∃ config : HandlersState, (config.locals 2).phase = .matching false ∧
      (config.world.blobs (blobName "0123456789ab" (alternating 2).session)).isSome = true ∧
      (∀ other, (config.locals other).phase.held ≠ some .exclusive) ∧
      ∃ other, (config.locals other).closure = .ended (alternating 2).session := by
  have executed : (((handlers "0123456789ab" alternating).machine.run (fun _ _ => true)
      handlersStart lookupDuringRename).map fun config => ((config.locals 2).phase,
        (config.world.blobs (blobName "0123456789ab" (alternating 2).session)).isSome)) =
      some (.matching false, true) := by
    decide
  obtain ⟨config, reached, stands⟩ := Machine.reachedBy_of_observed (fun _ _ _ => trivial)
    (initial_handlersStart "0123456789ab" alternating) executed
  obtain ⟨looking, present⟩ := Prod.mk.inj stands
  have looks : (config.locals 2).phase.lookup = some false := by rw [looking]; rfl
  obtain ⟨unsaved, saw⟩ := lookup_settled reached looks
  exact ⟨config, looking, present, unsaved, (saw present).resolve_left Bool.false_ne_true⟩

/-! ## The end of all requests -/

theorem held_of_resting {phase : Phase} (resting : phase.resting = true) : phase.held = none := by
  cases phase with
  | waiting | done => rfl
  | _ => cases resting

theorem work_le (n : Nat) (config : HandlersState) :
    Threads.work Handler.rank n config ≤ 25 * n := by
  have bounded : ∀ own : Handler, own.rank ≤ 25 := by
    intro own
    have phases := rank_le own.phase
    unfold Handler.rank
    split <;> omega
  have total := Finset.sum_le_card_nsmul (Finset.range n) (fun r => (config.locals r).rank) 25
    fun r _ => bounded _
  simpa [Threads.work, mul_comm] using total

/-- Nothing of the request goes on. -/
def Handler.Ended (own : Handler) : Prop :=
  own.phase = .done ∧ ∀ session content, own.closure ≠ .running session content

theorem Handler.ended_of_rank {own : Handler} (ended : own.rank = 0) : own.Ended := by
  refine ⟨eq_done_of_rank (Nat.eq_zero_of_add_eq_zero_right ended), ?_⟩
  intro session content running
  simp [rank, running] at ended

/-- From every reachable state the requests that have arrived can be brought to
their ends, post-turn work included, by any steps forward in any order: each takes
25 at most.  On the way either one that does not await the gate can go on, or the
gate is free and every one of them can: no guard is leaked and none is stuck,
whoever the gate is granted to first. -/
theorem gate_drains {config last : HandlersState}
    (reached : (handlers backendSig requests).machine.Reachable config) {n : Nat}
    (others : ∀ r, n ≤ r → (config.locals r).phase.resting = true)
    {events : List (RequestId × HandlerAction)}
    (ran : (handlers backendSig requests).machine.run
      ((handlers backendSig requests).forward Handler.rank n) config events = some last) :
    events.length ≤ 25 * n ∧
      ((∃ event, (handlers backendSig requests).forward Handler.rank n last event = true ∧
          (last.locals event.1).phase.asks = none) ∨
        (last.world.gate = .free ∧ ∀ r < n, (last.locals r).Ended ∨
          ∃ action, (handlers backendSig requests).forward Handler.rank n last (r, action) =
            true)) := by
  obtain ⟨bounded, drained⟩ := proceeds_handlers.drains guarded_handlers
    (gate_accounted config reached) (fun r beyond => held_of_resting (others r beyond)) ran
  refine ⟨bounded.trans (work_le n config), drained.imp_right fun ⟨free, goes⟩ => ⟨free, ?_⟩⟩
  intro r below
  by_cases ended : (last.locals r).rank = 0
  · exact .inl (Handler.ended_of_rank ended)
  · exact .inr (goes r below ended)

/-- What is left to do then: the hot slot is taken and both turns fail. -/
def turnsFail : List (RequestId × HandlerAction) :=
  [(2, .hot 0), (2, .mark), (2, .answer .failed), (0, .answer .failed)].map
    fun event => (event.1, .act event.2)

theorem gate_drains_turnsFail :
    ∃ config last : HandlersState, (config.locals 2).phase = .matching false ∧
      (config.locals 0).phase = .forwarding (some 0) false none ∧
      (handlers "0123456789ab" alternating).machine.run
        ((handlers "0123456789ab" alternating).forward Handler.rank 3) config turnsFail =
          some last ∧
      turnsFail.length ≤ 25 * 3 ∧
      ((∃ event, (handlers "0123456789ab" alternating).forward Handler.rank 3 last event = true ∧
          (last.locals event.1).phase.asks = none) ∨
        (last.world.gate = .free ∧ ∀ r < 3, (last.locals r).Ended ∨
          ∃ action, (handlers "0123456789ab" alternating).forward Handler.rank 3 last
            (r, action) = true)) := by
  have executed : (((handlers "0123456789ab" alternating).machine.run
      (fun _ event => decide (event.1 < 3)) handlersStart lookupDuringRename).bind fun config =>
        ((handlers "0123456789ab" alternating).machine.run
          ((handlers "0123456789ab" alternating).forward Handler.rank 3) config turnsFail).map
            fun _ => ((config.locals 2).phase, (config.locals 0).phase)) =
      some (.matching false, .forwarding (some 0) false none) := by
    decide
  obtain ⟨config, started, continued⟩ := Option.bind_eq_some_iff.mp executed
  obtain ⟨last, ran, stands⟩ := Option.map_eq_some_iff.mp continued
  obtain ⟨looking, forwarding⟩ := Prod.mk.inj stands
  have reached : (handlers "0123456789ab" alternating).machine.ReachedBy
      (fun _ event => event.1 < 3) config :=
    .run (fun _ _ checked => of_decide_eq_true checked)
      (.initial (initial_handlersStart "0123456789ab" alternating)) started
  have unstarted : (handlers "0123456789ab" alternating).Unstarted 3 config := by
    refine reached.invariant ((handlers "0123456789ab" alternating).Unstarted 3) ?_ ?_
    · intro config initial other _
      rw [initial.2]
    · exact fun before event after unstarted below moved => unstarted.step below moved
  have others : ∀ r, 3 ≤ r → (config.locals r).phase.resting = true := by
    intro r beyond
    rw [unstarted r beyond]
    rfl
  exact ⟨config, last, looking, forwarding, ran,
    gate_drains (reached.mono fun _ _ _ => trivial) others ran⟩

end Ollm.Proxy
