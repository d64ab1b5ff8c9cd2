import Ollm.Proxy.Ownership
import Ollm.Proxy.Restart

/-!
# Turns in concert

What clients and backend keep to while turns of different sessions overlap, what then
holds of a request at each of its awaits, and what its actions do to slots and blobs.
A request never touches the session of another request, nor the slot that one has taken,
so that each can rely on what it knew before.
-/

namespace Ollm.Proxy

open Keying

/-- The slot an admission has settled on and not marked yet. -/
def Phase.picked : Phase → Option SlotId
  | .restoring id _ => some id
  | .marking id _ => some id
  | _ => none

/-- The slot a request has picked, or marked and not given up. -/
def Phase.taken : Phase → Option SlotId
  | .restoring id _ => some id
  | .marking id _ => some id
  | phase => phase.occupies

/-- No turn of the request is under way or waits to be published. -/
def Phase.settled : Phase → Bool
  | .waiting => true
  | .enforcing => true
  | .done => true
  | _ => false

/-- The request's turn has completed and its state is not on disk yet. -/
def Phase.unpublished : Phase → Bool
  | .relabelling _ => true
  | .saving .postTurn _ _ .cleaning => false
  | .saving .postTurn _ _ _ => true
  | _ => false

/-- The slot that a lookup settles on. -/
def takenSlot : Action → Phase → Registry → Option SlotId
  | .hot id, .matching _, _ => some id
  | .pick, .picking _ arr, g => (g.pickSlot arr).1
  | _, _, _ => none

variable (backendSig : String) (requests : RequestId → Request)

/-- Lookups find a slot, calls of the backend succeed unless the blob is gone, and
clients go away only before an admission has settled or while their turn is streamed. -/
def Fair (r : RequestId) : Action → Phase → World → Prop
  | .report none, _, _ => False
  | .pick, .picking _ arr, world => (world.slots.pickSlot arr).1 ≠ none
  | .restoreReply ok, _, world =>
      ok = true ∨ world.blobs (blobName backendSig (requests r).session) = none
  | .saveReply ok, _, _ => ok = true
  | .publish ok, _, _ => ok = true
  | .answer reply, _, _ => reply = .success
  | .finish ending, _, _ => ending ≠ .broken
  | .drop, phase, _ => phase.taken = none
  | _, _, _ => True

/-- `Fair`, as a check. -/
def isFair (r : RequestId) : Action → Phase → World → Bool
  | .report none, _, _ => false
  | .pick, .picking _ arr, world => (world.slots.pickSlot arr).1.isSome
  | .restoreReply ok, _, world =>
      ok || (world.blobs (blobName backendSig (requests r).session)).isNone
  | .saveReply ok, _, _ => ok
  | .publish ok, _, _ => ok
  | .answer reply, _, _ => reply == .success
  | .finish ending, _, _ => ending != .broken
  | .drop, phase, _ => phase.taken.isNone
  | _, _, _ => true

theorem isFair_iff (r : RequestId) (action : Action) (phase : Phase) (world : World) :
    isFair backendSig requests r action phase world = true ↔
      Fair backendSig requests r action phase world := by
  unfold isFair Fair
  split <;> simp [Option.isSome_iff_ne_none]

/-- What clients and backend keep to in turns side by side. -/
structure Concerted (config : ProxyState) (event : RequestId × Action) : Prop where
  successive : event.2 = .enter → ∀ other, other ≠ event.1 →
    (requests other).session = (requests event.1).session →
    (config.locals other).settled = true
  apart : ∀ id, takenSlot event.2 (config.locals event.1) config.world.slots = some id →
    ∀ other, other ≠ event.1 → (config.locals other).picked ≠ some id
  fair : Fair backendSig requests event.1 event.2 (config.locals event.1) config.world

variable {backendSig requests} {r : RequestId} {world world' : World}

/-- The slot holds what the session's last completed turn left. -/
def Holds (world : World) (session : String) (id : SlotId) : Prop :=
  ∃ turn, world.history.last session = some turn ∧ world.kv id = .left turn

/-- What an admission knows of its own session: without a hit there was no blob, and
nobody else writes one. -/
def Unhit (backendSig : String) (world : World) (session : String) (diskHit : Bool) : Prop :=
  diskHit = false → world.blobs (blobName backendSig session) = none

def Slotless (world : World) (session : String) : Prop :=
  ∀ id, world.slots.owner id ≠ some session

/-- What holds of a request at each of its awaits, whatever the others do. -/
def Along (backendSig : String) (requests : RequestId → Request) (r : RequestId)
    (world : World) : Phase → Prop
  | .waiting | .enforcing | .done | .abandoning _ => True
  | .matching diskHit => Unhit backendSig world (requests r).session diskHit
  | .snapshot diskHit | .picking diskHit _ =>
      Unhit backendSig world (requests r).session diskHit ∧ Slotless world (requests r).session
  | .restoring id loaded =>
      world.slots.dirty id = false ∧ Slotless world (requests r).session ∧
        (loaded = true → Resumes world (requests r).session id false)
  | .marking id hot =>
      (world.slots.dirty id = true → world.slots.owner id = some (requests r).session) ∧
        (∀ other, world.slots.owner other = some (requests r).session → other = id) ∧
        Resumes world (requests r).session id hot
  | .forwarding steer hot ranOn =>
      ∃ id, steer = some id ∧ (ranOn = none → Resumes world (requests r).session id hot) ∧
        ∀ slot, ranOn = some slot → slot = id
  | .receiving steer slot => steer = some slot
  | .relabelling id =>
      world.history.last (requests r).session = some r ∧ world.kv id = .left r
  | .saving .postTurn id session stage =>
      session = (requests r).session ∧
        (world.history.last session = some r ∧ world.kv id = .left r) ∧
        match stage with
        | .locking => True
        | .asking captured => ∀ content, captured = some content → content = .left r
        | .publishing content => content = .left r
        | .cleaning => world.history.lost session = false →
            world.blobs (blobName backendSig session) = some (.left r)
  | _ => False

/-! ## Effects -/

/-- What one action of a request does to slots and blobs. -/
inductive Effect (backendSig : String) (r : RequestId) (session : String) (world : World) :
    Phase → Phase → World → Prop where
  | quiet {phase phase' world'} (held : phase.taken = none ∨ phase'.taken = phase.taken)
      (same : phase'.unpublished = phase.unpublished)
      (owner : ∀ id, world'.slots.owner id = world.slots.owner id)
      (dirty : ∀ id, world'.slots.dirty id = world.slots.dirty id)
      (kv : world'.kv = world.kv) (blobs : world'.blobs = world.blobs)
      (last : world'.history.last = world.history.last)
      (lost : world'.history.lost = world.history.lost) :
      Effect backendSig r session world phase phase' world'
  | write {phase phase' id content} (taken : phase.taken = some id)
      (taken' : phase'.taken = some id) (same : phase'.unpublished = phase.unpublished)
      (busy : phase.settled = false) :
      Effect backendSig r session world phase phase'
        { world with kv := Function.update world.kv id content }
  | mark {id hot} :
      Effect backendSig r session world (.marking id hot) (.forwarding (some id) hot none)
        (world.mark r id session)
  | complete {id} :
      Effect backendSig r session world (.receiving (some id) id) (.relabelling id)
        (world.complete r session (some id) id)
  | publish {id} :
      Effect backendSig r session world (.saving .postTurn id session (.publishing (.left r)))
        (.saving .postTurn id session .cleaning)
        ((world.publish (blobName backendSig session) session (.left r)).settle r)
  | clean {id} :
      Effect backendSig r session world (.saving .postTurn id session .cleaning) .enforcing
        ({ world with slots := world.slots.markClean id }.release r)
  | abandon {id} :
      Effect backendSig r session world (.abandoning id) .done
        { world with slots := world.slots.abandon id }
  | evict {name} :
      Effect backendSig r session world .enforcing .enforcing (world.evict backendSig name)

theorem unpublished_of_droppable {phase : Phase}
    (droppable : droppable requests r phase = true) : phase.unpublished = false := by
  cases phase with
  | saving caller => cases caller <;> first | rfl | cases droppable
  | relabelling => cases droppable
  | _ => rfl

theorem taken_admission (diskHit : Bool) (id : SlotId) : (admission diskHit id).taken = some id := by
  cases diskHit <;> rfl

theorem unpublished_admission (diskHit : Bool) (id : SlotId) :
    (admission diskHit id).unpublished = false := by
  cases diskHit <;> rfl

/-- Every fair action has one of the listed effects. -/
theorem Step.effect {action : Action} {phase phase' : Phase}
    (object : isObject (requests r).body = true)
    (along : Along backendSig requests r world phase)
    (held : ∀ id, phase.occupies = some id → Held world.slots id (requests r).session)
    (fair : Fair backendSig requests r action phase world)
    (step : Step backendSig requests r action phase world phase' world') :
    Effect backendSig r (requests r).session world phase phase' world' := by
  cases step with
  | snapshotFailed | seekFailed => exact fair.elim
  | seek | choose => exact along.elim
  | failed | refused => cases fair
  | streamBroken | bodyBroken => exact absurd rfl fair
  | saveFailed | publishFailed => cases fair
  | publishVictim => exact along.elim
  | @pick diskHit arr =>
      obtain ⟨id, picked⟩ := Option.ne_none_iff_exists'.mp fair
      have views := Registry.views_pickSlot (g := world.slots) arr
      rw [picked]
      exact .quiet (.inl rfl) (unpublished_admission diskHit id) (fun id => (views id).1)
        (fun id => (views id).2) rfl rfl rfl rfl
  | @load id loaded _ _ present =>
      exact .write rfl rfl rfl rfl
  | @mark id hot => exact .mark
  | @land slot steer hot _ runs =>
      obtain ⟨id, rfl, -, -⟩ := along
      obtain rfl := runsOn_forwardBody object runs
      exact .write rfl rfl rfl rfl
  | @complete steer slot =>
      obtain rfl := along
      exact .complete
  | @publishTurn id session content =>
      obtain ⟨rfl, -, rfl⟩ := along
      exact .publish
  | @clean caller id session =>
      cases caller with
      | eviction => exact along.elim
      | postTurn =>
          obtain ⟨rfl, -⟩ := along
          exact .clean
  | cleanUp => exact .abandon
  | remove => exact .evict
  | @lock caller | @capture caller | @saved caller =>
      cases caller with
      | eviction => exact along.elim
      | postTurn =>
          exact .quiet (.inr rfl) rfl (fun _ => rfl) (fun _ => rfl) rfl rfl rfl rfl
  | @hungUp steer =>
      obtain rfl := along
      exact .quiet (.inr rfl) rfl (fun _ => rfl) (fun _ => rfl) rfl rfl rfl rfl
  | @relabel id =>
      exact .quiet (.inr rfl) rfl (owner_relabel_of_owned (held id rfl).2)
        (fun other => Registry.dirty_relabel id other _) rfl rfl rfl rfl
  | hot => exact .quiet (.inl rfl) rfl (fun _ => rfl) (fun _ => rfl) rfl rfl rfl rfl
  | drop permitted =>
      exact .quiet (.inl fair) (unpublished_of_droppable permitted).symm (fun _ => rfl)
        (fun _ => rfl) rfl rfl rfl rfl
  | _ => exact .quiet (.inr rfl) rfl (fun _ => rfl) (fun _ => rfl) rfl rfl rfl rfl

/-! ## What others leave alone -/

/-- What the effects of other requests leave of a session and of the slot it has taken. -/
structure Spared (backendSig : String) (session : String) (slot : Option SlotId)
    (world world' : World) : Prop where
  blob : world'.blobs (blobName backendSig session) = world.blobs (blobName backendSig session) ∨
    world'.blobs (blobName backendSig session) = none ∧ world'.history.lost session = true
  owner : ∀ id, world'.slots.owner id = some session → world.slots.owner id = some session
  slot : ∀ id, slot = some id → world'.slots.owner id = world.slots.owner id ∧
    world'.slots.dirty id = world.slots.dirty id ∧ world'.kv id = world.kv id
  last : world'.history.last session = world.history.last session
  lost : world'.history.lost session = false → world.history.lost session = false

theorem Effect.spares {session other : String} {slot : Option SlotId} {phase phase' : Phase}
    (effect : Effect backendSig r session world phase phase' world')
    (distinct : phase.settled = false → other ≠ session)
    (apart : ∀ id, phase.taken = some id → slot ≠ some id) :
    Spared backendSig other slot world world' := by
  have elsewhere : ∀ {own id : SlotId}, phase.taken = some own → slot = some id → id ≠ own := by
    rintro own id taken holds rfl
    exact apart id taken holds
  cases effect with
  | quiet _ _ owner dirty kv blobs last lost =>
      refine ⟨.inl (by rw [blobs]), fun id owned => (owner id).symm.trans owned, fun id _ => ?_,
        by rw [last], fun kept => ?_⟩
      · exact ⟨owner id, dirty id, by rw [kv]⟩
      · rwa [← lost]
  | write taken =>
      refine ⟨.inl rfl, fun _ owned => owned, fun id holds => ⟨rfl, rfl, ?_⟩, rfl, fun kept => kept⟩
      exact Function.update_of_ne (elsewhere taken holds) _ _
  | @mark own hot =>
      have others := distinct rfl
      refine ⟨.inl rfl, fun id owned => ?_, fun id holds => ⟨?_, ?_, rfl⟩, rfl, fun kept => kept⟩
      · simp only [World.mark, Registry.owner_markDirty] at owned
        split_ifs at owned
        · exact absurd (Option.some.inj owned).symm others
        · exact owned
      · simp [World.mark, elsewhere rfl holds]
      · simp [World.mark, elsewhere rfl holds]
  | @complete own =>
      have others := distinct rfl
      refine ⟨.inl rfl, fun _ owned => owned, fun id holds => ⟨rfl, rfl, ?_⟩, ?_, fun kept => ?_⟩
      · exact Function.update_of_ne (elsewhere rfl holds) _ _
      · exact Function.update_of_ne others _ _
      · simpa [World.complete, others] using kept
  | publish =>
      have names : blobName backendSig other ≠ blobName backendSig session :=
        fun same => distinct rfl (blobName_inj rfl same).1
      refine ⟨.inl ?_, fun _ owned => owned, fun _ _ => ⟨rfl, rfl, rfl⟩, rfl, fun kept => kept⟩
      exact Function.update_of_ne names _ _
  | @clean own =>
      refine ⟨.inl rfl, fun id owned => ?_, fun id holds => ⟨?_, ?_, rfl⟩, rfl, fun kept => kept⟩
      · exact Registry.owner_markClean own id ▸ owned
      · exact Registry.owner_markClean own id
      · exact (Registry.dirty_markClean own id).trans (if_neg (elsewhere rfl holds))
  | @abandon own =>
      refine ⟨.inl rfl, fun id owned => ?_, fun id holds => ⟨?_, ?_, rfl⟩, rfl, fun kept => kept⟩
      · rw [Registry.owner_abandon] at owned
        split_ifs at owned
        exact owned
      · exact (Registry.owner_abandon own id).trans (if_neg (elsewhere rfl holds))
      · exact (Registry.dirty_abandon own id).trans (if_neg (elsewhere rfl holds))
  | @evict name =>
      refine ⟨?_, fun _ owned => owned, fun _ _ => ⟨rfl, rfl, rfl⟩, rfl, fun kept => ?_⟩
      · by_cases named : blobName backendSig other = name
        · right
          simp [World.evict, named]
        · left
          exact Function.update_of_ne named _ _
      · simp only [World.evict, Bool.or_eq_false_iff] at kept
        exact kept.1

theorem Resumes.spared {session : String} {id : SlotId} {hot : Bool} {slot : Option SlotId}
    (resumes : Resumes world session id hot) (spared : Spared backendSig session slot world world')
    (own : slot = some id) : Resumes world' session id hot := by
  intro turn last kept
  rw [(spared.slot id own).2.2]
  refine resumes turn (spared.last ▸ last) ?_
  exact kept.imp_right spared.lost

theorem Along.spared {phase : Phase} (along : Along backendSig requests r world phase)
    (spared : Spared backendSig (requests r).session phase.taken world world') :
    Along backendSig requests r world' phase := by
  have unhit : ∀ {diskHit}, Unhit backendSig world (requests r).session diskHit →
      Unhit backendSig world' (requests r).session diskHit := by
    intro diskHit unhit missed
    rcases spared.blob with kept | ⟨gone, -⟩
    · rw [kept, unhit missed]
    · exact gone
  have unowned : Slotless world (requests r).session → Slotless world' (requests r).session :=
    fun unowned id owned => unowned id (spared.owner id owned)
  have left : ∀ id, phase.taken = some id →
      world.history.last (requests r).session = some r ∧ world.kv id = .left r →
      world'.history.last (requests r).session = some r ∧ world'.kv id = .left r := by
    rintro id taken ⟨last, kv⟩
    rw [spared.last, (spared.slot id taken).2.2]
    exact ⟨last, kv⟩
  cases phase with
  | waiting | enforcing | done | abandoning => trivial
  | matching diskHit => exact unhit along
  | snapshot diskHit | picking diskHit => exact ⟨unhit along.1, unowned along.2⟩
  | restoring id loaded =>
      obtain ⟨clean, none, resumes⟩ := along
      refine ⟨(spared.slot id rfl).2.1.trans clean, unowned none, fun loads => ?_⟩
      exact (resumes loads).spared spared rfl
  | marking id hot =>
      obtain ⟨own, sole, resumes⟩ := along
      obtain ⟨owner, dirty, -⟩ := spared.slot id rfl
      rw [Along, owner, dirty]
      exact ⟨own, fun other owned => sole other (spared.owner other owned),
        resumes.spared spared rfl⟩
  | forwarding steer hot ranOn =>
      obtain ⟨id, rfl, resumes, ran⟩ := along
      exact ⟨id, rfl, fun pending => (resumes pending).spared spared rfl, ran⟩
  | receiving => exact along
  | relabelling id => exact left id rfl along
  | saving caller id session stage =>
      cases caller with
      | eviction => exact along.elim
      | postTurn =>
          obtain ⟨rfl, holds, along⟩ := along
          refine ⟨rfl, left id rfl holds, ?_⟩
          cases stage with
          | cleaning =>
              intro kept
              have stored := along (spared.lost kept)
              rcases spared.blob with same | ⟨-, gone⟩
              · rw [same, stored]
              · rw [kept] at gone
                cases gone
          | _ => exact along
  | seeking | choosing => exact along.elim

/-! ## What a request does itself -/

theorem along_admission {diskHit : Bool} {id : SlotId}
    (clean : world.slots.dirty id = false) (unowned : Slotless world (requests r).session)
    (unhit : Unhit backendSig world (requests r).session diskHit)
    (stored : ∀ turn, world.history.last (requests r).session = some turn →
      world.history.lost (requests r).session = false →
      world.blobs (blobName backendSig (requests r).session) = some (.left turn)) :
    Along backendSig requests r world (admission diskHit id) := by
  cases diskHit with
  | true => exact ⟨clean, unowned, nofun⟩
  | false =>
      refine ⟨fun dirty => ?_, fun other owned => absurd owned (unowned other), ?_⟩
      · rw [clean] at dirty
        cases dirty
      · rintro turn last (hot | kept)
        · cases hot
        · rw [unhit rfl] at stored
          cases stored turn last kept

/-- A fair action leads from one assertion to the next, given that owned slots nobody has taken
hold their session's last state and that the own blob is up to date between turns. -/
theorem Along.step {action : Action} {phase phase' : Phase}
    (object : isObject (requests r).body = true)
    (along : Along backendSig requests r world phase)
    (fair : Fair backendSig requests r action phase world)
    (single : world.slots.SingleOwner)
    (free : ∀ id, takenSlot action phase world.slots = some id →
      world.slots.owner id = some (requests r).session → Holds world (requests r).session id)
    (stored : phase.settled = false → phase.unpublished = false → ∀ turn,
      world.history.last (requests r).session = some turn →
      world.history.lost (requests r).session = false →
      world.blobs (blobName backendSig (requests r).session) = some (.left turn))
    (step : Step backendSig requests r action phase world phase' world') :
    Along backendSig requests r world' phase' := by
  cases step with
  | enter => exact fun missed => Option.isNone_iff_eq_none.mp (by simpa using missed)
  | @hot _ id _ owned =>
      refine ⟨fun _ => owned, fun other owned' => single _ _ _ owned' owned, ?_⟩
      intro turn last _
      obtain ⟨turn', last', left⟩ := free id rfl owned
      obtain rfl : turn = turn' := Option.some.inj (last.symm.trans last')
      exact left
  | miss unowned => exact ⟨along, unowned⟩
  | snapshot => exact along
  | @pick diskHit arr =>
      obtain ⟨unhit, unowned⟩ := along
      obtain ⟨id, picked⟩ := Option.ne_none_iff_exists'.mp fair
      have views := Registry.views_pickSlot (g := world.slots) arr
      obtain ⟨clean, -⟩ := Registry.pickSlot_some picked
      rw [picked]
      refine along_admission ((views id).2.trans clean) (fun other => ?_) unhit (stored rfl rfl)
      exact (views other).1 ▸ unowned other
  | @load id _ _ content present =>
      obtain ⟨clean, unowned, -⟩ := along
      refine ⟨clean, unowned, fun _ => ?_⟩
      rintro turn last (hot | kept)
      · cases hot
      · have blob := (stored rfl rfl turn last kept).symm.trans present
        simp [← Option.some.inj blob]
  | @restored ok id loaded _ honest =>
      obtain ⟨clean, unowned, resumes⟩ := along
      refine ⟨fun dirty => ?_, fun other owned => absurd owned (unowned other), ?_⟩
      · rw [clean] at dirty
        cases dirty
      · rcases fair with succeeded | gone
        · exact resumes (honest succeeded)
        · rintro turn last (hot | kept)
          · cases hot
          · cases gone.symm.trans (stored rfl rfl turn last kept)
  | @mark id hot =>
      refine ⟨id, rfl, fun _ => along.2.2, fun slot ran => ?_⟩
      cases ran
  | @land slot steer hot _ runs =>
      obtain ⟨id, rfl, -, -⟩ := along
      obtain rfl := runsOn_forwardBody object runs
      refine ⟨slot, rfl, fun pending => ?_, fun other same => (Option.some.inj same).symm⟩
      cases pending
  | success =>
      obtain ⟨id, rfl, -, ran⟩ := along
      rw [ran _ rfl]
      rfl
  | @complete steer slot =>
      obtain rfl := along
      exact ⟨by simp [World.complete], by simp [World.complete]⟩
  | @hungUp steer slot =>
      obtain rfl := along
      trivial
  | relabel => exact ⟨rfl, along, trivial⟩
  | @lock caller =>
      cases caller with
      | eviction => exact along.elim
      | postTurn =>
          refine ⟨along.1, along.2.1, fun content same => ?_⟩
          cases same
  | @capture caller =>
      cases caller with
      | eviction => exact along.elim
      | postTurn =>
          obtain ⟨own, left, -⟩ := along
          exact ⟨own, left, fun content same => by rw [← Option.some.inj same, left.2]⟩
  | @saved caller _ _ content =>
      cases caller with
      | eviction => exact along.elim
      | postTurn => exact ⟨along.1, along.2.1, along.2.2 content rfl⟩
  | publishTurn =>
      obtain ⟨rfl, left, rfl⟩ := along
      refine ⟨rfl, left, fun _ => ?_⟩
      simp [World.publish, World.settle]
  | @clean caller =>
      cases caller with
      | eviction => exact along.elim
      | postTurn => trivial
  | cleanUp | remove | settle | drop => trivial
  | snapshotFailed | seekFailed => exact fair.elim
  | seek | choose | publishVictim => exact along.elim
  | failed | refused | saveFailed | publishFailed => cases fair
  | streamBroken | bodyBroken => exact absurd rfl fair

/-! ## What is left behind -/

/-- Owned slots that nobody has taken hold their session's last state. -/
theorem Effect.owned {phase phase' : Phase} {id : SlotId} {session : String}
    (effect : Effect backendSig r (requests r).session world phase phase' world')
    (along : Along backendSig requests r world phase)
    (held : ∀ id, phase.occupies = some id → Held world.slots id (requests r).session)
    (single : world.slots.SingleOwner)
    (before : phase.taken ≠ some id → world.slots.owner id = some session →
      Holds world session id)
    (untaken : phase'.taken ≠ some id) (owned : world'.slots.owner id = some session) :
    Holds world' session id := by
  have elsewhere : ∀ {own : SlotId}, phase'.taken = some own → id ≠ own := by
    rintro own taken rfl
    exact untaken taken
  cases effect with
  | quiet keeps _ owner _ kv _ last _ =>
      rw [Holds, last, kv]
      apply before
      · rcases keeps with none | same
        · simp [none]
        · rwa [← same]
      · rwa [← owner]
  | write taken taken' =>
      have apart := elsewhere taken'
      obtain ⟨turn, last, left⟩ := before (by rw [taken]; simpa using apart.symm) owned
      exact ⟨turn, last, (Function.update_of_ne apart _ _).trans left⟩
  | mark =>
      have apart := elsewhere rfl
      rw [World.mark, Registry.owner_markDirty, if_neg apart] at owned
      exact before (fun taken => apart (Option.some.inj taken).symm) owned
  | @complete own =>
      have apart := elsewhere rfl
      have others : session ≠ (requests r).session := by
        rintro rfl
        exact apart (single _ _ _ owned (held own rfl).2)
      obtain ⟨turn, last, left⟩ :=
        before (fun taken => apart (Option.some.inj taken).symm) owned
      exact ⟨turn, (Function.update_of_ne others _ _).trans last,
        (Function.update_of_ne apart _ _).trans left⟩
  | publish => exact before (fun taken => elsewhere taken rfl) owned
  | @clean own =>
      have owner : world.slots.owner id = some session :=
        (Registry.owner_markClean own id).symm.trans owned
      by_cases here : own = id
      · subst here
        obtain rfl : (requests r).session = session :=
          Option.some.inj ((held own rfl).2.symm.trans owner)
        exact ⟨r, along.2.1⟩
      · exact before (fun taken => here (Option.some.inj taken)) owner
  | @abandon own =>
      rw [Registry.owner_abandon] at owned
      split_ifs at owned with here
      exact before (fun taken => here (Option.some.inj taken).symm) owned
  | evict => exact before (fun taken => by cases taken) owned

/-- Sessions without a turn to publish have their last state on disk. -/
theorem Effect.stored {phase phase' : Phase} {session : String} {turn : RequestId}
    (effect : Effect backendSig r (requests r).session world phase phase' world')
    (along : Along backendSig requests r world phase)
    (before : (session = (requests r).session → phase.unpublished = false) →
      world.history.last session = some turn → world.history.lost session = false →
      world.blobs (blobName backendSig session) = some (.left turn))
    (published : session = (requests r).session → phase'.unpublished = false)
    (last : world'.history.last session = some turn)
    (kept : world'.history.lost session = false) :
    world'.blobs (blobName backendSig session) = some (.left turn) := by
  cases effect with
  | quiet _ same _ _ _ blobs lasts losts =>
      rw [blobs]
      exact before (fun own => same ▸ published own) (lasts ▸ last) (losts ▸ kept)
  | write _ _ same => exact before (fun own => same ▸ published own) last kept
  | mark | clean | abandon => exact before (fun _ => rfl) last kept
  | complete =>
      have others : session ≠ (requests r).session := fun own => by cases published own
      apply before (fun own => absurd own others)
      · simpa [World.complete, others] using last
      · simpa [World.complete, others] using kept
  | publish =>
      by_cases own : session = (requests r).session
      · subst own
        obtain rfl : turn = r := Option.some.inj (last.symm.trans along.2.1.1)
        exact Function.update_self _ _ _
      · have names : blobName backendSig session ≠ blobName backendSig (requests r).session :=
          fun same => own (blobName_inj rfl same).1
        exact (Function.update_of_ne names _ _).trans
          (before (fun same => absurd same own) last kept)
  | @evict name =>
      simp only [World.evict, Bool.or_eq_false_iff, beq_eq_false_iff_ne] at kept
      exact (Function.update_of_ne kept.2 _ _).trans (before (fun _ => rfl) last kept.1)

/-- A slot comes to be taken only where a lookup settles on it. -/
theorem Step.taken {action : Action} {phase phase' : Phase} {id : SlotId}
    (along : Along backendSig requests r world phase)
    (fair : Fair backendSig requests r action phase world)
    (step : Step backendSig requests r action phase world phase' world')
    (taken : phase'.taken = some id) :
    phase.taken = some id ∨ takenSlot action phase world.slots = some id := by
  cases step with
  | hot => exact .inr taken
  | @pick diskHit arr =>
      obtain ⟨picked, found⟩ := Option.ne_none_iff_exists'.mp fair
      rw [found, afterPick, taken_admission] at taken
      exact .inr (found.trans taken)
  | @complete steer =>
      obtain rfl := along
      exact .inl taken
  | @hungUp steer =>
      obtain rfl := along
      exact .inl taken
  | @lock caller | @capture caller | @saved caller | @clean caller =>
      cases caller with
      | eviction => exact along.elim
      | postTurn => first | exact .inl taken | cases taken
  | snapshotFailed | seekFailed => exact fair.elim
  | seek | choose | publishVictim => exact along.elim
  | saveFailed | publishFailed => cases fair
  | bodyBroken => exact absurd rfl fair
  | load | restored | mark | land | success | relabel | publishTurn => exact .inl taken
  | _ => cases taken

/-- A lookup settles on a slot of its session or on one that is clean. -/
theorem Step.of_takenSlot {action : Action} {phase phase' : Phase} {id : SlotId}
    (step : Step backendSig requests r action phase world phase' world')
    (takes : takenSlot action phase world.slots = some id) :
    phase.settled = false ∧
      (world.slots.owner id = some (requests r).session ∨ world.slots.dirty id = false) := by
  cases step with
  | hot owned =>
      obtain rfl := Option.some.inj takes
      exact ⟨rfl, .inl owned⟩
  | pick => exact ⟨rfl, .inr (Registry.pickSlot_some takes).1⟩
  | _ => cases takes

theorem Step.settled {action : Action} {phase phase' : Phase}
    (step : Step backendSig requests r action phase world phase' world')
    (busy : phase'.settled = false) : phase.settled = false ∨ action = .enter := by
  cases step with
  | enter => exact .inr rfl
  | remove | settle | drop => cases busy
  | _ => exact .inl rfl

end Ollm.Proxy
