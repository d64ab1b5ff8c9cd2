import Ollm.Proxy.Serial

/-!
# Resuming conversations

Registry, slots and blobs agree between turns: clean slots hold the state their
owner's last completed turn left, no session owns two slots, and blobs that were
not evicted since hold the last state of their session.  An admission either
finds its own slot or loads its blob into a clean one, so that the turn starts
where the session's last completed turn ended.
-/

namespace Ollm.Proxy

open Keying

variable {backendSig : String} {requests : RequestId → Request} {r : RequestId}
  {world world' : World}

/-- The agreement between turns.  The active request may hold one slot and,
until it has published, one session out of it. -/
structure Coherent (backendSig : String) (world : World) (slot : Option SlotId)
    (saving : Option String) : Prop where
  clean : ∀ id, slot ≠ some id → world.slots.dirty id = false
  owned : ∀ id session, slot ≠ some id → world.slots.owner id = some session →
    ∃ turn, world.history.last session = some turn ∧ world.kv id = .left turn
  unique : ∀ id other session, world.slots.owner id = some session →
    world.slots.owner other = some session → id = other
  stored : ∀ session turn, saving ≠ some session →
    world.history.last session = some turn → world.history.lost session = false →
    world.blobs (blobName backendSig session) = some (.left turn)

/-- The slot holds what the session's last completed turn left, as far as the
session still owned it or its blob was not evicted since. -/
def Resumes (world : World) (session : String) (id : SlotId) (hot : Bool) : Prop :=
  ∀ turn, world.history.last session = some turn →
    (hot = true ∨ world.history.lost session = false) → world.kv id = .left turn

structure Running (backendSig : String) (world : World) (session : String) (id : SlotId) :
    Prop where
  coherent : Coherent backendSig world (some id) none
  owner : world.slots.owner id = some session

structure Completed (backendSig : String) (requests : RequestId → Request) (r : RequestId)
    (world : World) (id : SlotId) (saving : Option String) : Prop where
  coherent : Coherent backendSig world (some id) saving
  owner : world.slots.owner id = some (requests r).session
  last : world.history.last (requests r).session = some r
  left : world.kv id = .left r

/-- What holds while the active request is at each of its awaits. -/
def During (backendSig : String) (requests : RequestId → Request) (r : RequestId)
    (world : World) : Phase → Prop
  | .waiting | .enforcing | .done => Coherent backendSig world none none
  | .matching diskHit =>
      Coherent backendSig world none none ∧
        diskHit = (world.blobs (blobName backendSig (requests r).session)).isSome
  | .snapshot diskHit =>
      Coherent backendSig world none none ∧
        diskHit = (world.blobs (blobName backendSig (requests r).session)).isSome ∧
        ∀ id, world.slots.owner id ≠ some (requests r).session
  | .picking diskHit arr =>
      Coherent backendSig world none none ∧
        diskHit = (world.blobs (blobName backendSig (requests r).session)).isSome ∧
        (∀ id, world.slots.owner id ≠ some (requests r).session) ∧
        arr ≠ [] ∧ ∀ s ∈ arr, s.isProcessing = false
  | .restoring id loaded =>
      Coherent backendSig world (some id) none ∧
        (∀ id, world.slots.owner id ≠ some (requests r).session) ∧
        (loaded = true →
          world.blobs (blobName backendSig (requests r).session) = some (world.kv id))
  | .marking id hot =>
      Coherent backendSig world (some id) none ∧
        (∀ other, world.slots.owner other = some (requests r).session → other = id) ∧
        Resumes world (requests r).session id hot
  | .forwarding steer hot ranOn =>
      ∃ id, steer = some id ∧ Running backendSig world (requests r).session id ∧
        (ranOn = none → Resumes world (requests r).session id hot) ∧
        ∀ slot, ranOn = some slot → slot = id
  | .receiving steer slot =>
      steer = some slot ∧ Running backendSig world (requests r).session slot
  | .abandoning id => Running backendSig world (requests r).session id
  | .relabelling id =>
      Completed backendSig requests r world id (some (requests r).session)
  | .saving .postTurn id session stage =>
      session = (requests r).session ∧
        match stage with
        | .locking => Completed backendSig requests r world id (some session)
        | .asking captured =>
            Completed backendSig requests r world id (some session) ∧
              ∀ content, captured = some content → content = .left r
        | .publishing content =>
            Completed backendSig requests r world id (some session) ∧ content = .left r
        | .cleaning => Completed backendSig requests r world id none
  | _ => False

/-- Backend and client play along: slots are reported, all idle; calls succeed;
a turn completes or its client hangs up on the stream. -/
def Smooth : Action → Prop
  | .report (some arr) => arr ≠ [] ∧ ∀ s ∈ arr, s.isProcessing = false
  | .report none => False
  | .restoreReply ok => ok = true
  | .saveReply ok => ok = true
  | .publish ok => ok = true
  | .answer reply => reply = .success
  | .finish ending => ending ≠ .broken
  | .drop => False
  | _ => True

instance (action : Action) : Decidable (Smooth action) := by
  unfold Smooth
  split <;> infer_instance

namespace Coherent

variable {slot : Option SlotId} {saving : Option String}

theorem of_views (coherent : Coherent backendSig world slot saving)
    (owner : ∀ id, world'.slots.owner id = world.slots.owner id)
    (dirty : ∀ id, world'.slots.dirty id = world.slots.dirty id)
    (kv : world'.kv = world.kv) (blobs : world'.blobs = world.blobs)
    (last : world'.history.last = world.history.last)
    (lost : world'.history.lost = world.history.lost) :
    Coherent backendSig world' slot saving := by
  constructor
  · simpa [dirty] using coherent.clean
  · simpa [owner, kv, last] using coherent.owned
  · simpa [owner] using coherent.unique
  · simpa [blobs, last, lost] using coherent.stored

theorem take (coherent : Coherent backendSig world none saving) (id : SlotId) :
    Coherent backendSig world (some id) saving where
  clean other _ := coherent.clean other nofun
  owned other session _ := coherent.owned other session nofun
  unique := coherent.unique
  stored := coherent.stored

theorem overwrite {id : SlotId} (coherent : Coherent backendSig world (some id) saving)
    (content : Content) :
    Coherent backendSig { world with kv := Function.update world.kv id content } (some id)
      saving where
  clean := coherent.clean
  owned other session distinct owned := by
    have apart : other ≠ id := fun same => distinct (by rw [same])
    simpa [apart] using coherent.owned other session distinct owned
  unique := coherent.unique
  stored := coherent.stored

theorem mark {id : SlotId} {session : String}
    (coherent : Coherent backendSig world (some id) saving)
    (sole : ∀ other, world.slots.owner other = some session → other = id) :
    Coherent backendSig (world.mark r id session) (some id) saving where
  clean other distinct := by
    have apart : other ≠ id := fun same => distinct (by rw [same])
    simpa [World.mark, apart] using coherent.clean other distinct
  owned other owner distinct owned := by
    have apart : other ≠ id := fun same => distinct (by rw [same])
    simp only [World.mark, Registry.owner_markDirty, apart, if_false] at owned
    exact coherent.owned other owner distinct owned
  unique first second owner owned owned' := by
    simp only [World.mark, Registry.owner_markDirty] at owned owned'
    split_ifs at owned owned' with here there there
    · rw [here, there]
    · rw [here, sole second (owned'.trans owned.symm)]
    · rw [there, sole first (owned.trans owned'.symm)]
    · exact coherent.unique first second owner owned owned'
  stored := coherent.stored

/-- A turn completes on its session's slot; its blob is not up to date yet. -/
theorem complete {id : SlotId} {session : String}
    (coherent : Coherent backendSig world (some id) none)
    (owner : world.slots.owner id = some session) :
    Coherent backendSig (world.complete r session (some id) id) (some id)
      (some session) where
  clean := coherent.clean
  owned other name distinct owned := by
    have apart : other ≠ id := fun same => distinct (by rw [same])
    have others : name ≠ session := by
      rintro rfl
      exact apart (coherent.unique other id name owned owner)
    simpa [World.complete, apart, others] using coherent.owned other name distinct owned
  unique := coherent.unique
  stored name turn distinct last lost := by
    have others : name ≠ session := fun same => distinct (by rw [same])
    simp only [World.complete, Function.update_of_ne others] at last lost
    exact coherent.stored name turn (by simp) last lost

/-- Publishing the last state of the session brings its blob up to date. -/
theorem publish {slot : Option SlotId} {session : String} {turn : RequestId}
    (coherent : Coherent backendSig world slot (some session))
    (last : world.history.last session = some turn) :
    Coherent backendSig (world.publish (blobName backendSig session) session (.left turn))
      slot none where
  clean := coherent.clean
  owned := coherent.owned
  unique := coherent.unique
  stored name other _ lastOf lost := by
    by_cases same : name = session
    · subst same
      obtain rfl : turn = other := Option.some.inj (last.symm.trans lastOf)
      simp [World.publish]
    · have apart : blobName backendSig name ≠ blobName backendSig session :=
        fun names => same (blobName_inj rfl names).1
      simpa [World.publish, apart] using
        coherent.stored name other (fun here => same (Option.some.inj here).symm) lastOf lost

theorem clean_slot {id : SlotId} {session : String} {turn : RequestId}
    (coherent : Coherent backendSig world (some id) none)
    (owner : world.slots.owner id = some session)
    (last : world.history.last session = some turn) (left : world.kv id = .left turn) :
    Coherent backendSig { world with slots := world.slots.markClean id } none none where
  clean other _ := by
    by_cases same : other = id
    · simp [same]
    · simpa [same] using coherent.clean other fun here => same (Option.some.inj here).symm
  owned other name _ owned := by
    simp only [Registry.owner_markClean] at owned
    by_cases same : other = id
    · subst same
      obtain rfl : session = name := Option.some.inj (owner.symm.trans owned)
      exact ⟨turn, last, left⟩
    · exact coherent.owned other name (fun here => same (Option.some.inj here).symm) owned
  unique := by simpa using coherent.unique
  stored := coherent.stored

theorem abandon {id : SlotId} (coherent : Coherent backendSig world (some id) none) :
    Coherent backendSig { world with slots := world.slots.abandon id } none none where
  clean other _ := by
    by_cases same : other = id
    · simp [same]
    · simpa [same] using coherent.clean other fun here => same (Option.some.inj here).symm
  owned other name _ owned := by
    by_cases same : other = id
    · simp [same] at owned
    · simp only [Registry.owner_abandon, same, if_false] at owned
      exact coherent.owned other name (fun here => same (Option.some.inj here).symm) owned
  unique first second name owned owned' := by
    simp only [Registry.owner_abandon] at owned owned'
    split_ifs at owned owned' with here there
    exact coherent.unique first second name owned owned'
  stored := coherent.stored

theorem evict {slot : Option SlotId} {saving : Option String}
    (coherent : Coherent backendSig world slot saving) (name : String) :
    Coherent backendSig (world.evict backendSig name) slot saving where
  clean := coherent.clean
  owned := coherent.owned
  unique := coherent.unique
  stored session turn distinct last lost := by
    simp only [World.evict, Bool.or_eq_false_iff, beq_eq_false_iff_ne] at lost
    have stored := coherent.stored session turn distinct last lost.1
    simpa [World.evict, lost.2] using stored

end Coherent

theorem owner_relabel_of_owned {g : Registry} {id : SlotId} {session : String}
    (owned : g.owner id = some session) (other : SlotId) :
    (g.relabel id session).owner other = g.owner other := by
  rw [Registry.owner_relabel]
  split_ifs with here
  · rw [here.1, owned]
  · rfl

theorem during_admission {id : SlotId} {diskHit : Bool}
    (coherent : Coherent backendSig world none none)
    (unowned : ∀ id, world.slots.owner id ≠ some (requests r).session)
    (hit : diskHit = (world.blobs (blobName backendSig (requests r).session)).isSome) :
    During backendSig requests r world (admission diskHit id) := by
  cases diskHit with
  | true => exact ⟨coherent.take id, unowned, fun loaded => by cases loaded⟩
  | false =>
      refine ⟨coherent.take id, fun other owned => absurd owned (unowned other), ?_⟩
      rintro turn last (hot | kept)
      · cases hot
      · simp [coherent.stored _ turn nofun last kept] at hit

theorem during_of_resting {phase : Phase} (resting : phase.resting = true) :
    During backendSig requests r world phase ↔ Coherent backendSig world none none := by
  cases phase with
  | waiting | done => exact Iff.rfl
  | _ => cases resting

/-- With every reported slot idle and clean the lookup picks one. -/
theorem pickSlot_isSome {g : Registry} {arr : List SlotState} (nonempty : arr ≠ [])
    (idle : ∀ s ∈ arr, s.isProcessing = false) (clean : ∀ id, g.dirty id = false) :
    ∃ id, (g.pickSlot arr).1 = some id := by
  rw [← Option.ne_none_iff_exists']
  intro missed
  obtain ⟨s, member⟩ := List.exists_mem_of_ne_nil arr nonempty
  rcases Registry.pickSlot_none missed s member with processing | dirty
  · exact absurd ((idle s member).symm.trans processing) (by decide)
  · exact absurd ((clean s.id).symm.trans dirty) (by decide)

theorem During.step {action : Action} {phase phase' : Phase}
    (object : isObject (requests r).body = true)
    (during : During backendSig requests r world phase) (smooth : Smooth action)
    (step : Step backendSig requests r action phase world phase' world') :
    During backendSig requests r world' phase' := by
  cases step with
  | enter => exact ⟨during.of_views (fun _ => rfl) (fun _ => rfl) rfl rfl rfl rfl, rfl⟩
  | @hot _ id _ owned =>
      obtain ⟨coherent, -⟩ := during
      refine ⟨(coherent.take id).of_views (fun _ => rfl) (fun _ => rfl) rfl rfl rfl rfl,
        fun other owned' => coherent.unique other id _ owned' owned, ?_⟩
      intro turn last _
      obtain ⟨turn', last', left⟩ := coherent.owned id _ nofun owned
      obtain rfl : turn = turn' := Option.some.inj (last.symm.trans last')
      exact left
  | miss unowned => exact ⟨during.1, during.2, unowned⟩
  | snapshot => exact ⟨during.1, during.2.1, during.2.2, smooth⟩
  | snapshotFailed | seekFailed => exact smooth.elim
  | @pick diskHit arr =>
      obtain ⟨coherent, hit, unowned, nonempty, idle⟩ := during
      obtain ⟨id, picked⟩ := pickSlot_isSome nonempty idle fun id => coherent.clean id nofun
      have views := Registry.views_pickSlot (g := world.slots) arr
      have unowned' : ∀ id, (world.slots.pickSlot arr).2.owner id ≠ some (requests r).session :=
        fun id => (views id).1 ▸ unowned id
      rw [picked]
      exact during_admission (coherent.of_views (fun id => (views id).1) (fun id => (views id).2)
        rfl rfl rfl rfl) unowned' hit
  | seek | choose => exact during.elim
  | @lock caller =>
      cases caller with
      | eviction => exact during.elim
      | postTurn =>
          obtain ⟨own, coherent, owner, last, left⟩ := during
          exact ⟨own, ⟨coherent.of_views (fun _ => rfl) (fun _ => rfl) rfl rfl rfl rfl, owner,
            last, left⟩, nofun⟩
  | @capture caller =>
      cases caller with
      | eviction => exact during.elim
      | postTurn =>
          obtain ⟨own, completed, -⟩ := during
          exact ⟨own, completed, fun content same => by
            rw [← Option.some.inj same, completed.left]⟩
  | @saved caller _ _ content =>
      cases caller with
      | eviction => exact during.elim
      | postTurn => exact ⟨during.1, during.2.1, during.2.2 content rfl⟩
  | saveFailed | publishFailed => cases smooth
  | publishVictim => exact during.elim
  | publishTurn =>
      obtain ⟨rfl, ⟨coherent, owner, last, left⟩, rfl⟩ := during
      have published := coherent.publish last
      exact ⟨rfl, published.of_views (fun _ => rfl) (fun _ => rfl) rfl rfl rfl rfl, owner, last,
        left⟩
  | @clean caller id =>
      cases caller with
      | eviction => exact during.elim
      | postTurn =>
          obtain ⟨rfl, coherent, owner, last, left⟩ := during
          exact (coherent.clean_slot owner last left).of_views (fun _ => rfl) (fun _ => rfl)
            rfl rfl rfl rfl
  | load present =>
      obtain ⟨coherent, unowned, -⟩ := during
      exact ⟨coherent.overwrite _, unowned, fun _ => by simpa using present⟩
  | @restored ok id loaded _ honest =>
      obtain ⟨coherent, unowned, stored⟩ := during
      refine ⟨coherent, fun other owned => absurd owned (unowned other), ?_⟩
      rintro turn last (hot | kept)
      · cases hot
      · have blob := stored (honest smooth)
        rw [coherent.stored _ turn nofun last kept] at blob
        exact (Option.some.inj blob).symm
  | @mark id hot =>
      obtain ⟨coherent, sole, resumes⟩ := during
      exact ⟨id, rfl, ⟨coherent.mark sole, by simp [World.mark]⟩, fun _ => resumes, nofun⟩
  | @land slot steer hot _ runs =>
      obtain ⟨id, rfl, ⟨coherent, owner⟩, -, -⟩ := during
      obtain rfl := runsOn_forwardBody object runs
      exact ⟨slot, rfl, ⟨coherent.overwrite _, owner⟩, nofun,
        fun other same => (Option.some.inj same).symm⟩
  | success =>
      obtain ⟨id, rfl, running, -, landed⟩ := during
      obtain rfl := landed _ rfl
      exact ⟨rfl, running⟩
  | failed | refused => cases smooth
  | @complete steer slot =>
      obtain ⟨rfl, coherent, owner⟩ := during
      exact ⟨coherent.complete owner, owner, by simp [World.complete], by simp [World.complete]⟩
  | streamBroken | bodyBroken => exact absurd rfl smooth
  | hungUp =>
      obtain ⟨rfl, coherent, owner⟩ := during
      exact ⟨coherent.of_views (fun _ => rfl) (fun _ => rfl) rfl rfl rfl rfl, owner⟩
  | cleanUp => exact during.coherent.abandon
  | @relabel id =>
      obtain ⟨coherent, owner, last, left⟩ := during
      have kept := owner_relabel_of_owned owner
      exact ⟨rfl, coherent.of_views kept (fun other => Registry.dirty_relabel id other _)
        rfl rfl rfl rfl, (kept id).trans owner, last, left⟩
  | remove => exact during.evict _
  | settle => exact during
  | drop => exact smooth.elim

/-- In serial smooth runs of JSON objects every forwarded turn is steered, and
it starts on the state its session's last completed turn left, if the session
still owned the slot or its blob was not evicted since. -/
theorem forwarded_resumes (objects : ∀ name, isObject (requests name).body = true)
    {config : ProxyState}
    (reached : (chat backendSig requests).machine.ReachedBy
      (fun config event => Serial config event ∧ Smooth event.2) config)
    {name : RequestId} {steer : Option SlotId} {hot : Bool}
    (forwarded : config.locals name = .forwarding steer hot none) :
    ∃ id, steer = some id ∧ ∀ turn,
      config.world.history.last (requests name).session = some turn →
      (hot = true ∨ config.world.history.lost (requests name).session = false) →
      config.world.kv id = .left turn := by
  have solo : ∃ active, (∀ other, other ≠ active → (config.locals other).resting = true) ∧
      During backendSig requests active config.world (config.locals active) := by
    refine (chat backendSig requests).solo_of_reachedBy
      (fun phase => phase.resting = true)
      (fun name phase world => During backendSig requests name world phase)
      ?_ ?_ ?_ ?_ reached
    · intro world fresh name
      refine ⟨rfl, ⟨?_, ?_, ?_, ?_⟩⟩ <;> simp [fresh.slots, fresh.last]
    · exact fun config name action permitted => permitted.1
    · rintro name next rest rest' world resting resting' during
      rw [during_of_resting resting] at during
      exact (during_of_resting resting').mpr during
    · rintro config name action phase' world' during permitted acted
      exact during.step (objects name) permitted.2 (step_of_act acted)
  obtain ⟨active, rest, during⟩ := solo
  have acting : name = active := by
    by_contra other
    simpa [forwarded, Phase.resting] using rest name other
  subst acting
  rw [forwarded] at during
  obtain ⟨id, steered, -, resumes, -⟩ := during
  exact ⟨id, steered, resumes rfl⟩

/-- Requests 0 and 2 are streaming turns of session `hdr-a`, 1 is of `hdr-b`. -/
def alternating : RequestId → Request
  | 1 => ⟨"hdr-b", streamBody⟩
  | _ => ⟨"hdr-a", streamBody⟩

/-- Session `hdr-a` loses its slot to `hdr-b` and gets it back with its blob. -/
def stealAndReturn : List (RequestId × Action) :=
  wholeTurn 0 0 ++ wholeTurn 1 0 ++
    [.enter, .miss, idle [0], .pick, .load, .restoreReply true, .mark].map (2, ·)

theorem forwarded_resumes_after_steal :
    ∃ config : ProxyState, config.locals 2 = .forwarding (some 0) false none ∧
      config.world.history.last "hdr-a" = some 0 ∧ config.world.kv 0 = .left 0 := by
  have executed : (((chat "0123456789ab" alternating).machine.run
      (fun config event => serialAmong 3 config event && decide (Smooth event.2))
      chatStart stealAndReturn).map fun config => (config.locals 2,
        config.world.history.last "hdr-a", config.world.history.lost "hdr-a")) =
      some (.forwarding (some 0) false none, some 0, false) := by
    decide
  obtain ⟨config, ran, observed⟩ := Option.map_eq_some_iff.mp executed
  obtain ⟨forwarded, last, kept⟩ : config.locals 2 = .forwarding (some 0) false none ∧
      config.world.history.last "hdr-a" = some 0 ∧
      config.world.history.lost "hdr-a" = false := by
    simpa using observed
  have reached := serialRun (fun _ event => Smooth event.2)
    (fun _ _ checked => of_decide_eq_true checked) ran
  have objects : ∀ name, isObject (alternating name).body = true := by
    intro name
    unfold alternating
    split <;> rfl
  obtain ⟨id, steered, resumes⟩ := forwarded_resumes objects reached forwarded
  obtain rfl : 0 = id := Option.some.inj steered
  exact ⟨config, forwarded, last, resumes 0 last (.inr kept)⟩

end Ollm.Proxy
