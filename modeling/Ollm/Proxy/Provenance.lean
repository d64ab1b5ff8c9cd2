import Ollm.Proxy.Serial

/-!
# Where published states come from

Ownership and the dirty flag are set before a turn runs and stay when it
fails, so they do not say that the slot holds a state of its owner.  They do as
long as the last turn steered to the slot completed there; runs in which only
such states are saved publish under each session's name what a completed turn
of that session left.
-/

namespace Ollm.Proxy

variable {backendSig : String} {requests : RequestId → Request} {r : RequestId}

def StateOf (requests : RequestId → Request) (session : String) (content : Content) : Prop :=
  ∃ turn, content = .left turn ∧ (requests turn).session = session

/-- Publications are states of the session they are named for, and so is what a
dirty slot holds for its owner after its last steered turn completed. -/
structure Provenance (requests : RequestId → Request) (world : World) : Prop where
  published : ∀ p ∈ world.history.published, StateOf requests p.session p.content
  finished : ∀ id, world.slots.dirty id = true → world.history.finished id = true →
    ∃ session, world.slots.owner id = some session ∧
      StateOf requests session (world.kv id)

def RunsAside (g : Registry) (steer : Option SlotId) (slot : SlotId) : Prop :=
  match steer with
  | some id => slot = id
  | none => g.dirty slot = false

instance (g : Registry) (steer : Option SlotId) (slot : SlotId) :
    Decidable (RunsAside g steer slot) := by
  unfold RunsAside
  split <;> infer_instance

/-- What the active request relies on besides, at each await. -/
def Relies (requests : RequestId → Request) (r : RequestId) (world : World) : Phase → Prop
  | .restoring id _ => world.slots.dirty id = false
  | .forwarding steer _ ranOn =>
      (∀ id, steer = some id → world.slots.owner id = some (requests r).session ∧
        world.history.finished id = false) ∧
      ∀ slot, ranOn = some slot → RunsAside world.slots steer slot
  | .receiving steer slot =>
      (∀ id, steer = some id → world.slots.owner id = some (requests r).session) ∧
      RunsAside world.slots steer slot
  | .relabelling id =>
      world.slots.owner id = some (requests r).session ∧
        StateOf requests (requests r).session (world.kv id)
  | .saving _ id session stage =>
      StateOf requests session (world.kv id) ∧
        match stage with
        | .asking (some content) => StateOf requests session content
        | .publishing content => StateOf requests session content
        | _ => True
  | _ => True

/-- What an action has to respect: an evicted slot's last steered turn
completed, a turn runs on its slot or on none with unpublished state, and a
steered plain request's body does not break off. -/
def Careful (requests : RequestId → Request) (r : RequestId) (world : World) :
    Action → Phase → Prop
  | .choose, .choosing _ arr =>
      ∀ free ∈ (world.slots.findEvictable arr).1, world.history.finished free.1 = true
  | .land slot, .forwarding steer _ _ => RunsAside world.slots steer slot
  | .finish .broken, .receiving (some _) _ => isStream (requests r).body = true
  | _, _ => True

instance (requests : RequestId → Request) (r : RequestId) (world : World) (action : Action)
    (phase : Phase) : Decidable (Careful requests r world action phase) := by
  unfold Careful
  split <;> infer_instance

variable {world world' : World}

theorem Provenance.of_views (provenance : Provenance requests world)
    (owner : ∀ id, world'.slots.owner id = world.slots.owner id)
    (dirty : ∀ id, world'.slots.dirty id = world.slots.dirty id)
    (kv : world'.kv = world.kv) (finished : world'.history.finished = world.history.finished)
    (published : world'.history.published = world.history.published) :
    Provenance requests world' where
  published := published ▸ provenance.published
  finished id dirtyId finishedId := by
    rw [dirty] at dirtyId
    rw [finished] at finishedId
    rw [owner, kv]
    exact provenance.finished id dirtyId finishedId

/-- Overwriting a slot that is not dirty, or whose last steered turn has not
completed, leaves nothing to prove about it. -/
theorem Provenance.overwrite (provenance : Provenance requests world) {slot : SlotId}
    (unused : world.slots.dirty slot = true → world.history.finished slot = false)
    (content : Content) :
    Provenance requests { world with kv := Function.update world.kv slot content } where
  published := provenance.published
  finished id dirty finished := by
    have distinct : id ≠ slot := by
      rintro rfl
      exact absurd (finished.symm.trans (unused dirty)) (by decide)
    simpa [distinct] using provenance.finished id dirty finished

theorem Provenance.mark (provenance : Provenance requests world) (id : SlotId)
    (session : String) : Provenance requests (world.mark r id session) where
  published := provenance.published
  finished slot dirty finished := by
    by_cases same : slot = id
    · subst same
      simp [World.mark] at finished
    · simp only [World.mark, Registry.dirty_markDirty, Registry.owner_markDirty, same, if_false,
        Function.update_of_ne same] at dirty finished ⊢
      exact provenance.finished slot dirty finished

theorem Provenance.clean (provenance : Provenance requests world) (id : SlotId) :
    Provenance requests { world with slots := world.slots.markClean id } where
  published := provenance.published
  finished slot dirty finished := by
    by_cases same : slot = id
    · simp [same] at dirty
    · simp only [Registry.dirty_markClean, same, if_false] at dirty
      simpa using provenance.finished slot dirty finished

theorem Provenance.abandon (provenance : Provenance requests world) (id : SlotId) :
    Provenance requests { world with slots := world.slots.abandon id } where
  published := provenance.published
  finished slot dirty finished := by
    by_cases same : slot = id
    · simp [same] at dirty
    · simp only [Registry.dirty_abandon, same, if_false] at dirty
      simpa [same] using provenance.finished slot dirty finished

theorem Provenance.relabel (provenance : Provenance requests world) {id : SlotId}
    {session : String} (owned : world.slots.owner id = some session) :
    Provenance requests { world with slots := world.slots.relabel id session } where
  published := provenance.published
  finished slot dirty finished := by
    have kept : (world.slots.relabel id session).owner slot = world.slots.owner slot := by
      rw [Registry.owner_relabel]
      split_ifs with here
      · rw [here.1, owned]
      · rfl
    simp only [Registry.dirty_relabel] at dirty
    simpa [kept] using provenance.finished slot dirty finished

theorem Provenance.publish (provenance : Provenance requests world) {session : String}
    {content : Content} (captured : StateOf requests session content) (name : String) :
    Provenance requests (world.publish name session content) where
  published p member := by
    rcases List.mem_cons.mp member with rfl | earlier
    · exact captured
    · exact provenance.published p earlier
  finished := provenance.finished

theorem Provenance.complete (provenance : Provenance requests world)
    {steer : Option SlotId} {slot : SlotId} (aside : RunsAside world.slots steer slot)
    (owned : ∀ id, steer = some id → world.slots.owner id = some (requests r).session) :
    Provenance requests (world.complete r (requests r).session steer slot) where
  published := provenance.published
  finished id dirty finished := by
    by_cases same : id = slot
    · subst same
      cases steer with
      | none => exact absurd (aside.symm.trans dirty) (by decide)
      | some steered =>
          obtain rfl : id = steered := aside
          exact ⟨_, owned id rfl, r, by simp [World.complete], rfl⟩
    · have kept : (world.complete r (requests r).session steer slot).kv id = world.kv id :=
        Function.update_of_ne same _ _
      rw [kept]
      apply provenance.finished id dirty
      cases steer with
      | none => exact finished
      | some steered =>
          obtain rfl : slot = steered := aside
          simpa [World.complete, same] using finished

theorem relies_admission (diskHit : Bool) {id : SlotId} (clean : world.slots.dirty id = false) :
    Relies requests r world (admission diskHit id) := by
  cases diskHit
  · trivial
  · exact clean

theorem relies_unsteered : Relies requests r world (.forwarding none false none) := by
  constructor
  · intro id steered
    cases steered
  · intro slot ran
    cases ran

theorem relies_afterSave_false (caller : Caller) (id : SlotId) :
    Relies requests r world (afterSave caller id false) := by
  cases caller
  · exact relies_unsteered
  · trivial

theorem Provenance.step {action : Action} {phase phase' : Phase}
    (provenance : Provenance requests world) (relies : Relies requests r world phase)
    (careful : Careful requests r world action phase)
    (step : Step backendSig requests r action phase world phase' world') :
    Provenance requests world' ∧ Relies requests r world' phase' := by
  cases step with
  | @pick diskHit arr =>
      have views := Registry.views_pickSlot (g := world.slots) arr
      refine ⟨provenance.of_views (fun id => (views id).1) (fun id => (views id).2) rfl rfl rfl,
        ?_⟩
      cases picked : (world.slots.pickSlot arr).1 with
      | none => trivial
      | some id =>
          exact relies_admission diskHit ((views id).2.trans (Registry.pickSlot_some picked).1)
  | @choose diskHit arr =>
      have views := Registry.views_findEvictable (g := world.slots) arr
      refine ⟨provenance.of_views (fun id => (views id).1) (fun id => (views id).2) rfl rfl rfl,
        ?_⟩
      rcases chosen : (world.slots.findEvictable arr).1 with _ | ⟨id, victim⟩
      · exact relies_unsteered
      · -- the victim owns the slot, and its last turn completed there
        obtain ⟨dirty, named, -⟩ := Registry.findEvictable_some chosen
        obtain ⟨session, owned, state⟩ :=
          provenance.finished id dirty (careful (id, victim) chosen)
        rw [named, owned]
        exact ⟨state, trivial⟩
  | capture => exact ⟨provenance, relies.1, relies.1⟩
  | saved => exact ⟨provenance, relies⟩
  | saveFailed | publishFailed =>
      exact ⟨⟨provenance.published, provenance.finished⟩, relies_afterSave_false _ _⟩
  | publishVictim => exact ⟨provenance.publish relies.2 _, relies.1, trivial⟩
  | @publishTurn id session =>
      have published := provenance.publish relies.2 (Keying.blobName backendSig session)
      exact ⟨⟨published.published, published.finished⟩, relies.1, trivial⟩
  | @clean caller id =>
      have cleaned := provenance.clean id
      refine ⟨⟨cleaned.published, cleaned.finished⟩, ?_⟩
      cases caller with
      | postTurn => trivial
      | eviction diskHit => exact relies_admission diskHit (by simp [World.release])
  | load =>
      exact ⟨provenance.overwrite (fun dirty => absurd (relies.symm.trans dirty) (by decide)) _,
        relies⟩
  | @mark id =>
      refine ⟨provenance.mark id _, fun steered same => ?_, fun _ ran => (nomatch ran)⟩
      obtain rfl := Option.some.inj same
      simp [World.mark]
  | @land slot steer =>
      refine ⟨provenance.overwrite (fun dirty => ?_) _, relies.1, ?_⟩
      · cases steer with
        | none => exact absurd (careful.symm.trans dirty) (by decide)
        | some id =>
            obtain rfl : slot = id := careful
            exact (relies.1 slot rfl).2
      · rintro _ ⟨⟩
        exact careful
  | success => exact ⟨provenance, fun id steered => (relies.1 id steered).1, relies.2 _ rfl⟩
  | @complete steer =>
      refine ⟨provenance.complete relies.2 relies.1, ?_⟩
      cases steer with
      | none => trivial
      | some id =>
          obtain rfl : _ = id := relies.2
          exact ⟨relies.1 _ rfl, r, by simp [World.complete], rfl⟩
  | @bodyBroken steer _ _ plain =>
      refine ⟨⟨provenance.published, provenance.finished⟩, ?_⟩
      cases steer with
      | none => trivial
      | some id => exact absurd (plain.symm.trans careful) (by decide)
  | @hungUp steer =>
      refine ⟨⟨provenance.published, provenance.finished⟩, ?_⟩
      cases steer <;> trivial
  | @cleanUp id => exact ⟨provenance.abandon id, trivial⟩
  | @relabel id => exact ⟨provenance.relabel relies.1, relies.2, trivial⟩
  | lock => exact ⟨⟨provenance.published, provenance.finished⟩, relies.1, trivial⟩
  | seekFailed => exact ⟨provenance, relies_unsteered⟩
  | _ => exact ⟨⟨provenance.published, provenance.finished⟩, trivial⟩

/-- In serial careful runs every publication is the state a completed turn of
its session left. -/
theorem published_stateOf {config : ProxyState}
    (reached : (chat backendSig requests).machine.ReachedBy
      (fun config event => Serial config event ∧
        Careful requests event.1 config.world event.2 (config.locals event.1)) config) :
    ∀ p ∈ config.world.history.published, StateOf requests p.session p.content := by
  suffices solo : ∃ name, (∀ other, other ≠ name → (config.locals other).resting = true) ∧
      Provenance requests config.world ∧
      Relies requests name config.world (config.locals name) by
    obtain ⟨name, -, provenance, -⟩ := solo
    exact provenance.published
  refine (chat backendSig requests).solo_of_reachedBy
    (fun phase => phase.resting = true)
    (fun name phase world => Provenance requests world ∧
      Relies requests name world phase) ?_ ?_ ?_ ?_ reached
  · intro world fresh name
    refine ⟨rfl, ⟨?_, ?_⟩, trivial⟩
    · simp [fresh.published]
    · simp [fresh.slots]
  · exact fun config name action permitted => permitted.1
  · rintro name next rest rest' world resting resting' ⟨provenance, -⟩
    refine ⟨provenance, ?_⟩
    cases rest' <;> trivial
  · rintro config name action phase' world' ⟨provenance, relies⟩ permitted acted
    exact provenance.step relies permitted.2 (step_of_act acted)

/-! ## Runs -/

def threeSessions : RequestId → Request
  | 0 => ⟨"hdr-a", streamBody⟩
  | 1 => ⟨"hdr-b", streamBody⟩
  | _ => ⟨"hdr-c", streamBody⟩

def evictingAdmission (name : RequestId) (slot : SlotId) : List (RequestId × Action) :=
  [.enter, .miss, idle [slot], .pick, idle [slot], .choose, .lock, .capture, .saveReply true,
    .publish true].map (name, ·)

/-- Session `hdr-a` completes a turn; `hdr-b` takes the slot over, but its chat
call fails; the next admission publishes the slot under the name of `hdr-b`. -/
def failedTakeover : List (RequestId × Action) :=
  wholeTurn 0 0 ++ [.enter, .miss, idle [0], .pick, .mark, .answer .failed].map (1, ·) ++
    evictingAdmission 2 0

theorem failedTakeover_misattributes :
    ¬ ∀ (backendSig : String) (requests : RequestId → Request) (config : ProxyState),
      (chat backendSig requests).machine.ReachedBy Serial config →
      ∀ p ∈ config.world.history.published, StateOf requests p.session p.content := by
  intro sound
  have executed : (((chat "0123456789ab" threeSessions).machine.run
      (fun config event => serialAmong 3 config event && true) chatStart failedTakeover).map
        fun config => config.world.history.published) =
      some [⟨"hdr-b", .left 0⟩, ⟨"hdr-a", .left 0⟩] := by
    decide
  obtain ⟨config, ran, published⟩ := Option.map_eq_some_iff.mp executed
  have reached := (serialRun (fun _ _ => True) (fun _ _ _ => trivial) ran).mono
    fun _ _ permitted => permitted.1
  obtain ⟨turn, left, own⟩ := sound _ _ config reached ⟨"hdr-b", .left 0⟩
    (by simp [published])
  obtain rfl := Content.left.inj left
  exact absurd own (by decide)

/-- The save of a completed turn fails; the next admission publishes the state
the turn left under the name of its session. -/
theorem published_stateOf_late_save :
    ∃ config : ProxyState, config.world.history.published = [⟨"hdr-a", .left 0⟩] ∧
      ∀ p ∈ config.world.history.published, StateOf threeSessions p.session p.content := by
  have executed : (((chat "0123456789ab" threeSessions).machine.run
      (fun config event => serialAmong 2 config event &&
        decide (Careful threeSessions event.1 config.world event.2 (config.locals event.1)))
      chatStart
      ([.enter, .miss, idle [0], .pick, .mark, .land 0, .answer .success, .finish .complete,
        .relabel, .lock, .saveReply false, .settle].map (0, ·) ++ evictingAdmission 1 0)).map
        fun config => config.world.history.published) = some [⟨"hdr-a", .left 0⟩] := by
    decide
  obtain ⟨config, ran, published⟩ := Option.map_eq_some_iff.mp executed
  have reached := serialRun _ (fun _ _ checked => of_decide_eq_true checked) ran
  exact ⟨config, published, published_stateOf reached⟩

end Ollm.Proxy
