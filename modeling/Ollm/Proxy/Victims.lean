import Ollm.Library.Trace
import Ollm.Proxy.Exclusivity

/-!
# Victims

Write-on-eviction publishes a dirty slot under its owner's name, and takes a
slot without an owner as it is.  No dirty slot is without an owner: every
scope that sets one of the two fields leaves them in order.  So a slot that is
dirty when an admission settles on it is published before it is marked.  What
another admission does to the slot in between is the matter of exclusivity.
-/

namespace Ollm.Proxy

/-- Each dirty slot has an owner. -/
def DirtyOwned (g : Registry) : Prop :=
  ∀ id, g.dirty id = true → (g.owner id).isSome = true

section Registry

variable {g g' : Registry}

theorem dirtyOwned_empty : DirtyOwned ∅ := by
  intro id dirty
  cases dirty

theorem DirtyOwned.views (owned : DirtyOwned g)
    (same : ∀ id, g'.owner id = g.owner id ∧ g'.dirty id = g.dirty id) : DirtyOwned g' := by
  intro id dirty
  rw [(same id).2] at dirty
  rw [(same id).1]
  exact owned id dirty

/-- Where one entry changes, only that entry is in question. -/
theorem DirtyOwned.of_others (owned : DirtyOwned g) (id : SlotId)
    (here : g'.dirty id = true → (g'.owner id).isSome = true)
    (others : ∀ other, other ≠ id →
      g'.owner other = g.owner other ∧ g'.dirty other = g.dirty other) : DirtyOwned g' := by
  intro other dirty
  by_cases same : other = id
  · subst same
    exact here dirty
  · obtain ⟨owner, flag⟩ := others other same
    rw [flag] at dirty
    rw [owner]
    exact owned other dirty

theorem DirtyOwned.markDirty (owned : DirtyOwned g) (id : SlotId) (session : String) :
    DirtyOwned (g.markDirty id session) := by
  apply owned.of_others id (by simp)
  intro other distinct
  simp [distinct]

theorem DirtyOwned.markClean (owned : DirtyOwned g) (id : SlotId) :
    DirtyOwned (g.markClean id) := by
  apply owned.of_others id (by simp)
  intro other distinct
  simp [distinct]

/-- The owner goes only together with the dirty flag. -/
theorem DirtyOwned.abandon (owned : DirtyOwned g) (id : SlotId) : DirtyOwned (g.abandon id) := by
  apply owned.of_others id (by simp)
  intro other distinct
  simp [distinct]

theorem DirtyOwned.relabel (owned : DirtyOwned g) (id : SlotId) (session : String) :
    DirtyOwned (g.relabel id session) := by
  apply owned.of_others id
  · intro dirty
    rw [Registry.dirty_relabel] at dirty
    simp [Registry.mem_of_dirty dirty]
  · intro other distinct
    simp [distinct]

theorem DirtyOwned.registryStep {session : String} {action : Action} {phase : Phase}
    (owned : DirtyOwned g) (step : RegistryStep session action phase g g') : DirtyOwned g' := by
  cases step with
  | keep views => exact owned.views views
  | @mark id g marks => exact owned.markDirty id session
  | @clean id g clears => exact owned.markClean id
  | @abandon id g clears => exact owned.abandon id
  | @relabel id g occupies => exact owned.relabel id session

theorem DirtyOwned.entry (owned : DirtyOwned g) {id : SlotId} {info : SlotInfo}
    (found : g.lookup id = some info) (dirty : info.dirty = true) :
    ∃ session, info.session = some session := by
  have current : g.entry id = info := by simp [Registry.entry, found]
  have isOwned := owned id (by rw [Registry.dirty, current]; exact dirty)
  rw [Registry.owner, current] at isOwned
  exact Option.isSome_iff_exists.mp isOwned

theorem DirtyOwned.victim (owned : DirtyOwned g) {arr : List SlotState} {id : SlotId}
    {victim : Option String} (found : (g.findEvictable arr).1 = some (id, victim)) :
    ∃ session, victim = some session := by
  obtain ⟨dirty, rfl, -⟩ := Registry.findEvictable_some found
  exact Option.isSome_iff_exists.mp (owned id dirty)

end Registry

variable {backendSig : String} {requests : RequestId → Request}

theorem dirtyOwned_of_reachable {config : ProxyState}
    (reached : (chat backendSig requests).machine.Reachable config) :
    DirtyOwned config.world.slots := by
  refine reached.invariant (fun config => DirtyOwned config.world.slots) ?_ ?_
  · rintro config ⟨fresh, -⟩
    rw [fresh.slots]
    exact dirtyOwned_empty
  · rintro before ⟨r, action⟩ after owned - moved
    obtain ⟨acted, -⟩ := (chat backendSig requests).acts_of_machine_step moved
    exact owned.registryStep (step_of_act acted).registry

/-! ## What becomes of the slots that admissions settle on -/

/-- What a log tells of an admission: the slot it settled on with the owner and the flag of its
entry at that moment, a save that succeeded, the marking of a slot. -/
inductive Deed where
  | settled (r : RequestId) (id : SlotId) (owner : Option String) (dirty : Bool)
  | saved (r : RequestId) (id : SlotId) (session : String)
  | marked (r : RequestId) (id : SlotId)
  deriving DecidableEq

/-- The slot returned by the hot loop, by the cold loop or by `find_evictable`. -/
def settles (g : Registry) : Action → Phase → Option SlotId
  | .hot id, .matching _ => some id
  | .pick, .picking _ arr => (g.pickSlot arr).1
  | .choose, .choosing _ arr => (g.findEvictable arr).1.map (·.1)
  | _, _ => none

def deeds (r : RequestId) (action : Action) (phase : Phase) (world : World) : List Deed :=
  match action, phase with
  | .clean, .saving _ id session _ => [.saved r id session]
  | .mark, .marking id _ => [.marked r id]
  | action, phase => (settles world.slots action phase).toList.map fun id =>
      .settled r id (world.slots.owner id) (world.slots.dirty id)

/-- The request settled on the slot.  Unless the slot was clean or its own session's then, the
request has saved it under its owner's name since. -/
def Settled (requests : RequestId → Request) (r : RequestId) (id : SlotId) (log : List Deed) :
    Prop :=
  ∃ before owner dirty after, log = before ++ .settled r id owner dirty :: after ∧
    (dirty = true → owner = some (requests r).session ∨
      ∃ victim, owner = some victim ∧ .saved r id victim ∈ after)

/-- Slots are marked only by requests that settled on them. -/
def Lawful (requests : RequestId → Request) (past : List Deed) : Deed → Prop
  | .marked r id => Settled requests r id past
  | _ => True

/-- What the log tells of a request that is at the given await. -/
def Told (requests : RequestId → Request) (r : RequestId) (log : List Deed) : Phase → Prop
  | .saving (.eviction _) id victim _ =>
      ∃ before after, log = before ++ .settled r id (some victim) true :: after
  | .restoring id _ | .marking id _ => Settled requests r id log
  | _ => True

theorem Settled.mono {r : RequestId} {id : SlotId} {log : List Deed}
    (settled : Settled requests r id log) (later : List Deed) :
    Settled requests r id (log ++ later) := by
  obtain ⟨before, owner, dirty, after, rfl, published⟩ := settled
  refine ⟨before, owner, dirty, after ++ later, by simp, ?_⟩
  intro isDirty
  rcases published isDirty with own | ⟨victim, owned, saved⟩
  · exact .inl own
  · exact .inr ⟨victim, owned, List.mem_append_left _ saved⟩

theorem Told.mono {r : RequestId} {log : List Deed} {phase : Phase}
    (told : Told requests r log phase) (later : List Deed) :
    Told requests r (log ++ later) phase := by
  cases phase with
  | saving caller id victim stage =>
      cases caller with
      | eviction diskHit =>
          obtain ⟨before, after, rfl⟩ := told
          exact ⟨before, after ++ later, by simp⟩
      | postTurn => trivial
  | restoring id loaded => exact Settled.mono told later
  | marking id hot => exact Settled.mono told later
  | _ => trivial

theorem told_admission {r : RequestId} {id : SlotId} {log : List Deed}
    (settled : Settled requests r id log) (diskHit : Bool) :
    Told requests r log (admission diskHit id) := by
  cases diskHit <;> exact settled

/-- An action tells at most one thing, and tells of a marking only where it marks. -/
theorem deeds_eq (r : RequestId) (action : Action) (phase : Phase) (world : World) :
    deeds r action phase world = [] ∨
      ∃ deed, deeds r action phase world = [deed] ∧
        ∀ other id, deed = .marked other id → other = r ∧ ∃ hot, phase = .marking id hot := by
  fun_cases deeds r action phase world with
  | case1 id session =>
      right
      exact ⟨_, rfl, nofun⟩
  | case2 id hot =>
      right
      refine ⟨_, rfl, ?_⟩
      rintro other slot ⟨⟩
      exact ⟨rfl, hot, rfl⟩
  | case3 =>
      cases settles world.slots action phase with
      | none => exact .inl rfl
      | some id =>
          right
          exact ⟨_, rfl, nofun⟩

theorem Lawful.disciplined {r : RequestId} {action : Action} {phase : Phase} {world : World}
    {log : List Deed} (disciplined : Trace.Disciplined (Lawful requests) log)
    (told : Told requests r log phase) :
    Trace.Disciplined (Lawful requests) (log ++ deeds r action phase world) := by
  rcases deeds_eq r action phase world with silent | ⟨deed, told', marks⟩
  · rwa [silent, List.append_nil]
  · rw [told']
    apply disciplined.snoc
    cases deed with
    | marked other id =>
        obtain ⟨rfl, hot, rfl⟩ := marks other id rfl
        exact told
    | settled => trivial
    | saved => trivial

/-- What a request has told so far it can go on from. -/
theorem Step.told {r : RequestId} {action : Action} {phase phase' : Phase} {world world' : World}
    (step : Step backendSig requests r action phase world phase' world')
    (owned : DirtyOwned world.slots) {log : List Deed} (told : Told requests r log phase) :
    Told requests r (log ++ deeds r action phase world) phase' := by
  cases step with
  | @hot diskHit id _ own =>
      exact ⟨log, _, _, [], rfl, fun _ => .inl own⟩
  | @pick diskHit arr =>
      cases picked : (world.slots.pickSlot arr).1 with
      | none => trivial
      | some id =>
          have clean := (Registry.pickSlot_some picked).1
          apply told_admission
          refine ⟨log, world.slots.owner id, false, [], ?_, nofun⟩
          simp [deeds, settles, picked, clean]
  | @choose diskHit arr =>
      cases found : (world.slots.findEvictable arr).1 with
      | none => trivial
      | some free =>
          obtain ⟨id, victim⟩ := free
          obtain ⟨session, rfl⟩ := owned.victim found
          obtain ⟨dirty, owner, -⟩ := Registry.findEvictable_some found
          refine ⟨log, [], ?_⟩
          simp [deeds, settles, found, dirty, ← owner]
  | @clean caller id victim =>
      cases caller with
      | postTurn => trivial
      | eviction diskHit =>
          obtain ⟨before, after, rfl⟩ := told
          apply told_admission
          refine ⟨before, some victim, true, after ++ [.saved r id victim], by simp [deeds], ?_⟩
          intro _
          exact .inr ⟨victim, rfl, by simp⟩
  | @lock caller | @capture caller | @saved caller =>
      cases caller with
      | eviction diskHit => exact Told.mono told _
      | postTurn => trivial
  | @saveFailed caller | @publishFailed caller => cases caller <;> trivial
  | publishVictim => exact Told.mono told _
  | load => exact Told.mono told _
  | restored => exact Told.mono told _
  | @complete steer | @bodyBroken steer | @hungUp steer => cases steer <;> trivial
  | _ => trivial

/-- The proxy with a log of what its admissions do. -/
def loggedChat (backendSig : String) (requests : RequestId → Request) :
    Threads RequestId (List Deed × World) Phase Action :=
  (chat backendSig requests).logging deeds

abbrev LoggedState := Threads.Config RequestId (List Deed × World) Phase

def loggedStart : LoggedState :=
  ⟨([], .empty), fun _ => .waiting⟩

theorem initial_loggedStart (backendSig : String) (requests : RequestId → Request) :
    (loggedChat backendSig requests).machine.Initial loggedStart :=
  ⟨⟨rfl, World.fresh_empty⟩, rfl⟩

theorem told_of_reachable {config : LoggedState}
    (reached : (loggedChat backendSig requests).machine.Reachable config) (r : RequestId) :
    Trace.Disciplined (Lawful requests) config.world.1 ∧
      Told requests r config.world.1 (config.locals r) := by
  have known : ∀ config, (loggedChat backendSig requests).machine.Reachable config →
      DirtyOwned config.world.2.slots :=
    fun _ reached => dirtyOwned_of_reachable (Threads.reachable_of_logging reached)
  refine (loggedChat backendSig requests).assertion_of_reachedBy
    (fun r phase world => Trace.Disciplined (Lawful requests) world.1 ∧
      Told requests r world.1 phase) ?_ ?_ ?_ (reached.attach known) r
  · rintro ⟨log, world⟩ ⟨rfl, -⟩ each
    exact ⟨.nil, trivial⟩
  · intro config each action phase' world' holds ⟨_, owned⟩ acted
    obtain ⟨did, logged⟩ := Threads.acts_of_logging acted
    obtain ⟨disciplined, told⟩ := holds each
    rw [logged]
    exact ⟨Lawful.disciplined disciplined told, (step_of_act did).told owned told⟩
  · intro config actor action phase' world' holds _ acted other _
    obtain ⟨disciplined, told⟩ := holds actor
    rw [(Threads.acts_of_logging acted).2]
    exact ⟨Lawful.disciplined disciplined told, Told.mono (holds other).2 _⟩

/-! ## Nothing is stolen unpublished -/

/-- What holds of the registry, of the next eviction and of all that was logged. -/
structure VictimsPublished (backendSig : String) (requests : RequestId → Request)
    (config : LoggedState) : Prop where
  owned : ∀ id info, config.world.2.slots.lookup id = some info → info.dirty = true →
    ∃ session, info.session = some session
  found : ∀ arr id victim, (config.world.2.slots.findEvictable arr).1 = some (id, victim) →
    ∃ session, victim = some session
  /-- Going on from `find_evictable` is saving the victim or being forwarded unsteered. -/
  evicts : ∀ r phase' world',
    act backendSig requests r .choose (config.locals r) config.world.2 = some (phase', world') →
    phase' = .forwarding none false none ∨
      ∃ diskHit id victim, phase' = .saving (.eviction diskHit) id victim .locking ∧
        config.world.2.slots.dirty id = true ∧ config.world.2.slots.owner id = some victim
  taken : ∀ past r id later, config.world.1 = past ++ .marked r id :: later →
    Settled requests r id past

/-- In every run all dirty slots have an owner, and none is taken from him unpublished. -/
theorem victims_published {config : LoggedState}
    (reached : (loggedChat backendSig requests).machine.Reachable config) :
    VictimsPublished backendSig requests config := by
  have owned : DirtyOwned config.world.2.slots :=
    dirtyOwned_of_reachable (Threads.reachable_of_logging reached)
  refine ⟨?_, ?_, ?_, ?_⟩
  · intro id info found dirty
    exact owned.entry found dirty
  · intro arr id victim found
    exact owned.victim found
  · intro r phase' world' acted
    have step := step_of_act acted
    generalize config.locals r = phase at step
    cases step with
    | @choose diskHit arr =>
        cases found : (config.world.2.slots.findEvictable arr).1 with
        | none => exact .inl rfl
        | some free =>
            obtain ⟨id, victim⟩ := free
            obtain ⟨session, rfl⟩ := owned.victim found
            obtain ⟨dirty, owner, -⟩ := Registry.findEvictable_some found
            exact .inr ⟨diskHit, id, session, rfl, dirty, owner.symm⟩
  · intro past r id later split
    exact (told_of_reachable reached r).1.lawful split

/-- The slot of a turn of `hdr-a` is taken for `hdr-b`. -/
def takeover : List (RequestId × Action) :=
  [(0, .enter), (0, .miss), (0, idle [0]), (0, .pick), (0, .mark),
    (1, .enter), (1, .miss), (1, idle [0]), (1, .pick), (1, idle [0]), (1, .choose), (1, .lock),
    (1, .capture), (1, .saveReply true), (1, .publish true), (1, .clean), (1, .mark)]

theorem victims_published_takeover :
    ∃ config : LoggedState,
      config.world.1 = [.settled 0 0 none false, .marked 0 0, .settled 1 0 (some "hdr-a") true,
        .saved 1 0 "hdr-a", .marked 1 0] ∧
      VictimsPublished "0123456789ab" twoSessions config := by
  have executed : ((loggedChat "0123456789ab" twoSessions).machine.run (fun _ _ => true)
      loggedStart takeover).map (fun config => config.world.1) =
      some [.settled 0 0 none false, .marked 0 0, .settled 1 0 (some "hdr-a") true,
        .saved 1 0 "hdr-a", .marked 1 0] := by
    decide
  obtain ⟨config, reached, log⟩ := Machine.reachedBy_of_observed (fun _ _ _ => trivial)
    (initial_loggedStart "0123456789ab" twoSessions) executed
  exact ⟨config, log, victims_published reached⟩

end Ollm.Proxy
