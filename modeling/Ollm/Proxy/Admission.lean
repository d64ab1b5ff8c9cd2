import Ollm.Proxy.Steps

/-!
# Admission

What one admission that runs alone issues, and what it makes of the registry.
It takes a slot of another session only if the backend reported the slot idle,
and publishes what is unpublished there before it restores anything into it.
-/

namespace Ollm.Proxy

open Keying

/-- A request to the backend or the disk, with its answer. -/
inductive Issued where
  | slots (reply : Option (List SlotState))
  | save (id : SlotId) (session : String) (published : Bool)
  | restore (id : SlotId) (session : String) (ok : Bool)
  deriving DecidableEq

namespace Issued

def isSave : Issued → Bool
  | .save _ _ _ => true
  | _ => false

def isRestore : Issued → Bool
  | .restore _ _ _ => true
  | _ => false

end Issued

/-- The request that an action answers; an admission waits for each answer. -/
def answers (session : String) : Action → Phase → List Issued
  | .report reply, _ => [.slots reply]
  | .saveReply false, .saving _ id victim _ => [.save id victim false]
  | .publish false, .saving _ id victim _ => [.save id victim false]
  | .clean, .saving _ id victim _ => [.save id victim true]
  | .restoreReply ok, .restoring id _ => [.restore id session ok]
  | _, _ => []

/-- The two registries show the same owner and dirty flag of each of the slots. -/
def SameViews (among : SlotId → Prop) (g g' : Registry) : Prop :=
  ∀ id, among id → g'.owner id = g.owner id ∧ g'.dirty id = g.dirty id

/-- The report lists the slot as not processing. -/
def ListedIdle (arr : List SlotState) (id : SlotId) : Prop :=
  ∃ s ∈ arr, s.id = id ∧ s.isProcessing = false

/-- Phases that no admission gets to before it has forwarded its turn. -/
def Phase.isBeyond : Phase → Bool
  | .forwarding _ _ (some _) | .receiving _ _ | .abandoning _ | .relabelling _ => true
  | .saving .postTurn _ _ _ | .enforcing | .done => true
  | _ => false

section Admitting

variable (backendSig session : String) (hit : Bool) (g : Registry)

/-- How a slot that is not hot was obtained, and what was issued for it. -/
inductive Secured (id : SlotId) : List Issued → Prop where
  | picked {arr} (foreign : g.owner id ≠ some session) (clean : g.dirty id = false)
      (idle : ListedIdle arr id) : Secured id [.slots (some arr)]
  | evicted {reply arr victim} (other : victim ≠ session) (owned : g.owner id = some victim)
      (dirty : g.dirty id = true) (idle : ListedIdle arr id) :
      Secured id [.slots reply, .slots (some arr), .save id victim true]

/-- What was issued for a slot before it is marked. -/
inductive Admitted (id : SlotId) : Bool → List Issued → Prop where
  | hot (owned : g.owner id = some session) : Admitted id true []
  | cold {log} (secured : Secured session g id log) (missing : hit = false) :
      Admitted id false log
  | restored {log ok} (secured : Secured session g id log) (present : hit = true) :
      Admitted id false (log ++ [.restore id session ok])

/-- No slot is owned by the session. -/
def Unowned : Prop :=
  ∀ id, g.owner id ≠ some session

/-- How far an admission alone has come from the given registry. -/
inductive Admitting : Phase → World → List Issued → Prop where
  | waiting {world} (slots : world.slots = g)
      (blob : (world.blobs (blobName backendSig session)).isSome = hit) :
      Admitting .waiting world []
  | matching {world} (views : SameViews (fun _ => True) g world.slots) :
      Admitting (.matching hit) world []
  | snapshot {world} (views : SameViews (fun _ => True) g world.slots)
      (unowned : Unowned session g) : Admitting (.snapshot hit) world []
  | picking {arr world} (views : SameViews (fun _ => True) g world.slots)
      (unowned : Unowned session g) : Admitting (.picking hit arr) world [.slots (some arr)]
  | seeking {reply world} (views : SameViews (fun _ => True) g world.slots)
      (unowned : Unowned session g) : Admitting (.seeking hit) world [.slots reply]
  | choosing {reply arr world} (views : SameViews (fun _ => True) g world.slots)
      (unowned : Unowned session g) :
      Admitting (.choosing hit arr) world [.slots reply, .slots (some arr)]
  | saving {reply arr id victim stage world} (views : SameViews (fun _ => True) g world.slots)
      (other : victim ≠ session) (owned : g.owner id = some victim) (dirty : g.dirty id = true)
      (idle : ListedIdle arr id) :
      Admitting (.saving (.eviction hit) id victim stage) world
        [.slots reply, .slots (some arr)]
  | restoring {id loaded world log} (views : SameViews (· ≠ id) g world.slots)
      (secured : Secured session g id log) (present : hit = true) :
      Admitting (.restoring id loaded) world log
  | marking {id hot world log} (views : SameViews (· ≠ id) g world.slots)
      (admitted : Admitted session hit g id hot log) : Admitting (.marking id hot) world log
  | steered {id hot world log} (views : SameViews (· ≠ id) g world.slots)
      (owned : world.slots.owner id = some session) (dirty : world.slots.dirty id = true)
      (admitted : Admitted session hit g id hot log) :
      Admitting (.forwarding (some id) hot none) world log
  | unsteered {world log} (views : SameViews (fun _ => True) g world.slots)
      (spared : ∀ entry ∈ log, entry.isRestore = false) :
      Admitting (.forwarding none false none) world log

end Admitting

section Steps

variable {backendSig session : String} {hit : Bool} {g : Registry}

theorem SameViews.refl (among : SlotId → Prop) (g : Registry) : SameViews among g g :=
  fun _ _ => ⟨rfl, rfl⟩

theorem SameViews.trans {among : SlotId → Prop} {g g' g'' : Registry}
    (first : SameViews among g g') (second : SameViews among g' g'') : SameViews among g g'' := by
  intro id member
  obtain ⟨owner, dirty⟩ := first id member
  obtain ⟨owner', dirty'⟩ := second id member
  exact ⟨owner'.trans owner, dirty'.trans dirty⟩

theorem SameViews.mono {among narrower : SlotId → Prop} {g g' : Registry}
    (same : SameViews among g g') (included : ∀ id, narrower id → among id) :
    SameViews narrower g g' :=
  fun id member => same id (included id member)

theorem sameViews_pickSlot (among : SlotId → Prop) (arr : List SlotState) (g : Registry) :
    SameViews among g (g.pickSlot arr).2 :=
  fun id _ => Registry.views_pickSlot arr id

theorem sameViews_findEvictable (among : SlotId → Prop) (arr : List SlotState) (g : Registry) :
    SameViews among g (g.findEvictable arr).2 :=
  fun id _ => Registry.views_findEvictable arr id

/-- The slot is secured: it is restored or marked next. -/
theorem Secured.admitting {id : SlotId} {world : World} {log : List Issued}
    (secured : Secured session g id log) (views : SameViews (· ≠ id) g world.slots) :
    Admitting backendSig session hit g (admission hit id) world log := by
  cases hit with
  | true => exact .restoring views secured rfl
  | false => exact .marking views (.cold secured rfl)

/-- What a reported pick leads to. -/
theorem admitting_afterPick {arr : List SlotState} {world world' : World}
    (slots : world'.slots = (world.slots.pickSlot arr).2)
    (views : SameViews (fun _ => True) g world.slots) (unowned : Unowned session g) :
    Admitting backendSig session hit g (afterPick hit (world.slots.pickSlot arr).1) world'
      [.slots (some arr)] := by
  have same := views.trans (sameViews_pickSlot _ arr world.slots)
  rw [← slots] at same
  cases picked : (world.slots.pickSlot arr).1 with
  | none => exact .seeking same unowned
  | some id =>
      obtain ⟨clean, idle⟩ := Registry.pickSlot_some picked
      rw [(views id trivial).2] at clean
      apply Secured.admitting (.picked (unowned id) clean idle)
      exact same.mono fun _ _ => trivial

/-- What a choice of a victim leads to, if every dirty slot has an owner. -/
theorem admitting_afterChoice {reply : Option (List SlotState)} {arr : List SlotState}
    {world : World} (dirtyOwned : ∀ id, g.dirty id = true → (g.owner id).isSome = true)
    (views : SameViews (fun _ => True) g world.slots) (unowned : Unowned session g) :
    Admitting backendSig session hit g (afterChoice hit (world.slots.findEvictable arr).1)
      { world with slots := (world.slots.findEvictable arr).2 }
      [.slots reply, .slots (some arr)] := by
  have same := views.trans (sameViews_findEvictable _ arr world.slots)
  cases found : (world.slots.findEvictable arr).1 with
  | none => exact .unsteered same (by simp [Issued.isRestore])
  | some choice =>
      obtain ⟨id, victim⟩ := choice
      obtain ⟨dirty, owned, idle⟩ := Registry.findEvictable_some found
      rw [(views id trivial).1] at owned
      rw [(views id trivial).2] at dirty
      obtain ⟨owner, held⟩ := Option.isSome_iff_exists.mp (dirtyOwned id dirty)
      obtain rfl : victim = some owner := owned.trans held
      have other : owner ≠ session := by
        intro own
        exact unowned id (own ▸ held)
      exact .saving same other held dirty idle

variable {requests : RequestId → Request} {r : RequestId}

theorem Step.beyond {action : Action} {phase phase' : Phase} {world world' : World}
    (step : Step backendSig requests r action phase world phase' world')
    (beyond : phase.isBeyond = true) : phase'.isBeyond = true := by
  cases step with
  | @lock caller | @capture caller | @saved caller | @saveFailed caller | @publishFailed caller
  | @clean caller =>
      cases caller with
      | eviction => cases beyond
      | postTurn => rfl
  | @complete steer | @bodyBroken steer | @hungUp steer => cases steer <;> rfl
  | land | success | failed | refused | publishTurn | streamBroken | cleanUp | relabel | remove
  | settle | drop => rfl
  | _ => cases beyond

theorem Step.admitting {action : Action} {phase phase' : Phase} {world world' : World}
    {log : List Issued} (dirtyOwned : ∀ id, g.dirty id = true → (g.owner id).isSome = true)
    (step : Step backendSig requests r action phase world phase' world')
    (goesOn : phase'.isBeyond = false)
    (admitting : Admitting backendSig (requests r).session hit g phase world log) :
    Admitting backendSig (requests r).session hit g phase' world'
      (log ++ answers (requests r).session action phase) := by
  cases step with
  | enter =>
      cases admitting with
      | waiting slots blob =>
          subst slots blob
          exact .matching (.refl _ _)
  | hot owned =>
      cases admitting with
      | matching views =>
          rw [(views _ trivial).1] at owned
          exact .marking (views.mono fun _ _ => trivial) (.hot owned)
  | miss unowned =>
      cases admitting with
      | matching views =>
          refine .snapshot views ?_
          intro id
          rw [← (views id trivial).1]
          exact unowned id
  | snapshot =>
      cases admitting with
      | snapshot views unowned => exact .picking views unowned
  | snapshotFailed =>
      cases admitting with
      | snapshot views unowned => exact .seeking views unowned
  | pick =>
      cases admitting with
      | picking views unowned => exact admitting_afterPick rfl views unowned
  | seek =>
      cases admitting with
      | seeking views unowned => exact .choosing views unowned
  | seekFailed =>
      cases admitting with
      | seeking views unowned => exact .unsteered views (by simp [Issued.isRestore, answers])
  | choose =>
      cases admitting with
      | choosing views unowned => exact admitting_afterChoice dirtyOwned views unowned
  | lock =>
      cases admitting with
      | saving views other owned dirty idle => exact .saving views other owned dirty idle
  | capture =>
      cases admitting with
      | saving views other owned dirty idle => exact .saving views other owned dirty idle
  | saved =>
      cases admitting with
      | saving views other owned dirty idle => exact .saving views other owned dirty idle
  | saveFailed =>
      cases admitting with
      | saving views => exact .unsteered views (by simp [Issued.isRestore, answers])
  | publishVictim =>
      cases admitting with
      | saving views other owned dirty idle => exact .saving views other owned dirty idle
  | publishTurn => cases goesOn
  | publishFailed =>
      cases admitting with
      | saving views => exact .unsteered views (by simp [Issued.isRestore, answers])
  | clean =>
      cases admitting with
      | saving views other owned dirty idle =>
          apply Secured.admitting (.evicted other owned dirty idle)
          intro slot distinct
          simpa [World.release, distinct] using views slot trivial
  | load =>
      cases admitting with
      | restoring views secured present =>
          rw [show answers _ _ _ = [] from rfl, List.append_nil]
          exact .restoring views secured present
  | restored =>
      cases admitting with
      | restoring views secured present => exact .marking views (.restored secured present)
  | mark =>
      cases admitting with
      | marking views admitted =>
          rw [show answers _ _ _ = [] from rfl, List.append_nil]
          refine .steered ?_ (by simp [World.mark]) (by simp [World.mark]) admitted
          intro slot distinct
          simpa [World.mark, distinct] using views slot distinct
  | @complete steer | @bodyBroken steer | @hungUp steer => cases steer <;> cases goesOn
  | _ => cases goesOn

/-- What an admission that runs alone has come to. -/
theorem admitting_of_ran {start last : World} {phase : Phase} {log : List Issued}
    (dirtyOwned : ∀ id, start.slots.dirty id = true → (start.slots.owner id).isSome = true)
    (ran : (chat backendSig requests).OwnRun r (answers (requests r).session) (.waiting, start)
      log (phase, last))
    (goesOn : phase.isBeyond = false) :
    Admitting backendSig (requests r).session
      (start.blobs (blobName backendSig (requests r).session)).isSome start.slots phase last
      log := by
  refine ran.invariant (fun log state => state.1.isBeyond = false →
    Admitting backendSig (requests r).session
      (start.blobs (blobName backendSig (requests r).session)).isSome start.slots state.1 state.2
      log) ?_ ?_ goesOn
  · intro _
    exact .waiting rfl rfl
  · intro past before action after admitting acted goesOn
    have step := step_of_act acted
    have earlier : before.1.isBeyond = false := by
      cases beyond : before.1.isBeyond with
      | false => rfl
      | true => exact (step.beyond beyond).symm.trans goesOn
    exact step.admitting dirtyOwned goesOn (admitting earlier)

end Steps

/-! ## Save before steal -/

section Ways

variable (session : String) (hit : Bool) (g g' : Registry) (id : SlotId) (log : List Issued)

/-- The slot was the session's own. -/
def TookOwn : Prop :=
  g.owner id = some session ∧ ∀ entry ∈ log, entry.isSave = false ∧ entry.isRestore = false

/-- The slot had nothing unpublished, and the backend reported it idle. -/
def TookClean : Prop :=
  g.owner id ≠ some session ∧ g.dirty id = false ∧
    (∃ arr rest, log = .slots (some arr) :: rest ∧ ListedIdle arr id) ∧
    ∀ entry ∈ log, entry.isSave = false

/-- The slot was another session's and unpublished.  The backend reported it idle, and it was
published under that session's name before anything else was done to it. -/
def TookDirty : Prop :=
  ∃ victim, victim ≠ session ∧ g.owner id = some victim ∧ g.dirty id = true ∧
    ∃ reply arr rest, log = .slots reply :: .slots (some arr) :: .save id victim true :: rest ∧
      ListedIdle arr id

def ExactlyOne (p q r : Prop) : Prop :=
  (p ∧ ¬ q ∧ ¬ r) ∨ (¬ p ∧ q ∧ ¬ r) ∨ (¬ p ∧ ¬ q ∧ r)

/-- The admission of a session takes the slot. -/
structure Took : Prop where
  way : ExactlyOne (TookOwn session g id log) (TookClean session g id log)
    (TookDirty session g id log)
  restores : (∃ entry ∈ log, entry.isRestore = true) ↔
    hit = true ∧ g.owner id ≠ some session
  marked : g'.owner id = some session ∧ g'.dirty id = true
  others : SameViews (· ≠ id) g g'

end Ways

section Took

variable {session : String} {hit : Bool} {g g' : Registry} {id : SlotId} {log : List Issued}

theorem Secured.foreign (secured : Secured session g id log) : g.owner id ≠ some session := by
  cases secured with
  | picked foreign => exact foreign
  | evicted other owned =>
      rw [owned]
      exact fun same => other (Option.some.inj same)

theorem Secured.restores (secured : Secured session g id log) :
    ∀ entry ∈ log, entry.isRestore = false := by
  cases secured <;> simp [Issued.isRestore]

/-- The way a slot was secured is the way it was taken, whatever is restored into it. -/
theorem Secured.way (secured : Secured session g id log) {rest : List Issued}
    (saveless : ∀ entry ∈ rest, entry.isSave = false) :
    ExactlyOne (TookOwn session g id (log ++ rest)) (TookClean session g id (log ++ rest))
      (TookDirty session g id (log ++ rest)) := by
  have notOwn : ¬ TookOwn session g id (log ++ rest) := by
    intro own
    exact secured.foreign own.1
  cases secured with
  | @picked arr foreign clean idle =>
      right
      left
      refine ⟨notOwn, ⟨foreign, clean, ⟨arr, rest, rfl, idle⟩, ?_⟩, ?_⟩
      · simpa [Issued.isSave] using saveless
      · rintro ⟨victim, -, -, dirty, -⟩
        simp [clean] at dirty
  | @evicted reply arr victim other owned dirty idle =>
      right
      right
      refine ⟨notOwn, ?_, victim, other, owned, dirty, reply, arr, rest, rfl, idle⟩
      rintro ⟨-, clean, -⟩
      simp [clean] at dirty

theorem Admitted.took {hot : Bool} (admitted : Admitted session hit g id hot log)
    (marked : g'.owner id = some session ∧ g'.dirty id = true)
    (others : SameViews (· ≠ id) g g') : Took session hit g g' id log := by
  cases admitted with
  | hot owned =>
      refine ⟨?_, by simp [owned], marked, others⟩
      left
      refine ⟨⟨owned, by simp⟩, ?_, ?_⟩
      · intro clean
        exact clean.1 owned
      · rintro ⟨victim, other, owned', -⟩
        exact other (Option.some.inj (owned'.symm.trans owned))
  | cold secured missing =>
      refine ⟨?_, ?_, marked, others⟩
      · have way := secured.way (List.forall_mem_nil (Issued.isSave · = false))
        rwa [List.append_nil] at way
      · have none := secured.restores
        simpa [missing] using none
  | restored secured present =>
      refine ⟨secured.way (by simp [Issued.isSave]), ?_, marked, others⟩
      simp [present, secured.foreign, Issued.isRestore]

end Took

/-- An admission that runs alone takes a slot in one of three ways, or takes none and leaves the
registry as it was. -/
theorem admission_saves_before_steal {backendSig : String} {requests : RequestId → Request}
    {r : RequestId} {start last : World} {steer : Option SlotId} {hot : Bool} {log : List Issued}
    (dirtyOwned : ∀ id, start.slots.dirty id = true → (start.slots.owner id).isSome = true)
    (ran : (chat backendSig requests).OwnRun r (answers (requests r).session) (.waiting, start)
      log (.forwarding steer hot none, last)) :
    (∀ id, steer = some id → Took (requests r).session
      (start.blobs (blobName backendSig (requests r).session)).isSome start.slots last.slots id
      log) ∧
    (steer = none → SameViews (fun _ => True) start.slots last.slots ∧
      ∀ entry ∈ log, entry.isRestore = false) := by
  have admitting := admitting_of_ran dirtyOwned ran rfl
  constructor
  · rintro id rfl
    cases admitting with
    | steered views owned dirty admitted => exact admitted.took ⟨owned, dirty⟩ views
  · rintro rfl
    cases admitting with
    | unsteered views spared => exact ⟨views, spared⟩

/-- One slot, dirty under another session, and a blob for every session. -/
def occupied : World :=
  { World.empty with
    slots := Registry.markDirty ∅ 0 "hdr-a"
    blobs := fun _ => some .blank }

/-- An admission that publishes the slot's state, takes it and restores its own. -/
def evicting : List Action :=
  [.enter, .miss, idle [0], .pick, idle [0], .choose, .lock, .capture, .saveReply true,
    .publish true, .clean, .load, .restoreReply true, .mark]

theorem admission_evicts_then_restores :
    ∃ last : World, Took "hdr-b" true occupied.slots last.slots 0
      [.slots (some [⟨0, false, 0⟩]), .slots (some [⟨0, false, 0⟩]), .save 0 "hdr-a" true,
        .restore 0 "hdr-b" true] := by
  let requests : RequestId → Request := fun _ => ⟨"hdr-b", streamBody⟩
  have executed : ((chat "0123456789ab" requests).execute 0 (answers "hdr-b")
      (.waiting, occupied) evicting).map (fun result => (result.1, result.2.1)) =
      some ([.slots (some [⟨0, false, 0⟩]), .slots (some [⟨0, false, 0⟩]), .save 0 "hdr-a" true,
        .restore 0 "hdr-b" true], .forwarding (some 0) false none) := by
    decide
  obtain ⟨⟨log, phase, last⟩, ran, observed⟩ := Option.map_eq_some_iff.mp executed
  obtain ⟨rfl, rfl⟩ := Prod.mk.inj observed
  have alone := Threads.OwnRun.refl.execute ran
  have dirtyOwned : ∀ id, occupied.slots.dirty id = true →
      (occupied.slots.owner id).isSome = true := by
    intro id dirty
    simp only [occupied, Registry.dirty_markDirty, Registry.owner_markDirty] at dirty ⊢
    split_ifs at dirty ⊢
    · rfl
    · simp at dirty
  exact ⟨last, (admission_saves_before_steal dirtyOwned alone).1 0 rfl⟩

end Ollm.Proxy
