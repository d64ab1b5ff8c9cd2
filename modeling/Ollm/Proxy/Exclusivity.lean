import Ollm.Proxy.Steps

/-!
# Slot exclusivity

While a turn runs on a slot, the slot's entry is to be dirty and owned by the
turn's session.  Two things can break this, and the proxy checks neither: an
admission marks a slot whose entry was taken since it was picked, and a save or
a cleanup of one turn clears the dirty flag under another turn.
-/

namespace Ollm.Proxy

def markedSlot : Action → Phase → Option SlotId
  | .mark, .marking id _ => some id
  | _, _ => none

def clearedSlot : Action → Phase → Option SlotId
  | .clean, .saving _ id _ .cleaning => some id
  | .cleanUp, .abandoning id => some id
  | _, _ => none

/-- The slot a turn occupies: from the marking of its admission until its own
save has returned, its forward has failed or its cleanup has run. -/
def Phase.occupies : Phase → Option SlotId
  | .forwarding steer _ _ => steer
  | .receiving steer _ => steer
  | .abandoning id => some id
  | .relabelling id => some id
  | .saving .postTurn id _ _ => some id
  | _ => none

def Held (g : Registry) (id : SlotId) (session : String) : Prop :=
  g.dirty id = true ∧ g.owner id = some session

variable {backendSig : String} {requests : RequestId → Request} {r : RequestId}

/-- Everything an action can do to the owners and dirty flags. -/
inductive RegistryStep (session : String) (action : Action) (phase : Phase) :
    Registry → Registry → Prop where
  | keep {g g'} (views : ∀ id, g'.owner id = g.owner id ∧ g'.dirty id = g.dirty id) :
      RegistryStep session action phase g g'
  | mark {id g} (marks : markedSlot action phase = some id) :
      RegistryStep session action phase g (g.markDirty id session)
  | clean {id g} (clears : clearedSlot action phase = some id) :
      RegistryStep session action phase g (g.markClean id)
  | abandon {id g} (clears : clearedSlot action phase = some id) :
      RegistryStep session action phase g (g.abandon id)
  | relabel {id g} (occupies : phase.occupies = some id) :
      RegistryStep session action phase g (g.relabel id session)

theorem Step.registry {action : Action} {phase phase' : Phase} {world world' : World}
    (step : Step backendSig requests r action phase world phase' world') :
    RegistryStep (requests r).session action phase world.slots world'.slots := by
  cases step with
  | pick => exact .keep fun id => Registry.views_pickSlot _ id
  | choose => exact .keep fun id => Registry.views_findEvictable _ id
  | mark => exact .mark rfl
  | clean => exact .clean rfl
  | cleanUp => exact .abandon rfl
  | relabel => exact .relabel rfl
  | _ => exact .keep fun _ => ⟨rfl, rfl⟩

/-- A slot stays held unless another session marks or relabels it, or its
dirty flag is cleared. -/
theorem Held.registryStep {g g' : Registry} {id : SlotId} {session other : String}
    {action : Action} {phase : Phase} (held : Held g id session)
    (step : RegistryStep other action phase g g')
    (marks : markedSlot action phase = some id → other = session)
    (clears : clearedSlot action phase ≠ some id)
    (occupies : phase.occupies = some id → other = session) : Held g' id session := by
  obtain ⟨dirty, owned⟩ := held
  cases step with
  | keep views => exact ⟨(views id).2.trans dirty, (views id).1.trans owned⟩
  | @mark marked g marksIt =>
      by_cases same : id = marked
      · subst same
        simp [Held, marks marksIt]
      · simp [Held, same, dirty, owned]
  | @clean cleared g clearsIt =>
      have distinct : id ≠ cleared := fun same => clears (same ▸ clearsIt)
      simp [Held, distinct, dirty, owned]
  | @abandon cleared g clearsIt =>
      have distinct : id ≠ cleared := fun same => clears (same ▸ clearsIt)
      simp [Held, distinct, dirty, owned]
  | @relabel relabelled g occupiesIt =>
      by_cases same : id = relabelled
      · subst same
        simp [Held, dirty, Registry.mem_of_dirty dirty, occupies occupiesIt]
      · simp [Held, same, dirty, owned]

theorem Step.held_of_marks {action : Action} {phase phase' : Phase} {world world' : World}
    (step : Step backendSig requests r action phase world phase' world') {id : SlotId}
    (marks : markedSlot action phase = some id) :
    Held world'.slots id (requests r).session := by
  cases step with
  | mark =>
      obtain rfl := Option.some.inj marks
      simp [Held, World.mark]
  | _ => cases marks

@[simp]
theorem occupies_admission (diskHit : Bool) (id : SlotId) :
    (admission diskHit id).occupies = none := by
  cases diskHit <;> rfl

@[simp]
theorem occupies_afterSave (caller : Caller) (id : SlotId) (ok : Bool) :
    (afterSave caller id ok).occupies = none := by
  cases caller with
  | postTurn => rfl
  | eviction diskHit =>
      cases ok with
      | false => rfl
      | true => exact occupies_admission diskHit id

@[simp]
theorem occupies_afterPick (diskHit : Bool) (picked : Option SlotId) :
    (afterPick diskHit picked).occupies = none := by
  cases picked with
  | none => rfl
  | some id => exact occupies_admission diskHit id

@[simp]
theorem occupies_afterChoice (diskHit : Bool) (free : Option (SlotId × Option String)) :
    (afterChoice diskHit free).occupies = none := by
  rcases free with _ | ⟨id, _ | victim⟩
  · rfl
  · exact occupies_admission diskHit id
  · rfl

/-- A turn comes to occupy a slot only by marking it, and a turn that clears
its slot's flag no longer occupies it. -/
theorem Step.occupies {action : Action} {phase phase' : Phase} {world world' : World}
    (step : Step backendSig requests r action phase world phase' world') {id : SlotId}
    (occupied : phase'.occupies = some id) :
    markedSlot action phase = some id ∨
      (phase.occupies = some id ∧ clearedSlot action phase = none) := by
  cases step with
  | mark => exact .inl occupied
  | pick | choose | saveFailed | publishFailed | clean => simp at occupied
  | @complete steer | @bodyBroken steer | @hungUp steer =>
      cases steer with
      | none => cases occupied
      | some slot => exact .inr ⟨occupied, rfl⟩
  | @lock caller | @capture caller | @saved caller =>
      cases caller with
      | eviction diskHit => cases occupied
      | postTurn => exact .inr ⟨occupied, rfl⟩
  | land | success | relabel | publishTurn => exact .inr ⟨occupied, rfl⟩
  | _ => cases occupied

/-- The entry is marked only if it is clean or its own, and a flag is cleared
only if no other turn occupies the slot. -/
def Orderly (requests : RequestId → Request)
    (config : ProxyState) (event : RequestId × Action) : Prop :=
  (∀ id, markedSlot event.2 (config.locals event.1) = some id →
    config.world.slots.dirty id = true →
    config.world.slots.owner id = some (requests event.1).session) ∧
  ∀ id, clearedSlot event.2 (config.locals event.1) = some id →
    ∀ other, other ≠ event.1 → (config.locals other).occupies ≠ some id

/-- A turn holds the slot that it occupies. -/
def HoldsSlot (requests : RequestId → Request) (r : RequestId) (phase : Phase) (world : World) :
    Prop :=
  ∀ id, phase.occupies = some id → Held world.slots id (requests r).session

theorem HoldsSlot.own {action : Action} {phase phase' : Phase} {world world' : World}
    (holds : HoldsSlot requests r phase world)
    (step : Step backendSig requests r action phase world phase' world') :
    HoldsSlot requests r phase' world' := by
  intro slot occupies
  rcases step.occupies occupies with marks | ⟨before, keeps⟩
  · exact step.held_of_marks marks
  · exact (holds slot before).registryStep step.registry (fun _ => rfl)
      (by simp [keeps]) fun _ => rfl

theorem HoldsSlot.other {config : ProxyState} {actor other : RequestId} {action : Action}
    {phase' : Phase} {world' : World}
    (holds : ∀ each, HoldsSlot requests each (config.locals each) config.world)
    (orderly : Orderly requests config (actor, action)) (distinct : other ≠ actor)
    (step : Step backendSig requests actor action (config.locals actor) config.world phase'
      world') : HoldsSlot requests other (config.locals other) world' := by
  intro slot occupies
  have held := holds other slot occupies
  have owned := held.2
  apply held.registryStep step.registry
  · intro marks
    have own := orderly.1 slot marks held.1
    exact Option.some.inj (own.symm.trans owned)
  · intro clears
    exact orderly.2 slot clears other distinct occupies
  · intro occupiesToo
    exact Option.some.inj ((holds actor slot occupiesToo).2.symm.trans owned)

theorem held_of_occupies {config : ProxyState}
    (reached : (chat backendSig requests).machine.ReachedBy (Orderly requests) config)
    (name : RequestId) {id : SlotId} (occupied : (config.locals name).occupies = some id) :
    Held config.world.slots id (requests name).session := by
  refine (chat backendSig requests).assertion_of_reachedBy (HoldsSlot requests) ?_ ?_ ?_ reached
    name id occupied
  · intro world fresh each slot occupies
    cases occupies
  · intro config each action phase' world' holds _ acted
    exact (holds each).own (step_of_act acted)
  · intro config actor action phase' world' holds orderly acted other distinct
    exact HoldsSlot.other holds orderly distinct (step_of_act acted)

/-- In orderly runs turns of different sessions never occupy one slot, and a
turn's post-turn task finds its slot still owned by its own session. -/
theorem chat_exclusive {config : ProxyState}
    (reached : (chat backendSig requests).machine.ReachedBy (Orderly requests) config) :
    (∀ first second id, (config.locals first).occupies = some id →
      (config.locals second).occupies = some id →
      (requests first).session = (requests second).session) ∧
    ∀ name id, (config.locals name).occupies = some id →
      config.world.slots.owner id = some (requests name).session ∧
        config.world.slots.dirty id = true := by
  refine ⟨fun first second id occupied occupied' => ?_, fun name id occupied => ?_⟩
  · have owned := (held_of_occupies reached first occupied).2
    have owned' := (held_of_occupies reached second occupied').2
    exact Option.some.inj (owned.symm.trans owned')
  · have held := held_of_occupies reached name occupied
    exact ⟨held.2, held.1⟩

/-! ## Runs -/

/-- Request 0 is of session `hdr-a`, all others are of `hdr-b`. -/
def twoSessions : RequestId → Request
  | 0 => ⟨"hdr-a", streamBody⟩
  | _ => ⟨"hdr-b", streamBody⟩

/-- Both admissions pick the idle slot 0 before either marks it. -/
def racingAdmissions : List (RequestId × Action) :=
  [(0, .enter), (1, .enter), (0, .miss), (1, .miss), (0, idle [0]), (1, idle [0]),
    (0, .pick), (1, .pick), (0, .mark), (1, .mark)]

theorem racingAdmissions_collide :
    ¬ ∀ (backendSig : String) (requests : RequestId → Request)
        (config : ProxyState),
      (chat backendSig requests).machine.Reachable config →
      ∀ first second id, (config.locals first).occupies = some id →
        (config.locals second).occupies = some id →
        (requests first).session = (requests second).session := by
  intro exclusive
  have executed : (((chat "0123456789ab" twoSessions).machine.run (fun _ _ => true) chatStart
      racingAdmissions).map fun config =>
        ((config.locals 0).occupies, (config.locals 1).occupies)) = some (some 0, some 0) := by
    decide
  obtain ⟨config, reached, occupied⟩ := Machine.reachedBy_of_observed (fun _ _ _ => trivial)
    (initial_chatStart "0123456789ab" twoSessions) executed
  have same := exclusive _ _ config reached 0 1 0 (congrArg Prod.fst occupied)
    (congrArg Prod.snd occupied)
  exact absurd same (by decide)

def marksClean (config : ProxyState)
    (event : RequestId × Action) : Bool :=
  (clearedSlot event.2 (config.locals event.1)).isNone &&
    ((markedSlot event.2 (config.locals event.1)).all fun id => !config.world.slots.dirty id)

theorem orderly_of_marksClean (requests : RequestId → Request)
    (config : ProxyState) (event : RequestId × Action)
    (checked : marksClean config event = true) : Orderly requests config event := by
  simp only [marksClean, Bool.and_eq_true, Option.isNone_iff_eq_none] at checked
  refine ⟨fun id marks dirty => ?_, fun id clears => ?_⟩
  · simp [marks, dirty] at checked
  · rw [checked.1] at clears
    cases clears

/-- The second admission sees the first one's slot dirty and takes another. -/
theorem chat_exclusive_two_slots :
    ∃ config : ProxyState,
      (config.locals 0).occupies = some 0 ∧ (config.locals 1).occupies = some 1 ∧
      (∀ first second id, (config.locals first).occupies = some id →
        (config.locals second).occupies = some id →
        (twoSessions first).session = (twoSessions second).session) ∧
      ∀ name id, (config.locals name).occupies = some id →
        config.world.slots.owner id = some (twoSessions name).session ∧
          config.world.slots.dirty id = true := by
  have executed : (((chat "0123456789ab" twoSessions).machine.run marksClean chatStart
      [(0, .enter), (0, .miss), (0, idle [0, 1]), (0, .pick), (0, .mark),
        (1, .enter), (1, .miss), (1, idle [0, 1]), (1, .pick), (1, .mark)]).map fun config =>
          ((config.locals 0).occupies, (config.locals 1).occupies)) =
      some (some 0, some 1) := by
    decide
  obtain ⟨config, reached, occupied⟩ := Machine.reachedBy_of_observed
    (orderly_of_marksClean twoSessions) (initial_chatStart "0123456789ab" twoSessions) executed
  exact ⟨config, congrArg Prod.fst occupied, congrArg Prod.snd occupied,
    chat_exclusive reached⟩

end Ollm.Proxy
