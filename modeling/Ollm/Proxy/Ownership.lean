import Ollm.Proxy.PendingTurns
import Ollm.Proxy.Serial

/-!
# Ownership

A session is to own at most one slot, so that the lookup of its next request
finds one hot slot or none.  The lookup sees that no slot is owned; the slot is
labelled some awaits later, and nothing looks again in between.
-/

namespace Ollm.Proxy

namespace Registry

variable {g g' : Registry}

/-- No session owns two slots. -/
def SingleOwner (g : Registry) : Prop :=
  ∀ session first second, g.owner first = some session → g.owner second = some session →
    first = second

theorem singleOwner_empty : SingleOwner ∅ := by
  intro session first second owned
  cases owned

theorem nodup_hotSlots (g : Registry) (session : String) : (g.hotSlots session).Nodup := by
  have keys : g.entries.keys.Nodup := g.nodupKeys
  apply List.Nodup.sublist _ keys
  apply List.Sublist.map
  exact List.filter_sublist

/-- The lookup has at most one candidate. -/
theorem singleOwner_iff : g.SingleOwner ↔ ∀ session, (g.hotSlots session).length ≤ 1 := by
  constructor
  · intro single session
    have nodup := nodup_hotSlots g session
    cases found : g.hotSlots session with
    | nil => simp
    | cons first rest =>
        cases rest with
        | nil => simp
        | cons second rest =>
            have owned : g.owner first = some session := mem_hotSlots.mp (by simp [found])
            have owned' : g.owner second = some session := mem_hotSlots.mp (by simp [found])
            rw [found, single session first second owned owned'] at nodup
            simp at nodup
  · intro short session first second owned owned'
    have member := mem_hotSlots.mpr owned
    have member' := mem_hotSlots.mpr owned'
    obtain ⟨only, found⟩ := List.length_eq_one_iff.mp
      (Nat.le_antisymm (short session) (List.length_pos_of_mem member))
    rw [found, List.mem_singleton] at member member'
    rw [member, member']

end Registry

/-! ## Who labels a slot -/

/-- The slot that an action labels with its request's session: an admission labels any slot, the
post-turn task only one that has an entry. -/
def labelledSlot : Action → Phase → Registry → Option SlotId
  | .mark, .marking id _, _ => some id
  | .relabel, .relabelling id, g => if id ∈ g then some id else none
  | _, _, _ => none

/-- What an action can do to the owners. -/
inductive OwnerStep (session : String) (labelled : Option SlotId) (g g' : Registry) : Prop where
  | kept (unlabelled : labelled = none)
      (owners : ∀ id owner, g'.owner id = some owner → g.owner id = some owner)
  | label {id} (labels : labelled = some id)
      (owners : ∀ other, g'.owner other = if other = id then some session else g.owner other)

variable {backendSig : String} {requests : RequestId → Request} {r : RequestId}

theorem Step.owners {action : Action} {phase phase' : Phase} {world world' : World}
    (step : Step backendSig requests r action phase world phase' world') :
    OwnerStep (requests r).session (labelledSlot action phase world.slots) world.slots
      world'.slots := by
  cases step with
  | pick =>
      refine .kept rfl fun id owner owned => ?_
      exact (Registry.views_pickSlot _ id).1 ▸ owned
  | choose =>
      refine .kept rfl fun id owner owned => ?_
      exact (Registry.views_findEvictable _ id).1 ▸ owned
  | @mark id => exact .label rfl fun other => Registry.owner_markDirty id other _
  | @clean _ id =>
      refine .kept rfl fun other owner owned => ?_
      exact Registry.owner_markClean id other ▸ owned
  | @cleanUp id =>
      refine .kept rfl fun other owner owned => ?_
      rw [Registry.owner_abandon] at owned
      split_ifs at owned
      exact owned
  | @relabel id world =>
      by_cases present : id ∈ world.slots
      · refine .label (if_pos present) fun other => ?_
        simp [present]
      · refine .kept (if_neg present) fun other owner owned => ?_
        simpa [present] using owned
  | _ => exact .kept rfl fun _ _ owned => owned

/-- Labelling keeps owners single exactly if no other slot has the label already. -/
theorem OwnerStep.singleOwner_iff {session : String} {labelled : Option SlotId}
    {g g' : Registry} (step : OwnerStep session labelled g g') (single : g.SingleOwner) :
    g'.SingleOwner ↔
      ∀ id, labelled = some id → ∀ other, g.owner other = some session → other = id := by
  cases step with
  | kept unlabelled owners =>
      refine iff_of_true (fun name first second owned owned' => ?_) fun id labels => ?_
      · exact single name first second (owners first name owned) (owners second name owned')
      · rw [unlabelled] at labels
        cases labels
  | @label id labels owners =>
      constructor
      · intro single' slot labels' other owned
        obtain rfl := Option.some.inj (labels.symm.trans labels')
        apply single' session
        · rw [owners, owned, ite_self]
        · rw [owners, if_pos rfl]
      · intro alone name first second owned owned'
        have others : ∀ other, g'.owner other = some name → other ≠ id → name ≠ session ∧
            g.owner other = some name := by
          intro other owned distinct
          rw [owners, if_neg distinct] at owned
          refine ⟨?_, owned⟩
          rintro rfl
          exact distinct (alone id labels other owned)
        have itself : ∀ {owner}, g'.owner id = some owner → owner = session := by
          intro owner owned
          rw [owners, if_pos rfl] at owned
          exact (Option.some.inj owned).symm
        by_cases here : first = id <;> by_cases here' : second = id
        · rw [here, here']
        · subst here
          exact absurd (itself owned) (others second owned' here').1
        · subst here'
          exact absurd (itself owned') (others first owned here).1
        · exact single name first second (others first owned here).2
            (others second owned' here').2

/-- A slot is labelled for a session only while no other slot is. -/
def LabelsAlone (requests : RequestId → Request) (config : ProxyState)
    (event : RequestId × Action) : Prop :=
  ∀ id, labelledSlot event.2 (config.locals event.1) config.world.slots = some id →
    ∀ other ∈ config.world.slots.hotSlots (requests event.1).session, other = id

theorem singleOwner_step_iff {before after : ProxyState} {event : RequestId × Action}
    (single : before.world.slots.SingleOwner)
    (moved : (chat backendSig requests).machine.step before event = some after) :
    after.world.slots.SingleOwner ↔ LabelsAlone requests before event := by
  obtain ⟨r, action⟩ := event
  obtain ⟨acted, -⟩ := (chat backendSig requests).acts_of_machine_step moved
  rw [(step_of_act acted).owners.singleOwner_iff single]
  simp only [LabelsAlone, Registry.mem_hotSlots]

theorem singleOwner_of_reached {config : ProxyState}
    (reached : (chat backendSig requests).machine.ReachedBy (LabelsAlone requests) config) :
    config.world.slots.SingleOwner := by
  refine reached.invariant (fun config => config.world.slots.SingleOwner) ?_ ?_
  · rintro config ⟨fresh, -⟩
    rw [fresh.slots]
    exact Registry.singleOwner_empty
  · intro before event after single alone moved
    exact (singleOwner_step_iff single moved).mpr alone

/-! ## Successive requests

The slots that a request at some await takes its session to own.  With one
request of a session at a time, nobody else makes the session an owner. -/

def Phase.Claims : Phase → SlotId → Prop
  | .snapshot _, _ | .picking _ _, _ | .seeking _, _ | .choosing _ _, _ | .restoring _ _, _ => False
  | .marking _ false, _ | .saving (.eviction _) _ _ _, _ => False
  | .marking id true, other | .forwarding (some id) _ _, other => other = id
  | .receiving (some id) _, other | .relabelling id, other => other = id
  | _, _ => True

/-- A request is looked up only while the other requests of its session rest. -/
def Successive (requests : RequestId → Request) (config : ProxyState)
    (event : RequestId × Action) : Prop :=
  (config.locals event.1).resting = true → ∀ other, other ≠ event.1 →
    (requests other).session = (requests event.1).session →
    (config.locals other).resting = true

theorem claims_of_resting {phase : Phase} (resting : phase.resting = true) (id : SlotId) :
    phase.Claims id := by
  cases phase with
  | waiting => trivial
  | done => trivial
  | _ => cases resting

theorem claims_afterBody {steer : Option SlotId} {ranOn id : SlotId}
    (claims : (Phase.receiving steer ranOn).Claims id) : (afterBody steer).Claims id := by
  cases steer with
  | none => trivial
  | some slot => exact claims

/-- An admission that found no slot of its session relies on there being none, and everybody
relies on there being one only. -/
theorem Step.claims {action : Action} {phase phase' : Phase} {world world' : World}
    (step : Step backendSig requests r action phase world phase' world')
    (single : world.slots.SingleOwner)
    (claims : ∀ id, world.slots.owner id = some (requests r).session → phase.Claims id)
    (id : SlotId) (owned : world'.slots.owner id = some (requests r).session) :
    phase'.Claims id := by
  have before : labelledSlot action phase world.slots = none →
      world.slots.owner id = some (requests r).session := by
    intro unlabelled
    cases step.owners with
    | kept _ owners => exact owners id _ owned
    | label labels =>
        rw [unlabelled] at labels
        cases labels
  cases step with
  | hot found => exact single _ _ _ owned found
  | miss unowned => exact unowned id owned
  | @mark slot hot world =>
      by_cases same : id = slot
      · exact same
      · change (world.slots.markDirty slot _).owner id = _ at owned
        rw [Registry.owner_markDirty, if_neg same] at owned
        cases hot with
        | true => exact claims id owned
        | false => exact (claims id owned).elim
  | complete => exact claims_afterBody (claims id (before rfl))
  | bodyBroken => exact claims_afterBody (claims id (before rfl))
  | @land _ steer | @success steer =>
      cases steer with
      | none => trivial
      | some slot => exact claims id (before rfl)
  | @hungUp steer => cases steer <;> trivial
  | @lock caller | @capture caller | @saved caller | @saveFailed caller | @publishFailed caller
  | @clean caller =>
      cases caller with
      | eviction diskHit => exact (claims id (before rfl)).elim
      | postTurn => trivial
  | enter | cleanUp | relabel | remove | settle | drop | failed | refused | streamBroken
  | seekFailed | publishTurn => trivial
  | _ => exact (claims id (before rfl)).elim

/-- What holds while the requests of each session succeed one another. -/
structure InSuccession (requests : RequestId → Request) (config : ProxyState) : Prop where
  single : config.world.slots.SingleOwner
  apart : ∀ first second, first ≠ second →
    (requests first).session = (requests second).session →
    (config.locals first).resting = true ∨ (config.locals second).resting = true
  claims : ∀ r id, config.world.slots.owner id = some (requests r).session →
    (config.locals r).Claims id

theorem eq_of_claims {action : Action} {phase : Phase} {g : Registry} {id other : SlotId}
    (labels : labelledSlot action phase g = some id) (claims : phase.Claims other) :
    other = id := by
  unfold labelledSlot at labels
  split at labels
  case h_1 slot hot =>
    obtain rfl := Option.some.inj labels
    cases hot with
    | true => exact claims
    | false => exact claims.elim
  case h_2 =>
    split_ifs at labels
    obtain rfl := Option.some.inj labels
    exact claims
  case h_3 => cases labels

theorem InSuccession.labelsAlone {config : ProxyState} (holds : InSuccession requests config)
    (event : RequestId × Action) : LabelsAlone requests config event := by
  intro id labels other hot
  apply eq_of_claims labels
  apply holds.claims
  exact Registry.mem_hotSlots.mp hot

theorem InSuccession.step {before after : ProxyState} {event : RequestId × Action}
    (holds : InSuccession requests before) (successive : Successive requests before event)
    (moved : (chat backendSig requests).machine.step before event = some after) :
    InSuccession requests after := by
  have alone := holds.labelsAlone event
  have single := (singleOwner_step_iff holds.single moved).mpr alone
  obtain ⟨r, action⟩ := event
  obtain ⟨acted, others⟩ := (chat backendSig requests).acts_of_machine_step moved
  have step := step_of_act acted
  -- whoever shares the session of the acting request rests
  have rests : ∀ other, other ≠ r → (requests other).session = (requests r).session →
      (before.locals other).resting = true := by
    intro other distinct same
    rcases holds.apart r other distinct.symm same.symm with resting | resting
    · exact successive resting other distinct same
    · exact resting
  refine ⟨single, fun first second distinct same => ?_, fun name id owned => ?_⟩
  · by_cases here : first = r
    · subst here
      right
      rw [others second distinct.symm]
      exact rests second distinct.symm same.symm
    · rw [others first here]
      by_cases here' : second = r
      · subst here'
        exact .inl (rests first here same)
      · rw [others second here']
        exact holds.apart first second distinct same
  · by_cases here : name = r
    · subst here
      exact step.claims holds.single (holds.claims name) id owned
    · rw [others name here]
      by_cases same : (requests name).session = (requests r).session
      · exact claims_of_resting (rests name here same) id
      · apply holds.claims name id
        cases step.owners with
        | kept _ owners => exact owners id _ owned
        | @label slot _ owners =>
            rw [owners] at owned
            split_ifs at owned with labelled
            · exact absurd (Option.some.inj owned).symm same
            · exact owned

/-- Requests that succeed one another in each session never label a second slot. -/
theorem labelsAlone_of_successive {config : ProxyState}
    (reached : (chat backendSig requests).machine.ReachedBy (Successive requests) config) :
    (chat backendSig requests).machine.ReachedBy (LabelsAlone requests) config := by
  have known : ∀ config, (chat backendSig requests).machine.ReachedBy (Successive requests)
      config → InSuccession requests config := by
    intro config reached
    refine reached.invariant (InSuccession requests) ?_ ?_
    · rintro config ⟨fresh, started⟩
      refine ⟨fun session first second owned => ?_, fun first _ _ _ => ?_, fun r id owned => ?_⟩
      · rw [fresh.slots] at owned
        cases owned
      · rw [started]
        exact .inl rfl
      · rw [fresh.slots] at owned
        cases owned
    · intro before event after holds successive moved
      exact holds.step successive moved
  apply (reached.attach known).mono
  intro config event allowed
  exact allowed.2.labelsAlone event

/-- The lookup of a session has at most one candidate as long as no action labels a second slot
for the session, and no longer. -/
theorem session_owns_one_slot (backendSig : String) (requests : RequestId → Request) :
    (∀ config,
      (chat backendSig requests).machine.ReachedBy (LabelsAlone requests) config →
      ∀ session, (config.world.slots.hotSlots session).length ≤ 1) ∧
    ∀ before event after,
      (chat backendSig requests).machine.ReachedBy (LabelsAlone requests) before →
      (chat backendSig requests).machine.step before event = some after →
      (∀ session, (after.world.slots.hotSlots session).length ≤ 1) →
      LabelsAlone requests before event := by
  constructor
  · intro config reached
    exact Registry.singleOwner_iff.mp (singleOwner_of_reached reached)
  · intro before event after reached moved short
    apply (singleOwner_step_iff (singleOwner_of_reached reached) moved).mp
    exact Registry.singleOwner_iff.mpr short

/-! ## Runs -/

/-- Both requests find no slot of their session before either marks one. -/
def overlappingAdmissions : List (RequestId × Action) :=
  [(0, .enter), (0, .miss), (1, .enter), (1, .miss), (0, idle [0, 1]), (1, idle [0, 1]),
    (0, .pick), (0, .mark), (1, .pick), (1, .mark)]

theorem overlappingAdmissions_split :
    ¬ ∀ (backendSig : String) (requests : RequestId → Request) (config : ProxyState),
      (chat backendSig requests).machine.Reachable config →
      ∀ session, (config.world.slots.hotSlots session).length ≤ 1 := by
  intro short
  have executed : (((chat "0123456789ab" oneSession).machine.run (fun _ _ => true) chatStart
      overlappingAdmissions).map fun config => (config.world.slots.hotSlots "hdr-a").length) =
      some 2 := by
    decide
  obtain ⟨config, reached, two⟩ := Machine.reachedBy_of_observed (fun _ _ _ => trivial)
    (initial_chatStart "0123456789ab" oneSession) executed
  have one := short _ _ config reached "hdr-a"
  rw [two] at one
  exact absurd one (by decide)

def labelsAlone (requests : RequestId → Request) (config : ProxyState)
    (event : RequestId × Action) : Bool :=
  (labelledSlot event.2 (config.locals event.1) config.world.slots).all fun id =>
    (config.world.slots.hotSlots (requests event.1).session).all (· == id)

theorem labelsAlone_sound (requests : RequestId → Request) (config : ProxyState)
    (event : RequestId × Action) (checked : labelsAlone requests config event = true) :
    LabelsAlone requests config event := by
  intro id labels other hot
  simp only [labelsAlone, labels, Option.all_some, List.all_eq_true, beq_iff_eq] at checked
  exact checked other hot

/-- The second request of the session finds its slot hot. -/
theorem session_owns_one_slot_hot :
    ∃ config : ProxyState, config.world.slots.hotSlots "hdr-a" = [0] ∧
      (config.locals 1).occupies = some 0 ∧
      ∀ session, (config.world.slots.hotSlots session).length ≤ 1 := by
  have executed : (((chat "0123456789ab" oneSession).machine.run (labelsAlone oneSession)
      chatStart (wholeTurn 0 0 ++ [(1, .enter), (1, .hot 0), (1, .mark)])).map fun config =>
        (config.world.slots.hotSlots "hdr-a", (config.locals 1).occupies)) =
      some ([0], some 0) := by
    decide
  obtain ⟨config, reached, observed⟩ := Machine.reachedBy_of_observed (labelsAlone_sound oneSession)
    (initial_chatStart "0123456789ab" oneSession) executed
  obtain ⟨hot, occupied⟩ := Prod.mk.inj observed
  exact ⟨config, hot, occupied, (session_owns_one_slot _ oneSession).1 config reached⟩

end Ollm.Proxy
