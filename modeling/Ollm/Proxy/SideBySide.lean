import Ollm.Library.Leases
import Ollm.Proxy.Concert

/-!
# Conversations side by side

Turns of different sessions may overlap in any way as long as each session waits
for its own turns, each admission finds a slot that is idle and clean, and no two
admissions settle on one slot.  Then every turn goes on where its session's last
completed turn ended, on a slot that no other turn touches, and sessions whose
turns are through have their last state on disk.  Restarts of the proxy in between
lose nothing else but turns that were not published yet.
-/

namespace Ollm.Proxy

open Keying

variable {backendSig : String} {requests : RequestId → Request} {r : RequestId}
  {world world' : World}

/-- The session of a request that is not settled. -/
def Phase.engages (session : String) (phase : Phase) : Option String :=
  if phase.settled then none else some session

theorem taken_of_occupies {phase : Phase} {id : SlotId} (occupied : phase.occupies = some id) :
    phase.taken = some id := by
  cases phase with
  | restoring | marking => cases occupied
  | _ => exact occupied

/-- A slot is taken while it is picked and while a turn occupies it. -/
theorem picked_or_occupies {phase : Phase} {id : SlotId} (taken : phase.taken = some id) :
    phase.picked = some id ∨ phase.occupies = some id := by
  cases phase with
  | restoring | marking => exact .inl taken
  | _ => exact .inr taken

theorem settled_of_taken {phase : Phase} {id : SlotId} (taken : phase.taken = some id) :
    phase.settled = false := by
  cases phase with
  | waiting | enforcing | done => cases taken
  | _ => rfl

theorem taken_of_clearedSlot {action : Action} {phase : Phase} {id : SlotId}
    (along : Along backendSig requests r world phase)
    (clears : clearedSlot action phase = some id) : phase.taken = some id := by
  unfold clearedSlot at clears
  split at clears
  case h_1 caller _ _ =>
    cases caller with
    | eviction => exact along.elim
    | postTurn => exact clears
  case h_2 => exact clears
  case h_3 => cases clears

theorem own_of_markedSlot {action : Action} {phase : Phase} {id : SlotId}
    (along : Along backendSig requests r world phase)
    (marks : markedSlot action phase = some id) (dirty : world.slots.dirty id = true) :
    world.slots.owner id = some (requests r).session := by
  unfold markedSlot at marks
  split at marks
  · obtain rfl := Option.some.inj marks
    exact along.1 dirty
  · cases marks

theorem engages_eq_some_iff {phase : Phase} {session other : String} :
    phase.engages session = some other ↔ phase.settled = false ∧ session = other := by
  unfold Phase.engages
  cases phase.settled <;> simp

theorem published_of_settled {phase : Phase} (settled : phase.settled = true) :
    phase.unpublished = false := by
  cases phase with
  | waiting | enforcing | done => rfl
  | _ => cases settled

theorem taken_abort (phase : Phase) : phase.abort.taken = none := by
  cases phase <;> rfl

theorem settled_abort (phase : Phase) : phase.abort.settled = true := by
  cases phase <;> rfl

theorem unsettled_of_unpublished {phase : Phase} (unpublished : phase.unpublished = true) :
    phase.unsettled = true := by
  cases phase with
  | relabelling => rfl
  | saving caller id session stage => cases caller <;> cases stage <;> first | rfl | cases unpublished
  | _ => cases unpublished

theorem last_of_unpublished {phase : Phase} (along : Along backendSig requests r world phase)
    (unpublished : phase.unpublished = true) :
    world.history.last (requests r).session = some r := by
  cases phase with
  | relabelling => exact along.1
  | saving caller =>
      cases caller with
      | eviction => exact along.elim
      | postTurn =>
          obtain ⟨rfl, left, -⟩ := along
          exact left.1
  | _ => cases unpublished

theorem along_of_settled {phase : Phase} (settled : phase.settled = true) :
    Along backendSig requests r world phase := by
  cases phase with
  | waiting | enforcing | done => trivial
  | _ => cases settled

theorem untaken_of_takes {action : Action} {phase : Phase} {g : Registry} {id : SlotId}
    (takes : takenSlot action phase g = some id) : phase.taken = none := by
  unfold takenSlot at takes
  split at takes
  · rfl
  · rfl
  · cases takes

/-! ## The agreement -/

/-- What turns side by side agree on at any moment. -/
structure SideBySide (backendSig : String) (requests : RequestId → Request)
    (config : ProxyState) : Prop where
  slots : Threads.Exclusive (fun _ phase => Phase.taken phase) config.locals
  sessions : Threads.Exclusive (fun r phase => Phase.engages (requests r).session phase)
    config.locals
  single : config.world.slots.SingleOwner
  held : ∀ name id, (config.locals name).occupies = some id →
    Held config.world.slots id (requests name).session
  owned : ∀ id session, (∀ name, (config.locals name).taken ≠ some id) →
    config.world.slots.owner id = some session → Holds config.world session id
  stored : ∀ session turn, (∀ name, (requests name).session = session →
      (config.locals name).unpublished = false) →
    config.world.history.last session = some turn →
    config.world.history.lost session = false →
    config.world.blobs (blobName backendSig session) = some (.left turn)
  along : ∀ name, Along backendSig requests name config.world (config.locals name)
  marked : ∀ name, Marked name config.world (config.locals name)

namespace SideBySide

variable {config : ProxyState} (holds : SideBySide backendSig requests config)

include holds

/-- While one request of a session is under way, the others of the session are settled. -/
theorem others_settled {first second : RequestId} (distinct : first ≠ second)
    (busy : (config.locals first).settled = false)
    (same : (requests second).session = (requests first).session) :
    (config.locals second).settled = true := by
  by_contra unsettled
  rw [Bool.not_eq_true] at unsettled
  exact holds.sessions first second _ distinct (engages_eq_some_iff.mpr ⟨busy, rfl⟩)
    (engages_eq_some_iff.mpr ⟨unsettled, same⟩)

/-- What a lookup settles on nobody else has taken. -/
theorem untaken_of_takenSlot {event : RequestId × Action}
    (concerted : Concerted backendSig requests config event) {phase' : Phase} {world' : World}
    (step : Step backendSig requests event.1 event.2 (config.locals event.1) config.world phase'
      world')
    {id : SlotId}
    (takes : takenSlot event.2 (config.locals event.1) config.world.slots = some id)
    {other : RequestId} (distinct : other ≠ event.1) : (config.locals other).taken ≠ some id := by
  intro taken
  obtain ⟨busy, free⟩ := step.of_takenSlot takes
  rcases picked_or_occupies taken with picked | occupied
  · exact concerted.apart id takes other distinct picked
  · obtain ⟨dirty, owner⟩ := holds.held other id occupied
    rcases free with owned | clean
    · have same := Option.some.inj (owner.symm.trans owned)
      have settled := holds.others_settled distinct.symm busy same
      rw [settled_of_taken taken] at settled
      cases settled
    · rw [clean] at dirty
      cases dirty

theorem orderly {event : RequestId × Action} : Orderly requests config event := by
  refine ⟨fun id marks dirty => ?_, fun id clears other distinct occupied => ?_⟩
  · exact own_of_markedSlot (holds.along event.1) marks dirty
  · have taken := taken_of_clearedSlot (holds.along event.1) clears
    exact holds.slots event.1 other id distinct.symm taken (taken_of_occupies occupied)

/-- A slot is labelled for a session only while no other slot is. -/
theorem labels_alone (r : RequestId) {action : Action} {id other : SlotId}
    (labels : labelledSlot action (config.locals r) config.world.slots = some id)
    (owned : config.world.slots.owner other = some (requests r).session) : other = id := by
  have along := holds.along r
  unfold labelledSlot at labels
  split at labels
  case h_1 marking =>
    obtain rfl := Option.some.inj labels
    rw [marking] at along
    exact along.2.1 other owned
  case h_2 relabelling =>
    split_ifs at labels
    obtain rfl := Option.some.inj labels
    exact holds.single _ _ _ owned (holds.held r _ (by rw [relabelling]; rfl)).2
  case h_3 => cases labels

theorem step (objects : ∀ name, isObject (requests name).body = true)
    {after : ProxyState} {event : RequestId × Action}
    (concerted : Concerted backendSig requests config event)
    (moved : (chat backendSig requests).machine.step config event = some after) :
    SideBySide backendSig requests after := by
  obtain ⟨r, action⟩ := event
  obtain ⟨acted, others⟩ := (chat backendSig requests).acts_of_machine_step moved
  have step := step_of_act acted
  have along := holds.along r
  have effect := step.effect (objects r) along (holds.held r) concerted.fair
  have orderly : Orderly requests config (r, action) := holds.orderly
  constructor
  case slots =>
    refine holds.slots.step (fun id taken => ?_) moved
    rcases step.taken along concerted.fair taken with before | takes
    · exact .inl before
    · exact .inr fun other distinct => holds.untaken_of_takenSlot concerted step takes distinct
  case sessions =>
    refine holds.sessions.step (fun session engages => ?_) moved
    obtain ⟨busy, rfl⟩ := engages_eq_some_iff.mp engages
    rcases step.settled busy with before | rfl
    · exact .inl (engages_eq_some_iff.mpr ⟨before, rfl⟩)
    · right
      intro other distinct engaged
      obtain ⟨busy', same⟩ := engages_eq_some_iff.mp engaged
      have settled := concerted.successive rfl other distinct same
      rw [busy'] at settled
      cases settled
  case single =>
    apply (step.owners.singleOwner_iff holds.single).mpr
    intro id labels other owned
    exact holds.labels_alone r labels owned
  case held =>
    intro name id occupied
    by_cases acting : name = r
    · subst acting
      rcases step.occupies occupied with marks | ⟨before, keeps⟩
      · exact step.held_of_marks marks
      · exact (holds.held name id before).registryStep step.registry (fun _ => rfl)
          (by simp [keeps]) fun _ => rfl
    · rw [others name acting] at occupied
      have held := holds.held name id occupied
      apply held.registryStep step.registry
      · intro marks
        exact Option.some.inj ((orderly.1 id marks held.1).symm.trans held.2)
      · intro clears
        exact orderly.2 id clears name acting occupied
      · intro occupiesToo
        exact Option.some.inj ((holds.held r id occupiesToo).2.symm.trans held.2)
  case owned =>
    intro id session untaken owned
    apply effect.owned along (holds.held r) holds.single _ (untaken r) owned
    intro free owner
    apply holds.owned id session _ owner
    intro name
    by_cases acting : name = r
    · exact acting ▸ free
    · exact others name acting ▸ untaken name
  case stored =>
    intro session turn published last kept
    apply effect.stored along _ (fun own => published r own.symm) last kept
    intro before
    apply holds.stored session turn
    intro name own
    by_cases acting : name = r
    · subst acting
      exact before own.symm
    · exact others name acting ▸ published name own
  case along =>
    intro name
    by_cases acting : name = r
    · subst acting
      apply along.step (objects name) concerted.fair holds.single _ _ step
      · intro id takes owned
        apply holds.owned id _ _ owned
        intro other taken
        by_cases own : other = name
        · subst own
          exact absurd taken (by rw [untaken_of_takes takes]; exact nofun)
        · exact holds.untaken_of_takenSlot concerted step takes own taken
      · intro busy published turn
        apply holds.stored
        intro other same
        by_cases own : other = name
        · exact own ▸ published
        · exact published_of_settled (holds.others_settled (Ne.symm own) busy same)
    · rw [others name acting]
      cases settled : (config.locals name).settled with
      | true => exact along_of_settled settled
      | false =>
          refine (holds.along name).spared (effect.spares ?_ ?_)
          · intro busy same
            have settled' := holds.others_settled (Ne.symm acting) busy same
            rw [settled] at settled'
            cases settled'
          · intro id taken
            exact holds.slots r name id (Ne.symm acting) taken
  case marked =>
    intro name
    by_cases acting : name = r
    · subst acting
      apply (holds.marked name).step _ step
      rintro rfl
      exact concerted.fair rfl
    · rw [others name acting]
      intro unsettled
      rw [step.pending_other acting]
      exact holds.marked name unsettled

/-- A restart leaves the blobs, and sessions whose last turn was not published are lost. -/
theorem restart (kv : SlotId → Content) :
    SideBySide backendSig requests
      ⟨config.world.restart kv, fun name => (config.locals name).abort⟩ where
  slots := Threads.exclusive_of_none fun name => taken_abort (config.locals name)
  sessions := Threads.exclusive_of_none fun name => by
    rw [Phase.engages, settled_abort, if_pos rfl]
  single session first second owned := by simp [World.restart] at owned
  held name id occupied := by
    have taken := taken_of_occupies occupied
    rw [taken_abort] at taken
    cases taken
  owned id session _ owned := by simp [World.restart] at owned
  stored session turn _ last lost := by
    have last : config.world.history.last session = some turn := last
    simp only [World.restart, last, Option.bind_some, Bool.or_eq_false_iff] at lost
    apply holds.stored session turn _ last lost.1
    rintro name rfl
    by_contra unpublished
    rw [Bool.not_eq_false] at unpublished
    have own := last_of_unpublished (holds.along name) unpublished
    obtain rfl : turn = name := Option.some.inj (last.symm.trans own)
    have pending := holds.marked turn (unsettled_of_unpublished unpublished)
    rw [lost.2] at pending
    cases pending
  along name := along_of_settled (settled_abort (config.locals name))
  marked name := marked_of_resting (resting_abort (config.locals name))

/-- A forwarded turn starts where its session's last completed turn ended. -/
theorem resumes {name : RequestId} {steer : Option SlotId} {hot : Bool}
    (forwarded : config.locals name = .forwarding steer hot none) :
    ∃ id, steer = some id ∧ (∀ other, other ≠ name → (config.locals other).taken ≠ some id) ∧
      ∀ turn, config.world.history.last (requests name).session = some turn →
        (hot = true ∨ config.world.history.lost (requests name).session = false) →
        config.world.kv id = .left turn := by
  have along := holds.along name
  rw [forwarded] at along
  obtain ⟨id, rfl, resumes, -⟩ := along
  refine ⟨id, rfl, fun other distinct => ?_, resumes rfl⟩
  apply holds.slots name other id distinct.symm
  rw [forwarded]
  rfl

end SideBySide

/-- Turns side by side, with restarts at any moment. -/
def InConcert (backendSig : String) (requests : RequestId → Request) (config : ProxyState) :
    RequestId × Action ⊕ (SlotId → Content) → Prop
  | .inl event => Concerted backendSig requests config event
  | .inr _ => True

/-- A check for `Concerted` when only the first `n` requests have started. -/
def concertedAmong (backendSig : String) (requests : RequestId → Request) (n : Nat)
    (config : ProxyState) : RequestId × Action ⊕ (SlotId → Content) → Bool
  | .inl (r, action) =>
      decide (r < n) && isFair backendSig requests r action (config.locals r) config.world &&
        (List.range n).all fun other => other == r ||
          ((action != .enter || (requests other).session != (requests r).session ||
              (config.locals other).settled) &&
            ((config.locals other).picked.isNone || (config.locals other).picked !=
              takenSlot action (config.locals r) config.world.slots))
  | .inr _ => true

theorem inConcert_of_concertedAmong {n : Nat} {config : ProxyState}
    {event : RequestId × Action ⊕ (SlotId → Content)}
    (unstarted : (chat backendSig requests).Unstarted n config)
    (checked : concertedAmong backendSig requests n config event = true) :
    InConcert backendSig requests config event := by
  rcases event with ⟨r, action⟩ | kv
  · simp only [concertedAmong, Bool.and_eq_true, Bool.or_eq_true, decide_eq_true_eq, isFair_iff,
      List.all_eq_true, List.mem_range, beq_iff_eq, bne_iff_ne, Option.isNone_iff_eq_none] at checked
    obtain ⟨⟨-, fair⟩, others⟩ := checked
    refine ⟨fun enters other distinct same => ?_, fun id takes other distinct picked => ?_, fair⟩
    · by_cases started : other < n
      · have settled := ((others other started).resolve_left distinct).1
        exact (settled.resolve_left fun either => either.elim (· enters) (· same))
      · rw [unstarted other (Nat.le_of_not_lt started)]
        rfl
    · by_cases started : other < n
      · rcases ((others other started).resolve_left distinct).2 with none | apart
        · rw [none] at picked
          cases picked
        · exact apart (picked.trans takes.symm)
      · rw [unstarted other (Nat.le_of_not_lt started)] at picked
        cases picked
  · trivial

end Ollm.Proxy
