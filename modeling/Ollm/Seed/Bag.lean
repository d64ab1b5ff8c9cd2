import Ollm.Seed.Steps

/-!
# The bag

Every entry of the bag holds the system messages of its family and is never
removed; an entry becomes `cached` only by a call that has published the
family's blob.
-/

namespace Ollm.Seed

open Json Keying
open Proxy (SlotId SlotState)
open Store (CallId seedBlobName)

/-- The messages as a request body. -/
def asRequest (messages : List Value) : Value :=
  .object [("messages", .array messages)]

/-- A non-empty array of system messages that hashes to the key. -/
def Family (sha256 : List UInt8 → Digest) (key : String) (system : Value) : Prop :=
  ∃ systems, system = .array systems ∧ systems ≠ [] ∧
    (∀ message ∈ systems, isSystem message = true) ∧
    systemHash sha256 (asRequest systems) = some key

variable {sha256 : List UInt8 → Digest} {calls : CallId → Call} {c : CallId}

theorem systemMessages_asRequest {systems : List Value}
    (all : ∀ message ∈ systems, isSystem message = true) :
    systemMessages (asRequest systems) = systems := by
  have found : get? (asRequest systems) "messages" = some (.array systems) := rfl
  rw [systemMessages_of_array found]
  exact List.filter_eq_self.mpr all

theorem isSystem_of_mem_systemMessages {body message : Value}
    (member : message ∈ systemMessages body) : isSystem message = true := by
  unfold systemMessages at member
  split at member
  · exact (List.mem_filter.mp member).2
  · cases member

/-- The system messages of a request are of the family that the request is keyed by. -/
theorem family_systemMessages {body : Value} {key : String}
    (hashed : systemHash sha256 body = some key) :
    Family sha256 key (.array (systemMessages body)) := by
  have nonempty : systemMessages body ≠ [] := by
    rw [ne_eq, ← systemHash_eq_none_iff sha256, hashed]
    exact Option.some_ne_none key
  have same : systemMessages (asRequest (systemMessages body)) = systemMessages body :=
    systemMessages_asRequest fun _ => isSystem_of_mem_systemMessages
  refine ⟨systemMessages body, rfl, nonempty, fun _ => isSystem_of_mem_systemMessages, ?_⟩
  rw [← hashed, systemHash_eq, systemHash_eq, same,
    (systemInput_eq_iff (asRequest (systemMessages body)) body).mpr same]

theorem Family.isUnset {key : String} {system : Value} (family : Family sha256 key system) :
    Bag.isUnset system = false := by
  obtain ⟨systems, rfl, nonempty, -⟩ := family
  cases systems with
  | nil => exact absurd rfl nonempty
  | cons message rest => rfl

/-! ## What a step can do to the bag -/

inductive BagStep (sha256 : List UInt8 → Digest) (calls : CallId → Call) (c : CallId)
    (bag : Bag) : Phase → Bag → Prop where
  | kept {phase} : BagStep sha256 calls c bag phase bag
  | enroll : BagStep sha256 calls c bag .enrolling
      (bag.enroll (keyOf sha256 calls c) (calls c).messages)
  | cached : BagStep sha256 calls c bag (.marking true) (bag.markCached (keyOf sha256 calls c))
  | failed : BagStep sha256 calls c bag (.marking false) (bag.markFailed (keyOf sha256 calls c))

theorem Step.bagStep {action : Action} {l l' : Local} {world world' : World}
    (step : Step sha256 calls c action l world l' world') :
    BagStep sha256 calls c world.bag l.phase world'.bag := by
  cases step with
  | enroll => exact .enroll
  | markCached => exact .cached
  | markFailed => exact .failed
  | _ => exact .kept

/-- Every entry is of the family it is kept under. -/
def BagSound (sha256 : List UInt8 → Digest) (bag : Bag) : Prop :=
  ∀ key entry, bag key = some entry → Family sha256 key entry.system

/-- A call that dances has its entry in the bag. -/
def Phase.dances : Phase → Bool
  | .prefilling | .confirming | .saving _ | .publishing _ | .marking _ => true
  | _ => false

section BagSteps

variable {bag bag' : Bag} {phase : Phase} {key : String} {entry : BagEntry}

theorem BagStep.other (step : BagStep sha256 calls c bag phase bag')
    (other : key ≠ keyOf sha256 calls c) : bag' key = bag key := by
  cases step with
  | kept => rfl
  | enroll | cached => exact Function.update_of_ne other _ _
  | failed =>
      unfold Bag.markFailed
      cases bag (keyOf sha256 calls c) <;> exact Function.update_of_ne other _ _

theorem system_enrolled (sound : BagSound sha256 bag) (found : bag key = some entry)
    (messages : Value) : (bag.enrolled key messages).system = entry.system := by
  simp [Bag.enrolled, found, (sound key entry found).isUnset]

theorem family_enrolled (sound : BagSound sha256 bag) {messages : Value}
    (hashed : systemHash sha256 messages = some key) :
    Family sha256 key (bag.enrolled key messages).system := by
  cases found : bag key with
  | none =>
      have fresh : (bag.enrolled key messages).system = .array (systemMessages messages) := by
        simp [Bag.enrolled, found, Bag.isUnset]
      rw [fresh]
      exact family_systemMessages hashed
  | some entry =>
      rw [system_enrolled sound found]
      exact sound key entry found

/-- Entries are never removed, and keep their prompt. -/
theorem BagStep.keeps (step : BagStep sha256 calls c bag phase bag')
    (sound : BagSound sha256 bag) (found : bag key = some entry) :
    ∃ entry', bag' key = some entry' ∧ entry'.system = entry.system := by
  by_cases own : key = keyOf sha256 calls c
  · subst own
    cases step with
    | kept => exact ⟨entry, found, rfl⟩
    | enroll => exact ⟨_, Function.update_self _ _ _, system_enrolled sound found _⟩
    | cached => exact ⟨{ entry with state := .cached }, by simp [Bag.markCached, found], rfl⟩
    | failed => exact ⟨{ entry with state := .failed }, by simp [Bag.markFailed, found], rfl⟩
  · exact ⟨entry, (step.other own).trans found, rfl⟩

theorem BagStep.sound (step : BagStep sha256 calls c bag phase bag')
    (sound : BagSound sha256 bag)
    (keyed : phase = .enrolling →
      systemHash sha256 (calls c).messages = some (keyOf sha256 calls c))
    (present : phase.dances = true → (bag (keyOf sha256 calls c)).isSome = true) :
    BagSound sha256 bag' := by
  intro key entry' found'
  by_cases own : key = keyOf sha256 calls c
  · cases found : bag key with
    | some entry =>
        obtain ⟨after, held, system⟩ := step.keeps sound found
        obtain rfl := Option.some.inj (held.symm.trans found')
        exact system ▸ sound key entry found
    | none =>
        subst own
        cases step with
        | kept => rw [found] at found'; cases found'
        | enroll =>
            rw [Bag.enroll, Function.update_self] at found'
            obtain rfl := Option.some.inj found'
            exact family_enrolled sound (keyed rfl)
        | cached | failed =>
            have known := present rfl
            rw [found] at known
            cases known
  · rw [step.other own] at found'
    exact sound key entry' found'

/-- An entry becomes cached only by being marked so. -/
theorem BagStep.cached_before (step : BagStep sha256 calls c bag phase bag')
    (cached : bag'.isCached key = true) :
    bag.isCached key = true ∨ (phase = .marking true ∧ key = keyOf sha256 calls c) := by
  by_cases own : key = keyOf sha256 calls c
  · subst own
    cases step with
    | kept => exact .inl cached
    | cached => exact .inr ⟨rfl, rfl⟩
    | enroll =>
        left
        simp only [Bag.isCached, Bag.enroll, Function.update_self, Bag.enrolled] at cached ⊢
        cases found : bag (keyOf sha256 calls c) with
        | none => simp [found] at cached
        | some entry =>
            rw [found] at cached
            cases state : entry.state <;> simp_all
    | failed =>
        exfalso
        unfold Bag.isCached Bag.markFailed at cached
        cases found : bag (keyOf sha256 calls c) <;> simp [found] at cached
  · left
    rwa [Bag.isCached, step.other own] at cached

end BagSteps

/-! ## What a call knows at each await -/

/-- The call is past its first line and has not returned. -/
def Phase.isOpen : Phase → Bool
  | .waiting | .returned _ => false
  | _ => true

def Keyed (sha256 : List UInt8 → Digest) (calls : CallId → Call) (c : CallId) : Prop :=
  systemHash sha256 (calls c).messages = some (keyOf sha256 calls c)

theorem keyed_of_hashed {key : String} (hashed : systemHash sha256 (calls c).messages = some key) :
    Keyed sha256 calls c ∧ keyOf sha256 calls c = key := by
  simp [Keyed, keyOf, hashed]

theorem Step.isOpen {action : Action} {l l' : Local} {world world' : World}
    (step : Step sha256 calls c action l world l' world') (later : l'.phase.isOpen = true) :
    l.phase.isOpen = true ∨ Keyed sha256 calls c := by
  cases step with
  | begin hashed => exact .inr (keyed_of_hashed hashed).1
  | start => exact .inl later
  | finish => exact .inl later
  | evict => exact .inl later
  | beginUnkeyed | turnedAway | restored | notRestored | markCached | markFailed => cases later
  | _ => exact .inl rfl

theorem Step.dances {action : Action} {l l' : Local} {world world' : World}
    (step : Step sha256 calls c action l world l' world') (later : l'.phase.dances = true) :
    l.phase.dances = true ∨ (world'.bag (keyOf sha256 calls c)).isSome = true := by
  cases step with
  | enroll => exact .inr (by simp [Bag.enroll])
  | start => exact .inl later
  | finish => exact .inl later
  | evict => exact .inl later
  | beginUnkeyed | begin | gated | turnedAway | recalled | unknown | load | restored | notRestored
  | markCached | markFailed => cases later
  | _ => exact .inl rfl

/-- Every prefill in the trace is of the key's family. -/
def Prefills (sha256 : List UInt8 → Digest) (key : String) (trace : List Entry) : Prop :=
  ∀ slot system, .prefill slot system ∈ trace → Family sha256 key system

theorem Prefills.append {key : String} {trace entries : List Entry}
    (prefills : Prefills sha256 key trace) (new : Prefills sha256 key entries) :
    Prefills sha256 key (trace ++ entries) := by
  intro slot system member
  rcases List.mem_append.mp member with before | after
  · exact prefills slot system before
  · exact new slot system after

theorem Step.prefills {action : Action} {l l' : Local} {world world' : World}
    (step : Step sha256 calls c action l world l' world') (sound : BagSound sha256 world.bag)
    (keyed : l.phase.isOpen = true → Keyed sha256 calls c)
    (prefills : Prefills sha256 (keyOf sha256 calls c) l.trace) :
    Prefills sha256 (keyOf sha256 calls c) l'.trace := by
  cases step with
  | enroll prompt =>
      apply prefills.append
      intro slot system member
      simp only [List.mem_singleton, Entry.prefill.injEq] at member
      rw [member.2, ← prompt]
      exact family_enrolled sound (keyed rfl)
  | begin | gated | turnedAway | recalled | restored | notRestored | prefilled | notPrefilled
  | confirmed | unconfirmed | saved | notSaved | published =>
      apply prefills.append
      intro slot system member
      simp at member
  | _ => exact prefills

/-- What the trace of a call ends with around its publish. -/
def Announced (scratch blob : String) : Phase → List Entry → Prop
  | .publishing _, trace => ∃ before, trace = before ++ [.publish scratch blob]
  | .marking true, trace =>
      ∃ before, trace = before ++ [.publish scratch blob, .publishReply true]
  | _, _ => True

theorem Step.announced {action : Action} {l l' : Local} {world world' : World}
    (step : Step sha256 calls c action l world l' world')
    (announced : Announced (scratchOf sha256 calls c) (blobOf sha256 calls c) l.phase l.trace) :
    Announced (scratchOf sha256 calls c) (blobOf sha256 calls c) l'.phase l'.trace := by
  cases step with
  | @saved wrote job trace => exact ⟨trace ++ [.saveReply true], by simp⟩
  | @published ok moved job trace =>
      obtain ⟨before, last⟩ := announced
      cases ok with
      | true =>
          refine ⟨before, ?_⟩
          simp only at last ⊢
          rw [last, List.append_assoc]
          rfl
      | false => trivial
  | move => exact announced
  | start => exact announced
  | finish => exact announced
  | evict => exact announced
  | _ => trivial

theorem Step.trace {action : Action} {l l' : Local} {world world' : World}
    (step : Step sha256 calls c action l world l' world') : l.trace <+: l'.trace := by
  cases step with
  | begin | gated | turnedAway | recalled | restored | notRestored | enroll | prefilled
  | notPrefilled | confirmed | unconfirmed | saved | notSaved | published =>
      exact List.prefix_append _ _
  | _ => exact List.prefix_rfl

/-- The call published the family's blob, and the publisher confirmed it. -/
def HasPublished (key : String) (trace : List Entry) : Prop :=
  ∃ scratch, [.publish scratch (seedBlobName key), .publishReply true] <:+: trace

/-- What holds of the bag and of every call's view of it. -/
structure BagInvariant (sha256 : List UInt8 → Digest) (calls : CallId → Call)
    (config : DanceState) : Prop where
  sound : BagSound sha256 config.world.bag
  keyed : ∀ c, (config.locals c).phase.isOpen = true → Keyed sha256 calls c
  present : ∀ c, (config.locals c).phase.dances = true →
    (config.world.bag (keyOf sha256 calls c)).isSome = true
  prefills : ∀ c, Prefills sha256 (keyOf sha256 calls c) (config.locals c).trace
  announced : ∀ c, Announced (scratchOf sha256 calls c) (blobOf sha256 calls c)
    (config.locals c).phase (config.locals c).trace
  published : ∀ key, config.world.bag.isCached key = true →
    ∃ c, HasPublished key (config.locals c).trace

theorem BagInvariant.step {before after : DanceState} {event : CallId × Action}
    (holds : BagInvariant sha256 calls before)
    (moved : (dance sha256 calls .empty).machine.step before event = some after) :
    BagInvariant sha256 calls after := by
  obtain ⟨c, action⟩ := event
  obtain ⟨step, others⟩ := step_of_moved moved
  have bagStep := step.bagStep
  have traces : ∀ name, (before.locals name).trace <+: (after.locals name).trace := by
    intro name
    by_cases own : name = c
    · exact own ▸ step.trace
    · rw [others name own]
  constructor
  · exact bagStep.sound holds.sound (fun enrolling => holds.keyed c (by rw [enrolling]; rfl))
      (holds.present c)
  · intro name later
    by_cases own : name = c
    · subst own
      rcases step.isOpen later with earlier | keyed
      · exact holds.keyed name earlier
      · exact keyed
    · rw [others name own] at later
      exact holds.keyed name later
  · intro name later
    have kept : (before.world.bag (keyOf sha256 calls name)).isSome = true →
        (after.world.bag (keyOf sha256 calls name)).isSome = true := by
      intro known
      obtain ⟨entry, found⟩ := Option.isSome_iff_exists.mp known
      obtain ⟨entry', found', -⟩ := bagStep.keeps holds.sound found
      rw [found']
      rfl
    by_cases own : name = c
    · subst own
      rcases step.dances later with earlier | known
      · exact kept (holds.present name earlier)
      · exact known
    · rw [others name own] at later
      exact kept (holds.present name later)
  · intro name
    by_cases own : name = c
    · subst own
      exact step.prefills holds.sound (holds.keyed name) (holds.prefills name)
    · rw [others name own]
      exact holds.prefills name
  · intro name
    by_cases own : name = c
    · subst own
      exact step.announced (holds.announced name)
    · rw [others name own]
      exact holds.announced name
  · intro key cached
    rcases bagStep.cached_before cached with earlier | ⟨marking, rfl⟩
    · obtain ⟨name, scratch, published⟩ := holds.published key earlier
      exact ⟨name, scratch, published.trans (traces name).isInfix⟩
    · have announced := holds.announced c
      rw [marking] at announced
      obtain ⟨front, last⟩ := announced
      refine ⟨c, scratchOf sha256 calls c, List.IsInfix.trans ?_ (traces c).isInfix⟩
      exact ⟨front, [], by rw [List.append_nil]; exact last.symm⟩

theorem bagInvariant_of_reachable {config : DanceState}
    (reached : (dance sha256 calls .empty).machine.Reachable config) :
    BagInvariant sha256 calls config := by
  refine reached.invariant (BagInvariant sha256 calls) ?_ ?_
  · rintro config ⟨fresh, started⟩
    have empty : config.world.bag = Bag.empty := fresh.bag
    constructor
    · intro key entry found
      rw [empty] at found
      cases found
    · intro c isOpen
      rw [started] at isOpen
      cases isOpen
    · intro c dances
      rw [started] at dances
      cases dances
    · intro c slot system member
      rw [started] at member
      cases member
    · intro c
      rw [started]
      trivial
    · intro key cached
      rw [empty] at cached
      cases cached
  · intro before event after holds _ moved
    exact holds.step moved

/-- The bag under any interleaving: entries are of their families and stay, cached families were
published, prefills are of the caller's family, and no entry is made up for a failure. -/
theorem bag_keeps_families (sha256 : List UInt8 → Digest) (calls : CallId → Call) :
    (∀ config, (dance sha256 calls .empty).machine.Reachable config →
      (∀ key entry, config.world.bag key = some entry →
        Family sha256 key entry.system ∧
          (entry.state = .cached → ∃ c, HasPublished key (config.locals c).trace)) ∧
      (∀ c key, systemHash sha256 (calls c).messages = some key →
        ∀ slot system, .prefill slot system ∈ (config.locals c).trace →
          Family sha256 key system) ∧
      ∀ c, (config.locals c).phase = .marking false →
        config.world.bag (keyOf sha256 calls c) ≠ none) ∧
    ∀ before event after, (dance sha256 calls .empty).machine.Reachable before →
      (dance sha256 calls .empty).machine.step before event = some after →
      ∀ key entry, before.world.bag key = some entry →
        ∃ entry', after.world.bag key = some entry' ∧ entry'.system = entry.system := by
  constructor
  · intro config reached
    have holds := bagInvariant_of_reachable reached
    refine ⟨fun key entry found => ⟨holds.sound key entry found, fun state => ?_⟩, ?_, ?_⟩
    · apply holds.published
      simp [Bag.isCached, found, state]
    · intro c key hashed
      obtain ⟨-, rfl⟩ := keyed_of_hashed hashed
      exact holds.prefills c
    · intro c marking
      have known := holds.present c (by rw [marking]; rfl)
      exact Option.isSome_iff_ne_none.mp known
  · rintro before ⟨c, action⟩ after reached moved key entry found
    obtain ⟨step, -⟩ := step_of_moved moved
    exact step.bagStep.keeps (bagInvariant_of_reachable reached).sound found

end Ollm.Seed
