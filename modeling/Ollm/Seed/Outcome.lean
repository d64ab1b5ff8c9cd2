import Ollm.Seed.Prepare
import Ollm.Seed.Protocol

/-!
# What a result tells

What the backend and the publisher would answer determines the result of `prepare`,
and the result determines what the call issued, how far it got, and what it made of
the bag.  Only the entry of its own family is ever touched, and only a publish makes
it cached.
-/

namespace Ollm.Seed

open Json Keying
open Proxy (SlotId SlotState)
open Store (seedBlobName)

universe u

/-- `SeedDance::state`. -/
def Bag.state (bag : Bag) (key : String) : Option BagState :=
  (bag key).map (·.state)

section State

variable (bag : Bag) (key : String) (messages : Value)

theorem isCached_iff : bag.isCached key = true ↔ bag.state key = some .cached := by
  unfold Bag.isCached Bag.state
  cases bag key with
  | none => simp
  | some entry => simp

theorem state_markCached_enroll :
    ((bag.enroll key messages).markCached key).state key = some .cached := by
  simp [Bag.state, Bag.markCached, Bag.enroll]

theorem state_markFailed_enroll :
    ((bag.enroll key messages).markFailed key).state key = some .failed := by
  simp [Bag.state, Bag.markFailed, Bag.enroll]

theorem markCached_enroll_other {other : String} (distinct : other ≠ key) :
    (bag.enroll key messages).markCached key other = bag other := by
  simp [Bag.markCached, Bag.enroll, distinct]

theorem markFailed_enroll_other {other : String} (distinct : other ≠ key) :
    (bag.enroll key messages).markFailed key other = bag other := by
  simp [Bag.markFailed, Bag.enroll, distinct]

end State

/-! ## What is answered -/

/-- From the given state on the backend and the publisher let every step of the dance
succeed: the prefill, the confirmation of its position, the save and the publish. -/
def Succeeds {σ : Type u} (backend : Backend σ) (publisher : Publisher σ) (slot : SlotId)
    (key : String) (system : Value) (s : σ) : Prop :=
  let prefill := backend.prefillOnly slot system s
  let confirmation := backend.slots prefill.2
  let save := backend.saveSlot slot (scratchName (seedBlobName key)) confirmation.2
  let publish := publisher.publish (scratchName (seedBlobName key)) (seedBlobName key) save.2
  prefill.1 = true ∧ isLanded slot confirmation.1 = true ∧ save.1 = true ∧ publish.1 = true

theorem runDance_iff {σ : Type u} (backend : Backend σ) (publisher : Publisher σ)
    (slot : SlotId) (key : String) (system : Value) (s : σ) :
    (runDance backend publisher slot key system s).1 = true ↔
      Succeeds backend publisher slot key system s := by
  simp only [runDance, Succeeds]
  split_ifs with prefilled landed saved <;> simp [*]

/-! ## What a log shows -/

/-- Right after the prefill, a report confirmed its position. -/
def Confirmed (slot : SlotId) (log : List Entry) : Prop :=
  ∃ before reply after,
    log = before ++ .prefillReply true :: .slots :: .slotsReply reply :: after ∧
      isLanded slot reply = true

/-- Every step of the dance succeeded. -/
structure GotThrough (slot : SlotId) (log : List Entry) : Prop where
  prefilled : .prefillReply true ∈ log
  confirmed : Confirmed slot log
  saved : .saveReply true ∈ log
  published : .publishReply true ∈ log

/-- Nothing was asked for but reports. -/
structure OnlyReports (log : List Entry) : Prop where
  restores : Never Entry.isRestore log
  prefills : Never Entry.isPrefill log
  saves : Never Entry.isSave log
  publishes : Never Entry.isPublish log

/-- The family's key, when the gate lets a call in. -/
def LetIn (sha256 : List UInt8 → Digest) (slot : SlotId) (messages : Value)
    (reply : Option (List SlotState)) (key : String) : Prop :=
  systemHash sha256 messages = some key ∧ isIdle slot reply = true

/-- Answers, result, requests and bag agree on what a call on the given bag did. -/
structure Determined {σ : Type u} (sha256 : List UInt8 → Digest) (backend : Backend σ)
    (publisher : Publisher σ) (slot : SlotId) (messages : Value) (bag : Bag) (s : σ)
    (turn : Turn) : Prop where
  refused : turn.result = .skipped ↔
    ∀ key, ¬ LetIn sha256 slot messages (backend.slots s).1 key
  skipped : turn.result = .skipped → turn.bag = bag ∧ OnlyReports turn.log
  recalled : turn.result = .restored ∨ turn.result = .coldPrefill ↔
    ∃ key, LetIn sha256 slot messages (backend.slots s).1 key ∧ bag.state key = some .cached
  recalledBag : turn.result = .restored ∨ turn.result = .coldPrefill → turn.bag = bag
  /-- A cached family is asked for, and nothing else. -/
  restores : ∀ key, LetIn sha256 slot messages (backend.slots s).1 key →
    bag.state key = some .cached → turn.log = [.slots, .slotsReply (backend.slots s).1,
      .restore slot (seedBlobName key), .restoreReply (turn.result == .restored)]
  /-- Any other family is danced for. -/
  dances : ∀ key, LetIn sha256 slot messages (backend.slots s).1 key →
    bag.state key ≠ some .cached → ∃ rest, turn.log = .slots ::
      .slotsReply (backend.slots s).1 :: .prefill slot (bag.enrolled key messages).system :: rest
  succeeds : turn.result = .seeded ↔
    ∃ key, LetIn sha256 slot messages (backend.slots s).1 key ∧ bag.state key ≠ some .cached ∧
      Succeeds backend publisher slot key (bag.enrolled key messages).system (backend.slots s).2
  seeded : turn.result = .seeded ↔ GotThrough slot turn.log
  seededBag : turn.result = .seeded →
    ∃ key, systemHash sha256 messages = some key ∧ turn.bag.state key = some .cached
  failed : turn.result = .failed → .publishReply true ∉ turn.log ∧
    ∃ key, systemHash sha256 messages = some key ∧ turn.bag.state key = some .failed
  others : ∀ key, systemHash sha256 messages ≠ some key → turn.bag key = bag key
  cached : ∀ key, systemHash sha256 messages = some key → turn.bag.state key = some .cached →
    bag.state key = some .cached ∨ .publishReply true ∈ turn.log

section Outcomes

variable {sha256 : List UInt8 → Digest} {slot : SlotId} {messages : Value} {bag : Bag}
  {reply : Option (List SlotState)}

theorem LetIn.key_eq {key other : String} (letIn : LetIn sha256 slot messages reply key)
    (hashed : systemHash sha256 messages = some other) : other = key :=
  Option.some.inj (hashed.symm.trans letIn.1)

theorem Danced.unpublished {name : String} {system : Value} {log : List Entry}
    (danced : Danced slot name system false log) : .publishReply true ∉ log := by
  cases danced <;> simp

/-- Only a dance all of whose steps succeeded gets through. -/
theorem Danced.gotThrough_iff {name : String} {system : Value} {ok : Bool} {log : List Entry}
    (danced : Danced slot name system ok log) (reply : Option (List SlotState)) :
    GotThrough slot (.slots :: .slotsReply reply :: log) ↔ ok = true := by
  constructor
  · intro through
    cases ok with
    | true => rfl
    | false =>
        apply absurd through.published
        simpa using danced.unpublished
  · intro passed
    subst passed
    cases danced with
    | @published confirmation _ landed =>
        refine ⟨by simp, ?_, by simp, by simp⟩
        exact ⟨[.slots, .slotsReply reply, .prefill slot system], confirmation, _, rfl, landed⟩

theorem Prepared.skipped {turn : Turn} (prepared : Prepared sha256 slot messages bag reply turn)
    (skipped : turn.result = .skipped) : turn.bag = bag ∧ OnlyReports turn.log := by
  cases prepared with
  | unkeyed => exact ⟨rfl, by constructor <;> simp [Never]⟩
  | turnedAway =>
      refine ⟨rfl, ?_⟩
      constructor <;> simp [Never, Entry.isRestore, Entry.isPrefill, Entry.isSave, Entry.isPublish]
  | @recalled _ ok => cases ok <;> cases skipped
  | @danced _ ok => cases ok <;> cases skipped

theorem FirstSight.state {key : String} (first : FirstSight sha256 slot messages bag key reply) :
    bag.state key ≠ some .cached := by
  rw [ne_eq, ← isCached_iff, first.unknown]
  exact Bool.false_ne_true

/-- A call is turned away if and only if it has no key or its slot is not reported idle. -/
theorem Prepared.skipped_iff {turn : Turn}
    (prepared : Prepared sha256 slot messages bag reply turn) :
    turn.result = .skipped ↔ ∀ key, ¬ LetIn sha256 slot messages reply key := by
  cases prepared with
  | unkeyed unkeyed => simp [LetIn, unkeyed]
  | turnedAway hashed busy => simp [LetIn, busy]
  | @recalled key ok hashed idle => cases ok <;> simp [LetIn, hashed, idle]
  | @danced key ok log first => cases ok <;> simp [LetIn, first.hashed, first.idle]

/-- A call recalls its family if and only if it is let in and finds the family cached. -/
theorem Prepared.recalled_iff {turn : Turn}
    (prepared : Prepared sha256 slot messages bag reply turn) :
    turn.result = .restored ∨ turn.result = .coldPrefill ↔
      ∃ key, LetIn sha256 slot messages reply key ∧ bag.state key = some .cached := by
  cases prepared with
  | unkeyed unkeyed => simp [LetIn, unkeyed]
  | turnedAway hashed busy => simp [LetIn, busy]
  | @recalled key ok hashed idle cached =>
      have known : bag.state key = some .cached := (isCached_iff bag key).mp cached
      cases ok <;> simp [LetIn, idle, hashed, known]
  | @danced key ok log first danced =>
      cases ok <;> simp [LetIn, first.hashed, first.state]

theorem Prepared.restores {turn : Turn}
    (prepared : Prepared sha256 slot messages bag reply turn) {key : String}
    (letIn : LetIn sha256 slot messages reply key) (cached : bag.state key = some .cached) :
    turn.log = [.slots, .slotsReply reply, .restore slot (seedBlobName key),
      .restoreReply (turn.result == .restored)] := by
  cases prepared with
  | unkeyed unkeyed => cases unkeyed.symm.trans letIn.1
  | turnedAway _ busy => cases busy.symm.trans letIn.2
  | @recalled own ok hashed =>
      obtain rfl := letIn.key_eq hashed
      cases ok <;> rfl
  | @danced own _ _ first =>
      obtain rfl := letIn.key_eq first.hashed
      exact absurd cached first.state

theorem Prepared.recalled_bag {turn : Turn}
    (prepared : Prepared sha256 slot messages bag reply turn)
    (recalled : turn.result = .restored ∨ turn.result = .coldPrefill) : turn.bag = bag := by
  cases prepared with
  | @danced _ ok => cases ok <;> simp at recalled
  | _ => rfl

theorem Prepared.seeded_iff {turn : Turn}
    (prepared : Prepared sha256 slot messages bag reply turn) :
    turn.result = .seeded ↔ GotThrough slot turn.log := by
  cases prepared with
  | @danced key ok log first danced =>
      rw [danced.gotThrough_iff reply]
      cases ok <;> simp
  | @recalled _ ok =>
      constructor
      · intro seeded
        cases ok <;> cases seeded
      · intro through
        simpa using through.published
  | _ =>
      constructor
      · intro seeded
        cases seeded
      · intro through
        simpa using through.published

theorem Prepared.seeded_bag {turn : Turn} (prepared : Prepared sha256 slot messages bag reply turn)
    (seeded : turn.result = .seeded) :
    ∃ key, systemHash sha256 messages = some key ∧ turn.bag.state key = some .cached := by
  cases prepared with
  | @danced key ok _ first =>
      cases ok with
      | true => exact ⟨key, first.hashed, state_markCached_enroll bag key messages⟩
      | false => cases seeded
  | @recalled _ ok => cases ok <;> cases seeded
  | _ => cases seeded

theorem Prepared.failed {turn : Turn} (prepared : Prepared sha256 slot messages bag reply turn)
    (failed : turn.result = .failed) : .publishReply true ∉ turn.log ∧
      ∃ key, systemHash sha256 messages = some key ∧ turn.bag.state key = some .failed := by
  cases prepared with
  | @danced key ok _ first danced =>
      cases ok with
      | true => cases failed
      | false =>
          refine ⟨?_, key, first.hashed, state_markFailed_enroll bag key messages⟩
          simpa using danced.unpublished
  | @recalled _ ok => cases ok <;> cases failed
  | _ => cases failed

theorem Prepared.others {turn : Turn} (prepared : Prepared sha256 slot messages bag reply turn)
    {other : String} (distinct : systemHash sha256 messages ≠ some other) :
    turn.bag other = bag other := by
  cases prepared with
  | @danced key ok _ first =>
      have apart : other ≠ key := by
        intro same
        exact distinct (same ▸ first.hashed)
      cases ok with
      | true => exact markCached_enroll_other bag key messages apart
      | false => exact markFailed_enroll_other bag key messages apart
  | _ => rfl

theorem Prepared.cached {turn : Turn} (prepared : Prepared sha256 slot messages bag reply turn)
    {key : String} (hashed : systemHash sha256 messages = some key)
    (cached : turn.bag.state key = some .cached) :
    bag.state key = some .cached ∨ .publishReply true ∈ turn.log := by
  cases prepared with
  | @danced own ok _ first danced =>
      obtain rfl : own = key := Option.some.inj (first.hashed.symm.trans hashed)
      cases ok with
      | true =>
          right
          exact ((danced.gotThrough_iff reply).mpr rfl).published
      | false =>
          have failed := state_markFailed_enroll bag own messages
          exact absurd (cached.symm.trans failed) (by simp)
  | _ =>
      left
      exact cached

/-- A call that is let in and does not find its family cached begins with a prefill. -/
theorem Prepared.dances {turn : Turn} (prepared : Prepared sha256 slot messages bag reply turn)
    {key : String} (letIn : LetIn sha256 slot messages reply key)
    (unknown : bag.state key ≠ some .cached) :
    ∃ rest, turn.log = .slots :: .slotsReply reply ::
      .prefill slot (bag.enrolled key messages).system :: rest := by
  cases prepared with
  | unkeyed unkeyed => cases unkeyed.symm.trans letIn.1
  | turnedAway _ busy => cases busy.symm.trans letIn.2
  | @recalled own _ hashed _ cached =>
      obtain rfl := letIn.key_eq hashed
      exact absurd ((isCached_iff bag own).mp cached) unknown
  | @danced own _ _ first danced =>
      obtain rfl := letIn.key_eq first.hashed
      cases danced <;> exact ⟨_, rfl⟩

end Outcomes

section Turns

variable {σ : Type u} (sha256 : List UInt8 → Digest) (backend : Backend σ)
  (publisher : Publisher σ) (slot : SlotId) (messages : Value) (bag : Bag) (s : σ)

/-- A call seeds its family if and only if every step of the dance is answered with success. -/
theorem seeded_iff_succeeds :
    (prepareTurn sha256 backend publisher slot messages bag s).result = .seeded ↔
      ∃ key, LetIn sha256 slot messages (backend.slots s).1 key ∧ bag.state key ≠ some .cached ∧
        Succeeds backend publisher slot key (bag.enrolled key messages).system
          (backend.slots s).2 := by
  rw [(prepareTurn_eq_prepare sha256 backend publisher slot messages bag s).1]
  unfold prepare
  cases hashed : systemHash sha256 messages with
  | none => simp [LetIn, hashed]
  | some key =>
      rcases backend.slots s with ⟨reply, s₁⟩
      cases idle : isIdle slot reply with
      | false => simp [LetIn, idle]
      | true =>
          cases cached : bag.isCached key with
          | true =>
              have known : bag.state key = some .cached := (isCached_iff bag key).mp cached
              cases restored : (backend.restoreSlot slot (seedBlobName key) s₁).1 <;>
                simp [LetIn, hashed, idle, cached, known, restored]
          | false =>
              have unknown := FirstSight.state ⟨hashed, idle, cached⟩
              have dance := runDance_iff backend publisher slot key
                (bag.enrolled key messages).system s₁
              cases ran : (runDance backend publisher slot key
                (bag.enrolled key messages).system s₁).1 <;>
                simp [LetIn, hashed, idle, cached, unknown, ran, ← dance]

theorem determined_prepareTurn :
    Determined sha256 backend publisher slot messages bag s
      (prepareTurn sha256 backend publisher slot messages bag s) := by
  have prepared := prepared_prepareTurn sha256 backend publisher slot messages bag s
  exact {
    refused := prepared.skipped_iff
    skipped := prepared.skipped
    recalled := prepared.recalled_iff
    recalledBag := prepared.recalled_bag
    restores := fun _ => prepared.restores
    dances := fun _ => prepared.dances
    succeeds := seeded_iff_succeeds sha256 backend publisher slot messages bag s
    seeded := prepared.seeded_iff
    seededBag := prepared.seeded_bag
    failed := prepared.failed
    others := fun _ => prepared.others
    cached := fun _ => prepared.cached }

end Turns

/-- On any bag and whatever the backend and the publisher answer, the answers determine the result
of a call and the result tells its effect, and a family that a call failed on is danced for again
by the next call that the backend's report lets in. -/
theorem prepare_determines_effect {σ τ : Type u} (sha256 : List UInt8 → Digest)
    (backend : Backend σ) (publisher : Publisher σ) (slot : SlotId) (messages : Value) (bag : Bag)
    (s : σ) :
    Determined sha256 backend publisher slot messages bag s
      (prepareTurn sha256 backend publisher slot messages bag s) ∧
    ((prepareTurn sha256 backend publisher slot messages bag s).result = .failed →
      ∃ key, systemHash sha256 messages = some key ∧
      ∀ (backend' : Backend τ) (publisher' : Publisher τ) (slot' : SlotId) (messages' : Value)
        (t : τ), LetIn sha256 slot' messages' (backend'.slots t).1 key →
      ∃ system rest, (prepareTurn sha256 backend' publisher' slot' messages'
          (prepareTurn sha256 backend publisher slot messages bag s).bag t).log =
        .slots :: .slotsReply (backend'.slots t).1 :: .prefill slot' system :: rest) := by
  have determined := determined_prepareTurn sha256 backend publisher slot messages bag s
  refine ⟨determined, fun failed => ?_⟩
  obtain ⟨-, key, hashed, state⟩ := determined.failed failed
  refine ⟨key, hashed, fun backend' publisher' slot' messages' t letIn => ?_⟩
  have unknown : (prepareTurn sha256 backend publisher slot messages bag s).bag.state key ≠
      some .cached := by
    rw [state]
    simp
  exact ⟨_, (determined_prepareTurn sha256 backend' publisher' slot' messages' _ t).dances key
    letIn unknown⟩

end Ollm.Seed
