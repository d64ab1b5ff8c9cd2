import Ollm.Seed.Steps

/-!
# One preparation

`prepare` as it runs when nothing comes between its awaits: a function of the
bag and of what the backend and the publisher answer.  `Prepared` lists its
outcomes with what each of them issued, and every outcome is one that a call of
the dance reaches alone.
-/

namespace Ollm.Seed

open Json Keying
open Proxy (SlotId SlotState)
open Store (CallId seedBlobName)

universe u

variable {σ : Type u}

/-- The requests of the dance to the backend, and the state it keeps of them.
An answer is `none` or `false` where the source has an error. -/
structure Backend (σ : Type u) where
  slots : σ → Option (List SlotState) × σ
  prefillOnly (slot : SlotId) (messages : Value) : σ → Bool × σ
  saveSlot (slot : SlotId) (name : String) : σ → Bool × σ
  restoreSlot (slot : SlotId) (name : String) : σ → Bool × σ

structure Publisher (σ : Type u) where
  publish (scratch name : String) : σ → Bool × σ

section Prepare

variable (sha256 : List UInt8 → Digest) (backend : Backend σ) (publisher : Publisher σ)

/-- The dance: prefill only, confirm position and idle, save to scratch, then publish. -/
def runDance (slot : SlotId) (key : String) (system : Value) (s : σ) : Bool × σ :=
  let (prefilled, s) := backend.prefillOnly slot system s
  if prefilled then
    let (reply, s) := backend.slots s
    if isLanded slot reply then
      let name := seedBlobName key
      let scratch := scratchName name
      let (saved, s) := backend.saveSlot slot scratch s
      if saved then publisher.publish scratch name s else (false, s)
    else (false, s)
  else (false, s)

/-- `SeedDance::prepare`.  Wherever the dance stops early, the family is marked failed. -/
def prepare (slot : SlotId) (messages : Value) (bag : Bag) (s : σ) : SeedResult × Bag × σ :=
  match systemHash sha256 messages with
  | none => (.skipped, bag, s)
  | some key =>
      let (reply, s) := backend.slots s
      if isIdle slot reply then
        if bag.isCached key then
          let (ok, s) := backend.restoreSlot slot (seedBlobName key) s
          (if ok then .restored else .coldPrefill, bag, s)
        else
          let system := (bag.enrolled key messages).system
          let bag := bag.enroll key messages
          let (ok, s) := runDance backend publisher slot key system s
          if ok then (.seeded, bag.markCached key, s) else (.failed, bag.markFailed key, s)
      else (.skipped, bag, s)

end Prepare

/-! ## Logs -/

/-- The backend, with a log of what it is asked and what it answers. -/
def Backend.logged (backend : Backend σ) : Backend (σ × List Entry) where
  slots := fun (s, log) =>
    let (reply, s) := backend.slots s
    (reply, s, log ++ [.slots, .slotsReply reply])
  prefillOnly slot messages := fun (s, log) =>
    let (ok, s) := backend.prefillOnly slot messages s
    (ok, s, log ++ [.prefill slot messages, .prefillReply ok])
  saveSlot slot name := fun (s, log) =>
    let (ok, s) := backend.saveSlot slot name s
    (ok, s, log ++ [.save slot name, .saveReply ok])
  restoreSlot slot name := fun (s, log) =>
    let (ok, s) := backend.restoreSlot slot name s
    (ok, s, log ++ [.restore slot name, .restoreReply ok])

def Publisher.logged (publisher : Publisher σ) : Publisher (σ × List Entry) where
  publish scratch name := fun (s, log) =>
    let (ok, s) := publisher.publish scratch name s
    (ok, s, log ++ [.publish scratch name, .publishReply ok])

section Logged

variable (backend : Backend σ) (publisher : Publisher σ) (slot : SlotId) (s : σ)
  (log : List Entry)

@[simp]
theorem Backend.logged_slots :
    backend.logged.slots (s, log) =
      ((backend.slots s).1, (backend.slots s).2,
        log ++ [.slots, .slotsReply (backend.slots s).1]) := rfl

@[simp]
theorem Backend.logged_prefillOnly (messages : Value) :
    backend.logged.prefillOnly slot messages (s, log) =
      ((backend.prefillOnly slot messages s).1, (backend.prefillOnly slot messages s).2,
        log ++ [.prefill slot messages, .prefillReply (backend.prefillOnly slot messages s).1]) :=
  rfl

@[simp]
theorem Backend.logged_saveSlot (name : String) :
    backend.logged.saveSlot slot name (s, log) =
      ((backend.saveSlot slot name s).1, (backend.saveSlot slot name s).2,
        log ++ [.save slot name, .saveReply (backend.saveSlot slot name s).1]) := rfl

@[simp]
theorem Backend.logged_restoreSlot (name : String) :
    backend.logged.restoreSlot slot name (s, log) =
      ((backend.restoreSlot slot name s).1, (backend.restoreSlot slot name s).2,
        log ++ [.restore slot name, .restoreReply (backend.restoreSlot slot name s).1]) := rfl

@[simp]
theorem Publisher.logged_publish (scratch name : String) :
    publisher.logged.publish scratch name (s, log) =
      ((publisher.publish scratch name s).1, (publisher.publish scratch name s).2,
        log ++ [.publish scratch name, .publishReply (publisher.publish scratch name s).1]) := rfl

end Logged

/-- What one call did: its result, the bag it leaves, and the log of its requests. -/
structure Turn where
  result : SeedResult
  bag : Bag
  log : List Entry

/-- One call, with its log. -/
def prepareTurn (sha256 : List UInt8 → Digest) (backend : Backend σ) (publisher : Publisher σ)
    (slot : SlotId) (messages : Value) (bag : Bag) (s : σ) : Turn :=
  let (result, bag', _, log) :=
    prepare sha256 backend.logged publisher.logged slot messages bag (s, [])
  ⟨result, bag', log⟩

/-! ## Outcomes -/

/-- What a dance on the slot issues for the blob `name`, and whether it got through. -/
inductive Danced (slot : SlotId) (name : String) (system : Value) : Bool → List Entry → Prop where
  | notPrefilled :
      Danced slot name system false [.prefill slot system, .prefillReply false]
  | unconfirmed {reply} (astray : isLanded slot reply = false) :
      Danced slot name system false
        [.prefill slot system, .prefillReply true, .slots, .slotsReply reply]
  | notSaved {reply} (landed : isLanded slot reply = true) :
      Danced slot name system false
        [.prefill slot system, .prefillReply true, .slots, .slotsReply reply,
          .save slot (scratchName name), .saveReply false]
  | published {reply ok} (landed : isLanded slot reply = true) :
      Danced slot name system ok
        [.prefill slot system, .prefillReply true, .slots, .slotsReply reply,
          .save slot (scratchName name), .saveReply true,
          .publish (scratchName name) name, .publishReply ok]

section Outcomes

variable (sha256 : List UInt8 → Digest) (slot : SlotId) (messages : Value) (bag : Bag)

/-- The call finds its slot idle and its family not cached. -/
structure FirstSight (key : String) (reply : Option (List SlotState)) : Prop where
  hashed : systemHash sha256 messages = some key
  idle : isIdle slot reply = true
  unknown : bag.isCached key = false

/-- The outcomes of a call on the given bag, by the report that the gate gets. -/
inductive Prepared (reply : Option (List SlotState)) : Turn → Prop where
  | unkeyed (unkeyed : systemHash sha256 messages = none) : Prepared reply ⟨.skipped, bag, []⟩
  | turnedAway {key} (hashed : systemHash sha256 messages = some key)
      (busy : isIdle slot reply = false) :
      Prepared reply ⟨.skipped, bag, [.slots, .slotsReply reply]⟩
  | recalled {key ok} (hashed : systemHash sha256 messages = some key)
      (idle : isIdle slot reply = true) (cached : bag.isCached key = true) :
      Prepared reply ⟨if ok then .restored else .coldPrefill, bag,
        [.slots, .slotsReply reply, .restore slot (seedBlobName key), .restoreReply ok]⟩
  | danced {key ok log} (first : FirstSight sha256 slot messages bag key reply)
      (danced : Danced slot (seedBlobName key) (bag.enrolled key messages).system ok log) :
      Prepared reply ⟨if ok then .seeded else .failed,
        if ok then (bag.enroll key messages).markCached key
          else (bag.enroll key messages).markFailed key,
        .slots :: .slotsReply reply :: log⟩

end Outcomes

section Runs

variable (sha256 : List UInt8 → Digest) (backend : Backend σ) (publisher : Publisher σ)
  (slot : SlotId) (messages : Value) (bag : Bag) (s : σ)

theorem danced_runDance (key : String) (system : Value) (past : List Entry) :
    ∃ ok s' log, runDance backend publisher slot key system s = (ok, s') ∧
      runDance backend.logged publisher.logged slot key system (s, past) =
        (ok, s', past ++ log) ∧
      Danced slot (seedBlobName key) system ok log := by
  rcases prefilled : backend.prefillOnly slot system s with ⟨_ | _, s₁⟩
  · exact ⟨false, s₁, _, by simp [runDance, prefilled], by simp [runDance, prefilled],
      .notPrefilled⟩
  rcases answered : backend.slots s₁ with ⟨reply, s₂⟩
  cases landed : isLanded slot reply with
  | false =>
      exact ⟨false, s₂, _, by simp [runDance, prefilled, answered, landed],
        by simp [runDance, prefilled, answered, landed], .unconfirmed landed⟩
  | true =>
      rcases saved : backend.saveSlot slot (scratchName (seedBlobName key)) s₂ with ⟨_ | _, s₃⟩
      · exact ⟨false, s₃, _, by simp [runDance, prefilled, answered, landed, saved],
          by simp [runDance, prefilled, answered, landed, saved], .notSaved landed⟩
      · rcases published : publisher.publish (scratchName (seedBlobName key)) (seedBlobName key) s₃
          with ⟨ok, s₄⟩
        exact ⟨ok, s₄, _, by simp [runDance, prefilled, answered, landed, saved, published],
          by simp [runDance, prefilled, answered, landed, saved, published], .published landed⟩

/-- Whatever the backend and the publisher answer, the call ends in a listed outcome, and
keeping the log changes nothing else. -/
theorem prepared_logged :
    ∃ result bag' s' log,
      prepare sha256 backend publisher slot messages bag s = (result, bag', s') ∧
      prepare sha256 backend.logged publisher.logged slot messages bag (s, []) =
        (result, bag', s', log) ∧
      Prepared sha256 slot messages bag (backend.slots s).1 ⟨result, bag', log⟩ := by
  cases hashed : systemHash sha256 messages with
  | none =>
      exact ⟨_, _, s, _, by simp [prepare, hashed], by simp [prepare, hashed], .unkeyed hashed⟩
  | some key =>
      rcases answered : backend.slots s with ⟨reply, s₁⟩
      simp only
      cases idle : isIdle slot reply with
      | false =>
          exact ⟨_, _, s₁, _, by simp [prepare, hashed, answered, idle],
            by simp [prepare, hashed, answered, idle], .turnedAway hashed idle⟩
      | true =>
          cases cached : bag.isCached key with
          | true =>
              rcases restored : backend.restoreSlot slot (seedBlobName key) s₁ with ⟨ok, s₂⟩
              exact ⟨_, _, s₂, _, by simp [prepare, hashed, answered, idle, cached, restored],
                by simp [prepare, hashed, answered, idle, cached, restored],
                @Prepared.recalled _ _ _ _ _ _ ok hashed idle cached⟩
          | false =>
              obtain ⟨ok, s', log, ran, logged, danced⟩ := danced_runDance backend publisher slot
                s₁ key (bag.enrolled key messages).system [.slots, .slotsReply reply]
              have outcome := Prepared.danced ⟨hashed, idle, cached⟩ danced
              cases ok with
              | true =>
                  exact ⟨_, _, s', _, by simp [prepare, hashed, answered, idle, cached, ran],
                    by simp [prepare, hashed, answered, idle, cached, logged], outcome⟩
              | false =>
                  exact ⟨_, _, s', _, by simp [prepare, hashed, answered, idle, cached, ran],
                    by simp [prepare, hashed, answered, idle, cached, logged], outcome⟩

theorem prepared_prepareTurn :
    Prepared sha256 slot messages bag (backend.slots s).1
      (prepareTurn sha256 backend publisher slot messages bag s) := by
  obtain ⟨result, bag', s', log, -, ran, prepared⟩ :=
    prepared_logged sha256 backend publisher slot messages bag s
  rw [prepareTurn, ran]
  exact prepared

/-- The log is a record only. -/
theorem prepareTurn_eq_prepare :
    (prepareTurn sha256 backend publisher slot messages bag s).result =
        (prepare sha256 backend publisher slot messages bag s).1 ∧
      (prepareTurn sha256 backend publisher slot messages bag s).bag =
        (prepare sha256 backend publisher slot messages bag s).2.1 := by
  obtain ⟨result, bag', s', log, plain, ran, -⟩ :=
    prepared_logged sha256 backend publisher slot messages bag s
  rw [prepareTurn, ran, plain]
  exact ⟨rfl, rfl⟩

end Runs

/-! ## Alone in the dance -/

section Alone

variable {sha256 : List UInt8 → Digest} {calls : CallId → Call} {c : CallId}

/-- How far a call alone has come from the given bag: its await, the bag and its trace. -/
inductive Underway (sha256 : List UInt8 → Digest) (slot : SlotId) (messages : Value)
    (start : Bag) : Phase → Bag → List Entry → Prop where
  | waiting : Underway sha256 slot messages start .waiting start []
  | gating {key} (hashed : systemHash sha256 messages = some key) :
      Underway sha256 slot messages start .gating start [.slots]
  | recalling {key reply} (hashed : systemHash sha256 messages = some key)
      (idle : isIdle slot reply = true) :
      Underway sha256 slot messages start .recalling start [.slots, .slotsReply reply]
  | restoring {key reply loaded} (hashed : systemHash sha256 messages = some key)
      (idle : isIdle slot reply = true) (cached : start.isCached key = true) :
      Underway sha256 slot messages start (.restoring loaded) start
        [.slots, .slotsReply reply, .restore slot (seedBlobName key)]
  | enrolling {key reply} (first : FirstSight sha256 slot messages start key reply) :
      Underway sha256 slot messages start .enrolling start [.slots, .slotsReply reply]
  | prefilling {key reply} (first : FirstSight sha256 slot messages start key reply) :
      Underway sha256 slot messages start .prefilling (start.enroll key messages)
        [.slots, .slotsReply reply, .prefill slot (start.enrolled key messages).system]
  | confirming {key reply} (first : FirstSight sha256 slot messages start key reply) :
      Underway sha256 slot messages start .confirming (start.enroll key messages)
        [.slots, .slotsReply reply, .prefill slot (start.enrolled key messages).system,
          .prefillReply true, .slots]
  | saving {key reply confirmation wrote}
      (first : FirstSight sha256 slot messages start key reply)
      (landed : isLanded slot confirmation = true) :
      Underway sha256 slot messages start (.saving wrote) (start.enroll key messages)
        [.slots, .slotsReply reply, .prefill slot (start.enrolled key messages).system,
          .prefillReply true, .slots, .slotsReply confirmation,
          .save slot (scratchName (seedBlobName key))]
  | publishing {key reply confirmation moved}
      (first : FirstSight sha256 slot messages start key reply)
      (landed : isLanded slot confirmation = true) :
      Underway sha256 slot messages start (.publishing moved) (start.enroll key messages)
        [.slots, .slotsReply reply, .prefill slot (start.enrolled key messages).system,
          .prefillReply true, .slots, .slotsReply confirmation,
          .save slot (scratchName (seedBlobName key)), .saveReply true,
          .publish (scratchName (seedBlobName key)) (seedBlobName key)]
  | marking {key reply ok log} (first : FirstSight sha256 slot messages start key reply)
      (danced : Danced slot (seedBlobName key) (start.enrolled key messages).system ok log) :
      Underway sha256 slot messages start (.marking ok) (start.enroll key messages)
        (.slots :: .slotsReply reply :: log)
  | returned {reply result bag log}
      (prepared : Prepared sha256 slot messages start reply ⟨result, bag, log⟩) :
      Underway sha256 slot messages start (.returned result) bag log

theorem keyOf_of_hashed {key : String} (hashed : systemHash sha256 (calls c).messages = some key) :
    keyOf sha256 calls c = key := by
  rw [keyOf, hashed]
  rfl

theorem Step.underway {start : Bag} {action : Action} {l l' : Local} {world world' : World}
    (step : Step sha256 calls c action l world l' world')
    (underway : Underway sha256 (calls c).slot (calls c).messages start l.phase world.bag l.trace) :
    Underway sha256 (calls c).slot (calls c).messages start l'.phase world'.bag l'.trace := by
  obtain ⟨bag, kv, running, dir⟩ := world
  cases step with
  | begin hashed =>
      cases underway
      exact .gating hashed
  | beginUnkeyed unkeyed =>
      cases underway
      exact .returned (@Prepared.unkeyed _ _ _ _ none unkeyed)
  | gated idle =>
      cases underway with
      | gating hashed => exact .recalling hashed idle
  | turnedAway busy =>
      cases underway with
      | gating hashed => exact .returned (.turnedAway hashed busy)
  | recalled cached =>
      cases underway with
      | recalling hashed idle =>
          rw [keyOf_of_hashed hashed] at cached
          rw [blobOf, keyOf_of_hashed hashed]
          exact .restoring hashed idle cached
  | unknown unknown =>
      cases underway with
      | recalling hashed idle =>
          rw [keyOf_of_hashed hashed] at unknown
          exact .enrolling ⟨hashed, idle, unknown⟩
  | load =>
      cases underway with
      | restoring hashed idle cached => exact .restoring hashed idle cached
  | restored =>
      cases underway with
      | restoring hashed idle cached =>
          exact .returned (@Prepared.recalled _ _ _ _ _ _ true hashed idle cached)
  | notRestored =>
      cases underway with
      | restoring hashed idle cached =>
          exact .returned (@Prepared.recalled _ _ _ _ _ _ false hashed idle cached)
  | enroll prompt =>
      cases underway with
      | enrolling first =>
          rw [keyOf_of_hashed first.hashed] at prompt
          subst prompt
          simp only [keyOf_of_hashed first.hashed]
          exact .prefilling first
  | prefilled =>
      cases underway with
      | prefilling first => exact .confirming first
  | notPrefilled =>
      cases underway with
      | prefilling first => exact .marking first .notPrefilled
  | confirmed landed =>
      cases underway with
      | confirming first =>
          rw [scratchOf, blobOf, keyOf_of_hashed first.hashed]
          exact .saving first landed
  | unconfirmed astray =>
      cases underway with
      | confirming first => exact .marking first (.unconfirmed astray)
  | write =>
      cases underway with
      | saving first landed => exact .saving first landed
  | saved =>
      cases underway with
      | saving first landed =>
          rw [scratchOf, blobOf, keyOf_of_hashed first.hashed]
          exact .publishing first landed
  | notSaved =>
      cases underway with
      | saving first landed => exact .marking first (.notSaved landed)
  | move =>
      cases underway with
      | publishing first landed => exact .publishing first landed
  | published =>
      cases underway with
      | publishing first landed => exact .marking first (.published landed)
  | markCached =>
      cases underway with
      | marking first danced =>
          rw [keyOf_of_hashed first.hashed]
          exact .returned (@Prepared.danced _ _ _ _ _ _ true _ first danced)
  | markFailed =>
      cases underway with
      | marking first danced =>
          rw [keyOf_of_hashed first.hashed]
          exact .returned (@Prepared.danced _ _ _ _ _ _ false _ first danced)
  | start | finish | evict => exact underway

/-- What a call gets to by its own actions. -/
abbrev Goes (sha256 : List UInt8 → Digest) (calls : CallId → Call) (c : CallId) :
    Local × World → Local × World → Prop :=
  Relation.ReflTransGen ((dance sha256 calls .empty).OwnStep c fun _ _ _ => True)

theorem Step.goes {action : Action} {l l' : Local} {world world' : World} {after : Local × World}
    (step : Step sha256 calls c action l world l' world')
    (rest : Goes sha256 calls c (l', world') after) : Goes sha256 calls c (l, world) after :=
  Threads.goes_head action trivial (act_of_step step) rest

theorem goes_recalling {key : String} {reply : Option (List SlotState)}
    (hashed : systemHash sha256 (calls c).messages = some key)
    (idle : isIdle (calls c).slot reply = true) (world : World) {after : Local × World}
    (rest : Goes sha256 calls c (⟨.recalling, .idle, [.slots, .slotsReply reply]⟩, world) after) :
    Goes sha256 calls c (.fresh, world) after := by
  apply Step.goes (.begin hashed)
  apply Step.goes (.gated idle)
  exact rest

theorem goes_marking {slot : SlotId} {name : String} {system : Value} {ok : Bool}
    {log : List Entry} (danced : Danced slot name system ok log) (ownSlot : (calls c).slot = slot)
    (ownBlob : blobOf sha256 calls c = name) (past : List Entry) (world : World) :
    ∃ job, Goes sha256 calls c
      (⟨.prefilling, .queued system, past ++ [.prefill slot system]⟩, world)
      (⟨.marking ok, job, past ++ log⟩, world) := by
  subst ownSlot ownBlob
  cases danced with
  | notPrefilled =>
      apply Exists.intro
      apply Step.goes .notPrefilled
      simpa using Relation.ReflTransGen.refl
  | unconfirmed astray =>
      apply Exists.intro
      apply Step.goes .prefilled
      apply Step.goes (.unconfirmed astray)
      simpa using Relation.ReflTransGen.refl
  | notSaved landed =>
      apply Exists.intro
      apply Step.goes .prefilled
      apply Step.goes (.confirmed landed)
      apply Step.goes .notSaved
      simpa [scratchOf] using Relation.ReflTransGen.refl
  | published landed =>
      apply Exists.intro
      apply Step.goes .prefilled
      apply Step.goes (.confirmed landed)
      apply Step.goes .saved
      apply Step.goes .published
      simpa [scratchOf] using Relation.ReflTransGen.refl

theorem goes_of_prepared {world : World} {reply : Option (List SlotState)} {turn : Turn}
    (prepared : Prepared sha256 (calls c).slot (calls c).messages world.bag reply turn) :
    ∃ job, Goes sha256 calls c (.fresh, world)
      (⟨.returned turn.result, job, turn.log⟩, { world with bag := turn.bag }) := by
  cases prepared with
  | unkeyed unkeyed =>
      apply Exists.intro
      exact Step.goes (.beginUnkeyed unkeyed) .refl
  | turnedAway hashed busy =>
      apply Exists.intro
      apply Step.goes (.begin hashed)
      exact Step.goes (.turnedAway busy) .refl
  | @recalled key ok hashed idle cached =>
      obtain rfl := keyOf_of_hashed hashed
      apply Exists.intro
      apply goes_recalling hashed idle
      apply Step.goes (.recalled cached)
      cases ok with
      | true => exact Step.goes .restored .refl
      | false => exact Step.goes .notRestored .refl
  | @danced key ok _ first danced =>
      obtain rfl := keyOf_of_hashed first.hashed
      obtain ⟨job, dances⟩ := goes_marking danced rfl rfl [.slots, .slotsReply reply]
        { world with
          bag := world.bag.enroll (keyOf sha256 calls c) (calls c).messages }
      refine ⟨job, ?_⟩
      apply goes_recalling first.hashed first.idle
      apply Step.goes (.unknown first.unknown)
      apply Step.goes (.enroll rfl)
      apply dances.trans
      cases ok with
      | true => exact Step.goes .markCached .refl
      | false => exact Step.goes .markFailed .refl

/-- What a call returns, issues and makes of the bag alone in the dance is an outcome of
`prepare`, and the other way round. -/
theorem prepared_iff_alone {origin : DanceState} (fresh : origin.locals c = .fresh) (turn : Turn) :
    (∃ reply, Prepared sha256 (calls c).slot (calls c).messages origin.world.bag reply turn) ↔
      ∃ config, ((dance sha256 calls .empty).machine.startingAt origin).ReachedBy
          (fun _ event => event.1 = c) config ∧
        (config.locals c).phase = .returned turn.result ∧ (config.locals c).trace = turn.log ∧
        config.world.bag = turn.bag := by
  constructor
  · rintro ⟨reply, prepared⟩
    obtain ⟨job, goes⟩ := goes_of_prepared prepared
    rw [← fresh] at goes
    have start : ((dance sha256 calls .empty).machine.startingAt origin).ReachedBy
        (fun _ event => event.1 = c) origin := .initial rfl
    obtain ⟨last, reached, own, world, -⟩ :=
      (dance sha256 calls .empty).reachedBy_of_alone (fun _ _ _ => rfl) start goes
    exact ⟨last, reached, by rw [own], by rw [own], by rw [world]⟩
  · rintro ⟨config, reached, returned, log, bag⟩
    have underway := reached.invariant (fun config => Underway sha256 (calls c).slot
      (calls c).messages origin.world.bag (config.locals c).phase config.world.bag
      (config.locals c).trace) ?_ ?_
    · rw [returned, log, bag] at underway
      cases underway with
      | returned prepared => exact ⟨_, prepared⟩
    · rintro state rfl
      rw [fresh]
      exact .waiting
    · rintro before ⟨name, action⟩ after underway rfl moved
      exact (step_of_moved moved).1.underway underway

end Alone

end Ollm.Seed
