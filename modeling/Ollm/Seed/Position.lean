import Ollm.Seed.Outcome
import Ollm.Seed.Recovery

/-!
# Positions of a scripted backend

The scripted backend of the protocol tests, which keeps the positions of its
slots and records what it is asked for.  A dance takes any position but zero for
the place where its prefill landed, also the one its slot stood at before.
-/

namespace Ollm.Seed

open Json Keying
open Proxy (SlotId SlotState)
open Store (seedBlobName)

universe u

/-- A recorded request. -/
inductive FakeCall where
  | slots
  | prefillOnly (slot : SlotId) (nMsgs : ℕ)
  | save (slot : SlotId) (name : String)
  | restore (slot : SlotId) (name : String)
  deriving DecidableEq

def FakeCall.isSave : FakeCall → Bool
  | .save _ _ => true
  | _ => false

structure FakeBackend where
  slots : List SlotState
  calls : List FakeCall
  prefillDelta : UInt64
  failSave : Bool
  failPrefill : Bool

def saturatingAdd (a b : UInt64) : UInt64 :=
  if a.toNat + b.toNat < 2 ^ 64 then a + b else 0xFFFFFFFFFFFFFFFF

/-- The first entry of the slot moves on by `delta` and is idle. -/
def landAt (slot : SlotId) (delta : UInt64) : List SlotState → List SlotState
  | [] => []
  | s :: rest =>
      if s.id == slot then
        { s with nTokens := saturatingAdd s.nTokens delta, isProcessing := false } :: rest
      else s :: landAt slot delta rest

namespace FakeBackend

variable (fake : FakeBackend)

/-- `FakeBackend::with_slots`. -/
def withSlots (slots : List SlotState) : FakeBackend :=
  ⟨slots, [], 0, false, false⟩

def record (call : FakeCall) : FakeBackend :=
  { fake with calls := fake.calls ++ [call] }

def slotsReply : Option (List SlotState) × FakeBackend :=
  (some fake.slots, fake.record .slots)

/-- The prompt lands: the slot's position advances. -/
def land (slot : SlotId) : FakeBackend :=
  { fake with slots := landAt slot fake.prefillDelta fake.slots }

def countMessages : Value → ℕ
  | .array messages => messages.length
  | _ => 0

def prefillOnly (slot : SlotId) (messages : Value) : Bool × FakeBackend :=
  let fake := fake.record (.prefillOnly slot (countMessages messages))
  if fake.failPrefill then (false, fake) else (true, fake.land slot)

def saveSlot (id : SlotId) (name : String) : Bool × FakeBackend :=
  let fake := fake.record (.save id name)
  (!fake.failSave, fake)

def restoreSlot (id : SlotId) (name : String) : Bool × FakeBackend :=
  (true, fake.record (.restore id name))

/-- The position that the backend reports of a slot. -/
def position (slot : SlotId) : Option UInt64 :=
  (stateOf slot (some fake.slots)).map (·.nTokens)

/-- The saves asked for so far. -/
def saves : List FakeCall :=
  fake.calls.filter FakeCall.isSave

/-- A prefill of the slot is answered without an error, and leaves the slot where it stood. -/
structure Unlanded (slot : SlotId) : Prop where
  answered : ∀ messages, (fake.prefillOnly slot messages).1 = true
  unmoved : ∀ messages, (fake.prefillOnly slot messages).2.position slot = fake.position slot

/-- The slot is reported idle at a position. -/
def StandsIdle (slot : SlotId) : Prop :=
  ∃ s, stateOf slot (some fake.slots) = some s ∧ s.isProcessing = false ∧ 0 < s.nTokens

end FakeBackend

variable {τ : Type u}

/-- The scripted backend, beside the state of a publisher. -/
def fakeBackend : Backend (FakeBackend × τ) where
  slots := fun (fake, t) =>
    let (reply, fake) := fake.slotsReply
    (reply, fake, t)
  prefillOnly slot messages := fun (fake, t) =>
    let (ok, fake) := fake.prefillOnly slot messages
    (ok, fake, t)
  saveSlot id name := fun (fake, t) =>
    let (ok, fake) := fake.saveSlot id name
    (ok, fake, t)
  restoreSlot id name := fun (fake, t) =>
    let (ok, fake) := fake.restoreSlot id name
    (ok, fake, t)

/-- The publisher, beside the scripted backend. -/
def Publisher.besideFake (publisher : Publisher τ) : Publisher (FakeBackend × τ) where
  publish scratch name := fun (fake, t) =>
    let (ok, t) := publisher.publish scratch name t
    (ok, fake, t)

section Requests

variable (fake : FakeBackend) (t : τ) (slot : SlotId)

@[simp]
theorem FakeBackend.saves_record (call : FakeCall) :
    (fake.record call).saves = fake.saves ++ if call.isSave then [call] else [] := by
  cases isSave : call.isSave <;> simp [FakeBackend.saves, FakeBackend.record, isSave]

@[simp]
theorem FakeBackend.failSave_record (call : FakeCall) :
    (fake.record call).failSave = fake.failSave := rfl

@[simp]
theorem FakeBackend.saves_land : (fake.land slot).saves = fake.saves := rfl

@[simp]
theorem FakeBackend.failSave_land : (fake.land slot).failSave = fake.failSave := rfl

@[simp]
theorem fakeBackend_slots :
    fakeBackend.slots (fake, t) = (some fake.slots, fake.record .slots, t) := rfl

@[simp]
theorem fakeBackend_saveSlot (name : String) :
    fakeBackend.saveSlot slot name (fake, t) =
      (!fake.failSave, fake.record (.save slot name), t) := rfl

theorem fakeBackend_prefillOnly (answers : fake.failPrefill = false) (messages : Value) :
    fakeBackend.prefillOnly slot messages (fake, t) =
      (true, (fake.record (.prefillOnly slot (FakeBackend.countMessages messages))).land slot,
        t) := by
  simp [fakeBackend, FakeBackend.prefillOnly, FakeBackend.record, answers]

@[simp]
theorem Publisher.besideFake_publish (publisher : Publisher τ) (scratch name : String) :
    publisher.besideFake.publish scratch name (fake, t) =
      ((publisher.publish scratch name t).1, fake, (publisher.publish scratch name t).2) := rfl

end Requests

section Landing

variable {slot : SlotId} {fake : FakeBackend}

theorem stateOf_landAt (delta : UInt64) (slots : List SlotState) :
    stateOf slot (some (landAt slot delta slots)) =
      (stateOf slot (some slots)).map fun s =>
        { s with nTokens := saturatingAdd s.nTokens delta, isProcessing := false } := by
  simp only [stateOf, Option.bind_some]
  induction slots with
  | nil => rfl
  | cons s rest inductionHypothesis =>
      cases own : s.id == slot with
      | true => simp [landAt, own]
      | false => simpa [landAt, own] using inductionHypothesis

theorem FakeBackend.Unlanded.failPrefill (unlanded : fake.Unlanded slot) :
    fake.failPrefill = false := by
  have answered := unlanded.answered .null
  cases failing : fake.failPrefill with
  | false => rfl
  | true => simp [FakeBackend.prefillOnly, FakeBackend.record, failing] at answered

/-- Where nothing moves, the confirmation finds the position that was there before. -/
theorem FakeBackend.Unlanded.isLanded_iff (unlanded : fake.Unlanded slot)
    (idle : isIdle slot (some fake.slots) = true) :
    isLanded slot (some (fake.land slot).slots) = true ↔ fake.StandsIdle slot := by
  have unmoved := unlanded.unmoved .null
  simp only [FakeBackend.prefillOnly, FakeBackend.record, unlanded.failPrefill,
    Bool.false_eq_true, if_false, FakeBackend.position, FakeBackend.land, stateOf_landAt]
    at unmoved
  rw [isLanded, FakeBackend.land, stateOf_landAt, FakeBackend.StandsIdle]
  rw [isIdle] at idle
  cases reported : stateOf slot (some fake.slots) with
  | none => simp
  | some s =>
      have stays : saturatingAdd s.nTokens fake.prefillDelta = s.nTokens := by
        simpa [reported] using unmoved
      have quiet : s.isProcessing = false := by
        simpa [reported] using idle
      simp [stays, quiet]

theorem FakeBackend.StandsIdle.isIdle (stands : fake.StandsIdle slot) :
    isIdle slot (some fake.slots) = true := by
  obtain ⟨s, reported, quiet, -⟩ := stands
  simp [Seed.isIdle, reported, quiet]

end Landing

/-- The call asked for no save, and the family is not cached after it. -/
def StaysUnsaved (key : String) (before : FakeBackend)
    (after : SeedResult × Bag × FakeBackend × τ) : Prop :=
  after.2.2.1.saves = before.saves ∧ after.2.1.state key ≠ some .cached

section Prepare

variable {sha256 : List UInt8 → Digest} {publisher : Publisher τ} {fake : FakeBackend} {t : τ}
  {slot : SlotId} {messages : Value} {bag : Bag} {key : String}

theorem runDance_of_astray (publisher : Publisher τ) (t : τ) (key : String)
    (answers : fake.failPrefill = false)
    (astray : isLanded slot (some (fake.land slot).slots) = false) (system : Value) :
    ∃ fake', runDance fakeBackend publisher.besideFake slot key system (fake, t) =
        (false, fake', t) ∧ fake'.saves = fake.saves := by
  have prefilled := fakeBackend_prefillOnly fake t slot answers system
  generalize recorded : fake.record (.prefillOnly slot (FakeBackend.countMessages system)) = fake₁
    at prefilled
  have reported : isLanded slot (some (fake₁.land slot).slots) = false := recorded ▸ astray
  refine ⟨(fake₁.land slot).record .slots, ?_, ?_⟩
  · simp [runDance, prefilled, reported]
  · simp [← recorded, FakeCall.isSave]

theorem saves_runDance (publisher : Publisher τ) (t : τ) (key : String)
    (answers : fake.failPrefill = false)
    (landed : isLanded slot (some (fake.land slot).slots) = true) (system : Value) :
    (runDance fakeBackend publisher.besideFake slot key system (fake, t)).2.1.saves =
      fake.saves ++ [.save slot (scratchName (seedBlobName key))] := by
  have prefilled := fakeBackend_prefillOnly fake t slot answers system
  generalize recorded : fake.record (.prefillOnly slot (FakeBackend.countMessages system)) = fake₁
    at prefilled
  have reported : isLanded slot (some (fake₁.land slot).slots) = true := recorded ▸ landed
  have saves : fake₁.saves = fake.saves := by simp [← recorded, FakeCall.isSave]
  cases failing : fake₁.failSave <;>
    simp [runDance, prefilled, reported, failing, saves, FakeCall.isSave]

variable (sha256 publisher t)

theorem staysUnsaved_of_astray (hashed : systemHash sha256 messages = some key)
    (uncached : bag.isCached key = false) (unlanded : fake.Unlanded slot)
    (astray : ¬ fake.StandsIdle slot) :
    StaysUnsaved key fake
      (prepare sha256 fakeBackend publisher.besideFake slot messages bag (fake, t)) := by
  cases idle : isIdle slot (some fake.slots) with
  | false =>
      have unknown : bag.state key ≠ some .cached := by
        simp [← isCached_iff, uncached]
      simpa [StaysUnsaved, prepare, hashed, idle, FakeCall.isSave] using unknown
  | true =>
      have nowhere : isLanded slot (some ((fake.record .slots).land slot).slots) = false := by
        rw [← Bool.not_eq_true]
        exact mt (unlanded.isLanded_iff idle).mp astray
      have answers : (fake.record .slots).failPrefill = false := unlanded.failPrefill
      obtain ⟨fake', ran, saves⟩ := runDance_of_astray publisher t key answers nowhere
        (bag.enrolled key messages).system
      refine ⟨?_, ?_⟩
      · simp [prepare, hashed, idle, uncached, ran, saves, FakeCall.isSave]
      · simp [prepare, hashed, idle, uncached, ran, state_markFailed_enroll]

/-- A slot that stands at a position is saved, whatever the prefill did. -/
theorem saves_of_standsIdle (hashed : systemHash sha256 messages = some key)
    (uncached : bag.isCached key = false) (unlanded : fake.Unlanded slot)
    (stands : fake.StandsIdle slot) :
    (prepare sha256 fakeBackend publisher.besideFake slot messages bag (fake, t)).2.2.1.saves =
      fake.saves ++ [.save slot (scratchName (seedBlobName key))] := by
  have landed : isLanded slot (some ((fake.record .slots).land slot).slots) = true :=
    (unlanded.isLanded_iff stands.isIdle).mpr stands
  have answers : (fake.record .slots).failPrefill = false := unlanded.failPrefill
  have saves := saves_runDance publisher t key answers landed (bag.enrolled key messages).system
  rcases ran : runDance fakeBackend publisher.besideFake slot key (bag.enrolled key messages).system
    (fake.record .slots, t) with ⟨ok, fake', t'⟩
  rw [ran] at saves
  cases ok <;> simpa [prepare, hashed, stands.isIdle, uncached, ran, FakeCall.isSave] using saves

/-- An unlanded prefill is not saved, and its family not cached, if and only if the slot was not
reported idle at a position before. -/
theorem unlanded_unsaved_iff (hashed : systemHash sha256 messages = some key)
    (uncached : bag.state key ≠ some .cached) (unlanded : fake.Unlanded slot) :
    StaysUnsaved key fake
        (prepare sha256 fakeBackend publisher.besideFake slot messages bag (fake, t)) ↔
      ¬ fake.StandsIdle slot := by
  have unknown : bag.isCached key = false := by
    rw [← Bool.not_eq_true, isCached_iff]
    exact uncached
  constructor
  · intro unsaved stands
    have saves := saves_of_standsIdle sha256 publisher t hashed unknown unlanded stands
    have grown := congrArg List.length (saves.symm.trans unsaved.1)
    simp at grown
  · exact staysUnsaved_of_astray sha256 publisher t hashed unknown unlanded

end Prepare

/-! ## Slots that are reused -/

/-- One idle slot at a position, and prefills that do not move it. -/
def standingAt (nTokens : UInt64) : FakeBackend :=
  .withSlots [⟨1, false, nTokens⟩]

def willing : Publisher Unit :=
  ⟨fun _ _ t => (true, t)⟩

theorem unlanded_standingAt (nTokens : UInt64) : (standingAt nTokens).Unlanded 1 where
  answered _ := rfl
  unmoved _ := by
    have stays : saturatingAdd nTokens 0 = nTokens := by
      have room : nTokens.toNat + UInt64.toNat 0 < 2 ^ 64 := nTokens.toNat_lt
      rw [saturatingAdd, if_pos room, UInt64.add_zero]
    simp [FakeBackend.prefillOnly, FakeBackend.position, FakeBackend.record, FakeBackend.land,
      standingAt, FakeBackend.withSlots, landAt, stateOf, stays]

/-- Where the slot stood at a position before, the unlanded prefill is saved. -/
theorem reused_slot_saved :
    ¬ ∀ (sha256 : List UInt8 → Digest) (publisher : Publisher Unit) (fake : FakeBackend)
        (slot : SlotId) (messages : Value) (bag : Bag) (key : String),
      systemHash sha256 messages = some key →
      bag.state key ≠ some .cached →
      fake.Unlanded slot →
      StaysUnsaved key fake
        (prepare sha256 fakeBackend publisher.besideFake slot messages bag (fake, ())) := by
  intro unsaved
  have stands : (standingAt 7).StandsIdle 1 := ⟨⟨1, false, 7⟩, rfl, rfl, by decide⟩
  have hashed : systemHash zeroHash (promptOf "sys") = some sysKey := rfl
  have unlanded := unlanded_standingAt 7
  have absent : Bag.empty.isCached sysKey = false := rfl
  have saves := saves_of_standsIdle zeroHash willing () hashed absent unlanded stands
  have kept := unsaved zeroHash willing (standingAt 7) 1 (promptOf "sys") .empty sysKey hashed
    (by simp [← isCached_iff, absent]) unlanded
  have grown := congrArg List.length (saves.symm.trans kept.1)
  simp at grown

/-- A slot that stands at no position. -/
theorem empty_slot_unsaved :
    StaysUnsaved sysKey (standingAt 0)
      (prepare zeroHash fakeBackend willing.besideFake 1 (promptOf "sys") .empty
        (standingAt 0, ())) := by
  have hashed : systemHash zeroHash (promptOf "sys") = some sysKey := rfl
  have absent : Bag.empty.state sysKey ≠ some .cached := by
    simp [Bag.state, Bag.empty]
  apply (unlanded_unsaved_iff zeroHash willing () hashed absent (unlanded_standingAt 0)).mpr
  intro stands
  obtain ⟨s, reported, -, beyond⟩ := stands
  obtain rfl : (⟨1, false, 0⟩ : SlotState) = s := Option.some.inj reported
  exact absurd beyond (by decide)

end Ollm.Seed
