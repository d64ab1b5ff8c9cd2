import Ollm.Llama.Wire
import Ollm.Seed.Prepare

/-!
# Servers

The production backend in front of any server is a backend of the seed dance, and
there is no other: whatever a backend of the dance answers, there is a server whose
replies are read as those answers.  So what the dance does on a scripted backend it
does with the production backend in front of some server.
-/

namespace Ollm.Llama

open Json Keying Seed
open Proxy (Registry SlotId SlotState slotNumber)

universe u

variable {σ : Type u}

/-- A server that answers each request, and remembers what it likes. -/
abbrev Server (σ : Type u) := Request → σ → Reply × σ

/-- What the dance sees of a llama-server. -/
def LlamaBackend.trait (llama : LlamaBackend) (server : Server σ) : Backend σ where
  slots s :=
    let (reply, s) := server (llama.request .slots) s
    ((slotsReply reply).toOption, s)
  prefillOnly slot messages s :=
    let (reply, s) := server (llama.request (.prefillOnly slot messages)) s
    ((accepted "prefill_only" reply).isOk, s)
  saveSlot id name s :=
    let (reply, s) := server (llama.request (.saveSlot id name)) s
    ((accepted "save" reply).isOk, s)
  restoreSlot id name s :=
    let (reply, s) := server (llama.request (.restoreSlot id name)) s
    ((accepted "restore" reply).isOk, s)

/-! ## Reports of slots -/

def positionNumber (n : UInt64) : Value :=
  .number (.ofNat n.toNat)

/-- A slot as the server reports it. -/
def slotJson (s : SlotState) : Value :=
  .object [("id", slotNumber s.id), ("is_processing", .bool s.isProcessing),
    ("n_prompt_tokens", positionNumber s.nTokens)]

theorem asU64_ofNat {n : Nat} (fits : n < 2 ^ 64) :
    asU64 (.number (.ofNat n)) = some (.ofNat n) := by
  have digits : (Number.ofNat n).text.all Char.isDigit = true := by
    rw [List.all_eq_true]
    exact fun c member => Nat.isDigit_of_mem_toDigits (by decide) (by decide) member
  have number : Nat.ofDigitChars 10 (Number.ofNat n).text 0 = n := Nat.ofDigitChars_ten_toDigits
  rw [asU64, digits, number, if_pos ⟨rfl, fits⟩]

theorem asU64_slotNumber (id : SlotId) : asU64 (slotNumber id) = some (UInt32.toUInt64 id) := by
  have fits : id.toNat < 2 ^ 64 := Nat.lt_trans (UInt32.toNat_lt id) (by decide)
  rw [slotNumber, asU64_ofNat fits]
  exact congrArg some (UInt64.ofNat_uInt32ToNat id)

theorem asU64_positionNumber (n : UInt64) : asU64 (positionNumber n) = some n := by
  rw [positionNumber, asU64_ofNat n.toNat_lt, UInt64.ofNat_toNat]

theorem slotState?_slotJson (s : SlotState) : slotState? (slotJson s) = some s := by
  have id : get? (slotJson s) "id" = some (slotNumber s.id) := rfl
  have processing : get? (slotJson s) "is_processing" = some (.bool s.isProcessing) := rfl
  have position : get? (slotJson s) "n_prompt_tokens" = some (positionNumber s.nTokens) := rfl
  have cut : (UInt32.toUInt64 s.id).toUInt32 = s.id := UInt32.toUInt32_toUInt64 s.id
  rw [slotState?, id, processing, position, Option.bind_some, Option.bind_some, Option.bind_some,
    asU64_slotNumber, asU64_positionNumber, Option.map_some, cut]
  rfl

theorem parseSlots_slotJson (slots : List SlotState) :
    parseSlots (.array (slots.map slotJson)) = .ok slots := by
  rw [parseSlots, List.filterMap_map]
  have read : slotState? ∘ slotJson = some := funext slotState?_slotJson
  rw [read, List.filterMap_some]

/-! ## Scans of a report -/

/-- The slot of an entry that has a number and says that it is not processing. -/
def idleSlot? (item : Value) : Option SlotId :=
  match (get? item "id").bind asU64, (get? item "is_processing").bind asBool with
  | some n, some false => some n.toUInt32
  | _, _ => none

def idleIds (slots : List SlotState) : List SlotId :=
  (slots.filter fun s => !s.isProcessing).map (·.id)

theorem idleIds_cons (s : SlotState) (rest : List SlotState) :
    idleIds (s :: rest) = if s.isProcessing then idleIds rest else s.id :: idleIds rest := by
  cases processing : s.isProcessing <;> simp [idleIds, processing]

theorem idleIds_filterMap (items : List Value) :
    idleIds (items.filterMap slotState?) = items.filterMap idleSlot? := by
  induction items with
  | nil => rfl
  | cons item rest inductionHypothesis =>
      rw [List.filterMap_cons, List.filterMap_cons, ← inductionHypothesis]
      rcases number : (get? item "id").bind asU64 with _ | n
      · simp only [slotState?, idleSlot?, number, Option.map_none]
      · rcases said : (get? item "is_processing").bind asBool with _ | _ | _ <;>
          simp [slotState?, idleSlot?, number, said, idleIds_cons]

theorem pickSlot_eq (slots : List SlotState) (g : Registry) :
    (Registry.pickSlot slots g).1 = (idleIds slots).find? fun id => !g.dirty id := by
  induction slots generalizing g with
  | nil => rfl
  | cons s rest inductionHypothesis =>
      rw [Registry.pickSlot, idleIds_cons]
      cases processing : s.isProcessing <;> cases dirty : g.dirty s.id <;>
        simp [dirty, inductionHypothesis]

theorem findEvictable_eq (slots : List SlotState) (g : Registry) :
    (Registry.findEvictable slots g).1 =
      ((idleIds slots).find? fun id => g.dirty id).map fun id => (id, g.owner id) := by
  induction slots generalizing g with
  | nil => rfl
  | cons s rest inductionHypothesis =>
      rw [Registry.findEvictable, idleIds_cons]
      cases processing : s.isProcessing <;> cases dirty : g.dirty s.id <;>
        simp [dirty, inductionHypothesis]

/-- Both scans decide over the entries of the reply that have a number and say in so
many words that they are idle: the first clean one of them, and the first dirty one. -/
theorem scans_of_reply (items : List Value) (g : Registry) :
    ∃ slots, parseSlots (.array items) = .ok slots ∧
      (Registry.pickSlot slots g).1 = (items.filterMap idleSlot?).find? (fun id => !g.dirty id) ∧
      (Registry.findEvictable slots g).1 =
        ((items.filterMap idleSlot?).find? fun id => g.dirty id).map fun id => (id, g.owner id) := by
  refine ⟨items.filterMap slotState?, rfl, ?_, ?_⟩
  · rw [pickSlot_eq, idleIds_filterMap]
  · rw [findEvictable_eq, idleIds_filterMap]

/-! ## The server of a backend -/

def slotsAnswer : Option (List SlotState) → Reply
  | some slots => .answered 200 (.ok (.array (slots.map slotJson)))
  | none => .failed "connection refused"

def verdict (ok : Bool) : Reply :=
  .answered (if ok then 200 else 500) (.ok (.object []))

/-- The server at `base` that answers as the backend does. -/
def serverOf (base : String) (backend : Backend σ) : Server σ := fun request s =>
  match decode base request with
  | some .slots =>
      let (reply, s) := backend.slots s
      (slotsAnswer reply, s)
  | some (.prefillOnly slot messages) =>
      let (ok, s) := backend.prefillOnly slot messages s
      (verdict ok, s)
  | some (.saveSlot id name) =>
      let (ok, s) := backend.saveSlot id name s
      (verdict ok, s)
  | some (.restoreSlot id name) =>
      let (ok, s) := backend.restoreSlot id name s
      (verdict ok, s)
  | some (.chat _) | none => (.failed "not served", s)

theorem slotsReply_slotsAnswer (reply : Option (List SlotState)) :
    (slotsReply (slotsAnswer reply)).toOption = reply := by
  cases reply with
  | none => rfl
  | some slots =>
      have read : getJson "/slots" (slotsAnswer (some slots)) =
          .ok (.array (slots.map slotJson)) := rfl
      rw [slotsReply, read]
      simp only [Except.bind, parseSlots_slotJson]
      rfl

theorem isOk_accepted_verdict (method : String) (ok : Bool) :
    (accepted method (verdict ok)).isOk = ok := by
  cases ok <;> rfl

/-- Every backend of the dance is the production backend in front of a server. -/
theorem trait_serverOf (llama : LlamaBackend) (backend : Backend σ) :
    llama.trait (serverOf llama.base backend) = backend := by
  obtain ⟨slots, prefillOnly, saveSlot, restoreSlot⟩ := backend
  simp only [LlamaBackend.trait, serverOf, decode_request, Call.read, slotsReply_slotsAnswer,
    isOk_accepted_verdict]

end Ollm.Llama
