import Ollm.Keying.Names
import Ollm.Library.Json

/-!
# The compatibility signature

The backend properties that go into the signature are serialized one after
the other, without their names and without separators, and absent ones are
skipped.  The bytes determine the values only up to the borders between
adjacent numbers, and never which properties the values belong to.
-/

namespace Ollm.Keying

open Json

/-- `serde_json::to_vec`. -/
def toVec (value : Value) : List UInt8 :=
  value.text.flatMap String.utf8EncodeChar

/-- `Value::get` with a string key. -/
def get? : Value → String → Option Value
  | .object fields, key => (fields.find? (·.1 == key)).map (·.2)
  | _, _ => none

def sigKeys : List String :=
  ["model_path", "total_slots", "n_ctx", "chat_template", "add_bos_token", "bos_token"]

def sigValues (props : Value) : List Value :=
  sigKeys.filterMap (get? props)

/-- Everything `serve` feeds to the hash; nothing if the backend has no props. -/
def sigInput : Option Value → List UInt8
  | some props => (sigValues props).flatMap toVec
  | none => []

def backendSig (sha256 : List UInt8 → Digest) (props : Option Value) : String :=
  hexPrefix 12 (sha256 (sigInput props))

theorem length_backendSig (sha256 : List UInt8 → Digest) (props : Option Value) :
    (backendSig sha256 props).length = 12 :=
  hexPrefix_length (by decide) _

theorem utf8_inj {first second : List Char}
    (same : first.flatMap String.utf8EncodeChar = second.flatMap String.utf8EncodeChar) :
    first = second := by
  have bytes : (String.ofList first).toByteArray = (String.ofList second).toByteArray := by
    rw [String.toByteArray_ofList, String.toByteArray_ofList, List.utf8Encode, List.utf8Encode,
      same]
  simpa using congrArg String.toList (String.toByteArray_inj.mp bytes)

theorem sigInput_some (props : Value) :
    sigInput (some props) = (concatText (sigValues props)).flatMap String.utf8EncodeChar := by
  rw [sigInput, concatText, List.flatMap_assoc]
  rfl

def Disagree (props other : Value) : Prop :=
  ∃ key ∈ sigKeys, get? props key ≠ get? other key

/-- The hashed bytes agree exactly when the values do up to the borders of
adjacent numbers. -/
theorem sigInput_eq_iff (props other : Value) :
    sigInput (some props) = sigInput (some other) ↔
      chunks (sigValues props) = chunks (sigValues other) := by
  rw [sigInput_some, sigInput_some, ← concatText_eq_iff]
  exact ⟨utf8_inj, fun same => by rw [same]⟩

/-- Disagreeing props are told apart unless the values they present, taken in
order without their names, agree up to the borders of adjacent numbers. -/
theorem sigInput_separates_iff (props other : Value) :
    (Disagree props other → sigInput (some props) ≠ sigInput (some other)) ↔
      ¬ (Disagree props other ∧ chunks (sigValues props) = chunks (sigValues other)) := by
  rw [not_and]
  exact forall_congr' fun _ => not_congr (sigInput_eq_iff props other)

/-- The props of a backend with `slots` slots of `ctx` tokens each. -/
def propsOf (slots ctx : Nat) : Value :=
  .object [("add_bos_token", .bool true), ("bos_token", .string "<s>"),
    ("chat_template", .string "chatml"), ("model_path", .string "/models/q.gguf"),
    ("n_ctx", .number (.ofNat ctx)), ("total_slots", .number (.ofNat slots))]

/-- The slot count of one backend swallows a digit of the other's context. -/
theorem sigInput_slots_ctx_collide :
    Disagree (propsOf 1 14096) (propsOf 11 4096) ∧
      sigInput (some (propsOf 1 14096)) = sigInput (some (propsOf 11 4096)) := by
  refine ⟨⟨"total_slots", by decide, ?_⟩, by decide⟩
  intro same
  have texts := congrArg (Option.map Value.text) same
  exact absurd texts (by decide)

/-- A single number of one field passes for another field's. -/
example : sigInput (some (.object [("total_slots", .number (.ofNat 5))])) =
    sigInput (some (.object [("n_ctx", .number (.ofNat 5))])) := by
  decide

end Ollm.Keying
