import Ollm.Keying.Signature
import Ollm.Proxy.Registry

/-!
# Forwarded request bodies

A steered turn is forwarded with the slot written into its body; whatever else
the client sent is left alone.  Only JSON objects can carry the slot.
-/

namespace Ollm.Proxy

open Json Keying

/-- `Map::insert`: keys are kept in order, an existing value is replaced. -/
def insertField (key : String) (value : Value) :
    List (String × Value) → List (String × Value)
  | [] => [(key, value)]
  | (k, v) :: rest =>
      if k = key then (key, value) :: rest
      else if key < k then (key, value) :: (k, v) :: rest
      else (k, v) :: insertField key value rest

def slotNumber (id : SlotId) : Value :=
  .number (.ofNat id.toNat)

def forwardBody : Value → Option SlotId → Value
  | .object fields, some id => .object (insertField "id_slot" (slotNumber id) fields)
  | body, _ => body

def isStream (body : Value) : Bool :=
  match get? body "stream" with
  | some (.bool wanted) => wanted
  | _ => false

def isObject : Value → Bool
  | .object _ => true
  | _ => false

/-- The backend runs a turn on the slot its body names; a body that names none
(or a negative number) leaves the choice to the backend. -/
def runsOn (body : Value) (id : SlotId) : Bool :=
  match get? body "id_slot" with
  | some (.number n) => if n.text.all Char.isDigit then n = .ofNat id.toNat else true
  | _ => true

theorem find?_insertField (key : String) (value : Value) (fields : List (String × Value)) :
    (insertField key value fields).find? (·.1 == key) = some (key, value) := by
  induction fields with
  | nil => simp [insertField]
  | cons field rest inductionHypothesis =>
      obtain ⟨k, v⟩ := field
      rw [insertField]
      split_ifs with same before
      · simp
      · simp
      · simpa [same] using inductionHypothesis

theorem ofNat_inj {m n : Nat} (same : Number.ofNat m = Number.ofNat n) : m = n := by
  have digits : Nat.toDigits 10 m = Nat.toDigits 10 n := congrArg Number.text same
  rw [← Nat.ofDigitChars_ten_toDigits (n := m), digits, Nat.ofDigitChars_ten_toDigits]

/-- A steered object body runs on the slot it was steered to. -/
theorem runsOn_forwardBody {body : Value} {id slot : SlotId} (object : isObject body = true)
    (runs : runsOn (forwardBody body (some id)) slot = true) : slot = id := by
  cases body with
  | object fields =>
      have digits : ((Number.ofNat id.toNat).text).all Char.isDigit = true := by
        simp only [List.all_eq_true]
        exact fun c member => Nat.isDigit_of_mem_toDigits (by decide) (by decide) member
      simp only [runsOn, forwardBody, get?, find?_insertField, Option.map_some, slotNumber,
        digits, if_true, decide_eq_true_eq] at runs
      exact UInt32.toNat_inj.mp (ofNat_inj runs).symm
  | _ => cases object

end Ollm.Proxy
