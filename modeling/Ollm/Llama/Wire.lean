import Ollm.Proxy.Forward
import Ollm.Seed.Prepare

/-!
# The backend on the wire

The methods of the backend trait as HTTP requests to a llama-server, and what its
replies are read as.  Every request tells the call that it was sent for; the one
thing it does not tell is a prefill from a chat whose body is a prefill's.
-/

namespace Ollm.Llama

open Json Keying
open Proxy (SlotId SlotState slotNumber insertField)

/-- The five methods of the trait. -/
inductive Call where
  | slots
  | prefillOnly (slot : SlotId) (messages : Value)
  | saveSlot (id : SlotId) (name : String)
  | restoreSlot (id : SlotId) (name : String)
  | chat (body : Value)

inductive Method where
  | get
  | post
  deriving DecidableEq, Repr

structure Request where
  method : Method
  url : String
  bearer : Option String
  json : Option Value

/-- What comes back: no response, or a status with a body that is JSON or is not. -/
inductive Reply where
  | failed (error : String)
  | answered (status : UInt16) (body : Except String Value)

structure LlamaBackend where
  base : String
  apiKey : Option String

namespace LlamaBackend

variable (backend : LlamaBackend)

def url (path : String) : String :=
  backend.base ++ path

def get (path : String) : Request :=
  ⟨.get, backend.url path, backend.apiKey, none⟩

def post (path : String) (body : Value) : Request :=
  ⟨.post, backend.url path, backend.apiKey, some body⟩

end LlamaBackend

def decimal (n : Nat) : String :=
  String.ofList (Nat.toDigits 10 n)

/-- `format!("/slots/{id}?action={action}")`. -/
def slotPath (id : SlotId) (action : String) : String :=
  "/slots/" ++ decimal id.toNat ++ ("?action=" ++ action)

def fileBody (name : String) : Value :=
  .object [("filename", .string name)]

/-- The object `prefill_only` builds, and the field it inserts then. -/
def prefillBody (slot : SlotId) (messages : Value) : Value :=
  .object (insertField "max_tokens" (.number (.ofNat 0))
    [("id_slot", slotNumber slot), ("messages", messages), ("stream", .bool false)])

def LlamaBackend.request (backend : LlamaBackend) : Call → Request
  | .slots => backend.get "/slots"
  | .prefillOnly slot messages => backend.post "/v1/chat/completions" (prefillBody slot messages)
  | .saveSlot id name => backend.post (slotPath id "save") (fileBody name)
  | .restoreSlot id name => backend.post (slotPath id "restore") (fileBody name)
  | .chat body => backend.post "/v1/chat/completions" body

/-! ## Replies -/

/-- `get_json`: the status is not looked at. -/
def getJson (path : String) : Reply → Except String Value
  | .failed e => .error ("GET " ++ path ++ ": " ++ e)
  | .answered _ (.ok v) => .ok v
  | .answered _ (.error e) => .error ("GET " ++ path ++ " json: " ++ e)

/-- `post_json`: a body that is not JSON is replaced. -/
def postJson : Reply → Except String (UInt16 × Value)
  | .failed e => .error e
  | .answered code (.ok v) => .ok (code, v)
  | .answered code (.error e) => .ok (code, .object [("unparsed", .string e)])

def accepted (method : String) (reply : Reply) : Except String Value :=
  match postJson reply with
  | .ok (code, v) =>
      if code < 300 then .ok v
      else .error (method ++ ": " ++ decimal code.toNat ++ ": " ++ String.ofList v.text)
  | .error e => .error e

/-- `Value::as_u64`. -/
def asU64 : Value → Option UInt64
  | .number n =>
      if n.text.all Char.isDigit = true ∧ Nat.ofDigitChars 10 n.text 0 < 2 ^ 64 then
        some (.ofNat (Nat.ofDigitChars 10 n.text 0))
      else none
  | _ => none

def asBool : Value → Option Bool
  | .bool b => some b
  | _ => none

/-- The loop body of `slots`: entries without an `id` are skipped, ids are cut to
32 bits, and a slot that is not said to be idle is taken to be processing. -/
def slotState? (s : Value) : Option SlotState :=
  ((get? s "id").bind asU64).map fun x =>
    { id := x.toUInt32
      isProcessing := ((get? s "is_processing").bind asBool).getD true
      nTokens := ((get? s "n_prompt_tokens").bind asU64).getD 0 }

def parseSlots : Value → Except String (List SlotState)
  | .array items => .ok (items.filterMap slotState?)
  | _ => .error "GET /slots: not an array"

def slotsReply (reply : Reply) : Except String (List SlotState) :=
  (getJson "/slots" reply).bind parseSlots

/-! ## Reading requests -/

def asString : Value → Option String
  | .string s => some s
  | _ => none

def slotOf (n : Nat) : SlotId :=
  UInt32.ofNat n

theorem slotOf_toNat (id : SlotId) : slotOf id.toNat = id :=
  UInt32.ofNat_toNat

/-- The slot and the action of a slot's path. -/
def slotAction? (path : List Char) : Option (SlotId × List Char) :=
  (path.dropPrefix? "/slots/".toList).bind fun rest =>
    ((rest.dropWhile Char.isDigit).dropPrefix? "?action=".toList).map fun action =>
      (slotOf (Nat.ofDigitChars 10 (rest.takeWhile Char.isDigit) 0), action)

/-- The bodies that a prefill sends, and nothing else. -/
def prefill? : Value → Option (SlotId × Value)
  | .object [("id_slot", .number n), ("max_tokens", .number m), ("messages", messages),
      ("stream", .bool false)] =>
      let slot := slotOf (Nat.ofDigitChars 10 n.text 0)
      if n = .ofNat slot.toNat ∧ m = .ofNat 0 then some (slot, messages) else none
  | _ => none

/-- A chat with a prefill's body is that prefill. -/
def Call.read : Call → Call
  | .chat body =>
      match prefill? body with
      | some (slot, messages) => .prefillOnly slot messages
      | none => .chat body
  | call => call

/-- What a server at `base` takes a request for. -/
def decode (base : String) (request : Request) : Option Call :=
  (request.url.toList.dropPrefix? base.toList).bind fun path =>
    match request.method, request.json with
    | .get, none => if path = "/slots".toList then some .slots else none
    | .post, some body =>
        if path = "/v1/chat/completions".toList then some (Call.chat body).read
        else
          match slotAction? path, (get? body "filename").bind asString with
          | some (slot, action), some name =>
              if action = "save".toList then some (.saveSlot slot name)
              else if action = "restore".toList then some (.restoreSlot slot name)
              else none
          | _, _ => none
    | _, _ => none

theorem slotAction?_slotPath (id : SlotId) (action : String) :
    slotAction? (slotPath id action).toList = some (id, action.toList) := by
  have digits : ∀ c ∈ Nat.toDigits 10 id.toNat, c.isDigit = true :=
    fun c member => Nat.isDigit_of_mem_toDigits (by decide) (by decide) member
  have path : (slotPath id action).toList =
      "/slots/".toList ++ (Nat.toDigits 10 id.toNat ++ ("?action=".toList ++ action.toList)) := by
    simp only [slotPath, decimal, String.toList_append, String.toList_ofList, List.append_assoc]
  have mark : ("?action=".toList ++ action.toList).takeWhile Char.isDigit = [] := rfl
  have unread : ("?action=".toList ++ action.toList).dropWhile Char.isDigit =
      "?action=".toList ++ action.toList := rfl
  rw [slotAction?, path, List.dropPrefix?_append_of_beq _ (by simp), Option.bind_some,
    List.takeWhile_append_of_pos digits, List.dropWhile_append_of_pos digits, mark, unread,
    List.append_nil, List.dropPrefix?_append_of_beq _ (by simp), Option.map_some,
    Nat.ofDigitChars_ten_toDigits, slotOf_toNat]

/-- The fields as they are sent, in order. -/
theorem prefillBody_eq (slot : SlotId) (messages : Value) :
    prefillBody slot messages =
      .object [("id_slot", slotNumber slot), ("max_tokens", .number (.ofNat 0)),
        ("messages", messages), ("stream", .bool false)] := by
  have behind : ¬ "max_tokens" < "id_slot" := by decide
  have before : "max_tokens" < "messages" := by decide
  simp [prefillBody, insertField, behind, before]

theorem prefill?_prefillBody (slot : SlotId) (messages : Value) :
    prefill? (prefillBody slot messages) = some (slot, messages) := by
  have digits : (Number.ofNat slot.toNat).text = Nat.toDigits 10 slot.toNat := rfl
  simp only [prefill?, prefillBody_eq, slotNumber, digits, Nat.ofDigitChars_ten_toDigits, slotOf_toNat,
    and_self, if_true]

theorem prefillBody_of_prefill? {body : Value} {slot : SlotId} {messages : Value}
    (prefills : prefill? body = some (slot, messages)) : body = prefillBody slot messages := by
  unfold prefill? at prefills
  split at prefills
  · rename_i n m sent
    dsimp only at prefills
    split_ifs at prefills with written
    obtain ⟨rfl, rfl⟩ := Prod.mk.inj (Option.some.inj prefills)
    simp only [prefillBody_eq, slotNumber, ← written.1, ← written.2]
  · cases prefills

section Requests

variable (backend : LlamaBackend)

theorem request_read (call : Call) : backend.request call.read = backend.request call := by
  cases call with
  | chat body =>
      rw [Call.read]
      split
      · rename_i slot messages prefills
        rw [prefillBody_of_prefill? prefills]
        rfl
      · rfl
  | slots | prefillOnly | saveSlot | restoreSlot => rfl

theorem decode_request (call : Call) :
    decode backend.base (backend.request call) = some call.read := by
  have under (path : String) : (backend.url path).toList.dropPrefix? backend.base.toList =
      some path.toList := by
    rw [LlamaBackend.url, String.toList_append, List.dropPrefix?_append_of_beq _ (by simp)]
  have apart (id : SlotId) (action : String) :
      (slotPath id action).toList ≠ "/v1/chat/completions".toList := by
    intro same
    have read := congrArg slotAction? same
    rw [slotAction?_slotPath] at read
    cases read
  cases call with
  | slots => rw [decode, LlamaBackend.request, LlamaBackend.get, under]; rfl
  | prefillOnly slot messages =>
      rw [decode, LlamaBackend.request, LlamaBackend.post, under, Option.bind_some]
      simp only [if_true, Call.read, prefill?_prefillBody]
  | saveSlot id name =>
      rw [decode, LlamaBackend.request, LlamaBackend.post, under, Option.bind_some]
      simp only [apart, if_false, slotAction?_slotPath]
      rfl
  | restoreSlot id name =>
      rw [decode, LlamaBackend.request, LlamaBackend.post, under, Option.bind_some]
      simp only [apart, if_false, slotAction?_slotPath]
      rfl
  | chat body =>
      rw [decode, LlamaBackend.request, LlamaBackend.post, under, Option.bind_some]
      simp only [if_true]

/-- Two calls send one request if and only if they are one call, but for a chat that
sends what a prefill does. -/
theorem request_eq_iff (call other : Call) :
    backend.request call = backend.request other ↔ call.read = other.read := by
  constructor
  · intro same
    have read := congrArg (decode backend.base) same
    rw [decode_request, decode_request] at read
    exact Option.some.inj read
  · intro same
    rw [← request_read backend call, same, request_read]

end Requests

end Ollm.Llama
