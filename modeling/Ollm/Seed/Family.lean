import Ollm.Keying.Session

/-!
# Seed families

Requests with the same system messages form a family.  The key of a family and
the session key of a request without a session header hash the same bytes,
which tell the sequence of system messages.
-/

namespace Ollm.Seed

open Json Keying

def hex16 (digest : Digest) : String :=
  hexPrefix 16 digest

/-- `SeedDance::system_hash`. -/
def systemHash (sha256 : List UInt8 → Digest) (messages : Value) : Option String :=
  match get? messages "messages" with
  | some (.array msgs) =>
      let systems := msgs.filter isSystem
      if systems.isEmpty then none
      else some (hex16 (sha256 (systems.flatMap fun m => toVec m ++ [0])))
  | _ => none

variable (sha256 : List UInt8 → Digest)

theorem systemMessages_of_array {body : Value} {messages : List Value}
    (found : get? body "messages" = some (.array messages)) :
    systemMessages body = messages.filter isSystem := by
  rw [systemMessages, found]

theorem systemMessages_of_noArray {body : Value}
    (noArray : ∀ messages, get? body "messages" = some (.array messages) → False) :
    systemMessages body = [] := by
  unfold systemMessages
  split
  next messages found => exact (noArray messages found).elim
  next => rfl

/-- Two functions of the source, one recognition key. -/
theorem systemHash_eq (body : Value) :
    systemHash sha256 body =
      if (systemMessages body).isEmpty then none else some (hex16 (sha256 (systemInput body))) := by
  unfold systemHash
  split
  next messages found => rw [systemInput, systemMessages_of_array found]
  next noArray => simp [systemMessages_of_noArray noArray]

theorem systemHash_eq_none_iff (body : Value) :
    systemHash sha256 body = none ↔ systemMessages body = [] := by
  rw [systemHash_eq]
  simp

theorem systemHash_eq_some {body : Value} {key : String}
    (hashed : systemHash sha256 body = some key) : key = hex16 (sha256 (systemInput body)) := by
  rw [systemHash_eq] at hashed
  split_ifs at hashed
  exact (Option.some.inj hashed).symm

theorem systemInput_utf8 (body : Value) :
    systemInput body =
      ((systemMessages body).flatMap fun message => message.text ++ ['\x00']).flatMap
        String.utf8EncodeChar := by
  have zero : String.utf8EncodeChar '\x00' = [0] := by decide
  rw [systemInput, List.flatMap_assoc]
  apply List.flatMap_congr
  intro message _
  rw [List.flatMap_append, List.flatMap_singleton, zero]
  rfl

/-- The hashed bytes tell the system messages. -/
theorem systemInput_eq_iff (body other : Value) :
    systemInput body = systemInput other ↔ systemMessages body = systemMessages other := by
  constructor
  · intro same
    rw [systemInput_utf8, systemInput_utf8] at same
    exact terminated_inj (by decide) (utf8_inj same)
  · intro same
    rw [systemInput, systemInput, same]

section Keys

variable {headers headers' : HeaderMap} {headerName : String}

theorem sessionKey_of_no_header (absent : headerSession headers headerName = none)
    (body : Value) :
    sessionKey sha256 headers body headerName =
      some ("conv-" ++ hex16 (sha256 (systemInput body))) := by
  rw [sessionKey, absent]
  rfl

theorem sessionKey_eq_of_systemMessages (absent : headerSession headers headerName = none)
    (absent' : headerSession headers' headerName = none) {body other : Value}
    (same : systemMessages body = systemMessages other) :
    sessionKey sha256 headers body headerName = sessionKey sha256 headers' other headerName := by
  rw [sessionKey_of_no_header sha256 absent, sessionKey_of_no_header sha256 absent',
    (systemInput_eq_iff body other).mpr same]

/-- Unless the truncated hash collides on the two inputs, one key means one
sequence of system messages. -/
theorem systemMessages_eq_of_sessionKey (absent : headerSession headers headerName = none)
    (absent' : headerSession headers' headerName = none) {body other : Value}
    (collisionFree : hex16 (sha256 (systemInput body)) = hex16 (sha256 (systemInput other)) →
      systemInput body = systemInput other)
    (same : sessionKey sha256 headers body headerName =
      sessionKey sha256 headers' other headerName) :
    systemMessages body = systemMessages other := by
  rw [sessionKey_of_no_header sha256 absent, sessionKey_of_no_header sha256 absent'] at same
  have hashes := (String.append_right_inj "conv-").mp (Option.some.inj same)
  exact (systemInput_eq_iff body other).mp (collisionFree hashes)

/-- Replacing a run of other messages by another keeps the system messages. -/
theorem systemMessages_eq_of_edit {body other : Value} {front back removed added : List Value}
    (found : get? body "messages" = some (.array (front ++ removed ++ back)))
    (found' : get? other "messages" = some (.array (front ++ added ++ back)))
    (plain : ∀ message ∈ removed ++ added, isSystem message = false) :
    systemMessages body = systemMessages other := by
  have none_of : ∀ {messages : List Value}, (∀ message ∈ messages, isSystem message = false) →
      messages.filter isSystem = [] := by
    intro messages all
    simpa using all
  rw [systemMessages_of_array found, systemMessages_of_array found']
  simp only [List.filter_append]
  rw [none_of fun message member => plain message (List.mem_append_left _ member),
    none_of fun message member => plain message (List.mem_append_right _ member)]

end Keys

/-- Without a session header, a request is keyed by its system messages. -/
theorem headerless_key_identifies_family (headerName : String) :
    (∀ body other, systemInput body = systemInput other ↔
      systemMessages body = systemMessages other) ∧
    (∀ headers headers' body other, headerSession headers headerName = none →
      headerSession headers' headerName = none →
      (systemMessages body = systemMessages other →
        sessionKey sha256 headers body headerName =
          sessionKey sha256 headers' other headerName) ∧
      ((hex16 (sha256 (systemInput body)) = hex16 (sha256 (systemInput other)) →
          systemInput body = systemInput other) →
        systemMessages body ≠ systemMessages other →
        sessionKey sha256 headers body headerName ≠
          sessionKey sha256 headers' other headerName)) ∧
    (∀ headers body other front back removed added,
      headerSession headers headerName = none →
      get? body "messages" = some (.array (front ++ removed ++ back)) →
      get? other "messages" = some (.array (front ++ added ++ back)) →
      (∀ message ∈ removed ++ added, isSystem message = false) →
      sessionKey sha256 headers body headerName =
        sessionKey sha256 headers other headerName) ∧
    (∀ body, systemHash sha256 body = none ↔ systemMessages body = []) ∧
    ∀ headers body key, headerSession headers headerName = none →
      systemHash sha256 body = some key →
      sessionKey sha256 headers body headerName = some ("conv-" ++ key) := by
  refine ⟨systemInput_eq_iff, ?_, ?_, systemHash_eq_none_iff sha256, ?_⟩
  · intro headers headers' body other absent absent'
    refine ⟨sessionKey_eq_of_systemMessages sha256 absent absent', ?_⟩
    intro collisionFree different same
    exact different
      (systemMessages_eq_of_sessionKey sha256 absent absent' collisionFree same)
  · intro headers body other front back removed added absent found found' plain
    apply sessionKey_eq_of_systemMessages sha256 absent absent
    exact systemMessages_eq_of_edit found found' plain
  · intro headers body key absent hashed
    rw [sessionKey_of_no_header sha256 absent, systemHash_eq_some sha256 hashed]

end Ollm.Seed
