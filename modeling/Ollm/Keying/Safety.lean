import Mathlib.Data.List.Chain
import Ollm.Keying.Names
import Ollm.Keying.Session

/-!
# Cache file names are safe

Whatever a client sends, the four files kept for its session have names of
letters, digits, dots, underscores and hyphens, without two dots in a row and
of at most 128 bytes.  Such a name denotes a file in the cache directory.
-/

namespace Ollm.Keying

structure SafeName (name : String) : Prop where
  chars : ∀ c ∈ name.toList, isSafe c = true
  slash : '/' ∉ name.toList
  dots : ¬ ['.', '.'] <:+: name.toList
  short : name.utf8ByteSize ≤ 128

def isHexDigit (c : Char) : Bool :=
  c.isDigit || ('a' ≤ c && c ≤ 'f') || ('A' ≤ c && c ≤ 'F')

/-- A signature as it stands in file names. -/
structure HexSignature (sig : String) : Prop where
  length : sig.length = 12
  digits : ∀ c ∈ sig.toList, isHexDigit c = true

/-! ## Runs of dots -/

/-- No two dots in a row. -/
def SingleDots (cs : List Char) : Prop :=
  cs.IsChain fun c d => ¬ (c = '.' ∧ d = '.')

instance (cs : List Char) : Decidable (SingleDots cs) :=
  inferInstanceAs (Decidable (cs.IsChain _))

theorem SingleDots.not_infix {cs : List Char} (single : SingleDots cs) :
    ¬ ['.', '.'] <:+: cs := by
  intro inside
  have apart := List.IsChain.infix single inside
  simp at apart

theorem singleDots_of_notMem {cs : List Char} (none : '.' ∉ cs) : SingleDots cs := by
  induction cs with
  | nil => exact .nil
  | cons c rest inductionHypothesis =>
      have later := inductionHypothesis fun member => none (List.mem_cons_of_mem _ member)
      apply List.IsChain.cons later
      rintro d _ ⟨rfl, -⟩
      exact none List.mem_cons_self

/-- A dot must not meet a dot where two texts are joined. -/
theorem SingleDots.append {first second : List Char} (left : SingleDots first)
    (right : SingleDots second)
    (seam : first.getLast? ≠ some '.' ∨ second.head? ≠ some '.') :
    SingleDots (first ++ second) := by
  apply List.IsChain.append left right
  rintro c last d head ⟨rfl, rfl⟩
  rcases seam with notLast | notHead
  · exact notLast last
  · exact notHead head

theorem head?_squeezeDots (cs : List Char) : (squeezeDots cs).head? = cs.head? := by
  fun_induction squeezeDots cs with
  | case1 => rfl
  | case2 c rest dots inductionHypothesis =>
      rw [inductionHypothesis, dots.1, dots.2, List.head?_cons]
  | case3 => rfl

theorem singleDots_squeezeDots (cs : List Char) : SingleDots (squeezeDots cs) := by
  fun_induction squeezeDots cs with
  | case1 => exact .nil
  | case2 c rest _ inductionHypothesis => exact inductionHypothesis
  | case3 c rest apart inductionHypothesis =>
      apply List.IsChain.cons inductionHypothesis
      rintro d head ⟨rfl, rfl⟩
      rw [head?_squeezeDots] at head
      exact apart ⟨rfl, head⟩

/-! ## What the parts of a name are made of -/

theorem isSafe_of_isHexDigit {c : Char} (digit : isHexDigit c = true) : isSafe c = true := by
  have alphanum : c.isAlphanum = true := by
    delta isHexDigit at digit
    delta Char.isAlphanum Char.isAlpha Char.isUpper Char.isLower
    delta Char.isDigit at digit ⊢
    simp only [Bool.or_eq_true, Bool.and_eq_true, decide_eq_true_eq, UInt32.le_iff_toNat_le,
      ge_iff_le, Char.le_def] at digit ⊢
    have upper : 'F'.val.toNat ≤ 'Z'.val.toNat := by decide
    have lower : 'f'.val.toNat ≤ 'z'.val.toNat := by decide
    omega
  simp [isSafe, alphanum]

theorem isHexDigit_digitChar : ∀ n < 16, isHexDigit (Nat.digitChar n) = true := by decide

theorem isHexDigit_of_mem_hexPrefix {n : Nat} {digest : Digest} {c : Char}
    (member : c ∈ (hexPrefix n digest).toList) : isHexDigit c = true := by
  rw [hexPrefix, String.toList_ofList, hex, String.toList_ofList] at member
  obtain ⟨byte, _, inByte⟩ := List.mem_flatMap.mp (List.mem_of_mem_take member)
  have small := byte.toNat_lt
  simp only [hexByte, List.mem_cons, List.not_mem_nil, or_false] at inByte
  rcases inByte with rfl | rfl
  · exact isHexDigit_digitChar _ (by omega)
  · exact isHexDigit_digitChar _ (by omega)

theorem hexSignature_backendSig (sha256 : List UInt8 → Digest) (props : Option Json.Value) :
    HexSignature (backendSig sha256 props) :=
  ⟨length_backendSig sha256 props, fun _ => isHexDigit_of_mem_hexPrefix⟩

theorem notMem_of_isHexDigit {cs : List Char} {c : Char} (other : isHexDigit c = false)
    (digits : ∀ d ∈ cs, isHexDigit d = true) : c ∉ cs := by
  intro member
  rw [digits c member] at other
  cases other

theorem utf8ByteSize_of_isSafe {name : String} (safe : ∀ c ∈ name.toList, isSafe c = true) :
    name.utf8ByteSize = name.length := by
  have bytes : ∀ cs : List Char, (∀ c ∈ cs, isSafe c = true) →
      (String.ofList cs).utf8ByteSize = cs.length := by
    intro cs
    induction cs with
    | nil => intro _; rfl
    | cons c rest inductionHypothesis =>
        intro safe
        have later := inductionHypothesis fun d member => safe d (List.mem_cons_of_mem _ member)
        rw [String.ofList_cons, String.utf8ByteSize_append, String.utf8ByteSize_singleton,
          utf8Size_of_isSafe (safe c List.mem_cons_self), later, List.length_cons, Nat.add_comm]
  have whole := bytes name.toList safe
  rwa [String.ofList_toList, String.length_toList] at whole

/-! ## Sessions -/

/-- What `session_key` makes: at most `"hdr-"` and 96 characters. -/
structure SafeSession (session : String) : Prop where
  chars : ∀ c ∈ session.toList, isSafe c = true
  dots : SingleDots session.toList
  short : session.length ≤ 100

theorem isSafe_of_mem_normalForm {s : String} {c : Char} (member : c ∈ normalForm s) :
    isSafe c = true := by
  obtain ⟨d, _, rfl⟩ := List.mem_map.mp (squeezeDots_subset _ (List.mem_of_mem_take member))
  exact isSafe_safeChar d

theorem singleDots_normalForm (s : String) : SingleDots (normalForm s) :=
  List.IsChain.take (singleDots_squeezeDots _) 96

/-- `sanitize` never panics, and a header keys a safe session. -/
theorem safeSession_header (s : String) :
    ∃ out, sanitize s = some out ∧ SafeSession ("hdr-" ++ out) := by
  refine ⟨_, sanitize_eq s, ?_⟩
  split_ifs with empty
  · exact ⟨List.all_eq_true.mp (by decide), singleDots_of_notMem (by decide), by decide⟩
  · have chars : ("hdr-" ++ String.ofList (normalForm s)).toList =
        "hdr-".toList ++ normalForm s := by simp
    refine ⟨?_, ?_, ?_⟩
    · intro c member
      rw [chars] at member
      rcases List.mem_append.mp member with front | rest
      · exact List.all_eq_true.mp (by decide) c front
      · exact isSafe_of_mem_normalForm rest
    · rw [chars]
      apply SingleDots.append (singleDots_of_notMem (by decide)) (singleDots_normalForm s)
      exact .inl (by decide)
    · have cut : (normalForm s).length ≤ 96 := List.length_take_le _ _
      rw [← String.length_toList, chars, List.length_append]
      exact Nat.add_le_add_left cut 4

theorem safeSession_conversation (digest : Digest) :
    SafeSession ("conv-" ++ hexPrefix 16 digest) := by
  have digits : ∀ c ∈ (hexPrefix 16 digest).toList, isHexDigit c = true :=
    fun _ => isHexDigit_of_mem_hexPrefix
  refine ⟨?_, ?_, ?_⟩
  · intro c member
    rw [String.toList_append] at member
    rcases List.mem_append.mp member with front | rest
    · exact List.all_eq_true.mp (by decide) c front
    · exact isSafe_of_isHexDigit (digits c rest)
  · rw [String.toList_append]
    apply SingleDots.append (singleDots_of_notMem (by decide))
      (singleDots_of_notMem (notMem_of_isHexDigit (by decide) digits))
    exact .inl (by decide)
  · rw [String.length_append, hexPrefix_length (by decide)]
    decide

theorem safeSession_sessionKey (sha256 : List UInt8 → Digest) (headers : HeaderMap)
    (body : Json.Value) (headerName : String) :
    ∃ session, sessionKey sha256 headers body headerName = some session ∧
      SafeSession session := by
  cases header : headerSession headers headerName with
  | some v =>
      obtain ⟨out, sanitized, safe⟩ := safeSession_header v
      exact ⟨_, by simp [sessionKey, header, sanitized], safe⟩
  | none =>
      refine ⟨_, ?_, safeSession_conversation (sha256 (systemInput body))⟩
      simp only [sessionKey, header]

/-! ## File names -/

theorem cacheName_toList (sig session : String) (role : Role) :
    (cacheName sig session role).toList =
      session.toList ++ ("__".toList ++ sig.toList ++ role.ending.toList) := by
  rw [cacheName, blobName, fileOf_eq]
  simp

theorem safe_ending (role : Role) :
    (∀ c ∈ role.ending.toList, isSafe c = true) ∧ SingleDots role.ending.toList ∧
      role.ending.length ≤ 14 := by
  refine ⟨List.all_eq_true.mp ?_, ?_, ?_⟩ <;> cases role <;> decide

/-- The four names of a session are safe: no dot meets another where the parts are joined. -/
theorem safeName_cacheName {sig session : String} (signature : HexSignature sig)
    (safe : SafeSession session) (role : Role) : SafeName (cacheName sig session role) := by
  obtain ⟨endingChars, endingDots, endingShort⟩ := safe_ending role
  have chars : ∀ c ∈ (cacheName sig session role).toList, isSafe c = true := by
    intro c member
    rw [cacheName_toList] at member
    rcases List.mem_append.mp member with front | rest
    · exact safe.chars c front
    rcases List.mem_append.mp rest with middle | last
    · rcases List.mem_append.mp middle with bars | digits
      · exact List.all_eq_true.mp (by decide) c bars
      · exact isSafe_of_isHexDigit (signature.digits c digits)
    · exact endingChars c last
  have dots : SingleDots (cacheName sig session role).toList := by
    have noDot : '.' ∉ "__".toList ++ sig.toList := by
      rw [List.mem_append, not_or]
      exact ⟨by decide, notMem_of_isHexDigit (by decide) signature.digits⟩
    rw [cacheName_toList]
    apply SingleDots.append safe.dots
    · apply SingleDots.append (singleDots_of_notMem noDot) endingDots
      exact .inl fun last => noDot (List.mem_of_getLast? last)
    · exact .inr (by simp)
  refine ⟨chars, ?_, dots.not_infix, ?_⟩
  · intro slash
    exact absurd (chars '/' slash) (by decide)
  · have sessionShort := safe.short
    have sigLength := signature.length
    rw [utf8ByteSize_of_isSafe chars, ← String.length_toList, cacheName_toList]
    simp only [List.length_append, String.length_toList]
    have bars : "__".length = 2 := by decide
    omega

/-- No client input leads out of the cache directory. -/
theorem client_names_safe (sha256 : List UInt8 → Digest) {sig : String}
    (signature : HexSignature sig) :
    (∀ value : String, ∃ out, sanitize value = some out ∧
      ∀ role, SafeName (cacheName sig ("hdr-" ++ out) role)) ∧
    ∀ (headers : HeaderMap) (body : Json.Value) (headerName : String),
      ∃ session, sessionKey sha256 headers body headerName = some session ∧
        ∀ role, SafeName (cacheName sig session role) := by
  constructor
  · intro value
    obtain ⟨out, sanitized, safe⟩ := safeSession_header value
    exact ⟨out, sanitized, safeName_cacheName signature safe⟩
  · intro headers body headerName
    obtain ⟨session, keyed, safe⟩ := safeSession_sessionKey sha256 headers body headerName
    exact ⟨session, keyed, safeName_cacheName signature safe⟩

/-- A value of dots and letters outside ASCII. -/
theorem client_names_safe_dots :
    ∃ out, sanitize "../..é" = some out ∧
      ∀ role, SafeName (cacheName "0123456789ab" ("hdr-" ++ out) role) :=
  (client_names_safe (fun _ => ⟨List.replicate 32 0, List.length_replicate⟩)
    ⟨by decide, List.all_eq_true.mp (by decide)⟩).1 "../..é"

end Ollm.Keying
