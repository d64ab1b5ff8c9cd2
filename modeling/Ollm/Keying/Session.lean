import Mathlib.Data.List.Basic
import Ollm.Keying.Signature

/-!
# Session keys

A request names its conversation by a header, or else by the hash of its
system messages.  Header values pass through `sanitize`, which always succeeds
and whose result is the value's normal form: unsafe characters replaced, runs
of dots collapsed, cut at 96 characters.
-/

namespace Ollm.Keying

open Json

def isSafe (c : Char) : Bool :=
  c.isAlphanum || c = '.' || c = '_' || c = '-'

def safeChar (c : Char) : Char :=
  if isSafe c then c else '-'

/-- `out.contains("..")`. -/
def hasDoubleDot : List Char → Bool
  | '.' :: '.' :: _ => true
  | _ :: rest => hasDoubleDot rest
  | [] => false

/-- `out.replace("..", ".")`: leftmost occurrences that do not overlap. -/
def replaceDoubleDots : List Char → List Char
  | '.' :: '.' :: rest => '.' :: replaceDoubleDots rest
  | c :: rest => c :: replaceDoubleDots rest
  | [] => []

theorem length_replaceDoubleDots_le (cs : List Char) :
    (replaceDoubleDots cs).length ≤ cs.length := by
  fun_induction replaceDoubleDots cs with
  | case1 rest inductionHypothesis =>
      simp only [List.length_cons]
      omega
  | case2 c rest _ inductionHypothesis => simpa using inductionHypothesis
  | case3 => exact Nat.le_refl _

theorem length_replaceDoubleDots_lt {cs : List Char} (double : hasDoubleDot cs = true) :
    (replaceDoubleDots cs).length < cs.length := by
  fun_induction hasDoubleDot cs with
  | case1 rest =>
      have := length_replaceDoubleDots_le rest
      simp only [replaceDoubleDots, List.length_cons]
      omega
  | case2 c rest other inductionHypothesis =>
      rw [replaceDoubleDots.eq_2 c rest other]
      simpa using inductionHypothesis double
  | case3 => cases double

/-- The loop `while out.contains("..")`. -/
def collapseDots (cs : List Char) : List Char :=
  if hasDoubleDot cs then collapseDots (replaceDoubleDots cs) else cs
termination_by cs.length
decreasing_by exact length_replaceDoubleDots_lt ‹_›

/-- `String::truncate`; `none` is the panic inside a character. -/
def truncate : Nat → List Char → Option (List Char)
  | _, [] => some []
  | 0, _ => some []
  | n, c :: rest =>
      if c.utf8Size ≤ n then (truncate (n - c.utf8Size) rest).map (c :: ·) else none

def sanitize (s : String) : Option String := do
  let out ← truncate 96 (collapseDots (s.toList.map safeChar))
  pure (if out = [] then "session" else String.ofList out)

/-- Header names are stored in lower case; values are bytes. -/
abbrev HeaderMap := List (String × List UInt8)

def HeaderMap.get (headers : HeaderMap) (name : String) : Option (List UInt8) :=
  (headers.find? (·.1 == String.ofList (name.toList.map Char.toLower))).map (·.2)

/-- `HeaderValue::to_str`: only visible ASCII and tabs are readable. -/
def toStr (value : List UInt8) : Option String :=
  if value.all fun b => (32 ≤ b && b < 127) || b == 9 then
    some (String.ofList (value.map fun b => Char.ofNat b.toNat))
  else
    none

def isSystem : Value → Bool
  | message => match get? message "role" with
      | some (.string role) => role == "system"
      | _ => false

def systemMessages (body : Value) : List Value :=
  match get? body "messages" with
  | some (.array messages) => messages.filter isSystem
  | _ => []

/-- What the fallback hashes: every system message, each closed by a zero byte. -/
def systemInput (body : Value) : List UInt8 :=
  (systemMessages body).flatMap fun message => toVec message ++ [0]

/-- The header's value if the request has a readable non-empty one. -/
def headerSession (headers : HeaderMap) (headerName : String) : Option String :=
  ((headers.get headerName).bind toStr).filter (· ≠ "")

/-- The header first, else the system messages; `none` if `sanitize` panics. -/
def sessionKey (sha256 : List UInt8 → Digest) (headers : HeaderMap) (body : Value)
    (headerName : String) : Option String :=
  match headerSession headers headerName with
  | some v => (sanitize v).map ("hdr-" ++ ·)
  | none => some ("conv-" ++ hexPrefix 16 (sha256 (systemInput body)))

/-! ## What `sanitize` computes -/

def squeezeDots : List Char → List Char
  | [] => []
  | c :: rest =>
      if c = '.' ∧ rest.head? = some '.' then squeezeDots rest else c :: squeezeDots rest

/-- Values with one normal form are one session. -/
def normalForm (s : String) : List Char :=
  (squeezeDots (s.toList.map safeChar)).take 96

theorem squeezeDots_dot_dot (rest : List Char) :
    squeezeDots ('.' :: '.' :: rest) = squeezeDots ('.' :: rest) := by
  rw [squeezeDots.eq_2, if_pos (by simp)]

/-- Squeezing depends on what follows only through its first character. -/
theorem squeezeDots_cons_congr {c : Char} {rest rest' : List Char}
    (heads : rest.head? = rest'.head?) (squeezed : squeezeDots rest = squeezeDots rest') :
    squeezeDots (c :: rest) = squeezeDots (c :: rest') := by
  rw [squeezeDots, squeezeDots, heads, squeezed]

theorem head?_replaceDoubleDots (cs : List Char) :
    (replaceDoubleDots cs).head? = cs.head? := by
  fun_cases replaceDoubleDots cs <;> rfl

theorem squeezeDots_replaceDoubleDots (cs : List Char) :
    squeezeDots (replaceDoubleDots cs) = squeezeDots cs := by
  fun_induction replaceDoubleDots cs with
  | case1 rest inductionHypothesis =>
      rw [squeezeDots_dot_dot]
      exact squeezeDots_cons_congr (head?_replaceDoubleDots rest) inductionHypothesis
  | case2 c rest _ inductionHypothesis =>
      exact squeezeDots_cons_congr (head?_replaceDoubleDots rest) inductionHypothesis
  | case3 => rfl

theorem squeezeDots_eq_self {cs : List Char} (single : hasDoubleDot cs = false) :
    squeezeDots cs = cs := by
  fun_induction hasDoubleDot cs with
  | case1 => cases single
  | case2 c rest other inductionHypothesis =>
      have apart : ¬ (c = '.' ∧ rest.head? = some '.') := by
        rintro ⟨rfl, next⟩
        obtain ⟨later, rfl⟩ := List.head?_eq_some_iff.mp next
        exact other later rfl rfl
      rw [squeezeDots, if_neg apart, inductionHypothesis single]
  | case3 => rfl

/-- The replacement loop ends with every run of dots squeezed. -/
theorem collapseDots_eq (cs : List Char) : collapseDots cs = squeezeDots cs := by
  fun_induction collapseDots cs with
  | case1 cs _ inductionHypothesis =>
      rw [inductionHypothesis, squeezeDots_replaceDoubleDots]
  | case2 cs single => exact (squeezeDots_eq_self (by simpa using single)).symm

theorem squeezeDots_subset (cs : List Char) : squeezeDots cs ⊆ cs := by
  fun_induction squeezeDots cs with
  | case1 => exact List.Subset.refl _
  | case2 c rest _ inductionHypothesis => exact List.subset_cons_of_subset _ inductionHypothesis
  | case3 c rest _ inductionHypothesis => exact List.cons_subset_cons _ inductionHypothesis

theorem isSafe_safeChar (c : Char) : isSafe (safeChar c) = true := by
  unfold safeChar
  split_ifs with safe
  · exact safe
  · decide

theorem utf8Size_of_isSafe {c : Char} (safe : isSafe c = true) : c.utf8Size = 1 := by
  rw [Char.utf8Size_eq_one_iff]
  delta isSafe Char.isAlphanum Char.isAlpha Char.isUpper Char.isLower Char.isDigit at safe
  simp only [Bool.or_eq_true, Bool.and_eq_true, decide_eq_true_eq] at safe
  rcases safe with ((((⟨_, upper⟩ | ⟨_, lower⟩) | ⟨_, digit⟩) | rfl) | rfl) | rfl
  · exact UInt32.le_trans upper (by decide)
  · exact UInt32.le_trans lower (by decide)
  · exact UInt32.le_trans digit (by decide)
  all_goals decide

theorem truncate_eq_take {cs : List Char} (single : ∀ c ∈ cs, c.utf8Size = 1) (n : Nat) :
    truncate n cs = some (cs.take n) := by
  fun_induction truncate n cs with
  | case1 => simp
  | case2 => simp
  | case3 n c rest positive fits inductionHypothesis =>
      have one := single c List.mem_cons_self
      rw [inductionHypothesis fun d member => single d (List.mem_cons_of_mem _ member), one]
      obtain ⟨m, rfl⟩ := Nat.exists_eq_add_one_of_ne_zero positive
      simp
  | case4 n c rest positive large =>
      have one := single c List.mem_cons_self
      exact absurd (Nat.pos_of_ne_zero positive) (by omega)

theorem normalForm_eq_nil_iff {s : String} : normalForm s = [] ↔ s = "" := by
  constructor
  · intro empty
    rw [normalForm, List.take_eq_nil_iff] at empty
    rcases empty with zero | empty
    · cases zero
    · have squeezed : ∀ cs, squeezeDots cs = [] → cs = [] := by
        intro cs
        fun_induction squeezeDots cs with
        | case1 => simp
        | case2 c rest dots inductionHypothesis =>
            intro none
            simp [inductionHypothesis none] at dots
        | case3 => simp
      have chars := squeezed _ empty
      exact String.toList_inj.mp (by simpa using chars)
  · rintro rfl
    rfl

/-- `sanitize` never panics, and computes the normal form. -/
theorem sanitize_eq (s : String) :
    sanitize s = some (if s = "" then "session" else String.ofList (normalForm s)) := by
  have single : ∀ c ∈ squeezeDots (s.toList.map safeChar), c.utf8Size = 1 := by
    intro c member
    obtain ⟨d, _, rfl⟩ := List.mem_map.mp (squeezeDots_subset _ member)
    exact utf8Size_of_isSafe (isSafe_safeChar d)
  have cut : truncate 96 (collapseDots (s.toList.map safeChar)) = some (normalForm s) := by
    rw [collapseDots_eq, truncate_eq_take single, normalForm]
  rw [sanitize, cut]
  simp only [Option.bind_eq_bind, Option.bind_some, normalForm_eq_nil_iff, Option.pure_def]

/-- A readable header keys the request by its normal form. -/
theorem sessionKey_of_header (sha256 : List UInt8 → Digest) {headers : HeaderMap}
    {headerName v : String} (header : headerSession headers headerName = some v)
    (body : Value) :
    sessionKey sha256 headers body headerName =
      some ("hdr-" ++ String.ofList (normalForm v)) := by
  have nonempty : v ≠ "" := by simpa using (Option.filter_eq_some_iff.mp header).2
  simp [sessionKey, header, sanitize_eq, nonempty]

end Ollm.Keying
