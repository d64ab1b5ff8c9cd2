import Ollm.Keying.Safety
import Ollm.Library.Loop
import Ollm.Library.Runs

/-!
# What sanitizing does to a header

Each pass of the replacement loop only about halves the runs of dots, but it
leaves what they shrink to.  So the loop ends in the shrunken text.  Cutting
that at 96 characters leaves it shrunken, and sanitizing twice is sanitizing
once.
-/

namespace Ollm.Keying

open Runs

theorem shrink_dots (cs : List Char) : shrink '.' cs = squeezeDots cs := by
  fun_induction squeezeDots cs with
  | case1 => rfl
  | case2 c rest dots inductionHypothesis =>
      obtain ⟨rfl, head⟩ := dots
      rw [shrink_cons_mark head, inductionHypothesis]
  | case3 c rest apart inductionHypothesis =>
      rw [shrink_cons apart, inductionHypothesis]

theorem shrink_replaceDoubleDots (cs : List Char) :
    shrink '.' (replaceDoubleDots cs) = shrink '.' cs := by
  rw [shrink_dots, shrink_dots, squeezeDots_replaceDoubleDots]

theorem collapseDots_shrinks (cs : List Char) : collapseDots cs = shrink '.' cs := by
  rw [collapseDots_eq, shrink_dots]

/-- The loop ends, with every run of dots shrunk to one. -/
theorem dotLoop_ends (cs : List Char) :
    ∃ passes, passes ≤ cs.length ∧
      Loop.Ends hasDoubleDot replaceDoubleDots cs passes (collapseDots cs) := by
  obtain ⟨passes, last, few, ends⟩ :=
    Loop.exists_ends List.length (fun _ => length_replaceDoubleDots_lt) cs
  -- a partly collapsed text shrinks to the same as the whole one
  have same : shrink '.' last = shrink '.' cs := by
    apply ends.invariant (shrink '.' · = shrink '.' cs) _ rfl
    intro state same _
    exact (shrink_replaceDoubleDots state).trans same
  have collapsed : shrink '.' last = last := by
    rw [shrink_dots, squeezeDots_eq_self ends.exit]
  rw [collapseDots_shrinks, ← same, collapsed]
  exact ⟨passes, few, ends⟩

theorem map_safeChar_eq_self {cs : List Char} (safe : ∀ c ∈ cs, isSafe c = true) :
    cs.map safeChar = cs := by
  calc
    cs.map safeChar = cs.map id := List.map_congr_left fun c member => if_pos (safe c member)
    _ = cs := List.map_id cs

/-- A safe text without runs of dots that is neither empty nor too long is its own normal form. -/
theorem sanitize_eq_self {t : String} (nonempty : t ≠ "")
    (safe : ∀ c ∈ t.toList, isSafe c = true) (single : SingleDots t.toList)
    (short : t.length ≤ 96) : sanitize t = some t := by
  have own : normalForm t = t.toList := by
    rw [normalForm, map_safeChar_eq_self safe, ← shrink_dots, shrink_eq_self single,
      List.take_of_length_le (by rwa [String.length_toList])]
  rw [sanitize_eq, if_neg nonempty, own, String.ofList_toList]

theorem sanitize_of_sanitize {s out : String} (sanitized : sanitize s = some out) :
    sanitize out = some out := by
  rw [sanitize_eq] at sanitized
  obtain rfl := Option.some.inj sanitized
  split_ifs with empty
  · apply sanitize_eq_self (by decide) (List.all_eq_true.mp (by decide))
      (singleDots_of_notMem (by decide)) (by decide)
  · have chars : (String.ofList (normalForm s)).toList = normalForm s := String.toList_ofList
    apply sanitize_eq_self
    · intro none
      rw [none] at chars
      exact empty (normalForm_eq_nil_iff.mp chars.symm)
    · rw [chars]
      exact fun _ => isSafe_of_mem_normalForm
    · rw [chars]
      exact singleDots_normalForm s
    · rw [← String.length_toList, chars]
      exact List.length_take_le _ _

/-- What `sanitize` returns for any text, how its loop gets there, and that it is stable. -/
theorem sanitize_shrinks_runs (s : String) :
    (∃ passes ≤ s.length, Loop.Ends hasDoubleDot replaceDoubleDots (s.toList.map safeChar) passes
      (collapseDots (s.toList.map safeChar))) ∧
    sanitize s = some (if s = "" then "session"
      else String.ofList ((shrink '.' (s.toList.map safeChar)).take 96)) ∧
    (sanitize s).bind sanitize = sanitize s := by
  refine ⟨?_, ?_, ?_⟩
  · obtain ⟨passes, few, ends⟩ := dotLoop_ends (s.toList.map safeChar)
    rw [List.length_map, String.length_toList] at few
    exact ⟨passes, few, ends⟩
  · rw [sanitize_eq, normalForm, shrink_dots]
  · obtain ⟨out, sanitized, -⟩ := safeSession_header s
    rw [sanitized, Option.bind_some]
    exact sanitize_of_sanitize sanitized

end Ollm.Keying
