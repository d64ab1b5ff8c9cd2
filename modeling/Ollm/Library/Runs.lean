import Mathlib.Data.List.SplitBy

/-!
# Runs of a mark

A run is a maximal stretch of consecutive marks.  Shrinking leaves one mark of
every run and all other elements.
-/

namespace Runs

universe u

variable {α : Type u} [DecidableEq α] (mark : α)

/-- The list cut into its runs of marks and its other elements, each of these alone. -/
def stretches (xs : List α) : List (List α) :=
  xs.splitBy fun x y => decide (x = mark) && decide (y = mark)

def shrink (xs : List α) : List α :=
  (stretches mark xs).flatMap (·.take 1)

variable {mark}

theorem stretches_append {front rest : List α}
    (apart : front.getLast? ≠ some mark ∨ rest.head? ≠ some mark) :
    stretches mark (front ++ rest) = stretches mark front ++ stretches mark rest := by
  apply List.splitBy_append
  intro x last y head
  rw [Bool.and_eq_false_iff, decide_eq_false_iff_not, decide_eq_false_iff_not]
  rcases apart with notLast | notHead
  · left
    rintro rfl
    exact notLast last
  · right
    rintro rfl
    exact notHead head

/-- An element that does not begin a run is kept, and so is a run of one mark. -/
theorem shrink_cons {x : α} {rest : List α} (apart : ¬ (x = mark ∧ rest.head? = some mark)) :
    shrink mark (x :: rest) = x :: shrink mark rest := by
  have cut : stretches mark ([x] ++ rest) = [[x]] ++ stretches mark rest := by
    apply stretches_append
    rcases not_and_or.mp apart with other | ended
    · left
      simpa using other
    · exact .inr ended
  rw [shrink, ← List.singleton_append, cut]
  rfl

/-- A whole run becomes one mark. -/
theorem shrink_run (n : ℕ) {rest : List α} (ended : rest.head? ≠ some mark) :
    shrink mark (List.replicate (n + 1) mark ++ rest) = mark :: shrink mark rest := by
  have run : stretches mark (List.replicate (n + 1) mark) = [List.replicate (n + 1) mark] := by
    apply List.splitBy_of_isChain (by simp)
    apply List.isChain_replicate_of_rel
    simp
  rw [shrink, stretches_append (.inr ended), run]
  rfl

/-- A list that begins with a mark begins with a run. -/
theorem exists_run {xs : List α} (head : xs.head? = some mark) :
    ∃ n rest, xs = List.replicate (n + 1) mark ++ rest ∧ rest.head? ≠ some mark := by
  obtain ⟨later, rfl⟩ := List.head?_eq_some_iff.mp head
  induction later with
  | nil => exact ⟨0, [], by simp⟩
  | cons x later inductionHypothesis =>
      by_cases same : x = mark
      · subst same
        obtain ⟨n, rest, split, ended⟩ := inductionHypothesis rfl
        exact ⟨n + 1, rest, by rw [split]; rfl, ended⟩
      · exact ⟨0, x :: later, rfl, by simpa using same⟩

/-- A mark before a run belongs to the run. -/
theorem shrink_cons_mark {rest : List α} (head : rest.head? = some mark) :
    shrink mark (mark :: rest) = shrink mark rest := by
  obtain ⟨n, tail, rfl, ended⟩ := exists_run head
  calc
    shrink mark (mark :: (List.replicate (n + 1) mark ++ tail))
      = shrink mark (List.replicate (n + 2) mark ++ tail) := rfl
    _ = mark :: shrink mark tail := shrink_run (n + 1) ended
    _ = shrink mark (List.replicate (n + 1) mark ++ tail) := (shrink_run n ended).symm

/-- Where no two marks are neighbours there is nothing to shrink. -/
theorem shrink_eq_self {xs : List α} (single : xs.IsChain fun x y => ¬ (x = mark ∧ y = mark)) :
    shrink mark xs = xs := by
  induction xs with
  | nil => rfl
  | cons x rest inductionHypothesis =>
      obtain ⟨apart, later⟩ := List.isChain_cons.mp single
      rw [shrink_cons, inductionHypothesis later]
      rintro ⟨first, head⟩
      exact apart mark head ⟨first, rfl⟩

end Runs
