import Mathlib.Data.Nat.Notation

/-!
# While loops

`Ends more body first passes last` says that the loop which replaces its state
by `body` as long as `more` holds, started in `first`, ends in `last` after
that many passes.
-/

namespace Loop

universe u

variable {State : Type u}

inductive Ends (more : State → Bool) (body : State → State) : State → ℕ → State → Prop where
  | done {state} : more state = false → Ends more body state 0 state
  | pass {state passes last} :
      more state = true →
      Ends more body (body state) passes last →
      Ends more body state (passes + 1) last

variable {more : State → Bool} {body : State → State}

theorem Ends.exit {first last : State} {passes : ℕ} (ends : Ends more body first passes last) :
    more last = false := by
  induction ends with
  | done stopped => exact stopped
  | pass _ _ inductionHypothesis => exact inductionHypothesis

/-- What holds at the start and survives every pass holds at the end. -/
theorem Ends.invariant {first last : State} {passes : ℕ} (Invariant : State → Prop)
    (preserved : ∀ state, Invariant state → more state = true → Invariant (body state))
    (start : Invariant first) (ends : Ends more body first passes last) : Invariant last := by
  induction ends with
  | done _ => exact start
  | @pass state _ _ again _ inductionHypothesis =>
      exact inductionHypothesis (preserved state start again)

/-- A loop whose passes use up a measure ends. -/
theorem exists_ends (measure : State → ℕ)
    (decreases : ∀ state, more state = true → measure (body state) < measure state)
    (first : State) : ∃ passes last, passes ≤ measure first ∧ Ends more body first passes last := by
  induction left : measure first using Nat.strongRecOn generalizing first with
  | ind n inductionHypothesis =>
      cases again : more first with
      | false => exact ⟨0, first, Nat.zero_le n, .done again⟩
      | true =>
          have smaller := decreases first again
          obtain ⟨passes, last, few, ends⟩ :=
            inductionHypothesis (measure (body first)) (left ▸ smaller) (body first) rfl
          exact ⟨passes + 1, last, by omega, .pass again ends⟩

end Loop
