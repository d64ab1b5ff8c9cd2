import Mathlib.Data.List.Basic

/-!
# Traces

A trace lists events, the latest last.  A discipline says of each event what
the events before it must look like; a trace that grows by disciplined events
is disciplined throughout.
-/

universe u

namespace Trace

variable {Event : Type u}

/-- Every event stands in the required relation to the events before it. -/
inductive Disciplined (Lawful : List Event → Event → Prop) : List Event → Prop where
  | nil : Disciplined Lawful []
  | snoc {past event} : Disciplined Lawful past → Lawful past event →
      Disciplined Lawful (past ++ [event])

theorem Disciplined.lawful {Lawful : List Event → Event → Prop} {trace : List Event}
    (disciplined : Disciplined Lawful trace) {past later : List Event} {event : Event}
    (split : trace = past ++ event :: later) : Lawful past event := by
  induction disciplined generalizing later with
  | nil => simp at split
  | @snoc before last earlier lawful inductionHypothesis =>
      rcases List.eq_nil_or_concat later with rfl | ⟨rest, final, rfl⟩
      · obtain ⟨rfl, same⟩ := List.append_inj' split rfl
        exact List.cons.inj same |>.1 ▸ lawful
      · rw [List.concat_eq_append, ← List.cons_append, ← List.append_assoc] at split
        exact inductionHypothesis (List.append_inj' split rfl).1

theorem Disciplined.append {Lawful : List Event → Event → Prop} {past : List Event}
    {first second : Event} (disciplined : Disciplined Lawful past)
    (lawful : Lawful past first) (lawful' : Lawful (past ++ [first]) second) :
    Disciplined Lawful (past ++ [first, second]) := by
  have both := (disciplined.snoc lawful).snoc lawful'
  rwa [List.append_assoc] at both

/-- Kinds of events that must not follow one another do not occur together. -/
theorem Disciplined.exclusive {Lawful : List Event → Event → Prop} {trace : List Event}
    (disciplined : Disciplined Lawful trace) {first second : Event → Bool}
    (differ : ∀ event, first event = true → second event = false)
    (apart : ∀ past event, Lawful past event → first event = true →
      ∀ earlier ∈ past, second earlier = false)
    (apart' : ∀ past event, Lawful past event → second event = true →
      ∀ earlier ∈ past, first earlier = false) :
    ¬ ((∃ event ∈ trace, first event = true) ∧ ∃ event ∈ trace, second event = true) := by
  induction disciplined with
  | nil =>
      rintro ⟨⟨event, member, -⟩, -⟩
      cases member
  | @snoc past event _ lawful inductionHypothesis =>
      rintro ⟨⟨one, inTrace, isFirst⟩, other, inTrace', isSecond⟩
      rcases List.mem_append.mp inTrace with inPast | last <;>
        rcases List.mem_append.mp inTrace' with inPast' | last'
      · exact inductionHypothesis ⟨⟨one, inPast, isFirst⟩, other, inPast', isSecond⟩
      · obtain rfl := List.mem_singleton.mp last'
        simp [apart' past other lawful isSecond one inPast] at isFirst
      · obtain rfl := List.mem_singleton.mp last
        simp [apart past one lawful isFirst other inPast'] at isSecond
      · obtain rfl := List.mem_singleton.mp last
        obtain rfl := List.mem_singleton.mp last'
        simp [differ other isFirst] at isSecond

theorem Disciplined.countP_le_one {Lawful : List Event → Event → Prop} {trace : List Event}
    (disciplined : Disciplined Lawful trace) {kind : Event → Bool}
    (once : ∀ past event, Lawful past event → kind event = true →
      ∀ earlier ∈ past, kind earlier = false) : trace.countP kind ≤ 1 := by
  induction disciplined with
  | nil => exact Nat.zero_le 1
  | @snoc past event _ lawful inductionHypothesis =>
      cases isKind : kind event with
      | false => simpa [List.countP_append, isKind] using inductionHypothesis
      | true =>
          have none : past.countP kind = 0 := by
            simpa using once past event lawful isKind
          simp [List.countP_append, isKind, none]

/-- It happened, and nothing of the other kind has happened since. -/
def Since (Happened Ended : Event → Prop) (past : List Event) : Prop :=
  ∃ before event after, past = before ++ event :: after ∧ Happened event ∧
    ∀ later ∈ after, ¬ Ended later

theorem Since.now {Happened Ended : Event → Prop} {event : Event} (happened : Happened event)
    (past : List Event) : Since Happened Ended (past ++ [event]) :=
  ⟨past, event, [], rfl, happened, by simp⟩

end Trace
