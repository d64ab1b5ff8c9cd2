import Ollm.Library.Transition

/-!
# Exclusive keys

Keys that threads hold according to where they stand.  If a thread comes to hold
a key only while no other thread holds it, no two threads ever hold one key.
-/

universe u v w

namespace Threads

variable {Name : Type u} {World : Type*} {Local : Type v} {Action : Type*} {Key : Type w}

def Exclusive (key : Name → Local → Option Key) (locals : Name → Local) : Prop :=
  ∀ first second held, first ≠ second → key first (locals first) = some held →
    key second (locals second) ≠ some held

variable {key : Name → Local → Option Key}

theorem exclusive_of_none {locals : Name → Local}
    (empty : ∀ name, key name (locals name) = none) : Exclusive key locals := by
  intro first second held _ holds
  rw [empty first] at holds
  cases holds

theorem Exclusive.step [DecidableEq Name] {threads : Threads Name World Local Action}
    {before after : Config Name World Local} {actor : Name} {action : Action}
    (exclusive : Exclusive key before.locals)
    (takes : ∀ held, key actor (after.locals actor) = some held →
      key actor (before.locals actor) = some held ∨
        ∀ other, other ≠ actor → key other (before.locals other) ≠ some held)
    (moved : threads.machine.step before (actor, action) = some after) :
    Exclusive key after.locals := by
  obtain ⟨-, others⟩ := threads.acts_of_machine_step moved
  intro first second held distinct holds
  by_cases acting : first = actor
  · subst acting
    rw [others second distinct.symm]
    rcases takes held holds with before | free
    · exact exclusive first second held distinct before
    · exact free second distinct.symm
  · rw [others first acting] at holds
    by_cases acting' : second = actor
    · subst acting'
      intro holds'
      rcases takes held holds' with before | free
      · exact exclusive first second held distinct holds before
      · exact free first distinct holds
    · rw [others second acting']
      exact exclusive first second held distinct holds

end Threads
