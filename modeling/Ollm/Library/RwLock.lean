import Mathlib.Data.List.Basic

/-!
# Readers-writer locks

A lock that remembers who holds it.  Any number of holders share it, or one
holder has it exclusively; asking for a lock that cannot be granted is not a
step.  Whoever has the lock exclusively keeps it until releasing it.
-/

universe u

structure RwLock (Name : Type u) where
  readers : List Name
  writer : Option Name
  deriving DecidableEq

namespace RwLock

variable {Name : Type u}

def free : RwLock Name :=
  ⟨[], none⟩

def read? (lock : RwLock Name) (name : Name) : Option (RwLock Name) :=
  if lock.writer = none then some { lock with readers := name :: lock.readers } else none

def write? (lock : RwLock Name) (name : Name) : Option (RwLock Name) :=
  if lock.writer = none ∧ lock.readers = [] then some { lock with writer := some name } else none

variable {lock granted : RwLock Name} {name : Name}

theorem write?_eq_some (asked : lock.write? name = some granted) :
    lock.writer = none ∧ granted.writer = some name := by
  unfold write? at asked
  split_ifs at asked with unheld
  cases asked
  exact ⟨unheld.1, rfl⟩

theorem read?_eq_some (asked : lock.read? name = some granted) :
    lock.writer = none ∧ granted.writer = none := by
  unfold read? at asked
  split_ifs at asked with unheld
  cases asked
  exact ⟨unheld, unheld⟩

def release [DecidableEq Name] (lock : RwLock Name) (name : Name) : RwLock Name where
  readers := lock.readers.filter (· ≠ name)
  writer := if lock.writer = some name then none else lock.writer

/-- Only the holder itself can end an exclusive hold. -/
theorem writer_release [DecidableEq Name] {other : Name} (distinct : other ≠ name) :
    (lock.release name).writer = some other ↔ lock.writer = some other := by
  simp only [release]
  split_ifs with held
  · simp [held, Ne.symm distinct]
  · exact Iff.rfl

end RwLock
