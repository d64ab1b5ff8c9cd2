import Mathlib.Logic.Function.Basic
import Mathlib.Tactic.SplitIfs

/-!
# Directories of files

A directory maps names to files.  A file is known by its content, may be
partial, and survives a crash whole only if it was synced.  Renaming replaces
whatever the target name held.
-/

universe u

structure File (Content : Type u) where
  content : Content
  complete : Bool
  synced : Bool
  len : Nat
  /-- Time of the last modification, in nanoseconds. -/
  mtime : Nat
  deriving DecidableEq, Repr

abbrev Directory (Content : Type u) := String → Option (File Content)

namespace Directory

variable {Content : Type u} (dir : Directory Content)

def empty : Directory Content := fun _ => none

def write (name : String) (file : File Content) : Directory Content :=
  Function.update dir name (some file)

def remove (name : String) : Directory Content :=
  Function.update dir name none

def rename (source target : String) : Directory Content :=
  match dir source with
  | some file => (dir.remove source).write target file
  | none => dir

def modify (name : String) (change : File Content → File Content) : Directory Content :=
  Function.update dir name ((dir name).map change)

def sync (name : String) : Directory Content :=
  dir.modify name fun file => { file with synced := true }

def touch (name : String) (now : Nat) : Directory Content :=
  dir.modify name fun file => { file with mtime := now }

/-- A crash may tear any file that was not synced. -/
def crash (torn : String → Bool) : Directory Content := fun name =>
  (dir name).map fun file =>
    if torn name && !file.synced then { file with complete := false } else file

/-! ## What a name holds after each operation -/

variable {dir} {name other source target : String} {file held : File Content}

theorem remove_eq_some (after : dir.remove other name = some held) :
    name ≠ other ∧ dir name = some held := by
  by_cases same : name = other
  · simp [remove, same] at after
  · exact ⟨same, by simpa [remove, same] using after⟩

theorem write_eq_some (after : dir.write other file name = some held) :
    (name = other ∧ held = file) ∨ (name ≠ other ∧ dir name = some held) := by
  by_cases same : name = other
  · subst same
    exact .inl ⟨rfl, by simpa [write, eq_comm] using after⟩
  · exact .inr ⟨same, by simpa [write, same] using after⟩

theorem modify_eq_some {change : File Content → File Content}
    (after : dir.modify other change name = some held) :
    (name = other ∧ ∃ before, dir name = some before ∧ held = change before) ∨
      (name ≠ other ∧ dir name = some held) := by
  by_cases same : name = other
  · subst same
    simp only [modify, Function.update_self] at after
    obtain ⟨before, found, changed⟩ := Option.map_eq_some_iff.mp after
    exact .inl ⟨rfl, before, found, changed.symm⟩
  · exact .inr ⟨same, by simpa [modify, same] using after⟩

/-- After a rename the target holds what the source held, and no other name
holds anything new. -/
theorem rename_eq_some (after : dir.rename source target name = some held) :
    (name = target ∧ dir source = some held) ∨ dir name = some held := by
  unfold rename at after
  cases found : dir source with
  | none =>
      rw [found] at after
      exact .inr after
  | some moved =>
      rw [found] at after
      rcases write_eq_some after with ⟨same, rfl⟩ | ⟨-, before⟩
      · exact .inl ⟨same, rfl⟩
      · exact .inr (remove_eq_some before).2

theorem rename_target (present : dir source = some held) :
    dir.rename source target target = some held := by
  simp [rename, present, write]

section OtherNames

variable {change : File Content → File Content}

theorem write_of_ne (other : name ≠ target) : dir.write target file name = dir name :=
  Function.update_of_ne other _ _

theorem remove_of_ne (other : name ≠ target) : dir.remove target name = dir name :=
  Function.update_of_ne other _ _

theorem modify_of_ne (other : name ≠ target) : dir.modify target change name = dir name :=
  Function.update_of_ne other _ _

theorem rename_of_ne (left : name ≠ source) (other : name ≠ target) :
    dir.rename source target name = dir name := by
  unfold rename
  cases dir source with
  | none => rfl
  | some moved => exact (write_of_ne other).trans (remove_of_ne left)

end OtherNames

theorem crash_eq_some {torn : String → Bool} (after : dir.crash torn name = some held) :
    ∃ before, dir name = some before ∧ held.content = before.content ∧
      (before.synced = true → held = before) := by
  obtain ⟨before, found, changed⟩ := Option.map_eq_some_iff.mp after
  refine ⟨before, found, ?_, ?_⟩
  · rw [← changed]
    split_ifs <;> rfl
  · intro synced
    rw [← changed]
    simp [synced]

/-- Every file that is there was there before, but for its time. -/
def Within (dir before : Directory Content) : Prop :=
  ∀ name held, dir name = some held → ∃ mtime, before name = some { held with mtime := mtime }

theorem Within.refl (dir : Directory Content) : dir.Within dir :=
  fun _ held found => ⟨held.mtime, found⟩

theorem within_remove : (dir.remove other).Within dir :=
  fun _ held after => ⟨held.mtime, (remove_eq_some after).2⟩

theorem within_touch {now : Nat} : (dir.touch other now).Within dir := by
  intro name held after
  rcases modify_eq_some after with ⟨-, before, found, rfl⟩ | ⟨-, found⟩
  · exact ⟨before.mtime, found⟩
  · exact ⟨held.mtime, found⟩

/-! ## Files of others

Operations on some names commute with replacing all files at other names: they
neither read nor change these. -/

/-- The own names of one directory over the other names of another. -/
def graft (dir : Directory Content) (own : List String) (foreign : Directory Content) :
    Directory Content := fun name =>
  if name ∈ own then dir name else foreign name

section Graft

variable {own : List String} {foreign : Directory Content}

theorem graft_own (member : name ∈ own) : dir.graft own foreign name = dir name :=
  if_pos member

theorem graft_foreign (other : name ∉ own) : dir.graft own foreign name = foreign name :=
  if_neg other

@[simp]
theorem graft_self : dir.graft own dir = dir := by
  funext name
  simp [graft]

theorem graft_update (member : name ∈ own) (held : Option (File Content)) :
    Function.update (dir.graft own foreign) name held =
      graft (Function.update dir name held) own foreign := by
  funext other
  by_cases same : other = name
  · subst same
    rw [graft_own member, Function.update_self, Function.update_self]
  · by_cases known : other ∈ own
    · rw [graft_own known, Function.update_of_ne same, Function.update_of_ne same,
        graft_own known]
    · rw [graft_foreign known, Function.update_of_ne same, graft_foreign known]

theorem graft_write (member : name ∈ own) (file : File Content) :
    (dir.graft own foreign).write name file = (dir.write name file).graft own foreign :=
  graft_update member _

theorem graft_modify (member : name ∈ own) (change : File Content → File Content) :
    (dir.graft own foreign).modify name change = (dir.modify name change).graft own foreign := by
  rw [modify, graft_own member]
  exact graft_update member _

theorem graft_rename (memberSource : source ∈ own) (memberTarget : target ∈ own) :
    (dir.graft own foreign).rename source target =
      (dir.rename source target).graft own foreign := by
  unfold rename
  rw [graft_own memberSource]
  cases dir source with
  | none => rfl
  | some file =>
      have removed : (dir.graft own foreign).remove source =
          (dir.remove source).graft own foreign := graft_update memberSource _
      change ((dir.graft own foreign).remove source).write target file = _
      rw [removed]
      exact graft_write memberTarget file

end Graft

end Directory
