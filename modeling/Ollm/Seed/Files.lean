import Ollm.Seed.Steps

/-!
# Seed files

The names of blobs and scratch files, and what a step can do to the files at
them.  The scratch file is named for the family: all its calls share it.
-/

namespace Ollm.Seed

open Json Keying
open Store (CallId seedBlobName endsWith_seedBlobName)

theorem seedBlobName_inj {key key' : String} (same : seedBlobName key = seedBlobName key') :
    key = key' := by
  unfold seedBlobName at same
  apply (String.append_right_inj "sys-").mp
  exact (String.append_left_inj "__seed.bin").mp same

variable {sha256 : List UInt8 → Digest} {calls : CallId → Call} {c d : CallId}

theorem seedBlobName_ne_scratchOf (key : String) : seedBlobName key ≠ scratchOf sha256 calls c := by
  intro same
  have roles := fileOf_inj .blob .scratch (endsWith_seedBlobName key)
    (endsWith_seedBlobName (keyOf sha256 calls c)) same
  cases roles.2

theorem keyOf_eq_of_scratchOf_eq (same : scratchOf sha256 calls c = scratchOf sha256 calls d) :
    keyOf sha256 calls c = keyOf sha256 calls d := by
  have blobs := fileOf_inj .scratch .scratch (endsWith_seedBlobName (keyOf sha256 calls c))
    (endsWith_seedBlobName (keyOf sha256 calls d)) same
  exact seedBlobName_inj blobs.1

/-- What a step can do to the files. -/
inductive DirStep (sha256 : List UInt8 → Digest) (calls : CallId → Call) (c : CallId)
    (action : Action) (phase : Phase) (world : World) : Directory Content → Prop where
  | kept : DirStep sha256 calls c action phase world world.dir
  | evict {name} (evicts : action = .evict name) :
      DirStep sha256 calls c action phase world (world.dir.remove name)
  | write {complete wrote} (writes : action = .write complete) (saves : phase = .saving wrote) :
      DirStep sha256 calls c action phase world (world.dir.write (scratchOf sha256 calls c)
        ⟨world.kv (calls c).slot, complete, false, 0, 0⟩)
  | move (publishes : phase = .publishing false) :
      DirStep sha256 calls c action phase world
        (world.dir.rename (scratchOf sha256 calls c) (blobOf sha256 calls c))

theorem Step.dirStep {action : Action} {l l' : Local} {world world' : World}
    (step : Step sha256 calls c action l world l' world') :
    DirStep sha256 calls c action l.phase world world'.dir := by
  cases step with
  | write => exact .write rfl rfl
  | move => exact .move rfl
  | evict => exact .evict rfl
  | _ => exact .kept

section DirSteps

variable {action : Action} {phase : Phase} {world : World} {dir' : Directory Content}
  {key : String} {file : File Content}

/-- A blob becomes visible only by a call of its family that moves the scratch file. -/
theorem DirStep.blob (step : DirStep sha256 calls c action phase world dir')
    (found : dir' (seedBlobName key) = some file) :
    world.dir (seedBlobName key) = some file ∨
      (phase = .publishing false ∧ keyOf sha256 calls c = key ∧
        world.dir (scratchOf sha256 calls c) = some file) := by
  cases step with
  | kept => exact .inl found
  | evict => exact .inl (Directory.remove_eq_some found).2
  | write =>
      rw [Directory.write_of_ne (seedBlobName_ne_scratchOf key)] at found
      exact .inl found
  | move publishes =>
      rcases Directory.rename_eq_some found with ⟨same, moved⟩ | before
      · exact .inr ⟨publishes, (seedBlobName_inj same).symm, moved⟩
      · exact .inl before

/-- A scratch file is written only by the saves of its family. -/
theorem DirStep.scratch (step : DirStep sha256 calls c action phase world dir')
    (found : dir' (scratchOf sha256 calls d) = some file) :
    world.dir (scratchOf sha256 calls d) = some file ∨
      ∃ complete wrote, action = .write complete ∧ phase = .saving wrote ∧
        keyOf sha256 calls d = keyOf sha256 calls c ∧
        file = ⟨world.kv (calls c).slot, complete, false, 0, 0⟩ := by
  cases step with
  | kept => exact .inl found
  | evict => exact .inl (Directory.remove_eq_some found).2
  | @write complete wrote writes saves =>
      rcases Directory.write_eq_some found with ⟨same, written⟩ | ⟨-, before⟩
      · exact .inr ⟨complete, wrote, writes, saves, keyOf_eq_of_scratchOf_eq same, written⟩
      · exact .inl before
  | move =>
      rcases Directory.rename_eq_some found with ⟨same, -⟩ | before
      · exact absurd same.symm (seedBlobName_ne_scratchOf _)
      · exact .inl before

/-- A blob disappears only by being evicted. -/
theorem DirStep.keeps (step : DirStep sha256 calls c action phase world dir')
    (spared : action ≠ .evict (seedBlobName key))
    (present : (world.dir (seedBlobName key)).isSome = true) :
    (dir' (seedBlobName key)).isSome = true := by
  cases step with
  | kept => exact present
  | @evict name evicts =>
      have other : seedBlobName key ≠ name := by
        rintro rfl
        exact spared evicts
      rwa [Directory.remove_of_ne other]
  | write => rwa [Directory.write_of_ne (seedBlobName_ne_scratchOf key)]
  | move =>
      by_cases own : seedBlobName key = blobOf sha256 calls c
      · cases found : world.dir (scratchOf sha256 calls c) with
        | none => simpa [Directory.rename, found] using present
        | some file =>
            rw [own, Directory.rename_target found]
            rfl
      · rwa [Directory.rename_of_ne (seedBlobName_ne_scratchOf key) own]

end DirSteps

end Ollm.Seed
