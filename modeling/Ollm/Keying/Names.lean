import Mathlib.Data.UInt
import Ollm.Library.Text

/-!
# Cache file names

A blob is named by its session and the backend signature.  Its scratch file
and the sidecars of both are named by further endings, so that the name of a
cache file determines the session, the signature and the role of the file.
-/

namespace Ollm.Keying

open Text

/-- `format!("{x:02x}")`. -/
def hexByte (byte : UInt8) : List Char :=
  [Nat.digitChar (byte.toNat / 16), Nat.digitChar (byte.toNat % 16)]

def hex (bytes : List UInt8) : String :=
  String.ofList (bytes.flatMap hexByte)

abbrev Digest := { bytes : List UInt8 // bytes.length = 32 }

/-- `hex(&digest)[..n]`. -/
def hexPrefix (n : Nat) (digest : Digest) : String :=
  String.ofList ((hex digest.val).toList.take n)

def blobName (backendSig session : String) : String :=
  session ++ "__" ++ backendSig ++ ".bin"

/-- Where the backend writes before the blob is published. -/
def scratchName (blob : String) : String :=
  blob ++ ".save"

/-- The checkpoint ledger beside a blob or a scratch file. -/
def sidecarPath (blob : String) : String :=
  blob ++ ".ckpt"

/-- The four files kept for a blob. -/
inductive Role where
  | blob
  | sidecar
  | scratch
  | scratchSidecar
  deriving DecidableEq, Repr

def fileOf (blob : String) : Role → String
  | .blob => blob
  | .sidecar => sidecarPath blob
  | .scratch => scratchName blob
  | .scratchSidecar => sidecarPath (scratchName blob)

def cacheName (backendSig session : String) (role : Role) : String :=
  fileOf (blobName backendSig session) role

def Role.ending : Role → String
  | .blob => ".bin"
  | .sidecar => ".bin.ckpt"
  | .scratch => ".bin.save"
  | .scratchSidecar => ".bin.save.ckpt"

theorem fileOf_eq (stem : String) (role : Role) :
    fileOf (stem ++ ".bin") role = stem ++ role.ending := by
  cases role <;>
    simp [fileOf, scratchName, sidecarPath, Role.ending, String.append_assoc]

theorem Role.endsWith_ending : ∀ {role other : Role}, role ≠ other →
    endsWith role.ending other.ending = false := by
  intro role other distinct
  cases role <;> cases other <;> first | exact absurd rfl distinct | decide

/-- A file's name tells its role and the blob it is kept for. -/
theorem fileOf_inj {blob blob' : String} (role role' : Role)
    (bin : endsWith blob ".bin" = true) (bin' : endsWith blob' ".bin" = true)
    (same : fileOf blob role = fileOf blob' role') : blob = blob' ∧ role = role' := by
  obtain ⟨stem, rfl⟩ := endsWith_iff.mp bin
  obtain ⟨stem', rfl⟩ := endsWith_iff.mp bin'
  rw [fileOf_eq, fileOf_eq] at same
  have roles : role = role' := by
    by_contra distinct
    exact append_ne_append (Role.endsWith_ending (Ne.symm distinct))
      (Role.endsWith_ending distinct) same
  subst roles
  rw [(String.append_left_inj _).mp same]
  exact ⟨rfl, rfl⟩

/-- The files of one blob have different names. -/
theorem fileOf_ne {blob : String} {role role' : Role} (bin : endsWith blob ".bin" = true)
    (distinct : role ≠ role') : fileOf blob role ≠ fileOf blob role' :=
  fun same => distinct (fileOf_inj role role' bin bin same).2

theorem endsWith_blobName (backendSig session : String) :
    endsWith (blobName backendSig session) ".bin" = true :=
  endsWith_append _ _

theorem hexPrefix_length {n : Nat} (short : n ≤ 64) (digest : Digest) :
    (hexPrefix n digest).length = n := by
  have doubled : ∀ bytes : List UInt8, (bytes.flatMap hexByte).length = 2 * bytes.length := by
    intro bytes
    induction bytes with
    | nil => rfl
    | cons byte rest inductionHypothesis =>
        simp only [List.flatMap_cons, List.length_append, inductionHypothesis, hexByte,
          List.length_cons, List.length_nil]
        omega
  simp [hexPrefix, hex, ← String.length_toList, doubled, digest.property, short]

/-- With signatures of one length, a blob's name tells its session and signature. -/
theorem blobName_inj {backendSig backendSig' session session' : String}
    (sameLength : backendSig.length = backendSig'.length)
    (same : blobName backendSig session = blobName backendSig' session') :
    session = session' ∧ backendSig = backendSig' := by
  have fronts := congrArg String.toList ((String.append_left_inj _).mp same)
  simp only [String.toList_append] at fronts
  obtain ⟨sessions, sigs⟩ := List.append_inj' fronts (by simpa only [String.length_toList])
  exact ⟨String.toList_inj.mp (List.append_cancel_right sessions),
    String.toList_inj.mp sigs⟩

/-- A cache file's name tells its role, its signature and its session. -/
theorem cacheName_inj {backendSig backendSig' session session' : String} {role role' : Role}
    (sameLength : backendSig.length = backendSig'.length)
    (same : cacheName backendSig session role = cacheName backendSig' session' role') :
    session = session' ∧ backendSig = backendSig' ∧ role = role' := by
  obtain ⟨blobs, roles⟩ := fileOf_inj role role' (endsWith_blobName _ _)
    (endsWith_blobName _ _) same
  obtain ⟨sessions, sigs⟩ := blobName_inj sameLength blobs
  exact ⟨sessions, sigs, roles⟩

/-- Under one signature, files of different roles have different names. -/
theorem cacheName_ne_of_role {backendSig : String} (role role' : Role) (distinct : role ≠ role')
    (session session' : String) :
    cacheName backendSig session role ≠ cacheName backendSig session' role' :=
  fun same => distinct (cacheName_inj rfl same).2.2

end Ollm.Keying
