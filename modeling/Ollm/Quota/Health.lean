import Ollm.Library.Json
import Ollm.Quota.Passes

/-!
# The directory and the health report

`enforce_limit` lists the regular files it can name and look at, plans, and
removes.  `/health` adds up whatever the directory holds, by itself.  On a
directory of the program's own files the two agree, and two quiet passes bring
the reported megabytes down to the configured ones.
-/

namespace Ollm.Quota

open Keying Text

/-- What `metadata` tells of a directory entry: its length and, if it is known and
not before the epoch, the time of its last modification in seconds. -/
structure Metadata where
  len : UInt64
  modified : Option UInt64
  deriving DecidableEq, Repr

/-- An entry of the cache directory.  Its name may not be Unicode, it may be no
regular file, and its metadata may be unreadable. -/
structure DirEntry where
  name : Option String
  isFile : Bool
  metadata : Option Metadata
  deriving DecidableEq, Repr

/-- The body of the loop over `read_dir`. -/
def DirEntry.entry? (e : DirEntry) : Option CacheEntry :=
  if e.isFile then
    e.metadata.bind fun md =>
      e.name.map fun name => ⟨name, md.len, md.modified.getD 0⟩
  else
    none

def scan (dir : List DirEntry) : List CacheEntry :=
  dir.filterMap DirEntry.entry?

def DirEntry.named (plan : List String) (e : DirEntry) : Bool :=
  e.name.any plan.contains

/-- `enforce_limit` on a directory that it can read and remove files from. -/
def enforceLimit (limitMb now : UInt64) (dir : List DirEntry) : Option (List DirEntry) :=
  (enforcedPlan limitMb (scan dir) now).map fun plan => dir.filter fun e => !e.named plan

/-- `enforce_limit` at the given times, with nothing written in between. -/
def enforceLimits (limitMb : UInt64) : List UInt64 → List DirEntry → Option (List DirEntry)
  | [], dir => some dir
  | now :: later, dir => (enforceLimit limitMb now dir).bind (enforceLimits limitMb later)

/-- The sum that `/health` computes; nothing if the directory cannot be read. -/
def cacheMb (dir : Option (List DirEntry)) : UInt64 :=
  match dir with
  | some dir => ((dir.filterMap (·.metadata)).map (·.len)).sum / 1024 / 1024
  | none => 0

/-- The body of the `/health` response. -/
def health (backend backendSig cacheDir : String) (limitMb : UInt64)
    (dir : Option (List DirEntry)) : Json.Value :=
  .object [("backend", .string backend), ("backend_sig", .string backendSig),
    ("cache_dir", .string cacheDir), ("cache_limit_mb", .number (.ofNat limitMb.toNat)),
    ("cache_mb", .number (.ofNat (cacheMb dir).toNat)), ("status", .string "ok")]

/-- One of the files that the program keeps for its blobs. -/
def DirEntry.Own (e : DirEntry) : Prop :=
  ∃ blob role md, endsWith blob ".bin" = true ∧ e = ⟨some (fileOf blob role), true, some md⟩

variable {dir : List DirEntry} {limitMb : UInt64}

theorem DirEntry.name_of_entry? {e : DirEntry} {entry : CacheEntry}
    (listed : e.entry? = some entry) : e.name = some entry.name := by
  unfold entry? at listed
  split_ifs at listed
  obtain ⟨md, -, named⟩ := Option.bind_eq_some_iff.mp listed
  obtain ⟨name, isName, rfl⟩ := Option.map_eq_some_iff.mp named
  exact isName

/-- Removing the planned files leaves the survivors of the listing. -/
theorem scan_filter (plan : List String) :
    scan (dir.filter fun e => !e.named plan) = survivors (scan dir) plan := by
  induction dir with
  | nil => rfl
  | cons e rest inductionHypothesis =>
      simp only [scan, survivors] at inductionHypothesis ⊢
      cases listed : e.entry? with
      | none =>
          rw [List.filterMap_cons_none listed, ← inductionHypothesis, List.filter_cons]
          split_ifs
          · rw [List.filterMap_cons_none listed]
          · rfl
      | some entry =>
          have planned : e.named plan = decide (entry.name ∈ plan) := by
            simp [DirEntry.named, DirEntry.name_of_entry? listed]
          rw [List.filterMap_cons_some listed, List.filter_cons, List.filter_cons, planned]
          by_cases member : entry.name ∈ plan
          · simpa [member] using inductionHypothesis
          · simpa [member, List.filterMap_cons_some listed] using inductionHypothesis

/-- Passes over the directory are passes over its listing. -/
theorem enforceLimits_of_passes {times : List UInt64} {left : List CacheEntry}
    (ran : passes (byteLimit limitMb) 60 times (scan dir) = some left) :
    ∃ dir', enforceLimits limitMb times dir = some dir' ∧ scan dir' = left ∧ dir' ⊆ dir := by
  induction times generalizing dir with
  | nil =>
      cases ran
      exact ⟨dir, rfl, rfl, List.Subset.refl dir⟩
  | cons now later inductionHypothesis =>
      obtain ⟨plan, planned, rest⟩ := Option.bind_eq_some_iff.mp ran
      rw [← scan_filter] at rest
      obtain ⟨dir', continued, scanned, included⟩ := inductionHypothesis rest
      have enforced : enforceLimit limitMb now dir =
          some (dir.filter fun e => !e.named plan) :=
        congrArg (Option.map _) planned
      refine ⟨dir', ?_, scanned, fun e member => List.mem_of_mem_filter (included member)⟩
      rw [enforceLimits, enforced, Option.bind_some, continued]

/-- On the program's own files the report counts what the planner counts. -/
theorem cacheMb_own (own : ∀ e ∈ dir, e.Own) :
    (cacheMb (some dir)).toNat = bytes (scan dir) % 2 ^ 64 / 2 ^ 20 := by
  have same : ((dir.filterMap (·.metadata)).map (·.len)).sum = cacheUsageBytes (scan dir) := by
    induction dir with
    | nil => rfl
    | cons e rest inductionHypothesis =>
        obtain ⟨⟨blob, role, md, -, rfl⟩, later⟩ := List.forall_mem_cons.mp own
        have rest := inductionHypothesis later
        simp only [cacheUsageBytes, scan] at rest ⊢
        simp [DirEntry.entry?, rest]
  rw [cacheMb, same, UInt64.toNat_div, UInt64.toNat_div, toNat_cacheUsageBytes]
  simp only [UInt64.reduceToNat]
  omega

theorem own_endings (own : ∀ e ∈ dir, e.Own) :
    ∀ e ∈ scan dir, ∀ stem, e.name ≠ sidecarPath^[2] stem := by
  intro entry member stem
  obtain ⟨e, listed, found⟩ := List.mem_filterMap.mp member
  obtain ⟨blob, role, md, bin, rfl⟩ := own e listed
  obtain rfl := Option.some.inj found
  exact fileOf_ne_sidecars bin role stem

theorem distinct_scan (distinct : (dir.map (·.name)).Nodup) :
    ((scan dir).map (·.name)).Nodup := by
  have names : ((scan dir).map fun e => some e.name).Sublist (dir.map (·.name)) := by
    clear distinct
    induction dir with
    | nil => exact List.Sublist.refl []
    | cons e rest inductionHypothesis =>
        simp only [scan] at inductionHypothesis ⊢
        cases listed : e.entry? with
        | none =>
            rw [List.filterMap_cons_none listed]
            exact inductionHypothesis.cons _
        | some entry =>
            rw [List.filterMap_cons_some listed, List.map_cons, List.map_cons,
              DirEntry.name_of_entry? listed]
            exact inductionHypothesis.cons_cons _
  have nodup : (((scan dir).map (·.name)).map some).Nodup := by
    rw [List.map_map]
    exact distinct.sublist names
  exact nodup.of_map _

/-- After two quiet passes over a directory of the program's own files, the health
report is within the configured limit, unless grace shielded all that is left. -/
theorem health_within_limit (own : ∀ e ∈ dir, e.Own) (distinct : (dir.map (·.name)).Nodup)
    (small : bytes (scan dir) < 2 ^ 64) (configured : limitMb.toNat < 2 ^ 44)
    (first second : UInt64) :
    ∃ left, enforceLimits limitMb [first, second] dir = some left ∧
      ((cacheMb (some left)).toNat ≤ limitMb.toNat ∨
        ∀ e ∈ scan left, EverShielded (byteLimit limitMb) 60 [first, second] (scan dir) e) := by
  have converges : ∃ kept, passes (byteLimit limitMb) 60 [first, second] (scan dir) = some kept ∧
      (bytes kept ≤ (byteLimit limitMb).toNat ∨
        ∀ e ∈ kept, EverShielded (byteLimit limitMb) 60 [first, second] (scan dir) e) :=
    passes_converge (distinct_scan distinct) small (own_endings own)
  obtain ⟨kept, ran, converged⟩ := converges
  obtain ⟨left, enforced, rfl, included⟩ := enforceLimits_of_passes ran
  refine ⟨left, enforced, converged.imp_left fun fits => ?_⟩
  rw [cacheMb_own fun e member => own e (included member)]
  rw [toNat_byteLimit, Nat.mod_eq_of_lt (by omega)] at fits
  have less := Nat.mod_le (bytes (scan left)) (2 ^ 64)
  omega

/-- A scratch file of 10 MiB and its sidecar of 100 MiB, both long out of grace. -/
def scratchDir : List DirEntry :=
  [⟨some (cacheName "0123456789ab" "hdr-a" .scratch), true, some ⟨10485760, some 1000⟩⟩,
    ⟨some (cacheName "0123456789ab" "hdr-a" .scratchSidecar), true, some ⟨104857600, some 1000⟩⟩]

theorem own_scratchDir : ∀ e ∈ scratchDir, e.Own := by
  intro e member
  simp only [scratchDir, List.mem_cons, List.not_mem_nil, or_false] at member
  rcases member with rfl | rfl
  · exact ⟨_, .scratch, _, endsWith_blobName "0123456789ab" "hdr-a", rfl⟩
  · exact ⟨_, .scratchSidecar, _, endsWith_blobName "0123456789ab" "hdr-a", rfl⟩

/-- One pass leaves the sidecar, and the report over the limit; the second does not. -/
theorem health_within_limit_scratchDir :
    (enforceLimits 50 [5000] scratchDir).map (fun left => cacheMb (some left)) = some 100 ∧
      ∃ left, enforceLimits 50 [5000, 5010] scratchDir = some left ∧
        ((cacheMb (some left)).toNat ≤ 50 ∨
          ∀ e ∈ scan left, EverShielded (byteLimit 50) 60 [5000, 5010] (scan scratchDir) e) := by
  refine ⟨by decide, ?_⟩
  exact health_within_limit own_scratchDir (by decide) (by decide) (by decide) 5000 5010

end Ollm.Quota
