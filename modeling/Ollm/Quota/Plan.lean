import Mathlib.Data.List.Sort
import Mathlib.Data.UInt
import Ollm.Library.Text

/-!
# The disk-quota planner

The pure eviction plan of the cache directory: scratch leftovers and orphan
sidecars first, then blob and sidecar pairs, each oldest first, until the
projected usage is within the limit.  Byte counts are `u64` and wrap as they
do in the release profile.
-/

namespace Ollm.Quota

open Text

/-- One cache-dir file as seen by the quota planner. -/
structure CacheEntry where
  name : String
  len : UInt64
  mtimeUnix : UInt64
  deriving DecidableEq, Repr

/-- Every regular file in the cache dir counts. -/
def cacheUsageBytes (entries : List CacheEntry) : UInt64 :=
  (entries.map (·.len)).sum

/-- `u64::saturating_sub`. -/
def saturatingSub (a b : UInt64) : UInt64 :=
  if a ≤ b then 0 else a - b

/-- Touched within `grace` seconds of `now`: a write may be in flight. -/
def inGrace (now grace mtime : UInt64) : Bool :=
  decide (saturatingSub now mtime < grace)

/-- Pass 1 takes the files with nothing live behind their name: everything
but blobs and the sidecars whose base name is listed. -/
def isJunk (entries : List CacheEntry) (e : CacheEntry) : Bool :=
  if endsWith e.name ".bin" then
    false
  else if endsWith e.name ".ckpt" then
    !(entries.map (·.name)).contains ((stripSuffix? e.name ".ckpt").getD "")
  else
    true

/-- The two `let mut` of the planner. -/
structure Progress where
  plan : List String
  freed : UInt64

/-- The loop of pass 1 over the junk, oldest first. -/
def sweepJunk (total limit now grace : UInt64) :
    List CacheEntry → Progress → Progress
  | [], progress => progress
  | e :: junk, progress =>
      if total - progress.freed ≤ limit then
        progress
      else if inGrace now grace e.mtimeUnix then
        sweepJunk total limit now grace junk progress
      else
        sweepJunk total limit now grace junk
          ⟨progress.plan ++ [e.name], progress.freed + e.len⟩

def sidecarOf (entries : List CacheEntry) (b : CacheEntry) : Option CacheEntry :=
  entries.find? (·.name == b.name ++ ".ckpt")

/-- The recency of a pair is that of its newer file. -/
def pairMtime (entries : List CacheEntry) (b : CacheEntry) : UInt64 :=
  max b.mtimeUnix (((sidecarOf entries b).map (·.mtimeUnix)).getD 0)

def pairOf (entries : List CacheEntry) (b : CacheEntry) : UInt64 × List String :=
  (pairMtime entries b, b.name :: ((sidecarOf entries b).map (·.name)).toList)

/-- `entries.iter().find(|e| &e.name == n).unwrap().len`; `none` is the panic. -/
def lenOf (entries : List CacheEntry) (n : String) : Option UInt64 :=
  (entries.find? (·.name == n)).map (·.len)

/-- The loop of pass 2 over the pairs, oldest first. -/
def evictPairs (entries : List CacheEntry) (total limit now grace : UInt64) :
    List (UInt64 × List String) → Progress → Option Progress
  | [], progress => some progress
  | (mtime, unit) :: pairs, progress =>
      if total - progress.freed ≤ limit then
        some progress
      else if inGrace now grace mtime then
        evictPairs entries total limit now grace pairs progress
      else do
        let lens ← unit.mapM (lenOf entries)
        evictPairs entries total limit now grace pairs
          ⟨progress.plan ++ unit, progress.freed + lens.sum⟩

def junkInOrder (entries : List CacheEntry) : List CacheEntry :=
  (entries.filter (isJunk entries)).insertionSort (·.mtimeUnix ≤ ·.mtimeUnix)

def pairsInOrder (entries : List CacheEntry) : List (UInt64 × List String) :=
  ((entries.filter fun e => endsWith e.name ".bin").map (pairOf entries)).insertionSort
    (·.1 ≤ ·.1)

/-- The names to delete, in deletion order; `none` if the planner panics. -/
def planEvictions (entries : List CacheEntry) (limit now grace : UInt64) :
    Option (List String) :=
  let total := cacheUsageBytes entries
  if total ≤ limit then
    some []
  else
    let swept := sweepJunk total limit now grace (junkInOrder entries) ⟨[], 0⟩
    (evictPairs entries total limit now grace (pairsInOrder entries) swept).map (·.plan)

end Ollm.Quota
