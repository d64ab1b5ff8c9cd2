import Mathlib.Data.List.Nodup
import Mathlib.Data.List.Permutation
import Mathlib.Data.UInt
import Ollm.Library.Greedy
import Ollm.Quota.Plan

/-!
# The eviction order

The planner deletes a greedy prefix of one sequence of units: the junk files
outside their grace, then the pairs outside theirs, each class oldest first.
The units are disjoint, so the bytes they free are bytes of the listing.
-/

namespace Ollm.Quota

open Text Greedy

def unitOf (entries : List CacheEntry) (b : CacheEntry) : List CacheEntry :=
  b :: (sidecarOf entries b).toList

def junkUnits (entries : List CacheEntry) (now grace : UInt64) : List (List CacheEntry) :=
  ((junkInOrder entries).filter fun e => !inGrace now grace e.mtimeUnix).map ([·])

def blobsInOrder (entries : List CacheEntry) : List CacheEntry :=
  (entries.filter fun e => endsWith e.name ".bin").insertionSort
    (pairMtime entries · ≤ pairMtime entries ·)

def pairUnits (entries : List CacheEntry) (now grace : UInt64) : List (List CacheEntry) :=
  ((blobsInOrder entries).filter fun b => !inGrace now grace (pairMtime entries b)).map
    (unitOf entries)

/-- Every unit the planner may delete, in deletion order. -/
def evictionOrder (entries : List CacheEntry) (now grace : UInt64) : List (List CacheEntry) :=
  junkUnits entries now grace ++ pairUnits entries now grace

def unitLen (unit : List CacheEntry) : UInt64 :=
  cacheUsageBytes unit

/-- The break condition of both loops. -/
def withinLimit (total limit freed : UInt64) : Bool :=
  decide (total - freed ≤ limit)

def evictedUnits (entries : List CacheEntry) (limit now grace : UInt64) :
    List (List CacheEntry) :=
  greedy (withinLimit (cacheUsageBytes entries) limit) unitLen 0
    (evictionOrder entries now grace)

section Lookups

variable {entries : List CacheEntry}

theorem find?_name_eq_some (distinct : (entries.map (·.name)).Nodup)
    {e : CacheEntry} (listed : e ∈ entries) :
    entries.find? (·.name == e.name) = some e := by
  induction entries with
  | nil => simp at listed
  | cons head tail inductionHypothesis =>
      simp only [List.map_cons, List.nodup_cons] at distinct
      rcases List.mem_cons.mp listed with rfl | inTail
      · simp
      · have other : head.name ≠ e.name := fun same =>
          distinct.1 (same ▸ List.mem_map_of_mem inTail)
        simp [other, inductionHypothesis distinct.2 inTail]

theorem eq_of_name_eq (distinct : (entries.map (·.name)).Nodup) {e f : CacheEntry}
    (listedE : e ∈ entries) (listedF : f ∈ entries) (same : e.name = f.name) : e = f :=
  List.inj_on_of_nodup_map distinct listedE listedF same

theorem sidecarOf_mem {b s : CacheEntry} (found : sidecarOf entries b = some s) :
    s ∈ entries ∧ s.name = b.name ++ ".ckpt" :=
  ⟨List.mem_of_find?_eq_some found, by simpa using List.find?_some found⟩

theorem sidecarOf_eq_some (distinct : (entries.map (·.name)).Nodup) {b s : CacheEntry}
    (listed : s ∈ entries) (named : s.name = b.name ++ ".ckpt") :
    sidecarOf entries b = some s := by
  rw [sidecarOf, ← named]
  exact find?_name_eq_some distinct listed

theorem mem_unitOf_iff {b e : CacheEntry} :
    e ∈ unitOf entries b ↔ e = b ∨ sidecarOf entries b = some e := by
  simp [unitOf, eq_comm]

theorem unitOf_subset {b : CacheEntry} (listed : b ∈ entries) :
    unitOf entries b ⊆ entries := by
  intro e member
  rcases mem_unitOf_iff.mp member with rfl | found
  · exact listed
  · exact (sidecarOf_mem found).1

theorem pairOf_snd (b : CacheEntry) :
    (pairOf entries b).2 = (unitOf entries b).map (·.name) := by
  cases found : sidecarOf entries b <;> simp [pairOf, unitOf, found]

theorem lenOf_eq_some (distinct : (entries.map (·.name)).Nodup) {e : CacheEntry}
    (listed : e ∈ entries) : lenOf entries e.name = some e.len := by
  simp [lenOf, find?_name_eq_some distinct listed]

/-- The lookups of pass 2 never panic. -/
theorem mapM_lenOf (distinct : (entries.map (·.name)).Nodup) {unit : List CacheEntry}
    (listed : unit ⊆ entries) :
    (unit.map (·.name)).mapM (lenOf entries) = some (unit.map (·.len)) := by
  induction unit with
  | nil => simp
  | cons e rest inductionHypothesis =>
      have later := inductionHypothesis fun f member => listed (List.mem_cons_of_mem _ member)
      simp [List.mapM_cons, lenOf_eq_some distinct (listed List.mem_cons_self), later]

end Lookups

/-- Pass 1 is the greedy process on the junk outside its grace. -/
theorem sweepJunk_eq (total limit now grace : UInt64) (junk : List CacheEntry)
    (progress : Progress) :
    let units := (junk.filter fun e => !inGrace now grace e.mtimeUnix).map ([·])
    let taken := greedy (withinLimit total limit) unitLen progress.freed units
    sweepJunk total limit now grace junk progress =
      ⟨progress.plan ++ taken.flatten.map (·.name), progress.freed + cost unitLen taken⟩ := by
  induction junk generalizing progress with
  | nil => simp [sweepJunk, greedy]
  | cons e rest inductionHypothesis =>
      by_cases stopped : total - progress.freed ≤ limit
      · have stop : withinLimit total limit progress.freed = true := by
          simpa [withinLimit] using stopped
        simp [sweepJunk, stopped, greedy_eq_nil_of_stop stop]
      · have continues : withinLimit total limit progress.freed = false := by
          simpa [withinLimit] using stopped
        by_cases graced : inGrace now grace e.mtimeUnix = true
        · simpa [sweepJunk, stopped, graced] using inductionHypothesis progress
        · have freed : unitLen [e] = e.len := by simp [unitLen, cacheUsageBytes]
          simp [sweepJunk, stopped, graced, greedy, continues, inductionHypothesis, freed,
            add_assoc]

/-- Pass 2 is the greedy process on the pairs outside their grace. -/
theorem evictPairs_eq {entries : List CacheEntry}
    (distinct : (entries.map (·.name)).Nodup) (total limit now grace : UInt64)
    {blobs : List CacheEntry} (listed : blobs ⊆ entries) (progress : Progress) :
    let units := (blobs.filter fun b => !inGrace now grace (pairMtime entries b)).map
      (unitOf entries)
    let taken := greedy (withinLimit total limit) unitLen progress.freed units
    evictPairs entries total limit now grace (blobs.map (pairOf entries)) progress =
      some ⟨progress.plan ++ taken.flatten.map (·.name),
        progress.freed + cost unitLen taken⟩ := by
  induction blobs generalizing progress with
  | nil => simp [evictPairs, greedy]
  | cons b rest inductionHypothesis =>
      have bListed : b ∈ entries := listed List.mem_cons_self
      have later := inductionHypothesis fun e member => listed (List.mem_cons_of_mem _ member)
      have paired : pairOf entries b =
          (pairMtime entries b, (unitOf entries b).map (·.name)) := by
        rw [← pairOf_snd]
        rfl
      rw [List.map_cons, paired]
      by_cases stopped : total - progress.freed ≤ limit
      · have stop : withinLimit total limit progress.freed = true := by
          simpa [withinLimit] using stopped
        simp [evictPairs, stopped, greedy_eq_nil_of_stop stop]
      · have continues : withinLimit total limit progress.freed = false := by
          simpa [withinLimit] using stopped
        by_cases graced : inGrace now grace (pairMtime entries b) = true
        · simpa [evictPairs, stopped, graced] using later progress
        · have found := mapM_lenOf distinct (unitOf_subset bListed)
          simp only [evictPairs, stopped, graced, found, if_false, Bool.false_eq_true,
            Option.bind_eq_bind, Option.bind_some, later]
          simp [graced, greedy, continues, unitLen, cacheUsageBytes, add_assoc]

theorem pairsInOrder_eq (entries : List CacheEntry) :
    pairsInOrder entries = (blobsInOrder entries).map (pairOf entries) := by
  symm
  apply List.map_insertionSort
  intros
  rfl

theorem blobsInOrder_subset (entries : List CacheEntry) :
    blobsInOrder entries ⊆ entries := fun _ member =>
  (List.mem_filter.mp ((List.mem_insertionSort _).mp member)).1

/-- The plan names the files of a greedy prefix of the eviction order. -/
theorem planEvictions_eq {entries : List CacheEntry}
    (distinct : (entries.map (·.name)).Nodup) (limit now grace : UInt64) :
    planEvictions entries limit now grace =
      some ((evictedUnits entries limit now grace).flatten.map (·.name)) := by
  by_cases fits : cacheUsageBytes entries ≤ limit
  · have stop : withinLimit (cacheUsageBytes entries) limit 0 = true := by
      simpa [withinLimit] using fits
    simp [planEvictions, fits, evictedUnits, greedy_eq_nil_of_stop stop]
  · simp only [planEvictions, fits, if_false, evictedUnits, evictionOrder, greedy_append,
      sweepJunk_eq, pairsInOrder_eq,
      evictPairs_eq distinct _ _ _ _ (blobsInOrder_subset entries)]
    simp [junkUnits, pairUnits]

end Ollm.Quota
