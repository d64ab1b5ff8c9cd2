import Ollm.Quota.Minimality

/-!
# The order of the listing

`read_dir` lists the cache directory in no fixed order.  The planner looks
files up by their names, which are distinct, and sorts both of its classes; so,
ties apart, rearranging the listing does not change the plan.
-/

namespace Ollm.Quota

open Text Greedy

/-- No two junk files, and no two blobs with their sidecars, are of the same age. -/
structure Untied (entries : List CacheEntry) : Prop where
  junk : ∀ e ∈ entries, ∀ f ∈ entries, isJunk entries e = true → isJunk entries f = true →
    e.mtimeUnix = f.mtimeUnix → e = f
  pairs : ∀ b ∈ entries, ∀ c ∈ entries, endsWith b.name ".bin" = true →
    endsWith c.name ".bin" = true → pairMtime entries b = pairMtime entries c → b = c

theorem sidecarOf_eq_some_iff {entries : List CacheEntry}
    (distinct : (entries.map (·.name)).Nodup) {b s : CacheEntry} :
    sidecarOf entries b = some s ↔ s ∈ entries ∧ s.name = b.name ++ ".ckpt" := by
  constructor
  · exact sidecarOf_mem
  · rintro ⟨listed, named⟩
    exact sidecarOf_eq_some distinct listed named

theorem insertionSort_mtime_perm (mtime : CacheEntry → UInt64) {files files' : List CacheEntry}
    (rearranged : files.Perm files')
    (untied : ∀ e ∈ files, ∀ f ∈ files, mtime e = mtime f → e = f) :
    files.insertionSort (mtime · ≤ mtime ·) = files'.insertionSort (mtime · ≤ mtime ·) := by
  apply insertionSort_eq_of_perm rearranged
  intro e member f member' before after
  exact untied e member f member' (UInt64.le_antisymm before after)

section Rearranged

variable {entries entries' : List CacheEntry} (rearranged : entries.Perm entries')
include rearranged

theorem cacheUsageBytes_perm : cacheUsageBytes entries = cacheUsageBytes entries' :=
  (rearranged.map _).sum_eq

theorem distinct_perm (distinct : (entries.map (·.name)).Nodup) :
    (entries'.map (·.name)).Nodup :=
  (rearranged.map _).nodup_iff.mp distinct

theorem isJunk_perm : isJunk entries = isJunk entries' := by
  funext e
  rw [Bool.eq_iff_iff, isJunk_iff, isJunk_iff, Junk, Junk]
  simp only [rearranged.mem_iff]

theorem sidecarOf_perm (distinct : (entries.map (·.name)).Nodup) :
    sidecarOf entries = sidecarOf entries' := by
  funext b
  apply Option.ext
  intro s
  rw [sidecarOf_eq_some_iff distinct, sidecarOf_eq_some_iff (distinct_perm rearranged distinct),
    rearranged.mem_iff]

theorem pairMtime_perm (distinct : (entries.map (·.name)).Nodup) :
    pairMtime entries = pairMtime entries' := by
  funext b
  rw [pairMtime, pairMtime, sidecarOf_perm rearranged distinct]

theorem unitOf_perm (distinct : (entries.map (·.name)).Nodup) :
    unitOf entries = unitOf entries' := by
  funext b
  rw [unitOf, unitOf, sidecarOf_perm rearranged distinct]

theorem junkInOrder_perm (untied : Untied entries) :
    junkInOrder entries = junkInOrder entries' := by
  rw [junkInOrder, junkInOrder, ← isJunk_perm rearranged]
  apply insertionSort_mtime_perm (·.mtimeUnix) (rearranged.filter _)
  intro e member f member' same
  obtain ⟨listed, junk⟩ := List.mem_filter.mp member
  obtain ⟨listed', junk'⟩ := List.mem_filter.mp member'
  exact untied.junk e listed f listed' junk junk' same

theorem blobsInOrder_perm (distinct : (entries.map (·.name)).Nodup) (untied : Untied entries) :
    blobsInOrder entries = blobsInOrder entries' := by
  rw [blobsInOrder, blobsInOrder, ← pairMtime_perm rearranged distinct]
  apply insertionSort_mtime_perm (pairMtime entries) (rearranged.filter _)
  intro b member c member' same
  obtain ⟨listed, blob⟩ := List.mem_filter.mp member
  obtain ⟨listed', blob'⟩ := List.mem_filter.mp member'
  exact untied.pairs b listed c listed' blob blob' same

theorem evictionOrder_perm (distinct : (entries.map (·.name)).Nodup) (untied : Untied entries)
    (now grace : UInt64) : evictionOrder entries now grace = evictionOrder entries' now grace := by
  rw [evictionOrder, evictionOrder, junkUnits, junkUnits, pairUnits, pairUnits,
    junkInOrder_perm rearranged untied, blobsInOrder_perm rearranged distinct untied,
    pairMtime_perm rearranged distinct, unitOf_perm rearranged distinct]

theorem evictedUnits_perm (distinct : (entries.map (·.name)).Nodup) (untied : Untied entries)
    (limit now grace : UInt64) :
    evictedUnits entries limit now grace = evictedUnits entries' limit now grace := by
  rw [evictedUnits, evictedUnits, cacheUsageBytes_perm rearranged,
    evictionOrder_perm rearranged distinct untied]

end Rearranged

/-- Two listings of one directory give the same plan. -/
theorem planEvictions_forgets_order {entries entries' : List CacheEntry}
    (rearranged : entries.Perm entries') (distinct : (entries.map (·.name)).Nodup)
    (untied : Untied entries) (limit now grace : UInt64) :
    ∃ plan, planEvictions entries limit now grace = some plan ∧
      planEvictions entries' limit now grace = some plan := by
  refine ⟨_, planEvictions_eq distinct limit now grace, ?_⟩
  rw [planEvictions_eq (distinct_perm rearranged distinct),
    evictedUnits_perm rearranged distinct untied]

/-- Two sessions of different age, one with its sidecar, and a scratch leftover. -/
def mixedListing : List CacheEntry :=
  [⟨"hdr-a__0123456789ab.bin", 10, 1000⟩, ⟨"hdr-b__0123456789ab.bin", 10, 1000⟩,
    ⟨"hdr-a__0123456789ab.bin.ckpt", 90, 2000⟩, ⟨"hdr-c__0123456789ab.bin.save", 5, 3000⟩]

theorem planEvictions_forgets_order_reversed :
    ∃ plan, planEvictions mixedListing 100 5000 60 = some plan ∧
      planEvictions mixedListing.reverse 100 5000 60 = some plan :=
  planEvictions_forgets_order mixedListing.reverse_perm.symm (by decide)
    ⟨by decide, by decide⟩ 100 5000 60

end Ollm.Quota
