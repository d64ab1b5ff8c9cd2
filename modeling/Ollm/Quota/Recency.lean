import Ollm.Quota.Convergence

/-!
# Recency of planned files

A planned file is outside its grace by the modification times of the listing:
those of its pair for a blob or a sidecar with a listed base, its own otherwise.
-/

namespace Ollm.Quota

open Text Greedy

/-- The modification time that decides about a file: of its pair, or its own. -/
def unitMtime (entries : List CacheEntry) (e : CacheEntry) : UInt64 :=
  if endsWith e.name ".bin" then
    pairMtime entries e
  else
    ((entries.find? fun b => e.name == b.name ++ ".ckpt").map (pairMtime entries)).getD
      e.mtimeUnix

variable {entries : List CacheEntry} {limit now grace : UInt64}

theorem unitMtime_junk {e : CacheEntry} (junk : isJunk entries e = true) :
    unitMtime entries e = e.mtimeUnix := by
  have notBlob : endsWith e.name ".bin" = false := by
    by_contra blob
    simp [isJunk, Bool.eq_true_of_not_eq_false blob] at junk
  cases found : entries.find? fun b => e.name == b.name ++ ".ckpt" with
  | none => simp [unitMtime, notBlob, found]
  | some base =>
      have named : e.name = base.name ++ ".ckpt" := by simpa using List.find?_some found
      exact absurd rfl ((isJunk_sidecar_iff named).mp junk base
        (List.mem_of_find?_eq_some found))

theorem unitMtime_pair (distinct : (entries.map (·.name)).Nodup) {b e : CacheEntry}
    (listed : b ∈ entries) (blob : endsWith b.name ".bin" = true)
    (member : e ∈ unitOf entries b) : unitMtime entries e = pairMtime entries b := by
  rcases mem_unitOf_iff.mp member with rfl | sidecar
  · simp [unitMtime, blob]
  · have named := (sidecarOf_mem sidecar).2
    have found : entries.find? (fun base => e.name == base.name ++ ".ckpt") = some b := by
      rw [← find?_name_eq_some distinct listed]
      congr 1
      funext base
      simp [named, eq_comm]
    simp [unitMtime, not_blob_of_sidecar named, found]

/-- The planner deletes nothing that is within its grace. -/
theorem planned_outside_grace (distinct : (entries.map (·.name)).Nodup) {plan : List String}
    (planned : planEvictions entries limit now grace = some plan) {name : String}
    (member : name ∈ plan) :
    ∃ e ∈ entries, e.name = name ∧ inGrace now grace (unitMtime entries e) = false := by
  obtain rfl := Option.some.inj ((planEvictions_eq distinct limit now grace).symm.trans planned)
  obtain ⟨e, evicted, named⟩ := List.mem_map.mp member
  obtain ⟨unit, taken, inUnit⟩ := List.mem_flatten.mp evicted
  have inOrder : unit ∈ evictionOrder entries now grace :=
    (greedy_isPrefix _ _).subset taken
  rcases List.mem_append.mp inOrder with junk | pair
  · obtain ⟨f, listed, isJunk, outside, rfl⟩ := mem_junkUnits_iff.mp junk
    obtain rfl := List.mem_singleton.mp inUnit
    exact ⟨e, listed, named, by rw [unitMtime_junk isJunk, outside]⟩
  · obtain ⟨b, listed, blob, outside, rfl⟩ := mem_pairUnits_iff.mp pair
    exact ⟨e, unitOf_subset listed inUnit, named, by
      rw [unitMtime_pair distinct listed blob inUnit, outside]⟩

end Ollm.Quota
