import Ollm.Quota.Convergence

/-!
# The plan as a shortest prefix

What the planner is for: of all units that may be deleted, junk before pairs
and each class least recently used first, as few as it takes to fit the limit.
-/

namespace Ollm.Quota

open Text Greedy

/-- Neither a blob nor the sidecar of a listed name. -/
def Junk (entries : List CacheEntry) (e : CacheEntry) : Prop :=
  endsWith e.name ".bin" = false ∧ ∀ base ∈ entries, e.name ≠ base.name ++ ".ckpt"

instance (entries : List CacheEntry) (e : CacheEntry) : Decidable (Junk entries e) :=
  inferInstanceAs (Decidable (_ ∧ _))

def junkClass (entries : List CacheEntry) : List (List CacheEntry) :=
  (entries.filter fun e => Junk entries e).map ([·])

/-- The blobs, each with its sidecar if that is listed. -/
def pairClass (entries : List CacheEntry) : List (List CacheEntry) :=
  (entries.filter fun e => endsWith e.name ".bin").map fun b =>
    b :: entries.filter fun s => s.name = b.name ++ ".ckpt"

/-- When the newest file of the unit was last used. -/
def recency (unit : List CacheEntry) : Nat :=
  (unit.map (·.mtimeUnix.toNat)).foldr max 0

/-- The units of a class outside their grace, least recently used first. -/
def eligible (now grace : UInt64) (units : List (List CacheEntry)) : List (List CacheEntry) :=
  (units.filter fun unit => ¬ now.toNat - recency unit < grace.toNat).insertionSort
    (recency · ≤ recency ·)

def lruOrder (entries : List CacheEntry) (now grace : UInt64) : List (List CacheEntry) :=
  eligible now grace (junkClass entries) ++ eligible now grace (pairClass entries)

section Classes

variable {entries : List CacheEntry} {now grace : UInt64}

theorem isJunk_iff {e : CacheEntry} : isJunk entries e = true ↔ Junk entries e := by
  by_cases blob : endsWith e.name ".bin" = true
  · simp [isJunk, Junk, blob]
  · by_cases ends : endsWith e.name ".ckpt" = true
    · obtain ⟨base, named⟩ := endsWith_iff.mp ends
      have unlisted : (∀ f ∈ entries, e.name ≠ f.name ++ ".ckpt") ↔
          ∀ f ∈ entries, f.name ≠ base := by
        simp only [named, ne_eq, String.append_left_inj, eq_comm]
      rw [Junk, unlisted, isJunk, if_neg blob, if_pos ends, named, stripSuffix?_append]
      simp [← named, blob]
    · have apart : ∀ base : CacheEntry, e.name ≠ base.name ++ ".ckpt" := by
        intro base named
        rw [named] at ends
        exact ends (endsWith_append _ _)
      simp [isJunk, Junk, blob, ends, apart]

theorem filter_sidecar (distinct : (entries.map (·.name)).Nodup) (b : CacheEntry) :
    (entries.filter fun s => s.name = b.name ++ ".ckpt") = (sidecarOf entries b).toList := by
  cases found : sidecarOf entries b with
  | none =>
      apply List.filter_eq_nil_iff.mpr
      intro s listed
      simpa using List.find?_eq_none.mp found s listed
  | some s =>
      obtain ⟨listed, named⟩ := sidecarOf_mem found
      have nodup : (entries.filter fun f => f.name = b.name ++ ".ckpt").Nodup :=
        (List.Nodup.of_map _ distinct).filter _
      apply List.perm_singleton.mp
      apply (List.perm_ext_iff_of_nodup nodup (List.nodup_singleton s)).mpr
      intro f
      rw [List.mem_filter, List.mem_singleton, decide_eq_true_iff]
      constructor
      · rintro ⟨listedF, namedF⟩
        exact eq_of_name_eq distinct listedF listed (namedF.trans named.symm)
      · rintro rfl
        exact ⟨listed, named⟩

theorem junkClass_eq : junkClass entries = (entries.filter (isJunk entries)).map ([·]) := by
  rw [junkClass]
  congr 1
  apply List.filter_congr
  intro e _
  rw [Bool.eq_iff_iff, decide_eq_true_iff, isJunk_iff]

theorem pairClass_eq (distinct : (entries.map (·.name)).Nodup) :
    pairClass entries =
      (entries.filter fun e => endsWith e.name ".bin").map (unitOf entries) := by
  apply List.map_congr_left
  intro b _
  rw [filter_sidecar distinct, unitOf]

theorem inGrace_iff {mtime : UInt64} :
    inGrace now grace mtime = true ↔ now.toNat - mtime.toNat < grace.toNat := by
  rw [inGrace, decide_eq_true_iff, UInt64.lt_iff_toNat_lt, saturatingSub]
  split_ifs with early
  · rw [UInt64.le_iff_toNat_le] at early
    simp [Nat.sub_eq_zero_of_le early]
  · have later : mtime ≤ now := by
      rw [UInt64.le_iff_toNat_le] at early ⊢
      omega
    rw [UInt64.toNat_sub_of_le _ _ later]

theorem toNat_max (first second : UInt64) :
    (max first second).toNat = max first.toNat second.toNat := by
  rw [UInt64.max_def]
  split_ifs with le <;> rw [UInt64.le_iff_toNat_le] at le <;> omega

theorem recency_unitOf (b : CacheEntry) :
    recency (unitOf entries b) = (pairMtime entries b).toNat := by
  cases found : sidecarOf entries b with
  | none => simp [recency, unitOf, pairMtime, found, toNat_max]
  | some s => simp [recency, unitOf, pairMtime, found, toNat_max]

/-- Sorting first and skipping what is in its grace later, as the loops do, gives the same units
in the same order. -/
theorem eligible_map {unit : CacheEntry → List CacheEntry} {mtime : CacheEntry → UInt64}
    (recent : ∀ e, recency (unit e) = (mtime e).toNat) (files : List CacheEntry) :
    eligible now grace (files.map unit) =
      ((files.insertionSort (mtime · ≤ mtime ·)).filter
        fun e => !inGrace now grace (mtime e)).map unit := by
  have outside : ∀ e, decide (¬ now.toNat - recency (unit e) < grace.toNat) =
      !inGrace now grace (mtime e) := by
    intro e
    rw [Bool.eq_iff_iff, decide_eq_true_iff, Bool.not_eq_true', Bool.eq_false_iff, ne_eq,
      inGrace_iff, recent]
  rw [filter_insertionSort, eligible, List.filter_map,
    List.map_insertionSort (fun e f => mtime e ≤ mtime f) (recency · ≤ recency ·)]
  · congr 2
    apply List.filter_congr
    intro e _
    exact outside e
  · intro e _ f _
    rw [recent, recent, UInt64.le_iff_toNat_le]

theorem eligible_junkClass :
    eligible now grace (junkClass entries) = junkUnits entries now grace := by
  rw [junkClass_eq]
  exact eligible_map (fun e => by simp [recency]) _

theorem eligible_pairClass (distinct : (entries.map (·.name)).Nodup) :
    eligible now grace (pairClass entries) = pairUnits entries now grace := by
  rw [pairClass_eq distinct]
  exact eligible_map recency_unitOf _

theorem lruOrder_eq (distinct : (entries.map (·.name)).Nodup) :
    lruOrder entries now grace = evictionOrder entries now grace := by
  rw [lruOrder, eligible_junkClass, eligible_pairClass distinct]
  rfl

theorem pairwise_eligible (now grace : UInt64) (units : List (List CacheEntry)) :
    (eligible now grace units).Pairwise (recency · ≤ recency ·) :=
  List.pairwise_insertionSort _ _

theorem not_mem_pairUnits_of_junk {unit : List CacheEntry}
    (junk : unit ∈ junkUnits entries now grace) : unit ∉ pairUnits entries now grace := by
  intro pair
  obtain ⟨e, _, isJunk, _, rfl⟩ := mem_junkUnits_iff.mp junk
  obtain ⟨b, listed, blob, _, same⟩ := mem_pairUnits_iff.mp pair
  have member : e ∈ unitOf entries b := same ▸ List.mem_singleton_self e
  rw [not_junk_of_mem_unitOf listed blob member] at isJunk
  cases isJunk

/-- Within a class, earlier units are less recently used. -/
theorem pairwise_lruOrder (distinct : (entries.map (·.name)).Nodup) :
    (lruOrder entries now grace).Pairwise fun u v =>
      ∀ units ∈ [junkClass entries, pairClass entries], u ∈ eligible now grace units →
        v ∈ eligible now grace units → recency u ≤ recency v := by
  have apart : ∀ unit ∈ eligible now grace (junkClass entries),
      unit ∉ eligible now grace (pairClass entries) := by
    rw [eligible_junkClass, eligible_pairClass distinct]
    exact fun unit => not_mem_pairUnits_of_junk
  refine List.pairwise_append.mpr ⟨?_, ?_, ?_⟩
  · exact (pairwise_eligible now grace _).imp fun le _ _ _ _ => le
  · exact (pairwise_eligible now grace _).imp fun le _ _ _ _ => le
  · intro u junk v pair units member inUnits inUnits'
    rcases List.mem_pair.mp member with rfl | rfl
    · exact absurd pair (apart v inUnits')
    · exact absurd inUnits (apart u junk)

end Classes

variable {entries : List CacheEntry} {limit now grace : UInt64}

theorem bytes_kept (distinct : (entries.map (·.name)).Nodup)
    {units : List (List CacheEntry)} (included : units <+: evictionOrder entries now grace) :
    bytes (kept entries units) = bytes entries - bytes units.flatten := by
  have total := bytes_perm (kept_append_perm distinct included)
  rw [bytes_append] at total
  omega

/-- The plan deletes the shortest prefix of the units in order of use that makes the rest fit. -/
theorem planEvictions_minimal (distinct : (entries.map (·.name)).Nodup)
    (small : bytes entries < 2 ^ 64) :
    ∃ taken, planEvictions entries limit now grace = some (taken.flatten.map (·.name)) ∧
      ShortestPrefix (fun front => bytes entries - bytes front.flatten ≤ limit.toNat)
        (lruOrder entries now grace) taken ∧
      (∀ front, front <+: taken → front ≠ taken →
        limit.toNat < bytes entries - bytes front.flatten) ∧
      ∀ units ∈ [junkClass entries, pairClass entries],
        ∀ older ∈ eligible now grace units, ∀ newer ∈ eligible now grace units,
          recency older < recency newer → newer ∈ taken → older ∈ taken := by
  have shortest : ShortestPrefix
      (fun front => bytes entries - bytes front.flatten ≤ limit.toNat)
      (lruOrder entries now grace) (evictedUnits entries limit now grace) := by
    rw [lruOrder_eq distinct]
    apply (greedy_shortest 0 (evictionOrder entries now grace)).congr
    intro front included
    have below : bytes entries - bytes front.flatten < 2 ^ 64 :=
      (Nat.sub_le _ _).trans_lt small
    rw [withinLimit_iff distinct included, bytes_kept distinct included, Nat.mod_eq_of_lt below]
  refine ⟨_, planEvictions_eq distinct limit now grace, shortest, ?_, ?_⟩
  · intro front included proper
    exact Nat.lt_of_not_le (shortest.not_enough included proper)
  · intro units member older olderIn newer newerIn later taken
    obtain ⟨rest, whole⟩ := shortest.isPrefix
    have inOrder : older ∈ lruOrder entries now grace := by
      rcases List.mem_pair.mp member with rfl | rfl
      · exact List.mem_append_left _ olderIn
      · exact List.mem_append_right _ olderIn
    rw [← whole] at inOrder
    rcases List.mem_append.mp inOrder with first | left
    · exact first
    · -- what is left comes after what was taken
      have ordered : (lruOrder entries now grace).Pairwise _ := pairwise_lruOrder distinct
      rw [← whole] at ordered
      have le := (List.pairwise_append.mp ordered).2.2 newer taken older left units member
        newerIn olderIn
      omega

/-- A scratch leftover and two sessions, the second one used less recently. -/
def twoSessions : List CacheEntry :=
  [⟨"hdr-b.bin", 40, 2000⟩, ⟨"hdr-b.bin.ckpt", 60, 2000⟩, ⟨"hdr-a.bin", 10, 1000⟩,
    ⟨"hdr-a.bin.ckpt", 30, 1500⟩, ⟨"hdr-c.bin.save", 5, 3000⟩]

theorem planEvictions_minimal_twoSessions :
    planEvictions twoSessions 100 5000 60 =
        some ["hdr-c.bin.save", "hdr-a.bin", "hdr-a.bin.ckpt"] ∧
      ∃ taken, planEvictions twoSessions 100 5000 60 = some (taken.flatten.map (·.name)) ∧
        ShortestPrefix (fun front => bytes twoSessions - bytes front.flatten ≤ 100)
          (lruOrder twoSessions 5000 60) taken := by
  refine ⟨by decide, ?_⟩
  obtain ⟨taken, planned, shortest, -⟩ :=
    @planEvictions_minimal twoSessions 100 5000 60 (by decide) (by decide)
  exact ⟨taken, planned, shortest⟩

end Ollm.Quota
