import Ollm.Quota.Recency

/-!
# The configured limit

The limit is configured in megabytes, as any `u64`, and turned into bytes by a
multiplication that wraps in the release profile.  From `2 ^ 44` megabytes on
the byte limit is smaller than what was configured.
-/

namespace Ollm.Quota

open Text Greedy

def stripPlus : List Char → List Char
  | '+' :: rest => rest
  | cs => cs

/-- `str::parse::<u64>`: decimal digits, after at most one plus sign. -/
def parseU64 (text : String) : Option UInt64 :=
  let digits := stripPlus text.toList
  if digits ≠ [] ∧ digits.all Char.isDigit = true ∧ Nat.ofDigitChars 10 digits 0 < 2 ^ 64 then
    some (.ofNat (Nat.ofDigitChars 10 digits 0))
  else
    none

/-- `Config::cache_limit_mb` from the variable, if that is set and Unicode. -/
def cacheLimitMb (setting : Option String) : UInt64 :=
  (setting.bind parseU64).getD 51200

/-- The first line of `enforce_limit`, as the release profile computes it. -/
def byteLimit (limitMb : UInt64) : UInt64 :=
  limitMb * 1024 * 1024

/-- What `enforce_limit` plans to delete from a listing of the cache directory. -/
def enforcedPlan (limitMb : UInt64) (entries : List CacheEntry) (now : UInt64) :
    Option (List String) :=
  planEvictions entries (byteLimit limitMb) now 60

/-- Every limit can be configured. -/
theorem cacheLimitMb_toDigits (limitMb : UInt64) :
    cacheLimitMb (some (String.ofList (Nat.toDigits 10 limitMb.toNat))) = limitMb := by
  have digits : (Nat.toDigits 10 limitMb.toNat).all Char.isDigit = true := by
    rw [List.all_eq_true]
    exact fun c member => Nat.isDigit_of_mem_toDigits (by decide) (by decide) member
  have unsigned : stripPlus (Nat.toDigits 10 limitMb.toNat) = Nat.toDigits 10 limitMb.toNat := by
    unfold stripPlus
    split
    · rename_i signed
      rw [signed] at digits
      cases digits
    · rfl
  have small : Nat.ofDigitChars 10 (Nat.toDigits 10 limitMb.toNat) 0 < 2 ^ 64 := by
    rw [Nat.ofDigitChars_ten_toDigits]
    exact limitMb.toNat_lt
  have parsed : parseU64 (String.ofList (Nat.toDigits 10 limitMb.toNat)) = some limitMb := by
    rw [parseU64, String.toList_ofList, unsigned, if_pos ⟨Nat.toDigits_ne_nil, digits, small⟩,
      Nat.ofDigitChars_ten_toDigits, UInt64.ofNat_toNat]
  rw [cacheLimitMb, Option.bind_some, parsed, Option.getD_some]

theorem toNat_byteLimit (limitMb : UInt64) :
    (byteLimit limitMb).toNat = limitMb.toNat * 2 ^ 20 % 2 ^ 64 := by
  rw [byteLimit, UInt64.toNat_mul, UInt64.toNat_mul]
  simp only [UInt64.reduceToNat]
  omega

section Planner

variable {entries : List CacheEntry} {limit now grace : UInt64}

theorem ne_nil_of_mem_evictionOrder {unit : List CacheEntry}
    (inOrder : unit ∈ evictionOrder entries now grace) : unit ≠ [] := by
  rcases List.mem_append.mp inOrder with junk | pair
  · obtain ⟨e, _, _, _, rfl⟩ := mem_junkUnits_iff.mp junk
    exact List.cons_ne_nil _ _
  · obtain ⟨b, _, _, _, rfl⟩ := mem_pairUnits_iff.mp pair
    exact List.cons_ne_nil _ _

/-- Nothing can be deleted exactly if all that is not stuck is in its grace. -/
theorem evictionOrder_eq_nil_iff (distinct : (entries.map (·.name)).Nodup) :
    evictionOrder entries now grace = [] ↔
      ∀ e ∈ entries, Stuck entries e ∨ inGrace now grace (unitMtime entries e) = true := by
  constructor
  · intro empty e listed
    have none : ∀ unit, unit ∉ evictionOrder entries now grace := by simp [empty]
    rcases classified distinct listed with ⟨b, listedB, blob, member⟩ | junk | stuck
    · apply Or.inr
      rw [unitMtime_pair distinct listedB blob member]
      by_contra outside
      apply none (unitOf entries b)
      exact List.mem_append_right _ (mem_pairUnits_iff.mpr
        ⟨b, listedB, blob, Bool.eq_false_iff.mpr outside, rfl⟩)
    · apply Or.inr
      rw [unitMtime_junk junk]
      by_contra outside
      apply none [e]
      exact List.mem_append_left _ (mem_junkUnits_iff.mpr
        ⟨e, listed, junk, Bool.eq_false_iff.mpr outside, rfl⟩)
    · exact .inl stuck
  · intro graced
    rw [List.eq_nil_iff_forall_not_mem]
    intro unit inOrder
    -- the file at the head of a unit is neither stuck nor in its grace
    have stays : ∀ e ∈ entries, e ∈ unit →
        inGrace now grace (unitMtime entries e) = true := by
      intro e listed inUnit
      apply (graced e listed).resolve_left
      intro stuck
      exact not_mem_evictionOrder_of_stuck distinct stuck
        (List.mem_flatten.mpr ⟨unit, inOrder, inUnit⟩)
    rcases List.mem_append.mp inOrder with junk | pair
    · obtain ⟨e, listed, isJunk, outside, rfl⟩ := mem_junkUnits_iff.mp junk
      have inside := stays e listed List.mem_cons_self
      rw [unitMtime_junk isJunk, outside] at inside
      cases inside
    · obtain ⟨b, listed, blob, outside, rfl⟩ := mem_pairUnits_iff.mp pair
      have inside := stays b listed List.mem_cons_self
      rw [unitMtime_pair distinct listed blob List.mem_cons_self, outside] at inside
      cases inside

/-- Nothing is planned exactly if the wrapped total fits or nothing can be deleted. -/
theorem planEvictions_eq_nil_iff (distinct : (entries.map (·.name)).Nodup) :
    planEvictions entries limit now grace = some [] ↔
      bytes entries % 2 ^ 64 ≤ limit.toNat ∨
        ∀ e ∈ entries, Stuck entries e ∨ inGrace now grace (unitMtime entries e) = true := by
  have fits : withinLimit (cacheUsageBytes entries) limit 0 = true ↔
      bytes entries % 2 ^ 64 ≤ limit.toNat := by
    rw [withinLimit, decide_eq_true_iff, UInt64.sub_zero, UInt64.le_iff_toNat_le,
      toNat_cacheUsageBytes]
  have units : (evictedUnits entries limit now grace).flatten = [] ↔
      evictedUnits entries limit now grace = [] := by
    constructor
    · intro empty
      rw [List.eq_nil_iff_forall_not_mem]
      intro unit taken
      apply ne_nil_of_mem_evictionOrder ((greedy_isPrefix _ _).subset taken)
      exact List.flatten_eq_nil_iff.mp empty unit taken
    · intro empty
      rw [empty, List.flatten_nil]
  rw [planEvictions_eq distinct, Option.some_inj, List.map_eq_nil_iff, units, evictedUnits,
    greedy_eq_nil_iff, fits, evictionOrder_eq_nil_iff distinct]

end Planner

def oldBlob (len : UInt64) : CacheEntry :=
  ⟨"hdr-a__0123456789ab.bin", len, 0⟩

theorem ne_append_ckpt (name : String) : name ≠ name ++ ".ckpt" := by
  intro same
  have lengths := congrArg String.length same
  rw [String.length_append] at lengths
  have ending : ".ckpt".length = 5 := by decide
  omega

/-- The blob alone is deleted unless it fits the limit. -/
theorem enforcedPlan_oldBlob (limitMb len : UInt64) :
    enforcedPlan limitMb [oldBlob len] 1000 = some [] ↔ len.toNat ≤ (byteLimit limitMb).toNat := by
  have removable : ¬ ∀ e ∈ [oldBlob len],
      Stuck [oldBlob len] e ∨ inGrace 1000 60 (unitMtime [oldBlob len] e) = true := by
    intro graced
    rcases graced _ (List.mem_singleton_self _) with ⟨base, listed, named, -⟩ | inside
    · obtain rfl := List.mem_singleton.mp listed
      exact ne_append_ckpt _ named
    · have blob : endsWith (oldBlob len).name ".bin" = true :=
        endsWith_append "hdr-a__0123456789ab" ".bin"
      have alone : sidecarOf [oldBlob len] (oldBlob len) = none := by
        rw [sidecarOf, List.find?_cons_of_neg, List.find?_nil]
        rw [beq_iff_eq]
        exact ne_append_ckpt _
      have old : unitMtime [oldBlob len] (oldBlob len) = max 0 0 := by
        rw [unitMtime, if_pos blob, pairMtime, alone]
        rfl
      rw [old] at inside
      exact absurd inside (by decide)
  have distinct : ([oldBlob len].map (·.name)).Nodup := List.nodup_singleton _
  have total : bytes [oldBlob len] % 2 ^ 64 = len.toNat := Nat.mod_eq_of_lt len.toNat_lt
  rw [enforcedPlan, planEvictions_eq_nil_iff distinct, or_iff_left removable, total]

/-- The configured limit is honoured for every listing exactly below `2 ^ 44` megabytes. -/
theorem enforcedPlan_honours_iff (setting : Option String) :
    ((∀ (entries : List CacheEntry) (now : UInt64), (entries.map (·.name)).Nodup →
        bytes entries ≤ (cacheLimitMb setting).toNat * 2 ^ 20 →
        enforcedPlan (cacheLimitMb setting) entries now = some []) ↔
      (cacheLimitMb setting).toNat < 2 ^ 44) ∧
    ∀ (entries : List CacheEntry) (now : UInt64), (entries.map (·.name)).Nodup →
      (enforcedPlan (cacheLimitMb setting) entries now = some [] ↔
        bytes entries % 2 ^ 64 ≤ (cacheLimitMb setting).toNat * 2 ^ 20 % 2 ^ 64 ∨
          ∀ e ∈ entries, Stuck entries e ∨ inGrace now 60 (unitMtime entries e) = true) := by
  generalize cacheLimitMb setting = limitMb
  have exact : ∀ (entries : List CacheEntry) (now : UInt64), (entries.map (·.name)).Nodup →
      (enforcedPlan limitMb entries now = some [] ↔
        bytes entries % 2 ^ 64 ≤ limitMb.toNat * 2 ^ 20 % 2 ^ 64 ∨
          ∀ e ∈ entries, Stuck entries e ∨ inGrace now 60 (unitMtime entries e) = true) := by
    intro entries now distinct
    rw [enforcedPlan, planEvictions_eq_nil_iff distinct, toNat_byteLimit]
  refine ⟨⟨?_, ?_⟩, exact⟩
  · intro honoured
    by_contra huge
    have largest : bytes [oldBlob (-1)] = 2 ^ 64 - 1 := rfl
    have planned := honoured [oldBlob (-1)] 1000 (List.nodup_singleton _) (by omega)
    rw [enforcedPlan_oldBlob, toNat_byteLimit] at planned
    have wrapped : 2 ^ 64 - 1 ≤ limitMb.toNat * 2 ^ 20 % 2 ^ 64 := planned
    omega
  · intro small entries now distinct fits
    apply (exact entries now distinct).mpr
    apply Or.inl
    rw [Nat.mod_eq_of_lt (by omega), Nat.mod_eq_of_lt (by omega)]
    exact fits

/-- The smallest limit that is lost wipes a cache of one byte. -/
theorem enforcedPlan_wipes :
    ¬ ∀ (setting : Option String) (entries : List CacheEntry) (now : UInt64),
      (entries.map (·.name)).Nodup →
      bytes entries ≤ (cacheLimitMb setting).toNat * 2 ^ 20 →
      enforcedPlan (cacheLimitMb setting) entries now = some [] := by
  intro honoured
  have configured : cacheLimitMb (some "17592186044416") = 17592186044416 := by decide
  have planned := honoured (some "17592186044416") [oldBlob 1] 1000 (List.nodup_singleton _)
    (by rw [configured]; decide)
  rw [configured, enforcedPlan_oldBlob] at planned
  exact absurd planned (by decide)

end Ollm.Quota
