import Mathlib.Data.List.AList
import Mathlib.Data.UInt

/-!
# The slot registry

What the proxy remembers about the backend's slots: which session a slot
belongs to, whether it carries state that was not published yet, and whether
the backend last reported it busy.  All decisions read two views of the
registry, the owner of a slot and its dirty flag; `busy` is written only.
-/

namespace Ollm.Proxy

/-- A slot number of the backend, a `u32`. -/
def SlotId : Type := UInt32
  deriving DecidableEq, Repr

instance (n : Nat) : OfNat SlotId n :=
  inferInstanceAs (OfNat UInt32 n)

structure SlotState where
  id : SlotId
  isProcessing : Bool
  nTokens : UInt64
  deriving DecidableEq, Repr

structure SlotInfo where
  session : Option String
  /-- From the steering of a turn to its publication. -/
  dirty : Bool
  busy : Bool
  deriving DecidableEq, Repr

abbrev Registry := AList fun _ : SlotId => SlotInfo

namespace Registry

variable (g : Registry)

def fresh : SlotInfo :=
  ⟨none, false, false⟩

/-- `g.entry(id).or_insert(..)`. -/
def entry (id : SlotId) : SlotInfo :=
  (g.lookup id).getD fresh

def owner (id : SlotId) : Option String :=
  (g.entry id).session

def dirty (id : SlotId) : Bool :=
  (g.entry id).dirty

/-- The slots the hot loop may find: the map is walked in no fixed order. -/
def hotSlots (session : String) : List SlotId :=
  (g.entries.filter fun e => e.2.session == some session).map (·.1)

/-- The first lines of both loops over the backend's report. -/
def observe (s : SlotState) : Registry :=
  g.insert s.id { g.entry s.id with busy := s.isProcessing }

/-- The cold loop of `pick_slot`: the first slot neither processing nor dirty. -/
def pickSlot : List SlotState → Registry → Option SlotId × Registry
  | [], g => (none, g)
  | s :: arr, g =>
      if s.isProcessing || (g.observe s).dirty s.id then
        pickSlot arr (g.observe s)
      else
        (some s.id, g.observe s)

/-- The loop of `find_evictable`: the first idle dirty slot and its owner. -/
def findEvictable : List SlotState → Registry → Option (SlotId × Option String) × Registry
  | [], g => (none, g)
  | s :: arr, g =>
      if s.isProcessing then
        findEvictable arr (g.observe s)
      else if (g.observe s).dirty s.id then
        (some (s.id, (g.observe s).owner s.id), g.observe s)
      else
        findEvictable arr (g.observe s)

def markDirty (id : SlotId) (session : String) : Registry :=
  g.insert id { g.entry id with session := some session, dirty := true }

/-- `get_mut`: entries that do not exist are not created. -/
def update (id : SlotId) (change : SlotInfo → SlotInfo) : Registry :=
  match g.lookup id with
  | some s => g.insert id (change s)
  | none => g

def markClean (id : SlotId) : Registry :=
  g.update id fun s => { s with dirty := false }

/-- The post-turn task claims its slot once more. -/
def relabel (id : SlotId) (session : String) : Registry :=
  g.update id fun s => { s with session := some session }

def abandon (id : SlotId) : Registry :=
  g.update id fun s => { s with dirty := false, session := none }

/-! ## Owners and dirty flags after each operation -/

variable {g}

theorem mem_hotSlots {session : String} {id : SlotId} :
    id ∈ g.hotSlots session ↔ g.owner id = some session := by
  simp only [hotSlots, List.mem_map, List.mem_filter, beq_iff_eq, owner, entry]
  constructor
  · rintro ⟨⟨key, info⟩, ⟨member, owned⟩, rfl⟩
    rw [show g.lookup key = some info from AList.mem_lookup_iff.mpr member]
    exact owned
  · intro owned
    cases found : g.lookup id with
    | none => simp [found, fresh] at owned
    | some info =>
        rw [found] at owned
        exact ⟨⟨id, info⟩, ⟨AList.mem_lookup_iff.mp found, owned⟩, rfl⟩

theorem entry_insert (id other : SlotId) (info : SlotInfo) :
    entry (g.insert id info) other = if other = id then info else g.entry other := by
  by_cases same : other = id
  · subst same
    simp [entry]
  · simp [entry, same, AList.lookup_insert_ne same]

theorem owner_insert_of_ne {id other : SlotId} (distinct : other ≠ id) (info : SlotInfo) :
    owner (g.insert id info) other = g.owner other := by
  rw [owner, entry_insert, if_neg distinct, owner]

theorem dirty_insert_of_ne {id other : SlotId} (distinct : other ≠ id) (info : SlotInfo) :
    dirty (g.insert id info) other = g.dirty other := by
  rw [dirty, entry_insert, if_neg distinct, dirty]

theorem entry_update (id other : SlotId) (change : SlotInfo → SlotInfo) :
    (g.update id change).entry other =
      if other = id ∧ id ∈ g then change (g.entry id) else g.entry other := by
  unfold update
  cases found : g.lookup id with
  | none =>
      have absent : id ∉ g := AList.lookup_eq_none.mp found
      simp [absent]
  | some s =>
      have present : id ∈ g := AList.lookup_isSome.mp (by simp [found])
      have current : g.entry id = s := by simp [entry, found]
      rw [current, entry_insert]
      simp [present]

theorem entry_of_notMem {id : SlotId} (absent : id ∉ g) : g.entry id = fresh := by
  simp [entry, AList.lookup_eq_none.mpr absent]

@[simp]
theorem owner_empty (id : SlotId) : owner ∅ id = none := rfl

@[simp]
theorem dirty_empty (id : SlotId) : dirty ∅ id = false := rfl

section Views

variable {View : Type*} (view : SlotInfo → View)

theorem view_insert_of_kept {id : SlotId} {info : SlotInfo}
    (kept : view info = view (g.entry id)) (other : SlotId) :
    view (entry (g.insert id info) other) = view (g.entry other) := by
  rw [entry_insert]
  split_ifs with same
  · rw [same]
    exact kept
  · rfl

theorem view_update_of_kept {change : SlotInfo → SlotInfo}
    (kept : ∀ s, view (change s) = view s) (id other : SlotId) :
    view ((g.update id change).entry other) = view (g.entry other) := by
  rw [entry_update]
  split_ifs with here
  · rw [here.1]
    exact kept (g.entry id)
  · rfl

/-- Entries that do not exist show already what the change sets. -/
theorem view_update_of_set {change : SlotInfo → SlotInfo} {shown : View}
    (set : ∀ s, view (change s) = shown) (absent : view fresh = shown) (id other : SlotId) :
    view ((g.update id change).entry other) =
      if other = id then shown else view (g.entry other) := by
  rw [entry_update]
  by_cases same : other = id
  · subst same
    rw [if_pos rfl]
    split_ifs with present
    · exact set (g.entry other)
    · rw [entry_of_notMem fun member => present ⟨rfl, member⟩]
      exact absent
  · rw [if_neg same, if_neg fun here => same here.1]

end Views

@[simp]
theorem owner_observe (s : SlotState) (id : SlotId) :
    (g.observe s).owner id = g.owner id := by
  unfold owner observe
  apply view_insert_of_kept SlotInfo.session
  rfl

@[simp]
theorem dirty_observe (s : SlotState) (id : SlotId) :
    (g.observe s).dirty id = g.dirty id := by
  unfold dirty observe
  apply view_insert_of_kept SlotInfo.dirty
  rfl

@[simp]
theorem owner_markDirty (id other : SlotId) (session : String) :
    (g.markDirty id session).owner other =
      if other = id then some session else g.owner other := by
  rw [markDirty, owner, entry_insert]
  split_ifs <;> rfl

@[simp]
theorem dirty_markDirty (id other : SlotId) (session : String) :
    (g.markDirty id session).dirty other = if other = id then true else g.dirty other := by
  rw [markDirty, dirty, entry_insert]
  split_ifs <;> rfl

@[simp]
theorem owner_markClean (id other : SlotId) :
    (g.markClean id).owner other = g.owner other := by
  unfold owner markClean
  apply view_update_of_kept SlotInfo.session
  exact fun _ => rfl

@[simp]
theorem dirty_markClean (id other : SlotId) :
    (g.markClean id).dirty other = if other = id then false else g.dirty other := by
  unfold dirty markClean
  apply view_update_of_set SlotInfo.dirty
  · exact fun _ => rfl
  · rfl

@[simp]
theorem owner_relabel (id other : SlotId) (session : String) :
    (g.relabel id session).owner other =
      if other = id ∧ id ∈ g then some session else g.owner other := by
  rw [relabel, owner, entry_update]
  split_ifs <;> rfl

@[simp]
theorem dirty_relabel (id other : SlotId) (session : String) :
    (g.relabel id session).dirty other = g.dirty other := by
  unfold dirty relabel
  apply view_update_of_kept SlotInfo.dirty
  exact fun _ => rfl

@[simp]
theorem owner_abandon (id other : SlotId) :
    (g.abandon id).owner other = if other = id then none else g.owner other := by
  unfold owner abandon
  apply view_update_of_set SlotInfo.session
  · exact fun _ => rfl
  · rfl

@[simp]
theorem dirty_abandon (id other : SlotId) :
    (g.abandon id).dirty other = if other = id then false else g.dirty other := by
  unfold dirty abandon
  apply view_update_of_set SlotInfo.dirty
  · exact fun _ => rfl
  · rfl

theorem mem_of_dirty {id : SlotId} (dirty : g.dirty id = true) : id ∈ g := by
  by_contra absent
  simp [Registry.dirty, entry_of_notMem absent, fresh] at dirty

/-! ## The two scans -/

/-- Scanning reports changes neither view of the registry. -/
theorem views_pickSlot (arr : List SlotState) (id : SlotId) :
    (pickSlot arr g).2.owner id = g.owner id ∧ (pickSlot arr g).2.dirty id = g.dirty id := by
  induction arr generalizing g with
  | nil => exact ⟨rfl, rfl⟩
  | cons s arr inductionHypothesis =>
      rw [pickSlot]
      split_ifs
      · simpa using inductionHypothesis (g := g.observe s)
      · simp

theorem views_findEvictable (arr : List SlotState) (id : SlotId) :
    (findEvictable arr g).2.owner id = g.owner id ∧
      (findEvictable arr g).2.dirty id = g.dirty id := by
  induction arr generalizing g with
  | nil => exact ⟨rfl, rfl⟩
  | cons s arr inductionHypothesis =>
      rw [findEvictable]
      split_ifs
      · simpa using inductionHypothesis (g := g.observe s)
      · simp
      · simpa using inductionHypothesis (g := g.observe s)

/-- A picked slot was reported idle and carries nothing unpublished. -/
theorem pickSlot_some {arr : List SlotState} {id : SlotId}
    (picked : (pickSlot arr g).1 = some id) :
    g.dirty id = false ∧ ∃ s ∈ arr, s.id = id ∧ s.isProcessing = false := by
  induction arr generalizing g with
  | nil => cases picked
  | cons s arr inductionHypothesis =>
      rw [pickSlot] at picked
      split_ifs at picked with taken
      · obtain ⟨clean, s', member, rest⟩ := inductionHypothesis picked
        exact ⟨by simpa using clean, s', List.mem_cons_of_mem _ member, rest⟩
      · obtain rfl : s.id = id := Option.some.inj picked
        simp only [dirty_observe, Bool.or_eq_true, not_or, Bool.not_eq_true] at taken
        exact ⟨taken.2, s, List.mem_cons_self, rfl, taken.1⟩

theorem pickSlot_none {arr : List SlotState} (missed : (pickSlot arr g).1 = none) :
    ∀ s ∈ arr, s.isProcessing = true ∨ g.dirty s.id = true := by
  induction arr generalizing g with
  | nil => simp
  | cons s arr inductionHypothesis =>
      rw [pickSlot] at missed
      split_ifs at missed with taken
      intro s' member
      rcases List.mem_cons.mp member with rfl | later
      · simpa using taken
      · simpa using inductionHypothesis missed s' later

/-- An evictable slot was reported idle, is dirty, and is named with its owner. -/
theorem findEvictable_some {arr : List SlotState} {id : SlotId} {victim : Option String}
    (found : (findEvictable arr g).1 = some (id, victim)) :
    g.dirty id = true ∧ victim = g.owner id ∧ ∃ s ∈ arr, s.id = id ∧ s.isProcessing = false := by
  induction arr generalizing g with
  | nil => cases found
  | cons s arr inductionHypothesis =>
      rw [findEvictable] at found
      split_ifs at found with processing dirty
      · obtain ⟨dirty, owned, s', member, listed⟩ := inductionHypothesis found
        rw [dirty_observe] at dirty
        rw [owner_observe] at owned
        exact ⟨dirty, owned, s', List.mem_cons_of_mem _ member, listed⟩
      · obtain ⟨rfl, rfl⟩ := Prod.mk.inj (Option.some.inj found)
        rw [dirty_observe] at dirty
        exact ⟨dirty, owner_observe s s.id, s, List.mem_cons_self, rfl,
          Bool.eq_false_iff.mpr processing⟩
      · obtain ⟨dirty, owned, s', member, listed⟩ := inductionHypothesis found
        rw [dirty_observe] at dirty
        rw [owner_observe] at owned
        exact ⟨dirty, owned, s', List.mem_cons_of_mem _ member, listed⟩

end Registry

end Ollm.Proxy
