import Ollm.Quota.Order
import Ollm.Store.Steps

/-!
# The files of one session

The four cache files of a session under one signature belong to no other
session, signature or role.  A call for the session reads and changes only
these four, and the planner pairs the session's blob with the sidecar that a
publish leaves beside it.
-/

namespace Ollm.Store

open Keying Quota

def cacheFiles (backendSig session : String) : List String :=
  [Role.blob, .sidecar, .scratch, .scratchSidecar].map (cacheName backendSig session)

theorem mem_cacheFiles_iff {backendSig session name : String} :
    name ∈ cacheFiles backendSig session ↔ ∃ role, name = cacheName backendSig session role := by
  constructor
  · intro member
    obtain ⟨role, -, named⟩ := List.mem_map.mp member
    exact ⟨role, named.symm⟩
  · rintro ⟨role, rfl⟩
    apply List.mem_map_of_mem
    cases role <;> decide

/-- The world with other files in place of all but the given ones. -/
def World.graft (world : World) (own : List String) (foreign : Dir) : World :=
  { world with dir := world.dir.graft own foreign }

def Call.session? : Call → Option String
  | .save session | .lookup session | .restore session => some session
  | _ => none

/-- Only a quota pass lists or removes files. -/
def Phase.sweeps : Phase → Bool
  | .scanning _ | .removing _ => true
  | _ => false

variable {backendSig : String} {calls : CallId → Call} {limit : UInt64} {c : CallId}

theorem blobOf_session {session : String} (own : (calls c).session? = some session) :
    blobOf backendSig calls c = blobName backendSig session := by
  cases isCall : calls c with
  | save other | lookup other | restore other =>
      rw [isCall] at own
      obtain rfl : other = session := Option.some.inj own
      simp [blobOf, isCall]
  | seed key | limit => simp [isCall, Call.session?] at own

theorem Step.sweeps {action : Action} {phase phase' : Phase} {world world' : World}
    (step : Step backendSig calls limit c action phase world phase' world')
    (sweeps : phase'.sweeps = true) : phase.sweeps = true ∨ calls c = .limit := by
  cases step with
  | beginLimit isLimit => exact .inr isLimit
  | scan | plan | removed | notRemoved => exact .inl rfl
  | tick | dropped => exact .inl sweeps
  | _ => cases sweeps

theorem limit_of_sweeps {config : StoreState}
    (reached : (storeMachine backendSig calls limit).Reachable config)
    (sweeps : (config.locals c).sweeps = true) : calls c = .limit := by
  refine ((store backendSig calls limit).assertion_of_crashing (fun _ => True)
    (fun name phase _ => phase.sweeps = true → calls name = .limit)
    ?_ ?_ ?_ ?_ reached).2 c sweeps
  · intro world _
    exact ⟨trivial, fun _ starts => by cases starts⟩
  · intro config name action phase' world' _ holds _ acted
    refine ⟨trivial, fun later => ?_⟩
    rcases (step_of_act acted).sweeps later with before | isLimit
    · exact holds name before
    · exact isLimit
  · intro config name action phase' world' holds _ _ other _
    exact holds other
  · intro world fault _
    refine ⟨trivial, fun name phase later => ?_⟩
    cases phase <;> cases later

section Graft

variable {own : List String} {foreign : Dir}

theorem World.graft_publish {world : World} {source target : String} (left : source ∈ own)
    (entered : target ∈ own) :
    (world.graft own foreign).publish source target =
      (world.publish source target).graft own foreign := by
  simp [World.publish, World.graft, Directory.graft_rename left entered]

theorem World.graft_touch {world : World} {name : String} (member : name ∈ own) :
    (world.graft own foreign).touch name = (world.touch name).graft own foreign := by
  unfold World.touch
  simp only [World.graft, Directory.graft_own member]
  split_ifs
  · simp [Directory.touch, Directory.graft_modify member]
  · rfl

theorem begin_graft (world : World) :
    begin calls c (world.graft own foreign) =
      (begin calls c world).map fun result => (result.1, result.2.graft own foreign) := by
  have gate : (world.graft own foreign).gate = world.gate := rfl
  unfold begin
  rw [gate]
  cases calls c with
  | save session => cases world.gate.write? c <;> rfl
  | lookup session => cases world.gate.read? c <;> rfl
  | seed key | restore session | limit => rfl

theorem drop_graft (phase : Phase) (world : World) :
    act backendSig calls limit c .drop phase (world.graft own foreign) =
      (act backendSig calls limit c .drop phase world).map
        fun result => (result.1, result.2.graft own foreign) := by
  have drops : ∀ world, act backendSig calls limit c .drop phase world =
      if phase.outlives && !world.dropped c then some (phase, world.drop c) else none := by
    intro world
    cases phase <;> rfl
  have dropped : (world.graft own foreign).dropped = world.dropped := rfl
  rw [drops, drops, dropped]
  split_ifs <;> rfl

/-- Acting and replacing the files of others commute. -/
theorem act_graft (files : ∀ role, fileOf (blobOf backendSig calls c) role ∈ own)
    (action : Action) {phase : Phase} (swept : phase.sweeps = false) (world : World) :
    act backendSig calls limit c action phase (world.graft own foreign) =
      (act backendSig calls limit c action phase world).map
        fun result => (result.1, result.2.graft own foreign) := by
  have blob : blobOf backendSig calls c ∈ own := files .blob
  have sidecar : sidecarPath (blobOf backendSig calls c) ∈ own := files .sidecar
  have scratch : scratchOf backendSig calls c ∈ own := files .scratch
  have scratchSidecar : sidecarPath (scratchOf backendSig calls c) ∈ own := files .scratchSidecar
  have held : ∀ name ∈ own, (world.graft own foreign).dir name = world.dir name :=
    fun name member => Directory.graft_own member
  cases phase with
  | scanning entries => cases swept
  | removing names => cases swept
  | waiting =>
      cases action with
      | begin => exact begin_graft world
      | reply ok => cases ok <;> rfl
      | _ => rfl
  | asking wrote =>
      cases action with
      | write complete len =>
          simp [act, World.graft, Directory.graft_write scratch]
      | writeSidecar complete len =>
          simp [act, World.graft, Directory.graft_write scratchSidecar]
      | reply ok =>
          rcases wrote with _ | _ | _ <;> cases ok <;> rfl
      | drop => exact drop_graft _ world
      | _ => rfl
  | opening =>
      cases action with
      | openScratch ok =>
          simp only [act, held _ scratch]
          split_ifs <;> rfl
      | reply ok => cases ok <;> rfl
      | drop => exact drop_graft _ world
      | _ => rfl
  | syncing =>
      cases action with
      | sync ok =>
          simp only [act, World.graft, Directory.sync, Directory.graft_modify scratch]
          split_ifs <;> rfl
      | reply ok => cases ok <;> rfl
      | drop => exact drop_graft _ world
      | _ => rfl
  | moving =>
      cases action with
      | rename ok =>
          simp only [act, held _ scratch, World.graft_publish scratch blob]
          split_ifs <;> rfl
      | reply ok => cases ok <;> rfl
      | drop => exact drop_graft _ world
      | _ => rfl
  | carrying =>
      cases action with
      | carry ok =>
          simp only [act, held _ scratchSidecar, World.graft_publish scratchSidecar sidecar]
          split_ifs <;> rfl
      | reply ok => cases ok <;> rfl
      | drop => exact drop_graft _ world
      | _ => rfl
  | indexing =>
      cases action with
      | index =>
          have dropped : (world.graft own foreign).dropped = world.dropped := rfl
          simp only [act, afterIndex, dropped]
          cases calls c with
          | save session =>
              simp only
              split_ifs <;> rfl
          | _ => rfl
      | reply ok => cases ok <;> rfl
      | drop => exact drop_graft _ world
      | _ => rfl
  | touching =>
      cases action with
      | touch ok =>
          simp only [act, World.graft_touch blob]
          split_ifs <;> rfl
      | reply ok => cases ok <;> rfl
      | _ => rfl
  | looking | restoring | done =>
      cases action with
      | reply ok => cases ok <;> rfl
      | _ => rfl

end Graft

section Sessions

variable {session : String}

/-- A call for a session neither reads nor changes a file that is not the session's. -/
theorem act_foreign {config : StoreState}
    (reached : (storeMachine backendSig calls limit).Reachable config)
    (own : (calls c).session? = some session) (foreign : Dir) (action : Action) :
    act backendSig calls limit c action (config.locals c)
        (config.world.graft (cacheFiles backendSig session) foreign) =
      (act backendSig calls limit c action (config.locals c) config.world).map
        fun result => (result.1, result.2.graft (cacheFiles backendSig session) foreign) := by
  apply act_graft
  · intro role
    rw [blobOf_session own]
    exact mem_cacheFiles_iff.mpr ⟨role, rfl⟩
  · by_contra sweeps
    have isLimit := limit_of_sweeps reached (Bool.eq_true_of_not_eq_false sweeps)
    rw [isLimit] at own
    cases own

theorem dir_of_foreign {before after : StoreState}
    (reached : (storeMachine backendSig calls limit).Reachable before)
    (own : (calls c).session? = some session) {action : Action}
    (moved : (storeMachine backendSig calls limit).step before (.inl (c, action)) = some after)
    {name : String} (foreign : name ∉ cacheFiles backendSig session) :
    after.world.dir name = before.world.dir name := by
  obtain ⟨acted, -⟩ := (store backendSig calls limit).acts_of_machine_step moved
  have acted' : act backendSig calls limit c action (before.locals c) before.world =
      some (after.locals c, after.world) := acted
  -- replacing the files of others by themselves
  have commutes := act_foreign reached own before.world.dir action
  have same : before.world.graft (cacheFiles backendSig session) before.world.dir =
      before.world := by simp [World.graft]
  rw [same, acted'] at commutes
  have kept := congrArg (fun world => world.dir name)
    (Prod.mk.inj (Option.some.inj commutes)).2
  exact kept.trans (Directory.graft_foreign foreign)

theorem pairOf_blob {entries : List CacheEntry} {b : CacheEntry}
    (named : b.name = cacheName backendSig session .blob) :
    (pairOf entries b).2 = cacheName backendSig session .blob ::
      if cacheName backendSig session .sidecar ∈ entries.map (·.name) then
        [cacheName backendSig session .sidecar]
      else [] := by
  have sidecar : b.name ++ ".ckpt" = cacheName backendSig session .sidecar := by
    rw [named]
    rfl
  cases found : sidecarOf entries b with
  | some s =>
      obtain ⟨listed, name⟩ := sidecarOf_mem found
      have present : cacheName backendSig session .sidecar ∈ entries.map (·.name) :=
        List.mem_map.mpr ⟨s, listed, name.trans sidecar⟩
      rw [pairOf, found, if_pos present, named]
      simp [name, sidecar]
  | none =>
      have absent : cacheName backendSig session .sidecar ∉ entries.map (·.name) := by
        intro present
        obtain ⟨s, listed, name⟩ := List.mem_map.mp present
        have missed := List.find?_eq_none.mp found s listed
        simp [name, sidecar] at missed
      rw [pairOf, found, if_neg absent, named]
      rfl

theorem pairOf_mem_pairsInOrder {entries : List CacheEntry} {b : CacheEntry}
    (listed : b ∈ entries) (named : b.name = cacheName backendSig session .blob) :
    pairOf entries b ∈ pairsInOrder entries := by
  apply (List.mem_insertionSort _).mpr
  apply List.mem_map_of_mem
  apply List.mem_filter.mpr
  refine ⟨listed, ?_⟩
  rw [named]
  exact endsWith_blobName backendSig session

/-- What `rename_sidecar` leaves beside a published blob. -/
theorem carry_sidecar {world world' : World} {phase' : Phase}
    (own : (calls c).session? = some session)
    (present : (world.dir (cacheName backendSig session .scratchSidecar)).isSome = true)
    (acted : act backendSig calls limit c (.carry true) .carrying world =
      some (phase', world')) :
    world'.dir (cacheName backendSig session .sidecar) =
      world.dir (cacheName backendSig session .scratchSidecar) := by
  have scratch : sidecarPath (scratchOf backendSig calls c) =
      cacheName backendSig session .scratchSidecar := by
    rw [scratchOf, blobOf_session own]
    rfl
  have target : sidecarPath (blobOf backendSig calls c) =
      cacheName backendSig session .sidecar := by
    rw [blobOf_session own]
    rfl
  rw [act, scratch, target, present, Bool.and_self, if_pos rfl] at acted
  obtain ⟨-, rfl⟩ := Prod.mk.inj (Option.some.inj acted)
  obtain ⟨file, held⟩ := Option.isSome_iff_exists.mp present
  rw [held]
  exact Directory.rename_target held

end Sessions

/-- Cache files of different sessions, signatures or roles have different names, calls for one
session keep to its own files, and the planner pairs a blob with its sidecar. -/
theorem cacheNames_unambiguous :
    (∀ (s t g h : String) (role role' : Role), g.length = 12 → h.length = 12 →
      cacheName g s role = cacheName h t role' → s = t ∧ g = h ∧ role = role') ∧
    (∀ backendSig calls limit c session before action,
      (storeMachine backendSig calls limit).Reachable before →
      (calls c).session? = some session →
      (∀ foreign : Dir, act backendSig calls limit c action (before.locals c)
          (before.world.graft (cacheFiles backendSig session) foreign) =
        (act backendSig calls limit c action (before.locals c) before.world).map
          fun result => (result.1, result.2.graft (cacheFiles backendSig session) foreign)) ∧
      ∀ after t h role, backendSig.length = 12 → h.length = 12 →
        (storeMachine backendSig calls limit).step before (.inl (c, action)) = some after →
        t ≠ session ∨ h ≠ backendSig →
        after.world.dir (cacheName h t role) = before.world.dir (cacheName h t role)) ∧
    ∀ backendSig calls limit c session, (calls c).session? = some session →
      (∀ entries, ∀ b ∈ entries, b.name = cacheName backendSig session .blob →
        pairOf entries b ∈ pairsInOrder entries ∧
        (pairOf entries b).2 = cacheName backendSig session .blob ::
          if cacheName backendSig session .sidecar ∈ entries.map (·.name) then
            [cacheName backendSig session .sidecar]
          else []) ∧
      ∀ world phase' world',
        act backendSig calls limit c (.carry true) .carrying world = some (phase', world') →
        (world.dir (cacheName backendSig session .scratchSidecar)).isSome = true →
        world'.dir (cacheName backendSig session .sidecar) =
          world.dir (cacheName backendSig session .scratchSidecar) := by
  refine ⟨?_, ?_, ?_⟩
  · intro s t g h role role' twelve twelve' same
    exact cacheName_inj (twelve.trans twelve'.symm) same
  · intro backendSig calls limit c session before action reached own
    refine ⟨fun foreign => act_foreign reached own foreign action, ?_⟩
    intro after t h role twelve twelve' moved other
    apply dir_of_foreign reached own moved
    intro member
    obtain ⟨role', same⟩ := mem_cacheFiles_iff.mp member
    obtain ⟨sessions, sigs, -⟩ := cacheName_inj (twelve'.trans twelve.symm) same
    exact other.elim (fun ne => ne sessions) fun ne => ne sigs
  · intro backendSig calls limit c session own
    refine ⟨fun entries b listed named => ?_, ?_⟩
    · exact ⟨pairOf_mem_pairsInOrder listed named, pairOf_blob named⟩
    · intro world phase' world' acted present
      exact carry_sidecar own present acted

end Ollm.Store
