import Ollm.Quota.Pairs
import Ollm.Store.Grace
import Ollm.Store.Publication

/-!
# Files in the order of their service

The recency that quota passes go by is the modification time of files.  A file is
never younger than its last publication or touch, and the blob of a save or restore
that is through is exactly as old, so passes delete what was served least recently.
-/

namespace Ollm.Store

open Keying Quota

variable {backendSig : String} {calls : CallId → Call} {limit : UInt64} {c : CallId}
  {world world' : World}

/-- A save between the rename of its blob and its touch. -/
def Phase.untouched : Phase → Bool
  | .carrying => true
  | .indexing => true
  | .touching => true
  | _ => false

/-- Touches succeed, and each rename of a blob is followed by one: no crash comes between, and
no handler is dropped that has the touch yet to do, neither between the two nor, with its
closure renaming the blob later, before both. -/
def Touching (config : StoreState) : CallId × Action ⊕ (String → Bool) → Prop
  | .inl (_, .touch ok) => ok = true
  | .inl (c, .rename true) => config.world.dropped c = false
  | .inl (c, .drop) => (config.locals c).untouched = false
  | .inl _ => True
  | .inr _ => ∀ c, (config.locals c).untouched = false

/-- When the files of a session were last published or touched. -/
def World.served (backendSig : String) (world : World) (session : String) : Nat :=
  max ((world.fresh (blobName backendSig session)).getD 0)
    ((world.fresh (sidecarPath (blobName backendSig session))).getD 0)

/-- The listing shows files as they are. -/
def Current (world : World) (entries : List CacheEntry) : Prop :=
  ∀ e ∈ entries, ∃ file, world.dir e.name = some file ∧ e = entryOf e.name file

/-! ## What a step makes of a file's time -/

def Dated (world : World) : Prop :=
  ∀ name file, world.dir name = some file → file.mtime ≤ world.clock

theorem Dated.step {action : Action} {phase phase' : Phase} (dated : Dated world)
    (step : Step backendSig calls limit c action phase world phase' world') : Dated world' := by
  cases step with
  | write | writeSidecar =>
      intro name file found
      rcases Directory.write_eq_some found with ⟨-, rfl⟩ | ⟨-, before⟩
      · exact Nat.le_refl _
      · exact dated name file before
  | synced =>
      intro name file found
      rcases Directory.modify_eq_some found with ⟨-, before, held, rfl⟩ | ⟨-, before⟩
      · exact dated name before held
      · exact dated name file before
  | renamed | carried =>
      intro name file found
      rcases Directory.rename_eq_some found with ⟨-, source⟩ | before
      · exact dated _ file source
      · exact dated name file before
  | touched =>
      intro name file found
      simp only [World.finish, World.touch] at found ⊢
      split_ifs at found ⊢
      · rcases Directory.modify_eq_some found with ⟨-, before, -, rfl⟩ | ⟨-, before⟩
        · exact Nat.le_refl _
        · exact dated name file before
      · exact dated name file found
  | removed => exact fun name file found => dated name file (Directory.remove_eq_some found).2
  | tick => exact fun name file found => (dated name file found).trans (Nat.le_add_right _ _)
  | _ => exact dated

/-- What becomes of the time under the name of a blob or of its sidecar. -/
inductive Stamp (backendSig : String) (calls : CallId → Call) (c : CallId) (action : Action)
    (phase' : Phase) (world world' : World) (name : String) : Prop where
  | kept (same : ∀ file, world'.dir name = some file → world'.fresh name = world.fresh name ∧
      ∃ before, world.dir name = some before ∧ file.mtime = before.mtime)
  | renamed {own} (isSave : calls c = .save own) (named : name = blobName backendSig own)
      (acts : action = .rename true) (phases : phase' = .carrying)
      (dropped : world'.dropped = world.dropped) (fresh : world'.fresh name = some world'.clock)
  | carried (named : name = sidecarPath (blobOf backendSig calls c))
      (fresh : world'.fresh name = some world'.clock)
  | touched (fresh : world'.fresh name = some world'.clock)
      (exact : ∀ file, world'.dir name = some file → file.mtime = world'.clock)

theorem Stamp.of_unchanged {action : Action} {phase' : Phase} {name : String}
    (files : world'.dir name = world.dir name) (times : world'.fresh name = world.fresh name) :
    Stamp backendSig calls c action phase' world world' name :=
  .kept fun file found => ⟨times, file, files ▸ found, rfl⟩

theorem World.touch_stamps {name : String} {file : File CallId}
    (found : (world.touch name).dir name = some file) :
    file.mtime = (world.touch name).clock ∧
      (world.touch name).fresh name = some (world.touch name).clock := by
  unfold World.touch at found ⊢
  split_ifs at found ⊢ with present
  · rcases Directory.modify_eq_some found with ⟨-, before, -, rfl⟩ | ⟨other, -⟩
    · exact ⟨rfl, Function.update_self _ _ _⟩
    · exact absurd rfl other
  · simp [found] at present

theorem Step.stamp {action : Action} {phase phase' : Phase}
    (saves : phase.writes = true → ∃ own, calls c = .save own)
    (step : Step backendSig calls limit c action phase world phase' world') {name : String}
    (apart : ∀ own, name ≠ cacheName backendSig own .scratch ∧
      name ≠ cacheName backendSig own .scratchSidecar) :
    Stamp backendSig calls c action phase' world world' name := by
  have scratch : phase.writes = true → name ≠ scratchOf backendSig calls c ∧
      name ≠ sidecarPath (scratchOf backendSig calls c) := by
    intro writes
    obtain ⟨own, isSave⟩ := saves writes
    rw [scratchOf, blobOf_save isSave]
    exact apart own
  cases step with
  | write => exact .of_unchanged (Directory.write_of_ne (scratch rfl).1) rfl
  | writeSidecar => exact .of_unchanged (Directory.write_of_ne (scratch rfl).2) rfl
  | synced => exact .of_unchanged (Directory.modify_of_ne (scratch rfl).1) rfl
  | renamed =>
      by_cases target : name = blobOf backendSig calls c
      · obtain ⟨own, isSave⟩ := saves rfl
        refine .renamed isSave (target.trans (blobOf_save isSave)) rfl rfl rfl ?_
        exact target ▸ Function.update_self _ _ _
      · exact .of_unchanged (Directory.rename_of_ne (scratch rfl).1 target)
          (Function.update_of_ne target _ _)
  | carried =>
      by_cases target : name = sidecarPath (blobOf backendSig calls c)
      · exact .carried target (target ▸ Function.update_self _ _ _)
      · exact .of_unchanged (Directory.rename_of_ne (scratch rfl).2 target)
          (Function.update_of_ne target _ _)
  | touched =>
      by_cases target : name = blobOf backendSig calls c
      · subst target
        cases present : (world.touch (blobOf backendSig calls c)).dir _ with
        | none => exact .kept fun file found => by cases present.symm.trans found
        | some file =>
            exact .touched (World.touch_stamps present).2 fun _ found =>
              (World.touch_stamps found).1
      · simp only [World.finish, World.touch]
        split_ifs
        · exact .of_unchanged (Directory.modify_of_ne target) (Function.update_of_ne target _ _)
        · exact .of_unchanged rfl rfl
  | @removed removed =>
      refine .kept fun file found => ?_
      obtain ⟨other, before⟩ := Directory.remove_eq_some found
      exact ⟨Function.update_of_ne other _ _, file, before, rfl⟩
  | _ => exact .of_unchanged rfl rfl

/-- No file is younger than its last publication or touch. -/
def Bounded (world : World) (name : String) : Prop :=
  ∀ file, world.dir name = some file → ∃ time, world.fresh name = some time ∧ file.mtime ≤ time

def Exact (world : World) (name : String) : Prop :=
  ∀ file, world.dir name = some file → world.fresh name = some file.mtime

section Stamps

variable {action : Action} {phase' : Phase} {name : String}

theorem Stamp.bounded (stamp : Stamp backendSig calls c action phase' world world' name)
    (dated : Dated world') (bounded : Bounded world name) : Bounded world' name := by
  intro file found
  cases stamp with
  | kept same =>
      obtain ⟨times, before, held, mtime⟩ := same file found
      rw [times, mtime]
      exact bounded before held
  | renamed _ _ _ _ _ fresh | carried _ fresh | touched fresh =>
      exact ⟨_, fresh, dated name file found⟩

theorem Stamp.exact {session : String}
    (stamp : Stamp backendSig calls c action phase' world world' (blobName backendSig session))
    (there : action = .rename true → world.dropped c = false)
    (exact : Exact world (blobName backendSig session)) :
    Exact world' (blobName backendSig session) ∨
      (calls c = .save session ∧ phase'.untouched = true ∧ world'.dropped c = false) := by
  cases stamp with
  | kept same =>
      left
      intro file found
      obtain ⟨times, before, held, mtime⟩ := same file found
      rw [times, mtime]
      exact exact before held
  | renamed isSave named acts phases dropped =>
      -- the rename keeps the time of the backend's write
      rw [(blobName_inj rfl named).1, phases, dropped]
      exact .inr ⟨isSave, rfl, there acts⟩
  | carried named =>
      -- no blob is named like a sidecar
      exact absurd named (Text.append_ne_append (by decide) (by decide))
  | touched fresh mtime => exact .inl fun file found => by rw [fresh, mtime file found]

end Stamps

/-- A save goes on from the rename of its blob to the touch, which makes its time exact. -/
theorem untouched_or_exact {action : Action} {phase phase' : Phase} {session : String}
    (isSave : calls c = .save session) (untouched : phase.untouched = true)
    (there : world.dropped c = false) (touches : ∀ ok, action = .touch ok → ok = true)
    (stays : action ≠ .drop)
    (step : Step backendSig calls limit c action phase world phase' world') :
    (phase'.untouched = true ∧ world'.dropped c = false) ∨
      Exact world' (blobName backendSig session) := by
  cases step with
  | carried | notCarried | indexedSave => exact .inl ⟨rfl, there⟩
  | indexed last => cases (last session isSave).symm.trans there
  | touched =>
      right
      intro file found
      rw [← blobOf_save isSave] at found ⊢
      obtain ⟨mtime, fresh⟩ := World.touch_stamps found
      exact fresh.trans (congrArg some mtime.symm)
  | untouched => exact absurd (touches false rfl) (by decide)
  | tick => exact .inl ⟨untouched, there⟩
  | dropped => exact absurd rfl stays
  | _ => cases untouched

/-! ## Runs -/

/-- What quota passes rely on when they go by the times of files. -/
structure Served (backendSig : String) (calls : CallId → Call) (config : StoreState) : Prop where
  dated : Dated config.world
  blob : ∀ session, Bounded config.world (blobName backendSig session)
  sidecar : ∀ session, Bounded config.world (sidecarPath (blobName backendSig session))
  exact : ∀ session, Exact config.world (blobName backendSig session) ∨
    ∃ c, calls c = .save session ∧ (config.locals c).untouched = true ∧
      config.world.dropped c = false
  distinct : ∀ c, ((config.locals c).listing.map (·.name)).Nodup

theorem distinct_of_step {action : Action} {phase phase' : Phase}
    (distinct : (phase.listing.map (·.name)).Nodup)
    (step : Step backendSig calls limit c action phase world phase' world') :
    (phase'.listing.map (·.name)).Nodup := by
  cases step with
  | scan present unlisted =>
      simp only [Phase.listing, List.map_append, List.map_cons, List.map_nil, entryOf]
      exact List.nodup_append.mpr ⟨distinct, List.nodup_singleton _, by grind⟩
  | tick | dropped => exact distinct
  | _ => exact List.nodup_nil

theorem Served.step {before after : StoreState} {action : Action}
    (saves : (before.locals c).writes = true → ∃ own, calls c = .save own)
    (served : Served backendSig calls before) (touches : Touching before (.inl (c, action)))
    (moved : (store backendSig calls limit).machine.step before (c, action) = some after) :
    Served backendSig calls after := by
  obtain ⟨acted, others⟩ := (store backendSig calls limit).acts_of_machine_step moved
  have step := step_of_act acted
  have dated := served.dated.step step
  have stampBlob : ∀ session, Stamp backendSig calls c action (after.locals c) before.world
      after.world (blobName backendSig session) := fun session =>
    step.stamp saves fun own => ⟨cacheName_ne_of_role .blob .scratch (by decide) session own,
      cacheName_ne_of_role .blob .scratchSidecar (by decide) session own⟩
  have stampSidecar : ∀ session, Stamp backendSig calls c action (after.locals c) before.world
      after.world (sidecarPath (blobName backendSig session)) := fun session =>
    step.stamp saves fun own => ⟨cacheName_ne_of_role .sidecar .scratch (by decide) session own,
      cacheName_ne_of_role .sidecar .scratchSidecar (by decide) session own⟩
  refine ⟨dated, fun session => (stampBlob session).bounded dated (served.blob session),
    fun session => (stampSidecar session).bounded dated (served.sidecar session), ?_, ?_⟩
  · intro session
    rcases served.exact session with exact | ⟨d, isSave, untouched, there⟩
    · have renames : action = .rename true → before.world.dropped c = false := by
        rintro rfl
        exact touches
      exact ((stampBlob session).exact renames exact).imp_right fun own => ⟨c, own⟩
    · by_cases same : d = c
      · subst same
        have succeeds : ∀ ok, action = .touch ok → ok = true := by
          rintro ok rfl
          exact touches
        have stays : action ≠ .drop := by
          rintro rfl
          cases untouched.symm.trans touches
        exact (untouched_or_exact isSave untouched there succeeds stays step).symm.imp_right
          fun still => ⟨d, isSave, still⟩
      · right
        exact ⟨d, isSave, by rw [others d same, untouched], by rw [step.dropped_of_ne same, there]⟩
  · intro other
    by_cases same : other = c
    · subst same
      exact distinct_of_step (served.distinct other) step
    · rw [others other same]
      exact served.distinct other

theorem Served.crash {config : StoreState} (served : Served backendSig calls config)
    (touched : ∀ c, (config.locals c).untouched = false) (torn : String → Bool) :
    Served backendSig calls
      ⟨config.world.crash torn, fun c => (config.locals c).abort⟩ := by
  -- a crash may tear a file, but leaves its time
  have before : ∀ name file, (config.world.crash torn).dir name = some file →
      ∃ held, config.world.dir name = some held ∧ file.mtime = held.mtime := by
    intro name file found
    obtain ⟨held, found, changed⟩ := Option.map_eq_some_iff.mp found
    refine ⟨held, found, ?_⟩
    rw [← changed]
    split_ifs <;> rfl
  have bounded : ∀ name, Bounded config.world name → Bounded (config.world.crash torn) name := by
    intro name bounded file found
    obtain ⟨held, found, mtime⟩ := before name file found
    rw [mtime]
    exact bounded held found
  refine ⟨?_, fun session => bounded _ (served.blob session),
    fun session => bounded _ (served.sidecar session), ?_, ?_⟩
  · intro name file found
    obtain ⟨held, found, mtime⟩ := before name file found
    rw [mtime]
    exact served.dated name held found
  · intro session
    left
    rcases served.exact session with exact | ⟨c, -, untouched, -⟩
    · intro file found
      obtain ⟨held, found, mtime⟩ := before _ file found
      rw [mtime]
      exact exact held found
    · rw [touched c] at untouched
      cases untouched
  · intro c
    change ((config.locals c).abort.listing.map (·.name)).Nodup
    cases config.locals c <;> exact List.nodup_nil

/-- In runs without seeds whose touches succeed. -/
theorem served_of_reached (saves : ∀ c key, calls c ≠ .seed key) {config : StoreState}
    (reached : (storeMachine backendSig calls limit).ReachedBy Touching config) :
    Served backendSig calls config := by
  have isSave : ∀ config, (storeMachine backendSig calls limit).ReachedBy Touching config →
      ∀ c, (config.locals c).writes = true → ∃ own, calls c = .save own :=
    fun config reached c => save_of_writes saves (reached.mono fun _ _ _ => trivial)
  refine (reached.attach isSave).invariant (Served backendSig calls) ?_ ?_
  · rintro ⟨world, locals⟩ ⟨fresh, rfl⟩
    have empty : ∀ name file, world.dir name ≠ some file := by
      intro name file found
      rw [fresh.dir] at found
      cases found
    exact ⟨fun name file found => absurd found (empty name file),
      fun session file found => absurd found (empty _ file),
      fun session file found => absurd found (empty _ file),
      fun session => .inl fun file found => absurd found (empty _ file), fun _ => List.nodup_nil⟩
  · rintro before (⟨c, action⟩ | torn) after served ⟨touches, writes⟩ moved
    · exact served.step (writes c) touches moved
    · cases moved
      exact served.crash touches torn

theorem secs_toNat {time : Nat} (inTime : time / 10 ^ 9 < 2 ^ 64) :
    (secs time).toNat = time / 10 ^ 9 :=
  UInt64.toNat_ofNat_of_lt' inTime

theorem Current.mtimeUnix {entries : List CacheEntry} {e : CacheEntry}
    (current : Current world entries) (dated : Dated world)
    (inTime : world.clock / 10 ^ 9 < 2 ^ 64) (listed : e ∈ entries) :
    ∃ file, world.dir e.name = some file ∧ e.mtimeUnix.toNat = file.mtime / 10 ^ 9 := by
  obtain ⟨file, found, same⟩ := current e listed
  refine ⟨file, found, ?_⟩
  rw [congrArg CacheEntry.mtimeUnix same]
  exact secs_toNat ((Nat.div_le_div_right (dated e.name file found)).trans_lt inTime)

section Listed

variable {entries : List CacheEntry} {e : CacheEntry} {session : String}

/-- A listed file is shown no younger than its last publication or touch. -/
theorem mtimeUnix_le_of_bounded (current : Current world entries) (dated : Dated world)
    (inTime : world.clock / 10 ^ 9 < 2 ^ 64) (listed : e ∈ entries)
    (bounded : Bounded world e.name) :
    e.mtimeUnix.toNat ≤ (world.fresh e.name).getD 0 / 10 ^ 9 := by
  obtain ⟨file, found, shown⟩ := current.mtimeUnix dated inTime listed
  obtain ⟨time, fresh, le⟩ := bounded file found
  rw [shown, fresh]
  exact Nat.div_le_div_right le

theorem pairMtime_le_served {config : StoreState} (served : Served backendSig calls config)
    (current : Current config.world entries) (inTime : config.world.clock / 10 ^ 9 < 2 ^ 64)
    (listed : e ∈ entries) (named : e.name = blobName backendSig session) :
    (pairMtime entries e).toNat ≤ config.world.served backendSig session / 10 ^ 9 := by
  rw [pairMtime, toNat_max]
  apply max_le
  · have bounded := served.blob session
    rw [← named] at bounded
    apply (mtimeUnix_le_of_bounded current served.dated inTime listed bounded).trans
    rw [named]
    exact Nat.div_le_div_right (Nat.le_max_left _ _)
  · cases found : sidecarOf entries e with
    | none => exact Nat.zero_le _
    | some s =>
        obtain ⟨listedS, namedS⟩ := sidecarOf_mem found
        have ledger : s.name = sidecarPath (blobName backendSig session) := by
          rw [namedS, named, sidecarPath]
        have bounded := served.sidecar session
        rw [← ledger] at bounded
        apply (mtimeUnix_le_of_bounded current served.dated inTime listedS bounded).trans
        rw [ledger]
        exact Nat.div_le_div_right (Nat.le_max_right _ _)

end Listed

/-- In runs without seeds whose touches succeed, a pass that lists the directory as it is plans
no blob, of a session that no save is about to touch, that was published or touched (to the
second) after all files of another session whose blob it leaves. -/
theorem least_recently_served (saves : ∀ c key, calls c ≠ .seed key) {config : StoreState}
    (reached : (storeMachine backendSig calls limit).ReachedBy Touching config)
    (inTime : config.world.clock / 10 ^ 9 < 2 ^ 64) {entries : List CacheEntry}
    (scanned : config.locals c = .scanning entries) (current : Current config.world entries)
    {plan : List String}
    (planned : planEvictions entries limit (secs config.world.clock) 60 = some plan)
    {session other : String} (taken : blobName backendSig session ∈ plan)
    (through : ∀ c, calls c = .save session → (config.locals c).untouched = false)
    (listed : blobName backendSig other ∈ entries.map (·.name))
    (left : blobName backendSig other ∉ plan) :
    ∃ time, config.world.fresh (blobName backendSig session) = some time ∧
      time / 10 ^ 9 ≤ config.world.served backendSig other / 10 ^ 9 := by
  have served := served_of_reached saves reached
  have distinct : (entries.map (·.name)).Nodup := by
    have listing := served.distinct c
    rwa [scanned] at listing
  obtain ⟨e, listedE, named, -⟩ := planned_outside_grace distinct planned taken
  obtain ⟨f, listedF, namedF⟩ := List.mem_map.mp listed
  have blobE : Text.endsWith e.name ".bin" = true := named ▸ endsWith_blobName backendSig session
  have blobF : Text.endsWith f.name ".bin" = true := namedF ▸ endsWith_blobName backendSig other
  have le := pairMtime_le_of_planned distinct planned listedE blobE (named ▸ taken) listedF blobF
    (namedF ▸ left)
  obtain ⟨file, found, shown⟩ := current.mtimeUnix served.dated inTime listedE
  rw [named] at found
  have exact : Exact config.world (blobName backendSig session) := by
    refine (served.exact session).resolve_right ?_
    rintro ⟨c, isSave, untouched, -⟩
    rw [through c isSave] at untouched
    cases untouched
  refine ⟨file.mtime, exact file found, ?_⟩
  calc file.mtime / 10 ^ 9
    _ = e.mtimeUnix.toNat := shown.symm
    _ ≤ (pairMtime entries e).toNat := by
      rw [pairMtime, toNat_max]
      exact Nat.le_max_left _ _
    _ ≤ (pairMtime entries f).toNat := le
    _ ≤ config.world.served backendSig other / 10 ^ 9 :=
      pairMtime_le_served served current inTime listedF namedF

/-! ## A run -/

/-- Calls 0 and 1 save two sessions, call 2 is a quota pass. -/
def savesOfTwo : CallId → Call
  | 0 => .save "hdr-a"
  | 1 => .save "hdr-b"
  | _ => .limit

def touchedSave (c : CallId) : List (CallId × Action ⊕ (String → Bool)) :=
  publishing c 9 ++ [.inl (c, .carry true), .inl (c, .index), .inl (c, .touch true),
    .inl (c, .tick (100 * 10 ^ 9))]

def touchingCheck (config : StoreState) : CallId × Action ⊕ (String → Bool) → Bool
  | .inl (_, .touch ok) => ok
  | .inl (c, .rename true) => !config.world.dropped c
  | .inl (_, .drop) => false
  | .inl _ => true
  | .inr _ => false

theorem touching_of_check {config : StoreState} {event : CallId × Action ⊕ (String → Bool)}
    (checked : touchingCheck config event = true) : Touching config event := by
  rcases event with ⟨c, action⟩ | torn
  · cases action with
    | touch ok => exact checked
    | rename ok =>
        cases ok with
        | true => exact (Bool.not_eq_true' _).mp checked
        | false => trivial
    | drop => cases checked
    | _ => trivial
  · cases checked

/-- The older of two blobs is planned, the other one is left. -/
theorem least_recently_served_two_saves :
    ∃ config : StoreState, config.world.clock = 200 * 10 ^ 9 ∧
      ∃ time, config.world.fresh (blobName "0123456789ab" "hdr-a") = some time ∧
        time / 10 ^ 9 ≤ config.world.served "0123456789ab" "hdr-b" / 10 ^ 9 := by
  have executed : (((storeMachine "0123456789ab" savesOfTwo 9).run
      (fun config event => among 3 event && touchingCheck config event) storeStart
      (touchedSave 0 ++ touchedSave 1 ++ [.inl (2, .begin),
        .inl (2, .scan (blobName "0123456789ab" "hdr-a")),
        .inl (2, .scan (blobName "0123456789ab" "hdr-b"))])).map fun config =>
          ((config.locals 0, config.locals 2, config.world.clock),
            (config.world.dir (blobName "0123456789ab" "hdr-a"),
              config.world.dir (blobName "0123456789ab" "hdr-b")))) =
      some ((.done, .scanning [⟨blobName "0123456789ab" "hdr-a", 9, 0⟩,
          ⟨blobName "0123456789ab" "hdr-b", 9, 100⟩], 200 * 10 ^ 9),
        (some ⟨0, true, true, 9, 0⟩, some ⟨1, true, true, 9, 100 * 10 ^ 9⟩)) := by
    decide
  obtain ⟨config, ran, held⟩ := Option.map_eq_some_iff.mp executed
  simp only [Prod.mk.injEq] at held
  obtain ⟨⟨doneA, scanned, clock⟩, fileA, fileB⟩ := held
  have reached := storeRun Touching (fun _ _ _ _ => touching_of_check) ran
  have saves : ∀ c key, savesOfTwo c ≠ .seed key := by
    intro c key
    unfold savesOfTwo
    split <;> simp
  have planned : planEvictions [⟨blobName "0123456789ab" "hdr-a", 9, 0⟩,
      ⟨blobName "0123456789ab" "hdr-b", 9, 100⟩] 9 (secs config.world.clock) 60 =
        some [blobName "0123456789ab" "hdr-a"] := by
    rw [clock]
    decide
  refine ⟨config, clock, least_recently_served saves reached (by rw [clock]; decide) scanned ?_
    planned (by decide) ?_ (by decide) (by decide)⟩
  · intro e listed
    rcases List.mem_pair.mp listed with rfl | rfl
    · exact ⟨_, fileA, rfl⟩
    · exact ⟨_, fileB, rfl⟩
  · intro c isSave
    unfold savesOfTwo at isSave
    split at isSave
    · rw [doneA]
      rfl
    · simp at isSave
    · simp at isSave

end Ollm.Store
