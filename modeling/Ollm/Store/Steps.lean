import Ollm.Store.Calls

/-!
# The steps of a call

`Step` lists what one action of a call can do.  New file contents appear only
under the four names that belong to the blob a call publishes, and only while
it publishes; everything else that a step does to the directory is removing
files or setting their times.
-/

namespace Ollm.Store

open Keying Quota

variable (backendSig : String) (calls : CallId → Call) (limit : UInt64) (c : CallId)

inductive Step : Action → Phase → World → Phase → World → Prop where
  | beginSave {session world gate} (isSave : calls c = .save session)
      (granted : world.gate.write? c = some gate) :
      Step .begin .waiting world (.asking none) { world with gate := gate }
  | beginSeed {key world} (isSeed : calls c = .seed key) :
      Step .begin .waiting world (.asking none) world
  | beginLookup {session world gate} (isLookup : calls c = .lookup session)
      (granted : world.gate.read? c = some gate) :
      Step .begin .waiting world .looking { world with gate := gate }
  | beginRestore {session world} (isRestore : calls c = .restore session) :
      Step .begin .waiting world .restoring world
  | beginLimit {world} (isLimit : calls c = .limit) :
      Step .begin .waiting world (.scanning []) world
  | write {complete len wrote world} :
      Step (.write complete len) (.asking wrote) world (.asking (some complete))
        { world with
          dir := world.dir.write (scratchOf backendSig calls c)
            ⟨c, complete, false, len, world.clock⟩ }
  | writeSidecar {complete len wrote world} :
      Step (.writeSidecar complete len) (.asking wrote) world (.asking wrote)
        { world with
          dir := world.dir.write (sidecarPath (scratchOf backendSig calls c))
            ⟨c, complete, false, len, world.clock⟩ }
  | saved {world} (heard : world.dropped c = false) :
      Step (.reply true) (.asking (some true)) world .opening
        { world with acked := Function.update world.acked c true }
  | savedUnheard {world} :
      Step (.reply true) (.asking (some true)) world .done
        { world with acked := Function.update world.acked c true }
  | saveFailed {wrote world} :
      Step (.reply false) (.asking wrote) world .done (world.finish c)
  | opened {world} (present : (world.dir (scratchOf backendSig calls c)).isSome = true) :
      Step (.openScratch true) .opening world .syncing world
  | openFailed {world} : Step (.openScratch false) .opening world .done (world.finish c)
  | synced {world} :
      Step (.sync true) .syncing world .moving
        { world with dir := world.dir.sync (scratchOf backendSig calls c) }
  | syncFailed {world} : Step (.sync false) .syncing world .done (world.finish c)
  | renamed {world} (present : (world.dir (scratchOf backendSig calls c)).isSome = true) :
      Step (.rename true) .moving world .carrying
        (world.publish (scratchOf backendSig calls c) (blobOf backendSig calls c))
  | renameFailed {world} : Step (.rename false) .moving world .done (world.finish c)
  | carried {world}
      (present : (world.dir (sidecarPath (scratchOf backendSig calls c))).isSome = true) :
      Step (.carry true) .carrying world .indexing
        (world.publish (sidecarPath (scratchOf backendSig calls c))
          (sidecarPath (blobOf backendSig calls c)))
  | notCarried {ok world} : Step (.carry ok) .carrying world .indexing world
  | indexedSave {session world} (isSave : calls c = .save session)
      (there : world.dropped c = false) :
      Step .index .indexing world .touching world
  | indexed {world} (last : ∀ session, calls c = .save session → world.dropped c = true) :
      Step .index .indexing world .done world
  | touched {world} :
      Step (.touch true) .touching world .done
        ((world.touch (blobOf backendSig calls c)).finish c)
  | untouched {world} : Step (.touch false) .touching world .done (world.finish c)
  | looked {world} : Step .look .looking world .done (world.finish c)
  | restored {world} : Step (.reply true) .restoring world .touching world
  | restoreFailed {world} : Step (.reply false) .restoring world .done world
  | scan {name entries file world} (present : world.dir name = some file)
      (unlisted : name ∉ entries.map (·.name)) :
      Step (.scan name) (.scanning entries) world
        (.scanning (entries ++ [entryOf name file])) world
  | plan {entries world} :
      Step .plan (.scanning entries) world
        (.removing ((planEvictions entries limit (secs world.clock) 60).getD [])) world
  | removed {name rest world} (present : (world.dir name).isSome = true) :
      Step (.remove true) (.removing (name :: rest)) world (.removing rest)
        (world.evict name)
  | notRemoved {ok name rest world} :
      Step (.remove ok) (.removing (name :: rest)) world (.removing rest) world
  | tick {elapsed phase world} :
      Step (.tick elapsed) phase world phase { world with clock := world.clock + elapsed }
  | dropped {phase world} (outlives : phase.outlives = true) (there : world.dropped c = false) :
      Step .drop phase world phase (world.drop c)

variable {backendSig calls limit c}

theorem step_of_begin {world world' : World} {phase' : Phase}
    (begun : begin calls c world = some (phase', world')) :
    Step backendSig calls limit c .begin .waiting world phase' world' := by
  unfold begin at begun
  cases isCall : calls c with
  | save session =>
      simp only [isCall] at begun
      obtain ⟨gate, granted, same⟩ := Option.map_eq_some_iff.mp begun
      obtain ⟨rfl, rfl⟩ := Prod.mk.inj same
      exact .beginSave isCall granted
  | lookup session =>
      simp only [isCall] at begun
      obtain ⟨gate, granted, same⟩ := Option.map_eq_some_iff.mp begun
      obtain ⟨rfl, rfl⟩ := Prod.mk.inj same
      exact .beginLookup isCall granted
  | seed key =>
      simp only [isCall] at begun
      obtain ⟨rfl, rfl⟩ := Prod.mk.inj (Option.some.inj begun)
      exact .beginSeed isCall
  | restore session =>
      simp only [isCall] at begun
      obtain ⟨rfl, rfl⟩ := Prod.mk.inj (Option.some.inj begun)
      exact .beginRestore isCall
  | limit =>
      simp only [isCall] at begun
      obtain ⟨rfl, rfl⟩ := Prod.mk.inj (Option.some.inj begun)
      exact .beginLimit isCall

/-- The executable action takes the listed steps only. -/
theorem step_of_act {action : Action} {phase phase' : Phase} {world world' : World}
    (acted : act backendSig calls limit c action phase world = some (phase', world')) :
    Step backendSig calls limit c action phase world phase' world' := by
  unfold act at acted
  split at acted
  all_goals try (obtain ⟨rfl, rfl⟩ := Prod.mk.inj (Option.some.inj acted); constructor)
  -- what remains are the actions with a condition, in the order of `act`
  case h_1 => exact step_of_begin acted
  case h_4 =>
    obtain ⟨rfl, rfl⟩ := Prod.mk.inj (Option.some.inj acted)
    split_ifs with dropped
    · exact .savedUnheard
    · exact .saved (Bool.eq_false_iff.mpr dropped)
  case h_6 ok =>
    cases ok with
    | false =>
        obtain ⟨rfl, rfl⟩ := Prod.mk.inj (Option.some.inj acted)
        exact .openFailed
    | true =>
        simp only [Bool.not_true, Bool.false_eq_true, if_false] at acted
        split_ifs at acted with present
        obtain ⟨rfl, rfl⟩ := Prod.mk.inj (Option.some.inj acted)
        exact .opened present
  case h_7 ok =>
    cases ok with
    | false =>
        obtain ⟨rfl, rfl⟩ := Prod.mk.inj (Option.some.inj acted)
        exact .syncFailed
    | true =>
        obtain ⟨rfl, rfl⟩ := Prod.mk.inj (Option.some.inj acted)
        exact .synced
  case h_8 ok =>
    cases ok with
    | false =>
        obtain ⟨rfl, rfl⟩ := Prod.mk.inj (Option.some.inj acted)
        exact .renameFailed
    | true =>
        simp only [Bool.not_true, Bool.false_eq_true, if_false] at acted
        split_ifs at acted with present
        obtain ⟨rfl, rfl⟩ := Prod.mk.inj (Option.some.inj acted)
        exact .renamed present
  case h_9 ok =>
    split_ifs at acted with carries
    all_goals obtain ⟨rfl, rfl⟩ := Prod.mk.inj (Option.some.inj acted)
    · rw [Bool.and_eq_true] at carries
      obtain ⟨rfl, present⟩ := carries
      exact .carried present
    · exact .notCarried
  case h_10 =>
    cases isCall : calls c with
    | save session =>
        simp only [afterIndex, isCall] at acted
        split_ifs at acted with dropped
        all_goals obtain ⟨rfl, rfl⟩ := Prod.mk.inj (Option.some.inj acted)
        · exact .indexed fun _ _ => dropped
        · exact .indexedSave isCall (Bool.eq_false_iff.mpr dropped)
    | _ =>
        simp only [afterIndex, isCall] at acted
        obtain ⟨rfl, rfl⟩ := Prod.mk.inj (Option.some.inj acted)
        exact .indexed fun _ isSave => by cases isCall.symm.trans isSave
  case h_11 ok =>
    obtain ⟨rfl, rfl⟩ := Prod.mk.inj (Option.some.inj acted)
    cases ok with
    | false => exact .untouched
    | true => exact .touched
  case h_13 ok =>
    obtain ⟨rfl, rfl⟩ := Prod.mk.inj (Option.some.inj acted)
    cases ok with
    | false => exact .restoreFailed
    | true => exact .restored
  case h_14 =>
    obtain ⟨file, present, listed⟩ := Option.bind_eq_some_iff.mp acted
    split_ifs at listed with known
    obtain ⟨rfl, rfl⟩ := Prod.mk.inj (Option.some.inj listed)
    exact .scan present known
  case h_16 ok _ _ =>
    obtain ⟨rfl, rfl⟩ := Prod.mk.inj (Option.some.inj acted)
    split_ifs with removes
    · rw [Bool.and_eq_true] at removes
      obtain ⟨rfl, present⟩ := removes
      exact .removed present
    · exact .notRemoved
  case h_18 =>
    split_ifs at acted with drops
    obtain ⟨rfl, rfl⟩ := Prod.mk.inj (Option.some.inj acted)
    rw [Bool.and_eq_true, Bool.not_eq_true'] at drops
    exact .dropped drops.1 drops.2
  case h_19 => cases acted

theorem blobOf_save {session : String} (isSave : calls c = .save session) :
    blobOf backendSig calls c = blobName backendSig session := by
  simp [blobOf, isSave]

/-! ## What a step can put under a name -/

def Phase.writes : Phase → Bool
  | .asking _ => true
  | .opening => true
  | .syncing => true
  | .moving => true
  | .carrying => true
  | _ => false

theorem Step.writes_of_write {complete : Bool} {len : Nat} {phase phase' : Phase}
    {world world' : World}
    (step : Step backendSig calls limit c (.write complete len) phase world phase' world') :
    phase.writes = true := by
  cases step
  rfl

def SameData (file before : File CallId) : Prop :=
  file.content = before.content ∧ file.complete = before.complete ∧
    file.synced = before.synced

theorem SameData.refl (file : File CallId) : SameData file file :=
  ⟨rfl, rfl, rfl⟩

theorem sameData_of_touch {dir : Dir} {name other : String} {now : Nat} {file : File CallId}
    (held : dir.touch other now name = some file) :
    ∃ before, dir name = some before ∧ SameData file before := by
  rcases Directory.modify_eq_some held with ⟨-, before, found, rfl⟩ | ⟨-, found⟩
  · exact ⟨before, found, rfl, rfl, rfl⟩
  · exact ⟨file, found, .refl file⟩

/-- Where a file comes from that is there after a step of call `c`. -/
inductive Origin (backendSig : String) (calls : CallId → Call) (c : CallId) (action : Action)
    (phase : Phase) (world : World) (name : String) (file : File CallId) : Prop where
  | kept {before} (found : world.dir name = some before) (same : SameData file before)
  | renamed (acts : action = .rename true) (phases : phase = .moving)
      (named : name = blobOf backendSig calls c)
      (scratch : world.dir (scratchOf backendSig calls c) = some file)
  | carried (acts : action = .carry true) (phases : phase = .carrying)
      (named : name = sidecarPath (blobOf backendSig calls c))
      (scratch : world.dir (sidecarPath (scratchOf backendSig calls c)) = some file)
  | scratch (writes : phase.writes = true) (named : name = scratchOf backendSig calls c)
  | scratchSidecar (writes : phase.writes = true)
      (named : name = sidecarPath (scratchOf backendSig calls c))

theorem Step.origin {action : Action} {phase phase' : Phase} {world world' : World}
    (step : Step backendSig calls limit c action phase world phase' world')
    {name : String} {file : File CallId} (held : world'.dir name = some file) :
    Origin backendSig calls c action phase world name file := by
  cases step with
  | write =>
      rcases Directory.write_eq_some held with ⟨own, -⟩ | ⟨-, before⟩
      · exact .scratch rfl own
      · exact .kept before (.refl file)
  | writeSidecar =>
      rcases Directory.write_eq_some held with ⟨own, -⟩ | ⟨-, before⟩
      · exact .scratchSidecar rfl own
      · exact .kept before (.refl file)
  | synced =>
      rcases Directory.modify_eq_some held with ⟨own, -⟩ | ⟨-, before⟩
      · exact .scratch rfl own
      · exact .kept before (.refl file)
  | renamed =>
      rcases Directory.rename_eq_some held with ⟨own, scratch⟩ | before
      · exact .renamed rfl rfl own scratch
      · exact .kept before (.refl file)
  | carried =>
      rcases Directory.rename_eq_some held with ⟨own, scratch⟩ | before
      · exact .carried rfl rfl own scratch
      · exact .kept before (.refl file)
  | touched =>
      simp only [World.finish, World.touch] at held
      split_ifs at held
      · obtain ⟨before, found, same⟩ := sameData_of_touch held
        exact .kept found same
      · exact .kept held (.refl file)
  | removed => exact .kept (Directory.remove_eq_some held).2 (.refl file)
  | _ => exact .kept held (.refl file)

section Origins

variable {action : Action} {phase : Phase} {world : World} {name : String} {file : File CallId}

/-- New files are under the names of the blob that the call is working on. -/
theorem Origin.kept_or_own
    (origin : Origin backendSig calls c action phase world name file) :
    (∃ before, world.dir name = some before ∧ SameData file before) ∨
      (phase.writes = true ∧ ∃ role, name = fileOf (blobOf backendSig calls c) role) := by
  cases origin with
  | kept found same => exact .inl ⟨_, found, same⟩
  | renamed _ phases named => exact .inr ⟨phases ▸ rfl, .blob, named⟩
  | carried _ phases named => exact .inr ⟨phases ▸ rfl, .sidecar, named⟩
  | scratch writes named => exact .inr ⟨writes, .scratch, named⟩
  | scratchSidecar writes named => exact .inr ⟨writes, .scratchSidecar, named⟩

/-- A new file under a blob's name is the scratch file that was renamed. -/
theorem Origin.of_blob {blob : String} (bin : Text.endsWith blob ".bin" = true)
    (own : phase.writes = true → Text.endsWith (blobOf backendSig calls c) ".bin" = true)
    (origin : Origin backendSig calls c action phase world blob file) :
    (∃ before, world.dir blob = some before ∧ SameData file before) ∨
      (action = .rename true ∧ phase = .moving ∧ blob = blobOf backendSig calls c ∧
        world.dir (scratchOf backendSig calls c) = some file) := by
  have blobs : ∀ role, phase.writes = true → fileOf blob .blob =
      fileOf (blobOf backendSig calls c) role → Role.blob = role :=
    fun role writes same => (fileOf_inj .blob role bin (own writes) same).2
  cases origin with
  | kept found same => exact .inl ⟨_, found, same⟩
  | renamed acts phases named scratch => exact .inr ⟨acts, phases, named, scratch⟩
  | carried _ phases named => cases blobs .sidecar (phases ▸ rfl) named
  | scratch writes named => cases blobs .scratch writes named
  | scratchSidecar writes named => cases blobs .scratchSidecar writes named

/-- A new file under a sidecar's name is the scratch sidecar that was renamed. -/
theorem Origin.of_sidecar {blob : String} (bin : Text.endsWith blob ".bin" = true)
    (own : phase.writes = true → Text.endsWith (blobOf backendSig calls c) ".bin" = true)
    (origin : Origin backendSig calls c action phase world (sidecarPath blob) file) :
    (∃ before, world.dir (sidecarPath blob) = some before ∧ SameData file before) ∨
      (action = .carry true ∧ phase = .carrying ∧ blob = blobOf backendSig calls c ∧
        world.dir (sidecarPath (scratchOf backendSig calls c)) = some file) := by
  have sidecars : ∀ role, phase.writes = true → fileOf blob .sidecar =
      fileOf (blobOf backendSig calls c) role → blob = blobOf backendSig calls c ∧
        Role.sidecar = role :=
    fun role writes same => fileOf_inj .sidecar role bin (own writes) same
  cases origin with
  | kept found same => exact .inl ⟨_, found, same⟩
  | renamed _ phases named => cases (sidecars .blob (phases ▸ rfl) named).2
  | carried acts phases named scratch =>
      exact .inr ⟨acts, phases, (sidecars .sidecar (phases ▸ rfl) named).1, scratch⟩
  | scratch writes named => cases (sidecars .scratch writes named).2
  | scratchSidecar writes named => cases (sidecars .scratchSidecar writes named).2

end Origins

theorem Step.acked {action : Action} {phase phase' : Phase} {world world' : World}
    (step : Step backendSig calls limit c action phase world phase' world') {other : CallId}
    (acked : world.acked other = true) : world'.acked other = true := by
  cases step with
  | saved | savedUnheard =>
      by_cases same : other = c
      · simp [same]
      · simpa [same] using acked
  | touched =>
      simp only [World.finish, World.touch]
      split_ifs <;> exact acked
  | _ => exact acked

/-- Only a call's own steps tell that its handler is gone. -/
theorem Step.dropped_of_ne {action : Action} {phase phase' : Phase} {world world' : World}
    (step : Step backendSig calls limit c action phase world phase' world') {other : CallId}
    (distinct : other ≠ c) : world'.dropped other = world.dropped other := by
  cases step with
  | dropped => exact Function.update_of_ne distinct _ _
  | touched =>
      simp only [World.finish, World.touch]
      split_ifs <;> rfl
  | _ => rfl

/-- No call but the holder ends an exclusive hold on the gate. -/
theorem Step.writer_kept {action : Action} {phase phase' : Phase} {world world' : World}
    (step : Step backendSig calls limit c action phase world phase' world') {other : CallId}
    (distinct : other ≠ c) (holds : world.gate.writer = some other) :
    world'.gate.writer = some other := by
  cases step with
  | beginSave _ granted =>
      rw [(RwLock.write?_eq_some granted).1] at holds
      cases holds
  | beginLookup _ granted =>
      rw [(RwLock.read?_eq_some granted).1] at holds
      cases holds
  | saveFailed | openFailed | syncFailed | renameFailed | untouched | looked | dropped =>
      exact (RwLock.writer_release distinct).mpr holds
  | touched =>
      simp only [World.finish, World.touch]
      split_ifs <;> exact (RwLock.writer_release distinct).mpr holds
  | _ => exact holds

end Ollm.Store
