import Ollm.Proxy.Disk

/-!
# The scratch file of a save

Who holds the gate is alone with the scratch file of its save, so what the rename
moves under the name of a blob is what the backend read from the slot, whole and
synced.  To turns the rename is the moment at which the blob is published; the other
file operations are not seen by them.
-/

namespace Ollm.Proxy

open Keying RwLock

variable {backendSig : String} {requests : RequestId → Request} {r : RequestId}
  {disk disk' : DiskWorld} {own own' : FileTurn} {dir dir' : Directory Content}

/-! ## What a directory shows -/

theorem append_blobName (session : String) :
    session ++ blobName backendSig "" = blobName backendSig session := by
  simp [blobName, String.append_assoc]

theorem blobsOf_blobName (dir : Directory Content) (session : String) :
    blobsOf backendSig dir (blobName backendSig session) =
      (dir (blobName backendSig session)).map (·.content) := by
  rw [blobsOf, if_pos]
  rw [← append_blobName session]
  exact Text.endsWith_append _ _

/-- Only what is under the names of blobs shows. -/
theorem blobsOf_congr
    (same : ∀ session, (dir' (blobName backendSig session)).map (·.content) =
      (dir (blobName backendSig session)).map (·.content)) :
    blobsOf backendSig dir' = blobsOf backendSig dir := by
  funext name
  unfold blobsOf
  split_ifs with ends
  · obtain ⟨session, rfl⟩ := Text.endsWith_iff.mp ends
    rw [append_blobName]
    exact same session
  · rfl

theorem blobsOf_write (role : Role) (aside : .blob ≠ role) (session : String)
    (file : File Content) :
    blobsOf backendSig (dir.write (cacheName backendSig session role) file) =
      blobsOf backendSig dir :=
  blobsOf_congr fun other =>
    congrArg _ (Directory.write_of_ne (cacheName_ne_of_role .blob role aside other session))

theorem blobsOf_modify (name : String) {change : File Content → File Content}
    (keeps : ∀ file, (change file).content = file.content) :
    blobsOf backendSig (dir.modify name change) = blobsOf backendSig dir := by
  refine blobsOf_congr fun session => ?_
  by_cases same : blobName backendSig session = name
  · subst same
    simp [Directory.modify, Option.map_map, Function.comp_def, keeps]
  · rw [Directory.modify_of_ne same]

theorem blobsOf_rename {file : File Content} (session : String)
    (present : dir (scratchOf backendSig session) = some file) :
    blobsOf backendSig
        (dir.rename (scratchOf backendSig session) (blobName backendSig session)) =
      Function.update (blobsOf backendSig dir) (blobName backendSig session)
        (some file.content) := by
  funext name
  by_cases same : name = blobName backendSig session
  · rw [same, Function.update_self, blobsOf_blobName, Directory.rename_target present]
    rfl
  · rw [Function.update_of_ne same]
    unfold blobsOf
    split_ifs with ends
    · obtain ⟨other, rfl⟩ := Text.endsWith_iff.mp ends
      rw [append_blobName] at same ⊢
      exact congrArg _ (Directory.rename_of_ne
        (cacheName_ne_of_role .blob .scratch (by decide) other session) same)
    · rfl

theorem blobsOf_carry (session : String) :
    blobsOf backendSig (dir.rename (sidecarPath (scratchOf backendSig session))
      (sidecarPath (blobName backendSig session))) = blobsOf backendSig dir :=
  blobsOf_congr fun other => congrArg _ (Directory.rename_of_ne
    (cacheName_ne_of_role .blob .scratchSidecar (by decide) other session)
    (cacheName_ne_of_role .blob .sidecar (by decide) other session))

theorem blobsOf_remove (name : String) :
    blobsOf backendSig (dir.remove name) =
      Function.update (blobsOf backendSig dir) name none := by
  funext other
  by_cases same : other = name
  · subst same
    simp [blobsOf, Directory.remove]
  · rw [Function.update_of_ne same]
    unfold blobsOf
    rw [Directory.remove_of_ne same]

theorem blobsOf_crash (torn : String → Bool) :
    blobsOf backendSig (dir.crash torn) = blobsOf backendSig dir := by
  refine blobsOf_congr fun session => ?_
  simp only [Directory.crash, Option.map_map]
  congr 1
  funext file
  simp only [Function.comp_apply]
  split_ifs <;> rfl

theorem view_put {world : World} (shown : blobsOf backendSig dir = world.blobs) :
    (disk.put world dir).view backendSig = world := by
  simp only [DiskWorld.view, DiskWorld.put, shown]

/-! ## The scratch file of a save -/

/-- The session that a request is saving. -/
def Phase.saves : Phase → Option String
  | .saving _ _ session _ => some session
  | _ => none

/-- What is known of a scratch file once the backend has written it. -/
def FileTurn.Fits (file : File Content) : FileTurn → Prop
  | ⟨.saving _ _ _ (.asking captured), .wrote true⟩ =>
      captured = some file.content ∧ file.complete = true
  | ⟨.saving _ _ _ (.publishing content), stage⟩ =>
      content = file.content ∧ file.complete = true ∧ (stage = .moving → file.synced = true)
  | _ => True

/-- The scratch file, if nobody removed it, is what the save is to publish. -/
def Scratched (backendSig : String) (dir : Directory Content) (own : FileTurn) : Prop :=
  ∀ session, own.phase.saves = some session →
    ∀ file, dir (scratchOf backendSig session) = some file → own.Fits file

/-! ## One step -/

/-- A turn sees what its action makes of the directory. -/
theorem blobsOf_files {action : Action} {stage : FileStage} {phase phase' : Phase}
    {world' : World} (permitted : stage.permits action = true)
    (step : Step backendSig requests r action phase (disk.view backendSig) phase' world') :
    blobsOf backendSig (action.files disk.dir) = world'.blobs := by
  cases step with
  | publishVictim | publishTurn | publishFailed => cases stage <;> cases permitted
  | remove => exact blobsOf_remove _
  | _ => rfl

theorem blobs_of_publish {caller : Caller} {id : SlotId} {session : String} {content : Content}
    {world world' : World} {phase' : Phase}
    (step : Step backendSig requests r (.publish true)
      (.saving caller id session (.publishing content)) world phase' world') :
    phase' = .saving caller id session .cleaning ∧
      world'.blobs = Function.update world.blobs (blobName backendSig session) (some content) := by
  cases step with
  | publishVictim | publishTurn => exact ⟨rfl, rfl⟩

theorem blobs_of_publishFailed {phase phase' : Phase} {world world' : World}
    (step : Step backendSig requests r (.publish false) phase world phase' world') :
    world'.blobs = world.blobs ∧ Onward phase' := by
  cases step with
  | publishFailed => exact ⟨rfl, onward_afterSave _ _ _⟩

theorem view_of_shown (disk : DiskWorld)
    (shown : blobsOf backendSig dir = blobsOf backendSig disk.dir) :
    { disk with dir := dir }.view backendSig = disk.view backendSig := by
  simp only [DiskWorld.view, shown]

/-- Each step is one of the turn, or a file operation that turns do not see. -/
theorem DiskStep.simulates {action : DiskAction} (scratched : Scratched backendSig disk.dir own)
    (step : DiskStep backendSig requests r action own disk own' disk') :
    (own'.phase = own.phase ∧ disk'.view backendSig = disk.view backendSig) ∨
      ∃ seen, action.means = some seen ∧
        act backendSig requests r seen own.phase (disk.view backendSig) =
          some (own'.phase, disk'.view backendSig) := by
  cases step with
  | turn permitted acted =>
      refine .inr ⟨_, rfl, ?_⟩
      rw [view_put (blobsOf_files permitted (step_of_act acted))]
      exact acted
  | write =>
      refine .inr ⟨.capture, rfl, congrArg (fun world => some (_, world)) (Eq.symm ?_)⟩
      exact view_of_shown disk (blobsOf_write .scratch (by decide) _ _)
  | writeSidecar =>
      exact .inl ⟨rfl, view_of_shown disk (blobsOf_write .scratchSidecar (by decide) _ _)⟩
  | failed fails acted =>
      refine .inr ⟨_, fails, ?_⟩
      rw [view_put (blobs_of_publishFailed (step_of_act acted)).1.symm]
      exact acted
  | synced => exact .inl ⟨rfl, view_of_shown disk (blobsOf_modify _ fun _ => rfl)⟩
  | @renamed _ _ session content file _ _ _ present acted =>
      obtain ⟨same, -, -⟩ := scratched session rfl file present
      refine .inr ⟨.publish true, rfl, ?_⟩
      rw [view_put]
      · exact acted
      · rw [(blobs_of_publish (step_of_act acted)).2, blobsOf_rename session present, same]
        rfl
  | carried => exact .inl ⟨rfl, view_of_shown disk (blobsOf_carry _)⟩
  | touched => exact .inl ⟨rfl, view_of_shown disk (blobsOf_modify _ fun _ => rfl)⟩
  | _ => exact .inl ⟨rfl, rfl⟩

/-! ## What every step keeps -/

theorem within_files (action : Action) (dir : Directory Content) :
    (action.files dir).Within dir := by
  cases action with
  | remove name => exact Directory.within_remove
  | _ => exact .refl dir

/-- Who does not hold the gate exclusively brings no files and no data into files. -/
theorem DiskStep.within {action : DiskAction} (unheld : own.phase.held = none)
    (step : DiskStep backendSig requests r action own disk own' disk') :
    disk'.dir.Within disk.dir := by
  cases step with
  | turn => exact within_files _ _
  | touched => exact Directory.within_touch
  | write | writeSidecar | failed | opened | synced | renamed | carried | uncarried => cases unheld
  | _ => exact .refl _

theorem Scratched.within (scratched : Scratched backendSig dir own) (within : dir'.Within dir) :
    Scratched backendSig dir' own := by
  intro session saves file found
  obtain ⟨mtime, before⟩ := within _ _ found
  have fits := scratched session saves _ before
  exact fits

theorem scratched_of_unheld (unheld : own.phase.held ≠ some .exclusive) :
    Scratched backendSig dir own := by
  intro session saves file _
  obtain ⟨phase, stage⟩ := own
  cases phase with
  | saving caller id session saving =>
      cases saving with
      | locking => trivial
      | _ => exact absurd rfl unheld
  | _ => trivial

theorem scratched_of_onward {phase : Phase} {stage : FileStage} (onward : Onward phase) :
    Scratched backendSig dir ⟨phase, stage⟩ := by
  apply scratched_of_unheld
  rw [held_of_onward onward]
  decide

/-- Past the write and before the move, stages differ in nothing that is known of the file. -/
theorem FileTurn.Fits.at {file : File Content} {phase : Phase} {stage stage' : FileStage}
    (fits : FileTurn.Fits file ⟨phase, stage⟩) (unwritten : stage' ≠ .wrote true)
    (unmoved : stage' ≠ .moving) : FileTurn.Fits file ⟨phase, stage'⟩ := by
  cases phase with
  | saving caller id session saving =>
      cases saving with
      | asking captured =>
          cases stage' with
          | wrote complete =>
              cases complete with
              | false => trivial
              | true => exact absurd rfl unwritten
          | _ => trivial
      | publishing content => exact ⟨fits.1, fits.2.1, fun moving => absurd moving unmoved⟩
      | _ => trivial
  | _ => trivial

theorem Scratched.at {phase : Phase} {stage stage' : FileStage}
    (scratched : Scratched backendSig dir ⟨phase, stage⟩) (unwritten : stage' ≠ .wrote true)
    (unmoved : stage' ≠ .moving) : Scratched backendSig dir ⟨phase, stage'⟩ :=
  fun session saves file found => (scratched session saves file found).at unwritten unmoved

/-- Of the actions of a turn only the reply to a save leads on with a scratch file. -/
theorem scratched_turn {action : Action} {stage : FileStage} {phase phase' : Phase}
    {world' : World} (permitted : stage.permits action = true)
    (scratched : Scratched backendSig dir ⟨phase, stage⟩)
    (step : Step backendSig requests r action phase (disk.view backendSig) phase' world') :
    Scratched backendSig (action.files dir) ⟨phase', action.stage⟩ := by
  cases step with
  | @saved _ _ session content =>
      obtain rfl : stage = .wrote true := by
        cases stage with
        | wrote complete => simpa [FileStage.permits] using permitted
        | _ => cases permitted
      intro other saves file found
      obtain ⟨captured, complete⟩ := scratched other saves file found
      exact ⟨Option.some.inj captured, complete, fun moving => by cases moving⟩
  | capture | publishVictim | publishTurn | publishFailed => cases stage <;> cases permitted
  | pick => exact scratched_of_onward (onward_afterPick _ _)
  | choose => exact scratched_of_onward (onward_afterChoice _ _)
  | saveFailed | clean => exact scratched_of_onward (onward_afterSave _ _ _)
  | lock => exact fun _ _ _ _ => trivial
  | @complete steer | @bodyBroken steer | @hungUp steer =>
      cases steer <;> exact scratched_of_unheld (by simp [afterBody, afterHangUp, Phase.held])
  | _ => exact scratched_of_unheld (by simp [Phase.held])

theorem DiskStep.scratched {action : DiskAction} (scratched : Scratched backendSig disk.dir own)
    (step : DiskStep backendSig requests r action own disk own' disk') :
    Scratched backendSig disk'.dir own' := by
  cases step with
  | turn permitted acted => exact scratched_turn permitted scratched (step_of_act acted)
  | @write complete len caller id session =>
      intro other saves file found
      obtain rfl : session = other := Option.some.inj saves
      rcases Directory.write_eq_some found with ⟨-, rfl⟩ | ⟨apart, -⟩
      · cases complete with
        | false => trivial
        | true => exact ⟨rfl, rfl⟩
      · exact absurd rfl apart
  | @writeSidecar complete len caller id session =>
      intro other saves file found
      obtain rfl : session = other := Option.some.inj saves
      rcases Directory.write_eq_some found with ⟨same, -⟩ | ⟨-, before⟩
      · have apart : cacheName backendSig session .scratch ≠
            cacheName backendSig session .scratchSidecar :=
          fileOf_ne (endsWith_blobName _ _) (by decide)
        exact absurd same apart
      · exact scratched session rfl file before
  | failed _ acted => exact scratched_of_onward (blobs_of_publishFailed (step_of_act acted)).2
  | opened => exact scratched.at (by decide) (by decide)
  | @synced _ _ session =>
      intro other saves file found
      obtain rfl : session = other := Option.some.inj saves
      rcases Directory.modify_eq_some found with ⟨-, before, held, rfl⟩ | ⟨apart, -⟩
      · obtain ⟨same, complete, -⟩ := scratched session rfl before held
        exact ⟨same, complete, fun _ => rfl⟩
      · exact absurd rfl apart
  | renamed _ acted =>
      rw [(blobs_of_publish (step_of_act acted)).1]
      exact fun _ _ _ _ => trivial
  | carried => exact fun _ _ _ _ => trivial
  | uncarried | indexed | untouched => exact scratched.at (by decide) (by decide)
  | touched => exact (scratched.at (by decide) (by decide)).within Directory.within_touch
  | tick => exact scratched

theorem Durable.within (durable : Durable backendSig dir) (within : dir'.Within dir) :
    Durable backendSig dir' := by
  intro session file found
  obtain ⟨mtime, before⟩ := within _ _ found
  have whole := durable session _ before
  exact whole

theorem Durable.of_unchanged (durable : Durable backendSig dir)
    (same : ∀ session, dir' (blobName backendSig session) = dir (blobName backendSig session)) :
    Durable backendSig dir' :=
  fun session file found => durable session file (same session ▸ found)

/-- What gets under the name of a blob was whole and synced before. -/
theorem DiskStep.durable {action : DiskAction} (scratched : Scratched backendSig disk.dir own)
    (durable : Durable backendSig disk.dir)
    (step : DiskStep backendSig requests r action own disk own' disk') :
    Durable backendSig disk'.dir := by
  cases step with
  | turn => exact durable.within (within_files _ _)
  | @write _ _ _ _ session =>
      exact durable.of_unchanged fun other =>
        Directory.write_of_ne (cacheName_ne_of_role .blob .scratch (by decide) other session)
  | @writeSidecar _ _ _ _ session =>
      exact durable.of_unchanged fun other =>
        Directory.write_of_ne (cacheName_ne_of_role .blob .scratchSidecar (by decide) other session)
  | @synced _ _ session =>
      exact durable.of_unchanged fun other =>
        Directory.modify_of_ne (cacheName_ne_of_role .blob .scratch (by decide) other session)
  | @renamed _ _ session content =>
      intro other file found
      rcases Directory.rename_eq_some found with ⟨-, held⟩ | before
      · obtain ⟨-, complete, synced⟩ := scratched session rfl file held
        exact ⟨complete, synced rfl⟩
      · exact durable other file before
  | @carried _ _ _ session =>
      exact durable.of_unchanged fun other => Directory.rename_of_ne
        (cacheName_ne_of_role .blob .scratchSidecar (by decide) other session)
        (cacheName_ne_of_role .blob .sidecar (by decide) other session)
  | touched => exact durable.within Directory.within_touch
  | _ => exact durable

end Ollm.Proxy
