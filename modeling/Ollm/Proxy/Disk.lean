import Ollm.Library.Directory
import Ollm.Proxy.Gate
import Ollm.Proxy.Restart

/-!
# Chat turns over files

The turns of `Ollm.Proxy.Chat` with the cache directory in place of their blobs:
the backend writes a scratch file between the request of a save and its reply,
publishing is a sequence of file operations, each of which can fail, and an outage
may come between any two steps and tear what was not synced.  A write-on-eviction
keeps its handler while its publish closure runs, and the backend writes a scratch
file no more once the handler awaiting the reply of its save is dropped, as if it
ran saves one after the other and gave up those nobody waits for.
-/

namespace Ollm.Proxy

open Keying RwLock

/-- The file operation that a save or a restore is at. -/
inductive FileStage where
  | idle
  /-- The backend's last write of the scratch file was complete or not. -/
  | wrote (complete : Bool)
  | opening
  | syncing
  | moving
  | carrying
  | indexing
  | touching
  deriving DecidableEq, Repr

structure FileTurn where
  phase : Phase
  stage : FileStage
  deriving DecidableEq, Repr

/-- `World` with the directory that the blobs are in. -/
structure DiskWorld where
  slots : Registry
  gate : RwLock RequestId
  kv : SlotId → Content
  dir : Directory Content
  /-- Nanoseconds since the epoch. -/
  clock : Nat
  history : History

inductive DiskAction where
  | act (action : Action)
  | write (complete : Bool) (len : Nat)
  | writeSidecar (complete : Bool) (len : Nat)
  | openScratch (ok : Bool)
  | sync (ok : Bool)
  | rename (ok : Bool)
  | carry (ok : Bool)
  | index
  | touch (ok : Bool)
  | tick (elapsed : Nat)
  deriving DecidableEq, Repr

/-- The actions that a turn takes as in `act` at each stage.  What a save does to
files is none of them. -/
def FileStage.permits : FileStage → Action → Bool
  | _, .capture => false
  | _, .publish _ => false
  | .wrote complete, .saveReply ok => complete || !ok
  | .idle, .saveReply ok => !ok
  | .wrote _, .drop => true
  | .idle, _ => true
  | _, _ => false

namespace Action

/-- The file operation that follows. -/
def stage : Action → FileStage
  | .saveReply true => .opening
  | .restoreReply true => .touching
  | _ => .idle

/-- `remove_file` of a quota pass. -/
def files (dir : Directory Content) : Action → Directory Content
  | .remove name => dir.remove name
  | _ => dir

end Action

section Machine

variable (backendSig : String) (requests : RequestId → Request)

/-- The blobs of this backend that a directory shows. -/
def blobsOf (dir : Directory Content) : String → Option Content := fun name =>
  if Text.endsWith name (blobName backendSig "") then (dir name).map (·.content) else none

def scratchOf (session : String) : String :=
  scratchName (blobName backendSig session)

namespace DiskWorld

variable (disk : DiskWorld)

def view : World :=
  ⟨disk.slots, disk.gate, disk.kv, blobsOf backendSig disk.dir, disk.history⟩

def put (world : World) (dir : Directory Content) : DiskWorld :=
  ⟨world.slots, world.gate, world.kv, dir, disk.clock, world.history⟩

end DiskWorld

/-- The blob that is touched once it is saved or restored. -/
def touched (r : RequestId) : Phase → String
  | .saving _ _ session _ => blobName backendSig session
  | _ => blobName backendSig (requests r).session

/-- A step of the turn, beside what becomes of the directory. -/
def turnBeside (r : RequestId) (action : Action) (phase : Phase) (disk : DiskWorld)
    (stage : FileStage) (dir : Directory Content) : Option (FileTurn × DiskWorld) :=
  (act backendSig requests r action phase (disk.view backendSig)).map fun result =>
    (⟨result.1, stage⟩, disk.put result.2 dir)

def diskAct (r : RequestId) : DiskAction → FileTurn → DiskWorld → Option (FileTurn × DiskWorld)
  | .act action, ⟨phase, stage⟩, disk =>
      if stage.permits action then
        turnBeside backendSig requests r action phase disk action.stage (action.files disk.dir)
      else none
  -- the backend between request and reply
  | .write complete len, ⟨.saving caller id session (.asking captured), _⟩, disk =>
      turnBeside backendSig requests r .capture (.saving caller id session (.asking captured)) disk
        (.wrote complete) (disk.dir.write (scratchOf backendSig session)
          ⟨disk.kv id, complete, false, len, disk.clock⟩)
  | .writeSidecar complete len, ⟨.saving caller id session (.asking captured), stage⟩, disk =>
      some (⟨.saving caller id session (.asking captured), stage⟩, { disk with
        dir := disk.dir.write (sidecarPath (scratchOf backendSig session))
          ⟨disk.kv id, complete, false, len, disk.clock⟩ })
  -- the publish closure
  | .openScratch ok, ⟨.saving caller id session (.publishing content), .opening⟩, disk =>
      if !ok then
        turnBeside backendSig requests r (.publish false)
          (.saving caller id session (.publishing content)) disk .idle disk.dir
      else if (disk.dir (scratchOf backendSig session)).isSome then
        some (⟨.saving caller id session (.publishing content), .syncing⟩, disk)
      else none
  | .sync ok, ⟨.saving caller id session (.publishing content), .syncing⟩, disk =>
      if ok then
        some (⟨.saving caller id session (.publishing content), .moving⟩, { disk with
          dir := disk.dir.sync (scratchOf backendSig session) })
      else
        turnBeside backendSig requests r (.publish false)
          (.saving caller id session (.publishing content)) disk .idle disk.dir
  | .rename ok, ⟨.saving caller id session (.publishing content), .moving⟩, disk =>
      if !ok then
        turnBeside backendSig requests r (.publish false)
          (.saving caller id session (.publishing content)) disk .idle disk.dir
      else if (disk.dir (scratchOf backendSig session)).isSome then
        turnBeside backendSig requests r (.publish true)
          (.saving caller id session (.publishing content)) disk .carrying
          (disk.dir.rename (scratchOf backendSig session) (blobName backendSig session))
      else none
  | .carry ok, ⟨.saving caller id session .cleaning, .carrying⟩, disk =>
      some (⟨.saving caller id session .cleaning, .indexing⟩,
        if ok && (disk.dir (sidecarPath (scratchOf backendSig session))).isSome then
          { disk with
            dir := disk.dir.rename (sidecarPath (scratchOf backendSig session))
              (sidecarPath (blobName backendSig session)) }
        else disk)
  | .index, ⟨phase, .indexing⟩, disk => some (⟨phase, .touching⟩, disk)
  -- a save or a restore that succeeded
  | .touch ok, ⟨phase, .touching⟩, disk =>
      some (⟨phase, .idle⟩,
        if ok then
          { disk with dir := disk.dir.touch (touched backendSig requests r phase) disk.clock }
        else disk)
  | .tick elapsed, own, disk => some (own, { disk with clock := disk.clock + elapsed })
  | _, _, _ => none

/-- Every blob is whole, and no outage can tear it. -/
def Durable (dir : Directory Content) : Prop :=
  ∀ session file, dir (blobName backendSig session) = some file →
    file.complete = true ∧ file.synced = true

structure DiskWorld.Fresh (disk : DiskWorld) : Prop where
  view : (disk.view backendSig).Fresh
  durable : Durable backendSig disk.dir

abbrev DiskState := Threads.Config RequestId DiskWorld FileTurn

def diskTurns : Threads RequestId DiskWorld FileTurn DiskAction where
  Initial := DiskWorld.Fresh backendSig
  start _ := ⟨.waiting, .idle⟩
  act := diskAct backendSig requests

/-- Which of the files that were not synced are torn, and what the slots hold after. -/
structure Outage where
  torn : String → Bool
  kv : SlotId → Content

def DiskWorld.crash (outage : Outage) (disk : DiskWorld) : DiskWorld :=
  disk.put ((disk.view backendSig).restart outage.kv) (disk.dir.crash outage.torn)

def FileTurn.abort (own : FileTurn) : FileTurn :=
  ⟨own.phase.abort, .idle⟩

def diskMachine : Machine DiskState (RequestId × DiskAction ⊕ Outage) :=
  (diskTurns backendSig requests).crashing FileTurn.abort (DiskWorld.crash backendSig)

end Machine

/-! ## The turns that are seen -/

/-- The turns without their files. -/
def chatView (backendSig : String) (config : DiskState) : ProxyState :=
  ⟨config.world.view backendSig, fun r => (config.locals r).phase⟩

/-- What an action is to the turn: publishing is the rename, or a failure before it. -/
def DiskAction.means : DiskAction → Option Action
  | .act action => some action
  | .write _ _ => some .capture
  | .openScratch ok | .sync ok => if ok then none else some (.publish false)
  | .rename ok => some (.publish ok)
  | _ => none

def meaning : RequestId × DiskAction ⊕ Outage → Option (RequestId × Action ⊕ (SlotId → Content))
  | .inl (r, action) => action.means.map fun action => .inl (r, action)
  | .inr outage => some (.inr outage.kv)

/-! ## Steps -/

inductive DiskStep (backendSig : String) (requests : RequestId → Request) (r : RequestId) :
    DiskAction → FileTurn → DiskWorld → FileTurn → DiskWorld → Prop where
  | turn {action phase stage disk phase' world'} (permitted : stage.permits action = true)
      (acted : act backendSig requests r action phase (disk.view backendSig) =
        some (phase', world')) :
      DiskStep backendSig requests r (.act action) ⟨phase, stage⟩ disk ⟨phase', action.stage⟩
        (disk.put world' (action.files disk.dir))
  | write {complete len caller id session captured stage disk} :
      DiskStep backendSig requests r (.write complete len)
        ⟨.saving caller id session (.asking captured), stage⟩ disk
        ⟨.saving caller id session (.asking (some (disk.kv id))), .wrote complete⟩
        { disk with
          dir := disk.dir.write (scratchOf backendSig session)
            ⟨disk.kv id, complete, false, len, disk.clock⟩ }
  | writeSidecar {complete len caller id session captured stage disk} :
      DiskStep backendSig requests r (.writeSidecar complete len)
        ⟨.saving caller id session (.asking captured), stage⟩ disk
        ⟨.saving caller id session (.asking captured), stage⟩
        { disk with
          dir := disk.dir.write (sidecarPath (scratchOf backendSig session))
            ⟨disk.kv id, complete, false, len, disk.clock⟩ }
  | failed {action caller id session content stage disk phase' world'}
      (fails : action.means = some (.publish false))
      (acted : act backendSig requests r (.publish false)
        (.saving caller id session (.publishing content)) (disk.view backendSig) =
          some (phase', world')) :
      DiskStep backendSig requests r action
        ⟨.saving caller id session (.publishing content), stage⟩ disk ⟨phase', .idle⟩
        (disk.put world' disk.dir)
  | opened {caller id session content disk} :
      DiskStep backendSig requests r (.openScratch true)
        ⟨.saving caller id session (.publishing content), .opening⟩ disk
        ⟨.saving caller id session (.publishing content), .syncing⟩ disk
  | synced {caller id session content disk} :
      DiskStep backendSig requests r (.sync true)
        ⟨.saving caller id session (.publishing content), .syncing⟩ disk
        ⟨.saving caller id session (.publishing content), .moving⟩
        { disk with dir := disk.dir.sync (scratchOf backendSig session) }
  | renamed {caller id session content file disk phase' world'}
      (present : disk.dir (scratchOf backendSig session) = some file)
      (acted : act backendSig requests r (.publish true)
        (.saving caller id session (.publishing content)) (disk.view backendSig) =
          some (phase', world')) :
      DiskStep backendSig requests r (.rename true)
        ⟨.saving caller id session (.publishing content), .moving⟩ disk ⟨phase', .carrying⟩
        (disk.put world'
          (disk.dir.rename (scratchOf backendSig session) (blobName backendSig session)))
  | carried {ok caller id session disk} :
      DiskStep backendSig requests r (.carry ok) ⟨.saving caller id session .cleaning, .carrying⟩
        disk ⟨.saving caller id session .cleaning, .indexing⟩
        { disk with
          dir := disk.dir.rename (sidecarPath (scratchOf backendSig session))
            (sidecarPath (blobName backendSig session)) }
  | uncarried {ok caller id session disk} :
      DiskStep backendSig requests r (.carry ok) ⟨.saving caller id session .cleaning, .carrying⟩
        disk ⟨.saving caller id session .cleaning, .indexing⟩ disk
  | indexed {phase disk} :
      DiskStep backendSig requests r .index ⟨phase, .indexing⟩ disk ⟨phase, .touching⟩ disk
  | touched {ok phase disk} :
      DiskStep backendSig requests r (.touch ok) ⟨phase, .touching⟩ disk ⟨phase, .idle⟩
        { disk with dir := disk.dir.touch (touched backendSig requests r phase) disk.clock }
  | untouched {ok phase disk} :
      DiskStep backendSig requests r (.touch ok) ⟨phase, .touching⟩ disk ⟨phase, .idle⟩ disk
  | tick {elapsed own disk} :
      DiskStep backendSig requests r (.tick elapsed) own disk own
        { disk with clock := disk.clock + elapsed }

variable {backendSig : String} {requests : RequestId → Request} {r : RequestId}
  {disk disk' : DiskWorld} {own own' : FileTurn}

theorem turnBeside_eq_some {action : Action} {phase : Phase} {stage : FileStage}
    {dir : Directory Content}
    (acted : turnBeside backendSig requests r action phase disk stage dir = some (own', disk')) :
    ∃ phase' world', act backendSig requests r action phase (disk.view backendSig) =
      some (phase', world') ∧ own' = ⟨phase', stage⟩ ∧ disk' = disk.put world' dir := by
  obtain ⟨⟨phase', world'⟩, did, same⟩ := Option.map_eq_some_iff.mp acted
  obtain ⟨rfl, rfl⟩ := Prod.mk.inj same
  exact ⟨phase', world', did, rfl, rfl⟩

theorem diskStep_of_act {action : DiskAction}
    (acted : diskAct backendSig requests r action own disk = some (own', disk')) :
    DiskStep backendSig requests r action own disk own' disk' := by
  unfold diskAct at acted
  split at acted
  case h_1 =>
    split_ifs at acted with permitted
    obtain ⟨phase', world', did, rfl, rfl⟩ := turnBeside_eq_some acted
    exact .turn permitted did
  case h_2 =>
    obtain ⟨phase', world', did, rfl, rfl⟩ := turnBeside_eq_some acted
    obtain ⟨rfl, rfl⟩ := Prod.mk.inj (Option.some.inj did)
    exact .write
  case h_3 =>
    obtain ⟨rfl, rfl⟩ := Prod.mk.inj (Option.some.inj acted)
    exact .writeSidecar
  case h_4 ok _ _ _ _ =>
    split_ifs at acted with fails present
    · obtain ⟨phase', world', did, rfl, rfl⟩ := turnBeside_eq_some acted
      obtain rfl : ok = false := by simpa using fails
      exact .failed rfl did
    · obtain ⟨rfl, rfl⟩ := Prod.mk.inj (Option.some.inj acted)
      obtain rfl : ok = true := by simpa using fails
      exact .opened
  case h_5 ok _ _ _ _ =>
    split_ifs at acted with succeeds
    · obtain ⟨rfl, rfl⟩ := Prod.mk.inj (Option.some.inj acted)
      obtain rfl : ok = true := succeeds
      exact .synced
    · obtain ⟨phase', world', did, rfl, rfl⟩ := turnBeside_eq_some acted
      obtain rfl : ok = false := by simpa using succeeds
      exact .failed rfl did
  case h_6 ok _ _ _ _ =>
    split_ifs at acted with fails present
    · obtain ⟨phase', world', did, rfl, rfl⟩ := turnBeside_eq_some acted
      obtain rfl : ok = false := by simpa using fails
      exact .failed rfl did
    · obtain ⟨phase', world', did, rfl, rfl⟩ := turnBeside_eq_some acted
      obtain rfl : ok = true := by simpa using fails
      obtain ⟨file, found⟩ := Option.isSome_iff_exists.mp present
      exact .renamed found did
  case h_7 =>
    obtain ⟨rfl, rfl⟩ := Prod.mk.inj (Option.some.inj acted)
    split_ifs
    · exact .carried
    · exact .uncarried
  case h_8 =>
    obtain ⟨rfl, rfl⟩ := Prod.mk.inj (Option.some.inj acted)
    exact .indexed
  case h_9 =>
    obtain ⟨rfl, rfl⟩ := Prod.mk.inj (Option.some.inj acted)
    split_ifs
    · exact .touched
    · exact .untouched
  case h_10 =>
    obtain ⟨rfl, rfl⟩ := Prod.mk.inj (Option.some.inj acted)
    exact .tick
  case h_11 => cases acted

theorem DiskStep.handles {action : DiskAction}
    (step : DiskStep backendSig requests r action own disk own' disk') :
    Handles r own.phase.held own'.phase.held disk.gate disk'.gate := by
  cases step with
  | turn _ acted | failed _ acted | renamed _ acted => exact (step_of_act acted).handles
  | _ => exact .keep

theorem guarded_diskTurns : (diskTurns backendSig requests).Guarded DiskWorld.gate
    fun own : FileTurn => own.phase.held where
  free _ fresh := fresh.view.gate
  start _ := rfl
  step _ _ _ _ _ _ acted := (diskStep_of_act acted).handles

end Ollm.Proxy
