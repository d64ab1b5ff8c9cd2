import Ollm.Keying.Names
import Ollm.Library.Directory
import Ollm.Library.RwLock
import Ollm.Library.Transition
import Ollm.Quota.Plan

/-!
# The cache directory under concurrent calls

Saves, lookups, restores and quota passes share one directory.  The backend
writes the scratch file between a save request and its reply; the rest of a
publish is a sequence of file operations, each of which can fail.  Between any
two steps other calls may run, time may pass, and the machine may crash.  A save
may also lose its handler: then the gate is free again, but the backend and the
publish closure go on with what they were asked for.
-/

namespace Ollm.Store

open Keying Quota

abbrev CallId := Nat

inductive Call where
  /-- `App::save_slot` for a session. -/
  | save (session : String)
  /-- The end of `prepare`: save, then `FsPublisher::publish`. -/
  | seed (key : String)
  | lookup (session : String)
  | restore (session : String)
  /-- `enforce_limit`. -/
  | limit
  deriving DecidableEq, Repr

/-- The content of a file is known by the save that wrote it. -/
abbrev Dir := Directory CallId

structure Removal where
  name : String
  /-- When the file was last published or touched under this name. -/
  fresh : Option Nat
  time : Nat
  deriving DecidableEq, Repr

structure World where
  dir : Dir
  gate : RwLock CallId
  /-- Nanoseconds since the epoch. -/
  clock : Nat
  /-- The saves that the backend has acknowledged. -/
  acked : CallId → Bool
  /-- The saves whose handler is gone. -/
  dropped : CallId → Bool
  /-- When the file at a name was last published or touched. -/
  fresh : String → Option Nat
  removals : List Removal

/-- The await or file operation a call is at. -/
inductive Phase where
  | waiting
  /-- The backend was asked to save; the last write was complete or not. -/
  | asking (wrote : Option Bool)
  | opening
  | syncing
  | moving
  | carrying
  | indexing
  | touching
  | looking
  | restoring
  | scanning (entries : List CacheEntry)
  | removing (names : List String)
  | done
  deriving DecidableEq, Repr

inductive Action where
  | begin
  | write (complete : Bool) (len : Nat)
  | writeSidecar (complete : Bool) (len : Nat)
  | reply (ok : Bool)
  | openScratch (ok : Bool)
  | sync (ok : Bool)
  | rename (ok : Bool)
  | carry (ok : Bool)
  | index
  | touch (ok : Bool)
  | look
  | scan (name : String)
  | plan
  | remove (ok : Bool)
  | tick (elapsed : Nat)
  | drop
  deriving DecidableEq, Repr

/-- What goes on when the handler that awaits it is dropped: the backend's save, and
the publish closure. -/
def Phase.outlives : Phase → Bool
  | .asking _ => true
  | .opening => true
  | .syncing => true
  | .moving => true
  | .carrying => true
  | .indexing => true
  | _ => false

/-- `SeedDance::blob_name`. -/
def seedBlobName (key : String) : String :=
  "sys-" ++ key ++ "__seed.bin"

theorem endsWith_seedBlobName (key : String) :
    Text.endsWith (seedBlobName key) ".bin" = true := by
  have stem : seedBlobName key = "sys-" ++ key ++ "__seed" ++ ".bin" := by
    simp [seedBlobName, String.append_assoc]
  rw [stem]
  exact Text.endsWith_append _ _

/-- `Duration::as_secs`; no clock gets to 2 ^ 64 seconds, and no file to as many bytes. -/
def secs (time : Nat) : UInt64 :=
  UInt64.ofNat (time / 10 ^ 9)

def entryOf (name : String) (file : File CallId) : CacheEntry :=
  ⟨name, .ofNat file.len, secs file.mtime⟩

section Machine

variable (backendSig : String) (calls : CallId → Call) (limit : UInt64)

/-- The final name of what a call publishes, restores or looks for. -/
def blobOf (c : CallId) : String :=
  match calls c with
  | .save session | .lookup session | .restore session => blobName backendSig session
  | .seed key => seedBlobName key
  | .limit => ""

def scratchOf (c : CallId) : String :=
  scratchName (blobOf backendSig calls c)

/-- How a call starts: saves take the gate exclusively, lookups share it. -/
def begin (c : CallId) (world : World) : Option (Phase × World) :=
  match calls c with
  | .save _ => (world.gate.write? c).map fun gate => (.asking none, { world with gate := gate })
  | .lookup _ => (world.gate.read? c).map fun gate => (.looking, { world with gate := gate })
  | .seed _ => some (.asking none, world)
  | .restore _ => some (.restoring, world)
  | .limit => some (.scanning [], world)

def World.finish (world : World) (c : CallId) : World :=
  { world with gate := world.gate.release c }

def World.publish (world : World) (source target : String) : World :=
  { world with
    dir := world.dir.rename source target
    fresh := Function.update world.fresh target (some world.clock) }

def World.touch (world : World) (name : String) : World :=
  if (world.dir name).isSome then
    { world with
      dir := world.dir.touch name world.clock
      fresh := Function.update world.fresh name (some world.clock) }
  else world

def World.evict (world : World) (name : String) : World :=
  { world with
    dir := world.dir.remove name
    fresh := Function.update world.fresh name none
    removals := ⟨name, world.fresh name, world.clock⟩ :: world.removals }

/-- `_w` is released with the handler's future. -/
def World.drop (world : World) (c : CallId) : World :=
  { world.finish c with dropped := Function.update world.dropped c true }

@[simp]
theorem World.dropped_drop (world : World) (c : CallId) : (world.drop c).dropped c = true :=
  Function.update_self _ _ _

/-- `App::save_slot` touches what it published, unless its handler is gone;
`FsPublisher` does not. -/
def afterIndex (c : CallId) (world : World) : Phase × World :=
  match calls c with
  | .save _ => if world.dropped c then (.done, world) else (.touching, world)
  | _ => (.done, world)

def act (c : CallId) : Action → Phase → World → Option (Phase × World)
  | .begin, .waiting, world => begin calls c world
  -- the backend between request and reply
  | .write complete len, .asking _, world =>
      some (.asking (some complete), { world with
        dir := world.dir.write (scratchOf backendSig calls c)
          ⟨c, complete, false, len, world.clock⟩ })
  | .writeSidecar complete len, .asking wrote, world =>
      some (.asking wrote, { world with
        dir := world.dir.write (sidecarPath (scratchOf backendSig calls c))
          ⟨c, complete, false, len, world.clock⟩ })
  | .reply true, .asking (some true), world =>
      some (if world.dropped c then .done else .opening,
        { world with acked := Function.update world.acked c true })
  | .reply false, .asking _, world => some (.done, world.finish c)
  -- the publish closure
  | .openScratch ok, .opening, world =>
      if !ok then some (.done, world.finish c)
      else if (world.dir (scratchOf backendSig calls c)).isSome then some (.syncing, world)
      else none
  | .sync ok, .syncing, world =>
      if ok then
        some (.moving, { world with dir := world.dir.sync (scratchOf backendSig calls c) })
      else some (.done, world.finish c)
  | .rename ok, .moving, world =>
      if !ok then some (.done, world.finish c)
      else if (world.dir (scratchOf backendSig calls c)).isSome then
        some (.carrying,
          world.publish (scratchOf backendSig calls c) (blobOf backendSig calls c))
      else none
  | .carry ok, .carrying, world =>
      if ok && (world.dir (sidecarPath (scratchOf backendSig calls c))).isSome then
        some (.indexing, world.publish (sidecarPath (scratchOf backendSig calls c))
          (sidecarPath (blobOf backendSig calls c)))
      else some (.indexing, world)
  | .index, .indexing, world => some (afterIndex calls c world)
  | .touch ok, .touching, world =>
      some (.done, (if ok then world.touch (blobOf backendSig calls c) else world).finish c)
  -- lookup and restore
  | .look, .looking, world => some (.done, world.finish c)
  | .reply ok, .restoring, world => some (if ok then .touching else .done, world)
  -- the quota pass
  | .scan name, .scanning entries, world => do
      let file ← world.dir name
      if name ∈ entries.map (·.name) then none
      else some (.scanning (entries ++ [entryOf name file]), world)
  | .plan, .scanning entries, world =>
      some (.removing ((planEvictions entries limit (secs world.clock) 60).getD []), world)
  | .remove ok, .removing (name :: rest), world =>
      some (.removing rest,
        if ok && (world.dir name).isSome then world.evict name else world)
  | .tick elapsed, phase, world => some (phase, { world with clock := world.clock + elapsed })
  -- to a lookup or a restore this is no other than its last action
  | .drop, phase, world =>
      if phase.outlives && !world.dropped c then some (phase, world.drop c) else none
  | _, _, _ => none

structure World.Fresh (world : World) : Prop where
  dir : world.dir = .empty
  gate : world.gate = .free
  dropped : world.dropped = fun _ => false
  fresh : world.fresh = fun _ => none
  removals : world.removals = []

def store : Threads CallId World Phase Action where
  Initial := World.Fresh
  start _ := .waiting
  act := act backendSig calls limit

/-- A crash may tear unsynced files; the gate starts free. -/
def World.crash (torn : String → Bool) (world : World) : World :=
  { world with dir := world.dir.crash torn, gate := .free }

/-- Calls that were under way are gone after a crash. -/
def Phase.abort : Phase → Phase
  | .waiting => .waiting
  | _ => .done

abbrev StoreState := Threads.Config CallId World Phase

/-- Runs of the calls with crashes and restarts between any two steps. -/
def storeMachine :
    Machine StoreState (CallId × Action ⊕ (String → Bool)) :=
  (store backendSig calls limit).crashing Phase.abort World.crash

end Machine

def World.empty : World :=
  ⟨.empty, .free, 0, fun _ => false, fun _ => false, fun _ => none, []⟩

def storeStart : StoreState :=
  ⟨.empty, fun _ => .waiting⟩

theorem initial_storeStart (backendSig : String) (calls : CallId → Call) (limit : UInt64) :
    (storeMachine backendSig calls limit).Initial storeStart :=
  ⟨⟨rfl, rfl, rfl, rfl, rfl⟩, rfl⟩

/-- Only the first `n` calls take steps, and nothing crashes. -/
def among (n : Nat) : CallId × Action ⊕ (String → Bool) → Bool
  | .inl (c, _) => decide (c < n)
  | .inr _ => false

/-- Executing a checked list of events of the first calls is a guarded run. -/
theorem storeRun {backendSig : String} {calls : CallId → Call} {limit : UInt64} {n : Nat}
    (allowed : StoreState → CallId × Action ⊕ (String → Bool) → Prop)
    {check : StoreState → CallId × Action ⊕ (String → Bool) → Bool}
    (sound : ∀ config event, (store backendSig calls limit).Unstarted n config →
      among n event = true → check config event = true → allowed config event)
    {events : List (CallId × Action ⊕ (String → Bool))} {config : StoreState}
    (executed : (storeMachine backendSig calls limit).run
      (fun config event => among n event && check config event) storeStart events =
        some config) :
    (storeMachine backendSig calls limit).ReachedBy allowed config := by
  refine (Machine.ReachedBy.initial (initial_storeStart backendSig calls limit)).run_of_invariant
    ((store backendSig calls limit).Unstarted n) ?_ ?_ (fun _ _ => rfl) executed
  · intro config event unstarted checked
    rw [Bool.and_eq_true] at checked
    exact sound config event unstarted checked.1 checked.2
  · rintro before (⟨c, action⟩ | torn) after unstarted checked moved
    · simp only [among, Bool.and_eq_true, decide_eq_true_eq] at checked
      exact unstarted.step checked.1 moved
    · simp [among] at checked

def oneSession : CallId → Call :=
  fun _ => .save "hdr-a"

/-- A save of `len` bytes up to the rename that makes it visible. -/
def publishing (c : CallId) (len : Nat) : List (CallId × Action ⊕ (String → Bool)) :=
  [.begin, .write true len, .reply true, .openScratch true, .sync true, .rename true].map
    fun action => .inl (c, action)

end Ollm.Store
