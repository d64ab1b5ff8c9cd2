import Ollm.Library.Directory
import Ollm.Library.Trace
import Ollm.Library.Transition
import Ollm.Proxy.Registry
import Ollm.Seed.Family
import Ollm.Store.Calls

/-!
# The seed dance

Any number of `prepare` calls on one bag.  A call is a thread; every await is a
place where any other call may go on.  The backend and the publisher answer
what they like; what they do to slots and files is modelled beside their
answers, and files may be evicted at any time.  Each call keeps a trace of what
it issued and what it was answered.
-/

namespace Ollm.Seed

open Json Keying
open Proxy (SlotId SlotState)
open Store (CallId seedBlobName)

/-- The arguments of `prepare`. -/
structure Call where
  slot : SlotId
  messages : Value

/-! ## The bag -/

inductive BagState where
  | uncached
  | cached
  | failed
  deriving DecidableEq, Repr

structure BagEntry where
  system : Value
  state : BagState

abbrev Bag := String → Option BagEntry

namespace Bag

variable (bag : Bag) (key : String)

/-- `entry.system == Value::Array(Vec::new())`. -/
def isUnset : Value → Bool
  | .array [] => true
  | _ => false

/-- The entry a dance starts from: present, not failed, and with a prompt. -/
def enrolled (messages : Value) : BagEntry :=
  let entry := (bag key).getD ⟨.array [], .uncached⟩
  { state := if entry.state = .failed then .uncached else entry.state
    system := if isUnset entry.system then .array (systemMessages messages) else entry.system }

def enroll (messages : Value) : Bag :=
  Function.update bag key (some (bag.enrolled key messages))

def markCached : Bag :=
  Function.update bag key ((bag key).map fun e => { e with state := .cached })

/-- A missing entry is made up with a null prompt. -/
def markFailed : Bag :=
  match bag key with
  | some e => Function.update bag key (some { e with state := .failed })
  | none => Function.update bag key (some ⟨.null, .failed⟩)

def isCached : Bool :=
  match bag key with
  | some e => e.state == .cached
  | none => false

end Bag

inductive SeedResult where
  | restored
  | coldPrefill
  | seeded
  | failed
  | skipped
  deriving DecidableEq, Repr

/-! ## Calls -/

/-- What a call issues to the backend and the publisher, and their replies. -/
inductive Entry where
  | slots
  | slotsReply (reply : Option (List SlotState))
  | restore (slot : SlotId) (name : String)
  | restoreReply (ok : Bool)
  | prefill (slot : SlotId) (system : Value)
  | prefillReply (ok : Bool)
  | save (slot : SlotId) (scratch : String)
  | saveReply (ok : Bool)
  | publish (scratch name : String)
  | publishReply (ok : Bool)

/-- The await a call is at.  The flags say how far the other side got with a
request that is still unanswered. -/
inductive Phase where
  | waiting
  | gating
  | recalling
  | restoring (loaded : Bool)
  | enrolling
  | prefilling
  | confirming
  | saving (wrote : Option Bool)
  | publishing (moved : Bool)
  | marking (ok : Bool)
  | returned (result : SeedResult)
  deriving DecidableEq, Repr

/-- The backend's side of a prefill: it outlives an early answer. -/
inductive Job where
  | idle
  | queued (system : Value)
  | running (system : Value)
  | ended (system : Value) (ok : Bool)

structure Local where
  phase : Phase
  job : Job
  trace : List Entry

/-- What a slot or a file holds: the state of a prompt, or whatever is there
while a prefill runs or after it failed. -/
inductive Content where
  | blank
  | torn
  | prefilled (system : Value)

structure World where
  bag : Bag
  kv : SlotId → Content
  /-- The call whose prefill runs on the slot. -/
  running : SlotId → Option CallId
  dir : Directory Content

inductive Action where
  | begin
  | report (reply : Option (List SlotState))
  | recall
  | load
  | restoreReply (ok : Bool)
  | enroll
  | start
  | finish (ok : Bool)
  | prefillReply (ok : Bool)
  | write (complete : Bool)
  | saveReply (ok : Bool)
  | move
  | publishReply (ok : Bool)
  | mark
  | evict (name : String)
  deriving DecidableEq, Repr

/-- The first entry for the slot in a reply of `slots`. -/
def stateOf (slot : SlotId) (reply : Option (List SlotState)) : Option SlotState :=
  reply.bind fun states => states.find? (·.id == slot)

/-- The slot gate. -/
def isIdle (slot : SlotId) (reply : Option (List SlotState)) : Bool :=
  (stateOf slot reply).any fun s => !s.isProcessing

/-- The prefill has landed: the slot is idle again, at a position. -/
def isLanded (slot : SlotId) (reply : Option (List SlotState)) : Bool :=
  (stateOf slot reply).any fun s => !s.isProcessing && 0 < s.nTokens

section Machine

variable (sha256 : List UInt8 → Digest) (calls : CallId → Call) (c : CallId)

/-- The local `key`, once the call is past its first line. -/
def keyOf : String :=
  (systemHash sha256 (calls c).messages).getD ""

def blobOf : String :=
  seedBlobName (keyOf sha256 calls c)

def scratchOf : String :=
  scratchName (blobOf sha256 calls c)

def act : Action → Local → World → Option (Local × World)
  | .begin, ⟨.waiting, job, trace⟩, world =>
      match systemHash sha256 (calls c).messages with
      | none => some (⟨.returned .skipped, job, trace⟩, world)
      | some _ => some (⟨.gating, job, trace ++ [.slots]⟩, world)
  | .report reply, ⟨.gating, job, trace⟩, world =>
      some (⟨if isIdle (calls c).slot reply then .recalling else .returned .skipped, job,
        trace ++ [.slotsReply reply]⟩, world)
  | .recall, ⟨.recalling, job, trace⟩, world =>
      if world.bag.isCached (keyOf sha256 calls c) then
        some (⟨.restoring false, job,
          trace ++ [.restore (calls c).slot (blobOf sha256 calls c)]⟩, world)
      else some (⟨.enrolling, job, trace⟩, world)
  | .load, ⟨.restoring _, job, trace⟩, world => do
      let file ← world.dir (blobOf sha256 calls c)
      some (⟨.restoring true, job, trace⟩,
        { world with kv := Function.update world.kv (calls c).slot file.content })
  | .restoreReply ok, ⟨.restoring _, job, trace⟩, world =>
      some (⟨.returned (if ok then .restored else .coldPrefill), job,
        trace ++ [.restoreReply ok]⟩, world)
  | .enroll, ⟨.enrolling, _, trace⟩, world =>
      let entry := world.bag.enrolled (keyOf sha256 calls c) (calls c).messages
      some (⟨.prefilling, .queued entry.system,
          trace ++ [.prefill (calls c).slot entry.system]⟩,
        { world with bag := world.bag.enroll (keyOf sha256 calls c) (calls c).messages })
  -- the backend runs prefills on a slot one at a time
  | .start, ⟨phase, .queued system, trace⟩, world =>
      if world.running (calls c).slot = none then
        some (⟨phase, .running system, trace⟩,
          { world with
            kv := Function.update world.kv (calls c).slot .torn
            running := Function.update world.running (calls c).slot (some c) })
      else none
  | .finish ok, ⟨phase, .running system, trace⟩, world =>
      some (⟨phase, .ended system ok, trace⟩,
        { world with
          kv := Function.update world.kv (calls c).slot (if ok then .prefilled system else .torn)
          running := Function.update world.running (calls c).slot none })
  | .prefillReply ok, ⟨.prefilling, job, trace⟩, world =>
      if ok then
        some (⟨.confirming, job, trace ++ [.prefillReply true, .slots]⟩, world)
      else
        some (⟨.marking false, job, trace ++ [.prefillReply false]⟩, world)
  | .report reply, ⟨.confirming, job, trace⟩, world =>
      if isLanded (calls c).slot reply then
        some (⟨.saving none, job,
          trace ++ [.slotsReply reply, .save (calls c).slot (scratchOf sha256 calls c)]⟩, world)
      else
        some (⟨.marking false, job, trace ++ [.slotsReply reply]⟩, world)
  | .write complete, ⟨.saving _, job, trace⟩, world =>
      -- nothing reads the length or the time of a file
      some (⟨.saving (some complete), job, trace⟩,
        { world with
          dir := world.dir.write (scratchOf sha256 calls c)
            ⟨world.kv (calls c).slot, complete, false, 0, 0⟩ })
  | .saveReply ok, ⟨.saving _, job, trace⟩, world =>
      if ok then
        some (⟨.publishing false, job, trace ++ [.saveReply true,
          .publish (scratchOf sha256 calls c) (blobOf sha256 calls c)]⟩, world)
      else
        some (⟨.marking false, job, trace ++ [.saveReply false]⟩, world)
  | .move, ⟨.publishing false, job, trace⟩, world =>
      if (world.dir (scratchOf sha256 calls c)).isSome then
        some (⟨.publishing true, job, trace⟩,
          { world with
            dir := world.dir.rename (scratchOf sha256 calls c) (blobOf sha256 calls c) })
      else none
  | .publishReply ok, ⟨.publishing _, job, trace⟩, world =>
      some (⟨.marking ok, job, trace ++ [.publishReply ok]⟩, world)
  | .mark, ⟨.marking true, job, trace⟩, world =>
      some (⟨.returned .seeded, job, trace⟩,
        { world with bag := world.bag.markCached (keyOf sha256 calls c) })
  | .mark, ⟨.marking false, job, trace⟩, world =>
      some (⟨.returned .failed, job, trace⟩,
        { world with bag := world.bag.markFailed (keyOf sha256 calls c) })
  | .evict name, l, world => some (l, { world with dir := world.dir.remove name })
  | _, _, _ => none

/-- Calls start on the given bag, with no prefill running and no seed blob on disk. -/
structure World.Fresh (bag : Bag) (world : World) : Prop where
  bag : world.bag = bag
  running : world.running = fun _ => none
  blobs : ∀ key, world.dir (seedBlobName key) = none

def Local.fresh : Local :=
  ⟨.waiting, .idle, []⟩

abbrev DanceState := Threads.Config CallId World Local

def dance (bag : Bag) : Threads CallId World Local Action where
  Initial := World.Fresh bag
  start _ := .fresh
  act := act sha256 calls

end Machine

/-- `SeedDance::new`. -/
def Bag.empty : Bag := fun _ => none

def danceStart : DanceState :=
  ⟨⟨.empty, fun _ => .blank, fun _ => none, .empty⟩, fun _ => .fresh⟩

theorem initial_danceStart (sha256 : List UInt8 → Digest) (calls : CallId → Call) :
    (dance sha256 calls .empty).machine.Initial danceStart :=
  ⟨⟨rfl, rfl, fun _ => rfl⟩, rfl⟩

end Ollm.Seed
