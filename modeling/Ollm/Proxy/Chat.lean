import Ollm.Keying.Names
import Ollm.Library.RwLock
import Ollm.Library.Transition
import Ollm.Proxy.Forward

/-!
# Chat turns

Any number of `chat_completions` requests on one proxy.  A request is a
thread; every await is a place where any other request may go on.  The
backend acts between a call and its reply: it captures a slot for a save, loads
a blob into a slot, or starts the turn on a slot.  What the proxy never reads
(which turn a slot's content stems from, which blobs were evicted) is kept as
history of the world.
-/

namespace Ollm.Proxy

open Keying

abbrev RequestId := Nat

structure Request where
  session : String
  body : Json.Value

/-- What a slot or a blob holds: the state some turn left when it completed, or
whatever is there while or after a turn that did not. -/
inductive Content where
  | blank
  | left (turn : RequestId)
  | torn (turn : RequestId)
  deriving DecidableEq, Repr

structure Publication where
  session : String
  content : Content
  deriving DecidableEq, Repr

structure History where
  /-- All publications, latest first. -/
  published : List Publication
  /-- The last completed turn of each session. -/
  last : String → Option RequestId
  /-- The session's blob was evicted since then. -/
  lost : String → Bool
  /-- The last turn steered to the slot completed. -/
  finished : SlotId → Bool
  /-- The slot of each steered turn that is neither published by its own save
  nor failed or abandoned. -/
  pending : RequestId → Option SlotId

structure World where
  slots : Registry
  gate : RwLock RequestId
  kv : SlotId → Content
  blobs : String → Option Content
  history : History

/-- Who called `save_slot`: write-on-eviction during an admission, or the
post-turn task. -/
inductive Caller where
  | eviction (diskHit : Bool)
  | postTurn
  deriving DecidableEq, Repr

inductive Saving where
  | locking
  | asking (captured : Option Content)
  | publishing (content : Content)
  | cleaning
  deriving DecidableEq, Repr

/-- The await a request is at, with the local variables still needed there. -/
inductive Phase where
  | waiting
  | matching (diskHit : Bool)
  | snapshot (diskHit : Bool)
  | picking (diskHit : Bool) (arr : List SlotState)
  | seeking (diskHit : Bool)
  | choosing (diskHit : Bool) (arr : List SlotState)
  | restoring (id : SlotId) (loaded : Bool)
  | marking (id : SlotId) (hot : Bool)
  | forwarding (steer : Option SlotId) (hot : Bool) (ranOn : Option SlotId)
  | receiving (steer : Option SlotId) (ranOn : SlotId)
  | abandoning (id : SlotId)
  | relabelling (id : SlotId)
  | saving (caller : Caller) (id : SlotId) (session : String) (stage : Saving)
  | enforcing
  | done
  deriving DecidableEq, Repr

inductive Answer where
  | failed
  | refused
  | success
  deriving DecidableEq, Repr

inductive BodyEnd where
  | complete
  | broken
  | hungUp
  deriving DecidableEq, Repr

inductive Action where
  | enter
  | hot (id : SlotId)
  | miss
  | report (reply : Option (List SlotState))
  | pick
  | choose
  | lock
  | capture
  | saveReply (ok : Bool)
  | publish (ok : Bool)
  | clean
  | load
  | restoreReply (ok : Bool)
  | mark
  | land (slot : SlotId)
  | answer (reply : Answer)
  | finish (ending : BodyEnd)
  | cleanUp
  | relabel
  | remove (name : String)
  | settle
  | drop
  deriving DecidableEq, Repr

/-- Where an admission goes on with a slot that is not hot. -/
def admission (diskHit : Bool) (id : SlotId) : Phase :=
  if diskHit then .restoring id false else .marking id false

def afterSave : Caller → SlotId → Bool → Phase
  | .eviction diskHit, id, true => admission diskHit id
  | .eviction _, _, false => .forwarding none false none
  | .postTurn, _, _ => .enforcing

def afterPick (diskHit : Bool) : Option SlotId → Phase
  | some id => admission diskHit id
  | none => .seeking diskHit

/-- Where `find_evictable` leads: publish the victim, or forward unsteered. -/
def afterChoice (diskHit : Bool) : Option (SlotId × Option String) → Phase
  | some (id, some victim) => .saving (.eviction diskHit) id victim .locking
  | some (id, none) => admission diskHit id
  | none => .forwarding none false none

/-- The post-turn task of a finished body: only steered turns have one. -/
def afterBody : Option SlotId → Phase
  | some id => .relabelling id
  | none => .done

def afterHangUp : Option SlotId → Phase
  | some id => .abandoning id
  | none => .done

namespace World

variable (world : World)

def release (r : RequestId) : World :=
  { world with gate := world.gate.release r }

/-- The slot's state belongs to a completed turn from here on. -/
def complete (r : RequestId) (session : String) (steer : Option SlotId) (ranOn : SlotId) :
    World :=
  { world with
    kv := Function.update world.kv ranOn (.left r)
    history := { world.history with
      last := Function.update world.history.last session (some r)
      lost := Function.update world.history.lost session false
      finished := match steer with
        | some id => Function.update world.history.finished id true
        | none => world.history.finished } }

/-- The turn of `r` is published, or there is nothing left to publish. -/
def settle (r : RequestId) : World :=
  { world with
    history := { world.history with
      pending := Function.update world.history.pending r none } }

def publish (name session : String) (content : Content) : World :=
  { world with
    blobs := Function.update world.blobs name (some content)
    history := { world.history with
      published := ⟨session, content⟩ :: world.history.published } }

def mark (r : RequestId) (id : SlotId) (session : String) : World :=
  { world with
    slots := world.slots.markDirty id session
    history := { world.history with
      finished := Function.update world.history.finished id false
      pending := Function.update world.history.pending r (some id) } }

end World

section Machine

variable (backendSig : String) (requests : RequestId → Request)

/-- Evicting a file loses the blobs of the sessions it is named for. -/
def World.evict (world : World) (name : String) : World :=
  { world with
    blobs := Function.update world.blobs name none
    history := { world.history with
      lost := fun session => world.history.lost session || blobName backendSig session == name } }

/-- Phases of the handler itself, whose future is dropped when the client goes away.
Spawned tasks go on.  So does the publish closure of a write-on-eviction, but its
handler is gone and the gate released: that drop is left to `Ollm.Proxy.handle`, and
here the handler keeps the gate until its closure ends. -/
def droppable (r : RequestId) : Phase → Bool
  | .matching _ | .snapshot _ | .picking _ _ | .seeking _ | .choosing _ _ => true
  | .restoring _ _ | .marking _ _ | .forwarding _ _ _ => true
  | .receiving _ _ => !isStream (requests r).body
  | .saving (.eviction _) _ _ (.publishing _) => false
  | .saving (.eviction _) _ _ _ => true
  | _ => false

def act (r : RequestId) : Action → Phase → World → Option (Phase × World)
  -- the lookup holds the gate shared
  | .enter, .waiting, world => do
      let gate ← world.gate.read? r
      let diskHit := (world.blobs (blobName backendSig (requests r).session)).isSome
      some (.matching diskHit, { world with gate := gate })
  | .hot id, .matching _, world =>
      if id ∈ world.slots.hotSlots (requests r).session then
        some (.marking id true, world.release r)
      else none
  | .miss, .matching diskHit, world =>
      if world.slots.hotSlots (requests r).session = [] then
        some (.snapshot diskHit, world)
      else none
  | .report (some arr), .snapshot diskHit, world => some (.picking diskHit arr, world)
  | .report none, .snapshot diskHit, world => some (.seeking diskHit, world.release r)
  | .pick, .picking diskHit arr, world =>
      let picked := world.slots.pickSlot arr
      some (afterPick diskHit picked.1, { world with slots := picked.2 }.release r)
  -- the eviction path
  | .report (some arr), .seeking diskHit, world => some (.choosing diskHit arr, world)
  | .report none, .seeking _, world => some (.forwarding none false none, world)
  | .choose, .choosing diskHit arr, world =>
      let free := world.slots.findEvictable arr
      some (afterChoice diskHit free.1, { world with slots := free.2 })
  -- `save_slot`
  | .lock, .saving caller id session .locking, world => do
      let gate ← world.gate.write? r
      some (.saving caller id session (.asking none), { world with gate := gate })
  | .capture, .saving caller id session (.asking _), world =>
      some (.saving caller id session (.asking (some (world.kv id))), world)
  | .saveReply true, .saving caller id session (.asking (some content)), world =>
      some (.saving caller id session (.publishing content), world)
  | .saveReply false, .saving caller id _ (.asking _), world =>
      some (afterSave caller id false, world.release r)
  | .publish true, .saving (.eviction diskHit) id session (.publishing content), world =>
      some (.saving (.eviction diskHit) id session .cleaning,
        world.publish (blobName backendSig session) session content)
  | .publish true, .saving .postTurn id session (.publishing content), world =>
      some (.saving .postTurn id session .cleaning,
        (world.publish (blobName backendSig session) session content).settle r)
  | .publish false, .saving caller id _ (.publishing _), world =>
      some (afterSave caller id false, world.release r)
  | .clean, .saving caller id _ .cleaning, world =>
      some (afterSave caller id true,
        { world with slots := world.slots.markClean id }.release r)
  -- the rest of the admission
  | .load, .restoring id _, world => do
      let content ← world.blobs (blobName backendSig (requests r).session)
      some (.restoring id true, { world with kv := Function.update world.kv id content })
  | .restoreReply ok, .restoring id loaded, world =>
      if ok && !loaded then none else some (.marking id false, world)
  | .mark, .marking id hot, world =>
      some (.forwarding (some id) hot none, world.mark r id (requests r).session)
  -- the turn
  | .land slot, .forwarding steer hot none, world =>
      if runsOn (forwardBody (requests r).body steer) slot then
        some (.forwarding steer hot (some slot),
          { world with kv := Function.update world.kv slot (.torn r) })
      else none
  | .answer .success, .forwarding steer _ (some slot), world =>
      some (.receiving steer slot, world)
  | .answer .failed, .forwarding _ _ _, world => some (.done, world.settle r)
  | .answer .refused, .forwarding _ _ _, world => some (.done, world.settle r)
  | .finish .complete, .receiving steer slot, world =>
      some (afterBody steer, world.complete r (requests r).session steer slot)
  | .finish .broken, .receiving steer _, world =>
      -- only the pump of a stream looks at the error
      some (if isStream (requests r).body then .done else afterBody steer, world.settle r)
  | .finish .hungUp, .receiving steer _, world =>
      if isStream (requests r).body then some (afterHangUp steer, world.settle r) else none
  | .cleanUp, .abandoning id, world =>
      some (.done, { world with slots := world.slots.abandon id })
  | .relabel, .relabelling id, world =>
      some (.saving .postTurn id (requests r).session .locking,
        { world with slots := world.slots.relabel id (requests r).session })
  -- `enforce_limit`
  | .remove name, .enforcing, world => some (.enforcing, world.evict backendSig name)
  | .settle, .enforcing, world => some (.done, world)
  | .drop, phase, world =>
      if droppable requests r phase then some (.done, (world.release r).settle r) else none
  | _, _, _ => none

/-- A proxy that has just started; the cache directory may hold anything. -/
structure World.Fresh (world : World) : Prop where
  slots : world.slots = ∅
  gate : world.gate = .free
  published : world.history.published = []
  last : world.history.last = fun _ => none
  finished : world.history.finished = fun _ => false
  pending : world.history.pending = fun _ => none

abbrev ProxyState := Threads.Config RequestId World Phase

def chat : Threads RequestId World Phase Action where
  Initial := World.Fresh
  start _ := .waiting
  act := act backendSig requests

end Machine

def World.empty : World where
  slots := ∅
  gate := .free
  kv _ := .blank
  blobs _ := none
  history := ⟨[], fun _ => none, fun _ => false, fun _ => false, fun _ => none⟩

theorem World.fresh_empty : World.empty.Fresh :=
  ⟨rfl, rfl, rfl, rfl, rfl, rfl⟩

def chatStart : ProxyState :=
  ⟨.empty, fun _ => .waiting⟩

theorem initial_chatStart (backendSig : String) (requests : RequestId → Request) :
    (chat backendSig requests).machine.Initial chatStart :=
  ⟨World.fresh_empty, rfl⟩

def streamBody : Json.Value :=
  .object [("stream", .bool true)]

/-- The backend reports the given slots idle. -/
def idle (ids : List SlotId) : Action :=
  .report (some (ids.map fun id => ⟨id, false, 0⟩))

end Ollm.Proxy
