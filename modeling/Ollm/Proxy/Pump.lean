import Ollm.Library.Channel
import Ollm.Proxy.Steps

/-!
# The pump of a streamed turn

The body of a streamed turn is pumped from the backend to the client through a
channel with room for 64 chunks, by a task of its own.  The task leaves its loop
when the stream ends, when a chunk is an error, or when the client is gone, and
only the first of these has the turn saved.  Other requests may work on other
slots all the while.
-/

namespace Ollm.Proxy

abbrev Bytes := List UInt8

inductive Chunk where
  | data (bytes : Bytes)
  | error
  deriving DecidableEq, Repr

/-- What arrives before the first error. -/
def dataBefore : List Chunk → List Bytes
  | .data bytes :: rest => bytes :: dataBefore rest
  | _ => []

def hasError (chunks : List Chunk) : Bool :=
  chunks.contains .error

/-- The await the pump is at. -/
inductive PumpPhase where
  | reading
  | sending (bytes : Bytes)
  | ended (ending : BodyEnd)
  | saving (id : SlotId)
  /-- Finished, with the outcome of the save if there was one. -/
  | done (saved : Option Bool)
  deriving DecidableEq, Repr

structure PumpState where
  phase : PumpPhase
  /-- What the backend has still to send. -/
  left : List Chunk
  channel : Channel Bytes
  slots : Registry

inductive PumpAction where
  | read
  | send
  /-- The client takes a chunk. -/
  | receive
  /-- The client drops its end. -/
  | hangUp
  | conclude
  | saved (ok : Bool)
  /-- Another request changes another slot. -/
  | elsewhere (other : SlotId) (info : SlotInfo)
  deriving DecidableEq, Repr

def channelCapacity : Nat := 64

/-- After the loop: save the turn, leave its slot alone, or give the slot up. -/
def PumpState.conclude (session : String) (steer : Option SlotId) (ending : BodyEnd)
    (state : PumpState) : PumpState :=
  match ending, steer with
  | .complete, some id =>
      { state with phase := .saving id, slots := state.slots.relabel id session }
  | .hungUp, some id =>
      { state with phase := .done none, slots := state.slots.abandon id }
  | _, _ => { state with phase := .done none }

def PumpState.read (state : PumpState) : PumpState :=
  match state.left with
  | .data bytes :: rest => { state with phase := .sending bytes, left := rest }
  | .error :: rest => { state with phase := .ended .broken, left := rest }
  | [] => { state with phase := .ended .complete }

def pumpStep (session : String) (steer : Option SlotId) (state : PumpState) :
    PumpAction → Option PumpState
  | .read =>
      match state.phase with
      | .reading => some state.read
      | _ => none
  | .send =>
      match state.phase with
      | .sending bytes => (state.channel.send? channelCapacity bytes).map fun (ok, channel) =>
          { state with
            phase := if ok then .reading else .ended .hungUp
            channel := channel }
      | _ => none
  | .receive => state.channel.receive?.map fun channel => { state with channel := channel }
  | .hangUp =>
      if state.channel.live then some { state with channel := state.channel.hangUp } else none
  | .conclude =>
      match state.phase with
      | .ended ending => some (state.conclude session steer ending)
      | _ => none
  | .saved ok =>
      match state.phase with
      | .saving id => some { state with
          phase := .done (some ok)
          slots := if ok then state.slots.markClean id else state.slots }
      | _ => none
  | .elsewhere other info =>
      if steer = some other then none
      else some { state with slots := state.slots.insert other info }

def pumpStart (chunks : List Chunk) (slots : Registry) : PumpState :=
  ⟨.reading, chunks, .new, slots⟩

def pump (session : String) (steer : Option SlotId) (chunks : List Chunk) (slots : Registry) :
    Machine PumpState PumpAction where
  Initial state := state = pumpStart chunks slots
  step := pumpStep session steer

theorem initial_pumpStart (session : String) (steer : Option SlotId) (chunks : List Chunk)
    (slots : Registry) : (pump session steer chunks slots).Initial (pumpStart chunks slots) := rfl

/-- The turn's `save_slot` has been called. -/
def PumpPhase.saveStarted : PumpPhase → Bool
  | .saving _ => true
  | .done (some _) => true
  | _ => false

/-! ## Steps -/

section Steps

variable (session : String) (steer : Option SlotId)

/-- The steps of the pump, of its client and of its surroundings. -/
inductive PumpStep : PumpState → PumpAction → PumpState → Prop where
  | readData {bytes left channel slots} :
      PumpStep ⟨.reading, .data bytes :: left, channel, slots⟩ .read
        ⟨.sending bytes, left, channel, slots⟩
  | readError {left channel slots} :
      PumpStep ⟨.reading, .error :: left, channel, slots⟩ .read
        ⟨.ended .broken, left, channel, slots⟩
  | readEnd {channel slots} :
      PumpStep ⟨.reading, [], channel, slots⟩ .read ⟨.ended .complete, [], channel, slots⟩
  | accepted {bytes left channel channel' slots}
      (sent : channel.send? channelCapacity bytes = some (true, channel')) :
      PumpStep ⟨.sending bytes, left, channel, slots⟩ .send ⟨.reading, left, channel', slots⟩
  | refused {bytes left channel channel' slots}
      (sent : channel.send? channelCapacity bytes = some (false, channel')) :
      PumpStep ⟨.sending bytes, left, channel, slots⟩ .send
        ⟨.ended .hungUp, left, channel', slots⟩
  | received {phase left channel channel' slots} (took : channel.receive? = some channel') :
      PumpStep ⟨phase, left, channel, slots⟩ .receive ⟨phase, left, channel', slots⟩
  | hungUp {phase left channel slots} (live : channel.live = true) :
      PumpStep ⟨phase, left, channel, slots⟩ .hangUp ⟨phase, left, channel.hangUp, slots⟩
  | save {id left channel slots} (steered : steer = some id) :
      PumpStep ⟨.ended .complete, left, channel, slots⟩ .conclude
        ⟨.saving id, left, channel, slots.relabel id session⟩
  | abandon {id left channel slots} (steered : steer = some id) :
      PumpStep ⟨.ended .hungUp, left, channel, slots⟩ .conclude
        ⟨.done none, left, channel, slots.abandon id⟩
  | leave {ending left channel slots} (free : ending = .broken ∨ steer = none) :
      PumpStep ⟨.ended ending, left, channel, slots⟩ .conclude
        ⟨.done none, left, channel, slots⟩
  | saved {ok id left channel slots} :
      PumpStep ⟨.saving id, left, channel, slots⟩ (.saved ok)
        ⟨.done (some ok), left, channel, if ok then slots.markClean id else slots⟩
  | elsewhere {other info phase left channel slots} (foreign : steer ≠ some other) :
      PumpStep ⟨phase, left, channel, slots⟩ (.elsewhere other info)
        ⟨phase, left, channel, slots.insert other info⟩

variable {session steer}

theorem pumpStep_conclude {state after : PumpState} {ending : BodyEnd}
    (ended : state.phase = .ended ending)
    (concluded : state.conclude session steer ending = after) :
    PumpStep session steer state .conclude after := by
  obtain ⟨phase, left, channel, slots⟩ := state
  subst ended concluded
  cases steer with
  | none =>
      cases ending <;> exact .leave (.inr rfl)
  | some id =>
      cases ending with
      | complete => exact .save rfl
      | broken => exact .leave (.inl rfl)
      | hungUp => exact .abandon rfl

theorem pumpStep_of_moved {state after : PumpState} {action : PumpAction}
    (moved : pumpStep session steer state action = some after) :
    PumpStep session steer state action after := by
  obtain ⟨phase, left, channel, slots⟩ := state
  cases action with
  | read =>
      cases phase with
      | reading =>
          obtain rfl := Option.some.inj moved
          cases left with
          | nil => exact .readEnd
          | cons chunk rest =>
              cases chunk with
              | data bytes => exact .readData
              | error => exact .readError
      | _ => cases moved
  | send =>
      cases phase with
      | sending bytes =>
          obtain ⟨⟨ok, channel'⟩, sent, rfl⟩ := Option.map_eq_some_iff.mp moved
          cases ok with
          | true => exact .accepted sent
          | false => exact .refused sent
      | _ => cases moved
  | receive =>
      obtain ⟨channel', took, rfl⟩ := Option.map_eq_some_iff.mp moved
      exact .received took
  | hangUp =>
      simp only [pumpStep] at moved
      split_ifs at moved with live
      obtain rfl := Option.some.inj moved
      exact .hungUp live
  | conclude =>
      cases phase with
      | ended ending => exact pumpStep_conclude rfl (Option.some.inj moved)
      | _ => cases moved
  | saved ok =>
      cases phase with
      | saving id =>
          obtain rfl := Option.some.inj moved
          exact .saved
      | _ => cases moved
  | elsewhere other info =>
      simp only [pumpStep] at moved
      split_ifs at moved with same
      obtain rfl := Option.some.inj moved
      exact .elsewhere same

end Steps

/-! ## The pump as part of its request -/

section Request

variable {backendSig : String} {requests : RequestId → Request} {r : RequestId}
  {steer : Option SlotId} {before after : PumpState} {action : PumpAction}

/-- The await of the whole request that the pump's await is part of. -/
def PumpPhase.chatPhase (session : String) (steer : Option SlotId) (ranOn : SlotId) :
    PumpPhase → Phase
  | .reading => .receiving steer ranOn
  | .sending _ => .receiving steer ranOn
  | .ended .complete => afterBody steer
  | .ended .broken => .done
  | .ended .hungUp => afterHangUp steer
  | .saving id => .saving .postTurn id session .locking
  | .done _ => .done

/-- Up to the save, the pump of a streaming request takes the request's own steps. -/
theorem chat_of_pumpStep (stream : isStream (requests r).body = true)
    (step : PumpStep (requests r).session steer before action after)
    (unsaved : ∀ ok, action ≠ .saved ok) (ranOn : SlotId) {world : World}
    (slots : world.slots = before.slots) :
    (after.phase.chatPhase (requests r).session steer ranOn =
        before.phase.chatPhase (requests r).session steer ranOn ∧
      (after.slots = before.slots ∨ ∃ other info, steer ≠ some other ∧
        after.slots = before.slots.insert other info)) ∨
    ∃ chatAction world', act backendSig requests r chatAction
        (before.phase.chatPhase (requests r).session steer ranOn) world =
          some (after.phase.chatPhase (requests r).session steer ranOn, world') ∧
      world'.slots = after.slots := by
  cases step with
  | readData => exact .inl ⟨rfl, .inl rfl⟩
  | readError =>
      refine .inr ⟨.finish .broken, world.settle r, ?_, slots⟩
      simp [act, PumpPhase.chatPhase, stream]
  | readEnd => exact .inr ⟨.finish .complete, _, rfl, slots⟩
  | accepted sent => exact .inl ⟨rfl, .inl rfl⟩
  | refused sent =>
      refine .inr ⟨.finish .hungUp, world.settle r, ?_, slots⟩
      simp [act, PumpPhase.chatPhase, stream]
  | received took => exact .inl ⟨rfl, .inl rfl⟩
  | hungUp live => exact .inl ⟨rfl, .inl rfl⟩
  | save steered =>
      rename_i id left channel current
      subst steered
      exact .inr ⟨.relabel, _, rfl, congrArg (Registry.relabel · id _) slots⟩
  | abandon steered =>
      rename_i id left channel current
      subst steered
      exact .inr ⟨.cleanUp, _, rfl, congrArg (Registry.abandon · id) slots⟩
  | leave free =>
      rename_i ending left channel current
      refine .inl ⟨?_, .inl rfl⟩
      rcases free with rfl | rfl
      · rfl
      · cases ending <;> rfl
  | saved => exact absurd rfl (unsaved _)
  | elsewhere foreign => exact .inl ⟨rfl, .inr ⟨_, _, foreign, rfl⟩⟩

end Request

end Ollm.Proxy
