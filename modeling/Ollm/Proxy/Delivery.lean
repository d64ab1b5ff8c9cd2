import Ollm.Proxy.Pump

/-!
# What the client of a streamed turn gets

The client receives a prefix of what the backend sent before its first error.
The turn is saved if and only if the whole body was accepted for the client.  A
client that leaves earlier ends the turn: the pump reads at most one more
chunk, saves nothing and gives the slot up.
-/

namespace Ollm.Proxy

/-- The stream ended without an error, and every chunk was accepted. -/
def PumpState.Complete (chunks : List Chunk) (state : PumpState) : Prop :=
  chunks = state.channel.accepted.map .data

def PumpState.chunksRead (chunks : List Chunk) (state : PumpState) : Nat :=
  chunks.length - state.left.length

/-- What is known when the pump has left its loop. -/
def Ended (chunks : List Chunk) (channel : Channel Bytes) : BodyEnd → Prop
  | .complete => hasError chunks = false ∧ channel.accepted = dataBefore chunks
  | .broken => hasError chunks = true ∧ channel.accepted = dataBefore chunks
  | .hungUp => channel.live = false ∧ channel.accepted <+: dataBefore chunks ∧
      channel.accepted ≠ dataBefore chunks

/-- What was accepted, what the pump holds and what is left make up the body. -/
def PumpState.Accounted (chunks : List Chunk) (steer : Option SlotId) (state : PumpState) :
    Prop :=
  match state.phase with
  | .reading => hasError state.left = hasError chunks ∧
      state.channel.accepted ++ dataBefore state.left = dataBefore chunks
  | .sending bytes => hasError state.left = hasError chunks ∧
      state.channel.accepted ++ bytes :: dataBefore state.left = dataBefore chunks
  | .ended ending => Ended chunks state.channel ending
  | .saving _ => Ended chunks state.channel .complete
  | .done (some _) => Ended chunks state.channel .complete
  | .done none => ∃ ending, Ended chunks state.channel ending ∧
      (ending = .complete → steer = none) ∧
      (ending = .hungUp → ∀ id, steer = some id →
        state.slots.dirty id = false ∧ state.slots.owner id = none)

section Chunks

variable {chunks : List Chunk}

theorem hasError_cons_data (bytes : Bytes) (rest : List Chunk) :
    hasError (.data bytes :: rest) = hasError rest := rfl

theorem dataBefore_eq_map_iff {accepted : List Bytes} :
    chunks = accepted.map .data ↔ hasError chunks = false ∧ accepted = dataBefore chunks := by
  induction chunks generalizing accepted with
  | nil => cases accepted <;> simp [hasError, dataBefore]
  | cons chunk rest inductionHypothesis =>
      cases chunk with
      | error => cases accepted <;> simp [hasError]
      | data bytes =>
          cases accepted with
          | nil => simp [dataBefore]
          | cons first others =>
              rw [List.map_cons, List.cons_eq_cons, inductionHypothesis, hasError_cons_data,
                dataBefore, List.cons_eq_cons, Chunk.data.injEq, and_left_comm,
                @eq_comm _ bytes first]

/-- While data is missing, the next chunk is data. -/
theorem next_is_data {accepted : List Bytes} {left : List Chunk}
    (split : accepted ++ dataBefore left = dataBefore chunks)
    (short : accepted ≠ dataBefore chunks) :
    ∃ bytes rest, left = .data bytes :: rest := by
  cases left with
  | nil => exact absurd (by simpa [dataBefore] using split) short
  | cons chunk rest =>
      cases chunk with
      | error => exact absurd (by simpa [dataBefore] using split) short
      | data bytes => exact ⟨bytes, rest, rfl⟩

theorem Ended.congr {channel after : Channel Bytes} {ending : BodyEnd}
    (ended : Ended chunks channel ending) (accepted : after.accepted = channel.accepted)
    (live : channel.live = false → after.live = false) : Ended chunks after ending := by
  cases ending with
  | complete => exact ⟨ended.1, accepted.trans ended.2⟩
  | broken => exact ⟨ended.1, accepted.trans ended.2⟩
  | hungUp =>
      obtain ⟨gone, included, short⟩ := ended
      refine ⟨live gone, ?_, ?_⟩
      · rwa [accepted]
      · rwa [accepted]

end Chunks

section Invariants

variable {session : String} {steer : Option SlotId} {chunks : List Chunk}
  {before after : PumpState} {action : PumpAction}

/-- The client and other requests do not disturb the account. -/
theorem PumpState.Accounted.congr {phase : PumpPhase} {left : List Chunk}
    {channel channel' : Channel Bytes} {slots slots' : Registry}
    (accounted : PumpState.Accounted chunks steer ⟨phase, left, channel, slots⟩)
    (accepted : channel'.accepted = channel.accepted)
    (live : channel.live = false → channel'.live = false)
    (same : ∀ id, steer = some id →
      slots'.dirty id = slots.dirty id ∧ slots'.owner id = slots.owner id) :
    PumpState.Accounted chunks steer ⟨phase, left, channel', slots'⟩ := by
  cases phase with
  | reading =>
      obtain ⟨errors, split⟩ := accounted
      exact ⟨errors, accepted ▸ split⟩
  | sending bytes =>
      obtain ⟨errors, split⟩ := accounted
      exact ⟨errors, accepted ▸ split⟩
  | ended ending => exact Ended.congr accounted accepted live
  | saving id =>
      have complete : Ended chunks channel .complete := accounted
      exact complete.congr accepted live
  | done saved =>
      cases saved with
      | some ok =>
          have complete : Ended chunks channel .complete := accounted
          exact complete.congr accepted live
      | none =>
          obtain ⟨ending, ended, complete, hungUp⟩ := accounted
          refine ⟨ending, ended.congr accepted live, complete, ?_⟩
          intro gone id steered
          rw [(same id steered).1, (same id steered).2]
          exact hungUp gone id steered

theorem PumpState.Accounted.step (accounted : before.Accounted chunks steer)
    (step : PumpStep session steer before action after) : after.Accounted chunks steer := by
  cases step with
  | readData =>
      obtain ⟨errors, split⟩ := accounted
      exact ⟨errors, split⟩
  | readError =>
      obtain ⟨errors, split⟩ := accounted
      exact ⟨errors.symm, by simpa [dataBefore] using split⟩
  | readEnd =>
      obtain ⟨errors, split⟩ := accounted
      exact ⟨errors.symm, by simpa [dataBefore] using split⟩
  | accepted sent =>
      obtain ⟨errors, split⟩ := accounted
      obtain ⟨-, -, grown, -⟩ := Channel.send?_accepted sent
      refine ⟨errors, ?_⟩
      rwa [grown, List.append_assoc, List.singleton_append]
  | refused sent =>
      obtain ⟨-, split⟩ := accounted
      obtain ⟨gone, rfl⟩ := Channel.send?_refused sent
      refine ⟨gone, ⟨_, split⟩, ?_⟩
      intro all
      rw [← split] at all
      simp at all
  | received took =>
      obtain ⟨live, -, accepted, -⟩ := Channel.receive?_eq_some took
      refine accounted.congr accepted ?_ fun _ _ => ⟨rfl, rfl⟩
      intro gone
      rw [live] at gone
      cases gone
  | hungUp live => exact accounted.congr rfl (fun _ => rfl) fun _ _ => ⟨rfl, rfl⟩
  | save steered => exact accounted
  | abandon steered =>
      refine ⟨.hungUp, accounted, BodyEnd.noConfusion, ?_⟩
      rintro - id same
      rw [steered] at same
      obtain rfl := Option.some.inj same
      simp
  | leave free =>
      rename_i ending left channel slots
      refine ⟨ending, accounted, ?_, ?_⟩
      · rintro rfl
        exact free.resolve_left BodyEnd.noConfusion
      · rintro rfl id steered
        rw [free.resolve_left BodyEnd.noConfusion] at steered
        cases steered
  | saved => exact accounted
  | elsewhere foreign =>
      rename_i other info phase left channel slots
      refine accounted.congr rfl (fun gone => gone) ?_
      rintro id rfl
      have apart : id ≠ other := fun same => foreign (congrArg some same)
      exact ⟨Registry.dirty_insert_of_ne apart info, Registry.owner_insert_of_ne apart info⟩

theorem accounted_of_reachable {slots : Registry} {state : PumpState}
    (reached : (pump session steer chunks slots).Reachable state) :
    state.Accounted chunks steer := by
  refine reached.invariant (fun state => state.Accounted chunks steer) ?_ ?_
  · rintro state rfl
    exact ⟨rfl, rfl⟩
  · intro before action after accounted _ moved
    exact accounted.step (pumpStep_of_moved moved)

/-- In every phase at most the data before the first error was accepted. -/
theorem PumpState.Accounted.accepted_prefix {state : PumpState}
    (accounted : state.Accounted chunks steer) :
    state.channel.accepted <+: dataBefore chunks := by
  have ended : ∀ ending, Ended chunks state.channel ending →
      state.channel.accepted <+: dataBefore chunks := by
    intro ending known
    cases ending with
    | complete => exact known.2 ▸ List.prefix_rfl
    | broken => exact known.2 ▸ List.prefix_rfl
    | hungUp => exact known.2.1
  unfold PumpState.Accounted at accounted
  split at accounted
  · exact ⟨_, accounted.2⟩
  · exact ⟨_, accounted.2⟩
  · exact ended _ accounted
  · exact ended _ accounted
  · exact ended _ accounted
  · obtain ⟨ending, known, -⟩ := accounted
    exact ended ending known

theorem PumpState.Accounted.complete_of_saveStarted {state : PumpState}
    (accounted : state.Accounted chunks steer) (started : state.phase.saveStarted = true) :
    state.Complete chunks := by
  obtain ⟨phase, left, channel, slots⟩ := state
  apply dataBefore_eq_map_iff.mpr
  cases phase with
  | saving id => exact accounted
  | done saved =>
      cases saved with
      | some ok => exact accounted
      | none => cases started
  | _ => cases started

/-- A steered turn that ended without a save was not accepted whole. -/
theorem PumpState.Accounted.not_complete {id : SlotId} {left : List Chunk}
    {channel : Channel Bytes} {slots : Registry}
    (accounted : PumpState.Accounted chunks (some id) ⟨.done none, left, channel, slots⟩) :
    ¬ PumpState.Complete chunks ⟨.done none, left, channel, slots⟩ := by
  intro complete
  obtain ⟨clean, all⟩ := dataBefore_eq_map_iff.mp complete
  obtain ⟨ending, known, unsteered, -⟩ := accounted
  cases ending with
  | complete => cases unsteered rfl
  | broken =>
      rw [known.1] at clean
      cases clean
  | hungUp => exact known.2.2 all

end Invariants

/-! ## After a hang-up -/

section HangUp

variable {session : String} {id : SlotId} {chunks : List Chunk} {n : Nat}
  {before after : PumpState} {action : PumpAction}

/-- The client left with data missing, when `n` chunks were left: nothing but giving the
slot up remains to be done. -/
structure PumpState.Doomed (chunks : List Chunk) (id : SlotId) (n : Nat) (state : PumpState) :
    Prop where
  gone : state.channel.live = false
  short : state.channel.accepted ≠ dataBefore chunks
  onward : match state.phase with
    | .reading => state.left.length = n
    | .sending _ => n ≤ state.left.length + 1
    | .ended .hungUp => n ≤ state.left.length + 1
    | .done none => n ≤ state.left.length + 1 ∧
        state.slots.dirty id = false ∧ state.slots.owner id = none
    | _ => False

theorem PumpState.Accounted.doomed {phase : PumpPhase} {left : List Chunk}
    {channel : Channel Bytes} {slots : Registry}
    (accounted : PumpState.Accounted chunks (some id) ⟨phase, left, channel, slots⟩)
    (live : channel.live = true) (short : channel.accepted ≠ dataBefore chunks) :
    PumpState.Doomed chunks id left.length ⟨phase, left, channel.hangUp, slots⟩ := by
  have early : ∀ ending, ¬ Ended chunks channel ending := by
    intro ending ended
    cases ending with
    | complete => exact short ended.2
    | broken => exact short ended.2
    | hungUp =>
        have gone := ended.1
        rw [live] at gone
        cases gone
  refine ⟨rfl, short, ?_⟩
  cases phase with
  | reading => rfl
  | sending bytes => exact Nat.le_succ _
  | ended ending => exact absurd accounted (early ending)
  | saving id => exact absurd accounted (early .complete)
  | done saved =>
      cases saved with
      | some ok => exact absurd accounted (early .complete)
      | none =>
          obtain ⟨ending, ended, -⟩ := accounted
          exact absurd ended (early ending)

theorem PumpState.Doomed.step (accounted : before.Accounted chunks (some id))
    (doomed : before.Doomed chunks id n)
    (step : PumpStep session (some id) before action after) : after.Doomed chunks id n := by
  obtain ⟨gone, short, onward⟩ := doomed
  cases step with
  | readData =>
      have counted : _ + 1 = n := onward
      exact ⟨gone, short, counted.ge⟩
  | readError =>
      obtain ⟨bytes, rest, next⟩ := next_is_data accounted.2 short
      cases next
  | readEnd =>
      obtain ⟨bytes, rest, next⟩ := next_is_data accounted.2 short
      cases next
  | accepted sent =>
      have live := (Channel.send?_accepted sent).1
      rw [gone] at live
      cases live
  | refused sent =>
      obtain ⟨-, rfl⟩ := Channel.send?_refused sent
      exact ⟨gone, short, onward⟩
  | received took =>
      rw [(Channel.receive?_eq_some took).1] at gone
      cases gone
  | hungUp live =>
      rw [live] at gone
      cases gone
  | save steered => exact onward.elim
  | abandon steered =>
      obtain rfl := Option.some.inj steered
      exact ⟨gone, short, onward, by simp, by simp⟩
  | leave free =>
      rcases free with rfl | unsteered
      · exact onward.elim
      · cases unsteered
  | saved => exact onward.elim
  | elsewhere foreign =>
      rename_i other info phase left channel slots
      have apart : id ≠ other := fun same => foreign (congrArg some same)
      refine ⟨gone, short, ?_⟩
      cases phase with
      | done saved =>
          cases saved with
          | none =>
              obtain ⟨counted, clean, unowned⟩ := onward
              refine ⟨counted, ?_, ?_⟩
              · exact (Registry.dirty_insert_of_ne apart info).trans clean
              · exact (Registry.owner_insert_of_ne apart info).trans unowned
          | some ok => exact onward
      | ended ending => cases ending <;> exact onward
      | _ => exact onward

theorem PumpState.Doomed.outcome {state : PumpState} (doomed : state.Doomed chunks id n) :
    n ≤ state.left.length + 1 ∧ state.phase.saveStarted = false ∧
      ∀ saved, state.phase = .done saved →
        state.slots.dirty id = false ∧ state.slots.owner id = none := by
  obtain ⟨phase, left, channel, slots⟩ := state
  obtain ⟨-, -, onward⟩ := doomed
  cases phase with
  | reading =>
      have counted : left.length = n := onward
      exact ⟨by omega, rfl, fun _ => PumpPhase.noConfusion⟩
  | sending bytes => exact ⟨onward, rfl, fun _ => PumpPhase.noConfusion⟩
  | ended ending =>
      cases ending with
      | hungUp => exact ⟨onward, rfl, fun _ => PumpPhase.noConfusion⟩
      | _ => exact onward.elim
  | saving id => exact onward.elim
  | done saved =>
      cases saved with
      | none => exact ⟨onward.1, rfl, fun _ _ => onward.2⟩
      | some ok => exact onward.elim

end HangUp

/-! ## The end of a pump -/

section Progress

variable {session : String} {steer : Option SlotId} {ok : Bool} {before after : PumpState}
  {action : PumpAction}

def PumpPhase.toDo : PumpPhase → Nat
  | .reading => 3
  | .sending _ => 5
  | .ended _ => 2
  | .saving _ => 1
  | .done _ => 0

/-- What the pump and a reading client can do at most. -/
def PumpState.toDo (state : PumpState) : Nat :=
  4 * state.left.length + state.phase.toDo + state.channel.buffer.length

/-- The pump and its client go on, and a save ends with the given outcome. -/
def PumpAction.onward (ok : Bool) : PumpAction → Prop
  | .hangUp => False
  | .elsewhere _ _ => False
  | .saved outcome => outcome = ok
  | _ => True

theorem toDo_step (onward : action.onward ok)
    (step : PumpStep session steer before action after) : after.toDo < before.toDo := by
  cases step with
  | readData =>
      simp only [PumpState.toDo, PumpPhase.toDo, List.length_cons]
      omega
  | readError =>
      simp only [PumpState.toDo, PumpPhase.toDo, List.length_cons]
      omega
  | readEnd => simp [PumpState.toDo, PumpPhase.toDo]
  | accepted sent =>
      obtain ⟨-, -, -, longer⟩ := Channel.send?_accepted sent
      simp only [PumpState.toDo, PumpPhase.toDo, longer]
      omega
  | refused sent =>
      obtain ⟨-, rfl⟩ := Channel.send?_refused sent
      simp [PumpState.toDo, PumpPhase.toDo]
  | received took =>
      obtain ⟨-, -, -, shorter⟩ := Channel.receive?_eq_some took
      simp only [PumpState.toDo, shorter]
      omega
  | hungUp live => exact onward.elim
  | save steered => simp [PumpState.toDo, PumpPhase.toDo]
  | abandon steered => simp [PumpState.toDo, PumpPhase.toDo]
  | leave free => simp [PumpState.toDo, PumpPhase.toDo]
  | saved => simp [PumpState.toDo, PumpPhase.toDo]
  | elsewhere foreign => exact onward.elim

/-- Where nothing goes on, the pump is done and a client that is there has read everything. -/
theorem done_of_stuck {state : PumpState}
    (stuck : ∀ action, action.onward ok → pumpStep session steer state action = none) :
    ∃ saved, state.phase = .done saved ∧
      (state.channel.live = true → state.channel.buffer = []) := by
  have drained : state.channel.live = true → state.channel.buffer = [] :=
    Channel.receive?_eq_none (Option.map_eq_none_iff.mp (stuck .receive trivial))
  obtain ⟨phase, left, channel, slots⟩ := state
  cases phase with
  | reading => cases stuck .read trivial
  | sending bytes =>
      have waits : channel.send? channelCapacity bytes = none :=
        Option.map_eq_none_iff.mp (stuck .send trivial)
      obtain ⟨live, full⟩ := Channel.send?_eq_none waits
      rw [drained live] at full
      cases full
  | ended ending => cases stuck .conclude trivial
  | saving id => cases stuck (.saved ok) rfl
  | done saved => exact ⟨saved, rfl, drained⟩

theorem pump_finishes {machine : Machine PumpState PumpAction}
    (steps : machine.step = pumpStep session steer) {allowed : PumpState → PumpAction → Prop}
    (included : ∀ state action, action.onward ok → allowed state action) {state : PumpState}
    (reached : machine.ReachedBy allowed state) :
    ∃ last saved, machine.ReachedBy allowed last ∧ last.phase = .done saved ∧
      (last.channel.live = true → last.channel.buffer = []) := by
  have decreases : ∀ before (action : PumpAction) after, action.onward ok →
      machine.step before action = some after → after.toDo < before.toDo := by
    intro before action after onward moved
    rw [steps] at moved
    exact toDo_step onward (pumpStep_of_moved moved)
  obtain ⟨last, reached', ended⟩ := reached.finishes PumpState.toDo included decreases
  rw [steps] at ended
  obtain ⟨saved, done, drained⟩ := done_of_stuck ended
  exact ⟨last, saved, reached', done, drained⟩

end Progress

/-- What a streamed turn delivers, when it is saved, and what a hang-up leads to. -/
theorem streamed_turn (session : String) (id : SlotId) (chunks : List Chunk)
    (slots : Registry) :
    (∀ state, (pump session (some id) chunks slots).Reachable state →
      state.channel.received <+: dataBefore chunks ∧
      (state.phase.saveStarted = true → state.Complete chunks) ∧
      (∀ saved, state.phase = .done saved →
        (state.phase.saveStarted = true ↔ state.Complete chunks)) ∧
      ∃ last saved, ((pump session (some id) chunks slots).startingAt state).Reachable last ∧
        last.phase = .done saved) ∧
    ∀ state dropped later, (pump session (some id) chunks slots).Reachable state →
      state.channel.accepted ≠ dataBefore chunks →
      pumpStep session (some id) state .hangUp = some dropped →
      ((pump session (some id) chunks slots).startingAt dropped).Reachable later →
        later.chunksRead chunks ≤ state.chunksRead chunks + 1 ∧
        later.phase.saveStarted = false ∧
        ∀ saved, later.phase = .done saved →
          later.slots.dirty id = false ∧ later.slots.owner id = none := by
  constructor
  · intro state reached
    have accounted := accounted_of_reachable reached
    refine ⟨?_, accounted.complete_of_saveStarted, ?_, ?_⟩
    · exact state.channel.delivered.trans accounted.accepted_prefix
    · intro saved done
      refine ⟨accounted.complete_of_saveStarted, fun complete => ?_⟩
      obtain ⟨phase, left, channel, slots'⟩ := state
      subst done
      cases saved with
      | some ok => rfl
      | none => exact absurd complete accounted.not_complete
    · have here : ((pump session (some id) chunks slots).startingAt state).Reachable state :=
        .initial rfl
      obtain ⟨last, saved, reached', done, -⟩ :=
        @pump_finishes session (some id) true _ rfl _ (fun _ _ _ => trivial) _ here
      exact ⟨last, saved, reached', done⟩
  · intro state dropped later reached short hung reached'
    have step := pumpStep_of_moved hung
    have accounted := accounted_of_reachable reached
    have accounted' := accounted.step step
    have doomed : dropped.Doomed chunks id state.left.length := by
      cases step with
      | hungUp live => exact accounted.doomed live short
    obtain ⟨-, final⟩ := reached'.invariant
      (fun later => later.Accounted chunks (some id) ∧
        later.Doomed chunks id state.left.length) (by
        rintro first rfl
        exact ⟨accounted', doomed⟩) (by
        rintro before action after ⟨known, lost⟩ _ moved
        have step := pumpStep_of_moved moved
        exact ⟨known.step step, lost.step known step⟩)
    obtain ⟨counted, unsaved, givenUp⟩ := final.outcome
    refine ⟨?_, unsaved, givenUp⟩
    unfold PumpState.chunksRead
    omega

end Ollm.Proxy
