import Ollm.Proxy.Delivery

/-!
# Streamed and collected bodies

A turn that is not streamed is collected to its end and then saved.  For a
client that reads everything both kinds of turn deliver the same bytes, and
they treat the slot alike as long as no chunk is an error.  A collected body
that breaks off is saved all the same, a streamed one is not.
-/

namespace Ollm.Proxy

/-- `collect_body`. -/
def collectBody : List Chunk → Bytes
  | .data bytes :: rest => bytes ++ collectBody rest
  | .error :: _ => []
  | [] => []

/-- The post-turn task: claim the slot, and mark it clean if the save succeeds. -/
def postTurn (session : String) (id : SlotId) (ok : Bool) (slots : Registry) : Registry :=
  let claimed := slots.relabel id session
  if ok then claimed.markClean id else claimed

/-- What a turn leaves to its client and in the registry. -/
structure TurnEnd where
  delivered : Bytes
  published : Bool
  owner : Option String
  dirty : Bool
  deriving DecidableEq, Repr

def TurnEnd.of (id : SlotId) (delivered : Bytes) (published : Bool) (slots : Registry) :
    TurnEnd :=
  ⟨delivered, published, slots.owner id, slots.dirty id⟩

section Turns

variable (session : String) (id : SlotId) (chunks : List Chunk) (slots : Registry) (ok : Bool)

/-- A turn that is not streamed; `ok` is the outcome of its save. -/
def collectedEnd : TurnEnd :=
  .of id (collectBody chunks) true (postTurn session id ok slots)

/-- A streamed turn whose client reads to the end; `ok` is the outcome of its save, if any. -/
def StreamedEnd (outcome : TurnEnd) : Prop :=
  ∃ state saved,
    (pump session (some id) chunks slots).ReachedBy (fun _ action => action ≠ .hangUp) state ∧
    state.phase = .done saved ∧ state.channel.buffer = [] ∧ (saved = none ∨ saved = some ok) ∧
    outcome = .of id state.channel.received.flatten saved.isSome state.slots

/-- Both kinds of turn end alike, and neither saves a body that broke off. -/
def TurnsAgree : Prop :=
  ∀ ok, (∃ outcome, StreamedEnd session id chunks slots ok outcome) ∧
    ∀ outcome, StreamedEnd session id chunks slots ok outcome →
      outcome = collectedEnd session id chunks slots ok ∧
        (hasError chunks = true → outcome.published = false)

end Turns

theorem collectBody_eq (chunks : List Chunk) :
    collectBody chunks = (dataBefore chunks).flatten := by
  induction chunks with
  | nil => rfl
  | cons chunk rest inductionHypothesis =>
      cases chunk with
      | error => rfl
      | data bytes => rw [collectBody, dataBefore, List.flatten_cons, inductionHypothesis]

theorem lookup_update_congr {g h : Registry} {id : SlotId} (same : g.lookup id = h.lookup id)
    (change : SlotInfo → SlotInfo) :
    (g.update id change).lookup id = (h.update id change).lookup id := by
  unfold Registry.update
  rw [same]
  cases found : h.lookup id with
  | none => rw [same, found]
  | some info => rw [AList.lookup_insert, AList.lookup_insert]

section Reading

variable {session : String} {id : SlotId} {chunks : List Chunk} {slots : Registry}
  {before after state : PumpState} {action : PumpAction}

/-- With a client that stays, only the pump itself changes the slot of the turn. -/
structure PumpState.Kept (session : String) (id : SlotId) (slots : Registry)
    (state : PumpState) : Prop where
  live : state.channel.live = true
  slot : match state.phase with
    | .saving other => other = id ∧
        state.slots.lookup id = (slots.relabel id session).lookup id
    | .done (some ok) => state.slots.lookup id = (postTurn session id ok slots).lookup id
    | .ended .hungUp => False
    | .done none => True
    | _ => state.slots.lookup id = slots.lookup id

theorem PumpState.Kept.step (kept : before.Kept session id slots) (stays : action ≠ .hangUp)
    (step : PumpStep session (some id) before action after) : after.Kept session id slots := by
  obtain ⟨live, slot⟩ := kept
  cases step with
  | readData => exact ⟨live, slot⟩
  | readError => exact ⟨live, slot⟩
  | readEnd => exact ⟨live, slot⟩
  | accepted sent =>
      obtain ⟨-, live', -⟩ := Channel.send?_accepted sent
      exact ⟨live', slot⟩
  | refused sent =>
      have gone := (Channel.send?_refused sent).1
      rw [live] at gone
      cases gone
  | received took => exact ⟨(Channel.receive?_eq_some took).2.1, slot⟩
  | hungUp live => exact absurd rfl stays
  | save steered =>
      obtain rfl := Option.some.inj steered
      exact ⟨live, rfl, lookup_update_congr slot _⟩
  | abandon steered => exact slot.elim
  | leave free => exact ⟨live, trivial⟩
  | saved =>
      rename_i ok other left channel current
      obtain ⟨rfl, claimed⟩ := slot
      refine ⟨live, ?_⟩
      cases ok with
      | true => exact lookup_update_congr claimed _
      | false => exact claimed
  | elsewhere foreign =>
      rename_i other info phase left channel current
      have apart : id ≠ other := fun same => foreign (congrArg some same)
      have unchanged : (current.insert other info).lookup id = current.lookup id :=
        AList.lookup_insert_ne apart
      refine ⟨live, ?_⟩
      cases phase with
      | ended ending => cases ending <;> first | exact slot.elim | exact unchanged.trans slot
      | saving other => exact ⟨slot.1, unchanged.trans slot.2⟩
      | done saved =>
          cases saved with
          | none => trivial
          | some ok => exact unchanged.trans slot
      | _ => exact unchanged.trans slot

theorem kept_of_reachedBy
    (reached : (pump session (some id) chunks slots).ReachedBy
      (fun _ action => action ≠ .hangUp) state) : state.Kept session id slots := by
  refine reached.invariant (fun state => state.Kept session id slots) ?_ ?_
  · rintro state rfl
    exact ⟨rfl, rfl⟩
  · intro before action after kept stays moved
    exact kept.step stays (pumpStep_of_moved moved)

/-- A client that stays to the end of the turn receives what `collect_body` collects. -/
theorem received_of_done {saved : Option Bool}
    (reached : (pump session (some id) chunks slots).ReachedBy
      (fun _ action => action ≠ .hangUp) state)
    (done : state.phase = .done saved) (drained : state.channel.buffer = []) :
    state.channel.received.flatten = collectBody chunks ∧
      (saved.isSome = true ↔ hasError chunks = false) := by
  have live := (kept_of_reachedBy reached).live
  have accounted := accounted_of_reachable (reached.mono fun _ _ _ => trivial)
  rw [collectBody_eq, Channel.received_eq_accepted live drained]
  obtain ⟨phase, left, channel, current⟩ := state
  subst done
  cases saved with
  | some ok =>
      obtain ⟨clean, all⟩ : Ended chunks channel .complete := accounted
      exact ⟨congrArg List.flatten all, by simp [clean]⟩
  | none =>
      obtain ⟨ending, known, unsteered, -⟩ := accounted
      cases ending with
      | complete => cases unsteered rfl
      | broken => exact ⟨congrArg List.flatten known.2, by simp [known.1]⟩
      | hungUp =>
          have gone := known.1
          rw [live] at gone
          cases gone

/-- Whatever a save will answer, a streamed turn comes to its end. -/
theorem exists_streamedEnd (session : String) (id : SlotId) (chunks : List Chunk)
    (slots : Registry) (ok : Bool) :
    ∃ outcome, StreamedEnd session id chunks slots ok outcome := by
  have start : (pump session (some id) chunks slots).ReachedBy
      (fun _ action => action ≠ .hangUp ∧ ∀ answer, action = .saved answer → answer = ok)
      (pumpStart chunks slots) := .initial rfl
  obtain ⟨last, saved, reached, done, drained⟩ := @pump_finishes session (some id) ok _ rfl _ (by
    intro _ action onward
    cases action with
    | hangUp => exact onward.elim
    | elsewhere other info => exact onward.elim
    | saved answer =>
        refine ⟨PumpAction.noConfusion, ?_⟩
        rintro _ ⟨⟩
        exact onward
    | _ => exact ⟨PumpAction.noConfusion, fun _ => PumpAction.noConfusion⟩) _ start
  have answered : ∀ answer, last.phase = .done (some answer) → answer = ok := by
    refine reached.invariant
      (fun state => ∀ answer, state.phase = .done (some answer) → answer = ok) ?_ ?_
    · rintro state rfl answer ⟨⟩
    · rintro before action after known ⟨-, expected⟩ moved
      cases pumpStep_of_moved moved with
      | saved =>
          rintro answer ⟨⟩
          exact expected _ rfl
      | received took => exact known
      | hungUp live => exact known
      | elsewhere foreign => exact known
      | _ => rintro answer ⟨⟩
  have reached' := reached.mono fun _ _ allowed => allowed.1
  refine ⟨_, last, saved, reached', done, drained (kept_of_reachedBy reached').live, ?_, rfl⟩
  cases saved with
  | none => exact .inl rfl
  | some answer => exact .inr (congrArg some (answered answer done))

theorem streamedEnd_eq {ok : Bool} {outcome : TurnEnd}
    (ends : StreamedEnd session id chunks slots ok outcome) (clean : hasError chunks = false) :
    outcome = collectedEnd session id chunks slots ok := by
  obtain ⟨state, saved, reached, done, drained, same, rfl⟩ := ends
  obtain ⟨delivered, published⟩ := received_of_done reached done drained
  have started := published.mpr clean
  rcases same with rfl | rfl
  · cases started
  · have kept := (kept_of_reachedBy reached).slot
    rw [done] at kept
    have current : state.slots.lookup id = (postTurn session id ok slots).lookup id := kept
    rw [collectedEnd, TurnEnd.of, TurnEnd.of, delivered, Registry.owner, Registry.dirty,
      Registry.entry, current]
    rfl

end Reading

/-- Streamed and collected turns agree exactly on bodies without an error. -/
theorem turns_agree_iff (session : String) (id : SlotId) (chunks : List Chunk)
    (slots : Registry) :
    TurnsAgree session id chunks slots ↔ hasError chunks = false := by
  constructor
  · intro agree
    by_contra broken
    rw [Bool.not_eq_false] at broken
    obtain ⟨⟨outcome, ends⟩, alike⟩ := agree true
    obtain ⟨same, unpublished⟩ := alike outcome ends
    have published := unpublished broken
    rw [same] at published
    cases published
  · intro clean ok
    refine ⟨exists_streamedEnd session id chunks slots ok, fun outcome ends => ?_⟩
    refine ⟨streamedEnd_eq ends clean, fun broken => ?_⟩
    rw [clean] at broken
    cases broken

def brokenBody : List Chunk :=
  [.data [104, 105], .error]

/-- Of a body that breaks off after two bytes, the collected turn is saved and the
streamed one is not. -/
theorem turns_disagree_broken :
    ¬ TurnsAgree "hdr-a" 0 brokenBody (Registry.markDirty ∅ 0 "hdr-a") := by
  intro agree
  have executed : ((pump "hdr-a" (some 0) brokenBody (Registry.markDirty ∅ 0 "hdr-a")).run
      (fun _ action => decide (action ≠ .hangUp))
      (pumpStart brokenBody (Registry.markDirty ∅ 0 "hdr-a"))
      [.read, .send, .receive, .read, .conclude]).map (fun state =>
        (state.phase, state.channel.buffer)) = some (.done none, []) := by
    rfl
  obtain ⟨state, reached, observed⟩ := Machine.reachedBy_of_observed
    (fun _ _ checked => of_decide_eq_true checked) (initial_pumpStart _ _ _ _) executed
  obtain ⟨done, drained⟩ := Prod.mk.inj observed
  have ends := (agree true).2 _ ⟨state, none, reached, done, drained, .inl rfl, rfl⟩
  have published := congrArg TurnEnd.published ends.1
  cases published

end Ollm.Proxy
