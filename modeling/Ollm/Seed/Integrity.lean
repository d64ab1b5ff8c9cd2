import Ollm.Seed.Files
import Ollm.Seed.SecondSight

/-!
# Seed blob integrity

A visible blob is to be complete and to hold what the family's prompt left in a
slot.  A call looks at its slot before it prefills and before it saves, but
holds no lease on the slot and shares the scratch file with its family; what
others do to either in between ends up in the blob.
-/

namespace Ollm.Seed

open Json Keying
open Proxy (SlotId SlotState)
open Store (CallId seedBlobName)

/-- Complete, and left by the prompt that the bag keeps for the family. -/
structure Intact (sha256 : List UInt8 → Digest) (bag : Bag) (key : String)
    (file : File Content) : Prop where
  complete : file.complete = true
  prompt : ∃ entry, bag key = some entry ∧ Family sha256 key entry.system ∧
    file.content = .prefilled entry.system

/-- The backend reports which slots a prefill runs on, answers a prefill with success once it has
ended so, and writes a slot whole before it answers the save with success. -/
def Faithful (l : Local) (world : World) : Action → Prop
  | .report (some states) => ∀ s ∈ states, s.isProcessing = (world.running s.id).isSome
  | .prefillReply true => ∃ system, l.job = .ended system true
  | .write _ => l.phase ≠ .saving (some true)
  | .saveReply true => l.phase = .saving (some true)
  | _ => True

/-- The prefill has succeeded, and the call has yet to see the slot idle. -/
def Local.unconfirmed : Local → Bool
  | ⟨.prefilling, .ended _ true, _⟩ => true
  | ⟨.confirming, _, _⟩ => true
  | _ => false

/-- The slot was seen idle, and is not written to the scratch file yet. -/
def Phase.confirmed : Phase → Bool
  | .saving none | .saving (some false) => true
  | _ => false

/-- The scratch file is written, and not moved yet. -/
def Phase.written : Phase → Bool
  | .saving (some true) | .publishing false => true
  | _ => false

/-- An action of the call `d` leaves the slot and the scratch file of the call `c` alone: it
starts no prefill between the confirmation and the save of `c`, ends none that `c` would take for
its own, restores nothing under either, and tears no scratch file that `c` is about to publish. -/
def Spares (sha256 : List UInt8 → Digest) (calls : CallId → Call) (d c : CallId) (l : Local) :
    Action → Prop
  | .start => (calls c).slot = (calls d).slot → l.phase.confirmed = false
  | .finish _ => (calls c).slot = (calls d).slot → l.unconfirmed = false
  | .load => (calls c).slot = (calls d).slot → l.unconfirmed = false ∧ l.phase.confirmed = false
  | .write false => keyOf sha256 calls c = keyOf sha256 calls d → l.phase.written = false
  | _ => True

instance {l : Local} {world : World} {action : Action} : Decidable (Faithful l world action) :=
  match action with
  | .report (some states) => inferInstanceAs (Decidable (∀ s ∈ states, _ = _))
  | .prefillReply true =>
      match l with
      | ⟨_, .ended system true, _⟩ => isTrue ⟨system, rfl⟩
      | ⟨_, .ended _ false, _⟩ | ⟨_, .idle, _⟩ | ⟨_, .queued _, _⟩ | ⟨_, .running _, _⟩ =>
          isFalse nofun
  | .write _ => inferInstanceAs (Decidable (_ ≠ _))
  | .saveReply true => inferInstanceAs (Decidable (_ = _))
  | .begin | .report none | .recall | .load | .restoreReply _ | .enroll | .start | .finish _
  | .prefillReply false | .saveReply false | .move | .publishReply _ | .mark | .evict _ =>
      isTrue trivial

instance {sha256 : List UInt8 → Digest} {calls : CallId → Call} {d c : CallId} {l : Local}
    {action : Action} : Decidable (Spares sha256 calls d c l action) :=
  match action with
  | .start | .finish _ => inferInstanceAs (Decidable (_ → _))
  | .load => inferInstanceAs (Decidable (_ → _ ∧ _))
  | .write false => inferInstanceAs (Decidable (_ → _))
  | .begin | .report _ | .recall | .restoreReply _ | .enroll | .prefillReply _ | .write true
  | .saveReply _ | .move | .publishReply _ | .mark | .evict _ => isTrue trivial

def Undisturbed (sha256 : List UInt8 → Digest) (calls : CallId → Call) (config : DanceState)
    (event : CallId × Action) : Prop :=
  ∀ c, Spares sha256 calls event.1 c (config.locals c) event.2

/-! ## What holds of a call -/

def Job.system? : Job → Option Value
  | .idle => none
  | .queued system | .running system | .ended system _ => some system

/-- The content is what the family's prompt leaves. -/
def Prompted (bag : Bag) (key : String) (content : Content) : Prop :=
  ∃ entry, bag key = some entry ∧ content = .prefilled entry.system

/-- The call's view of its slot. -/
structure Seated (c : CallId) (slot : SlotId) (l : Local) (world : World) : Prop where
  running : ∀ system, l.job = .running system → world.running slot = some c
  ended : l.phase = .confirming ∨ l.phase.confirmed = true → ∃ system, l.job = .ended system true
  landed : ∀ system, l.job = .ended system true → l.unconfirmed = true →
    world.kv slot = .prefilled system ∨ (world.running slot).isSome = true
  confirmed : ∀ system, l.job = .ended system true → l.phase.confirmed = true →
    world.kv slot = .prefilled system ∧ world.running slot = none

/-- The call's view of the bag and the files. -/
structure Filed (sha256 : List UInt8 → Digest) (calls : CallId → Call) (c : CallId) (l : Local)
    (world : World) : Prop where
  prompt : ∀ system, l.job.system? = some system →
    Prompted world.bag (keyOf sha256 calls c) (.prefilled system)
  written : ∀ file, l.phase.written = true →
    world.dir (scratchOf sha256 calls c) = some file →
    file.complete = true ∧ Prompted world.bag (keyOf sha256 calls c) file.content

variable {sha256 : List UInt8 → Digest} {calls : CallId → Call} {c d : CallId}

theorem Prompted.bagStep {bag bag' : Bag} {phase : Phase} {key : String} {content : Content}
    (prompted : Prompted bag key content) (step : BagStep sha256 calls d bag phase bag')
    (sound : BagSound sha256 bag) : Prompted bag' key content := by
  obtain ⟨entry, found, rfl⟩ := prompted
  obtain ⟨entry', found', same⟩ := step.keeps sound found
  exact ⟨entry', found', by rw [same]⟩

/-- Faithful reports show a slot idle only while nothing runs on it. -/
theorem running_of_isLanded {l : Local} {world : World} {slot : SlotId}
    {reply : Option (List SlotState)} (faithful : Faithful l world (.report reply))
    (landed : isLanded slot reply = true) : world.running slot = none := by
  unfold isLanded stateOf at landed
  cases reply with
  | none => cases landed
  | some states =>
      cases found : states.find? (·.id == slot) with
      | none => simp [found] at landed
      | some s =>
          have member := List.mem_of_find?_eq_some found
          have here : s.id = slot := by simpa using List.find?_some found
          simp only [Option.bind_some, found, Option.any_some, Bool.and_eq_true,
            Bool.not_eq_true'] at landed
          have quiet := faithful s member
          rw [landed.1, here] at quiet
          exact Option.isSome_eq_false_iff.mp quiet.symm |> Option.isNone_iff_eq_none.mp

/-- A faithful backend writes a slot once for a save. -/
theorem confirmed_of_write {l : Local} {world : World} {complete : Bool} {wrote : Option Bool}
    (faithful : Faithful l world (.write complete)) (saves : l.phase = .saving wrote) :
    l.phase.confirmed = true := by
  rcases wrote with _ | _ | _
  · rw [saves]; rfl
  · rw [saves]; rfl
  · exact absurd saves faithful

/-! ## Slots -/

/-- A call confirms and saves only once its prefill has ended. -/
theorem Seated.early {slot : SlotId} {l : Local} {world : World}
    (seated : Seated c slot l world) (underWay : ∀ system, l.job ≠ .ended system true) :
    ¬ (l.phase = .confirming ∨ l.phase.confirmed = true) := by
  intro later
  obtain ⟨system, ended⟩ := seated.ended later
  exact underWay system ended

theorem Seated.goOn {slot : SlotId} {l l' : Local} {world world' : World}
    (seated : Seated c slot l world) (job : l'.job = l.job)
    (running : world'.running = world.running) (unconfirmed : l'.unconfirmed = false)
    (confirmed : l'.phase.confirmed = false) : Seated c slot l' world' where
  running system runs := by
    rw [running]
    exact seated.running system (job ▸ runs)
  ended := by
    rintro (confirming | saving)
    · rcases l' with ⟨phase, job', trace⟩
      obtain rfl : phase = .confirming := confirming
      cases unconfirmed
    · rw [confirmed] at saving
      cases saving
  landed system _ later := by
    rw [unconfirmed] at later
    cases later
  confirmed system _ later := by
    rw [confirmed] at later
    cases later

theorem Step.seated {action : Action} {l l' : Local} {world world' : World}
    (step : Step sha256 calls c action l world l' world') (faithful : Faithful l world action)
    (seated : Seated c (calls c).slot l world) : Seated c (calls c).slot l' world' := by
  cases step with
  | @start phase system =>
      have early := seated.early nofun
      refine ⟨fun _ _ => Function.update_self _ _ _, fun later => absurd later early, ?_, ?_⟩
      · rintro _ ⟨⟩
      · rintro _ ⟨⟩
  | @finish ok phase system =>
      have early := seated.early nofun
      refine ⟨?_, fun later => absurd later early, ?_, fun _ _ later =>
        absurd (.inr later) early⟩
      · rintro _ ⟨⟩
      · rintro _ ⟨⟩ -
        exact .inl (Function.update_self _ _ _)
  | enroll =>
      refine ⟨?_, ?_, ?_, ?_⟩
      · rintro _ ⟨⟩
      · rintro (⟨⟨⟩⟩ | ⟨⟨⟩⟩)
      · rintro _ ⟨⟩
      · rintro _ ⟨⟩
  | prefilled =>
      obtain ⟨system, ended⟩ := faithful
      refine ⟨seated.running, fun _ => ⟨system, ended⟩, fun _ ended' _ => ?_, ?_⟩
      · apply seated.landed _ ended'
        simp only at ended
        rw [ended]
        rfl
      · rintro _ _ ⟨⟩
  | @confirmed reply job trace world landed =>
      have quiet := running_of_isLanded faithful landed
      refine ⟨seated.running, fun _ => seated.ended (.inl rfl), ?_, fun system ended _ => ?_⟩
      · rintro _ _ ⟨⟩
      · rcases seated.landed system ended rfl with held | busy
        · exact ⟨held, quiet⟩
        · rw [quiet] at busy
          cases busy
  | @write complete wrote =>
      have confirmed := confirmed_of_write faithful rfl
      refine ⟨seated.running, fun _ => seated.ended (.inr confirmed), ?_, fun system ended _ => ?_⟩
      · rintro _ _ ⟨⟩
      · exact seated.confirmed system ended confirmed
  | evict => exact ⟨seated.running, seated.ended, seated.landed, seated.confirmed⟩
  | _ => exact seated.goOn rfl rfl rfl rfl

theorem Step.slot_of_ne {action : Action} {l l' : Local} {world world' : World} {slot : SlotId}
    (step : Step sha256 calls d action l world l' world') (other : slot ≠ (calls d).slot) :
    world'.kv slot = world.kv slot ∧ world'.running slot = world.running slot := by
  cases step with
  | start => exact ⟨Function.update_of_ne other _ _, Function.update_of_ne other _ _⟩
  | finish => exact ⟨Function.update_of_ne other _ _, Function.update_of_ne other _ _⟩
  | load => exact ⟨Function.update_of_ne other _ _, rfl⟩
  | _ => exact ⟨rfl, rfl⟩

/-- Actions on other slots, and actions that spare the call, leave its slot to it. -/
theorem Step.seated_other {action : Action} {l l' other : Local} {world world' : World}
    (step : Step sha256 calls d action l world l' world')
    (spares : Spares sha256 calls d c other action) (distinct : c ≠ d)
    (actor : Seated d (calls d).slot l world)
    (seated : Seated c (calls c).slot other world) : Seated c (calls c).slot other world' := by
  by_cases same : (calls c).slot = (calls d).slot
  · cases step with
    | start free =>
        have early := spares same
        refine ⟨fun system runs => ?_, seated.ended, fun _ _ _ => ?_, fun _ _ later => ?_⟩
        · have busy := seated.running system runs
          rw [same, free] at busy
          cases busy
        · exact .inr (by simp [same])
        · rw [early] at later
          cases later
    | @finish ok phase system =>
        have running := actor.running system rfl
        have early := spares same
        refine ⟨fun system runs => ?_, seated.ended, fun _ _ later => ?_, fun _ ended later => ?_⟩
        · have busy := seated.running system runs
          rw [same, running] at busy
          exact absurd (Option.some.inj busy).symm distinct
        · rw [early] at later
          cases later
        · have quiet := (seated.confirmed _ ended later).2
          rw [same, running] at quiet
          cases quiet
    | load =>
        have early := spares same
        refine ⟨seated.running, seated.ended, fun _ _ later => ?_, fun _ _ later => ?_⟩
        · rw [early.1] at later
          cases later
        · rw [early.2] at later
          cases later
    | _ => exact ⟨seated.running, seated.ended, seated.landed, seated.confirmed⟩
  · have kept := step.slot_of_ne same
    refine ⟨?_, seated.ended, ?_, ?_⟩
    · rw [kept.2]
      exact seated.running
    · rw [kept.1, kept.2]
      exact seated.landed
    · rw [kept.1, kept.2]
      exact seated.confirmed

/-! ## Files -/

/-- What a faithful backend writes for a save is what the call prefilled. -/
theorem prompted_of_write {l : Local} {world : World} {complete : Bool} {wrote : Option Bool}
    (faithful : Faithful l world (.write complete)) (saves : l.phase = .saving wrote)
    (seated : Seated c (calls c).slot l world) (filed : Filed sha256 calls c l world) :
    Prompted world.bag (keyOf sha256 calls c) (world.kv (calls c).slot) := by
  have confirmed := confirmed_of_write faithful saves
  obtain ⟨system, ended⟩ := seated.ended (.inr confirmed)
  rw [(seated.confirmed system ended confirmed).1]
  apply filed.prompt
  rw [ended]
  rfl

theorem Step.prompted {action : Action} {l l' : Local} {world world' : World}
    (step : Step sha256 calls c action l world l' world') (sound : BagSound sha256 world.bag)
    (filed : Filed sha256 calls c l world) (system : Value)
    (prefills : l'.job.system? = some system) :
    Prompted world'.bag (keyOf sha256 calls c) (.prefilled system) := by
  have kept : l.job.system? = some system →
      Prompted world'.bag (keyOf sha256 calls c) (.prefilled system) := by
    intro earlier
    exact (filed.prompt system earlier).bagStep step.bagStep sound
  cases step with
  | enroll prompt =>
      obtain rfl := Option.some.inj prefills
      exact ⟨_, Function.update_self _ _ _, by rw [prompt]⟩
  | _ => exact kept prefills

theorem Step.filed {action : Action} {l l' : Local} {world world' : World}
    (step : Step sha256 calls c action l world l' world') (faithful : Faithful l world action)
    (sound : BagSound sha256 world.bag) (seated : Seated c (calls c).slot l world)
    (filed : Filed sha256 calls c l world) : Filed sha256 calls c l' world' := by
  refine ⟨step.prompted sound filed, fun file written found => ?_⟩
  cases step with
  | @write complete wrote =>
      have prompted := prompted_of_write faithful rfl seated filed
      cases complete with
      | false => cases written
      | true =>
          rcases Directory.write_eq_some found with ⟨-, rfl⟩ | ⟨other, -⟩
          · exact ⟨rfl, prompted⟩
          · exact absurd rfl other
  | saved =>
      apply filed.written file _ found
      rw [faithful]
      rfl
  | start => exact filed.written file written found
  | finish => exact filed.written file written found
  | evict => exact filed.written file written (Directory.remove_eq_some found).2
  | _ => cases written

/-- Saves of the family rewrite the scratch file with the same state. -/
theorem Step.filed_other {action : Action} {l l' other : Local} {world world' : World}
    (step : Step sha256 calls d action l world l' world') (faithful : Faithful l world action)
    (spares : Spares sha256 calls d c other action) (sound : BagSound sha256 world.bag)
    (actor : Seated d (calls d).slot l world) (actorFiled : Filed sha256 calls d l world)
    (filed : Filed sha256 calls c other world) : Filed sha256 calls c other world' := by
  refine ⟨fun system prefills => ?_, fun file written found => ?_⟩
  · exact (filed.prompt system prefills).bagStep step.bagStep sound
  · rcases step.dirStep.scratch found with before | ⟨complete, wrote, rfl, saves, family, rfl⟩
    · obtain ⟨whole, prompted⟩ := filed.written file written before
      exact ⟨whole, prompted.bagStep step.bagStep sound⟩
    · have prompted := prompted_of_write faithful saves actor actorFiled
      rw [← family] at prompted
      cases complete with
      | true => exact ⟨rfl, prompted.bagStep step.bagStep sound⟩
      | false =>
          rw [spares family] at written
          cases written

/-- What holds of all calls and of the visible blobs. -/
structure BlobInvariant (sha256 : List UInt8 → Digest) (calls : CallId → Call)
    (config : DanceState) : Prop where
  seated : ∀ c, Seated c (calls c).slot (config.locals c) config.world
  filed : ∀ c, Filed sha256 calls c (config.locals c) config.world
  blobs : ∀ key file, config.world.dir (seedBlobName key) = some file →
    file.complete = true ∧ Prompted config.world.bag key file.content

/-- The backend is faithful, and the calls leave each other's slots and scratch files alone. -/
def Careful (sha256 : List UInt8 → Digest) (calls : CallId → Call) (config : DanceState)
    (event : CallId × Action) : Prop :=
  Faithful (config.locals event.1) config.world event.2 ∧
    Undisturbed sha256 calls config event

theorem BlobInvariant.step {before after : DanceState} {event : CallId × Action}
    (holds : BlobInvariant sha256 calls before) (sound : BagSound sha256 before.world.bag)
    (careful : Careful sha256 calls before event)
    (moved : (dance sha256 calls .empty).machine.step before event = some after) :
    BlobInvariant sha256 calls after := by
  obtain ⟨d, action⟩ := event
  obtain ⟨faithful, undisturbed⟩ := careful
  obtain ⟨step, others⟩ := step_of_moved moved
  refine ⟨fun c => ?_, fun c => ?_, fun key file found => ?_⟩
  · by_cases own : c = d
    · subst own
      exact step.seated faithful (holds.seated c)
    · rw [others c own]
      exact step.seated_other (undisturbed c) own (holds.seated d) (holds.seated c)
  · by_cases own : c = d
    · subst own
      exact step.filed faithful sound (holds.seated c) (holds.filed c)
    · rw [others c own]
      exact step.filed_other faithful (undisturbed c) sound (holds.seated d) (holds.filed d)
        (holds.filed c)
  · have intact : file.complete = true ∧ Prompted before.world.bag key file.content := by
      rcases step.dirStep.blob found with earlier | ⟨publishes, rfl, scratch⟩
      · exact holds.blobs key file earlier
      · apply (holds.filed d).written file _ scratch
        rw [publishes]
        rfl
    exact ⟨intact.1, intact.2.bagStep step.bagStep sound⟩

/-- In runs of a faithful backend in which no call disturbs another's slot or scratch file, every
visible blob is complete and was left by the prompt of its family. -/
theorem visible_blobs_intact {config : DanceState}
    (reached : (dance sha256 calls .empty).machine.ReachedBy (Careful sha256 calls) config) :
    ∀ key file, config.world.dir (seedBlobName key) = some file →
      Intact sha256 config.world.bag key file := by
  have sound : ∀ config, (dance sha256 calls .empty).machine.ReachedBy (Careful sha256 calls)
      config → BagSound sha256 config.world.bag := by
    intro config reached
    exact (bagInvariant_of_reachable (reached.mono fun _ _ _ => trivial)).sound
  have holds : BlobInvariant sha256 calls config := by
    refine (reached.attach sound).invariant (BlobInvariant sha256 calls) ?_ ?_
    · rintro config ⟨fresh, started⟩
      refine ⟨fun c => ?_, fun c => ?_, fun key file found => ?_⟩
      · rw [started]
        refine ⟨?_, ?_, ?_, ?_⟩
        · rintro _ ⟨⟩
        · rintro (⟨⟨⟩⟩ | ⟨⟨⟩⟩)
        · rintro _ ⟨⟩
        · rintro _ ⟨⟩
      · rw [started]
        refine ⟨?_, ?_⟩
        · rintro _ ⟨⟩
        · rintro _ ⟨⟩
      · rw [fresh.blobs key] at found
        cases found
    · intro before event after earlier allowed moved
      exact earlier.step allowed.2 allowed.1 moved
  intro key file found
  obtain ⟨complete, entry, known, content⟩ := holds.blobs key file found
  exact ⟨complete, entry, known, sound config reached key entry known, content⟩

/-! ## Runs -/

/-- Every digest repeats the length of what is hashed. -/
def lengthHash : List UInt8 → Digest :=
  fun input => ⟨List.replicate 32 (UInt8.ofNat input.length), List.length_replicate⟩

/-- Calls of two families on one slot. -/
def oneSlot : CallId → Call
  | 0 => ⟨0, promptOf "sys"⟩
  | _ => ⟨0, promptOf "system"⟩

/-- The second family is prefilled between the confirmation and the save of the first one. -/
def prefilledUnderSave : List (CallId × Action) :=
  admitted 0 ++ [(0, .start), (0, .finish true)] ++ admitted 1 ++
    [(0, .prefillReply true), (0, idleAt [0]), (1, .start), (1, .finish true), (0, .write true),
      (0, .saveReply true), (0, .move)]

theorem prefilledUnderSave_mixes :
    ¬ ∀ (sha256 : List UInt8 → Digest) (calls : CallId → Call) (config : DanceState),
      (dance sha256 calls .empty).machine.ReachedBy
        (fun config event => Faithful (config.locals event.1) config.world event.2) config →
      ∀ key file, config.world.dir (seedBlobName key) = some file →
        Intact sha256 config.world.bag key file := by
  intro intact
  have executed : (((dance lengthHash oneSlot .empty).machine.run
      (fun config event => decide (Faithful (config.locals event.1) config.world event.2))
      danceStart prefilledUnderSave).map fun config =>
        ((config.world.bag (keyOf lengthHash oneSlot 0)).map (·.system),
          (config.world.dir (blobOf lengthHash oneSlot 0)).map (·.content))) =
      some (some (.array (systemMessages (promptOf "sys"))),
        some (.prefilled (.array (systemMessages (promptOf "system"))))) := by
    rfl
  obtain ⟨config, reached, observed⟩ := Machine.reachedBy_of_observed
    (fun _ _ checked => of_decide_eq_true checked) (initial_danceStart lengthHash oneSlot) executed
  obtain ⟨kept, visible⟩ := Prod.mk.inj observed
  obtain ⟨file, found, content⟩ := Option.map_eq_some_iff.mp visible
  obtain ⟨-, entry, known, -, left⟩ := intact _ _ config reached _ file found
  rw [known] at kept
  have own : entry.system = .array (systemMessages (promptOf "sys")) := Option.some.inj kept
  rw [left, own] at content
  have texts := congrArg Value.text (Content.prefilled.inj content)
  exact absurd texts (by decide)

/-- A check for `Careful` when only the first `n` calls have started. -/
def carefulAmong (sha256 : List UInt8 → Digest) (calls : CallId → Call) (n : Nat)
    (config : DanceState) (event : CallId × Action) : Bool :=
  decide (event.1 < n) && decide (Faithful (config.locals event.1) config.world event.2) &&
    (List.range n).all fun c => decide (Spares sha256 calls event.1 c (config.locals c) event.2)

theorem spares_fresh (action : Action) : Spares sha256 calls d c .fresh action := by
  cases action with
  | start | finish => exact fun _ => rfl
  | load => exact fun _ => ⟨rfl, rfl⟩
  | write complete =>
      cases complete with
      | true => trivial
      | false => exact fun _ => rfl
  | _ => trivial

theorem careful_of_carefulAmong {n : Nat} {config : DanceState} {event : CallId × Action}
    (unstarted : (dance sha256 calls .empty).Unstarted n config)
    (checked : carefulAmong sha256 calls n config event = true) :
    Careful sha256 calls config event := by
  simp only [carefulAmong, Bool.and_eq_true, decide_eq_true_eq, List.all_eq_true,
    List.mem_range] at checked
  refine ⟨checked.1.2, fun c => ?_⟩
  by_cases started : c < n
  · exact checked.2 c started
  · rw [unstarted c (Nat.le_of_not_lt started)]
    exact spares_fresh event.2

/-- Calls of two families on two slots. -/
def twoSlots : CallId → Call
  | 0 => ⟨0, promptOf "sys"⟩
  | _ => ⟨1, promptOf "system"⟩

/-- Both dances are interleaved, and both blobs are intact. -/
theorem visible_blobs_intact_two_slots :
    ∃ config : DanceState,
      blobOf lengthHash twoSlots 0 ≠ blobOf lengthHash twoSlots 1 ∧
      (config.world.dir (blobOf lengthHash twoSlots 0)).isSome = true ∧
      (config.world.dir (blobOf lengthHash twoSlots 1)).isSome = true ∧
      ∀ key file, config.world.dir (seedBlobName key) = some file →
        Intact lengthHash config.world.bag key file := by
  have executed : (((dance lengthHash twoSlots .empty).machine.run
      (carefulAmong lengthHash twoSlots 2) danceStart
      (admitted 0 ++ admitted 1 ++ danced 0 ++ danced 1)).map fun config =>
        ((config.world.dir (blobOf lengthHash twoSlots 0)).isSome,
          (config.world.dir (blobOf lengthHash twoSlots 1)).isSome)) = some (true, true) := by
    rfl
  obtain ⟨config, ran, observed⟩ := Option.map_eq_some_iff.mp executed
  obtain ⟨first, second⟩ := Prod.mk.inj observed
  have reached : (dance lengthHash twoSlots .empty).machine.ReachedBy (Careful lengthHash twoSlots)
      config := by
    refine (dance lengthHash twoSlots .empty).reachedBy_of_run_among 2 ?_ ?_
      (initial_danceStart lengthHash twoSlots) ran
    · intro config event checked
      simp only [carefulAmong, Bool.and_eq_true, decide_eq_true_eq] at checked
      exact checked.1.1
    · intro config event unstarted checked
      exact careful_of_carefulAmong unstarted checked
  refine ⟨config, by decide, first, second, ?_⟩
  exact visible_blobs_intact reached

end Ollm.Seed
