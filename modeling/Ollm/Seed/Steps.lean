import Ollm.Seed.Dance

/-!
# The steps of a dance

`Step` lists what one action of a call can do, one constructor for each await
it can go on from.  Everything about the dance is proved by cases on it.
-/

namespace Ollm.Seed

open Json Keying
open Proxy (SlotId SlotState)
open Store (CallId seedBlobName)

variable (sha256 : List UInt8 → Digest) (calls : CallId → Call) (c : CallId)

inductive Step : Action → Local → World → Local → World → Prop where
  | begin {job trace world key} (hashed : systemHash sha256 (calls c).messages = some key) :
      Step .begin ⟨.waiting, job, trace⟩ world ⟨.gating, job, trace ++ [.slots]⟩ world
  | beginUnkeyed {job trace world} (unkeyed : systemHash sha256 (calls c).messages = none) :
      Step .begin ⟨.waiting, job, trace⟩ world ⟨.returned .skipped, job, trace⟩ world
  | gated {reply job trace world} (idle : isIdle (calls c).slot reply = true) :
      Step (.report reply) ⟨.gating, job, trace⟩ world
        ⟨.recalling, job, trace ++ [.slotsReply reply]⟩ world
  | turnedAway {reply job trace world} (busy : isIdle (calls c).slot reply = false) :
      Step (.report reply) ⟨.gating, job, trace⟩ world
        ⟨.returned .skipped, job, trace ++ [.slotsReply reply]⟩ world
  | recalled {job trace world} (cached : world.bag.isCached (keyOf sha256 calls c) = true) :
      Step .recall ⟨.recalling, job, trace⟩ world
        ⟨.restoring false, job,
          trace ++ [.restore (calls c).slot (blobOf sha256 calls c)]⟩ world
  | unknown {job trace world} (unknown : world.bag.isCached (keyOf sha256 calls c) = false) :
      Step .recall ⟨.recalling, job, trace⟩ world ⟨.enrolling, job, trace⟩ world
  | load {loaded job trace world file}
      (found : world.dir (blobOf sha256 calls c) = some file) :
      Step .load ⟨.restoring loaded, job, trace⟩ world ⟨.restoring true, job, trace⟩
        { world with kv := Function.update world.kv (calls c).slot file.content }
  | restored {loaded job trace world} :
      Step (.restoreReply true) ⟨.restoring loaded, job, trace⟩ world
        ⟨.returned .restored, job, trace ++ [.restoreReply true]⟩ world
  | notRestored {loaded job trace world} :
      Step (.restoreReply false) ⟨.restoring loaded, job, trace⟩ world
        ⟨.returned .coldPrefill, job, trace ++ [.restoreReply false]⟩ world
  | enroll {job trace world system}
      (prompt :
        (world.bag.enrolled (keyOf sha256 calls c) (calls c).messages).system = system) :
      Step .enroll ⟨.enrolling, job, trace⟩ world
        ⟨.prefilling, .queued system, trace ++ [.prefill (calls c).slot system]⟩
        { world with bag := world.bag.enroll (keyOf sha256 calls c) (calls c).messages }
  | start {phase system trace world} (free : world.running (calls c).slot = none) :
      Step .start ⟨phase, .queued system, trace⟩ world ⟨phase, .running system, trace⟩
        { world with
          kv := Function.update world.kv (calls c).slot .torn
          running := Function.update world.running (calls c).slot (some c) }
  | finish {ok phase system trace world} :
      Step (.finish ok) ⟨phase, .running system, trace⟩ world ⟨phase, .ended system ok, trace⟩
        { world with
          kv := Function.update world.kv (calls c).slot (if ok then .prefilled system else .torn)
          running := Function.update world.running (calls c).slot none }
  | prefilled {job trace world} :
      Step (.prefillReply true) ⟨.prefilling, job, trace⟩ world
        ⟨.confirming, job, trace ++ [.prefillReply true, .slots]⟩ world
  | notPrefilled {job trace world} :
      Step (.prefillReply false) ⟨.prefilling, job, trace⟩ world
        ⟨.marking false, job, trace ++ [.prefillReply false]⟩ world
  | confirmed {reply job trace world} (landed : isLanded (calls c).slot reply = true) :
      Step (.report reply) ⟨.confirming, job, trace⟩ world
        ⟨.saving none, job, trace ++ [.slotsReply reply,
          .save (calls c).slot (scratchOf sha256 calls c)]⟩ world
  | unconfirmed {reply job trace world} (astray : isLanded (calls c).slot reply = false) :
      Step (.report reply) ⟨.confirming, job, trace⟩ world
        ⟨.marking false, job, trace ++ [.slotsReply reply]⟩ world
  | write {complete wrote job trace world} :
      Step (.write complete) ⟨.saving wrote, job, trace⟩ world
        ⟨.saving (some complete), job, trace⟩
        { world with
          dir := world.dir.write (scratchOf sha256 calls c)
            ⟨world.kv (calls c).slot, complete, false, 0, 0⟩ }
  | saved {wrote job trace world} :
      Step (.saveReply true) ⟨.saving wrote, job, trace⟩ world
        ⟨.publishing false, job, trace ++ [.saveReply true,
          .publish (scratchOf sha256 calls c) (blobOf sha256 calls c)]⟩ world
  | notSaved {wrote job trace world} :
      Step (.saveReply false) ⟨.saving wrote, job, trace⟩ world
        ⟨.marking false, job, trace ++ [.saveReply false]⟩ world
  | move {job trace world} (present : (world.dir (scratchOf sha256 calls c)).isSome = true) :
      Step .move ⟨.publishing false, job, trace⟩ world ⟨.publishing true, job, trace⟩
        { world with
          dir := world.dir.rename (scratchOf sha256 calls c) (blobOf sha256 calls c) }
  | published {ok moved job trace world} :
      Step (.publishReply ok) ⟨.publishing moved, job, trace⟩ world
        ⟨.marking ok, job, trace ++ [.publishReply ok]⟩ world
  | markCached {job trace world} :
      Step .mark ⟨.marking true, job, trace⟩ world ⟨.returned .seeded, job, trace⟩
        { world with bag := world.bag.markCached (keyOf sha256 calls c) }
  | markFailed {job trace world} :
      Step .mark ⟨.marking false, job, trace⟩ world ⟨.returned .failed, job, trace⟩
        { world with bag := world.bag.markFailed (keyOf sha256 calls c) }
  | evict {name l world} :
      Step (.evict name) l world l { world with dir := world.dir.remove name }

variable {sha256 calls c}

/-- The listed steps are all taken. -/
theorem act_of_step {action : Action} {l l' : Local} {world world' : World}
    (step : Step sha256 calls c action l world l' world') :
    act sha256 calls c action l world = some (l', world') := by
  cases step with
  | begin hashed => simp [act, hashed]
  | beginUnkeyed unkeyed => simp [act, unkeyed]
  | gated idle => simp [act, idle]
  | turnedAway busy => simp [act, busy]
  | recalled cached => simp [act, cached]
  | unknown unknown => simp [act, unknown]
  | load found => simp [act, found]
  | enroll prompt => simp [act, prompt]
  | start free => simp [act, free]
  | confirmed landed => simp [act, landed]
  | unconfirmed astray => simp [act, astray]
  | move present => simp [act, present]
  | _ => simp [act]

/-- The executable action takes the listed steps only. -/
theorem step_of_act {action : Action} {l l' : Local} {world world' : World}
    (acted : act sha256 calls c action l world = some (l', world')) :
    Step sha256 calls c action l world l' world' := by
  unfold act at acted
  split at acted
  -- in the order of `act`
  case h_1 =>
    cases hashed : systemHash sha256 (calls c).messages with
    | none =>
        rw [hashed] at acted
        obtain ⟨rfl, rfl⟩ := Prod.mk.inj (Option.some.inj acted)
        exact .beginUnkeyed hashed
    | some key =>
        rw [hashed] at acted
        obtain ⟨rfl, rfl⟩ := Prod.mk.inj (Option.some.inj acted)
        exact .begin hashed
  case h_2 reply _ _ =>
    obtain ⟨rfl, rfl⟩ := Prod.mk.inj (Option.some.inj acted)
    cases idle : isIdle (calls c).slot reply with
    | true => exact .gated idle
    | false => exact .turnedAway idle
  case h_3 =>
    split_ifs at acted with cached
    all_goals obtain ⟨rfl, rfl⟩ := Prod.mk.inj (Option.some.inj acted)
    · exact .recalled cached
    · exact .unknown (Bool.eq_false_iff.mpr cached)
  case h_4 =>
    obtain ⟨file, found, loaded⟩ := Option.bind_eq_some_iff.mp acted
    obtain ⟨rfl, rfl⟩ := Prod.mk.inj (Option.some.inj loaded)
    exact .load found
  case h_5 ok _ _ _ =>
    obtain ⟨rfl, rfl⟩ := Prod.mk.inj (Option.some.inj acted)
    cases ok with
    | true => exact .restored
    | false => exact .notRestored
  case h_6 =>
    obtain ⟨rfl, rfl⟩ := Prod.mk.inj (Option.some.inj acted)
    exact .enroll rfl
  case h_7 =>
    split_ifs at acted with free
    obtain ⟨rfl, rfl⟩ := Prod.mk.inj (Option.some.inj acted)
    exact .start free
  case h_8 =>
    obtain ⟨rfl, rfl⟩ := Prod.mk.inj (Option.some.inj acted)
    exact .finish
  case h_9 ok _ _ =>
    cases ok with
    | true =>
        obtain ⟨rfl, rfl⟩ := Prod.mk.inj (Option.some.inj acted)
        exact .prefilled
    | false =>
        obtain ⟨rfl, rfl⟩ := Prod.mk.inj (Option.some.inj acted)
        exact .notPrefilled
  case h_10 =>
    split_ifs at acted with landed
    all_goals obtain ⟨rfl, rfl⟩ := Prod.mk.inj (Option.some.inj acted)
    · exact .confirmed landed
    · exact .unconfirmed (Bool.eq_false_iff.mpr landed)
  case h_11 =>
    obtain ⟨rfl, rfl⟩ := Prod.mk.inj (Option.some.inj acted)
    exact .write
  case h_12 ok _ _ _ =>
    cases ok with
    | true =>
        obtain ⟨rfl, rfl⟩ := Prod.mk.inj (Option.some.inj acted)
        exact .saved
    | false =>
        obtain ⟨rfl, rfl⟩ := Prod.mk.inj (Option.some.inj acted)
        exact .notSaved
  case h_13 =>
    split_ifs at acted with present
    obtain ⟨rfl, rfl⟩ := Prod.mk.inj (Option.some.inj acted)
    exact .move present
  case h_14 =>
    obtain ⟨rfl, rfl⟩ := Prod.mk.inj (Option.some.inj acted)
    exact .published
  case h_15 =>
    obtain ⟨rfl, rfl⟩ := Prod.mk.inj (Option.some.inj acted)
    exact .markCached
  case h_16 =>
    obtain ⟨rfl, rfl⟩ := Prod.mk.inj (Option.some.inj acted)
    exact .markFailed
  case h_17 =>
    obtain ⟨rfl, rfl⟩ := Prod.mk.inj (Option.some.inj acted)
    exact .evict
  case h_18 => cases acted

theorem step_of_moved {bag : Bag} {before after : DanceState} {action : Action}
    (moved : (dance sha256 calls bag).machine.step before (c, action) = some after) :
    Step sha256 calls c action (before.locals c) before.world (after.locals c) after.world ∧
      ∀ other, other ≠ c → after.locals other = before.locals other := by
  obtain ⟨acted, others⟩ := (dance sha256 calls bag).acts_of_machine_step moved
  exact ⟨step_of_act acted, others⟩

end Ollm.Seed
