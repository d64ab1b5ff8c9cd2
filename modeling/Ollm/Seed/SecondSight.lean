import Ollm.Seed.Bag
import Ollm.Seed.Protocol

/-!
# Second sight

A call that starts after its family was seeded only recalls it, unless a call
that started earlier fails late and marks the cached family as failed.
-/

namespace Ollm.Seed

open Json Keying
open Proxy (SlotId SlotState)
open Store (CallId seedBlobName)

variable {sha256 : List UInt8 → Digest} {calls : CallId → Call} {c : CallId}

/-- No call marks a family as failed that is cached. -/
def Remembers (sha256 : List UInt8 → Digest) (calls : CallId → Call) (config : DanceState)
    (event : CallId × Action) : Prop :=
  event.2 = .mark → (config.locals event.1).phase = .marking false →
    config.world.bag.isCached (keyOf sha256 calls event.1) = false

theorem isCached_enroll {bag : Bag} {key : String} (cached : bag.isCached key = true)
    (own : String) (messages : Value) : (bag.enroll own messages).isCached key = true := by
  by_cases same : key = own
  · subst same
    unfold Bag.isCached at cached ⊢
    rw [Bag.enroll, Function.update_self]
    cases found : bag key with
    | none => simp [found] at cached
    | some entry =>
        have state : entry.state = .cached := by simpa [found] using cached
        simp [Bag.enrolled, found, state]
  · rwa [Bag.isCached, Bag.enroll, Function.update_of_ne same]

theorem isCached_markCached {bag : Bag} {key : String} (own : String)
    (cached : bag.isCached key = true ∨ (key = own ∧ (bag key).isSome = true)) :
    (bag.markCached own).isCached key = true := by
  by_cases same : key = own
  · subst same
    have known : (bag key).isSome = true := by
      rcases cached with cached | ⟨-, known⟩
      · cases found : bag key <;> simp_all [Bag.isCached]
      · exact known
    obtain ⟨entry, found⟩ := Option.isSome_iff_exists.mp known
    simp [Bag.isCached, Bag.markCached, found]
  · rw [Bag.isCached, Bag.markCached, Function.update_of_ne same]
    rcases cached with cached | ⟨own, -⟩
    · exact cached
    · exact absurd own same

theorem isCached_markFailed {bag : Bag} {key own : String} (cached : bag.isCached key = true)
    (other : bag.isCached own = false) : (bag.markFailed own).isCached key = true := by
  have apart : key ≠ own := by
    rintro rfl
    rw [cached] at other
    cases other
  have same : bag.markFailed own key = bag key := by
    unfold Bag.markFailed
    cases bag own <;> exact Function.update_of_ne apart _ _
  rwa [Bag.isCached, same]

/-- A cached family stays cached as long as no call fails on it. -/
theorem Step.isCached {action : Action} {l l' : Local} {world world' : World} {key : String}
    (step : Step sha256 calls c action l world l' world')
    (remembers : action = .mark → l.phase = .marking false →
      world.bag.isCached (keyOf sha256 calls c) = false)
    (cached : world.bag.isCached key = true) : world'.bag.isCached key = true := by
  cases step with
  | enroll => exact isCached_enroll cached _ _
  | markCached => exact isCached_markCached _ (.inl cached)
  | markFailed => exact isCached_markFailed cached (remembers rfl rfl)
  | _ => exact cached

theorem Step.seeded {action : Action} {l l' : Local} {world world' : World}
    (step : Step sha256 calls c action l world l' world')
    (returned : l'.phase = .returned .seeded) :
    l.phase = .returned .seeded ∨ (l.phase = .marking true ∧
      world'.bag = world.bag.markCached (keyOf sha256 calls c)) := by
  cases step with
  | markCached => exact .inr ⟨rfl, rfl⟩
  | start => exact .inl returned
  | finish => exact .inl returned
  | evict => exact .inl returned
  | _ => cases returned

/-- In runs that remember, a call that returned `Seeded` has left its family cached. -/
theorem cached_of_seeded {config : DanceState}
    (reached : (dance sha256 calls .empty).machine.ReachedBy (Remembers sha256 calls) config)
    (seeded : (config.locals c).phase = .returned .seeded) :
    config.world.bag.isCached (keyOf sha256 calls c) = true := by
  have attached := reached.attach fun state run =>
    bagInvariant_of_reachable (run.mono fun _ _ _ => trivial)
  refine attached.invariant
    (fun config => ∀ c, (config.locals c).phase = .returned .seeded →
      config.world.bag.isCached (keyOf sha256 calls c) = true) ?_ ?_ c seeded
  · rintro config ⟨-, started⟩ name returned
    rw [started] at returned
    cases returned
  · rintro before ⟨actor, action⟩ after earlier ⟨remembers, holds⟩ moved name returned
    obtain ⟨step, others⟩ := step_of_moved moved
    by_cases own : name = actor
    · subst own
      rcases step.seeded returned with already | ⟨marking, marked⟩
      · exact step.isCached remembers (earlier name already)
      · rw [marked]
        exact isCached_markCached _
          (.inr ⟨rfl, holds.present name (by rw [marking]; rfl)⟩)
    · rw [others name own] at returned
      exact step.isCached remembers (earlier name returned)

/-- Once its family is cached, a call that has not started yet will only recall it. -/
theorem recalls_of_cached_before {before after : DanceState}
    (cached : before.world.bag.isCached (keyOf sha256 calls c) = true)
    (recalls : Recalls (before.locals c))
    (later : ((dance sha256 calls .empty).machine.startingAt before).ReachedBy
      (Remembers sha256 calls) after) : Recalls (after.locals c) := by
  refine (later.invariant
    (fun config => config.world.bag.isCached (keyOf sha256 calls c) = true ∧
      Recalls (config.locals c)) ?_ ?_).2
  · rintro config rfl
    exact ⟨cached, recalls⟩
  · rintro first ⟨actor, action⟩ second ⟨known, recalls⟩ remembers moved
    obtain ⟨step, others⟩ := step_of_moved moved
    refine ⟨step.isCached remembers known, ?_⟩
    by_cases own : c = actor
    · subst own
      exact step.recalls recalls fun _ => known
    · rw [others c own]
      exact recalls

/-- In runs in which no call marks a cached family as failed, a call that starts after its family
was seeded issues no prefill. -/
theorem second_sight_never_prefills {seeded after : DanceState} {first second : CallId}
    {key : String}
    (reached : (dance sha256 calls .empty).machine.ReachedBy (Remembers sha256 calls) seeded)
    (returned : (seeded.locals first).phase = .returned .seeded)
    (waiting : (seeded.locals second).phase = .waiting)
    (hashed : systemHash sha256 (calls first).messages = some key)
    (hashed' : systemHash sha256 (calls second).messages = some key)
    (later : ((dance sha256 calls .empty).machine.startingAt seeded).ReachedBy
      (Remembers sha256 calls) after) :
    Never Entry.isPrefill (after.locals second).trace := by
  have cached := cached_of_seeded reached returned
  rw [(keyed_of_hashed hashed).2, ← (keyed_of_hashed hashed').2] at cached
  have recalls := recalls_of_waiting (reached.mono fun _ _ _ => trivial) waiting
  exact (recalls_of_cached_before cached recalls later).prefills

/-! ## Runs -/

/-- Every digest is zero. -/
def zeroHash : List UInt8 → Digest :=
  fun _ => ⟨List.replicate 32 0, List.length_replicate⟩

def promptOf (text : String) : Value :=
  asRequest [.object [("content", .string text), ("role", .string "system")]]

/-- Calls of one family, each on a slot of its own. -/
def oneFamily : CallId → Call
  | 0 => ⟨0, promptOf "sys"⟩
  | _ => ⟨1, promptOf "sys"⟩

/-- The backend reports the slots idle, each at a position. -/
def idleAt (slots : List SlotId) : Action :=
  .report (some (slots.map fun slot => ⟨slot, false, 7⟩))

/-- A call that finds its family unknown, up to the request for a prefill. -/
def admitted (c : CallId) : List (CallId × Action) :=
  [(c, .begin), (c, idleAt [0, 1]), (c, .recall), (c, .enroll)]

/-- The rest of a dance in which everything succeeds. -/
def danced (c : CallId) : List (CallId × Action) :=
  [(c, .start), (c, .finish true), (c, .prefillReply true), (c, idleAt [0, 1]),
    (c, .write true), (c, .saveReply true), (c, .move), (c, .publishReply true), (c, .mark)]

/-- The first call seeds the family while the second one is still prefilling. -/
def overtaken : List (CallId × Action) :=
  admitted 0 ++ admitted 1 ++ danced 0

/-- The second call fails; a third one starts. -/
def lateFailure : List (CallId × Action) :=
  [(1, .prefillReply false), (1, .mark)] ++ admitted 2

theorem lateFailure_forgets :
    ¬ ∀ (sha256 : List UInt8 → Digest) (calls : CallId → Call) (seeded after : DanceState)
        (first second : CallId) (key : String),
      (dance sha256 calls .empty).machine.Reachable seeded →
      (seeded.locals first).phase = .returned .seeded →
      (seeded.locals second).phase = .waiting →
      systemHash sha256 (calls first).messages = some key →
      systemHash sha256 (calls second).messages = some key →
      ((dance sha256 calls .empty).machine.startingAt seeded).Reachable after →
      Never Entry.isPrefill (after.locals second).trace := by
  intro remembered
  have executed : (((dance zeroHash oneFamily .empty).machine.run (fun _ _ => true) danceStart
      overtaken).bind fun seeded =>
        ((dance zeroHash oneFamily .empty).machine.run (fun _ _ => true) seeded
          lateFailure).map fun after =>
            ((seeded.locals 0).phase, (seeded.locals 2).phase,
              (after.locals 2).trace.any Entry.isPrefill)) =
      some (.returned .seeded, .waiting, true) := by
    decide
  obtain ⟨seeded, ran, went⟩ := Option.bind_eq_some_iff.mp executed
  obtain ⟨after, ran', observed⟩ := Option.map_eq_some_iff.mp went
  obtain ⟨returned, observed⟩ := Prod.mk.inj observed
  obtain ⟨waiting, prefills⟩ := Prod.mk.inj observed
  have reached := Machine.ReachedBy.run (fun _ _ _ => trivial)
    (.initial (initial_danceStart zeroHash oneFamily)) ran
  have later := Machine.reachedBy_startingAt_of_run (fun _ _ _ => trivial) ran'
  have never := remembered zeroHash oneFamily seeded after 0 2 _ reached returned waiting rfl rfl
    later
  obtain ⟨entry, member, isPrefill⟩ := List.any_eq_true.mp prefills
  rw [never entry member] at isPrefill
  cases isPrefill

/-- No call fails. -/
def marksNoFailure (config : DanceState) (event : CallId × Action) : Bool :=
  !(event.2 == .mark && (config.locals event.1).phase == .marking false)

theorem remembers_of_marksNoFailure (sha256 : List UInt8 → Digest) (calls : CallId → Call)
    (config : DanceState) (event : CallId × Action)
    (checked : marksNoFailure config event = true) : Remembers sha256 calls config event := by
  intro marks failed
  simp [marksNoFailure, marks, failed] at checked

/-- A call that finds its family cached and restores it. -/
def recalled (c : CallId) : List (CallId × Action) :=
  [(c, .begin), (c, idleAt [0, 1]), (c, .recall), (c, .load), (c, .restoreReply true)]

theorem second_sight_restores :
    ∃ seeded after : DanceState, (seeded.locals 0).phase = .returned .seeded ∧
      (after.locals 2).phase = .returned .restored ∧
      Never Entry.isPrefill (after.locals 2).trace := by
  have executed : (((dance zeroHash oneFamily .empty).machine.run marksNoFailure danceStart
      (admitted 0 ++ danced 0)).bind fun seeded =>
        ((dance zeroHash oneFamily .empty).machine.run marksNoFailure seeded
          (recalled 2)).map fun after =>
            ((seeded.locals 0).phase, (seeded.locals 2).phase, (after.locals 2).phase)) =
      some (.returned .seeded, .waiting, .returned .restored) := by
    decide
  obtain ⟨seeded, ran, went⟩ := Option.bind_eq_some_iff.mp executed
  obtain ⟨after, ran', observed⟩ := Option.map_eq_some_iff.mp went
  obtain ⟨returned, observed⟩ := Prod.mk.inj observed
  obtain ⟨waiting, restored⟩ := Prod.mk.inj observed
  have sound := remembers_of_marksNoFailure zeroHash oneFamily
  have reached := Machine.ReachedBy.run sound
    (.initial (initial_danceStart zeroHash oneFamily)) ran
  have later := Machine.reachedBy_startingAt_of_run sound ran'
  exact ⟨seeded, after, returned, restored,
    second_sight_never_prefills reached returned waiting rfl rfl later⟩

end Ollm.Seed
