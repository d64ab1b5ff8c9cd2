import Ollm.Seed.Files
import Ollm.Seed.SecondSight

/-!
# Recovery

From some point on the backend and the publisher do what they are asked, and
the family's blob is not evicted.  A family that is not cached is then seeded by
the next call, whatever failed before.  A family that is cached but has lost its
blob stays cold: the failed restore leaves it cached.
-/

namespace Ollm.Seed

open Json Keying
open Proxy (SlotId SlotState)
open Store (CallId seedBlobName)

namespace SeedResult

/-- The family's state is in the slot, or on disk for the next call. -/
def warm : SeedResult → Bool
  | .restored | .seeded => true
  | _ => false

end SeedResult

/-- The slot is reported idle, and at a position after a prefill; prefills, saves and publishes
succeed; a restore succeeds exactly when the blob exists. -/
def obliges (sha256 : List UInt8 → Digest) (calls : CallId → Call) (c : CallId) (l : Local)
    (world : World) : Action → Bool
  | .report reply =>
      if l.phase = .confirming then isLanded (calls c).slot reply
      else isIdle (calls c).slot reply
  | .restoreReply ok => ok == (world.dir (blobOf sha256 calls c)).isSome
  | .prefillReply ok | .saveReply ok => ok
  -- the blob is in place before the publisher says so
  | .publishReply ok => ok && l.phase == .publishing true
  | _ => true

/-- The calls of the family are obliged, and its blob is not evicted. -/
def Willing (sha256 : List UInt8 → Digest) (calls : CallId → Call) (key : String) (c : CallId)
    (l : Local) (world : World) (action : Action) : Prop :=
  action ≠ .evict (seedBlobName key) ∧
    (keyOf sha256 calls c = key → obliges sha256 calls c l world action = true)

instance {sha256 : List UInt8 → Digest} {calls : CallId → Call} {key : String} {c : CallId}
    {l : Local} {world : World} {action : Action} :
    Decidable (Willing sha256 calls key c l world action) :=
  inferInstanceAs (Decidable (_ ∧ (_ → _)))

def Obliging (sha256 : List UInt8 → Digest) (calls : CallId → Call) (key : String)
    (config : DanceState) (event : CallId × Action) : Prop :=
  Willing sha256 calls key event.1 (config.locals event.1) config.world event.2

def HasBlob (key : String) (world : World) : Prop :=
  (world.dir (seedBlobName key)).isSome = true

/-- The call has published its blob, and is about to mark the family as cached. -/
def Phase.published : Phase → Bool
  | .publishing true | .marking true => true
  | _ => false

theorem published_cases {phase : Phase} (published : phase.published = true) :
    phase = .publishing true ∨ phase = .marking true := by
  unfold Phase.published at published
  split at published
  · exact .inl rfl
  · exact .inr rfl
  · cases published

/-- A family that is cached, or is about to be, has its blob. -/
def Recoverable (sha256 : List UInt8 → Digest) (calls : CallId → Call) (key : String)
    (config : DanceState) : Prop :=
  (config.world.bag.isCached key = true ∨
    ∃ c, keyOf sha256 calls c = key ∧ (config.locals c).phase.published = true) →
  HasBlob key config.world

/-- Of two calls that run one after the other, one restores or seeds the family. -/
def Recovers (sha256 : List UInt8 → Digest) (calls : CallId → Call) (key : String)
    (first second : CallId) (point : DanceState) : Prop :=
  ∀ between after result result',
    ((dance sha256 calls .empty).machine.startingAt point).ReachedBy
      (Obliging sha256 calls key) between →
    (between.locals first).phase = .returned result →
    (between.locals second).phase = .waiting →
    ((dance sha256 calls .empty).machine.startingAt between).ReachedBy
      (Obliging sha256 calls key) after →
    (after.locals second).phase = .returned result' →
    result.warm = true ∨ result'.warm = true

variable {sha256 : List UInt8 → Digest} {calls : CallId → Call} {c d : CallId} {key : String}

/-! ## Families that have what they are cached for -/

theorem Step.blob_of_published {action : Action} {l l' : Local} {world world' : World}
    (step : Step sha256 calls c action l world l' world')
    (obliged : obliges sha256 calls c l world action = true)
    (published : l'.phase.published = true) :
    l.phase.published = true ∨ HasBlob (keyOf sha256 calls c) world' := by
  cases step with
  | @published ok moved =>
      simp only [obliges, Bool.and_eq_true, beq_iff_eq, Phase.publishing.injEq] at obliged
      left
      rw [obliged.2]
      rfl
  | move present =>
      right
      obtain ⟨file, found⟩ := Option.isSome_iff_exists.mp present
      exact Option.isSome_of_eq_some (Directory.rename_target found)
  | start => exact .inl published
  | finish => exact .inl published
  | evict => exact .inl published
  | _ => cases published

theorem Recoverable.step {before after : DanceState} {event : CallId × Action}
    (recoverable : Recoverable sha256 calls key before)
    (obliging : Obliging sha256 calls key before event)
    (moved : (dance sha256 calls .empty).machine.step before event = some after) :
    Recoverable sha256 calls key after := by
  obtain ⟨actor, action⟩ := event
  obtain ⟨step, others⟩ := step_of_moved moved
  have kept : (before.world.bag.isCached key = true ∨
      ∃ c, keyOf sha256 calls c = key ∧ (before.locals c).phase.published = true) →
      HasBlob key after.world := by
    intro due
    exact step.dirStep.keeps obliging.1 (recoverable due)
  rintro (cached | ⟨c, family, published⟩)
  · rcases step.bagStep.cached_before cached with earlier | ⟨marking, family⟩
    · exact kept (.inl earlier)
    · exact kept (.inr ⟨actor, family.symm, by rw [marking]; rfl⟩)
  · by_cases own : c = actor
    · subst own
      rcases step.blob_of_published (obliging.2 family) published with earlier | present
      · exact kept (.inr ⟨c, family, earlier⟩)
      · exact family ▸ present
    · rw [others c own] at published
      exact kept (.inr ⟨c, family, published⟩)

/-! ## Calls that are obliged -/

/-- A call of a family that recovers is on its way to a warm result. -/
def Warming (present : Prop) : Phase → Prop
  | .restoring _ => present
  | .marking ok => ok = true
  | .returned result => result.warm = true
  | _ => True

theorem Warming.mono {present present' : Prop} {phase : Phase} (warming : Warming present phase)
    (kept : present → present') : Warming present' phase := by
  cases phase with
  | restoring => exact kept warming
  | _ => exact warming

theorem Step.warming {action : Action} {l l' : Local} {world world' : World}
    (step : Step sha256 calls c action l world l' world') (keyed : Keyed sha256 calls c)
    (obliged : obliges sha256 calls c l world action = true)
    (kept : HasBlob (keyOf sha256 calls c) world → HasBlob (keyOf sha256 calls c) world')
    (cached : world.bag.isCached (keyOf sha256 calls c) = true →
      HasBlob (keyOf sha256 calls c) world)
    (warming : Warming (HasBlob (keyOf sha256 calls c) world) l.phase) :
    Warming (HasBlob (keyOf sha256 calls c) world') l'.phase := by
  cases step with
  | beginUnkeyed unkeyed =>
      rw [keyed] at unkeyed
      cases unkeyed
  | turnedAway busy => simp [obliges, busy] at obliged
  | recalled known => exact cached known
  | load => exact kept warming
  | restored => rfl
  | notRestored =>
      have present : (world.dir (blobOf sha256 calls c)).isSome = true := warming
      simp only [obliges, present] at obliged
      cases obliged
  | notPrefilled => cases obliged
  | unconfirmed astray => simp [obliges, astray] at obliged
  | notSaved => cases obliged
  | @published ok =>
      simp only [obliges, Bool.and_eq_true] at obliged
      exact obliged.1
  | markCached => rfl
  | markFailed => cases warming
  | start => exact warming.mono kept
  | finish => exact warming.mono kept
  | evict => exact warming.mono kept
  | _ => trivial

/-- In a family that recovers, every call that is yet to start comes out warm. -/
theorem warm_of_waiting {point after : DanceState} {result : SeedResult}
    (recoverable : Recoverable sha256 calls key point)
    (hashed : systemHash sha256 (calls c).messages = some key)
    (waiting : (point.locals c).phase = .waiting)
    (reached : ((dance sha256 calls .empty).machine.startingAt point).ReachedBy
      (Obliging sha256 calls key) after)
    (returned : (after.locals c).phase = .returned result) : result.warm = true := by
  obtain ⟨keyed, rfl⟩ := keyed_of_hashed hashed
  have warming : Recoverable sha256 calls (keyOf sha256 calls c) after ∧
      Warming (HasBlob (keyOf sha256 calls c) after.world) (after.locals c).phase := by
    refine reached.invariant
      (fun config => Recoverable sha256 calls (keyOf sha256 calls c) config ∧
        Warming (HasBlob (keyOf sha256 calls c) config.world) (config.locals c).phase) ?_ ?_
    · rintro config rfl
      rw [waiting]
      exact ⟨recoverable, trivial⟩
    · rintro before ⟨actor, action⟩ next ⟨recovers, warming⟩ obliging moved
      refine ⟨recovers.step obliging moved, ?_⟩
      obtain ⟨step, others⟩ := step_of_moved moved
      have kept := step.dirStep.keeps obliging.1
      by_cases own : c = actor
      · subst own
        exact step.warming keyed (obliging.2 rfl) kept (fun cached => recovers (.inl cached))
          warming
      · rw [others c own]
        exact warming.mono kept
  rw [returned] at warming
  exact warming.2

/-! ## Calls left alone -/

def Action.isEvict : Action → Bool
  | .evict _ => true
  | _ => false

/-- What a call can get to by its own actions. -/
abbrev Alone (sha256 : List UInt8 → Digest) (calls : CallId → Call) (key : String)
    (c : CallId) : Local × World → Local × World → Prop :=
  Relation.ReflTransGen
    ((dance sha256 calls .empty).OwnStep c (Willing sha256 calls key c))

theorem alone_head {action : Action} {l l' : Local} {world world' : World}
    {after : Local × World} (step : Step sha256 calls c action l world l' world')
    (spared : action.isEvict = false) (obliged : obliges sha256 calls c l world action = true)
    (rest : Alone sha256 calls key c (l', world') after) :
    Alone sha256 calls key c (l, world) after := by
  have kept : action ≠ .evict (seedBlobName key) := by
    rintro rfl
    cases spared
  exact Threads.goes_head action ⟨kept, fun _ => obliged⟩ (act_of_step step) rest

/-- A report of the slot alone. -/
def soleReport (slot : SlotId) : Option (List SlotState) :=
  some [⟨slot, false, 1⟩]

theorem isIdle_soleReport (slot : SlotId) : isIdle slot (soleReport slot) = true := by
  simp [isIdle, stateOf, soleReport]

theorem isLanded_soleReport (slot : SlotId) : isLanded slot (soleReport slot) = true := by
  simp [isLanded, stateOf, soleReport]

section Alone

variable {job : Job} {trace : List Entry} {world : World}

theorem alone_recalling (key : String) (keyed : Keyed sha256 calls c) (job : Job)
    (trace : List Entry) (world : World) :
    ∃ trace', Alone sha256 calls key c (⟨.waiting, job, trace⟩, world)
      (⟨.recalling, job, trace'⟩, world) := by
  apply Exists.intro
  apply alone_head (.begin keyed) rfl rfl
  apply alone_head (.gated (isIdle_soleReport _)) rfl
  · simp [obliges, isIdle_soleReport]
  · exact .refl

/-- A cached family whose blob is gone stays as it is. -/
theorem alone_cold (key : String) (keyed : Keyed sha256 calls c)
    (cached : world.bag.isCached (keyOf sha256 calls c) = true)
    (gone : world.dir (blobOf sha256 calls c) = none) (job : Job) (trace : List Entry) :
    ∃ trace', Alone sha256 calls key c (⟨.waiting, job, trace⟩, world)
      (⟨.returned .coldPrefill, job, trace'⟩, world) := by
  obtain ⟨trace₁, starts⟩ := alone_recalling key keyed job trace world
  apply Exists.intro
  apply starts.trans
  apply alone_head (.recalled cached) rfl rfl
  apply alone_head .notRestored rfl
  · rw [obliges, gone]
    rfl
  · exact .refl

theorem alone_restored (key : String) (keyed : Keyed sha256 calls c)
    (cached : world.bag.isCached (keyOf sha256 calls c) = true)
    (present : (world.dir (blobOf sha256 calls c)).isSome = true) :
    ∃ trace', Alone sha256 calls key c (⟨.waiting, job, trace⟩, world)
      (⟨.returned .restored, job, trace'⟩, world) := by
  obtain ⟨trace₁, starts⟩ := alone_recalling key keyed job trace world
  apply Exists.intro
  apply starts.trans
  apply alone_head (.recalled cached) rfl rfl
  apply alone_head .restored rfl
  · rw [obliges, present]
    rfl
  · exact .refl

theorem alone_seeded (key : String) (keyed : Keyed sha256 calls c)
    (unknown : world.bag.isCached (keyOf sha256 calls c) = false) :
    ∃ job' trace' world', Alone sha256 calls key c (⟨.waiting, job, trace⟩, world)
      (⟨.returned .seeded, job', trace'⟩, world') := by
  obtain ⟨trace₁, starts⟩ := alone_recalling key keyed job trace world
  repeat apply Exists.intro
  apply starts.trans
  apply alone_head (.unknown unknown) rfl rfl
  apply alone_head (.enroll rfl) rfl rfl
  apply alone_head .prefilled rfl rfl
  apply alone_head (.confirmed (isLanded_soleReport _)) rfl
  · simp [obliges, isLanded_soleReport]
  apply alone_head (@Step.write _ _ _ true _ _ _ _) rfl rfl
  apply alone_head .saved rfl rfl
  apply alone_head (.move (by simp [Directory.write])) rfl rfl
  apply alone_head (@Step.published _ _ _ true _ _ _ _) rfl rfl
  apply alone_head .markCached rfl rfl
  exact .refl

/-- A call that has published its blob goes on to mark the family. -/
theorem alone_caches (sha256 : List UInt8 → Digest) (calls : CallId → Call) (key : String)
    (c : CallId) {l : Local} (published : l.phase.published = true) (world : World) :
    ∃ l', Alone sha256 calls key c (l, world)
      (l', { world with bag := world.bag.markCached (keyOf sha256 calls c) }) := by
  obtain ⟨phase, job, trace⟩ := l
  rcases published_cases published with moved | marking
  · obtain rfl : phase = .publishing true := moved
    apply Exists.intro
    apply alone_head (@Step.published _ _ _ true true _ _ _) rfl rfl
    apply alone_head .markCached rfl rfl
    exact .refl
  · obtain rfl : phase = .marking true := marking
    apply Exists.intro
    apply alone_head .markCached rfl rfl
    exact .refl

/-- A call comes to its end if it is left alone. -/
theorem alone_returns (sha256 : List UInt8 → Digest) (calls : CallId → Call) (key : String)
    (c : CallId) (job : Job) (trace : List Entry) (world : World) :
    ∃ result job' trace' world', Alone sha256 calls key c (⟨.waiting, job, trace⟩, world)
      (⟨.returned result, job', trace'⟩, world') := by
  cases hashed : systemHash sha256 (calls c).messages with
  | none =>
      refine ⟨.skipped, job, trace, world, ?_⟩
      exact alone_head (.beginUnkeyed hashed) rfl rfl .refl
  | some own =>
      have keyed := (keyed_of_hashed hashed).1
      cases known : world.bag.isCached (keyOf sha256 calls c) with
      | false => exact ⟨.seeded, alone_seeded key keyed known⟩
      | true =>
          cases found : world.dir (blobOf sha256 calls c) with
          | none =>
              obtain ⟨trace', alone⟩ := alone_cold key keyed known found job trace
              exact ⟨.coldPrefill, job, trace', world, alone⟩
          | some file =>
              have present := Option.isSome_of_eq_some found
              obtain ⟨trace', alone⟩ := alone_restored key keyed known present
              exact ⟨.restored, job, trace', world, alone⟩

end Alone

section System

variable {origin config : DanceState}

/-- A call that is left alone in the system. -/
theorem reachedBy_of_alone {after : Local × World}
    (reached : ((dance sha256 calls .empty).machine.startingAt origin).ReachedBy
      (Obliging sha256 calls key) config)
    (alone : Alone sha256 calls key c (config.locals c, config.world) after) :
    ∃ last, ((dance sha256 calls .empty).machine.startingAt origin).ReachedBy
        (Obliging sha256 calls key) last ∧
      last.locals c = after.1 ∧ last.world = after.2 ∧
      ∀ other, other ≠ c → last.locals other = config.locals other := by
  apply (dance sha256 calls .empty).reachedBy_of_alone _ reached alone
  intro state action willing
  exact willing

theorem returns_of_waiting (waiting : (config.locals c).phase = .waiting)
    (reached : ((dance sha256 calls .empty).machine.startingAt origin).ReachedBy
      (Obliging sha256 calls key) config) :
    ∃ last result, ((dance sha256 calls .empty).machine.startingAt origin).ReachedBy
        (Obliging sha256 calls key) last ∧ (last.locals c).phase = .returned result := by
  obtain ⟨result, job, trace, world, alone⟩ := alone_returns sha256 calls key c
    (config.locals c).job (config.locals c).trace config.world
  rw [← waiting] at alone
  obtain ⟨last, reached', own, -⟩ := reachedBy_of_alone reached alone
  exact ⟨last, result, reached', by rw [own]⟩

theorem cold_of_waiting (keyed : Keyed sha256 calls c)
    (waiting : (config.locals c).phase = .waiting)
    (cached : config.world.bag.isCached (keyOf sha256 calls c) = true)
    (gone : config.world.dir (blobOf sha256 calls c) = none)
    (reached : ((dance sha256 calls .empty).machine.startingAt origin).ReachedBy
      (Obliging sha256 calls key) config) :
    ∃ last, ((dance sha256 calls .empty).machine.startingAt origin).ReachedBy
        (Obliging sha256 calls key) last ∧
      (last.locals c).phase = .returned .coldPrefill ∧ last.world = config.world ∧
      ∀ other, other ≠ c → last.locals other = config.locals other := by
  obtain ⟨trace', alone⟩ := alone_cold key keyed cached gone (config.locals c).job
    (config.locals c).trace
  rw [← waiting] at alone
  obtain ⟨last, reached', own, world, others⟩ := reachedBy_of_alone reached alone
  exact ⟨last, reached', by rw [own], world, others⟩

end System

/-- A family that is cached without its blob has two cold calls in a row. -/
theorem not_recovers_of_gone {point config : DanceState} {first second : CallId}
    (reached : ((dance sha256 calls .empty).machine.startingAt point).ReachedBy
      (Obliging sha256 calls key) config)
    (cached : config.world.bag.isCached key = true) (gone : ¬ HasBlob key config.world)
    (distinct : first ≠ second)
    (hashed : systemHash sha256 (calls first).messages = some key)
    (hashed' : systemHash sha256 (calls second).messages = some key)
    (waiting : (config.locals first).phase = .waiting)
    (waiting' : (config.locals second).phase = .waiting) :
    ¬ Recovers sha256 calls key first second point := by
  intro recovers
  have missing : config.world.dir (seedBlobName key) = none := by
    rwa [HasBlob, Option.not_isSome_iff_eq_none] at gone
  obtain ⟨keyed, own⟩ := keyed_of_hashed hashed
  obtain ⟨keyed', own'⟩ := keyed_of_hashed hashed'
  obtain ⟨between, reached₁, cold, world, others⟩ := cold_of_waiting keyed waiting
    (by rw [own]; exact cached) (by rw [blobOf, own]; exact missing) reached
  have waits : (between.locals second).phase = .waiting := by
    rw [others second distinct.symm, waiting']
  have restart : ((dance sha256 calls .empty).machine.startingAt between).ReachedBy
      (Obliging sha256 calls key) between := .initial rfl
  obtain ⟨after, reached₂, cold', -⟩ := cold_of_waiting keyed' waits
    (by rw [world, own']; exact cached) (by rw [world, blobOf, own']; exact missing) restart
  rcases recovers between after _ _ reached₁ cold waits reached₂ cold' with warm | warm
  · cases warm
  · cases warm

/-- So has one that a call is about to mark. -/
theorem not_recovers_of_published {point : DanceState} {first second : CallId}
    (reached : (dance sha256 calls .empty).machine.Reachable point)
    (published : (point.locals c).phase.published = true) (family : keyOf sha256 calls c = key)
    (gone : ¬ HasBlob key point.world) (distinct : first ≠ second)
    (hashed : systemHash sha256 (calls first).messages = some key)
    (hashed' : systemHash sha256 (calls second).messages = some key)
    (waiting : (point.locals first).phase = .waiting)
    (waiting' : (point.locals second).phase = .waiting) :
    ¬ Recovers sha256 calls key first second point := by
  obtain ⟨l', alone⟩ := alone_caches sha256 calls key c published point.world
  obtain ⟨config, marked, -, world, others⟩ := reachedBy_of_alone (.initial rfl) alone
  have known : (point.world.bag key).isSome = true := by
    rw [← family]
    apply (bagInvariant_of_reachable reached).present c
    rcases published_cases published with moved | marking
    · rw [moved]; rfl
    · rw [marking]; rfl
  have cached : config.world.bag.isCached key = true := by
    rw [world, family]
    exact isCached_markCached key (.inr ⟨rfl, known⟩)
  have waits : ∀ other, (point.locals other).phase = .waiting →
      (config.locals other).phase = .waiting := by
    intro other waiting
    have apart : other ≠ c := by
      rintro rfl
      rw [waiting] at published
      cases published
    rw [others other apart, waiting]
  apply not_recovers_of_gone marked cached _ distinct hashed hashed' (waits first waiting)
    (waits second waiting')
  rw [world]
  exact gone

/-- From the point on, of any two calls of the family that run one after the other one restores
or seeds it, exactly if the family has its blob there or is neither cached nor about to be; and
every call can come to its end. -/
theorem recovers_iff {point : DanceState} {first second : CallId}
    (reached : (dance sha256 calls .empty).machine.Reachable point)
    (distinct : first ≠ second)
    (hashed : systemHash sha256 (calls first).messages = some key)
    (hashed' : systemHash sha256 (calls second).messages = some key)
    (waiting : (point.locals first).phase = .waiting)
    (waiting' : (point.locals second).phase = .waiting) :
    (Recovers sha256 calls key first second point ↔ Recoverable sha256 calls key point) ∧
    ∀ config c, ((dance sha256 calls .empty).machine.startingAt point).ReachedBy
        (Obliging sha256 calls key) config →
      (config.locals c).phase = .waiting →
      ∃ after result, ((dance sha256 calls .empty).machine.startingAt config).ReachedBy
          (Obliging sha256 calls key) after ∧ (after.locals c).phase = .returned result := by
  refine ⟨⟨fun recovers due => ?_, fun recoverable => ?_⟩, fun config c _ waits => ?_⟩
  · by_contra gone
    rcases due with cached | ⟨c, family, published⟩
    · exact not_recovers_of_gone (.initial rfl) cached gone distinct hashed hashed' waiting
        waiting' recovers
    · exact not_recovers_of_published reached published family gone distinct hashed hashed'
        waiting waiting' recovers
  · intro between after result result' run returned _ _ _
    left
    exact warm_of_waiting recoverable hashed waiting run returned
  · exact returns_of_waiting waits (.initial rfl)

/-! ## Runs -/

/-- The key of the family that is seeded below. -/
def sysKey : String :=
  keyOf zeroHash oneFamily 0

theorem evicted_stays_cold :
    ¬ ∀ (sha256 : List UInt8 → Digest) (calls : CallId → Call) (key : String)
        (point : DanceState) (first second : CallId),
      (dance sha256 calls .empty).machine.Reachable point →
      first ≠ second →
      systemHash sha256 (calls first).messages = some key →
      systemHash sha256 (calls second).messages = some key →
      (point.locals first).phase = .waiting →
      (point.locals second).phase = .waiting →
      Recovers sha256 calls key first second point := by
  intro recovers
  have executed : (((dance zeroHash oneFamily .empty).machine.run (fun _ _ => true) danceStart
      (admitted 0 ++ danced 0 ++ [(0, .evict (seedBlobName sysKey))])).map fun config =>
        (config.world.bag.isCached sysKey, (config.world.dir (seedBlobName sysKey)).isSome,
          (config.locals 1).phase, (config.locals 2).phase)) =
      some (true, false, .waiting, .waiting) := by
    decide
  obtain ⟨point, reached, observed⟩ := Machine.reachedBy_of_observed (fun _ _ _ => trivial)
    (initial_danceStart zeroHash oneFamily) executed
  obtain ⟨cached, observed⟩ := Prod.mk.inj observed
  obtain ⟨gone, observed⟩ := Prod.mk.inj observed
  obtain ⟨waiting, waiting'⟩ := Prod.mk.inj observed
  have missing : ¬ HasBlob sysKey point.world := by
    rw [HasBlob, gone]
    exact Bool.false_ne_true
  have recovered := recovers zeroHash oneFamily sysKey point 1 2 reached (by decide) rfl rfl
    waiting waiting'
  exact not_recovers_of_gone (.initial rfl) cached missing (by decide) rfl rfl waiting waiting'
    recovered

/-- A seeded family that keeps its blob. -/
theorem recovers_seeded :
    ∃ point : DanceState, (point.locals 0).phase = .returned .seeded ∧
      Recovers zeroHash oneFamily sysKey 1 2 point := by
  have executed : (((dance zeroHash oneFamily .empty).machine.run (fun _ _ => true) danceStart
      (admitted 0 ++ danced 0)).map fun config =>
        ((config.locals 0).phase, (config.world.dir (seedBlobName sysKey)).isSome,
          (config.locals 1).phase, (config.locals 2).phase)) =
      some (.returned .seeded, true, .waiting, .waiting) := by
    decide
  obtain ⟨point, reached, observed⟩ := Machine.reachedBy_of_observed (fun _ _ _ => trivial)
    (initial_danceStart zeroHash oneFamily) executed
  obtain ⟨seeded, observed⟩ := Prod.mk.inj observed
  obtain ⟨present, observed⟩ := Prod.mk.inj observed
  obtain ⟨waiting, waiting'⟩ := Prod.mk.inj observed
  refine ⟨point, seeded, ?_⟩
  exact (recovers_iff reached (by decide) rfl rfl waiting waiting').1.mpr fun _ => present

end Ollm.Seed
