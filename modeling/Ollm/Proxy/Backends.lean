import Ollm.Proxy.Restart

/-!
# Backends

Restarts may put the proxy in front of another backend: another model, template
or context size.  Blobs of all backends share one directory; what keeps their
states apart is the signature in the blobs' names.
-/

namespace Ollm.Proxy

open Keying

/-- The proxy on the backend whose signature it computed when it started.  `era`
remembers the signature that each turn was served under. -/
structure Site where
  world : World
  sig : String
  era : RequestId → Option String

/-- The backend that a restart finds.  One with the same signature may be the
same process still, with some of its slots as they were. -/
structure Relaunch where
  props : Option Json.Value
  kept : SlotId → Bool

section Machine

variable (sha256 : List UInt8 → Digest) (requests : RequestId → Request)

def Site.act (r : RequestId) (action : Action) (phase : Phase) (site : Site) :
    Option (Phase × Site) :=
  (Proxy.act site.sig requests r action phase site.world).map fun result =>
    (result.1, { site with
      world := result.2
      era := if action = .enter then Function.update site.era r (some site.sig) else site.era })

def Site.relaunch (relaunch : Relaunch) (site : Site) : Site :=
  let sig := backendSig sha256 relaunch.props
  { site with
    sig := sig
    world := site.world.restart fun id =>
      if sig = site.sig ∧ relaunch.kept id = true then site.world.kv id else .blank }

/-- The first start, on an empty cache directory. -/
structure Site.Fresh (site : Site) : Prop where
  sig : ∃ props, site.sig = backendSig sha256 props
  world : site.world.Fresh
  blobs : site.world.blobs = fun _ => none
  kv : site.world.kv = fun _ => .blank
  era : site.era = fun _ => none

def siteThreads : Threads RequestId Site Phase Action where
  Initial := Site.Fresh sha256
  start _ := .waiting
  act := Site.act requests

def sites : Machine (Threads.Config RequestId Site Phase) (RequestId × Action ⊕ Relaunch) :=
  (siteThreads sha256 requests).crashing Phase.abort (Site.relaunch sha256)

end Machine

/-- The state stems from a turn that was served under the signature. -/
def Content.Stems (era : RequestId → Option String) (sig : String) : Content → Prop
  | .blank => True
  | .left turn | .torn turn => era turn = some sig

/-- Slots hold states of the running backend only, blobs states of the backend
they are named for. -/
structure Apart (site : Site) : Prop where
  sig : site.sig.length = 12
  slots : ∀ id, (site.world.kv id).Stems site.era site.sig
  blobs : ∀ sig session content, sig.length = 12 →
    site.world.blobs (blobName sig session) = some content → content.Stems site.era sig

/-- What a save has read from its slot. -/
def Phase.captured : Phase → Option Content
  | .saving _ _ _ (.asking captured) => captured
  | .saving _ _ _ (.publishing content) => some content
  | _ => none

/-- A request has no era before it enters, then the running one, and what it has
captured from a slot is of that era too. -/
structure Served (r : RequestId) (phase : Phase) (site : Site) : Prop where
  waiting : phase = .waiting → site.era r = none
  active : phase.resting = false → site.era r = some site.sig
  captured : ∀ content, phase.captured = some content → content.Stems site.era site.sig

variable {sha256 : List UInt8 → Digest} {requests : RequestId → Request} {r : RequestId}

theorem Content.Stems.enter {era : RequestId → Option String} {sig : String} {content : Content}
    (stems : content.Stems era sig) (unserved : era r = none) (running : String) :
    content.Stems (Function.update era r (some running)) sig := by
  have kept : ∀ turn, era turn = some sig →
      Function.update era r (some running) turn = some sig := by
    intro turn served
    by_cases same : turn = r
    · rw [same, unserved] at served
      cases served
    · rwa [Function.update_of_ne same]
  cases content with
  | blank => trivial
  | left turn | torn turn => exact kept turn stems

/-! ## Where states come from -/

section Steps

variable {backendSig : String} {action : Action} {phase phase' : Phase} {world world' : World}

theorem captured_of_onward {phase : Phase} (onward : Onward phase) : phase.captured = none := by
  cases onward <;> rfl

theorem Step.captured_origin (step : Step backendSig requests r action phase world phase' world')
    {content : Content} (captured : phase'.captured = some content) :
    phase.captured = some content ∨ ∃ id, world.kv id = content := by
  cases step with
  | @capture _ id => exact .inr ⟨id, Option.some.inj captured⟩
  | saved => exact .inl captured
  | pick => simp [captured_of_onward (onward_afterPick _ _)] at captured
  | choose => simp [captured_of_onward (onward_afterChoice _ _)] at captured
  | saveFailed | publishFailed | clean =>
      simp [captured_of_onward (onward_afterSave _ _ _)] at captured
  | @complete steer | @bodyBroken steer | @hungUp steer => cases steer <;> cases captured
  | _ => cases captured

/-- Turns run and blobs are loaded; nothing else is done to the backend's slots. -/
theorem Step.kv_origin (step : Step backendSig requests r action phase world phase' world')
    (id : SlotId) :
    world'.kv id = world.kv id ∨ world'.kv id = .torn r ∨ world'.kv id = .left r ∨
      world.blobs (blobName backendSig (requests r).session) = some (world'.kv id) := by
  cases step with
  | @land slot =>
      by_cases same : id = slot
      · exact .inr (.inl (by simp [same]))
      · exact .inl (by simp [same])
  | @complete _ slot =>
      by_cases same : id = slot
      · exact .inr (.inr (.inl (by simp [World.complete, same])))
      · exact .inl (by simp [World.complete, same])
  | @load slot _ _ content present =>
      by_cases same : id = slot
      · exact .inr (.inr (.inr (by simpa [same] using present)))
      · exact .inl (by simp [same])
  | _ => exact .inl rfl

theorem Step.blob_origin (step : Step backendSig requests r action phase world phase' world')
    {name : String} {content : Content} (found : world'.blobs name = some content) :
    world.blobs name = some content ∨
      ∃ session, name = blobName backendSig session ∧ phase.captured = some content := by
  cases step with
  | @publishVictim _ _ session published | @publishTurn _ session published =>
      by_cases same : name = blobName backendSig session
      · have found : some published = some content := by
          simpa [World.publish, World.settle, same] using found
        exact .inr ⟨session, same, found⟩
      · exact .inl (by simpa [World.publish, World.settle, same] using found)
  | @remove removed =>
      by_cases same : name = removed
      · simp [World.evict, same] at found
      · exact .inl (by simpa [World.evict, same] using found)
  | _ => exact .inl found

theorem Onward.ne_waiting (onward : Onward phase) : phase ≠ .waiting := by
  cases onward <;> exact nofun

/-- Requests act from their entering to their end. -/
theorem Step.active (step : Step backendSig requests r action phase world phase' world') :
    phase' ≠ .waiting ∧ (action = .enter ∨ phase.resting = false ∧ action ≠ .enter) := by
  cases step with
  | enter => exact ⟨nofun, .inl rfl⟩
  | pick => exact ⟨(onward_afterPick _ _).ne_waiting, .inr ⟨rfl, nofun⟩⟩
  | choose => exact ⟨(onward_afterChoice _ _).ne_waiting, .inr ⟨rfl, nofun⟩⟩
  | saveFailed | publishFailed | clean =>
      exact ⟨(onward_afterSave _ _ _).ne_waiting, .inr ⟨rfl, nofun⟩⟩
  | @complete steer | @bodyBroken steer | @hungUp steer =>
      cases steer <;> exact ⟨nofun, .inr ⟨rfl, nofun⟩⟩
  | drop permitted =>
      refine ⟨nofun, .inr ⟨?_, nofun⟩⟩
      cases phase with
      | waiting | done => cases permitted
      | _ => rfl
  | _ => exact ⟨nofun, .inr ⟨rfl, nofun⟩⟩

end Steps

/-! ## Each backend's states stay its own -/

/-- What a site looks like after the step of a request. -/
theorem Site.act_eq_some {action : Action} {phase phase' : Phase} {site site' : Site}
    (acted : site.act requests r action phase = some (phase', site')) :
    Step site.sig requests r action phase site.world phase' site'.world ∧
      site'.sig = site.sig ∧
      site'.era = if action = .enter then Function.update site.era r (some site.sig)
        else site.era := by
  obtain ⟨⟨_, world'⟩, moved, same⟩ := Option.map_eq_some_iff.mp acted
  obtain ⟨rfl, rfl⟩ := Prod.mk.inj same
  exact ⟨step_of_act moved, rfl, rfl⟩

theorem Step.waiting_of_enter {backendSig : String} {phase phase' : Phase} {world world' : World}
    (step : Step backendSig requests r .enter phase world phase' world') : phase = .waiting := by
  cases step with
  | enter => rfl

/-- No request changes where a state that exists already stems from. -/
theorem Content.Stems.act {action : Action} {phase phase' : Phase} {site site' : Site}
    {content : Content} {sig : String} (stems : content.Stems site.era sig)
    (served : Served r phase site)
    (acted : site.act requests r action phase = some (phase', site')) :
    content.Stems site'.era sig := by
  obtain ⟨step, -, era⟩ := Site.act_eq_some acted
  rw [era]
  split_ifs with enters
  · subst enters
    exact stems.enter (served.waiting step.waiting_of_enter) site.sig
  · exact stems

theorem Served.era_act {action : Action} {phase phase' : Phase} {site site' : Site}
    (served : Served r phase site)
    (acted : site.act requests r action phase = some (phase', site')) :
    site'.era r = some site.sig := by
  obtain ⟨step, -, era⟩ := Site.act_eq_some acted
  rw [era]
  rcases step.active.2 with enters | ⟨running, later⟩
  · simp [enters]
  · rw [if_neg later]
    exact served.active running

theorem Apart.act {action : Action} {phase phase' : Phase} {site site' : Site}
    (apart : Apart site) (served : Served r phase site)
    (acted : site.act requests r action phase = some (phase', site')) : Apart site' := by
  obtain ⟨step, sig, -⟩ := Site.act_eq_some acted
  have era := served.era_act acted
  refine ⟨sig ▸ apart.sig, fun id => ?_, fun sig' session content short found => ?_⟩
  · rw [sig]
    rcases step.kv_origin id with kept | torn | left | loaded
    · rw [kept]
      exact (apart.slots id).act served acted
    · rw [torn]
      exact era
    · rw [left]
      exact era
    · exact (apart.blobs _ _ _ apart.sig loaded).act served acted
  · rcases step.blob_origin found with kept | ⟨session', named, captured⟩
    · exact (apart.blobs _ _ _ short kept).act served acted
    · -- the names tell the signatures
      rw [(blobName_inj (short.trans apart.sig.symm) named).2]
      exact (served.captured content captured).act served acted

theorem Served.act {action : Action} {phase phase' : Phase} {site site' : Site}
    (served : Served r phase site) (apart : Apart site)
    (acted : site.act requests r action phase = some (phase', site')) :
    Served r phase' site' := by
  obtain ⟨step, sig, -⟩ := Site.act_eq_some acted
  refine ⟨fun waits => absurd waits step.active.1, fun _ => ?_, fun content captured => ?_⟩
  · rw [sig]
    exact served.era_act acted
  · rw [sig]
    rcases step.captured_origin captured with before | ⟨id, rfl⟩
    · exact (served.captured content before).act served acted
    · exact (apart.slots id).act served acted

theorem Served.undisturbed {action : Action} {phase phase' : Phase} {site site' : Site}
    (served : Served r phase site)
    (acted : site.act requests r action phase = some (phase', site'))
    {other : RequestId} {own : Phase} (distinct : other ≠ r) (holds : Served other own site) :
    Served other own site' := by
  obtain ⟨-, sig, era⟩ := Site.act_eq_some acted
  have kept : site'.era other = site.era other := by
    rw [era]
    split_ifs
    · exact Function.update_of_ne distinct _ _
    · rfl
  refine ⟨?_, ?_, ?_⟩
  · rw [kept]
    exact holds.waiting
  · rw [kept, sig]
    exact holds.active
  · rw [sig]
    exact fun content captured => (holds.captured content captured).act served acted

theorem Apart.relaunch {site : Site} (apart : Apart site) (relaunch : Relaunch) :
    Apart (site.relaunch sha256 relaunch) where
  sig := length_backendSig sha256 relaunch.props
  slots id := by
    simp only [Site.relaunch, World.restart]
    split_ifs with kept
    · rw [kept.1]
      exact apart.slots id
    · trivial
  blobs sig session content short found := apart.blobs sig session content short found

theorem Served.relaunch {phase : Phase} {site : Site} (served : Served r phase site)
    (relaunch : Relaunch) : Served r phase.abort (site.relaunch sha256 relaunch) := by
  refine ⟨fun waits => ?_, fun running => ?_, fun content captured => ?_⟩
  · cases phase with
    | waiting => exact served.waiting rfl
    | _ => cases waits
  · rw [resting_abort] at running
    cases running
  · cases phase <;> cases captured

theorem apart_and_served {config : Threads.Config RequestId Site Phase}
    (reached : (sites sha256 requests).Reachable config) :
    Apart config.world ∧ ∀ r, Served r (config.locals r) config.world := by
  refine reached.invariant (fun config => Apart config.world ∧
    ∀ r, Served r (config.locals r) config.world) ?_ ?_
  · rintro config ⟨fresh, locals⟩
    obtain ⟨props, sig⟩ := fresh.sig
    refine ⟨⟨sig ▸ length_backendSig sha256 props, ?_, ?_⟩, fun r => ?_⟩
    · simp [fresh.kv, Content.Stems]
    · simp [fresh.blobs]
    · rw [locals]
      exact ⟨fun _ => by rw [fresh.era], nofun, nofun⟩
  · rintro before (⟨actor, action⟩ | relaunch) after ⟨apart, served⟩ - moved
    · obtain ⟨acted, others⟩ := (siteThreads sha256 requests).acts_of_machine_step moved
      refine ⟨apart.act (served actor) acted, fun r => ?_⟩
      by_cases same : r = actor
      · subst same
        exact (served r).act apart acted
      · rw [others r same]
        exact (served actor).undisturbed acted same (served r)
    · cases moved
      exact ⟨apart.relaunch relaunch, fun r => (served r).relaunch relaunch⟩

/-- In every interleaving of requests with any number of restarts, each perhaps in
front of another backend, the running backend's slots hold only states of turns
served under its own signature, and so do the blobs named for any signature. -/
theorem backends_apart {config : Threads.Config RequestId Site Phase}
    (reached : (sites sha256 requests).Reachable config) {turn : RequestId} {content : Content}
    (stems : content = .left turn ∨ content = .torn turn) :
    (∀ id, config.world.world.kv id = content →
      config.world.era turn = some config.world.sig) ∧
    ∀ props session, config.world.world.blobs (blobName (backendSig sha256 props) session) =
      some content → config.world.era turn = some (backendSig sha256 props) := by
  obtain ⟨apart, -⟩ := apart_and_served reached
  have era : ∀ sig, content.Stems config.world.era sig → config.world.era turn = some sig := by
    rintro sig
    rcases stems with rfl | rfl <;> exact id
  refine ⟨fun id holds => era _ (holds ▸ apart.slots id), fun props session found => ?_⟩
  exact era _ (apart.blobs _ session content (length_backendSig sha256 props) found)

def lengthDigest : List UInt8 → Digest :=
  fun input => ⟨UInt8.ofNat input.length :: List.replicate 31 0, rfl⟩

/-- A backend that reports its context size only. -/
def contextProps : Json.Value :=
  .object [("n_ctx", .number (.ofNat 5))]

def sitesStart : Threads.Config RequestId Site Phase :=
  ⟨⟨.empty, backendSig lengthDigest none, fun _ => none⟩, fun _ => .waiting⟩

/-- `hdr-a` has a turn on either of two backends. -/
def turnOnEach : List (RequestId × Action ⊕ Relaunch) :=
  (wholeTurn 0 0).map .inl ++ [.inr ⟨some contextProps, fun _ => true⟩] ++
    (wholeTurn 2 0).map .inl

theorem backends_apart_each :
    ∃ config : Threads.Config RequestId Site Phase,
      config.world.world.blobs (blobName (backendSig lengthDigest none) "hdr-a") =
        some (.left 0) ∧
      config.world.world.kv 0 = .left 2 ∧
      config.world.era 0 = some (backendSig lengthDigest none) ∧
      config.world.era 2 = some config.world.sig := by
  have executed : (((sites lengthDigest alternating).run (fun _ _ => true) sitesStart
      turnOnEach).map fun config =>
        (config.world.world.blobs (blobName (backendSig lengthDigest none) "hdr-a"),
          config.world.world.kv 0)) = some (some (.left 0), .left 2) := by
    decide
  have initial : (sites lengthDigest alternating).Initial sitesStart :=
    ⟨⟨⟨none, rfl⟩, World.fresh_empty, rfl, rfl, rfl⟩, rfl⟩
  obtain ⟨config, reached, observed⟩ :=
    Machine.reachedBy_of_observed (fun _ _ _ => trivial) initial executed
  obtain ⟨blob, slot⟩ := Prod.mk.inj observed
  exact ⟨config, blob, slot, (backends_apart reached (.inl rfl)).2 none "hdr-a" blob,
    (backends_apart reached (.inl rfl)).1 0 slot⟩

end Ollm.Proxy
