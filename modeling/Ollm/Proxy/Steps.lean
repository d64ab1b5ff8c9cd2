import Ollm.Proxy.Chat

/-!
# The steps of a turn

`Step` lists what one action of a request can do, one constructor for each
await it can go on from.  `step_of_act` reads it off the executable `act`, and
every invariant of the proxy is proved by cases on it.
-/

namespace Ollm.Proxy

open Keying

variable (backendSig : String) (requests : RequestId → Request) (r : RequestId)

inductive Step : Action → Phase → World → Phase → World → Prop where
  | enter {world gate} (granted : world.gate.read? r = some gate) :
      Step .enter .waiting world
        (.matching (world.blobs (blobName backendSig (requests r).session)).isSome)
        { world with gate := gate }
  | hot {diskHit id world} (owned : world.slots.owner id = some (requests r).session) :
      Step (.hot id) (.matching diskHit) world (.marking id true) (world.release r)
  | miss {diskHit world}
      (unowned : ∀ id, world.slots.owner id ≠ some (requests r).session) :
      Step .miss (.matching diskHit) world (.snapshot diskHit) world
  | snapshot {diskHit arr world} :
      Step (.report (some arr)) (.snapshot diskHit) world (.picking diskHit arr) world
  | snapshotFailed {diskHit world} :
      Step (.report none) (.snapshot diskHit) world (.seeking diskHit) (world.release r)
  | pick {diskHit arr world} :
      Step .pick (.picking diskHit arr) world
        (afterPick diskHit (world.slots.pickSlot arr).1)
        ({ world with slots := (world.slots.pickSlot arr).2 }.release r)
  | seek {diskHit arr world} :
      Step (.report (some arr)) (.seeking diskHit) world (.choosing diskHit arr) world
  | seekFailed {diskHit world} :
      Step (.report none) (.seeking diskHit) world (.forwarding none false none) world
  | choose {diskHit arr world} :
      Step .choose (.choosing diskHit arr) world
        (afterChoice diskHit (world.slots.findEvictable arr).1)
        { world with slots := (world.slots.findEvictable arr).2 }
  | lock {caller id session world gate} (granted : world.gate.write? r = some gate) :
      Step .lock (.saving caller id session .locking) world
        (.saving caller id session (.asking none)) { world with gate := gate }
  | capture {caller id session captured world} :
      Step .capture (.saving caller id session (.asking captured)) world
        (.saving caller id session (.asking (some (world.kv id)))) world
  | saved {caller id session content world} :
      Step (.saveReply true) (.saving caller id session (.asking (some content))) world
        (.saving caller id session (.publishing content)) world
  | saveFailed {caller id session captured world} :
      Step (.saveReply false) (.saving caller id session (.asking captured)) world
        (afterSave caller id false) (world.release r)
  | publishVictim {diskHit id session content world} :
      Step (.publish true) (.saving (.eviction diskHit) id session (.publishing content)) world
        (.saving (.eviction diskHit) id session .cleaning)
        (world.publish (blobName backendSig session) session content)
  | publishTurn {id session content world} :
      Step (.publish true) (.saving .postTurn id session (.publishing content)) world
        (.saving .postTurn id session .cleaning)
        ((world.publish (blobName backendSig session) session content).settle r)
  | publishFailed {caller id session content world} :
      Step (.publish false) (.saving caller id session (.publishing content)) world
        (afterSave caller id false) (world.release r)
  | clean {caller id session world} :
      Step .clean (.saving caller id session .cleaning) world (afterSave caller id true)
        ({ world with slots := world.slots.markClean id }.release r)
  | load {id loaded world content}
      (present : world.blobs (blobName backendSig (requests r).session) = some content) :
      Step .load (.restoring id loaded) world (.restoring id true)
        { world with kv := Function.update world.kv id content }
  | restored {ok id loaded world} (honest : ok = true → loaded = true) :
      Step (.restoreReply ok) (.restoring id loaded) world (.marking id false) world
  | mark {id hot world} :
      Step .mark (.marking id hot) world (.forwarding (some id) hot none)
        (world.mark r id (requests r).session)
  | land {slot steer hot world}
      (runs : runsOn (forwardBody (requests r).body steer) slot = true) :
      Step (.land slot) (.forwarding steer hot none) world
        (.forwarding steer hot (some slot))
        { world with kv := Function.update world.kv slot (.torn r) }
  | success {steer hot slot world} :
      Step (.answer .success) (.forwarding steer hot (some slot)) world
        (.receiving steer slot) world
  | failed {steer hot ranOn world} :
      Step (.answer .failed) (.forwarding steer hot ranOn) world .done (world.settle r)
  | refused {steer hot ranOn world} :
      Step (.answer .refused) (.forwarding steer hot ranOn) world .done (world.settle r)
  | complete {steer slot world} :
      Step (.finish .complete) (.receiving steer slot) world (afterBody steer)
        (world.complete r (requests r).session steer slot)
  | streamBroken {steer slot world} (stream : isStream (requests r).body = true) :
      Step (.finish .broken) (.receiving steer slot) world .done (world.settle r)
  | bodyBroken {steer slot world} (plain : isStream (requests r).body = false) :
      Step (.finish .broken) (.receiving steer slot) world (afterBody steer) (world.settle r)
  | hungUp {steer slot world} (stream : isStream (requests r).body = true) :
      Step (.finish .hungUp) (.receiving steer slot) world (afterHangUp steer)
        (world.settle r)
  | cleanUp {id world} :
      Step .cleanUp (.abandoning id) world .done
        { world with slots := world.slots.abandon id }
  | relabel {id world} :
      Step .relabel (.relabelling id) world
        (.saving .postTurn id (requests r).session .locking)
        { world with slots := world.slots.relabel id (requests r).session }
  | remove {name world} :
      Step (.remove name) .enforcing world .enforcing (world.evict backendSig name)
  | settle {world} : Step .settle .enforcing world .done world
  | drop {phase world} (permitted : droppable requests r phase = true) :
      Step .drop phase world .done ((world.release r).settle r)

variable {backendSig requests r}

theorem owner_ne_of_hotSlots_eq_nil {g : Registry} {session : String}
    (empty : g.hotSlots session = []) (id : SlotId) : g.owner id ≠ some session := by
  intro owned
  rw [← Registry.mem_hotSlots, empty] at owned
  cases owned

/-- The executable action takes the listed steps only. -/
theorem step_of_act {action : Action} {phase phase' : Phase} {world world' : World}
    (acted : act backendSig requests r action phase world = some (phase', world')) :
    Step backendSig requests r action phase world phase' world' := by
  unfold act at acted
  split at acted
  all_goals try (obtain ⟨rfl, rfl⟩ := Prod.mk.inj (Option.some.inj acted); constructor)
  -- what remains are the actions with a condition, in the order of `act`
  case h_1 =>
    obtain ⟨gate, granted, entered⟩ := Option.bind_eq_some_iff.mp acted
    obtain ⟨rfl, rfl⟩ := Prod.mk.inj (Option.some.inj entered)
    exact .enter granted
  case h_2 =>
    split_ifs at acted with hot
    obtain ⟨rfl, rfl⟩ := Prod.mk.inj (Option.some.inj acted)
    exact .hot (Registry.mem_hotSlots.mp hot)
  case h_3 =>
    split_ifs at acted with cold
    obtain ⟨rfl, rfl⟩ := Prod.mk.inj (Option.some.inj acted)
    exact .miss (owner_ne_of_hotSlots_eq_nil cold)
  case h_10 =>
    obtain ⟨gate, granted, locked⟩ := Option.bind_eq_some_iff.mp acted
    obtain ⟨rfl, rfl⟩ := Prod.mk.inj (Option.some.inj locked)
    exact .lock granted
  case h_18 =>
    obtain ⟨content, present, loaded⟩ := Option.bind_eq_some_iff.mp acted
    obtain ⟨rfl, rfl⟩ := Prod.mk.inj (Option.some.inj loaded)
    exact .load present
  case h_19 ok _ loaded =>
    split_ifs at acted with early
    obtain ⟨rfl, rfl⟩ := Prod.mk.inj (Option.some.inj acted)
    exact .restored (by simpa using early)
  case h_21 =>
    split_ifs at acted with runs
    obtain ⟨rfl, rfl⟩ := Prod.mk.inj (Option.some.inj acted)
    exact .land runs
  case h_26 =>
    split_ifs at acted with stream
    all_goals obtain ⟨rfl, rfl⟩ := Prod.mk.inj (Option.some.inj acted)
    · exact .streamBroken stream
    · exact .bodyBroken (by simpa using stream)
  case h_27 =>
    split_ifs at acted with stream
    obtain ⟨rfl, rfl⟩ := Prod.mk.inj (Option.some.inj acted)
    exact .hungUp stream
  case h_32 =>
    split_ifs at acted with permitted
    obtain ⟨rfl, rfl⟩ := Prod.mk.inj (Option.some.inj acted)
    exact .drop permitted
  case h_33 => cases acted

/-- The awaits at which an admission, a lookup or a save goes on. -/
inductive Onward : Phase → Prop where
  | restoring {id} : Onward (.restoring id false)
  | marking {id} : Onward (.marking id false)
  | seeking {diskHit} : Onward (.seeking diskHit)
  | evicting {diskHit id victim} : Onward (.saving (.eviction diskHit) id victim .locking)
  | unsteered : Onward (.forwarding none false none)
  | enforcing : Onward .enforcing

theorem onward_admission (diskHit : Bool) (id : SlotId) : Onward (admission diskHit id) := by
  cases diskHit with
  | true => exact .restoring
  | false => exact .marking

theorem onward_afterPick (diskHit : Bool) (picked : Option SlotId) :
    Onward (afterPick diskHit picked) := by
  cases picked with
  | none => exact .seeking
  | some id => exact onward_admission diskHit id

theorem onward_afterChoice (diskHit : Bool) (free : Option (SlotId × Option String)) :
    Onward (afterChoice diskHit free) := by
  rcases free with - | ⟨id, - | victim⟩
  · exact .unsteered
  · exact onward_admission diskHit id
  · exact .evicting

theorem onward_afterSave (caller : Caller) (id : SlotId) (ok : Bool) :
    Onward (afterSave caller id ok) := by
  cases caller with
  | postTurn => exact .enforcing
  | eviction diskHit =>
      cases ok with
      | false => exact .unsteered
      | true => exact onward_admission diskHit id

end Ollm.Proxy
