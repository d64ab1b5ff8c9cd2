import Ollm.Store.Blobs

/-!
# Atomic publication

A save holds the gate exclusively from its request to its last file operation, as
long as its handler is there, so that no other such save writes its scratch file.
From the backend's reply on the scratch name holds the complete file of this save
or nothing, and once it is synced the rename makes it visible.  Failures and crashes
at any point leave scratch files only.

When the handler is dropped the gate is free, while the backend or the publish
closure goes on.  The scratch file is then safe only if no write for another save of
the session comes between.
-/

namespace Ollm.Store

open Keying

variable {backendSig : String} {calls : CallId → Call} {limit : UInt64} {c : CallId}
  {world world' : World}

/-- The complete and synced content of an acknowledged save. -/
structure Published (world : World) (file : File CallId) : Prop where
  complete : file.complete = true
  synced : file.synced = true
  acked : world.acked file.content = true

def Settled (backendSig : String) (world : World) : Prop :=
  ∀ session file, world.dir (blobName backendSig session) = some file → Published world file

def WrittenBy (c : CallId) (name : String) (complete synced : Bool) (world : World) : Prop :=
  ∀ file, world.dir name = some file → file.content = c ∧
    (complete = true → file.complete = true) ∧ (synced = true → file.synced = true)

/-- The complete scratch file is yet to be renamed into place. -/
def Phase.relies (dropped : Bool) : Phase → Bool
  -- an answer that nobody awaits leads to no rename
  | .asking (some true) => !dropped
  | .opening => true
  | .syncing => true
  | .moving => true
  | _ => false

/-- No write of the backend for a save comes between the complete write for another
save of the session and the rename of its publish, the handler of one of the two
being gone. -/
def Uncrossed (calls : CallId → Call) (config : StoreState) :
    CallId × Action ⊕ (String → Bool) → Prop
  | .inl (c, .write _ _) => ∀ other, other ≠ c → calls other = calls c →
      (config.world.dropped c || config.world.dropped other) = true →
      (config.locals other).relies (config.world.dropped other) = false
  | _ => True

/-- What a save relies on while it works on its files. -/
structure Secured (backendSig : String) (calls : CallId → Call) (c : CallId) (phase : Phase)
    (world : World) : Prop where
  /-- The closure runs after the backend's reply only. -/
  acked : phase.relies true = true → world.acked c = true
  written : phase.relies (world.dropped c) = true →
    WrittenBy c (scratchOf backendSig calls c) true (phase == .moving) world

theorem WrittenBy.of_before {name : String} {complete synced : Bool}
    (written : WrittenBy c name complete synced world)
    (before : ∀ file, world'.dir name = some file →
      ∃ before, world.dir name = some before ∧ SameData file before) :
    WrittenBy c name complete synced world' := by
  intro file held
  obtain ⟨earlier, found, content, whole, durable⟩ := before file held
  rw [content, whole, durable]
  exact written earlier found

section Writes

variable {name other : String} {complete synced : Bool} {file : File CallId}

theorem writtenBy_write (len now : Nat) :
    WrittenBy c name complete false
      { world with dir := world.dir.write name ⟨c, complete, false, len, now⟩ } := by
  intro file held
  rcases Directory.write_eq_some held with ⟨-, rfl⟩ | ⟨apart, -⟩
  · exact ⟨rfl, fun whole => whole, nofun⟩
  · exact absurd rfl apart

theorem WrittenBy.write_of_ne (written : WrittenBy c name complete synced world)
    (apart : name ≠ other) :
    WrittenBy c name complete synced { world with dir := world.dir.write other file } := by
  intro file held
  exact written file ((Directory.write_of_ne apart).symm.trans held)

theorem WrittenBy.sync (written : WrittenBy c name complete synced world) :
    WrittenBy c name complete true { world with dir := world.dir.sync name } := by
  intro file held
  rcases Directory.modify_eq_some held with ⟨-, before, found, rfl⟩ | ⟨apart, -⟩
  · obtain ⟨content, whole, -⟩ := written before found
    exact ⟨content, whole, fun _ => rfl⟩
  · exact absurd rfl apart

theorem WrittenBy.weaken (written : WrittenBy c name complete synced world) :
    WrittenBy c name false false world :=
  fun file held => ⟨(written file held).1, nofun, nofun⟩

end Writes

/-! ## The gate -/

def Call.publishes : Call → Bool
  | .save _ => true
  | .seed _ => true
  | _ => false

theorem Step.writes {action : Action} {phase phase' : Phase}
    (step : Step backendSig calls limit c action phase world phase' world')
    (writes : phase'.writes = true) :
    phase.writes = true ∨ (action = .begin ∧ (calls c).publishes = true) := by
  cases step with
  | beginSave isSave => exact .inr ⟨rfl, by simp [isSave, Call.publishes]⟩
  | beginSeed isSeed => exact .inr ⟨rfl, by simp [isSeed, Call.publishes]⟩
  | write | writeSidecar | saved | opened | synced | renamed => exact .inl rfl
  | tick | dropped => exact .inl writes
  | _ => cases writes

theorem save_of_writes (saves : ∀ c key, calls c ≠ .seed key) {config : StoreState}
    (reached : (storeMachine backendSig calls limit).Reachable config)
    (writes : (config.locals c).writes = true) : ∃ session, calls c = .save session := by
  have publishes : (calls c).publishes = true := by
    refine ((store backendSig calls limit).assertion_of_crashing (fun _ => True)
      (fun c phase _ => phase.writes = true → (calls c).publishes = true)
      ?_ ?_ ?_ ?_ reached).2 c writes
    · exact fun world fresh => ⟨trivial, fun c writes => nomatch writes⟩
    · intro config call action phase' world' _ holds _ acted
      refine ⟨trivial, fun writes => ?_⟩
      rcases (step_of_act acted).writes writes with wrote | ⟨-, publishes⟩
      · exact holds call wrote
      · exact publishes
    · exact fun config actor action phase' world' holds _ _ other _ => holds other
    · intro world torn _
      refine ⟨trivial, fun call phase writes => ?_⟩
      cases phase <;> cases writes
  cases isCall : calls c with
  | save session => exact ⟨session, rfl⟩
  | seed key => exact absurd isCall (saves c key)
  | _ => simp [isCall, Call.publishes] at publishes

theorem Step.gate_of_writes {action : Action} {phase phase' : Phase} {session : String}
    (step : Step backendSig calls limit c action phase world phase' world')
    (isSave : calls c = .save session) (writes : phase'.writes = true)
    (there : world'.dropped c = false) :
    world'.gate.writer = some c ∨
      (phase.writes = true ∧ world.dropped c = false ∧ world'.gate = world.gate) := by
  cases step with
  | beginSave _ granted => exact .inl (RwLock.write?_eq_some granted).2
  | beginSeed isSeed => cases isSeed.symm.trans isSave
  | write | writeSidecar | saved | opened | synced | renamed => exact .inr ⟨rfl, there, rfl⟩
  | tick => exact .inr ⟨writes, there, rfl⟩
  | dropped =>
      rw [World.dropped_drop] at there
      cases there
  | _ => cases writes

/-- A save whose handler is there holds the gate as long as it works on its files. -/
theorem writer_of_reached {config : StoreState} {session : String}
    (reached : (storeMachine backendSig calls limit).Reachable config)
    (isSave : calls c = .save session) (writes : (config.locals c).writes = true)
    (there : config.world.dropped c = false) : config.world.gate.writer = some c := by
  refine ((store backendSig calls limit).assertion_of_crashing (fun _ => True)
    (fun c phase world => ∀ session, calls c = .save session → phase.writes = true →
      world.dropped c = false → world.gate.writer = some c) ?_ ?_ ?_ ?_ reached).2
      c session isSave writes there
  · exact fun world fresh => ⟨trivial, fun c _ _ writes => nomatch writes⟩
  · intro config call action phase' world' _ holds _ acted
    refine ⟨trivial, fun session isSave writes there => ?_⟩
    rcases (step_of_act acted).gate_of_writes isSave writes there with
      held | ⟨wrote, stayed, same⟩
    · exact held
    · rw [same]
      exact holds call session isSave wrote stayed
  · intro config actor action phase' world' holds _ acted other distinct session isSave writes
      there
    have step := step_of_act acted
    rw [step.dropped_of_ne distinct] at there
    exact step.writer_kept distinct (holds other session isSave writes there)
  · intro world torn _
    refine ⟨trivial, fun call phase _ _ writes => ?_⟩
    cases phase <;> cases writes

/-- Saves of which both handlers are there do not work at the same time. -/
theorem eq_of_writes {config : StoreState} {other : CallId} {session : String}
    (reached : (storeMachine backendSig calls limit).Reachable config)
    (isSave : calls c = .save session) (isSave' : calls other = .save session)
    (writes : (config.locals c).writes = true) (writes' : (config.locals other).writes = true)
    (there : config.world.dropped c = false) (there' : config.world.dropped other = false) :
    c = other := by
  have holds := writer_of_reached reached isSave writes there
  have holds' := writer_of_reached reached isSave' writes' there'
  exact Option.some.inj (holds.symm.trans holds')

/-! ## The scratch file -/

theorem writes_of_relies {phase : Phase} {dropped : Bool} (relies : phase.relies dropped = true) :
    phase.writes = true := by
  cases phase with
  | asking | opening | syncing | moving => rfl
  | _ => cases relies

theorem relies_of_dropped {phase : Phase} (relies : phase.relies true = true) (dropped : Bool) :
    phase.relies dropped = true := by
  cases phase with
  | asking wrote => rcases wrote with _ | _ | _ <;> cases relies
  | opening | syncing | moving => rfl
  | _ => cases relies

/-- A scratch file stays as it is until the backend writes it again or it is gone. -/
theorem WrittenBy.undisturbed {actor : CallId} {action : Action} {own own' : Phase}
    {session : String} {complete synced : Bool} (isSave : calls c = .save session)
    (saves : own.writes = true → ∃ session, calls actor = .save session)
    (written : WrittenBy c (scratchOf backendSig calls c) complete synced world)
    (unwritten : ∀ complete len, action = .write complete len → calls actor ≠ calls c)
    (step : Step backendSig calls limit actor action own world own' world') :
    WrittenBy c (scratchOf backendSig calls c) complete synced world' := by
  have same : ∀ role, own.writes = true →
      scratchOf backendSig calls c = fileOf (blobOf backendSig calls actor) role →
      calls actor = calls c ∧ role = .scratch := by
    intro role writes named
    obtain ⟨session', isSave'⟩ := saves writes
    rw [scratchOf, blobOf_save isSave, blobOf_save isSave'] at named
    have named : cacheName backendSig session .scratch = cacheName backendSig session' role :=
      named
    obtain ⟨sessions, -, roles⟩ := cacheName_inj rfl named
    exact ⟨by rw [isSave, isSave', sessions], roles.symm⟩
  intro file held
  cases step with
  | write =>
      rcases Directory.write_eq_some held with ⟨named, -⟩ | ⟨-, before⟩
      · exact absurd (same .scratch rfl named).1 (unwritten _ _ rfl)
      · exact written file before
  | writeSidecar =>
      rcases Directory.write_eq_some held with ⟨named, -⟩ | ⟨-, before⟩
      · cases (same .scratchSidecar rfl named).2
      · exact written file before
  | synced =>
      rcases Directory.modify_eq_some held with ⟨-, before, found, rfl⟩ | ⟨-, before⟩
      · obtain ⟨content, whole, -⟩ := written before found
        exact ⟨content, whole, fun _ => rfl⟩
      · exact written file before
  | renamed =>
      rcases Directory.rename_eq_some held with ⟨named, -⟩ | before
      · cases (same .blob rfl named).2
      · exact written file before
  | carried =>
      rcases Directory.rename_eq_some held with ⟨named, -⟩ | before
      · cases (same .sidecar rfl named).2
      · exact written file before
  | touched =>
      simp only [World.finish, World.touch] at held
      split_ifs at held
      · obtain ⟨before, found, content, whole, durable⟩ := sameData_of_touch held
        rw [content, whole, durable]
        exact written before found
      · exact written file held
  | removed => exact written file (Directory.remove_eq_some held).2
  | _ => exact written file held

theorem Secured.undisturbed {actor : CallId} {action : Action} {phase own own' : Phase}
    (secured : Secured backendSig calls c phase world) (distinct : c ≠ actor)
    (saves : phase.writes = true → ∃ session, calls c = .save session)
    (actors : own.writes = true → ∃ session, calls actor = .save session)
    (uncrossed : ∀ complete len, action = .write complete len → calls c = calls actor →
      phase.relies (world.dropped c) = false)
    (step : Step backendSig calls limit actor action own world own' world') :
    Secured backendSig calls c phase world' := by
  refine ⟨fun relies => step.acked (secured.acked relies), fun relies => ?_⟩
  rw [step.dropped_of_ne distinct] at relies
  obtain ⟨session, isSave⟩ := saves (writes_of_relies relies)
  refine (secured.written relies).undisturbed isSave actors ?_ step
  intro complete len writes same
  rw [uncrossed complete len writes same.symm] at relies
  cases relies

theorem Secured.of_idle {phase : Phase} (idle : ∀ dropped, phase.relies dropped = false) :
    Secured backendSig calls c phase world :=
  ⟨fun relies => absurd ((idle _).symm.trans relies) (by decide),
    fun relies => absurd ((idle _).symm.trans relies) (by decide)⟩

theorem Secured.step {action : Action} {phase phase' : Phase}
    (saves : phase.writes = true → ∃ session, calls c = .save session)
    (secured : Secured backendSig calls c phase world)
    (step : Step backendSig calls limit c action phase world phase' world') :
    Secured backendSig calls c phase' world' := by
  cases step with
  | @write complete =>
      cases complete with
      | false => exact .of_idle fun _ => rfl
      | true => exact ⟨by simp [Phase.relies], fun _ => writtenBy_write _ _⟩
  | writeSidecar =>
      refine ⟨secured.acked, fun relies => ?_⟩
      -- the scratch file is not its own sidecar
      obtain ⟨session, isSave⟩ := saves rfl
      have bin := endsWith_blobName backendSig session
      rw [← blobOf_save isSave] at bin
      have apart : Role.scratch ≠ Role.scratchSidecar := by decide
      exact (secured.written relies).write_of_ne (fileOf_ne bin apart)
  | saved heard =>
      refine ⟨by simp, fun _ => secured.written ?_⟩
      simp [Phase.relies, heard]
  | opened => exact ⟨fun _ => secured.acked rfl, fun _ => secured.written rfl⟩
  | synced => exact ⟨fun _ => secured.acked rfl, fun _ => (secured.written rfl).sync⟩
  | tick => exact ⟨secured.acked, secured.written⟩
  | dropped _ there =>
      refine ⟨secured.acked, fun relies => ?_⟩
      rw [World.dropped_drop] at relies
      exact secured.written (relies_of_dropped relies _)
  | _ => exact .of_idle fun _ => rfl

/-- A blob becomes visible only by the rename of a secured save. -/
theorem Settled.step {action : Action} {phase phase' : Phase}
    (settled : Settled backendSig world)
    (saves : phase.writes = true → ∃ session, calls c = .save session)
    (secured : Secured backendSig calls c phase world)
    (step : Step backendSig calls limit c action phase world phase' world') :
    Settled backendSig world' := by
  intro session file held
  have bin : phase.writes = true → Text.endsWith (blobOf backendSig calls c) ".bin" = true := by
    intro writes
    obtain ⟨own, isSave⟩ := saves writes
    rw [blobOf_save isSave]
    exact endsWith_blobName backendSig own
  rcases (step.origin held).of_blob (endsWith_blobName backendSig session) bin with
    ⟨before, found, content, complete, synced⟩ | ⟨-, rfl, -, scratch⟩
  · obtain ⟨whole, durable, acked⟩ := settled session before found
    exact ⟨complete.trans whole, synced.trans durable, step.acked (content ▸ acked)⟩
  · obtain ⟨content, whole, durable⟩ := secured.written rfl file scratch
    exact ⟨whole rfl, durable rfl, step.acked (content ▸ secured.acked rfl)⟩

theorem Settled.crash (settled : Settled backendSig world) (torn : String → Bool) :
    Settled backendSig (world.crash torn) := by
  intro session file held
  obtain ⟨before, found, -, kept⟩ := Directory.crash_eq_some held
  obtain ⟨whole, durable, acked⟩ := settled session before found
  rw [kept durable]
  exact ⟨whole, durable, acked⟩

/-- In runs without seeds the gate protects the files of every save, as long as no
dropped handler's save crosses another one. -/
theorem secured_of_reached (saves : ∀ c key, calls c ≠ .seed key) {config : StoreState}
    (reached : (storeMachine backendSig calls limit).ReachedBy (Uncrossed calls) config) :
    Settled backendSig config.world ∧
      ∀ c, Secured backendSig calls c (config.locals c) config.world := by
  have unguarded : ∀ config,
      (storeMachine backendSig calls limit).ReachedBy (Uncrossed calls) config →
      (storeMachine backendSig calls limit).Reachable config :=
    fun config earlier => earlier.mono fun _ _ _ => trivial
  refine (store backendSig calls limit).assertion_of_crashing
    (Settled backendSig) (Secured backendSig calls) ?_ ?_ ?_ ?_ (reached.attach unguarded)
  · intro world fresh
    refine ⟨fun session file held => ?_, fun c => .of_idle fun _ => rfl⟩
    rw [fresh.dir] at held
    cases held
  · intro config c action phase' world' settled secured ⟨_, earlier⟩ acted
    have step := step_of_act acted
    have isSave := fun writes => save_of_writes (c := c) saves earlier writes
    exact ⟨settled.step isSave (secured c) step, (secured c).step isSave step⟩
  · intro config actor action phase' world' secured ⟨uncrossed, earlier⟩ acted other distinct
    have step := step_of_act acted
    refine (secured other).undisturbed distinct (save_of_writes saves earlier)
      (save_of_writes saves earlier) ?_ step
    rintro complete len rfl same
    by_contra relies
    rw [Bool.not_eq_false] at relies
    have own : (config.locals actor).writes = true := step.writes_of_write
    obtain ⟨session, isSave⟩ := save_of_writes saves earlier own
    -- the gate keeps the two apart unless one of their handlers is gone
    have there : ¬ (config.world.dropped actor || config.world.dropped other) = true := by
      intro gone
      rw [uncrossed other distinct same gone] at relies
      cases relies
    rw [Bool.or_eq_true, not_or, Bool.not_eq_true, Bool.not_eq_true] at there
    exact distinct (eq_of_writes earlier (same.trans isSave) isSave (writes_of_relies relies) own
      there.2 there.1)
  · intro world torn settled
    refine ⟨settled.crash torn, fun c phase => .of_idle fun _ => ?_⟩
    cases phase <;> rfl

/-- To those who look up blobs, saves are atomic publications of what they asked
the backend for, and quota passes evict one blob at a time. -/
theorem store_refines_blobStore (saves : ∀ c key, calls c ≠ .seed key) :
    (storeMachine backendSig calls limit).Refines (Uncrossed calls)
      (blobStore fun session c => calls c = .save session)
      (fun config => config.world.visible backendSig) where
  start config first session content stored := by
    simp [World.visible, first.1.dir, Directory.empty] at stored
  step before event after reached _ moved := by
    rcases event with ⟨c, action⟩ | torn
    · have secured := (secured_of_reached saves reached).2 c
      have isSave := fun writes =>
        save_of_writes (c := c) saves (reached.mono fun _ _ _ => trivial) writes
      obtain ⟨acted, -⟩ := (store backendSig calls limit).acts_of_machine_step moved
      rcases (step_of_act acted).visible isSave with
        same | ⟨session, file, phase, isSave, scratch, published⟩ | ⟨session, gone⟩
      · exact .inl same
      · rw [phase] at secured
        have content := (secured.written rfl file scratch).1
        refine .inr ⟨.publish session file.content, ?_⟩
        rw [published, content]
        exact if_pos isSave
      · exact .inr ⟨.evict session, congrArg some gone.symm⟩
    · cases moved
      exact .inl (visible_crash torn)

/-- What a lookup may count on. -/
def Intact (backendSig : String) (calls : CallId → Call) (world : World) : Prop :=
  ∀ session file, world.dir (blobName backendSig session) = some file →
    file.complete = true ∧ file.synced = true ∧ world.acked file.content = true ∧
      calls file.content = .save session

/-- In runs of saves, lookups, restores and quota passes, with failures, crashes and
dropped handlers anywhere, each visible blob is the complete and synced content of
one acknowledged save that was requested for the blob's session, as long as no write
for a dropped handler's save, or next to one, replaces a complete scratch file. -/
theorem visible_blob_published (saves : ∀ c key, calls c ≠ .seed key) {config : StoreState}
    (reached : (storeMachine backendSig calls limit).ReachedBy (Uncrossed calls) config) :
    Intact backendSig calls config.world := by
  intro session file visible
  obtain ⟨complete, synced, acked⟩ := (secured_of_reached saves reached).1 session file visible
  have stored : config.world.visible backendSig session = some file.content := by
    rw [World.visible, visible, Option.map_some]
  have requested : calls file.content = .save session :=
    belongs_of_reachable ((store_refines_blobStore saves).reachable reached) stored
  exact ⟨complete, synced, acked, requested⟩

/-! ## Runs -/

/-- The client goes away while the scratch file is fsynced; the next save of the
session gets the gate and rewrites the file before the closure renames it. -/
def droppedPublish : List (CallId × Action ⊕ (String → Bool)) :=
  [(0, .begin), (0, .write true 9), (0, .reply true), (0, .openScratch true), (0, .drop),
    (1, .begin), (1, .write false 4), (0, .sync true), (0, .rename true)].map .inl

theorem droppedPublish_torn :
    ¬ ∀ (backendSig : String) (calls : CallId → Call) (limit : UInt64) (config : StoreState),
      (∀ c key, calls c ≠ .seed key) →
      (storeMachine backendSig calls limit).Reachable config →
      Intact backendSig calls config.world := by
  intro always
  have executed : (((storeMachine "0123456789ab" oneSession 0).run (fun _ _ => true) storeStart
      droppedPublish).map fun config => config.world.dir (blobName "0123456789ab" "hdr-a")) =
      some (some ⟨1, false, true, 4, 0⟩) := by
    decide
  obtain ⟨config, reached, visible⟩ := Machine.reachedBy_of_observed (fun _ _ _ => trivial)
    (initial_storeStart "0123456789ab" oneSession 0) executed
  have saves : ∀ c key, oneSession c ≠ .seed key := by
    intro c key seeded
    cases seeded
  have whole := (always _ oneSession 0 config saves reached "hdr-a" _ visible).1
  exact absurd whole (by decide)

/-- A check for `Uncrossed` when only the first `n` calls have started. -/
def uncrossedAmong (calls : CallId → Call) (n : Nat) (config : StoreState) :
    CallId × Action ⊕ (String → Bool) → Bool
  | .inl (c, .write _ _) => (List.range n).all fun other =>
      decide (other ≠ c → calls other = calls c →
        (config.world.dropped c || config.world.dropped other) = true →
        (config.locals other).relies (config.world.dropped other) = false)
  | _ => true

theorem uncrossed_of_uncrossedAmong {n : Nat} {config : StoreState}
    {event : CallId × Action ⊕ (String → Bool)}
    (unstarted : (store backendSig calls limit).Unstarted n config)
    (checked : uncrossedAmong calls n config event = true) : Uncrossed calls config event := by
  unfold uncrossedAmong at checked
  split at checked
  · intro other
    by_cases started : other < n
    · exact of_decide_eq_true (List.all_eq_true.mp checked other (List.mem_range.mpr started))
    · intro _ _ _
      rw [unstarted other (Nat.le_of_not_lt started)]
      rfl
  · unfold Uncrossed
    split
    · next uncovered => exact absurd rfl (uncovered _ _ _)
    · trivial

/-- The closure is through with its rename when the next save is written. -/
def droppedInTime : List (CallId × Action ⊕ (String → Bool)) :=
  [(0, .begin), (0, .write true 9), (0, .reply true), (0, .openScratch true), (0, .drop),
    (1, .begin), (0, .sync true), (0, .rename true), (1, .write false 4)].map .inl

theorem visible_blob_published_dropped :
    ∃ config : StoreState,
      config.world.dir (blobName "0123456789ab" "hdr-a") = some ⟨0, true, true, 9, 0⟩ ∧
      config.locals 1 = .asking (some false) ∧
      Intact "0123456789ab" oneSession config.world := by
  have executed : (((storeMachine "0123456789ab" oneSession 0).run
      (fun config event => among 2 event && uncrossedAmong oneSession 2 config event) storeStart
      droppedInTime).map fun config =>
        (config.world.dir (blobName "0123456789ab" "hdr-a"), config.locals 1)) =
      some (some ⟨0, true, true, 9, 0⟩, .asking (some false)) := by
    decide
  obtain ⟨config, ran, held⟩ := Option.map_eq_some_iff.mp executed
  obtain ⟨visible, asking⟩ := Prod.mk.inj held
  have saves : ∀ c key, oneSession c ≠ .seed key := by
    intro c key seeded
    cases seeded
  have reached := storeRun (Uncrossed oneSession)
    (fun _ _ unstarted _ checked => uncrossed_of_uncrossedAmong unstarted checked) ran
  exact ⟨config, visible, asking, visible_blob_published saves reached⟩

end Ollm.Store
