import Ollm.Store.Publication

/-!
# Sidecar coherence

A blob and its checkpoint sidecar are renamed one after the other, and the
sidecar is optional.  A published pair stems from one save as long as the blob
is renamed where no sidecar is left, neither at the final name nor, from another
save, at the scratch name.
-/

namespace Ollm.Store

open Keying

variable {backendSig : String} {calls : CallId → Call} {limit : UInt64} {c : CallId}
  {world world' : World}

/-- No publish of a blob begins while another one works on it. -/
def Sequential (backendSig : String) (calls : CallId → Call) (config : StoreState) :
    CallId × Action ⊕ (String → Bool) → Prop
  | .inl (c, .begin) => (calls c).publishes = true → ∀ other, other ≠ c →
      blobOf backendSig calls other = blobOf backendSig calls c →
      (config.locals other).writes = false
  | _ => True

/-- A blob is renamed only where no earlier sidecar is in the way: there is none
under the final name, and one under the scratch name is of the same save. -/
def Unmixed (backendSig : String) (calls : CallId → Call) (config : StoreState) :
    CallId × Action ⊕ (String → Bool) → Prop
  | .inl (c, .rename true) =>
      config.world.dir (sidecarPath (blobOf backendSig calls c)) = none ∧
        WrittenBy c (sidecarPath (scratchOf backendSig calls c)) false false config.world
  | _ => True

/-- Visible blobs and sidecars of one name were written by one save. -/
def Coherent (backendSig : String) (calls : CallId → Call) (world : World) : Prop :=
  ∀ c, (calls c).publishes = true → ∀ blob ckpt,
    world.dir (blobOf backendSig calls c) = some blob →
    world.dir (sidecarPath (blobOf backendSig calls c)) = some ckpt →
    ckpt.content = blob.content

/-- What a publish relies on while it works on its files. -/
def Tracked (backendSig : String) (calls : CallId → Call) (c : CallId) (phase : Phase)
    (world : World) : Prop :=
  (phase.writes = true → (calls c).publishes = true) ∧
  match phase with
  | .asking (some _) | .opening | .syncing | .moving =>
      WrittenBy c (scratchOf backendSig calls c) false false world
  | .carrying =>
      WrittenBy c (blobOf backendSig calls c) false false world ∧
        WrittenBy c (sidecarPath (scratchOf backendSig calls c)) false false world
  | _ => True

def NoOverlap (backendSig : String) (calls : CallId → Call) (locals : CallId → Phase) : Prop :=
  ∀ c other, other ≠ c → blobOf backendSig calls other = blobOf backendSig calls c →
    (locals c).writes = true → (locals other).writes = false

theorem endsWith_blobOf (backendSig : String) (publishes : (calls c).publishes = true) :
    Text.endsWith (blobOf backendSig calls c) ".bin" = true := by
  unfold blobOf
  cases isCall : calls c with
  | save session => exact endsWith_blobName backendSig session
  | seed key => exact endsWith_seedBlobName key
  | _ => simp [isCall, Call.publishes] at publishes

/-- The gate keeps a save from beginning while another one works on its files whose
handler is there. -/
theorem quiet_of_begin {before after : StoreState} {other : CallId} {session session' : String}
    (reached : (storeMachine backendSig calls limit).Reachable before)
    (isSave : calls c = .save session) (isSave' : calls other = .save session')
    (there : before.world.dropped other = false)
    (begins : (storeMachine backendSig calls limit).step before (.inl (c, .begin)) = some after) :
    (before.locals other).writes = false := by
  by_contra writes
  rw [Bool.not_eq_false] at writes
  have held := writer_of_reached reached isSave' writes there
  obtain ⟨acted, -⟩ := (store backendSig calls limit).acts_of_machine_step begins
  have step := step_of_act acted
  generalize before.locals c = phase at step
  generalize after.locals c = phase' at step
  generalize after.world = world' at step
  cases step with
  | beginSave _ granted =>
      rw [(RwLock.write?_eq_some granted).1] at held
      cases held
  | beginSeed isCall | beginRestore isCall | beginLimit isCall | beginLookup isCall =>
      cases isCall.symm.trans isSave

/-- In sequential runs no two calls work on one blob at a time. -/
theorem noOverlap_of_reached {config : StoreState}
    (reached : (storeMachine backendSig calls limit).ReachedBy
      (Sequential backendSig calls) config) : NoOverlap backendSig calls config.locals := by
  refine reached.invariant (fun config => NoOverlap backendSig calls config.locals) ?_ ?_
  · rintro ⟨world, locals⟩ ⟨-, rfl⟩ first other distinct same writes
    cases writes
  · rintro before (⟨actor, action⟩ | torn) after noOverlap sequential moved first
      other distinct same writes
    · obtain ⟨acted, others⟩ := (store backendSig calls limit).acts_of_machine_step moved
      have step := step_of_act acted
      have started : ∀ call, call ≠ actor →
          blobOf backendSig calls call = blobOf backendSig calls actor →
          (after.locals actor).writes = true → (before.locals call).writes = false := by
        intro call apart named writesNow
        rcases step.writes writesNow with wrote | ⟨rfl, publishes⟩
        · exact noOverlap actor call apart named wrote
        · exact sequential publishes call apart named
      by_cases isFirst : first = actor
      · subst isFirst
        rw [others other distinct]
        exact started other distinct same writes
      · rw [others first isFirst] at writes
        by_cases isOther : other = actor
        · subst isOther
          by_contra writing
          have quiet := started first isFirst same.symm (by simpa using writing)
          exact absurd (quiet.symm.trans writes) (by decide)
        · rw [others other isOther]
          exact noOverlap first other distinct same writes
    · cases moved
      cases phase : before.locals first <;> simp [phase, Phase.abort, Phase.writes] at writes

/-- The files of one blob are safe from steps of calls that work on others. -/
theorem Tracked.undisturbed {actor : CallId} {action : Action} {phase own own' : Phase}
    (tracked : Tracked backendSig calls c phase world)
    (actors : Tracked backendSig calls actor own world)
    (apart : blobOf backendSig calls c = blobOf backendSig calls actor →
      phase.writes = true → own.writes = false)
    (step : Step backendSig calls limit actor action own world own' world') :
    Tracked backendSig calls c phase world' := by
  by_cases writing : phase.writes = true
  · have bin := endsWith_blobOf backendSig (tracked.1 writing)
    have before : ∀ role file,
        world'.dir (fileOf (blobOf backendSig calls c) role) = some file →
        ∃ earlier, world.dir (fileOf (blobOf backendSig calls c) role) = some earlier ∧
          SameData file earlier := by
      intro role file held
      rcases (step.origin held).kept_or_own with earlier | ⟨writes, role', named⟩
      · exact earlier
      · have blobs := (fileOf_inj role role' bin (endsWith_blobOf _ (actors.1 writes)) named).1
        exact absurd ((apart blobs writing).symm.trans writes) (by decide)
    refine ⟨tracked.1, ?_⟩
    obtain ⟨-, content⟩ := tracked
    cases phase with
    | asking wrote =>
        cases wrote with
        | none => trivial
        | some complete => exact content.of_before (before .scratch)
    | opening | syncing | moving => exact content.of_before (before .scratch)
    | carrying =>
        exact ⟨content.1.of_before (before .blob), content.2.of_before (before .scratchSidecar)⟩
    | _ => trivial
  · refine ⟨fun writes => absurd writes writing, ?_⟩
    cases phase <;> trivial

theorem Tracked.of_idle {phase : Phase} (idle : phase.writes = false) :
    Tracked backendSig calls c phase world := by
  refine ⟨fun writes => absurd (idle.symm.trans writes) (by decide), ?_⟩
  cases phase <;> trivial

theorem Tracked.step {config : StoreState} {action : Action} {phase' : Phase}
    (tracked : Tracked backendSig calls c (config.locals c) config.world)
    (unmixed : Unmixed backendSig calls config (.inl (c, action)))
    (step : Step backendSig calls limit c action (config.locals c) config.world phase' world') :
    Tracked backendSig calls c phase' world' := by
  obtain ⟨world, locals⟩ := config
  simp only at tracked step
  generalize locals c = phase at tracked step
  cases step with
  | beginSave isSave => exact ⟨fun _ => by simp [isSave, Call.publishes], trivial⟩
  | beginSeed isSeed => exact ⟨fun _ => by simp [isSeed, Call.publishes], trivial⟩
  | write =>
      exact ⟨fun _ => tracked.1 rfl, (writtenBy_write _ _).weaken⟩
  | @writeSidecar _ _ wrote =>
      refine ⟨fun _ => tracked.1 rfl, ?_⟩
      cases wrote with
      | none => trivial
      | some complete =>
          have bin := endsWith_blobOf backendSig (tracked.1 rfl)
          have apart : Role.scratch ≠ Role.scratchSidecar := by decide
          exact WrittenBy.write_of_ne tracked.2 (fileOf_ne bin apart)
  | saved | opened => exact ⟨fun _ => tracked.1 rfl, tracked.2⟩
  | synced =>
      exact ⟨fun _ => tracked.1 rfl, tracked.2.sync.weaken⟩
  | renamed present =>
      obtain ⟨moved, found⟩ := Option.isSome_iff_exists.mp present
      refine ⟨fun _ => tracked.1 rfl, fun file held => ?_, fun file held => ?_⟩
      · obtain rfl := Option.some.inj ((Directory.rename_target found).symm.trans held)
        exact tracked.2 moved found
      · have bin := endsWith_blobOf backendSig (tracked.1 rfl)
        have apart : Role.scratchSidecar ≠ Role.blob := by decide
        rcases Directory.rename_eq_some held with ⟨same, -⟩ | before
        · exact absurd same (fileOf_ne bin apart)
        · exact unmixed.2 file before
  | tick | dropped => exact tracked
  | _ => exact .of_idle rfl

/-- Coherence survives the two renames of an unmixed publish. -/
theorem Coherent.step {config : StoreState} {action : Action} {phase' : Phase}
    (coherent : Coherent backendSig calls config.world)
    (tracked : Tracked backendSig calls c (config.locals c) config.world)
    (unmixed : Unmixed backendSig calls config (.inl (c, action)))
    (step : Step backendSig calls limit c action (config.locals c) config.world phase' world') :
    Coherent backendSig calls world' := by
  intro call publishes blob ckpt blobHeld ckptHeld
  have bin := endsWith_blobOf backendSig publishes
  have own := fun writes => endsWith_blobOf backendSig (tracked.1 writes)
  rcases (step.origin blobHeld).of_blob bin own with
    ⟨oldBlob, blobFound, blobSame⟩ | ⟨rfl, phase, named, scratch⟩
  · rcases (step.origin ckptHeld).of_sidecar bin own with
      ⟨oldCkpt, ckptFound, ckptSame⟩ | ⟨rfl, phase, named, scratch⟩
    · rw [blobSame.1, ckptSame.1]
      exact coherent call publishes oldBlob oldCkpt blobFound ckptFound
    · -- the sidecar joins the blob of its own save
      rw [phase] at tracked
      rw [named] at blobFound
      rw [blobSame.1, (tracked.2.1 oldBlob blobFound).1, (tracked.2.2 ckpt scratch).1]
  · rcases (step.origin ckptHeld).of_sidecar bin own with
      ⟨oldCkpt, ckptFound, -⟩ | ⟨acts, -⟩
    · -- no earlier sidecar was left
      rw [named, unmixed.1] at ckptFound
      cases ckptFound
    · cases acts

theorem Coherent.crash (coherent : Coherent backendSig calls world) (torn : String → Bool) :
    Coherent backendSig calls (world.crash torn) := by
  intro call publishes blob ckpt blobHeld ckptHeld
  obtain ⟨oldBlob, blobFound, blobSame, -⟩ := Directory.crash_eq_some blobHeld
  obtain ⟨oldCkpt, ckptFound, ckptSame, -⟩ := Directory.crash_eq_some ckptHeld
  rw [blobSame, ckptSame]
  exact coherent call publishes oldBlob oldCkpt blobFound ckptFound

/-- In sequential unmixed runs a visible blob and the sidecar beside it were
written by one save. -/
theorem visible_pair_coherent {config : StoreState}
    (reached : (storeMachine backendSig calls limit).ReachedBy
      (fun config event => Sequential backendSig calls config event ∧
        Unmixed backendSig calls config event) config)
    (publishes : (calls c).publishes = true) {blob ckpt : File CallId}
    (blobVisible : config.world.dir (blobOf backendSig calls c) = some blob)
    (ckptVisible : config.world.dir (sidecarPath (blobOf backendSig calls c)) = some ckpt) :
    ckpt.content = blob.content := by
  have separate := reached.attach fun config earlier =>
    noOverlap_of_reached (earlier.mono fun _ _ permitted => permitted.1)
  have coherent : Coherent backendSig calls config.world := by
    refine ((store backendSig calls limit).assertion_of_crashing
      (Coherent backendSig calls) (Tracked backendSig calls) ?_ ?_ ?_ ?_ separate).1
    · intro world fresh
      refine ⟨fun call _ blob ckpt held => ?_, fun c => .of_idle rfl⟩
      rw [fresh.dir] at held
      cases held
    · intro config call action phase' world' coherent tracked permitted acted
      have step := step_of_act acted
      exact ⟨coherent.step (tracked call) permitted.1.2 step,
        (tracked call).step permitted.1.2 step⟩
    · intro config actor action phase' world' tracked permitted acted other distinct
      refine (tracked other).undisturbed (tracked actor) (fun same writes => ?_)
        (step_of_act acted)
      exact permitted.2 other actor (Ne.symm distinct) same.symm writes
    · intro world torn coherent
      refine ⟨coherent.crash torn, fun call phase => .of_idle ?_⟩
      cases phase <;> rfl
  exact coherent c publishes blob ckpt blobVisible ckptVisible

/-! ## Runs -/

def saveActions (ckpt : Bool) : List Action :=
  [.begin, .write true 9] ++ (if ckpt then [.writeSidecar true 5] else []) ++
    [.reply true, .openScratch true, .sync true, .rename true, .carry true, .index, .touch true]

def wholeSave (c : CallId) (ckpt : Bool) : List (CallId × Action ⊕ (String → Bool)) :=
  (saveActions ckpt).map fun action => .inl (c, action)

/-- The first save writes a sidecar, the second one none. -/
theorem secondSave_keeps_old_sidecar :
    ¬ ∀ (backendSig : String) (calls : CallId → Call) (limit : UInt64) (config : StoreState),
      (∀ c, calls c = .save "hdr-a") →
      (storeMachine backendSig calls limit).Reachable config →
      Coherent backendSig calls config.world := by
  intro always
  have executed : (((storeMachine "0123456789ab" oneSession 0).run (fun _ _ => true) storeStart
      (wholeSave 0 true ++ wholeSave 1 false)).map fun config =>
        (config.world.dir (blobName "0123456789ab" "hdr-a"),
          config.world.dir (sidecarPath (blobName "0123456789ab" "hdr-a")))) =
      some (some ⟨1, true, true, 9, 0⟩, some ⟨0, true, false, 5, 0⟩) := by
    decide
  obtain ⟨config, reached, held⟩ := Machine.reachedBy_of_observed (fun _ _ _ => trivial)
    (initial_storeStart "0123456789ab" oneSession 0) executed
  have same := always _ oneSession 0 config (fun _ => rfl) reached 0 rfl _ _
    (congrArg Prod.fst held) (congrArg Prod.snd held)
  exact absurd same (by decide)

def unmixedCheck (backendSig : String) (calls : CallId → Call) (config : StoreState) :
    CallId × Action ⊕ (String → Bool) → Bool
  | .inl (c, .rename true) =>
      (config.world.dir (sidecarPath (blobOf backendSig calls c))).isNone &&
        (config.world.dir (sidecarPath (scratchOf backendSig calls c))).all (·.content == c)
  | _ => true

theorem unmixed_of_check {config : StoreState} {event : CallId × Action ⊕ (String → Bool)}
    (checked : unmixedCheck backendSig calls config event = true) :
    Unmixed backendSig calls config event := by
  unfold unmixedCheck at checked
  split at checked
  · rw [Bool.and_eq_true, Option.isNone_iff_eq_none] at checked
    refine ⟨checked.1, fun file held => ?_⟩
    rw [held] at checked
    exact ⟨by simpa using checked.2, nofun, nofun⟩
  · unfold Unmixed
    split
    · grind
    · trivial

theorem sequential_of_one {config : StoreState} {event : CallId × Action ⊕ (String → Bool)}
    (unstarted : (store backendSig calls limit).Unstarted 1 config) (only : among 1 event = true) :
    Sequential backendSig calls config event := by
  unfold Sequential
  split
  · next c =>
      simp only [among, decide_eq_true_eq, Nat.lt_one_iff] at only
      subst only
      intro _ other distinct _
      rw [unstarted other (Nat.pos_of_ne_zero distinct)]
      rfl
  · trivial

theorem visible_pair_coherent_first_save :
    ∃ config : StoreState, ∃ blob ckpt : File CallId,
      config.world.dir (blobOf "0123456789ab" oneSession 0) = some blob ∧
      config.world.dir (sidecarPath (blobOf "0123456789ab" oneSession 0)) = some ckpt ∧
      ckpt.content = blob.content := by
  have executed : (((storeMachine "0123456789ab" oneSession 0).run
      (fun config event => among 1 event && unmixedCheck "0123456789ab" oneSession config event)
      storeStart (wholeSave 0 true)).map fun config =>
        (config.world.dir (blobOf "0123456789ab" oneSession 0),
          config.world.dir (sidecarPath (blobOf "0123456789ab" oneSession 0)))) =
      some (some ⟨0, true, true, 9, 0⟩, some ⟨0, true, false, 5, 0⟩) := by
    decide
  obtain ⟨config, ran, held⟩ := Option.map_eq_some_iff.mp executed
  have reached := storeRun _ (fun _ _ unstarted only checked =>
    And.intro (sequential_of_one unstarted only) (unmixed_of_check checked)) ran
  have blobVisible := congrArg Prod.fst held
  have ckptVisible := congrArg Prod.snd held
  exact ⟨config, _, _, blobVisible, ckptVisible,
    visible_pair_coherent reached rfl blobVisible ckptVisible⟩

end Ollm.Store
