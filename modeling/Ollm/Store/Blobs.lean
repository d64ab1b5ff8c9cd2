import Ollm.Proxy.Steps
import Ollm.Store.Steps

/-!
# The store of blobs

What the cache is for: one blob for each session, published and evicted
atomically.  Chat turns use the cache like this, and calls on the directory look
like this as long as one sees the names of blobs only.
-/

namespace Ollm

open Keying

universe u

inductive BlobEvent (Content : Type u) where
  | publish (session : String) (content : Content)
  | evict (session : String)

section BlobStore

variable {Content : Type u} (Belongs : String → Content → Prop)
  [∀ session content, Decidable (Belongs session content)]

/-- Only what belongs to a session is published for it. -/
def blobStore : Machine (String → Option Content) (BlobEvent Content) where
  Initial blobs := ∀ session content, blobs session = some content → Belongs session content
  step blobs
    | .publish session content =>
        if Belongs session content then
          some (Function.update blobs session (some content))
        else none
    | .evict session => some (Function.update blobs session none)

variable {Belongs}

omit [∀ session content, Decidable (Belongs session content)] in
theorem belongs_update {blobs : String → Option Content} {target : String}
    {value : Option Content}
    (belongs : ∀ session content, blobs session = some content → Belongs session content)
    (fits : ∀ content, value = some content → Belongs target content) :
    ∀ session content, Function.update blobs target value session = some content →
      Belongs session content := by
  intro session content found
  by_cases same : session = target
  · subst same
    rw [Function.update_self] at found
    exact fits content found
  · rw [Function.update_of_ne same] at found
    exact belongs session content found

theorem belongs_of_reachable {blobs : String → Option Content}
    (reached : (blobStore Belongs).Reachable blobs) {session : String} {content : Content}
    (stored : blobs session = some content) : Belongs session content := by
  refine reached.invariant
    (fun blobs => ∀ session content, blobs session = some content → Belongs session content)
    (fun _ first => first) ?_ session content stored
  rintro before event after belongs - moved
  cases event with
  | publish target fresh =>
      obtain ⟨fits, changed⟩ := Option.ite_none_right_eq_some.mp moved
      obtain rfl := Option.some.inj changed
      exact belongs_update belongs fun content same => Option.some.inj same ▸ fits
  | evict target =>
      obtain rfl := Option.some.inj moved
      exact belongs_update belongs nofun

end BlobStore

/-! ## Chat turns on the store -/

namespace Proxy

variable {backendSig : String} {requests : RequestId → Request} {r : RequestId}

/-- The blob of each session, as turns look it up. -/
def World.stored (backendSig : String) (world : World) : String → Option Content :=
  fun session => world.blobs (blobName backendSig session)

theorem stored_update {blobs : String → Option Content} {session : String}
    (value : Option Content) :
    (fun name => Function.update blobs (blobName backendSig session) value
        (blobName backendSig name)) =
      Function.update (fun name => blobs (blobName backendSig name)) session value := by
  funext name
  by_cases same : name = session
  · subst same
    simp
  · have apart : blobName backendSig name ≠ blobName backendSig session :=
      fun names => same (blobName_inj rfl names).1
    rw [Function.update_of_ne apart, Function.update_of_ne same]

theorem stored_evict (world : World) (name : String) :
    (world.evict backendSig name).stored backendSig = world.stored backendSig ∨
      ∃ session, (world.evict backendSig name).stored backendSig =
        Function.update (world.stored backendSig) session none := by
  by_cases named : ∃ session, blobName backendSig session = name
  · obtain ⟨session, rfl⟩ := named
    exact .inr ⟨session, stored_update none⟩
  · refine .inl (funext fun session => ?_)
    exact Function.update_of_ne (fun same => named ⟨session, same⟩) _ _

/-- A turn publishes and evicts whole blobs, one at a time. -/
theorem chat_refines_blobStore :
    (chat backendSig requests).machine.Refines (fun _ _ => True)
      (blobStore fun _ (_ : Content) => True)
      (fun config => config.world.stored backendSig) where
  start _ _ _ _ _ := trivial
  step before event after _ _ moved := by
    obtain ⟨r, action⟩ := event
    obtain ⟨acted, -⟩ := (chat backendSig requests).acts_of_machine_step moved
    have step := step_of_act acted
    obtain ⟨world, locals⟩ := before
    obtain ⟨world', locals'⟩ := after
    simp only at step ⊢
    generalize locals r = phase at step
    generalize locals' r = phase' at step
    cases step with
    | @publishVictim _ _ session content | @publishTurn _ session content =>
        exact .inr ⟨.publish session content, congrArg some (stored_update _).symm⟩
    | @remove name =>
        rcases stored_evict world name with same | ⟨session, gone⟩
        · exact .inl same
        · exact .inr ⟨.evict session, congrArg some gone.symm⟩
    | _ => exact .inl rfl

end Proxy

/-! ## The directory as a store -/

namespace Store

variable {backendSig : String} {calls : CallId → Call} {limit : UInt64} {c : CallId}
  {world world' : World}

/-- The content of the blobs that lookups see. -/
def World.visible (backendSig : String) (world : World) : String → Option CallId :=
  fun session => (world.dir (blobName backendSig session)).map (·.content)

theorem visible_congr
    (same : ∀ session, (world'.dir (blobName backendSig session)).map (·.content) =
      (world.dir (blobName backendSig session)).map (·.content)) :
    world'.visible backendSig = world.visible backendSig :=
  funext same

/-- No blob has the name of a scratch file or of a sidecar. -/
theorem blobName_ne_fileOf {blob : String} (bin : Text.endsWith blob ".bin" = true)
    {role : Role} (aside : role ≠ .blob) (session : String) :
    blobName backendSig session ≠ fileOf blob role := by
  intro same
  exact aside (fileOf_inj .blob role (endsWith_blobName backendSig session) bin same).2.symm

/-- A change of one session's blob, if the other blobs stay. -/
theorem visible_update {session : String} {value : Option CallId}
    (own : (world'.dir (blobName backendSig session)).map (·.content) = value)
    (others : ∀ name ≠ blobName backendSig session,
      (∃ other, name = blobName backendSig other) → world'.dir name = world.dir name) :
    world'.visible backendSig = Function.update (world.visible backendSig) session value := by
  funext other
  by_cases same : other = session
  · subst same
    rw [Function.update_self]
    exact own
  · have apart : blobName backendSig other ≠ blobName backendSig session :=
      fun names => same (blobName_inj rfl names).1
    rw [Function.update_of_ne same, World.visible, others _ apart ⟨other, rfl⟩]
    rfl

theorem visible_touch (name : String) :
    (world.touch name).visible backendSig = world.visible backendSig := by
  unfold World.touch
  split_ifs
  · refine visible_congr fun session => ?_
    by_cases same : blobName backendSig session = name
    · subst same
      simp [Directory.touch, Directory.modify, Option.map_map, Function.comp_def]
    · simp only [Directory.touch, Directory.modify_of_ne same]
  · rfl

theorem visible_evict (world : World) (name : String) :
    (world.evict name).visible backendSig = world.visible backendSig ∨
      ∃ session, (world.evict name).visible backendSig =
        Function.update (world.visible backendSig) session none := by
  by_cases named : ∃ session, blobName backendSig session = name
  · obtain ⟨session, rfl⟩ := named
    refine .inr ⟨session, visible_update ?_ fun name apart _ => Directory.remove_of_ne apart⟩
    simp [World.evict, Directory.remove]
  · refine .inl (visible_congr fun session => ?_)
    have apart : blobName backendSig session ≠ name := fun same => named ⟨session, same⟩
    exact congrArg _ (Directory.remove_of_ne apart)

theorem visible_crash (torn : String → Bool) :
    (world.crash torn).visible backendSig = world.visible backendSig := by
  refine visible_congr fun session => ?_
  simp only [World.crash, Directory.crash, Option.map_map]
  congr 1
  funext file
  simp only [Function.comp_apply]
  split_ifs <;> rfl

/-- Only the rename of a scratch file and the removal of a blob show. -/
theorem Step.visible {action : Action} {phase phase' : Phase}
    (saves : phase.writes = true → ∃ session, calls c = .save session)
    (step : Step backendSig calls limit c action phase world phase' world') :
    world'.visible backendSig = world.visible backendSig ∨
      (∃ session file, phase = .moving ∧ calls c = .save session ∧
        world.dir (scratchOf backendSig calls c) = some file ∧
        world'.visible backendSig =
          Function.update (world.visible backendSig) session (some file.content)) ∨
      ∃ session, world'.visible backendSig =
        Function.update (world.visible backendSig) session none := by
  have apart : ∀ role ≠ Role.blob, phase.writes = true → ∀ session,
      blobName backendSig session ≠ fileOf (blobOf backendSig calls c) role := by
    intro role aside writes session
    obtain ⟨own, isSave⟩ := saves writes
    rw [blobOf_save isSave]
    exact blobName_ne_fileOf (endsWith_blobName backendSig own) aside session
  cases step with
  | write =>
      exact .inl (visible_congr fun session =>
        congrArg _ (Directory.write_of_ne (apart .scratch (by decide) rfl session)))
  | writeSidecar =>
      exact .inl (visible_congr fun session =>
        congrArg _ (Directory.write_of_ne (apart .scratchSidecar (by decide) rfl session)))
  | synced =>
      exact .inl (visible_congr fun session =>
        congrArg _ (Directory.modify_of_ne (apart .scratch (by decide) rfl session)))
  | renamed present =>
      obtain ⟨session, isSave⟩ := saves rfl
      obtain ⟨file, scratch⟩ := Option.isSome_iff_exists.mp present
      refine .inr (.inl ⟨session, file, rfl, isSave, scratch, visible_update ?_ ?_⟩)
      · have target : world.dir.rename (scratchOf backendSig calls c) (blobOf backendSig calls c)
            (blobOf backendSig calls c) = some file := Directory.rename_target scratch
        rw [← blobOf_save isSave]
        exact congrArg (Option.map (·.content)) target
      · rintro _ other ⟨name, rfl⟩
        rw [← blobOf_save isSave] at other
        exact Directory.rename_of_ne (apart .scratch (by decide) rfl name) other
  | carried present =>
      exact .inl (visible_congr fun session => congrArg _ (Directory.rename_of_ne
        (apart .scratchSidecar (by decide) rfl session) (apart .sidecar (by decide) rfl session)))
  | touched => exact .inl (visible_touch _)
  | removed present => exact (visible_evict world _).imp_right .inr
  | _ => exact .inl rfl

end Store

end Ollm
