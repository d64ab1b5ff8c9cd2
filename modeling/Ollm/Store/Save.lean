import Ollm.Proxy.Registry
import Ollm.Store.Calls

/-!
# One save

`save_slot` as it runs when nothing comes between its awaits: a function of the
cache directory, the slot registry and what the backend and the file system
answer.  It publishes the whole save or leaves everything published as it was,
and what it makes of the directory a call of the store makes of it alone.
-/

namespace Ollm.Store

open Keying
open Proxy (SlotId Registry)

universe u

variable {Content : Type u}

/-- What the backend left of a file that it wrote. -/
structure Written where
  complete : Bool
  len : ℕ

/-- The backend's answer to a save, and what it left at the scratch name. -/
inductive BackendSave where
  /-- A save is acknowledged only once its file is whole. -/
  | saved (len : ℕ)
  | failed (left : Option Written)

def BackendSave.scratch : BackendSave → Option Written
  | .saved len => some ⟨true, len⟩
  | .failed left => left

/-- What the backend and the file system answer to one save.  The outcome of syncing the
directory is dropped. -/
structure SaveReplies where
  backend : BackendSave
  /-- The sidecar that the backend wrote beside the scratch file, if any. -/
  sidecar : Option Written
  openScratch : Bool
  sync : Bool
  rename : Bool
  carry : Bool
  touch : Bool
  clock : ℕ

section Save

variable (backendSig : String) (content : Content) (replies : SaveReplies)

/-- The backend writes a file of this save, if it gets to it. -/
def leave (name : String) (dir : Directory Content) : Option Written → Directory Content
  | some file => dir.write name ⟨content, file.complete, false, file.len, replies.clock⟩
  | none => dir

/-- A failed rename of the sidecar is only warned of. -/
def renameSidecar (source target : String) (dir : Directory Content) : Directory Content :=
  if (dir (sidecarPath source)).isSome && replies.carry then
    dir.rename (sidecarPath source) (sidecarPath target)
  else dir

/-- The publish closure. -/
def publishScratch (scratch final : String) (dir : Directory Content) :
    Bool × Directory Content :=
  if (dir scratch).isSome && replies.openScratch then
    if replies.sync then
      if replies.rename then
        (true, renameSidecar replies scratch final ((dir.sync scratch).rename scratch final))
      else (false, dir.sync scratch)
    else (false, dir)
  else (false, dir)

/-- The backend between the request and its reply. -/
def backendWrites (scratch : String) (dir : Directory Content) : Directory Content :=
  leave content replies (sidecarPath scratch)
    (leave content replies scratch dir replies.backend.scratch) replies.sidecar

/-- `bump_mtime_unix`. -/
def bump (final : String) (dir : Directory Content) : Directory Content :=
  if replies.touch then dir.touch final replies.clock else dir

/-- `App::save_slot`. -/
def saveSlot (id : SlotId) (session : String) (dir : Directory Content) (slots : Registry) :
    Bool × Directory Content × Registry :=
  let final := blobName backendSig session
  let scratch := scratchName final
  let dir := backendWrites content replies scratch dir
  match replies.backend with
  | .failed _ => (false, dir, slots)
  | .saved _ =>
      let (published, dir) := publishScratch replies scratch final dir
      if published then (true, bump replies final dir, slots.markClean id) else (false, dir, slots)

end Save

/-! ## What a save changes -/

section Frames

variable {content : Content} {replies : SaveReplies} {dir : Directory Content}
  {blob name scratch final : String}

theorem leave_of_ne (other : name ≠ scratch) (left : Option Written) :
    leave content replies scratch dir left name = dir name := by
  cases left with
  | none => rfl
  | some file => exact Directory.write_of_ne other

theorem renameSidecar_of_ne (left : name ≠ sidecarPath scratch)
    (other : name ≠ sidecarPath final) :
    renameSidecar replies scratch final dir name = dir name := by
  unfold renameSidecar
  split_ifs
  · exact Directory.rename_of_ne left other
  · rfl

theorem backendWrites_of_ne (content : Content) (replies : SaveReplies) (dir : Directory Content)
    (other : name ≠ scratch) (sidecar : name ≠ sidecarPath scratch) :
    backendWrites content replies scratch dir name = dir name :=
  (leave_of_ne sidecar _).trans (leave_of_ne other _)

/-- A save that the backend acknowledged left its content at the scratch name. -/
theorem backendWrites_scratch (content : Content) (dir : Directory Content) {len : ℕ}
    (saved : replies.backend = .saved len)
    (distinct : scratch ≠ sidecarPath scratch) :
    backendWrites content replies scratch dir scratch =
      some ⟨content, true, false, len, replies.clock⟩ := by
  apply (leave_of_ne distinct _).trans
  simp [saved, BackendSave.scratch, leave, Directory.write]

theorem bump_of_ne (other : name ≠ final) : bump replies final dir name = dir name := by
  unfold bump
  split_ifs
  · exact Directory.modify_of_ne other
  · rfl

theorem bump_self (replies : SaveReplies) {file : File Content} (present : dir final = some file) :
    ∃ mtime, bump replies final dir final = some { file with mtime := mtime } := by
  unfold bump
  split_ifs
  · exact ⟨replies.clock, by simp [Directory.touch, Directory.modify, present]⟩
  · exact ⟨file.mtime, present⟩

/-- Unless it renames the scratch file, the closure changes nothing else. -/
theorem publishScratch_failed (failed : (publishScratch replies scratch final dir).1 = false)
    (other : name ≠ scratch) : (publishScratch replies scratch final dir).2 name = dir name := by
  unfold publishScratch at failed ⊢
  split_ifs at failed ⊢
  · exact Directory.modify_of_ne other
  · rfl
  · rfl

theorem publishScratch_of_ne (replies : SaveReplies) (dir : Directory Content)
    (scratched : name ≠ scratch) (published : name ≠ final)
    (scratchSidecar : name ≠ sidecarPath scratch) (sidecar : name ≠ sidecarPath final) :
    (publishScratch replies scratch final dir).2 name = dir name := by
  unfold publishScratch
  split_ifs
  · apply (renameSidecar_of_ne scratchSidecar sidecar).trans
    rw [Directory.rename_of_ne scratched published]
    exact Directory.modify_of_ne scratched
  · exact Directory.modify_of_ne scratched
  · rfl
  · rfl

/-- What is published is the scratch file, synced. -/
theorem publishScratch_published {file : File Content} (present : dir scratch = some file)
    (scratchSidecar : final ≠ sidecarPath scratch) (sidecar : final ≠ sidecarPath final)
    (published : (publishScratch replies scratch final dir).1 = true) :
    (publishScratch replies scratch final dir).2 final = some { file with synced := true } := by
  unfold publishScratch at published ⊢
  split_ifs at published ⊢
  apply (renameSidecar_of_ne scratchSidecar sidecar).trans
  apply Directory.rename_target
  simp [Directory.sync, Directory.modify, present]

end Frames

section Save

variable {backendSig : String} {content : Content} {replies : SaveReplies} {id : SlotId}
  {session : String} {dir : Directory Content} {slots : Registry}

/-- The three ends of a save: the backend refused, nothing was published, or all was. -/
inductive SaveEnd (backendSig : String) (content : Content) (replies : SaveReplies) (id : SlotId)
    (session : String) (dir : Directory Content) (slots : Registry) :
    Bool × Directory Content × Registry → Prop where
  | refused {left} (failed : replies.backend = .failed left) :
      SaveEnd backendSig content replies id session dir slots
        (false, backendWrites content replies (cacheName backendSig session .scratch) dir, slots)
  | unpublished {dir'}
      (closure : publishScratch replies (cacheName backendSig session .scratch)
        (cacheName backendSig session .blob)
        (backendWrites content replies (cacheName backendSig session .scratch) dir) =
          (false, dir')) :
      SaveEnd backendSig content replies id session dir slots (false, dir', slots)
  | published {len dir'} (saved : replies.backend = .saved len)
      (closure : publishScratch replies (cacheName backendSig session .scratch)
        (cacheName backendSig session .blob)
        (backendWrites content replies (cacheName backendSig session .scratch) dir) =
          (true, dir')) :
      SaveEnd backendSig content replies id session dir slots
        (true, bump replies (cacheName backendSig session .blob) dir', slots.markClean id)

theorem cacheName_ne (backendSig session : String) {role role' : Role} (distinct : role ≠ role') :
    cacheName backendSig session role ≠ cacheName backendSig session role' :=
  fileOf_ne (endsWith_blobName backendSig session) distinct

/-- A save writes under the four names of its blob only. -/
theorem SaveEnd.foreign {after : Bool × Directory Content × Registry}
    (ended : SaveEnd backendSig content replies id session dir slots after) {name : String}
    (foreign : ∀ role, name ≠ cacheName backendSig session role) :
    after.2.1 name = dir name := by
  have written := backendWrites_of_ne content replies dir (foreign .scratch)
    (foreign .scratchSidecar)
  have closed := publishScratch_of_ne replies
    (backendWrites content replies (cacheName backendSig session .scratch) dir)
    (foreign .scratch) (foreign .blob) (foreign .scratchSidecar) (foreign .sidecar)
  cases ended with
  | refused => exact written
  | unpublished closure =>
      rw [closure] at closed
      exact closed.trans written
  | published saved closure =>
      rw [closure] at closed
      exact (bump_of_ne (foreign .blob)).trans (closed.trans written)

/-- A save that fails wrote scratch files only, and left the registry as it was. -/
theorem SaveEnd.failed {after : Bool × Directory Content × Registry}
    (ended : SaveEnd backendSig content replies id session dir slots after)
    (failed : after.1 = false) :
    after.2.2 = slots ∧ ∀ role, role ≠ .scratch → role ≠ .scratchSidecar →
      after.2.1 (cacheName backendSig session role) = dir (cacheName backendSig session role) := by
  have written : ∀ role, role ≠ .scratch → role ≠ .scratchSidecar →
      backendWrites content replies (cacheName backendSig session .scratch) dir
        (cacheName backendSig session role) = dir (cacheName backendSig session role) := by
    intro role scratch scratchSidecar
    apply backendWrites_of_ne
    · exact cacheName_ne backendSig session scratch
    · exact cacheName_ne backendSig session scratchSidecar
  cases ended with
  | refused => exact ⟨rfl, written⟩
  | unpublished closure =>
      refine ⟨rfl, ?_⟩
      intro role scratch scratchSidecar
      have closed := publishScratch_failed (congrArg Prod.fst closure)
        (cacheName_ne backendSig session scratch)
      rw [closure] at closed
      exact closed.trans (written role scratch scratchSidecar)
  | published => cases failed

/-- A save that succeeds published what the backend wrote, and the slot is clean. -/
theorem SaveEnd.succeeded {after : Bool × Directory Content × Registry}
    (ended : SaveEnd backendSig content replies id session dir slots after)
    (succeeded : after.1 = true) :
    (∃ held, after.2.1 (blobName backendSig session) = some held ∧ held.content = content ∧
      held.complete = true ∧ held.synced = true) ∧ after.2.2.dirty id = false := by
  cases ended with
  | refused => cases succeeded
  | unpublished => cases succeeded
  | @published len dir' saved closure =>
      have scratchSidecar : cacheName backendSig session .scratch ≠
          cacheName backendSig session .scratchSidecar := cacheName_ne _ _ (by decide)
      have blobScratchSidecar : cacheName backendSig session .blob ≠
          cacheName backendSig session .scratchSidecar := cacheName_ne _ _ (by decide)
      have blobSidecar : cacheName backendSig session .blob ≠
          cacheName backendSig session .sidecar := cacheName_ne _ _ (by decide)
      have written := backendWrites_scratch content dir saved scratchSidecar
      have moved := publishScratch_published written blobScratchSidecar blobSidecar
        (congrArg Prod.fst closure)
      rw [closure] at moved
      obtain ⟨mtime, bumped⟩ := bump_self replies moved
      exact ⟨⟨_, bumped, rfl, rfl, rfl⟩, by simp⟩

end Save

section Alone

variable (backendSig : String) (calls : CallId → Call) (limit : UInt64) (c : CallId)

/-- What a call gets to by its own actions. -/
abbrev Goes : Phase × World → Phase × World → Prop :=
  Relation.ReflTransGen ((store backendSig calls limit).OwnStep c fun _ _ _ => True)

variable {backendSig calls limit c}

theorem dir_touch (world : World) (name : String) :
    (world.touch name).dir = world.dir.touch name world.clock := by
  unfold World.touch
  split_ifs with present
  · rfl
  · have absent : world.dir name = none := by simpa using present
    funext other
    by_cases same : other = name
    · subst same
      simp [Directory.touch, Directory.modify, absent]
    · exact (Directory.modify_of_ne same).symm

theorem goes_writes (replies : SaveReplies) {world : World} (now : replies.clock = world.clock) :
    Goes backendSig calls limit c (.asking none, world)
      (.asking (replies.backend.scratch.map (·.complete)),
        { world with
          dir := backendWrites c replies (scratchOf backendSig calls c) world.dir }) := by
  have scratch : Goes backendSig calls limit c (.asking none, world)
      (.asking (replies.backend.scratch.map (·.complete)), { world with
        dir := leave c replies (scratchOf backendSig calls c) world.dir
          replies.backend.scratch }) := by
    cases replies.backend.scratch with
    | none => exact .refl
    | some file =>
        rw [leave, now]
        exact Threads.goes_head (.write file.complete file.len) trivial rfl .refl
  apply scratch.trans
  unfold backendWrites
  cases replies.sidecar with
  | none => exact .refl
  | some file =>
      rw [leave, now]
      exact Threads.goes_head (.writeSidecar file.complete file.len) trivial rfl .refl

variable (backendSig calls limit c)

theorem goes_carries (replies : SaveReplies) (world : World) :
    ∃ world', Goes backendSig calls limit c (.carrying, world) (.indexing, world') ∧
      world'.dir = renameSidecar replies (scratchOf backendSig calls c)
        (blobOf backendSig calls c) world.dir ∧ world'.clock = world.clock ∧
      world'.dropped = world.dropped := by
  unfold renameSidecar
  split_ifs with carried
  · have present := ((Bool.and_eq_true _ _).mp carried).1
    have carries : act backendSig calls limit c (.carry true) .carrying world =
        some (.indexing, world.publish (sidecarPath (scratchOf backendSig calls c))
          (sidecarPath (blobOf backendSig calls c))) := by
      simp [act, present]
    exact ⟨_, Threads.goes_head (.carry true) trivial carries .refl, rfl, rfl, rfl⟩
  · have stays : act backendSig calls limit c (.carry false) .carrying world =
        some (.indexing, world) := by
      simp [act]
    exact ⟨world, Threads.goes_head (.carry false) trivial stays .refl, rfl, rfl, rfl⟩

theorem goes_touches (replies : SaveReplies) {world : World} (now : replies.clock = world.clock) :
    ∃ world', Goes backendSig calls limit c (.touching, world) (.done, world') ∧
      world'.dir = bump replies (blobOf backendSig calls c) world.dir := by
  refine ⟨_, Threads.goes_head (.touch replies.touch) trivial rfl .refl, ?_⟩
  unfold bump
  cases replies.touch with
  | false => rfl
  | true => exact (dir_touch world _).trans (by rw [now]; rfl)

/-- The publish closure of a save, and what comes after it. -/
theorem goes_publishes {session : String} (isSave : calls c = .save session)
    (replies : SaveReplies) {world : World} (now : replies.clock = world.clock)
    (there : world.dropped c = false) :
    ∃ world', Goes backendSig calls limit c (.opening, world) (.done, world') ∧
      world'.dir =
        let closed := publishScratch replies (scratchOf backendSig calls c)
          (blobOf backendSig calls c) world.dir
        if closed.1 then bump replies (blobOf backendSig calls c) closed.2 else closed.2 := by
  have opens : (world.dir (scratchOf backendSig calls c)).isSome = true →
      act backendSig calls limit c (.openScratch true) .opening world = some (.syncing, world) := by
    intro present
    simp [act, present]
  let synced : World := { world with dir := world.dir.sync (scratchOf backendSig calls c) }
  have moves : (world.dir (scratchOf backendSig calls c)).isSome = true →
      act backendSig calls limit c (.rename true) .moving synced =
        some (.carrying,
          synced.publish (scratchOf backendSig calls c) (blobOf backendSig calls c)) := by
    intro present
    simp [act, synced, Directory.sync, Directory.modify, present]
  unfold publishScratch
  split_ifs with opened syncs renames
  · have present := ((Bool.and_eq_true _ _).mp opened).1
    obtain ⟨carried, carries, dir, clock, dropped⟩ := goes_carries backendSig calls limit c replies
      (synced.publish (scratchOf backendSig calls c) (blobOf backendSig calls c))
    have stays : carried.dropped c = false := (congrFun dropped c).trans there
    have indexes : act backendSig calls limit c .index .indexing carried =
        some (.touching, carried) := by
      simp [act, afterIndex, isSave, stays]
    obtain ⟨world', touches, dir'⟩ := goes_touches backendSig calls limit c replies
      (now.trans clock.symm)
    refine ⟨world', ?_, ?_⟩
    · apply Threads.goes_head (.openScratch true) trivial (opens present)
      apply Threads.goes_head (.sync true) trivial rfl
      apply Threads.goes_head (.rename true) trivial (moves present)
      apply carries.trans
      exact Threads.goes_head .index trivial indexes touches
    · rw [dir', dir]
      rfl
  · have present := ((Bool.and_eq_true _ _).mp opened).1
    refine ⟨synced.finish c, ?_, rfl⟩
    apply Threads.goes_head (.openScratch true) trivial (opens present)
    apply Threads.goes_head (.sync true) trivial rfl
    exact Threads.goes_head (.rename false) trivial rfl .refl
  · have present := ((Bool.and_eq_true _ _).mp opened).1
    refine ⟨world.finish c, ?_, rfl⟩
    apply Threads.goes_head (.openScratch true) trivial (opens present)
    exact Threads.goes_head (.sync false) trivial rfl .refl
  · refine ⟨world.finish c, ?_, rfl⟩
    exact Threads.goes_head (.openScratch false) trivial rfl .refl

variable {backendSig calls limit c}

/-- What a save makes of the directory, a call of the store can make of it alone. -/
theorem goes_saveSlot {session : String} (isSave : calls c = .save session) {world : World}
    {gate : RwLock CallId} (granted : world.gate.write? c = some gate)
    (there : world.dropped c = false) (replies : SaveReplies)
    (now : replies.clock = world.clock) (id : SlotId) (slots : Registry) :
    ∃ world', Goes backendSig calls limit c (.waiting, world) (.done, world') ∧
      world'.dir = (saveSlot backendSig c replies id session world.dir slots).2.1 := by
  let held : World := { world with gate := gate }
  let written : World := { held with
    dir := backendWrites c replies (scratchOf backendSig calls c) world.dir }
  have begins : act backendSig calls limit c .begin .waiting world =
      some (.asking none, held) := by
    simp [act, begin, isSave, granted, held]
  have clock : replies.clock = held.clock := now
  have writes : Goes backendSig calls limit c (.waiting, world)
      (.asking (replies.backend.scratch.map (·.complete)), written) :=
    Threads.goes_head .begin trivial begins (goes_writes replies clock)
  have blob : blobOf backendSig calls c = blobName backendSig session := by
    rw [blobOf, isSave]
  have scratch : scratchOf backendSig calls c = scratchName (blobName backendSig session) := by
    rw [scratchOf, blob]
  unfold saveSlot
  cases answered : replies.backend with
  | failed left =>
      refine ⟨written.finish c, ?_, ?_⟩
      · apply writes.trans
        exact Threads.goes_head (.reply false) trivial rfl .refl
      · simp only [written, scratch, World.finish]
  | saved len =>
      let acked : World := { written with acked := Function.update world.acked c true }
      have clock' : replies.clock = acked.clock := now
      obtain ⟨world', publishes, dir⟩ := goes_publishes backendSig calls limit c isSave replies
        clock' there
      have answers : act backendSig calls limit c (.reply true) (.asking (some true)) written =
          some (.opening, acked) := by
        simp [act, written, held, acked, there]
      refine ⟨world', ?_, ?_⟩
      · apply writes.trans
        rw [answered]
        exact Threads.goes_head (.reply true) trivial answers publishes
      · rw [dir, scratch, blob]
        simp only [acked, written, scratch]
        split_ifs <;> rfl

end Alone

end Ollm.Store
