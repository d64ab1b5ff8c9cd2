import Ollm.Proxy.Scratch
import Ollm.Proxy.SideBySide

/-!
# Outages

Without their files the turns over files are the turns of `Ollm.Proxy.Chat`.  What is
under the name of a blob was synced before it got there, so an outage is no more than
a restart of the proxy, and what is known of turns with restarts holds of turns over
files with outages.
-/

namespace Ollm.Proxy

open Keying RwLock

variable {backendSig : String} {requests : RequestId → Request} {dir : Directory Content}

/-! ## Runs -/

/-- The gate lists its holders, blobs are whole and synced, and scratch files are what
their saves are to publish. -/
structure OnDisk (backendSig : String) (config : DiskState) : Prop where
  gate : Threads.Accounted DiskWorld.gate (fun own : FileTurn => own.phase.held) config
  durable : Durable backendSig config.world.dir
  scratched : ∀ name, Scratched backendSig config.world.dir (config.locals name)

theorem OnDisk.step {before after : DiskState} {event : RequestId × DiskAction}
    (holds : OnDisk backendSig before)
    (moved : (diskTurns backendSig requests).machine.step before event = some after) :
    OnDisk backendSig after := by
  obtain ⟨r, action⟩ := event
  obtain ⟨acted, others⟩ := (diskTurns backendSig requests).acts_of_machine_step moved
  have step := diskStep_of_act acted
  refine ⟨guarded_diskTurns.accounted_step holds.gate moved,
    step.durable (holds.scratched r) holds.durable, fun other => ?_⟩
  by_cases same : other = r
  · subst same
    exact step.scratched (holds.scratched other)
  · rw [others other same]
    by_cases exclusive : (before.locals other).phase.held = some .exclusive
    · -- the gate keeps the acting request off the scratch file
      have unheld := holds.gate.alone exclusive (Ne.symm same)
      exact (holds.scratched other).within (step.within unheld)
    · exact scratched_of_unheld exclusive

theorem Durable.crash_eq (durable : Durable backendSig dir) (torn : String → Bool)
    (session : String) :
    dir.crash torn (blobName backendSig session) = dir (blobName backendSig session) := by
  cases found : dir (blobName backendSig session) with
  | none => simp [Directory.crash, found]
  | some file => simp [Directory.crash, found, (durable session file found).2]

theorem held_abort (own : FileTurn) : own.abort.phase.held = none := by
  obtain ⟨phase, stage⟩ := own
  cases phase <;> rfl

theorem OnDisk.crash {config : DiskState} (holds : OnDisk backendSig config) (outage : Outage) :
    OnDisk backendSig
      ⟨config.world.crash backendSig outage, fun name => (config.locals name).abort⟩ where
  gate := accounts_free fun name => held_abort (config.locals name)
  durable := holds.durable.of_unchanged fun session =>
    holds.durable.crash_eq outage.torn session
  scratched name := scratched_of_unheld (by rw [held_abort]; decide)

theorem onDisk_of_reached {allowed : DiskState → RequestId × DiskAction ⊕ Outage → Prop}
    {config : DiskState} (reached : (diskMachine backendSig requests).ReachedBy allowed config) :
    OnDisk backendSig config := by
  refine reached.invariant (OnDisk backendSig) ?_ ?_
  · rintro ⟨world, locals⟩ ⟨fresh, rfl⟩
    exact ⟨guarded_diskTurns.initial fresh rfl, fresh.durable,
      fun name => scratched_of_unheld (by simp [diskTurns, Phase.held])⟩
  · rintro before (event | outage) after holds - moved
    · exact holds.step moved
    · cases moved
      exact holds.crash outage

/-- A guard on turns, for runs of which one sees the files as well. -/
def Seen (backendSig : String)
    (permitted : ProxyState → RequestId × Action ⊕ (SlotId → Content) → Prop)
    (config : DiskState) (event : RequestId × DiskAction ⊕ Outage) : Prop :=
  ∀ seen, meaning event = some seen → permitted (chatView backendSig config) seen

theorem chatView_update (locals : RequestId → FileTurn) (disk : DiskWorld) (r : RequestId)
    (own : FileTurn) :
    chatView backendSig ⟨disk, Function.update locals r own⟩ =
      ⟨disk.view backendSig, Function.update (fun name => (locals name).phase) r own.phase⟩ :=
  congrArg (Threads.Config.mk _)
    (Function.comp_update (fun own : FileTurn => own.phase) locals r own)

/-- Without their files, runs over files are runs of turns; an outage is a restart. -/
theorem reachedBy_chatView
    {permitted : ProxyState → RequestId × Action ⊕ (SlotId → Content) → Prop}
    {config : DiskState}
    (reached : (diskMachine backendSig requests).ReachedBy (Seen backendSig permitted) config) :
    (restarting backendSig requests).ReachedBy permitted (chatView backendSig config) := by
  refine reached.simulated (chatView backendSig) ?_ ?_
  · rintro ⟨world, locals⟩ ⟨fresh, rfl⟩
    exact ⟨fresh.view, rfl⟩
  · rintro before (⟨r, action⟩ | outage) after earlier allowed moved
    · obtain ⟨⟨own', disk'⟩, acted, rfl⟩ := Option.map_eq_some_iff.mp moved
      simp only [chatView_update]
      rcases (diskStep_of_act acted).simulates ((onDisk_of_reached earlier).scratched r) with
        ⟨same, unseen⟩ | ⟨seen, means, sees⟩
      · left
        rw [unseen, same]
        exact congrArg (Threads.Config.mk _) (Function.update_eq_self _ _)
      · right
        have event : meaning (.inl (r, action)) = some (.inl (r, seen)) := by
          simp [meaning, means]
        exact ⟨.inl (r, seen), allowed _ event, congrArg (Option.map _) sees⟩
    · cases moved
      right
      have restarts : (before.world.crash backendSig outage).view backendSig =
          (before.world.view backendSig).restart outage.kv :=
        view_put (blobsOf_crash outage.torn)
      refine ⟨.inr outage.kv, allowed _ rfl, ?_⟩
      exact congrArg (fun world => some (Threads.Config.mk world _)) restarts.symm

/-- A run over files is, to who does not see the files, a run of turns in which every outage
is a restart of the proxy, and whenever an outage comes it leaves every blob as it is. -/
theorem files_refine_turns {config : DiskState}
    (reached : (diskMachine backendSig requests).Reachable config) :
    (restarting backendSig requests).Reachable (chatView backendSig config) ∧
      ∀ session file, config.world.dir (blobName backendSig session) = some file →
        file.complete = true ∧
          ∀ torn, config.world.dir.crash torn (blobName backendSig session) = some file := by
  constructor
  · exact reachedBy_chatView (reached.mono fun _ _ _ _ _ => trivial)
  · intro session file found
    have durable := (onDisk_of_reached reached).durable
    exact ⟨(durable session file found).1, fun torn => (durable.crash_eq torn session).trans found⟩

/-- A check for turns side by side when only the first `n` requests have started. -/
def seenAmong (backendSig : String) (requests : RequestId → Request) (n : Nat)
    (config : DiskState) (event : RequestId × DiskAction ⊕ Outage) : Bool :=
  event.elim (fun own => decide (own.1 < n)) (fun _ => true) &&
    (meaning event).all (concertedAmong backendSig requests n (chatView backendSig config))

def diskStart : DiskState :=
  ⟨⟨∅, .free, fun _ => .blank, .empty, 0, World.empty.history⟩, fun _ => ⟨.waiting, .idle⟩⟩

theorem initial_diskStart (backendSig : String) (requests : RequestId → Request) :
    (diskTurns backendSig requests).machine.Initial diskStart := by
  refine ⟨⟨⟨rfl, rfl, rfl, rfl, rfl, rfl⟩, ?_⟩, rfl⟩
  intro session file found
  cases found

theorem seenRun {n : Nat} {events : List (RequestId × DiskAction ⊕ Outage)} {config : DiskState}
    (executed : (diskMachine backendSig requests).run (seenAmong backendSig requests n) diskStart
      events = some config) :
    (diskMachine backendSig requests).ReachedBy
      (Seen backendSig (InConcert backendSig requests)) config ∧
      (diskTurns backendSig requests).Unstarted n config := by
  refine (diskTurns backendSig requests).reachedBy_of_crashing_run n (fun _ => rfl) ?_ ?_
    (initial_diskStart backendSig requests) executed
  · intro config name action checked
    simp only [seenAmong, Sum.elim_inl, Bool.and_eq_true, decide_eq_true_eq] at checked
    exact checked.1
  · intro config event unstarted checked seen means
    simp only [seenAmong, means, Option.all_some, Bool.and_eq_true] at checked
    refine inConcert_of_concertedAmong (fun other beyond => ?_) checked.2
    exact congrArg FileTurn.phase (unstarted other beyond)

/-- A turn on the given idle slot, until its save is asked for. -/
def turnOnFiles (slot : SlotId) : List DiskAction :=
  [.enter, .miss, idle [slot], .pick, .mark, .land slot, .answer .success, .finish .complete,
    .relabel, .lock].map .act

def publishedOnFiles : List DiskAction :=
  [.write false 10, .write true 20, .writeSidecar true 5, .act (.saveReply true),
    .openScratch true, .sync true, .rename true, .carry true, .index, .touch true, .act .clean,
    .act .settle]

/-- After the turn of `hdr-a` was published, an outage comes during the save of that of
`hdr-b`; it tears what is not synced. -/
def outageMidSave : List (RequestId × DiskAction ⊕ Outage) :=
  (turnOnFiles 0 ++ publishedOnFiles).map (fun action => .inl (0, action)) ++
    (turnOnFiles 1 ++ [DiskAction.write true 20]).map (fun action => .inl (1, action)) ++
    [.inr ⟨fun _ => true, fun _ => .blank⟩]

/-- The file of `hdr-b` that the outage left is torn. -/
theorem ran_outageMidSave :
    ∃ config : DiskState,
      (diskMachine "0123456789ab" alternating).ReachedBy
        (Seen "0123456789ab" (InConcert "0123456789ab" alternating)) config ∧
      (∀ name, (config.locals name).phase.settled = true) ∧
      config.world.history.last "hdr-a" = some 0 ∧ config.world.history.lost "hdr-a" = false ∧
      (config.world.dir (scratchName (blobName "0123456789ab" "hdr-b"))).map (·.complete) =
        some false := by
  have executed : (((diskMachine "0123456789ab" alternating).run
      (seenAmong "0123456789ab" alternating 2) diskStart outageMidSave).map fun config =>
        ((config.locals 0).phase, (config.locals 1).phase, config.world.history.last "hdr-a",
          config.world.history.lost "hdr-a",
          (config.world.dir (scratchName (blobName "0123456789ab" "hdr-b"))).map (·.complete))) =
      some (.done, .done, some 0, false, some false) := by
    decide
  obtain ⟨config, ran, observed⟩ := Option.map_eq_some_iff.mp executed
  simp only [Prod.mk.injEq] at observed
  obtain ⟨first, second, last, kept, torn⟩ := observed
  obtain ⟨reached, unstarted⟩ := seenRun ran
  refine ⟨config, reached, fun name => ?_, last, kept, torn⟩
  by_cases zero : name = 0
  · rw [zero, first]
    rfl
  · by_cases one : name = 1
    · rw [one, second]
      rfl
    · rw [unstarted name ((Nat.two_le_iff name).mpr ⟨zero, one⟩)]
      rfl

theorem files_refine_turns_mid_save :
    ∃ config : DiskState,
      (config.world.dir (scratchName (blobName "0123456789ab" "hdr-b"))).map (·.complete) =
        some false ∧
      (restarting "0123456789ab" alternating).Reachable (chatView "0123456789ab" config) ∧
      ∀ session file, config.world.dir (blobName "0123456789ab" session) = some file →
        file.complete = true ∧
          ∀ torn, config.world.dir.crash torn (blobName "0123456789ab" session) = some file := by
  obtain ⟨config, reached, -, -, -, torn⟩ := ran_outageMidSave
  exact ⟨config, torn, files_refine_turns (reached.mono fun _ _ _ => trivial)⟩

end Ollm.Proxy
