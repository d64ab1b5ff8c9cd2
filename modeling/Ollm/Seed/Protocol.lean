import Ollm.Seed.Steps

/-!
# The order of a dance

Whatever the backend and the publisher answer, a call issues its requests in
one order: it touches a slot only when the last report showed it idle, saves
only what was prefilled and confirmed, and publishes only what it just saved.
-/

namespace Ollm.Seed

open Json Keying Trace
open Proxy (SlotId SlotState)
open Store (CallId seedBlobName)

namespace Entry

def isSlotsReply : Entry → Bool
  | .slotsReply _ => true
  | _ => false

def isRestore : Entry → Bool
  | .restore _ _ => true
  | _ => false

def isPrefill : Entry → Bool
  | .prefill _ _ => true
  | _ => false

def isSave : Entry → Bool
  | .save _ _ => true
  | _ => false

def isPublish : Entry → Bool
  | .publish _ _ => true
  | _ => false

/-- A report that shows the slot idle. -/
def showsIdle (slot : SlotId) : Entry → Bool
  | .slotsReply reply => isIdle slot reply
  | _ => false

/-- A report that shows the slot idle at a position. -/
def showsLanded (slot : SlotId) : Entry → Bool
  | .slotsReply reply => isLanded slot reply
  | _ => false

end Entry

/-- No event of the kind so far. -/
def Never (kind : Entry → Bool) (past : List Entry) : Prop :=
  ∀ entry ∈ past, kind entry = false

/-- The last report showed the slot idle. -/
def SeenIdle (slot : SlotId) (past : List Entry) : Prop :=
  Since (·.showsIdle slot = true) (·.isSlotsReply = true) past

/-- The slot was prefilled, and a later report showed that the prompt landed. -/
def SeenLanded (slot : SlotId) (past : List Entry) : Prop :=
  ∃ before system between,
    past = before ++ .prefill slot system :: .prefillReply true :: between ∧
      ∃ entry ∈ between, entry.showsLanded slot = true

/-- What must have happened before a call for the blob `name` issues a request. -/
def Lawful (slot : SlotId) (name : String) (past : List Entry) : Entry → Prop
  | .restore target blob =>
      target = slot ∧ blob = name ∧ SeenIdle slot past ∧ Never Entry.isPrefill past
  | .prefill target _ => target = slot ∧ SeenIdle slot past ∧ Never Entry.isRestore past
  | .save target scratch =>
      target = slot ∧ scratch = scratchName name ∧ SeenLanded slot past ∧
        Never Entry.isSave past
  | .publish scratch final =>
      final = name ∧ Never Entry.isPublish past ∧
        ∃ before, past = before ++ [.save slot scratch, .saveReply true]
  | _ => True

theorem Never.snoc {kind : Entry → Bool} {past : List Entry} (never : Never kind past)
    {entry : Entry} (other : kind entry = false) : Never kind (past ++ [entry]) := by
  intro each member
  rcases List.mem_append.mp member with earlier | last
  · exact never each earlier
  · exact List.mem_singleton.mp last ▸ other

theorem Never.snoc₂ {kind : Entry → Bool} {past : List Entry} (never : Never kind past)
    {first second : Entry} (other : kind first = false) (other' : kind second = false) :
    Never kind (past ++ [first, second]) := by
  have both := (never.snoc other).snoc other'
  rwa [List.append_assoc] at both

theorem seenIdle_now {slot : SlotId} {reply : Option (List SlotState)}
    (idle : isIdle slot reply = true) (past : List Entry) :
    SeenIdle slot (past ++ [.slotsReply reply]) := by
  apply Since.now
  exact idle

/-- What a call's trace shows at each await. -/
def Shown (slot : SlotId) (scratch : String) : Phase → List Entry → Prop
  | .waiting, past | .gating, past =>
      Never Entry.isRestore past ∧ Never Entry.isPrefill past ∧ Never Entry.isSave past ∧
        Never Entry.isPublish past
  | .recalling, past | .enrolling, past =>
      SeenIdle slot past ∧ Never Entry.isRestore past ∧ Never Entry.isPrefill past ∧
        Never Entry.isSave past ∧ Never Entry.isPublish past
  | .prefilling, past =>
      (∃ before system, past = before ++ [.prefill slot system]) ∧ Never Entry.isSave past ∧
        Never Entry.isPublish past
  | .confirming, past =>
      (∃ before system, past = before ++ [.prefill slot system, .prefillReply true, .slots]) ∧
        Never Entry.isSave past ∧ Never Entry.isPublish past
  | .saving _, past =>
      (∃ before, past = before ++ [.save slot scratch]) ∧ Never Entry.isPublish past
  | _, _ => True

variable {sha256 : List UInt8 → Digest} {calls : CallId → Call} {bag : Bag} {c : CallId}

theorem Step.shown {action : Action} {l l' : Local} {world world' : World}
    (step : Step sha256 calls c action l world l' world')
    (shown : Shown (calls c).slot (scratchOf sha256 calls c) l.phase l.trace) :
    Shown (calls c).slot (scratchOf sha256 calls c) l'.phase l'.trace := by
  cases step with
  | begin =>
      obtain ⟨restores, prefills, saves, publishes⟩ := shown
      exact ⟨restores.snoc rfl, prefills.snoc rfl, saves.snoc rfl, publishes.snoc rfl⟩
  | @gated reply job trace world idle =>
      obtain ⟨restores, prefills, saves, publishes⟩ := shown
      exact ⟨seenIdle_now idle trace, restores.snoc rfl, prefills.snoc rfl, saves.snoc rfl,
        publishes.snoc rfl⟩
  | unknown => exact shown
  | enroll =>
      obtain ⟨-, -, -, saves, publishes⟩ := shown
      exact ⟨⟨_, _, rfl⟩, saves.snoc rfl, publishes.snoc rfl⟩
  | prefilled =>
      obtain ⟨⟨before, system, last⟩, saves, publishes⟩ := shown
      refine ⟨⟨before, system, ?_⟩, saves.snoc₂ rfl rfl, publishes.snoc₂ rfl rfl⟩
      simp only at last ⊢
      rw [last, List.append_assoc]
      rfl
  | @confirmed reply job trace =>
      obtain ⟨-, -, publishes⟩ := shown
      exact ⟨⟨trace ++ [.slotsReply reply], by simp⟩, publishes.snoc₂ rfl rfl⟩
  | write => exact shown
  | start => exact shown
  | finish => exact shown
  | evict => exact shown
  | _ => trivial

theorem Step.disciplined {action : Action} {l l' : Local} {world world' : World}
    (step : Step sha256 calls c action l world l' world')
    (shown : Shown (calls c).slot (scratchOf sha256 calls c) l.phase l.trace)
    (disciplined : Disciplined (Lawful (calls c).slot (blobOf sha256 calls c)) l.trace) :
    Disciplined (Lawful (calls c).slot (blobOf sha256 calls c)) l'.trace := by
  cases step with
  | begin | gated | turnedAway | restored | notRestored | notPrefilled | unconfirmed
  | notSaved | published =>
      exact disciplined.snoc trivial
  | recalled =>
      obtain ⟨idle, -, prefills, -, -⟩ := shown
      exact disciplined.snoc ⟨rfl, rfl, idle, prefills⟩
  | enroll =>
      obtain ⟨idle, restores, -, -, -⟩ := shown
      exact disciplined.snoc ⟨rfl, idle, restores⟩
  | prefilled => exact disciplined.append trivial trivial
  | @confirmed reply job trace world landed =>
      obtain ⟨⟨before, system, last⟩, saves, -⟩ := shown
      refine disciplined.append ?_ ⟨rfl, rfl, ⟨before, system, [.slots, .slotsReply reply],
        ?_, ?_⟩, saves.snoc rfl⟩
      · trivial
      · simp only at last
        rw [last, List.append_assoc]
        rfl
      · exact ⟨.slotsReply reply, by simp, landed⟩
  | saved =>
      obtain ⟨⟨before, last⟩, publishes⟩ := shown
      refine disciplined.append ?_ ⟨rfl, publishes.snoc rfl, before, ?_⟩
      · trivial
      · simp only at last
        rw [last, List.append_assoc]
        rfl
  | _ => exact disciplined

theorem shown_of_reachable {config : DanceState}
    (reached : (dance sha256 calls bag).machine.Reachable config) (c : CallId) :
    Shown (calls c).slot (scratchOf sha256 calls c) (config.locals c).phase
        (config.locals c).trace ∧
      Disciplined (Lawful (calls c).slot (blobOf sha256 calls c)) (config.locals c).trace := by
  refine (dance sha256 calls bag).assertion_of_reachedBy
    (fun name l _ => Shown (calls name).slot (scratchOf sha256 calls name) l.phase l.trace ∧
      Disciplined (Lawful (calls name).slot (blobOf sha256 calls name)) l.trace)
    ?_ ?_ ?_ reached c
  · intro world _ name
    have none : ∀ kind, Never kind [] := by simp [Never]
    exact ⟨⟨none _, none _, none _, none _⟩, .nil⟩
  · intro config name action l' world' holds _ acted
    obtain ⟨shown, disciplined⟩ := holds name
    have step := step_of_act acted
    exact ⟨step.shown shown, step.disciplined shown disciplined⟩
  · intro config name action l' world' holds _ _ other _
    exact holds other

/-- The order of the requests of one call, for the blob `name`. -/
structure InOrder (slot : SlotId) (name : String) (trace : List Entry) : Prop where
  lawful : ∀ past entry later, trace = past ++ entry :: later → Lawful slot name past entry
  saves : trace.countP Entry.isSave ≤ 1
  publishes : trace.countP Entry.isPublish ≤ 1
  exclusive : ¬ ((∃ entry ∈ trace, entry.isRestore = true) ∧
    ∃ entry ∈ trace, entry.isPrefill = true)

theorem inOrder_of_disciplined {slot : SlotId} {name : String} {trace : List Entry}
    (disciplined : Disciplined (Lawful slot name) trace) : InOrder slot name trace where
  lawful _ _ _ split := disciplined.lawful split
  saves := disciplined.countP_le_one fun past entry lawful isSave => by
    cases entry with
    | save => exact lawful.2.2.2
    | _ => cases isSave
  publishes := disciplined.countP_le_one fun past entry lawful isPublish => by
    cases entry with
    | publish => exact lawful.2.1
    | _ => cases isPublish
  exclusive := by
    apply disciplined.exclusive
    · intro entry isRestore
      cases entry <;> first | rfl | cases isRestore
    · intro past entry lawful isRestore
      cases entry with
      | restore => exact lawful.2.2.2
      | _ => cases isRestore
    · intro past entry lawful isPrefill
      cases entry with
      | prefill => exact lawful.2.2
      | _ => cases isPrefill

/-! ## Second sight -/

/-- The awaits of a call that never gets to the dance. -/
def Phase.recalls : Phase → Bool
  | .waiting | .gating | .recalling | .restoring _ | .returned _ => true
  | _ => false

/-- The call issued nothing but reports and restores. -/
structure Recalls (l : Local) : Prop where
  phase : l.phase.recalls = true
  prefills : Never Entry.isPrefill l.trace
  saves : Never Entry.isSave l.trace
  publishes : Never Entry.isPublish l.trace

theorem recalls_fresh : Recalls .fresh := by
  refine ⟨rfl, ?_, ?_, ?_⟩ <;> simp [Never, Local.fresh]

theorem Recalls.goOn {phase phase' : Phase} {job job' : Job} {trace : List Entry} {entry : Entry}
    (recalls : Recalls ⟨phase, job, trace⟩) (stays : phase'.recalls = true)
    (prefill : entry.isPrefill = false) (save : entry.isSave = false)
    (publish : entry.isPublish = false) : Recalls ⟨phase', job', trace ++ [entry]⟩ :=
  ⟨stays, recalls.prefills.snoc prefill, recalls.saves.snoc save,
    recalls.publishes.snoc publish⟩

theorem recalls_of_waiting {config : DanceState}
    (reached : (dance sha256 calls bag).machine.Reachable config)
    (waiting : (config.locals c).phase = .waiting) : Recalls (config.locals c) := by
  have shown := (shown_of_reachable reached c).1
  rw [waiting] at shown
  obtain ⟨-, prefills, saves, publishes⟩ := shown
  exact ⟨by rw [waiting]; rfl, prefills, saves, publishes⟩

/-- As long as the family is cached when the call looks it up, the call only recalls it. -/
theorem Step.recalls {action : Action} {l l' : Local} {world world' : World}
    (step : Step sha256 calls c action l world l' world') (recalls : Recalls l)
    (cached : l.phase = .recalling → world.bag.isCached (keyOf sha256 calls c) = true) :
    Recalls l' := by
  cases step with
  | begin | gated | turnedAway | recalled | restored | notRestored =>
      exact recalls.goOn rfl rfl rfl rfl
  | unknown uncached =>
      rw [cached rfl] at uncached
      cases uncached
  | beginUnkeyed | load =>
      exact ⟨rfl, recalls.prefills, recalls.saves, recalls.publishes⟩
  | start | finish =>
      exact ⟨recalls.phase, recalls.prefills, recalls.saves, recalls.publishes⟩
  | evict => exact recalls
  | _ => cases recalls.phase

theorem Step.bag_of_recalls {action : Action} {l l' : Local} {world world' : World}
    (step : Step sha256 calls c action l world l' world') (recalls : l.phase.recalls = true) :
    world'.bag = world.bag := by
  cases step with
  | enroll | markCached | markFailed => cases recalls
  | _ => rfl

/-- A call alone on a bag that has its family cached. -/
theorem recalls_of_cached {config : DanceState}
    (reached : (dance sha256 calls bag).machine.ReachedBy (fun _ event => event.1 = c) config)
    (cached : bag.isCached (keyOf sha256 calls c) = true) : Recalls (config.locals c) := by
  refine (reached.invariant (fun config => config.world.bag = bag ∧ Recalls (config.locals c))
    ?_ ?_).2
  · rintro config ⟨fresh, started⟩
    rw [started]
    exact ⟨fresh.bag, recalls_fresh⟩
  · rintro before ⟨name, action⟩ after ⟨same, recalls⟩ rfl moved
    obtain ⟨step, -⟩ := step_of_moved moved
    rw [step.bag_of_recalls recalls.phase]
    exact ⟨same, step.recalls recalls fun _ => same ▸ cached⟩

/-- The order of requests holds in all runs, and a call alone on a bag that has its family cached
issues no prefill, save or publish. -/
theorem prepare_in_order (sha256 : List UInt8 → Digest) (calls : CallId → Call) (bag : Bag)
    (c : CallId) :
    (∀ config, (dance sha256 calls bag).machine.Reachable config →
      InOrder (calls c).slot (blobOf sha256 calls c) (config.locals c).trace) ∧
    ∀ config key entry,
      (dance sha256 calls bag).machine.ReachedBy (fun _ event => event.1 = c) config →
      systemHash sha256 (calls c).messages = some key →
      bag key = some entry → entry.state = .cached →
      Never Entry.isPrefill (config.locals c).trace ∧
        Never Entry.isSave (config.locals c).trace ∧
        Never Entry.isPublish (config.locals c).trace := by
  constructor
  · intro config reached
    exact inOrder_of_disciplined (shown_of_reachable reached c).2
  · intro config key entry reached hashed found state
    have cached : bag.isCached (keyOf sha256 calls c) = true := by
      simp [keyOf, hashed, Bag.isCached, found, state]
    have recalls := recalls_of_cached reached cached
    exact ⟨recalls.prefills, recalls.saves, recalls.publishes⟩

end Ollm.Seed
