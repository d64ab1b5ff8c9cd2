import Ollm.Proxy.Steps

/-!
# Serial runs

In a serial run each request and its post-turn work finish before the next
request is looked up.  The guard speaks about all requests; a run that involves
the first few of them only is checked by looking at those.
-/

namespace Ollm.Proxy

/-- Not looked up yet, or finished with all of its work. -/
def Phase.resting : Phase → Bool
  | .waiting => true
  | .done => true
  | _ => false

def Serial (config : ProxyState) (event : RequestId × Action) : Prop :=
  (config.locals event.1).resting = true →
    ∀ other, other ≠ event.1 → (config.locals other).resting = true

/-- A check for `Serial` when only the first `n` requests have started. -/
def serialAmong (n : Nat) (config : ProxyState) (event : RequestId × Action) : Bool :=
  decide (event.1 < n) && (!(config.locals event.1).resting ||
    (List.range n).all fun other => other == event.1 || (config.locals other).resting)

theorem serial_of_serialAmong {backendSig : String} {requests : RequestId → Request} {n : Nat}
    {config : ProxyState} {event : RequestId × Action}
    (unstarted : (chat backendSig requests).Unstarted n config)
    (checked : serialAmong n config event = true) : Serial config event := by
  intro resting other distinct
  simp only [serialAmong, resting, Bool.and_eq_true, Bool.or_eq_true, List.all_eq_true,
    List.mem_range, Bool.not_true, Bool.false_eq_true, false_or, beq_iff_eq] at checked
  by_cases started : other < n
  · exact (checked.2 other started).resolve_left distinct
  · rw [unstarted other (Nat.le_of_not_lt started)]
    rfl

/-- Executing a checked list of events from the start is a serial run. -/
theorem serialRun {backendSig : String} {requests : RequestId → Request} {n : Nat}
    (allowed : ProxyState → RequestId × Action → Prop)
    {check : ProxyState → RequestId × Action → Bool}
    (sound : ∀ config event, check config event = true → allowed config event)
    {events : List (RequestId × Action)} {config : ProxyState}
    (executed : (chat backendSig requests).machine.run
      (fun config event => serialAmong n config event && check config event)
      chatStart events = some config) :
    (chat backendSig requests).machine.ReachedBy
      (fun config event => Serial config event ∧ allowed config event) config := by
  refine (chat backendSig requests).reachedBy_of_run_among n ?_ ?_
    (initial_chatStart backendSig requests) executed
  · intro config event checked
    simp only [serialAmong, Bool.and_eq_true, decide_eq_true_eq] at checked
    exact checked.1.1
  · intro config event unstarted checked
    rw [Bool.and_eq_true] at checked
    exact ⟨serial_of_serialAmong unstarted checked.1, sound config event checked.2⟩

/-- A whole turn on the given idle slot, up to the end of its post-turn work. -/
def wholeTurn (name : RequestId) (slot : SlotId) : List (RequestId × Action) :=
  [.enter, .miss, idle [slot], .pick, .mark, .land slot, .answer .success, .finish .complete,
    .relabel, .lock, .capture, .saveReply true, .publish true, .clean, .settle].map (name, ·)

end Ollm.Proxy
