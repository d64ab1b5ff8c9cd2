import Mathlib.Algebra.Order.BigOperators.Group.Finset
import Ollm.Library.RwLock
import Ollm.Library.Transition

/-!
# Threads around a lock

Threads that share one readers-writer lock.  Where a thread stands tells what it
holds; if every step takes, keeps or releases the lock accordingly, the lock
lists its holders exactly, in every run.  If moreover a thread waits for nothing
but the lock, forward steps can be taken, in any order, until all threads have
finished, and there is a bound on how many it takes.
-/

universe u

namespace RwLock

inductive Hold where
  | shared
  | exclusive
  deriving DecidableEq, Repr

variable {Name : Type u} [DecidableEq Name]

/-- What a step of one thread makes of the lock, by what the thread holds
before and after it. -/
inductive Handles (name : Name) :
    Option Hold → Option Hold → RwLock Name → RwLock Name → Prop where
  | keep {held lock} : Handles name held held lock lock
  | read {lock granted} (asked : lock.read? name = some granted) :
      Handles name none (some .shared) lock granted
  | write {lock granted} (asked : lock.write? name = some granted) :
      Handles name none (some .exclusive) lock granted
  | release {held lock} : Handles name held none lock (lock.release name)

/-- The lock lists exactly those who hold it, a writer alone. -/
structure Accounts (lock : RwLock Name) (held : Name → Option Hold) : Prop where
  readers : ∀ name, name ∈ lock.readers ↔ held name = some .shared
  writer : ∀ name, lock.writer = some name ↔ held name = some .exclusive
  apart : lock.writer = none ∨ lock.readers = []

variable {lock lock' : RwLock Name} {held : Name → Option Hold} {name : Name}

omit [DecidableEq Name] in
theorem exists_read (name : Name) (unheld : lock.writer = none) :
    ∃ granted, lock.read? name = some granted := by
  rw [read?, if_pos unheld]
  exact ⟨_, rfl⟩

omit [DecidableEq Name] in
theorem exists_write (name : Name) (unheld : lock = free) :
    ∃ granted, lock.write? name = some granted := by
  rw [unheld]
  exact ⟨_, rfl⟩

omit [DecidableEq Name] in
theorem accounts_free (none : ∀ name, held name = none) :
    (free : RwLock Name).Accounts held where
  readers name := by simp [free, none]
  writer name := by simp [free, none]
  apart := .inl rfl

theorem Accounts.handles {after : Option Hold} (accounts : lock.Accounts held)
    (handles : Handles name (held name) after lock lock') :
    lock'.Accounts (Function.update held name after) := by
  generalize before : held name = own at handles
  cases handles with
  | keep =>
      rw [← before, Function.update_eq_self]
      exact accounts
  | read asked =>
      unfold read? at asked
      split_ifs at asked with unheld
      cases asked
      refine ⟨fun other => ?_, fun other => ?_, .inl unheld⟩
      · by_cases same : other = name <;> simp [same, accounts.readers other]
      · by_cases same : other = name
        · simp [same, unheld]
        · simpa [same] using accounts.writer other
  | write asked =>
      unfold write? at asked
      split_ifs at asked with unheld
      cases asked
      refine ⟨fun other => ?_, fun other => ?_, .inr unheld.2⟩
      · by_cases same : other = name
        · simp [same, unheld.2]
        · simpa [same] using accounts.readers other
      · by_cases same : other = name
        · simp [same]
        · have idle := accounts.writer other
          simp only [unheld.1, reduceCtorEq, false_iff] at idle
          simp [same, Ne.symm same, idle]
  | release =>
      refine ⟨fun other => ?_, fun other => ?_, ?_⟩
      · by_cases same : other = name
        · simp [release, same]
        · simp [release, same, accounts.readers other]
      · by_cases same : other = name
        · subst same
          by_cases own : lock.writer = some other <;> simp [release, own]
        · simp [same, writer_release same, accounts.writer other]
      · rcases accounts.apart with unheld | unread
        · exact .inl (by simp [release, unheld])
        · exact .inr (by simp [release, unread])

omit [DecidableEq Name] in
/-- Nobody holds anything beside an exclusive holder. -/
theorem Accounts.alone (accounts : lock.Accounts held) (exclusive : held name = some .exclusive)
    {other : Name} (distinct : other ≠ name) : held other = none := by
  have writes := (accounts.writer name).mpr exclusive
  have unread : lock.readers = [] := by
    rcases accounts.apart with unheld | unread
    · simp [unheld] at writes
    · exact unread
  cases holds : held other with
  | none => rfl
  | some hold =>
      cases hold with
      | shared => simpa [unread] using (accounts.readers other).mpr holds
      | exclusive =>
          have both := writes.symm.trans ((accounts.writer other).mpr holds)
          exact absurd (Option.some.inj both).symm distinct

omit [DecidableEq Name] in
/-- A lock that nobody holds is free. -/
theorem Accounts.eq_free (accounts : lock.Accounts held) (none : ∀ name, held name = none) :
    lock = free := by
  obtain ⟨readers, writer⟩ := lock
  have unread : readers = [] := by
    rw [List.eq_nil_iff_forall_not_mem]
    intro name member
    simpa [none name] using (accounts.readers name).mp member
  have unheld : writer = Option.none := by
    rw [Option.eq_none_iff_forall_ne_some]
    intro name holds
    simpa [none name] using (accounts.writer name).mp holds
  rw [unread, unheld, free]

end RwLock

namespace Threads

open RwLock

variable {Name World Local Action : Type*}

section Guarded

variable [DecidableEq Name] (threads : Threads Name World Local Action)
  (gate : World → RwLock Name) (held : Local → Option Hold)

/-- Nobody holds the lock at first, and every step handles it as the thread's
place before and after the step tells. -/
structure Guarded : Prop where
  free : ∀ world, threads.Initial world → gate world = .free
  start : ∀ name, held (threads.start name) = none
  step : ∀ name action own world own' world',
    threads.act name action own world = some (own', world') →
      Handles name (held own) (held own') (gate world) (gate world')

variable {threads gate held}

/-- The lock lists exactly the threads that are where it is held. -/
def Accounted (gate : World → RwLock Name) (held : Local → Option Hold)
    (config : Config Name World Local) : Prop :=
  (gate config.world).Accounts fun name => held (config.locals name)

theorem Guarded.initial (guarded : threads.Guarded gate held) {config : Config Name World Local}
    (initial : threads.Initial config.world) (locals : config.locals = threads.start) :
    Accounted gate held config := by
  rw [Accounted, guarded.free _ initial, locals]
  exact accounts_free guarded.start

theorem Guarded.accounted_step (guarded : threads.Guarded gate held)
    {before after : Config Name World Local} {event : Name × Action}
    (accounted : Accounted gate held before)
    (moved : threads.machine.step before event = some after) : Accounted gate held after := by
  obtain ⟨⟨own', world'⟩, acted, rfl⟩ := Option.map_eq_some_iff.mp moved
  have handled := accounted.handles (guarded.step _ _ _ _ _ _ acted)
  have places := Function.comp_update held before.locals event.1 own'
  exact (congrArg (gate world').Accounts places).mpr handled

theorem Guarded.accounted (guarded : threads.Guarded gate held)
    {allowed : Config Name World Local → Name × Action → Prop}
    {config : Config Name World Local} (reached : threads.machine.ReachedBy allowed config) :
    Accounted gate held config := by
  refine reached.invariant (Accounted gate held) ?_ ?_
  · exact fun config initial => guarded.initial initial.1 initial.2
  · exact fun before event after accounted _ moved => guarded.accounted_step accounted moved

end Guarded

section Draining

variable (threads : Threads ℕ World Local Action) (gate : World → RwLock ℕ)
  (held asks : Local → Option Hold) (rank : Local → ℕ)

/-- A thread that is not at its end can go on, unless it asks for a lock that
another one has.  `rank` bounds the steps before the end. -/
structure Proceeds : Prop where
  ended : ∀ own, rank own = 0 → held own = none
  asking : ∀ own, asks own ≠ none → held own = none
  moves : ∀ name own world, rank own ≠ 0 →
    (asks own = some .shared → (gate world).writer = none) →
    (asks own = some .exclusive → gate world = .free) →
    ∃ action own' world', threads.act name action own world = some (own', world') ∧
      rank own' < rank own

/-- The step brings one of the first `n` threads forward. -/
def forward (n : ℕ) (config : Config ℕ World Local) (event : ℕ × Action) : Bool :=
  decide (event.1 < n) &&
    match threads.act event.1 event.2 (config.locals event.1) config.world with
    | some (own', _) => decide (rank own' < rank (config.locals event.1))
    | none => false

/-- The steps that the first `n` threads have before them. -/
def work (n : ℕ) (config : Config ℕ World Local) : ℕ :=
  ∑ name ∈ Finset.range n, rank (config.locals name)

variable {threads gate held asks rank}

theorem work_lt_of_forward {n : ℕ} {before after : Config ℕ World Local} {event : ℕ × Action}
    (forwards : threads.forward rank n before event = true)
    (moved : threads.machine.step before event = some after) :
    work rank n after < work rank n before := by
  obtain ⟨⟨own', world'⟩, acted, rfl⟩ := Option.map_eq_some_iff.mp moved
  simp only [forward, acted, Bool.and_eq_true, decide_eq_true_eq] at forwards
  apply Finset.sum_lt_sum
  · intro name _
    by_cases same : name = event.1
    · subst same
      simpa using forwards.2.le
    · simp [same]
  · exact ⟨event.1, Finset.mem_range.mpr forwards.1, by simpa using forwards.2⟩

/-- Either a thread that awaits nothing can be brought forward, or the lock is
free and every thread can be: whoever is granted the lock first, none is stuck. -/
theorem Proceeds.goes (proceeds : threads.Proceeds gate held asks rank) {n : ℕ}
    {config : Config ℕ World Local} (accounted : Accounted gate held config)
    (others : ∀ name, n ≤ name → held (config.locals name) = none) :
    (∃ event, threads.forward rank n config event = true ∧
        asks (config.locals event.1) = none) ∨
      (gate config.world = .free ∧ ∀ name < n, rank (config.locals name) ≠ 0 →
        ∃ action, threads.forward rank n config (name, action) = true) := by
  have forwards : ∀ name < n, rank (config.locals name) ≠ 0 →
      (asks (config.locals name) ≠ none → gate config.world = .free) →
      ∃ action, threads.forward rank n config (name, action) = true := by
    intro name below unfinished free
    have shared : asks (config.locals name) = some .shared →
        (gate config.world).writer = none := by
      intro asksIt
      rw [free (by simp [asksIt])]
      rfl
    obtain ⟨action, own', world', acted, lower⟩ := proceeds.moves name _ _ unfinished shared
      fun asksIt => free (by simp [asksIt])
    exact ⟨action, by simp [forward, acted, below, lower]⟩
  by_cases waits : ∃ name < n, rank (config.locals name) ≠ 0 ∧ asks (config.locals name) = none
  · obtain ⟨name, below, unfinished, asksNothing⟩ := waits
    obtain ⟨action, goes⟩ := forwards name below unfinished (absurd asksNothing)
    exact .inl ⟨(name, action), goes, asksNothing⟩
  · -- whoever is not at the end asks for the lock, so nobody has it
    have unheld : ∀ name, held (config.locals name) = none := by
      intro name
      by_cases started : name < n
      · by_cases ended : rank (config.locals name) = 0
        · exact proceeds.ended _ ended
        · exact proceeds.asking _ fun asksNothing => waits ⟨name, started, ended, asksNothing⟩
      · exact others name (Nat.le_of_not_lt started)
    have free : gate config.world = .free := accounted.eq_free unheld
    exact .inr ⟨free, fun name below unfinished => forwards name below unfinished fun _ => free⟩

/-- Steps forward, in any order, are bounded in number and keep the account. -/
theorem length_add_work_le (guarded : threads.Guarded gate held) {n : ℕ}
    {config last : Config ℕ World Local} (accounted : Accounted gate held config)
    (others : ∀ name, n ≤ name → held (config.locals name) = none) {events : List (ℕ × Action)}
    (ran : threads.machine.run (threads.forward rank n) config events = some last) :
    events.length + work rank n last ≤ work rank n config ∧ Accounted gate held last ∧
      ∀ name, n ≤ name → held (last.locals name) = none := by
  induction events generalizing config with
  | nil =>
      cases ran
      exact ⟨by simp, accounted, others⟩
  | cons event rest inductionHypothesis =>
      rw [Machine.run] at ran
      split_ifs at ran with forwards
      obtain ⟨next, moved, later⟩ := Option.bind_eq_some_iff.mp ran
      have below : event.1 < n := by
        simp only [forward, Bool.and_eq_true, decide_eq_true_eq] at forwards
        exact forwards.1
      have others' : ∀ name, n ≤ name → held (next.locals name) = none := by
        intro name beyond
        rw [(threads.acts_of_machine_step moved).2 name (by omega)]
        exact others name beyond
      obtain ⟨bounded, kept⟩ := inductionHypothesis (guarded.accounted_step accounted moved)
        others' later
      have lower := work_lt_of_forward forwards moved
      exact ⟨by rw [List.length_cons]; omega, kept⟩

/-- Steps forward, in any order, lead to the end of all threads: there is a bound
on their number, and until then none is stuck. -/
theorem Proceeds.drains (proceeds : threads.Proceeds gate held asks rank)
    (guarded : threads.Guarded gate held) {n : ℕ} {config last : Config ℕ World Local}
    (accounted : Accounted gate held config)
    (others : ∀ name, n ≤ name → held (config.locals name) = none) {events : List (ℕ × Action)}
    (ran : threads.machine.run (threads.forward rank n) config events = some last) :
    events.length ≤ work rank n config ∧
      ((∃ event, threads.forward rank n last event = true ∧ asks (last.locals event.1) = none) ∨
        (gate last.world = .free ∧ ∀ name < n, rank (last.locals name) ≠ 0 →
          ∃ action, threads.forward rank n last (name, action) = true)) := by
  obtain ⟨bounded, accounted', others'⟩ := length_add_work_le guarded accounted others ran
  exact ⟨by omega, proceeds.goes accounted' others'⟩

end Draining

end Threads
