import Mathlib.Data.Fintype.Defs
import Mathlib.Logic.Function.Basic
import ConcLogger.Concurrency.Machine
import ConcLogger.Concurrency.Threads
import ConcLogger.Sinks.Format

namespace ConcLogger.Sinks.FileSink

open Concurrency

/-!
# A file sink, piece by piece

`FileSink::write` holds `mutex_` while it inserts a record into the stream
with one `operator<<` after the other; `flush` holds it around
`file_.flush()`.  The stream keeps what it has been given in a buffer and may
pass a part of it on to the file at any moment, so that the file can end in
the middle of a record.

The file is what this sink has passed on since it opened the file: in append
mode older text comes before it.  A character stands for one `char`.
-/

/-- What `write` inserts into the stream, one `operator<<` after the other. -/
def pieces (entry : LogEntry) (tm : Tm) : List String :=
  [tm.putTime fileTimeFormat, " [", entry.level.toString, "]",
      " [", entry.module, "]",
      " [T", toString entry.ompThreadId, "]",
      "  ", entry.message] ++
    (if entry.threadDump.isEmpty then [] else [entry.threadDump]) ++
    ["\n"]

/-- The pieces make up the record and its line feed. -/
theorem join_pieces (entry : LogEntry) (tm : Tm) :
    String.join (pieces entry tm) = fileRecord entry tm ++ "\n" := by
  delta pieces fileRecord LogEntry.fields
  split <;> simp [String.append_assoc, -String.reduceAppend]

/-- Where a thread is; an idle thread is outside the sink. -/
inductive Phase where
  | idle
  /-- `write` before it acquires `mutex_`, with its copy of the time. -/
  | locking (entry : LogEntry) (tm : Tm)
  /-- `mutex_` is held; some pieces have not been inserted yet. -/
  | inserting (entry : LogEntry) (tm : Tm) (rest : List String)
  /-- `flush` before it acquires `mutex_`. -/
  | flushLocking
  /-- `mutex_` is held; `file_.flush()` is next. -/
  | flushing
  /-- The stream has been flushed; `mutex_` is still held. -/
  | flushUnlocking
  deriving DecidableEq

/-- The stream with its file, the mutex and the threads. -/
structure State (Thread : Type) where
  /-- What has been inserted into `file_`. -/
  stream : String
  /-- How many characters of it have reached the file. -/
  passed : Nat
  mutex : Option Thread
  phase : Thread → Phase

/-- Scheduler choices. -/
inductive Event (Thread : Type) where
  | write (thread : Thread) (entry : LogEntry) (tm : Tm)
  | flush (thread : Thread)
  /-- The next step of a thread inside `write` or `flush`. -/
  | advance (thread : Thread)
  /-- The buffer of the stream passes characters on to the file. -/
  | pass (count : Nat)

/-- What can be seen of a run. -/
inductive Obs (Thread : Type) where
  /-- `write` is complete. -/
  | wrote (thread : Thread) (entry : LogEntry) (tm : Tm)
  | flushCalled (thread : Thread)
  | flushed (thread : Thread)
  deriving DecidableEq

namespace State

variable {Thread : Type}

/-- The constructor has opened the file. -/
def initial : State Thread where
  stream := ""
  passed := 0
  mutex := none
  phase := fun _ => .idle

/-- What the sink has put into the file. -/
def file (state : State Thread) : List Char :=
  state.stream.toList.take state.passed

variable [DecidableEq Thread]

/-- Change the phase of one thread only. -/
def moveTo
    (state : State Thread)
    (thread : Thread)
    (phase : Phase) :
    State Thread :=
  { state with phase := Function.update state.phase thread phase }

/-- Acquire `mutex_`, if it is free. -/
def lock?
    (state : State Thread)
    (thread : Thread)
    (phase : Phase) :
    Option (State Thread × List (Obs Thread)) :=
  if state.mutex = none then
    some ({ state.moveTo thread phase with mutex := some thread }, [])
  else
    none

/-- The next step of a thread inside `write` or `flush`. -/
def advance?
    (state : State Thread)
    (thread : Thread) :
    Option (State Thread × List (Obs Thread)) :=
  match state.phase thread with
  | .idle =>
      none
  | .locking entry tm =>
      state.lock? thread (.inserting entry tm (pieces entry tm))
  | .inserting entry tm (piece :: rest) =>
      some
        ({ state.moveTo thread (.inserting entry tm rest) with
            stream := state.stream ++ piece }, [])
  | .inserting entry tm [] =>
      some
        ({ state.moveTo thread .idle with mutex := none },
          [.wrote thread entry tm])
  | .flushLocking =>
      state.lock? thread .flushing
  | .flushing =>
      some
        ({ state.moveTo thread .flushUnlocking with
            passed := state.stream.length }, [])
  | .flushUnlocking =>
      some
        ({ state.moveTo thread .idle with mutex := none },
          [.flushed thread])

/-- One step of the sink and its threads. -/
def step?
    (state : State Thread)
    (event : Event Thread) :
    Option (State Thread × List (Obs Thread)) :=
  match event with
  | .write thread entry tm =>
      if state.phase thread = .idle then
        some (state.moveTo thread (.locking entry tm), [])
      else
        none
  | .flush thread =>
      if state.phase thread = .idle then
        some (state.moveTo thread .flushLocking, [.flushCalled thread])
      else
        none
  | .advance thread =>
      state.advance? thread
  | .pass count =>
      some
        ({ state with
            passed := max state.passed (min count state.stream.length) },
          [])

end State

section MoveTo

variable
  {Thread : Type}
  [DecidableEq Thread]
  (state : State Thread)
  (thread : Thread)
  (phase : Phase)

@[simp] theorem State.stream_moveTo :
    (state.moveTo thread phase).stream = state.stream :=
  rfl

@[simp] theorem State.phase_moveTo :
    (state.moveTo thread phase).phase =
      Function.update state.phase thread phase :=
  rfl

end MoveTo

/-- A file sink as a machine. -/
def machine
    (Thread : Type)
    [DecidableEq Thread] :
    Machine (State Thread) (Event Thread) (Obs Thread) where
  init := .initial
  step? := State.step?

/-! ## What one step can do -/

/-- The steps of a file sink, with guards and effects. -/
inductive Step
    {Thread : Type}
    [DecidableEq Thread]
    (state : State Thread) :
    Event Thread → List (Obs Thread) → State Thread → Prop where
  | write
      (thread : Thread)
      (entry : LogEntry)
      (tm : Tm)
      (idle : state.phase thread = .idle) :
      Step state (.write thread entry tm) []
        (state.moveTo thread (.locking entry tm))
  | flush
      (thread : Thread)
      (idle : state.phase thread = .idle) :
      Step state (.flush thread) [.flushCalled thread]
        (state.moveTo thread .flushLocking)
  | lock
      (thread : Thread)
      (entry : LogEntry)
      (tm : Tm)
      (phase : state.phase thread = .locking entry tm)
      (free : state.mutex = none) :
      Step state (.advance thread) []
        { state.moveTo thread
            (.inserting entry tm (pieces entry tm)) with
          mutex := some thread }
  | insert
      (thread : Thread)
      (entry : LogEntry)
      (tm : Tm)
      (piece : String)
      (rest : List String)
      (phase : state.phase thread = .inserting entry tm (piece :: rest)) :
      Step state (.advance thread) []
        { state.moveTo thread (.inserting entry tm rest) with
          stream := state.stream ++ piece }
  | unlock
      (thread : Thread)
      (entry : LogEntry)
      (tm : Tm)
      (phase : state.phase thread = .inserting entry tm []) :
      Step state (.advance thread) [.wrote thread entry tm]
        { state.moveTo thread .idle with mutex := none }
  | flushLock
      (thread : Thread)
      (phase : state.phase thread = .flushLocking)
      (free : state.mutex = none) :
      Step state (.advance thread) []
        { state.moveTo thread .flushing with mutex := some thread }
  | flushStream
      (thread : Thread)
      (phase : state.phase thread = .flushing) :
      Step state (.advance thread) []
        { state.moveTo thread .flushUnlocking with
          passed := state.stream.length }
  | flushUnlock
      (thread : Thread)
      (phase : state.phase thread = .flushUnlocking) :
      Step state (.advance thread) [.flushed thread]
        { state.moveTo thread .idle with mutex := none }
  | pass
      (count : Nat) :
      Step state (.pass count) []
        { state with
          passed := max state.passed (min count state.stream.length) }

section Exhaustive

variable
  {Thread : Type}
  [DecidableEq Thread]
  {state next : State Thread}
  {emitted : List (Obs Thread)}

/-- Every step inside `write` and `flush` is listed. -/
private theorem Step.of_advance?
    {thread : Thread}
    (taken : state.advance? thread = some (next, emitted)) :
    Step state (.advance thread) emitted next := by
  unfold State.advance? at taken
  cases phase : state.phase thread with
  | idle =>
      simp [phase] at taken
  | locking entry tm =>
      simp only [phase, State.lock?, Option.ite_none_right_eq_some]
        at taken
      obtain ⟨free, shape⟩ := taken
      cases shape
      exact .lock thread entry tm phase free
  | inserting entry tm rest =>
      cases rest with
      | nil =>
          simp only [phase] at taken
          cases taken
          exact .unlock thread entry tm phase
      | cons piece rest =>
          simp only [phase] at taken
          cases taken
          exact .insert thread entry tm piece rest phase
  | flushLocking =>
      simp only [phase, State.lock?, Option.ite_none_right_eq_some]
        at taken
      obtain ⟨free, shape⟩ := taken
      cases shape
      exact .flushLock thread phase free
  | flushing =>
      simp only [phase] at taken
      cases taken
      exact .flushStream thread phase
  | flushUnlocking =>
      simp only [phase] at taken
      cases taken
      exact .flushUnlock thread phase

/-- The executable step function takes only the listed steps. -/
theorem Step.of_step?
    {event : Event Thread}
    (taken : state.step? event = some (next, emitted)) :
    Step state event emitted next := by
  cases event with
  | write thread entry tm =>
      simp only [State.step?, Option.ite_none_right_eq_some] at taken
      obtain ⟨idle, shape⟩ := taken
      cases shape
      exact .write thread entry tm idle
  | flush thread =>
      simp only [State.step?, Option.ite_none_right_eq_some] at taken
      obtain ⟨idle, shape⟩ := taken
      cases shape
      exact .flush thread idle
  | advance thread =>
      exact .of_advance? taken
  | pass count =>
      cases taken
      exact .pass count

end Exhaustive

/-! ## What has been written -/

section Records

variable {Thread : Type}

/-- The record of an observation. -/
@[simp] def Obs.record? : Obs Thread → Option (LogEntry × Tm)
  | .wrote _ entry tm => some (entry, tm)
  | _ => none

/-- The records of the complete `write` calls, in order. -/
def records (observed : List (Obs Thread)) : List (LogEntry × Tm) :=
  observed.filterMap Obs.record?

@[simp] theorem records_append
    (first second : List (Obs Thread)) :
    records (first ++ second) = records first ++ records second :=
  List.filterMap_append

/-- A complete `write` call with its thread. -/
@[simp] def Obs.write? : Obs Thread → Option (Thread × LogEntry × Tm)
  | .wrote thread entry tm => some (thread, entry, tm)
  | _ => none

/-- The complete `write` calls, in order. -/
def writes
    (observed : List (Obs Thread)) :
    List (Thread × LogEntry × Tm) :=
  observed.filterMap Obs.write?

@[simp] theorem writes_append
    (first second : List (Obs Thread)) :
    writes (first ++ second) = writes first ++ writes second :=
  List.filterMap_append

/-- Without their threads the `write` calls are the records. -/
theorem map_snd_writes
    (observed : List (Obs Thread)) :
    (writes observed).map Prod.snd = records observed := by
  rw [writes, records, List.map_filterMap]
  congr 1
  funext seen
  cases seen <;> rfl

/-- Whole records, one after the other. -/
def text (written : List (LogEntry × Tm)) : String :=
  Kind.file.text written

@[simp] theorem text_append
    (earlier later : List (LogEntry × Tm)) :
    text (earlier ++ later) = text earlier ++ text later := by
  simp [text, Kind.text]

@[simp] theorem text_singleton (entry : LogEntry) (tm : Tm) :
    text [(entry, tm)] = String.join (pieces entry tm) := by
  simp [text, Kind.text, Kind.record, join_pieces]

end Records

/-! ## The mutex -/

section Invariants

variable
  {Thread : Type}
  [DecidableEq Thread]
  {allowed : State Thread → Event Thread → Prop}
  {observed emitted : List (Obs Thread)}
  {state next : State Thread}
  {event : Event Thread}
  {thread : Thread}

/-- The thread holds `mutex_`. -/
def Phase.holds : Phase → Prop
  | .inserting _ _ _ | .flushing | .flushUnlocking => True
  | _ => False

/-- `mutex_` is held by the thread inside a critical section, if any. -/
def MutexHeld (state : State Thread) : Prop :=
  ∀ thread, (state.phase thread).holds ↔ state.mutex = some thread

/-- A thread that neither acquires nor releases `mutex_` moves. -/
private theorem MutexHeld.move
    (held : MutexHeld state)
    {phase : Phase}
    (same : phase.holds ↔ (state.phase thread).holds)
    (mutex : next.mutex = state.mutex)
    (moved : next.phase = Function.update state.phase thread phase) :
    MutexHeld next := by
  rw [MutexHeld, mutex, moved]
  exact forall_update
    (fun other (phase : Phase) => phase.holds ↔ state.mutex = some other)
    (fun other _ => held other) (same.trans (held thread))

/-- A thread acquires a free `mutex_`. -/
private theorem MutexHeld.lock
    (held : MutexHeld state)
    {phase : Phase}
    (free : state.mutex = none)
    (mutex : next.mutex = some thread)
    (moved : next.phase = Function.update state.phase thread phase)
    (holds : phase.holds) :
    MutexHeld next := by
  rw [MutexHeld, mutex, moved]
  refine forall_update
    (fun other (phase : Phase) => phase.holds ↔ some thread = some other)
    ?_ (by simp [holds])
  intro other different
  rw [held other, free]
  simp [Ne.symm different]

/-- The holder releases `mutex_`. -/
private theorem MutexHeld.unlock
    (held : MutexHeld state)
    (holds : (state.phase thread).holds)
    (mutex : next.mutex = none)
    (moved : next.phase = Function.update state.phase thread .idle) :
    MutexHeld next := by
  rw [MutexHeld, mutex, moved]
  refine forall_update
    (fun other (phase : Phase) => phase.holds ↔ none = some other)
    ?_ (by simp [Phase.holds])
  intro other different
  rw [held other, (held thread).mp holds]
  simp [Ne.symm different]

/-- Every step keeps track of the holder of `mutex_`. -/
theorem MutexHeld.step
    (held : MutexHeld state)
    (step : Step state event emitted next) :
    MutexHeld next := by
  cases step with
  | write thread entry tm phase | flush thread phase
  | insert thread entry tm piece rest phase
  | flushStream thread phase =>
      exact held.move (by rw [phase]; rfl) rfl rfl
  | lock thread entry tm phase free | flushLock thread phase free =>
      exact held.lock free rfl rfl trivial
  | unlock thread entry tm phase | flushUnlock thread phase =>
      exact held.unlock (by rw [phase]; trivial) rfl rfl
  | pass =>
      exact held

/-- In every reachable state `mutex_` is held by whoever is inside. -/
theorem MutexHeld.of_reaches
    (reached : (machine Thread).ReachesBy allowed observed state) :
    MutexHeld state :=
  reached.invariant
    (fun _ state => MutexHeld state)
    (fun _ => ⟨False.elim, fun holds => by cases holds⟩)
    (fun _ held _ taken => held.step (Step.of_step? taken))

omit [DecidableEq Thread] in
/-- Two threads are not inside at the same time. -/
theorem MutexHeld.unique
    (held : MutexHeld state)
    {other : Thread}
    (holds : (state.phase thread).holds)
    (otherHolds : (state.phase other).holds) :
    thread = other := by
  have same := (held thread).mp holds
  rw [(held other).mp otherHolds] at same
  exact (Option.some.inj same).symm

/-! ## Whole records -/

/-- A thread is about to insert what is left of a record. -/
def Phase.insertion? : Phase → Option (LogEntry × Tm × List String)
  | .inserting entry tm rest => some (entry, tm, rest)
  | _ => none

/-- The stream holds whole records and the beginning of one at most. -/
structure Whole
    (observed : List (Obs Thread))
    (state : State Thread) : Prop where
  between :
    (∀ thread, (state.phase thread).insertion? = none) →
    state.stream = text (records observed)
  within :
    ∀ thread entry tm rest,
      (state.phase thread).insertion? = some (entry, tm, rest) →
      ∃ done,
        pieces entry tm = done ++ rest ∧
          state.stream = text (records observed) ++ String.join done

/-- A thread moves outside `write`, and nothing is written. -/
private theorem Whole.move
    (whole : Whole observed state)
    {phase : Phase}
    (stream : next.stream = state.stream)
    (nothing : records emitted = [])
    (moved : next.phase = Function.update state.phase thread phase)
    (before : (state.phase thread).insertion? = none)
    (after : phase.insertion? = none) :
    Whole (observed ++ emitted) next := by
  have same :
      ∀ other,
        (next.phase other).insertion? =
          (state.phase other).insertion? := by
    rw [moved]
    exact forall_update
      (fun other (phase : Phase) =>
        phase.insertion? = (state.phase other).insertion?)
      (fun _ _ => rfl) (after.trans before.symm)
  constructor
  · intro outside
    rw [records_append, nothing, List.append_nil, stream]
    exact whole.between fun other => (same other).symm.trans (outside other)
  · intro other entry tm rest inside
    rw [records_append, nothing, List.append_nil, stream]
    exact whole.within other entry tm rest ((same other).symm.trans inside)

/-- A thread outside a critical section inserts nothing. -/
private theorem insertion?_eq_none_of_outside
    {phase : Phase}
    (outside : ¬ phase.holds) :
    phase.insertion? = none := by
  cases phase with
  | inserting =>
      exact (outside trivial).elim
  | _ =>
      rfl

/-- Every step keeps the records whole. -/
theorem Whole.step
    (whole : Whole observed state)
    (held : MutexHeld state)
    (step : Step state event emitted next) :
    Whole (observed ++ emitted) next := by
  -- Nobody else is inside while one thread is.
  have alone
      {thread other : Thread}
      (holds : (state.phase thread).holds)
      (different : other ≠ thread) :
      (state.phase other).insertion? = none :=
    insertion?_eq_none_of_outside fun otherHolds =>
      different (held.unique otherHolds holds)
  cases step with
  | write thread entry tm phase | flush thread phase
  | flushLock thread phase free | flushStream thread phase
  | flushUnlock thread phase =>
      exact whole.move rfl rfl rfl (by rw [phase]; rfl) rfl
  | pass count =>
      rw [List.append_nil]
      exact ⟨whole.between, whole.within⟩
  | lock thread entry tm phase free =>
      have nobody : ∀ other, (state.phase other).insertion? = none := by
        intro other
        refine insertion?_eq_none_of_outside fun holds => ?_
        rw [held other, free] at holds
        cases holds
      rw [List.append_nil]
      constructor
      · intro outside
        have mine := outside thread
        simp [Phase.insertion?] at mine
      · intro other otherEntry otherTm rest inside
        by_cases same : other = thread
        · subst same
          simp only [State.phase_moveTo, Function.update_self,
            Phase.insertion?, Option.some.injEq, Prod.mk.injEq]
            at inside
          obtain ⟨rfl, rfl, rfl⟩ := inside
          refine ⟨[], rfl, ?_⟩
          simpa using whole.between nobody
        · simp [same, nobody other] at inside
  | insert thread entry tm piece rest phase =>
      obtain ⟨done, shape, stream⟩ :=
        whole.within thread entry tm (piece :: rest) (by rw [phase]; rfl)
      rw [List.append_nil]
      constructor
      · intro outside
        have mine := outside thread
        simp [Phase.insertion?] at mine
      · intro other otherEntry otherTm otherRest inside
        by_cases same : other = thread
        · subst same
          simp only [State.phase_moveTo, Function.update_self,
            Phase.insertion?, Option.some.injEq, Prod.mk.injEq]
            at inside
          obtain ⟨rfl, rfl, rfl⟩ := inside
          refine ⟨done ++ [piece], by simp [shape], ?_⟩
          simp [stream, String.append_assoc]
        · have nothing :=
            alone (by rw [phase]; trivial) same
          simp [same, nothing] at inside
  | unlock thread entry tm phase =>
      obtain ⟨done, shape, stream⟩ :=
        whole.within thread entry tm [] (by rw [phase]; rfl)
      rw [List.append_nil] at shape
      have written :
          state.stream =
            text (records (observed ++ [.wrote thread entry tm])) := by
        rw [stream, ← shape, records_append, text_append]
        simp [records]
      constructor
      · exact fun _ => written
      · intro other otherEntry otherTm rest inside
        by_cases same : other = thread
        · subst same
          simp [Phase.insertion?] at inside
        · have nothing :=
            alone (by rw [phase]; trivial) same
          simp [same, nothing] at inside

/-- In every reachable state the records are whole. -/
theorem Whole.of_reaches
    (reached : (machine Thread).ReachesBy allowed observed state) :
    Whole observed state :=
  reached.invariant Whole
    ⟨fun _ => rfl, fun _ _ _ _ inside => by cases inside⟩
    (fun before whole _ taken =>
      whole.step (.of_reaches before) (Step.of_step? taken))

omit [DecidableEq Thread] in
/--
The stream is at most one record ahead of the complete `write` calls, and that
record is being inserted.
-/
theorem Whole.exists_current
    (whole : Whole observed state) :
    ∃ (current : Option (LogEntry × Tm)) (done rest : List String),
      (∀ entry tm,
        current = some (entry, tm) →
        pieces entry tm = done ++ rest ∧
          ∃ thread, state.phase thread = .inserting entry tm rest) ∧
        (current = none → done = []) ∧
        state.stream = text (records observed) ++ String.join done := by
  by_cases nobody : ∀ thread, (state.phase thread).insertion? = none
  · refine ⟨none, [], [], by simp, fun _ => rfl, ?_⟩
    simpa using whole.between nobody
  · obtain ⟨thread, somebody⟩ := not_forall.mp nobody
    cases phase : state.phase thread with
    | inserting entry tm rest =>
        obtain ⟨done, shape, stream⟩ :=
          whole.within thread entry tm rest (by rw [phase]; rfl)
        refine ⟨some (entry, tm), done, rest, ?_, by simp, stream⟩
        rintro _ _ ⟨⟩
        exact ⟨shape, thread, phase⟩
    | _ =>
        exact (somebody (by rw [phase]; rfl)).elim

omit [DecidableEq Thread] in
/-- The records of complete `write` calls are in the stream. -/
private theorem Whole.text_prefix
    {early late : List (Obs Thread)}
    (whole : Whole (early ++ late) state) :
    (text (records early)).toList <+: state.stream.toList := by
  obtain ⟨_, done, _, _, _, stream⟩ := whole.exists_current
  rw [stream, records_append, text_append]
  simp

omit [DecidableEq Thread] in
/-- Records are in the file once the stream has passed on as many characters. -/
theorem Whole.text_prefix_file
    {early late : List (Obs Thread)}
    (whole : Whole (early ++ late) state)
    (inFile : (text (records early)).length ≤ state.passed) :
    (text (records early)).toList <+: state.file :=
  List.prefix_take_iff.mpr
    ⟨whole.text_prefix, by simpa only [String.length_toList] using inFile⟩

/-- The stream passes on what it has been given, and takes nothing back. -/
theorem Step.passed_le
    (enough : state.passed ≤ state.stream.length)
    (step : Step state event emitted next) :
    state.passed ≤ next.passed ∧ next.passed ≤ next.stream.length := by
  cases step with
  | insert thread entry tm piece rest phase =>
      refine ⟨Nat.le_refl _, enough.trans ?_⟩
      simp [String.length_append]
  | flushStream thread phase =>
      exact ⟨enough, Nat.le_refl _⟩
  | pass count =>
      exact ⟨Nat.le_max_left _ _,
        Nat.max_le.mpr ⟨enough, Nat.min_le_right _ _⟩⟩
  | _ =>
      exact ⟨Nat.le_refl _, enough⟩

/-- In every reachable state the file holds a part of the stream. -/
theorem passed_le_of_reaches
    (reached : (machine Thread).ReachesBy allowed observed state) :
    state.passed ≤ state.stream.length :=
  reached.invariant
    (fun _ state => state.passed ≤ state.stream.length)
    (Nat.zero_le _)
    (fun _ enough _ taken => ((Step.of_step? taken).passed_le enough).2)

/--
At every moment, whatever the buffer has passed on, the file contains a
beginning of the records of complete `write` calls, followed by a part of one
more record at most.  While nobody inserts a record, the stream contains
exactly the records of the complete `write` calls, each in one piece.
-/
theorem file_shows_whole_records
    (reached : (machine Thread).Reaches observed state) :
    ∃ current : Option (LogEntry × Tm),
      state.file <+: (text (records observed ++ current.toList)).toList ∧
        (∀ entry tm,
          current = some (entry, tm) →
          ∃ thread rest, state.phase thread = .inserting entry tm rest) ∧
        (current = none → state.stream = text (records observed)) := by
  obtain ⟨current, done, rest, isCurrent, nothing, stream⟩ :=
    (Whole.of_reaches reached).exists_current
  refine ⟨current, ?_, ?_, ?_⟩
  · refine (List.take_prefix _ _).trans ?_
    rw [stream, text_append, String.toList_append, String.toList_append,
      List.prefix_append_right_inj]
    cases current with
    | none =>
        simp [nothing rfl]
    | some record =>
        obtain ⟨entry, tm⟩ := record
        rw [Option.toList_some, text_singleton,
          (isCurrent entry tm rfl).1]
        simp
  · intro entry tm isRecord
    obtain ⟨_, thread, phase⟩ := isCurrent entry tm isRecord
    exact ⟨thread, rest, phase⟩
  · intro isNone
    simp [stream, nothing isNone]

/-- What the examples below write. -/
def greeting (message : String) : LogEntry where
  level := .info
  module := "net"
  message := message
  timestamp := 0
  ompThreadId := 0
  threadDump := ""

/-- The second record is cut in the middle of its time. -/
theorem file_shows_whole_records_of_cut_record :
    ∃ (observed : List (Obs (Fin 2))) (state : State (Fin 2)),
      (machine (Fin 2)).Reaches observed state ∧
        state.file =
          "1970-01-01 00:00:01 [INFO ] [net] [T0]  up\n1970".toList ∧
        ∃ current : Option (LogEntry × Tm),
          state.file <+:
              (text (records observed ++ current.toList)).toList ∧
            current ≠ none := by
  obtain ⟨observed, state, reached, feature⟩ :=
    (machine (Fin 2)).exists_reaches
      (List.flatten
        [[.write 0 (greeting "up") ⟨1, 0, 0, 1, 0, 70⟩,
            .write 1 (greeting "down") ⟨2, 0, 0, 1, 0, 70⟩],
          List.replicate 15 (.advance 0),
          [.advance 1, .advance 1, .pass 47]])
      (fun observed state =>
        state.file ==
            "1970-01-01 00:00:01 [INFO ] [net] [T0]  up\n1970".toList &&
          !(state.stream == text (records observed)))
      (by decide +kernel)
  simp only [Bool.and_eq_true, beq_iff_eq, Bool.not_eq_true',
    beq_eq_false_iff_ne] at feature
  obtain ⟨isCut, ahead⟩ := feature
  obtain ⟨current, shows, _, complete⟩ := file_shows_whole_records reached
  exact ⟨observed, state, reached, isCut, current, shows,
    fun isNone => ahead (complete isNone)⟩

/-! ## What a flush guarantees -/

/-- What is known of a `flush` call from the phase of its caller. -/
def FlushWatched
    (observed : List (Obs Thread))
    (passed : Nat)
    (thread : Thread) : Phase → Prop
  | .flushLocking | .flushing =>
      ∃ early late,
        observed = early ++ .flushCalled thread :: late ∧
          .flushCalled thread ∉ late
  | .flushUnlocking =>
      ∃ early late,
        observed = early ++ .flushCalled thread :: late ∧
          .flushCalled thread ∉ late ∧
          (text (records early)).length ≤ passed
  | _ => True

omit [DecidableEq Thread] in
/-- A call stays watched while its caller stays where it is. -/
private theorem FlushWatched.append
    {passed later : Nat}
    {phase : Phase}
    (watched : FlushWatched observed passed thread phase)
    (other : .flushCalled thread ∉ emitted)
    (kept :
      ∀ early late,
        observed = early ++ late →
        (text (records early)).length ≤ passed →
        (text (records early)).length ≤ later) :
    FlushWatched (observed ++ emitted) later thread phase := by
  have extend
      {early late : List (Obs Thread)}
      (shape : observed = early ++ .flushCalled thread :: late)
      (last : .flushCalled thread ∉ late) :
      observed ++ emitted =
          early ++ .flushCalled thread :: (late ++ emitted) ∧
        .flushCalled thread ∉ late ++ emitted := by
    refine ⟨by simp [shape], ?_⟩
    rw [List.mem_append, not_or]
    exact ⟨last, other⟩
  cases phase with
  | flushLocking | flushing =>
      obtain ⟨early, late, shape, last⟩ := watched
      exact ⟨early, late ++ emitted, extend shape last⟩
  | flushUnlocking =>
      obtain ⟨early, late, shape, last, inFile⟩ := watched
      obtain ⟨longer, stillLast⟩ := extend shape last
      exact ⟨early, late ++ emitted, longer, stillLast,
        kept early _ shape inFile⟩
  | _ =>
      trivial

/-- Every step keeps the `flush` calls watched. -/
private theorem Step.flushWatched
    (watched :
      ∀ thread,
        FlushWatched observed state.passed thread (state.phase thread))
    (whole : Whole observed state)
    (step : Step state event emitted next) :
    ∀ thread,
      FlushWatched (observed ++ emitted) next.passed thread
        (next.phase thread) := by
  -- A call that goes on is watched as before.
  have move
      {thread : Thread}
      {phase : Phase}
      (moved : next.phase = Function.update state.phase thread phase)
      (silent : ∀ other, other ≠ thread → .flushCalled other ∉ emitted)
      (kept :
        ∀ early late,
          observed = early ++ late →
          (text (records early)).length ≤ state.passed →
          (text (records early)).length ≤ next.passed)
      (mover :
        FlushWatched (observed ++ emitted) next.passed thread phase) :
      ∀ other,
        FlushWatched (observed ++ emitted) next.passed other
          (next.phase other) := by
    rw [moved]
    exact forall_update
      (FlushWatched (observed ++ emitted) next.passed)
      (fun other different =>
        (watched other).append (silent other different) kept) mover
  cases step with
  | write thread entry tm idle | insert thread entry tm piece rest phase
  | unlock thread entry tm phase | flushUnlock thread phase
  | lock thread entry tm phase free =>
      exact move rfl (by simp) (fun _ _ _ => id) trivial
  | flush thread idle =>
      refine move rfl ?_ (fun _ _ _ => id) ⟨observed, [], rfl, by simp⟩
      intro other different
      simpa using different
  | flushLock thread phase free =>
      have before := watched thread
      rw [phase] at before
      refine move rfl (by simp) (fun _ _ _ => id) ?_
      rw [List.append_nil]
      exact before
  | flushStream thread phase =>
      have inStream
          {early late : List (Obs Thread)}
          (shape : observed = early ++ late) :
          (text (records early)).length ≤ state.stream.length := by
        rw [shape] at whole
        simpa only [String.length_toList] using whole.text_prefix.length_le
      have before := watched thread
      rw [phase] at before
      obtain ⟨early, late, shape, last⟩ := before
      refine move rfl (by simp) (fun early late shape _ => inStream shape) ?_
      rw [List.append_nil]
      exact ⟨early, late, shape, last, inStream shape⟩
  | pass count =>
      intro thread
      exact (watched thread).append (by simp)
        fun _ _ _ inFile => inFile.trans (Nat.le_max_left _ _)

/-- In every reachable state the `flush` calls are watched. -/
theorem FlushWatched.of_reaches
    (reached : (machine Thread).ReachesBy allowed observed state)
    (thread : Thread) :
    FlushWatched observed state.passed thread (state.phase thread) :=
  reached.invariant
    (fun observed state =>
      ∀ thread,
        FlushWatched observed state.passed thread (state.phase thread))
    (by
      intro thread
      trivial)
    (fun before watched _ taken =>
      (Step.of_step? taken).flushWatched watched (.of_reaches before))
    thread

/--
When `flush` returns, the file contains the record of every `write` call that
was complete when `flush` was called.
-/
theorem flushed_records_are_in_the_file
    (reached : (machine Thread).Reaches observed state)
    (returns : state.step? event = some (next, [.flushed thread])) :
    ∃ early late : List (Obs Thread),
      observed = early ++ .flushCalled thread :: late ∧
        .flushCalled thread ∉ late ∧
        (text (records early)).toList <+: next.file := by
  have watched := FlushWatched.of_reaches reached thread
  have whole := Whole.of_reaches reached
  cases Step.of_step? returns with
  | flushUnlock mover phase =>
      rw [phase] at watched
      obtain ⟨early, late, shape, last, inFile⟩ := watched
      refine ⟨early, late, shape, last, ?_⟩
      rw [shape] at whole
      exact whole.text_prefix_file inFile

end Invariants

/-- A flush among two writes; the later one is not in the file yet. -/
theorem flushed_records_are_in_the_file_of_late_write :
    ∃ (observed : List (Obs (Fin 2))) (state next : State (Fin 2)),
      (machine (Fin 2)).Reaches observed state ∧
        state.step? (.advance 1) = some (next, [.flushed 1]) ∧
        next.file =
          "1970-01-01 00:00:01 [INFO ] [net] [T0]  up\n".toList ∧
        ∃ early late,
          observed = early ++ .flushCalled 1 :: late ∧
            (text (records early)).toList <+: next.file := by
  obtain ⟨observed, state, reached, feature⟩ :=
    (machine (Fin 2)).exists_reaches
      (List.flatten
        [[.write 0 (greeting "up") ⟨1, 0, 0, 1, 0, 70⟩],
          List.replicate 15 (.advance 0),
          [.flush 1, .write 0 (greeting "down") ⟨2, 0, 0, 1, 0, 70⟩,
            .advance 1, .advance 1]])
      (fun _ state =>
        (state.step? (.advance 1)).any fun result =>
          result.2 == [.flushed 1] &&
            result.1.file ==
              "1970-01-01 00:00:01 [INFO ] [net] [T0]  up\n".toList)
      (by decide +kernel)
  obtain ⟨⟨next, seen⟩, taken, shown⟩ := (Option.any_eq_true _ _).mp feature
  simp only [Bool.and_eq_true, beq_iff_eq] at shown
  obtain ⟨rfl, contents⟩ := shown
  obtain ⟨early, late, shape, _, inFile⟩ :=
    flushed_records_are_in_the_file reached taken
  exact ⟨observed, state, next, reached, taken, contents, early, late,
    shape, inFile⟩

end ConcLogger.Sinks.FileSink
