import Mathlib.Logic.Function.Basic
import ConcLogger.Concurrency.Machine
import ConcLogger.Sinks.Format

namespace ConcLogger.Sinks

open Concurrency

/-!
# Threads that write to sinks

Any number of threads call `write` and `flush` on any number of sinks: the
threads of the parallel loops of `dispatch`, and the threads that go through
the sinks in `flush` and `~Logger`.  Each sink has its own `mutex_`; the buffer
of `std::localtime` and `std::cout` belong to the process.

The conversion of the time takes two steps, the call that fills the buffer and
the copy.  Each insertion into `std::cout` is a step.  A file stream is used
under the mutex of its only sink, so a record goes into it in one step.
-/

/-- Where a thread is; an idle thread is outside the sinks. -/
inductive Phase (Sink : Type) where
  | idle
  /-- `write` before `std::localtime(&t)`. -/
  | converting (sink : Sink) (entry : LogEntry)
  /-- The buffer has been filled; the copy is next. -/
  | copying (sink : Sink) (entry : LogEntry)
  /-- `write` before it acquires `mutex_`, with its copy of the time. -/
  | locking (sink : Sink) (entry : LogEntry) (tm : Tm)
  /-- `mutex_` is held; the record is next. -/
  | printing (sink : Sink) (entry : LogEntry) (tm : Tm)
  /-- `StdoutSink::write` between `<< line` and `<< '\n'`. -/
  | ending (sink : Sink) (entry : LogEntry) (tm : Tm)
  /-- The record is complete; `mutex_` is still held. -/
  | unlocking (sink : Sink) (entry : LogEntry) (tm : Tm)
  /-- `flush` before it acquires `mutex_`. -/
  | flushLocking (sink : Sink)
  /-- The stream has been flushed; `mutex_` is still held. -/
  | flushUnlocking (sink : Sink)

/-- What the sinks share, what belongs to each of them, and their threads. -/
structure State (Thread Sink : Type) where
  /-- The buffer of `std::localtime`. -/
  buffer : Tm
  /-- What the sinks have put on `std::cout`. -/
  console : String
  /-- What a `FileSink` has put into its stream. -/
  file : Sink → String
  mutex : Sink → Option Thread
  phase : Thread → Phase Sink

/-- Scheduler choices. -/
inductive Event (Thread Sink : Type) where
  | write (thread : Thread) (sink : Sink) (entry : LogEntry)
  | flush (thread : Thread) (sink : Sink)
  /-- The next step of a thread inside `write` or `flush`. -/
  | advance (thread : Thread)

/-- What can be seen of a run. -/
inductive Obs (Thread Sink : Type) where
  /-- The record has been inserted, still without its line feed. -/
  | printed
      (thread : Thread)
      (sink : Sink)
      (entry : LogEntry)
      (record : String)
  /-- The line feed of the record has been inserted. -/
  | ended (thread : Thread) (sink : Sink) (record : String)
  /-- `write` is complete. -/
  | wrote (thread : Thread) (sink : Sink) (record : String)
  deriving DecidableEq

namespace State

variable {Thread Sink : Type}

/-- Nothing has been printed and no thread is inside a sink. -/
def initial : State Thread Sink where
  buffer := ⟨0, 0, 0, 0, 0, 0⟩
  console := ""
  file := fun _ => ""
  mutex := fun _ => none
  phase := fun _ => .idle

variable [DecidableEq Thread]

/-- Change the phase of one thread only. -/
def moveTo
    (state : State Thread Sink)
    (thread : Thread)
    (phase : Phase Sink) :
    State Thread Sink :=
  { state with phase := Function.update state.phase thread phase }

variable [DecidableEq Sink]

/-- Acquire the `mutex_` of a sink, if it is free. -/
def lock?
    (state : State Thread Sink)
    (thread : Thread)
    (sink : Sink)
    (phase : Phase Sink) :
    Option (State Thread Sink × List (Obs Thread Sink)) :=
  if state.mutex sink = none then
    some
      ({ state.moveTo thread phase with
          mutex := Function.update state.mutex sink (some thread) }, [])
  else
    none

/-- Release the `mutex_` of a sink and leave the member function. -/
def unlock
    (state : State Thread Sink)
    (thread : Thread)
    (sink : Sink) :
    State Thread Sink :=
  { state.moveTo thread .idle with
    mutex := Function.update state.mutex sink none }

/-- The insertion of the record, and of the line feed as well into a file. -/
def print
    (kind : Sink → Kind)
    (state : State Thread Sink)
    (thread : Thread)
    (sink : Sink)
    (entry : LogEntry)
    (tm : Tm) :
    State Thread Sink × List (Obs Thread Sink) :=
  match kind sink with
  | .stdout =>
      ({ state.moveTo thread (.ending sink entry tm) with
          console := state.console ++ stdoutRecord entry tm },
        [.printed thread sink entry (stdoutRecord entry tm)])
  | .file =>
      ({ state.moveTo thread (.unlocking sink entry tm) with
          file :=
            Function.update state.file sink
              (state.file sink ++ fileRecord entry tm ++ "\n") },
        [.printed thread sink entry (fileRecord entry tm),
          .ended thread sink (fileRecord entry tm)])

/-- The next step of a thread inside `write` or `flush`. -/
def advance?
    (kind : Sink → Kind)
    (calendar : Calendar)
    (state : State Thread Sink)
    (thread : Thread) :
    Option (State Thread Sink × List (Obs Thread Sink)) :=
  match state.phase thread with
  | .idle =>
      none
  | .converting sink entry =>
      some
        ({ state.moveTo thread (.copying sink entry) with
            buffer :=
              calendar.localtime
                (calendar.toTimeT entry.timestamp) }, [])
  | .copying sink entry =>
      some (state.moveTo thread (.locking sink entry state.buffer), [])
  | .locking sink entry tm =>
      state.lock? thread sink (.printing sink entry tm)
  | .printing sink entry tm =>
      some (state.print kind thread sink entry tm)
  | .ending sink entry tm =>
      some
        ({ state.moveTo thread (.unlocking sink entry tm) with
            console := state.console ++ "\n" },
          [.ended thread sink ((kind sink).record entry tm)])
  | .unlocking sink entry tm =>
      some
        (state.unlock thread sink,
          [.wrote thread sink ((kind sink).record entry tm)])
  | .flushLocking sink =>
      state.lock? thread sink (.flushUnlocking sink)
  | .flushUnlocking sink =>
      some (state.unlock thread sink, [])

/-- One step of the sinks and their threads. -/
def step?
    (kind : Sink → Kind)
    (calendar : Calendar)
    (state : State Thread Sink)
    (event : Event Thread Sink) :
    Option (State Thread Sink × List (Obs Thread Sink)) :=
  match event with
  | .write thread sink entry =>
      match state.phase thread with
      | .idle =>
          some (state.moveTo thread (.converting sink entry), [])
      | _ =>
          none
  | .flush thread sink =>
      match state.phase thread with
      | .idle =>
          some (state.moveTo thread (.flushLocking sink), [])
      | _ =>
          none
  | .advance thread =>
      state.advance? kind calendar thread

end State

/-- A set of sinks as a machine. -/
def machine
    (Thread Sink : Type)
    [DecidableEq Thread]
    [DecidableEq Sink]
    (kind : Sink → Kind)
    (calendar : Calendar) :
    Machine (State Thread Sink) (Event Thread Sink)
      (Obs Thread Sink) where
  init := .initial
  step? := State.step? kind calendar

section MoveTo

variable
  {Thread Sink : Type}
  [DecidableEq Thread]
  (state : State Thread Sink)
  (thread : Thread)
  (phase : Phase Sink)

@[simp] theorem State.buffer_moveTo :
    (state.moveTo thread phase).buffer = state.buffer :=
  rfl

@[simp] theorem State.console_moveTo :
    (state.moveTo thread phase).console = state.console :=
  rfl

@[simp] theorem State.mutex_moveTo :
    (state.moveTo thread phase).mutex = state.mutex :=
  rfl

@[simp] theorem State.phase_moveTo :
    (state.moveTo thread phase).phase =
      Function.update state.phase thread phase :=
  rfl

end MoveTo

/-! ## What one step can do -/

/-- The steps of threads that write to sinks, with guards and effects. -/
inductive Step
    {Thread Sink : Type}
    [DecidableEq Thread]
    [DecidableEq Sink]
    (kind : Sink → Kind)
    (calendar : Calendar)
    (state : State Thread Sink) :
    Event Thread Sink → List (Obs Thread Sink) →
      State Thread Sink → Prop where
  | write
      (thread : Thread)
      (sink : Sink)
      (entry : LogEntry)
      (idle : state.phase thread = .idle) :
      Step kind calendar state (.write thread sink entry) []
        (state.moveTo thread (.converting sink entry))
  | flush
      (thread : Thread)
      (sink : Sink)
      (idle : state.phase thread = .idle) :
      Step kind calendar state (.flush thread sink) []
        (state.moveTo thread (.flushLocking sink))
  | convert
      (thread : Thread)
      (sink : Sink)
      (entry : LogEntry)
      (phase : state.phase thread = .converting sink entry) :
      Step kind calendar state (.advance thread) []
        { state.moveTo thread (.copying sink entry) with
          buffer := calendar.ownTime entry }
  | copy
      (thread : Thread)
      (sink : Sink)
      (entry : LogEntry)
      (phase : state.phase thread = .copying sink entry) :
      Step kind calendar state (.advance thread) []
        (state.moveTo thread (.locking sink entry state.buffer))
  | lock
      (thread : Thread)
      (sink : Sink)
      (entry : LogEntry)
      (tm : Tm)
      (phase : state.phase thread = .locking sink entry tm)
      (free : state.mutex sink = none) :
      Step kind calendar state (.advance thread) []
        { state.moveTo thread (.printing sink entry tm) with
          mutex := Function.update state.mutex sink (some thread) }
  | printLine
      (thread : Thread)
      (sink : Sink)
      (entry : LogEntry)
      (tm : Tm)
      (phase : state.phase thread = .printing sink entry tm)
      (isStdout : kind sink = .stdout) :
      Step kind calendar state (.advance thread)
        [.printed thread sink entry (stdoutRecord entry tm)]
        { state.moveTo thread (.ending sink entry tm) with
          console := state.console ++ stdoutRecord entry tm }
  | printFile
      (thread : Thread)
      (sink : Sink)
      (entry : LogEntry)
      (tm : Tm)
      (phase : state.phase thread = .printing sink entry tm)
      (isFile : kind sink = .file) :
      Step kind calendar state (.advance thread)
        [.printed thread sink entry (fileRecord entry tm),
          .ended thread sink (fileRecord entry tm)]
        { state.moveTo thread (.unlocking sink entry tm) with
          file :=
            Function.update state.file sink
              (state.file sink ++ fileRecord entry tm ++ "\n") }
  | endLine
      (thread : Thread)
      (sink : Sink)
      (entry : LogEntry)
      (tm : Tm)
      (phase : state.phase thread = .ending sink entry tm) :
      Step kind calendar state (.advance thread)
        [.ended thread sink ((kind sink).record entry tm)]
        { state.moveTo thread (.unlocking sink entry tm) with
          console := state.console ++ "\n" }
  | unlock
      (thread : Thread)
      (sink : Sink)
      (entry : LogEntry)
      (tm : Tm)
      (phase : state.phase thread = .unlocking sink entry tm) :
      Step kind calendar state (.advance thread)
        [.wrote thread sink ((kind sink).record entry tm)]
        (state.unlock thread sink)
  | flushLock
      (thread : Thread)
      (sink : Sink)
      (phase : state.phase thread = .flushLocking sink)
      (free : state.mutex sink = none) :
      Step kind calendar state (.advance thread) []
        { state.moveTo thread (.flushUnlocking sink) with
          mutex := Function.update state.mutex sink (some thread) }
  | flushUnlock
      (thread : Thread)
      (sink : Sink)
      (phase : state.phase thread = .flushUnlocking sink) :
      Step kind calendar state (.advance thread) []
        (state.unlock thread sink)

section Exhaustive

variable
  {Thread Sink : Type}
  [DecidableEq Thread]
  [DecidableEq Sink]
  {kind : Sink → Kind}
  {calendar : Calendar}
  {state next : State Thread Sink}
  {emitted : List (Obs Thread Sink)}

/-- Every step inside `write` and `flush` is listed. -/
private theorem Step.of_advance?
    {thread : Thread}
    (taken :
      state.advance? kind calendar thread = some (next, emitted)) :
    Step kind calendar state (.advance thread) emitted next := by
  unfold State.advance? at taken
  cases phase : state.phase thread with
  | idle =>
      simp [phase] at taken
  | converting sink entry =>
      simp only [phase] at taken
      cases taken
      exact .convert thread sink entry phase
  | copying sink entry =>
      simp only [phase] at taken
      cases taken
      exact .copy thread sink entry phase
  | locking sink entry tm =>
      simp only [phase, State.lock?,
        Option.ite_none_right_eq_some] at taken
      obtain ⟨free, shape⟩ := taken
      cases shape
      exact .lock thread sink entry tm phase free
  | printing sink entry tm =>
      simp only [phase, State.print] at taken
      cases isKind : kind sink with
      | stdout =>
          simp only [isKind] at taken
          cases taken
          exact .printLine thread sink entry tm phase isKind
      | file =>
          simp only [isKind] at taken
          cases taken
          exact .printFile thread sink entry tm phase isKind
  | ending sink entry tm =>
      simp only [phase] at taken
      cases taken
      exact .endLine thread sink entry tm phase
  | unlocking sink entry tm =>
      simp only [phase] at taken
      cases taken
      exact .unlock thread sink entry tm phase
  | flushLocking sink =>
      simp only [phase, State.lock?,
        Option.ite_none_right_eq_some] at taken
      obtain ⟨free, shape⟩ := taken
      cases shape
      exact .flushLock thread sink phase free
  | flushUnlocking sink =>
      simp only [phase] at taken
      cases taken
      exact .flushUnlock thread sink phase

/-- The executable step function takes only the listed steps. -/
theorem Step.of_step?
    {event : Event Thread Sink}
    (taken :
      state.step? kind calendar event = some (next, emitted)) :
    Step kind calendar state event emitted next := by
  cases event with
  | write thread sink entry =>
      simp only [State.step?] at taken
      split at taken
      · rename_i idle
        cases taken
        exact .write thread sink entry idle
      · cases taken
  | flush thread sink =>
      simp only [State.step?] at taken
      split at taken
      · rename_i idle
        cases taken
        exact .flush thread sink idle
      · cases taken
  | advance thread =>
      exact .of_advance? taken

end Exhaustive

end ConcLogger.Sinks
