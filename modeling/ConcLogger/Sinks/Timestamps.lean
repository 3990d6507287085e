import ConcLogger.Concurrency.Threads
import ConcLogger.Sinks.Threads

namespace ConcLogger.Sinks

open Concurrency

/-!
# Whose time a record shows

`std::localtime` returns a pointer to one buffer of the process, and both
sinks copy from it in a later step, before they lock anything.  What another
`write` puts into the buffer in between is what the record will show, so the
two entries have to look the same in the format of that sink.
-/

variable {Thread Sink : Type}

/-- The entry whose time `std::localtime` is about to convert. -/
def Phase.converting? : Phase Sink → Option LogEntry
  | .converting _ entry => some entry
  | _ => none

/-- The sink and the entry whose time lies in the buffer of `std::localtime`. -/
def Phase.copying? : Phase Sink → Option (Sink × LogEntry)
  | .copying sink entry => some (sink, entry)
  | _ => none

/-- In the records of a sink, a time cannot be told from that of the entry. -/
def ShowsOwnTime
    (kind : Sink → Kind)
    (calendar : Calendar)
    (sink : Sink)
    (entry : LogEntry)
    (tm : Tm) : Prop :=
  tm.putTime (kind sink).timeFormat =
    (calendar.ownTime entry).putTime (kind sink).timeFormat

/-- Every record shows the local time of its entry's own timestamp. -/
def OwnTimesPrinted
    (kind : Sink → Kind)
    (calendar : Calendar)
    (observed : List (Obs Thread Sink)) : Prop :=
  ∀ thread sink entry record,
    .printed thread sink entry record ∈ observed →
    record = (kind sink).record entry (calendar.ownTime entry)

/--
No time is converted while another `write` still has to copy its own, unless
the sink of the latter prints both alike.
-/
def TimesApart
    (kind : Sink → Kind)
    (calendar : Calendar)
    (state : State Thread Sink) :
    Event Thread Sink → Prop
  | .advance thread =>
      ∀ entry ∈ (state.phase thread).converting?,
        ∀ other, ∀ waiting ∈ (state.phase other).copying?,
          (calendar.ownTime entry).putTime (kind waiting.1).timeFormat =
            (calendar.ownTime waiting.2).putTime
              (kind waiting.1).timeFormat
  | _ => True

instance decidableTimesApart
    [Fintype Thread]
    (kind : Sink → Kind)
    (calendar : Calendar)
    (state : State Thread Sink) :
    ∀ event, Decidable (TimesApart kind calendar state event)
  | .advance thread =>
      inferInstanceAs
        (Decidable
          (∀ entry ∈ (state.phase thread).converting?,
            ∀ other, ∀ waiting ∈ (state.phase other).copying?,
              (calendar.ownTime entry).putTime
                  (kind waiting.1).timeFormat =
                (calendar.ownTime waiting.2).putTime
                  (kind waiting.1).timeFormat))
  | .write _ _ _ | .flush _ _ =>
      .isTrue trivial

/-! ## The time that a thread has in hand -/

/-- Whatever time a thread has converted shows its own entry's time. -/
def Phase.OwnTime
    (kind : Sink → Kind)
    (calendar : Calendar)
    (buffer : Tm) : Phase Sink → Prop
  | .copying sink entry => ShowsOwnTime kind calendar sink entry buffer
  | .locking sink entry tm | .printing sink entry tm
  | .ending sink entry tm | .unlocking sink entry tm =>
      ShowsOwnTime kind calendar sink entry tm
  | _ => True

/-- Every thread has its own entry's time in hand. -/
def OwnTimes
    (kind : Sink → Kind)
    (calendar : Calendar)
    (state : State Thread Sink) : Prop :=
  ∀ thread, (state.phase thread).OwnTime kind calendar state.buffer

section Steps

variable
  [DecidableEq Thread]
  {kind : Sink → Kind}
  {calendar : Calendar}
  {state next : State Thread Sink}
  {thread : Thread}

/-- A thread moves on with the time that it has in hand. -/
private theorem OwnTimes.move
    {phase : Phase Sink}
    (own : OwnTimes kind calendar state)
    (moved : next.phase = Function.update state.phase thread phase)
    (buffer : next.buffer = state.buffer)
    (keeps :
      (state.phase thread).OwnTime kind calendar state.buffer →
      phase.OwnTime kind calendar state.buffer) :
    OwnTimes kind calendar next := by
  rw [OwnTimes, moved, buffer]
  exact forall_update
    (fun _ (phase : Phase Sink) =>
      phase.OwnTime kind calendar state.buffer)
    (fun other _ => own other) (keeps (own thread))

/-- A conversion leaves alone who has copied, and who waits sees no change. -/
private theorem OwnTimes.convert
    (own : OwnTimes kind calendar state)
    {sink : Sink}
    {entry : LogEntry}
    (phase : state.phase thread = .converting sink entry)
    (apart : TimesApart kind calendar state (.advance thread)) :
    OwnTimes kind calendar
      { state.moveTo thread (.copying sink entry) with
        buffer := calendar.ownTime entry } := by
  refine forall_update
    (fun _ (phase : Phase Sink) =>
      phase.OwnTime kind calendar (calendar.ownTime entry))
    ?_ rfl
  intro other _
  have before := own other
  cases otherPhase : state.phase other with
  | copying waitingSink waiting =>
      exact apart entry (by simp [phase, Phase.converting?]) other
        (waitingSink, waiting) (by simp [otherPhase, Phase.copying?])
  | locking | printing | ending | unlocking =>
      rw [otherPhase] at before
      exact before
  | idle | converting | flushLocking | flushUnlocking =>
      trivial

variable
  [DecidableEq Sink]
  {event : Event Thread Sink}
  {observed emitted : List (Obs Thread Sink)}

/-- Steps that keep the times apart leave everybody with the own time. -/
theorem OwnTimes.step
    (own : OwnTimes kind calendar state)
    (apart : TimesApart kind calendar state event)
    (step : Step kind calendar state event emitted next) :
    OwnTimes kind calendar next := by
  cases step with
  | convert thread sink entry phase =>
      exact own.convert phase apart
  | copy thread sink entry phase =>
      refine own.move rfl rfl ?_
      rw [phase]
      exact id
  | lock thread sink entry tm phase
  | printLine thread sink entry tm phase
  | printFile thread sink entry tm phase
  | endLine thread sink entry tm phase =>
      refine own.move rfl rfl ?_
      rw [phase]
      exact id
  | write | flush | unlock | flushLock | flushUnlock =>
      exact own.move rfl rfl fun _ => trivial

/-- In every run that keeps the times apart each thread has its own time. -/
theorem OwnTimes.of_reaches
    (reached :
      (machine Thread Sink kind calendar).ReachesBy
        (TimesApart kind calendar) observed state) :
    OwnTimes kind calendar state :=
  reached.invariant
    (fun _ state => OwnTimes kind calendar state)
    (by
      intro thread
      trivial)
    (fun _ own apart taken => own.step apart (Step.of_step? taken))

/-- A step prints a record with the time that its thread has in hand. -/
theorem Step.printed_eq
    (step : Step kind calendar state event emitted next)
    {sink : Sink}
    {entry : LogEntry}
    {record : String}
    (printed : .printed thread sink entry record ∈ emitted) :
    ∃ tm,
      state.phase thread = .printing sink entry tm ∧
        record = (kind sink).record entry tm := by
  cases step with
  | printLine mover target logged tm phase isStdout =>
      simp only [List.mem_singleton, Obs.printed.injEq] at printed
      obtain ⟨rfl, rfl, rfl, rfl⟩ := printed
      exact ⟨tm, phase, by rw [isStdout]; rfl⟩
  | printFile mover target logged tm phase isFile =>
      simp only [List.mem_cons, Obs.printed.injEq, reduceCtorEq,
        List.not_mem_nil, or_false] at printed
      obtain ⟨rfl, rfl, rfl, rfl⟩ := printed
      exact ⟨tm, phase, by rw [isFile]; rfl⟩
  | _ =>
      simp at printed

/-- A step with the own times in hand prints own times. -/
theorem OwnTimesPrinted.step
    (printed : OwnTimesPrinted kind calendar observed)
    (own : OwnTimes kind calendar state)
    (step : Step kind calendar state event emitted next) :
    OwnTimesPrinted kind calendar (observed ++ emitted) := by
  intro thread sink entry record isPrinted
  rcases List.mem_append.mp isPrinted with earlier | now
  · exact printed thread sink entry record earlier
  · obtain ⟨tm, phase, rfl⟩ := step.printed_eq now
    have inHand := own thread
    rw [phase] at inHand
    exact ((kind sink).record_inj entry).mpr inHand

/-! ## Which overlaps matter -/

/-- A foreign time in the buffer is printed by whoever copies it. -/
theorem foreign_time_is_printed
    {sink : Sink}
    {entry : LogEntry}
    (waiting : state.phase thread = .copying sink entry)
    (foreign : ¬ ShowsOwnTime kind calendar sink entry state.buffer)
    (free : state.mutex sink = none) :
    ∃ final emitted record,
      (machine Thread Sink kind calendar).run? state
          [.advance thread, .advance thread, .advance thread] =
          some (final, emitted) ∧
        .printed thread sink entry record ∈ emitted ∧
        record ≠ (kind sink).record entry (calendar.ownTime entry) := by
  have different :
      (kind sink).record entry state.buffer ≠
        (kind sink).record entry (calendar.ownTime entry) :=
    fun same => foreign (((kind sink).record_inj entry).mp same)
  have executed :
      ∃ rest,
        ((machine Thread Sink kind calendar).run? state
            [.advance thread, .advance thread, .advance thread]).map
            Prod.snd =
          some
            (.printed thread sink entry
              ((kind sink).record entry state.buffer) :: rest) := by
    cases isKind : kind sink <;>
      simp [Machine.run?, machine, State.step?, State.advance?, waiting,
        State.lock?, free, State.print, isKind, Kind.record]
  obtain ⟨rest, executed⟩ := executed
  obtain ⟨⟨final, emitted⟩, ran, rfl⟩ :=
    Option.map_eq_some_iff.mp executed
  exact ⟨final, _, _, ran, by simp, different⟩

/-- The entry whose time a thread has not copied yet. -/
def Phase.uncopied? : Phase Sink → Option LogEntry
  | .converting _ entry | .copying _ entry => some entry
  | _ => none

/-- Every `write` is given an entry as old as those whose time is converted. -/
def SameTimestamp
    (state : State Thread Sink) :
    Event Thread Sink → Prop
  | .write _ _ entry =>
      ∀ other waiting,
        (state.phase other).uncopied? = some waiting →
        waiting.timestamp = entry.timestamp
  | _ => True

/-- The times that are being converted are all the same. -/
def Simultaneous (state : State Thread Sink) : Prop :=
  ∀ first second firstEntry secondEntry,
    (state.phase first).uncopied? = some firstEntry →
    (state.phase second).uncopied? = some secondEntry →
    firstEntry.timestamp = secondEntry.timestamp

omit [DecidableEq Sink] in
/-- A thread that begins no conversion. -/
private theorem Simultaneous.move
    {phase : Phase Sink}
    (simultaneous : Simultaneous state)
    (moved : next.phase = Function.update state.phase thread phase)
    (continues :
      ∀ entry,
        phase.uncopied? = some entry →
        (state.phase thread).uncopied? = some entry) :
    Simultaneous next := by
  have before :
      ∀ other entry,
        (next.phase other).uncopied? = some entry →
        (state.phase other).uncopied? = some entry := by
    rw [moved]
    exact forall_update
      (fun other (phase : Phase Sink) =>
        ∀ entry,
          phase.uncopied? = some entry →
          (state.phase other).uncopied? = some entry)
      (fun _ _ _ => id) continues
  intro first second firstEntry secondEntry firstUncopied secondUncopied
  exact simultaneous first second firstEntry secondEntry
    (before first firstEntry firstUncopied)
    (before second secondEntry secondUncopied)

omit [DecidableEq Sink] in
/-- A thread begins with an entry as old as those being converted. -/
private theorem Simultaneous.begin
    {sink : Sink}
    {entry : LogEntry}
    (same : SameTimestamp state (.write thread sink entry)) :
    Simultaneous (state.moveTo thread (.converting sink entry)) := by
  have asOld :
      ∀ other waiting,
        ((state.moveTo thread (.converting sink entry)).phase
            other).uncopied? = some waiting →
        waiting.timestamp = entry.timestamp := by
    refine forall_update
      (fun _ (phase : Phase Sink) =>
        ∀ waiting,
          phase.uncopied? = some waiting →
          waiting.timestamp = entry.timestamp)
      (fun other _ => same other) ?_
    intro waiting isOwn
    cases isOwn
    rfl
  intro first second firstEntry secondEntry firstUncopied secondUncopied
  rw [asOld first firstEntry firstUncopied,
    asOld second secondEntry secondUncopied]

/-- Steps with entries of the same age keep the conversions simultaneous. -/
theorem Simultaneous.step
    (simultaneous : Simultaneous state)
    (same : SameTimestamp state event)
    (step : Step kind calendar state event emitted next) :
    Simultaneous next := by
  cases step with
  | write thread sink entry =>
      exact .begin same
  | convert thread sink entry phase =>
      refine simultaneous.move rfl ?_
      rw [phase]
      exact fun _ => id
  | flush | copy | lock | printLine | printFile | endLine | unlock
  | flushLock | flushUnlock =>
      exact simultaneous.move rfl (by simp [Phase.uncopied?])

omit [DecidableEq Thread] [DecidableEq Sink] in
/-- Simultaneous conversions fill the buffer with the same time. -/
theorem Simultaneous.timesApart
    (simultaneous : Simultaneous state)
    (event : Event Thread Sink) :
    TimesApart kind calendar state event := by
  cases event with
  | advance thread =>
      rintro entry converting other ⟨sink, waiting⟩ copying
      have first : (state.phase thread).uncopied? = some entry := by
        cases phase : state.phase thread <;>
          simp_all [Phase.converting?, Phase.uncopied?]
      have second : (state.phase other).uncopied? = some waiting := by
        cases phase : state.phase other <;>
          simp_all [Phase.copying?, Phase.uncopied?]
      have same :=
        simultaneous thread other entry waiting first second
      simp only [Calendar.ownTime, same]
  | write | flush =>
      trivial

/--
Within one `dispatch` all sinks convert the same timestamp: if no two entries
of different age are converted at a time, every record shows its own time.
-/
theorem ownTimesPrinted_of_sameTimestamp
    (reached :
      (machine Thread Sink kind calendar).ReachesBy SameTimestamp
        observed state) :
    OwnTimesPrinted kind calendar observed := by
  have apart :
      (machine Thread Sink kind calendar).ReachesBy
        (TimesApart kind calendar) observed state := by
    refine reached.restrict ?_
    intro observed emitted state next event before _ _
    have simultaneous : Simultaneous state :=
      before.invariant (fun _ state => Simultaneous state)
        (by
          intro first second firstEntry secondEntry uncopied
          cases uncopied)
        (fun _ simultaneous same taken =>
          simultaneous.step same (Step.of_step? taken))
    exact simultaneous.timesApart event
  exact apart.invariant
    (fun observed _ => OwnTimesPrinted kind calendar observed)
    (by
      intro thread sink entry record printed
      cases printed)
    (fun before printed _ taken =>
      printed.step (OwnTimes.of_reaches before) (Step.of_step? taken))

/--
As long as no time is converted between another conversion and its copy,
unless both look the same where the latter is printed, every record shows the
local time of its own entry.
-/
theorem records_show_their_own_time
    (reached :
      (machine Thread Sink kind calendar).ReachesBy
        (TimesApart kind calendar) observed state) :
    OwnTimesPrinted kind calendar observed :=
  reached.invariant
    (fun observed _ => OwnTimesPrinted kind calendar observed)
    (by
      intro thread sink entry record printed
      cases printed)
    (fun before printed _ taken =>
      printed.step (OwnTimes.of_reaches before) (Step.of_step? taken))

end Steps

/-- An entry with a timestamp in seconds after the epoch. -/
private def entryAt (seconds : Int) : LogEntry where
  level := .info
  module := "net"
  message := "up"
  timestamp := seconds * 1000000000
  ompThreadId := 0
  threadDump := ""

/--
Two threads log in synchronous mode, one of them an hour after the other: the
earlier entry is printed with the time of the later one.
-/
theorem overlapping_writes_print_a_foreign_time :
    ∃ (observed : List (Obs (Fin 2) (Fin 1)))
      (state : State (Fin 2) (Fin 1)),
      (machine (Fin 2) (Fin 1) (fun _ => .file)
          Calendar.utc).Reaches observed state ∧
        .printed 0 0 (entryAt 0)
            "1970-01-01 01:00:00 [INFO ] [net] [T0]  up" ∈ observed ∧
        ¬ OwnTimesPrinted (fun _ => .file) Calendar.utc observed := by
  obtain ⟨observed, state, reached, feature⟩ :=
    (machine (Fin 2) (Fin 1) (fun _ => .file)
      Calendar.utc).exists_reaches
      [.write 0 0 (entryAt 0), .write 1 0 (entryAt 3600),
        .advance 0, .advance 1, .advance 0, .advance 0, .advance 0]
      (fun observed _ =>
        decide
          (.printed 0 0 (entryAt 0)
            "1970-01-01 01:00:00 [INFO ] [net] [T0]  up" ∈ observed))
      (by decide +kernel)
  have printed := of_decide_eq_true feature
  refine ⟨observed, state, reached, printed, ?_⟩
  intro own
  have record := own 0 0 (entryAt 0) _ printed
  revert record
  decide +kernel

/-- The same two calls when the second converts after the first has copied. -/
theorem records_show_their_own_time_of_two_writes :
    ∃ (observed : List (Obs (Fin 2) (Fin 1)))
      (state : State (Fin 2) (Fin 1)),
      (machine (Fin 2) (Fin 1) (fun _ => .file)
          Calendar.utc).ReachesBy
          (TimesApart (fun _ => .file) Calendar.utc) observed state ∧
        observed ≠ [] ∧
        OwnTimesPrinted (fun _ => .file) Calendar.utc observed := by
  obtain ⟨observed, state, reached, feature⟩ :=
    (machine (Fin 2) (Fin 1) (fun _ => .file)
      Calendar.utc).exists_reachesBy
      (TimesApart (fun _ => .file) Calendar.utc)
      [.write 0 0 (entryAt 0), .write 1 0 (entryAt 3600),
        .advance 0, .advance 0, .advance 1, .advance 0, .advance 0,
        .advance 1]
      (fun observed _ => !observed.isEmpty)
      (by decide +kernel)
  refine ⟨observed, state, reached, ?_,
    records_show_their_own_time reached⟩
  rintro rfl
  cases feature

end ConcLogger.Sinks
