import ConcLogger.LogEntry

namespace ConcLogger

/-!
# The text of a record

Translation of `to_string` on levels and of what `StdoutSink` and `FileSink`
insert for one entry.  Both lay a record out in the same way after their own
rendering of the time.
-/

/-- `to_string`; names of four letters are padded. -/
def LogLevel.toString : LogLevel → String
  | .trace => "TRACE"
  | .debug => "DEBUG"
  | .info => "INFO "
  | .warn => "WARN "
  | .error => "ERROR"
  | .fatal => "FATAL"

/-- The members of `std::tm` that are printed. -/
structure Tm where
  sec : Int
  min : Int
  hour : Int
  mday : Int
  /-- Months since January. -/
  mon : Int
  /-- Years since 1900. -/
  year : Int
  deriving Repr, DecidableEq

namespace Tm

/-- A number with two digits at least. -/
def twoDigits (value : Int) : String :=
  if 0 ≤ value ∧ value < 10 then
    "0" ++ toString value
  else
    toString value

/-- The conversion specifiers that the sinks use. -/
def convert (tm : Tm) : Char → String
  | 'Y' => toString (tm.year + 1900)
  | 'm' => twoDigits (tm.mon + 1)
  | 'd' => twoDigits tm.mday
  | 'H' => twoDigits tm.hour
  | 'M' => twoDigits tm.min
  | 'S' => twoDigits tm.sec
  | specifier => specifier.toString

/-- `std::put_time` on the characters of its format. -/
def putChars (tm : Tm) : List Char → String
  | [] =>
      ""
  | '%' :: specifier :: rest =>
      tm.convert specifier ++ putChars tm rest
  | character :: rest =>
      character.toString ++ putChars tm rest

/-- `std::put_time`. -/
def putTime (tm : Tm) (format : String) : String :=
  tm.putChars format.toList

end Tm

/--
What the standard library knows about time.  Both answers depend on the
platform, the second one on the time zone as well.
-/
structure Calendar where
  /-- `std::chrono::system_clock::to_time_t`. -/
  toTimeT : Int → Int
  /-- What `std::localtime` fills its buffer with. -/
  localtime : Int → Tm

/-- The local time of an entry's own timestamp. -/
def Calendar.ownTime (calendar : Calendar) (entry : LogEntry) : Tm :=
  calendar.localtime (calendar.toTimeT entry.timestamp)

/-- A calendar with a clock that counts nanoseconds and no offset from UTC. -/
def Calendar.utc : Calendar where
  toTimeT ticks :=
    ticks.tdiv 1000000000
  localtime time :=
    -- The date, counted in eras of 400 years that begin in March.
    let shifted := time / 86400 + 719468
    let era := shifted / 146097
    let dayOfEra := shifted % 146097
    let yearOfEra :=
      (dayOfEra - dayOfEra / 1460 + dayOfEra / 36524 -
        dayOfEra / 146096) / 365
    let dayOfYear :=
      dayOfEra - (365 * yearOfEra + yearOfEra / 4 - yearOfEra / 100)
    let march := (5 * dayOfYear + 2) / 153
    let mon := if march < 10 then march + 2 else march - 10
    {
      sec := time % 60
      min := time / 60 % 60
      hour := time / 3600 % 24
      mday := dayOfYear - (153 * march + 2) / 5 + 1
      mon := mon
      year :=
        yearOfEra + era * 400 + (if mon ≤ 1 then 1 else 0) - 1900
    }

/-- What a record contains after the time. -/
def LogEntry.fields (entry : LogEntry) : String :=
  " [" ++ entry.level.toString ++ "]" ++
    " [" ++ entry.module ++ "]" ++
    " [T" ++ toString entry.ompThreadId ++ "]" ++
    "  " ++ entry.message ++
    (if entry.threadDump.isEmpty then "" else entry.threadDump)

namespace Sinks

/-- The format of the time in the records of a `StdoutSink`. -/
def stdoutTimeFormat : String :=
  "%H:%M:%S"

/-- The format of the time in the records of a `FileSink`. -/
def fileTimeFormat : String :=
  "%Y-%m-%d %H:%M:%S"

/-- `StdoutSink::format` once it has its copy of the time. -/
def stdoutRecord (entry : LogEntry) (tm : Tm) : String :=
  tm.putTime stdoutTimeFormat ++ entry.fields

/-- What `FileSink::write` inserts before the line feed. -/
def fileRecord (entry : LogEntry) (tm : Tm) : String :=
  tm.putTime fileTimeFormat ++ entry.fields

/-- The two classes of sinks. -/
inductive Kind where
  | file
  | stdout
  deriving Repr, DecidableEq

/-- How a sink prints the time. -/
def Kind.timeFormat : Kind → String
  | .file => fileTimeFormat
  | .stdout => stdoutTimeFormat

/-- The record that a sink prints, without the line feed. -/
def Kind.record : Kind → LogEntry → Tm → String
  | .file => fileRecord
  | .stdout => stdoutRecord

/-- Records with their line feeds, one after the other. -/
def Kind.text (kind : Kind) (records : List (LogEntry × Tm)) : String :=
  String.join (records.map fun record =>
    kind.record record.1 record.2 ++ "\n")

/-- A record shows the rendering of the time and nothing else of it. -/
theorem Kind.record_inj
    (kind : Kind)
    (entry : LogEntry)
    {first second : Tm} :
    kind.record entry first = kind.record entry second ↔
      first.putTime kind.timeFormat =
        second.putTime kind.timeFormat := by
  cases kind with
  | file | stdout =>
      exact String.append_left_inj entry.fields

/-- The last second of a leap day. -/
example :
    fileRecord
        { level := .info
          module := "net"
          message := "up"
          timestamp := 951868799000000000
          ompThreadId := 0
          threadDump := "" }
        (Calendar.utc.localtime (Calendar.utc.toTimeT 951868799000000000)) =
      "2000-02-29 23:59:59 [INFO ] [net] [T0]  up" := by
  decide +kernel

end Sinks

end ConcLogger
