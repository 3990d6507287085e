import ConcLogger.Sinks.Files
import ConcLogger.Text.Delimited

namespace ConcLogger.Sinks

/-!
# What the text of records tells

A record has no length in front and no escapes.  It can still be read back if
the module name contains no `]` and neither the module nor the message
contains a line feed: the time, the level and the thread never do, and the
thread dump begins with a line feed and blanks.
-/

/-- What a record shows of an entry and its time. -/
structure Shown where
  time : String
  level : LogLevel
  module : String
  ompThreadId : Int
  message : String
  threadDump : String
  deriving DecidableEq

/-- What a sink shows of an entry. -/
def Kind.shown (kind : Kind) (record : LogEntry × Tm) : Shown where
  time := record.2.putTime kind.timeFormat
  level := record.1.level
  module := record.1.module
  ompThreadId := record.1.ompThreadId
  message := record.1.message
  threadDump := record.1.threadDump

/-- The text is one more line, and it begins with a blank. -/
def Continues (text : String) : Prop :=
  ∃ more, text.toList = '\n' :: ' ' :: more ∧ '\n' ∉ more

/-- The text of an entry can be taken apart. -/
structure Readable (entry : LogEntry) : Prop where
  module : ']' ∉ entry.module.toList ∧ '\n' ∉ entry.module.toList
  message : '\n' ∉ entry.message.toList
  threadDump : entry.threadDump.toList = [] ∨ Continues entry.threadDump

/-! ## Characters -/

/-- What the rendering of a number consists of. -/
def Numeric (symbol : Char) : Prop :=
  symbol.isDigit = true ∨ symbol = '-'

/-- A number is rendered by digits and perhaps a sign. -/
private theorem numeric_of_mem_toString
    (value : Int)
    {symbol : Char}
    (inside : symbol ∈ (toString value).toList) :
    Numeric symbol := by
  have digit
      {number : Nat}
      (among : symbol ∈ number.repr.toList) :
      symbol.isDigit = true := by
    rw [Nat.toList_repr] at among
    exact Nat.isDigit_of_mem_toDigits (by decide) (by decide) among
  rw [Int.toString_eq_repr, Int.repr_eq_if] at inside
  split at inside
  · exact Or.inl (digit inside)
  · rw [String.toList_append, List.mem_append] at inside
    rcases inside with sign | number
    · exact Or.inr (by simpa using sign)
    · exact Or.inl (digit number)

/-- The rendering of a number stays on its line. -/
private theorem newline_absent (value : Int) :
    '\n' ∉ (toString value).toList := by
  intro inside
  rcases numeric_of_mem_toString value inside with digit | sign
  · exact absurd digit (by decide)
  · exact absurd sign (by decide)

/-- The rendering of a number begins with one of its characters. -/
private theorem exists_cons_toString (value : Int) :
    ∃ symbol rest,
      (toString value).toList = symbol :: rest ∧ Numeric symbol := by
  cases shape : (toString value).toList with
  | nil =>
      rw [Int.toString_eq_repr, Int.repr_eq_if] at shape
      split at shape <;>
        simp [Nat.toList_repr, Nat.toDigits_ne_nil] at shape
  | cons symbol rest =>
      exact ⟨symbol, rest, rfl,
        numeric_of_mem_toString value
          (by rw [shape]; exact List.mem_cons_self)⟩

/-- Different numbers of threads are rendered differently. -/
private theorem toString_injective
    {first second : Int}
    (same : (toString first).toList = (toString second).toList) :
    first = second := by
  have natural
      {number other : Nat}
      (sameDigits : number.repr.toList = other.repr.toList) :
      number = other := by
    rw [Nat.toList_repr, Nat.toList_repr] at sameDigits
    rw [← Nat.ofDigitChars_ten_toDigits (n := number), sameDigits,
      Nat.ofDigitChars_ten_toDigits]
  -- A sign is not a digit.
  have signed
      {number other : Nat}
      (mixed : number.repr.toList = '-' :: other.repr.toList) :
      False := by
    have isDigit : '-'.isDigit = true := by
      apply Nat.isDigit_of_mem_toDigits (b := 10) (n := number)
        (by decide) (by decide)
      rw [← Nat.toList_repr, mixed]
      exact List.mem_cons_self
    exact absurd isDigit (by decide)
  simp only [Int.toString_eq_repr, Int.repr_eq_if] at same
  split at same <;> split at same
  · have sameNumber := natural same
    omega
  · exact (signed (by simpa using same)).elim
  · exact (signed (by simpa using same.symm)).elim
  · have sameNumber := natural (by simpa using same)
    omega

/-- Numbers with two digits are numbers. -/
private theorem numeric_of_mem_twoDigits
    (value : Int)
    {symbol : Char}
    (inside : symbol ∈ (Tm.twoDigits value).toList) :
    Numeric symbol := by
  unfold Tm.twoDigits at inside
  split at inside
  · rw [String.toList_append, List.mem_append] at inside
    rcases inside with zero | number
    · have isZero : symbol = '0' := by
        simpa using zero
      exact Or.inl (by rw [isZero]; decide)
    · exact numeric_of_mem_toString value number
  · exact numeric_of_mem_toString value inside

/-- A number with two digits begins with a character of a number. -/
private theorem exists_cons_twoDigits (value : Int) :
    ∃ symbol rest,
      (Tm.twoDigits value).toList = symbol :: rest ∧ Numeric symbol := by
  unfold Tm.twoDigits
  split
  · refine ⟨'0', (toString value).toList, ?_, Or.inl (by decide)⟩
    rw [String.toList_append]
    rfl
  · exact exists_cons_toString value

/-- A conversion gives a number or shows its specifier. -/
private theorem mem_convert
    (tm : Tm)
    (specifier : Char)
    {symbol : Char}
    (inside : symbol ∈ (tm.convert specifier).toList) :
    Numeric symbol ∨ symbol = specifier := by
  unfold Tm.convert at inside
  split at inside
  · exact Or.inl (numeric_of_mem_toString _ inside)
  · exact Or.inl (numeric_of_mem_twoDigits _ inside)
  · exact Or.inl (numeric_of_mem_twoDigits _ inside)
  · exact Or.inl (numeric_of_mem_twoDigits _ inside)
  · exact Or.inl (numeric_of_mem_twoDigits _ inside)
  · exact Or.inl (numeric_of_mem_twoDigits _ inside)
  · exact Or.inr (by simpa using inside)

/-- `std::put_time` shows numbers and characters of its format. -/
private theorem mem_putChars
    (tm : Tm)
    (format : List Char)
    {symbol : Char}
    (inside : symbol ∈ (tm.putChars format).toList) :
    Numeric symbol ∨ symbol ∈ format := by
  fun_induction Tm.putChars tm format with
  | case1 =>
      simp at inside
  | case2 specifier rest inductionHypothesis =>
      rw [String.toList_append, List.mem_append] at inside
      rcases inside with converted | later
      · refine (mem_convert tm specifier converted).imp_right ?_
        rintro rfl
        simp
      · exact (inductionHypothesis later).imp_right fun among => by
          simp [among]
  | case3 character rest _ inductionHypothesis =>
      rw [String.toList_append, List.mem_append] at inside
      rcases inside with first | later
      · have isFirst : symbol = character := by
          simpa using first
        exact Or.inr (by simp [isFirst])
      · exact (inductionHypothesis later).imp_right
          (List.mem_cons_of_mem _)

/-- The rendering of the time contains neither brackets nor line feeds. -/
private theorem time_absent
    (kind : Kind)
    (tm : Tm)
    {symbol : Char}
    (isSpecial : symbol = '[' ∨ symbol = '\n') :
    symbol ∉ (tm.putTime kind.timeFormat).toList := by
  intro inside
  rcases mem_putChars tm _ inside with (digit | sign) | among
  · rcases isSpecial with rfl | rfl <;> exact absurd digit (by decide)
  · rcases isSpecial with rfl | rfl <;> exact absurd sign (by decide)
  · rcases isSpecial with rfl | rfl <;>
      cases kind <;>
      exact absurd among (by decide)

/-- The rendering of the time does not begin with a blank. -/
private theorem exists_cons_time (kind : Kind) (tm : Tm) :
    ∃ symbol rest,
      (tm.putTime kind.timeFormat).toList = symbol :: rest ∧
        symbol ≠ ' ' := by
  have notBlank
      {symbol : Char}
      (numeric : Numeric symbol) :
      symbol ≠ ' ' := by
    rintro rfl
    rcases numeric with digit | sign
    · exact absurd digit (by decide)
    · exact absurd sign (by decide)
  cases kind with
  | file =>
      obtain ⟨symbol, rest, shape, numeric⟩ :=
        exists_cons_toString (tm.year + 1900)
      obtain ⟨later, begins⟩ :
          ∃ later,
            tm.putTime Kind.file.timeFormat =
              toString (tm.year + 1900) ++ later :=
        ⟨_, rfl⟩
      refine ⟨symbol, rest ++ later.toList, ?_, notBlank numeric⟩
      rw [begins, String.toList_append, shape, List.cons_append]
  | stdout =>
      obtain ⟨symbol, rest, shape, numeric⟩ :=
        exists_cons_twoDigits tm.hour
      obtain ⟨later, begins⟩ :
          ∃ later,
            tm.putTime Kind.stdout.timeFormat =
              Tm.twoDigits tm.hour ++ later :=
        ⟨_, rfl⟩
      refine ⟨symbol, rest ++ later.toList, ?_, notBlank numeric⟩
      rw [begins, String.toList_append, shape, List.cons_append]

/-- Levels are named differently. -/
private theorem toString_level_injective
    {first second : LogLevel}
    (same : first.toString.toList = second.toString.toList) :
    first = second := by
  cases first <;> cases second <;>
    first
    | rfl
    | exact absurd same (by decide)

/-! ## One record -/

namespace Shown

/-- A record up to the thread dump. -/
def line (shown : Shown) : List Char :=
  (shown.time.toList ++ [' ']) ++ '[' ::
    (shown.level.toString.toList ++ ']' :: ' ' :: '[' ::
      (shown.module.toList ++ ']' :: ' ' :: '[' :: 'T' ::
        ((toString shown.ompThreadId).toList ++ ']' :: ' ' :: ' ' ::
          shown.message.toList)))

/-- A record as a line that its thread dump continues. -/
def entry (shown : Shown) : Delimited.Entry Char where
  line := shown.line
  continuation :=
    match shown.threadDump.toList with
    | _ :: _ :: more => some more
    | _ => none

/-- A line tells everything that it shows. -/
theorem fields_of_line
    (first second : Shown)
    (time : '[' ∉ first.time.toList)
    (timeToo : '[' ∉ second.time.toList)
    (module : ']' ∉ first.module.toList)
    (moduleToo : ']' ∉ second.module.toList)
    (same : first.line = second.line) :
    first.time = second.time ∧
      first.level = second.level ∧
      first.module = second.module ∧
      first.ompThreadId = second.ompThreadId ∧
      first.message = second.message := by
  have levels (level : LogLevel) : ']' ∉ level.toString.toList := by
    cases level <;> decide
  have numbers (value : Int) : ']' ∉ (toString value).toList := by
    intro inside
    rcases numeric_of_mem_toString value inside with digit | sign
    · exact absurd digit (by decide)
    · exact absurd sign (by decide)
  obtain ⟨sameTime, afterTime⟩ :=
    Delimited.cut (by simpa using time) (by simpa using timeToo) same
  obtain ⟨sameLevel, afterLevel⟩ :=
    Delimited.cut (levels _) (levels _) afterTime
  simp only [List.cons.injEq, true_and] at afterLevel
  obtain ⟨sameModule, afterModule⟩ :=
    Delimited.cut module moduleToo afterLevel
  simp only [List.cons.injEq, true_and] at afterModule
  obtain ⟨sameThread, afterThread⟩ :=
    Delimited.cut (numbers _) (numbers _) afterModule
  simp only [List.cons.injEq, true_and] at afterThread
  exact ⟨String.toList_inj.mp (List.append_cancel_right sameTime),
    toString_level_injective sameLevel, String.toList_inj.mp sameModule,
    toString_injective sameThread, String.toList_inj.mp afterThread⟩

end Shown

/-- A record is the time and the fields of its entry. -/
private theorem Kind.record_eq
    (kind : Kind)
    (entry : LogEntry)
    (tm : Tm) :
    kind.record entry tm =
      tm.putTime kind.timeFormat ++ entry.fields := by
  cases kind <;> rfl

section Record

variable
  (kind : Kind)
  {entry : LogEntry}
  (readable : Readable entry)
  (tm : Tm)

include readable

/-- The text of a readable record is that of a line and its continuation. -/
private theorem toList_record :
    (kind.record entry tm ++ "\n").toList =
      (kind.shown (entry, tm)).entry.text '\n' ' ' := by
  have dump :
      (if entry.threadDump.isEmpty then "" else
          entry.threadDump) = entry.threadDump := by
    split
    · rename_i isEmpty
      exact (String.isEmpty_iff.mp isEmpty).symm
    · rfl
  rw [kind.record_eq]
  delta LogEntry.fields
  rw [dump]
  rcases readable.threadDump with none | ⟨more, continued, _⟩
  · simp [Shown.entry, Delimited.Entry.text, Shown.line, Kind.shown, none]
  · simp [Shown.entry, Delimited.Entry.text, Shown.line, Kind.shown,
      continued]

/-- A readable record can be recognised in a text. -/
private theorem recognisable_entry :
    (kind.shown (entry, tm)).entry.Recognisable '\n' ' ' where
  line := by
    have time := time_absent kind tm (Or.inr (rfl : '\n' = '\n'))
    have level : '\n' ∉ entry.level.toString.toList := by
      cases entry.level <;> decide
    have thread := newline_absent entry.ompThreadId
    simp only [Shown.entry, Shown.line, Kind.shown, List.mem_append,
      List.mem_cons, not_or]
    refine ⟨⟨time, by simp⟩, by decide, level, by decide, by decide,
      by decide, readable.module.2, by decide, by decide, by decide,
      by decide, thread, by decide, by decide, by decide,
      readable.message⟩
  first := by
    obtain ⟨symbol, rest, shape, notBlank⟩ := exists_cons_time kind tm
    obtain ⟨later, begins⟩ :
        ∃ later,
          (kind.shown (entry, tm)).entry.line =
            (tm.putTime kind.timeFormat).toList ++ later :=
      ⟨_, List.append_assoc _ _ _⟩
    refine ⟨symbol, rest ++ later, ?_, notBlank⟩
    rw [begins, shape, List.cons_append]
  continuation := by
    intro more continued
    rcases readable.threadDump with none | ⟨rest, shape, absent⟩
    · simp [Shown.entry, Kind.shown, none] at continued
    · simp only [Shown.entry, Kind.shown, shape, Option.some.injEq]
        at continued
      rwa [← continued]

end Record

/-- Records that can be taken apart show the same if their entries do. -/
private theorem shown_of_entry
    (kind : Kind)
    {first second : LogEntry × Tm}
    (readable : Readable first.1)
    (readableToo : Readable second.1)
    (same : (kind.shown first).entry = (kind.shown second).entry) :
    kind.shown first = kind.shown second := by
  have sameLine : (kind.shown first).line = (kind.shown second).line :=
    congrArg Delimited.Entry.line same
  have sameMore := congrArg Delimited.Entry.continuation same
  obtain ⟨time, level, module, thread, message⟩ :=
    Shown.fields_of_line (kind.shown first) (kind.shown second)
      (time_absent kind first.2 (Or.inl rfl))
      (time_absent kind second.2 (Or.inl rfl)) readable.module.1
      readableToo.module.1 sameLine
  have dump : first.1.threadDump = second.1.threadDump := by
    apply String.toList_inj.mp
    rcases readable.threadDump with none | ⟨more, shape, _⟩ <;>
      rcases readableToo.threadDump with noneToo | ⟨moreToo, shapeToo, _⟩
    · rw [none, noneToo]
    · simp [Shown.entry, Kind.shown, none, shapeToo] at sameMore
    · simp [Shown.entry, Kind.shown, noneToo, shape] at sameMore
    · simp only [Shown.entry, Kind.shown, shape, shapeToo,
        Option.some.injEq] at sameMore
      rw [shape, shapeToo, sameMore]
  simp only [Kind.shown, Shown.mk.injEq]
  exact ⟨time, level, module, thread, message, dump⟩

/-- What a record shows is all of its text. -/
private theorem record_eq_of_shown
    (kind : Kind)
    {first second : LogEntry × Tm}
    (same : kind.shown first = kind.shown second) :
    kind.record first.1 first.2 = kind.record second.1 second.2 := by
  simp only [Kind.shown, Shown.mk.injEq] at same
  obtain ⟨time, level, module, thread, message, dump⟩ := same
  have fields : first.1.fields = second.1.fields := by
    delta LogEntry.fields
    rw [level, module, thread, message, dump]
  rw [kind.record_eq, kind.record_eq, time, fields]

/--
The text of a sink can be read back.  If no module name contains `]` or a line
feed and no message contains a line feed, two sequences of records have the
same text only if they show the same times, levels, modules, threads, messages
and thread dumps in the same order.
-/
theorem text_determines_what_is_shown
    (kind : Kind)
    {first second : List (LogEntry × Tm)}
    (readable : ∀ record ∈ first, Readable record.1)
    (readableToo : ∀ record ∈ second, Readable record.1) :
    kind.text first = kind.text second ↔
      first.map kind.shown = second.map kind.shown := by
  have entries
      {records : List (LogEntry × Tm)}
      (each : ∀ record ∈ records, Readable record.1) :
      (kind.text records).toList =
        (records.map fun record => (kind.shown record).entry).flatMap
          (Delimited.Entry.text '\n' ' ') := by
    rw [Kind.text, String.toList_join, List.flatMap_map, List.flatMap_map]
    exact List.flatMap_congr fun record inside =>
      toList_record kind (each record inside) record.2
  have recognisable
      {records : List (LogEntry × Tm)}
      (each : ∀ record ∈ records, Readable record.1) :
      ∀ entry ∈ records.map fun record => (kind.shown record).entry,
        entry.Recognisable '\n' ' ' := by
    intro entry inside
    obtain ⟨record, isRecord, rfl⟩ := List.mem_map.mp inside
    exact recognisable_entry kind (each record isRecord) record.2
  constructor
  · intro same
    have sameEntries :=
      Delimited.Entry.flatMap_text_injective (recognisable readable)
        (recognisable readableToo) (by
          rw [← entries readable, ← entries readableToo, same])
    exact Delimited.map_eq_map_of_view
      (fun record inside other isOther =>
        shown_of_entry kind (readable record inside)
          (readableToo other isOther)) sameEntries
  · intro same
    rw [Kind.text, Kind.text,
      Delimited.map_eq_map_of_view
        (fun record _ other _ sameShown => by
          rw [record_eq_of_shown kind sameShown]) same]

/-- A line gets longer by what contains no line feed. -/
private theorem Continues.append
    {text more : String}
    (continues : Continues text)
    (absent : '\n' ∉ more.toList) :
    Continues (text ++ more) := by
  obtain ⟨rest, shape, without⟩ := continues
  refine ⟨rest ++ more.toList, ?_, ?_⟩
  · rw [String.toList_append, shape]
    rfl
  · rw [List.mem_append, not_or]
    exact ⟨without, absent⟩

/-- A captured thread dump is one line that begins with a blank. -/
private theorem continues_captureThreadDump (omp : OmpEnvironment) :
    Continues (captureThreadDump omp) := by
  have answer : '\n' ∉ (if omp.inParallel then "yes" else "no").toList := by
    cases omp.inParallel <;> decide
  have title : Continues "\n  [thread-dump]" :=
    ⟨" [thread-dump]".toList, by decide, by decide⟩
  have number (value : Int) : '\n' ∉ (toString value).toList :=
    newline_absent value
  unfold captureThreadDump
  exact ((((((((((((title.append (by decide)).append
    (number _)).append (by decide)).append (number _)).append
    (by decide)).append (number _)).append (by decide)).append
    answer).append (by decide)).append (number _)).append
    (by decide)).append (number _))

/-- What `log` makes of harmless names and messages is readable. -/
theorem readable_buildEntry
    {module message : String}
    (level : LogLevel)
    (withThreadDump : Bool)
    (environment : CallEnvironment)
    (names : ']' ∉ module.toList ∧ '\n' ∉ module.toList)
    (lines : '\n' ∉ message.toList) :
    Readable
      (buildEntry module level message withThreadDump environment) where
  module := names
  message := lines
  threadDump := by
    cases withThreadDump with
    | false =>
        exact Or.inl rfl
    | true =>
        exact Or.inr (continues_captureThreadDump environment.omp)

/-- The second of two entries with dumps is of another thread. -/
theorem text_determines_what_is_shown_of_two_threads :
    Kind.file.text
        [(buildEntry "net" .warn "up" true ⟨0, ⟨1, 1, 8, true, 1, 1⟩⟩,
            ⟨1, 0, 0, 1, 0, 70⟩),
          (buildEntry "net" .info "down" true ⟨0, ⟨2, 8, 8, true, 1, 1⟩⟩,
            ⟨2, 0, 0, 1, 0, 70⟩)] ≠
      Kind.file.text
        [(buildEntry "net" .warn "up" true ⟨0, ⟨1, 1, 8, true, 1, 1⟩⟩,
            ⟨1, 0, 0, 1, 0, 70⟩),
          (buildEntry "net" .info "down" true ⟨0, ⟨3, 8, 8, true, 1, 1⟩⟩,
            ⟨2, 0, 0, 1, 0, 70⟩)] := by
  have readable
      (level : LogLevel)
      (message : String)
      (lines : '\n' ∉ message.toList)
      (environment : CallEnvironment) :
      Readable (buildEntry "net" level message true environment) :=
    readable_buildEntry level true environment (by decide) lines
  intro same
  have shown :=
    (text_determines_what_is_shown .file
      (List.forall_mem_cons.mpr ⟨readable _ _ (by decide) _,
        List.forall_mem_singleton.mpr (readable _ _ (by decide) _)⟩)
      (List.forall_mem_cons.mpr ⟨readable _ _ (by decide) _,
        List.forall_mem_singleton.mpr (readable _ _ (by decide) _)⟩)).mp
      same
  simp [Kind.shown, buildEntry] at shown

/-- A message with a line feed can look like another record. -/
example :
    Kind.file.text
        [(buildEntry "net" .info
            "a\n1970-01-01 00:00:00 [INFO ] [net] [T0]  b" false
            ⟨0, ⟨0, 1, 1, false, 0, 0⟩⟩, ⟨0, 0, 0, 1, 0, 70⟩)] =
      Kind.file.text
        [(buildEntry "net" .info "a" false ⟨0, ⟨0, 1, 1, false, 0, 0⟩⟩,
            ⟨0, 0, 0, 1, 0, 70⟩),
          (buildEntry "net" .info "b" false ⟨0, ⟨0, 1, 1, false, 0, 0⟩⟩,
            ⟨0, 0, 0, 1, 0, 70⟩)] := by
  decide +kernel

end ConcLogger.Sinks
