import ConcLogger.Concurrency.Lanes
import ConcLogger.Concurrency.Machine
import ConcLogger.Concurrency.Threads

namespace Concurrency

/-!
# Linearizable objects

Threads call the operations of a shared object.  Their history is what they
can see of it: when they call and what they are answered.  It is linearizable
if the calls can be put into one order in which the object, used by one thread
at a time, gives the same answers, and in which no call comes before one that
had been answered before it was made.

`Atomic` describes objects whose operations take effect at one moment between
call and answer.  `Atomic.linearization` orders the calls by these moments, and
`Machine.ReachesBy.atomic` is the rule by which a machine is shown to be such
an object.
-/

/-- An object used by one thread at a time: what a call may do and answer. -/
structure Object (Contents Call Answer : Type) where
  init : Contents
  Effect : Contents → Call → Contents → Answer → Prop

/-- What a thread does at the interface of an object. -/
inductive Act (Call Answer : Type) where
  | invoke (call : Call)
  | respond (answer : Answer)
  deriving Repr, DecidableEq

/-- Where a thread is with its present call. -/
inductive Stage (Call Answer : Type) where
  | idle
  /-- The call has not taken effect. -/
  | called (call : Call)
  /-- The call has taken effect; its answer is fixed. -/
  | answered (answer : Answer)

/-- Calls take effect one after another. -/
inductive Object.Runs
    {Contents Call Answer : Type}
    (object : Object Contents Call Answer) :
    List (Call × Answer) → Contents → Prop where
  | init :
      Runs object [] object.init
  | step
      {operations : List (Call × Answer)}
      {before after : Contents}
      (call : Call)
      (answer : Answer)
      (earlier : Runs object operations before)
      (effect : object.Effect before call after answer) :
      Runs object (operations ++ [(call, answer)]) after

/--
One thread's acts and the operations that they stand for.  Calls and answers
alternate; a call that has not been answered may have taken effect or not.
-/
inductive Serial
    {Call Answer : Type} :
    List (Act Call Answer) → List (Call × Answer) →
      Stage Call Answer → Prop where
  | nothing :
      Serial [] [] .idle
  | invoke
      {acts : List (Act Call Answer)}
      {operations : List (Call × Answer)}
      (call : Call)
      (before : Serial acts operations .idle) :
      Serial (acts ++ [.invoke call]) operations (.called call)
  | commit
      {acts : List (Act Call Answer)}
      {operations : List (Call × Answer)}
      {call : Call}
      (answer : Answer)
      (before : Serial acts operations (.called call)) :
      Serial acts (operations ++ [(call, answer)]) (.answered answer)
  | respond
      {acts : List (Act Call Answer)}
      {operations : List (Call × Answer)}
      {answer : Answer}
      (before : Serial acts operations (.answered answer)) :
      Serial (acts ++ [.respond answer]) operations .idle

/-- The call of an act. -/
@[simp] def Act.call? {Call Answer : Type} :
    Act Call Answer → Option Call
  | .invoke call => some call
  | .respond _ => none

/-- The answer of an act. -/
@[simp] def Act.answer? {Call Answer : Type} :
    Act Call Answer → Option Answer
  | .invoke _ => none
  | .respond answer => some answer

section Histories

variable
  {Thread Contents Call Answer : Type}
  [DecidableEq Thread]

/-- The calls that a thread has made, in order. -/
def called
    (thread : Thread)
    (history : List (Thread × Act Call Answer)) :
    List Call :=
  (lane thread history).filterMap Act.call?

/-- The answers that a thread has been given, in order. -/
def answered
    (thread : Thread)
    (history : List (Thread × Act Call Answer)) :
    List Answer :=
  (lane thread history).filterMap Act.answer?

/-- An answer is one more answer of its thread. -/
theorem length_answered_lt
    (thread : Thread)
    (answer : Answer)
    (before after : List (Thread × Act Call Answer)) :
    (answered thread before).length <
      (answered thread
        (before ++ (thread, .respond answer) :: after)).length := by
  simp [answered, lane]

/--
An order of the calls of a history that explains it.  The calls of a thread
are counted: a beginning of the order with more of its operations than it had
made calls before some call includes that call.
-/
structure Linearization
    (object : Object Contents Call Answer)
    (history : List (Thread × Act Call Answer))
    (order : List (Thread × Call × Answer)) : Prop where
  /-- The object can give these answers in this order. -/
  legal :
    ∃ contents, object.Runs (order.map Prod.snd) contents
  /-- Each thread sees its own calls and answers. -/
  serial :
    ∀ thread,
      ∃ stage, Serial (lane thread history) (lane thread order) stage
  /-- A beginning that includes a call includes all answered before it. -/
  realTime :
    ∀ before between after first answer second call,
      history =
        before ++ (first, .respond answer) ::
          between ++ (second, .invoke call) :: after →
      ∀ earlier later,
        order = earlier ++ later →
        (called second
            (before ++ (first, .respond answer) :: between)).length <
          (lane second earlier).length →
        (answered first before).length < (lane first earlier).length

end Histories

/-! ## Objects whose operations take effect at one moment -/

/-- An act, or the moment at which the present call takes effect. -/
inductive Mark (Call Answer : Type) where
  | act (act : Act Call Answer)
  | commit (call : Call) (answer : Answer)
  deriving Repr, DecidableEq

/-- The act that a mark is. -/
@[simp] def Mark.act? {Call Answer : Type} :
    Mark Call Answer → Option (Act Call Answer)
  | .act seen => some seen
  | .commit _ _ => none

/-- The operation that a mark completes. -/
@[simp] def Mark.commit? {Call Answer : Type} :
    Mark Call Answer → Option (Call × Answer)
  | .act _ => none
  | .commit call answer => some (call, answer)

section Marks

variable {Thread Call Answer : Type}

/-- What the threads see of a marked history. -/
def visible
    (marks : List (Thread × Mark Call Answer)) :
    List (Thread × Act Call Answer) :=
  marks.filterMap fun mark => mark.2.act?.map (Prod.mk mark.1)

/-- The operations of a marked history in the order of their effects. -/
def commits
    (marks : List (Thread × Mark Call Answer)) :
    List (Thread × Call × Answer) :=
  marks.filterMap fun mark => mark.2.commit?.map (Prod.mk mark.1)

variable (first second : List (Thread × Mark Call Answer))

@[simp] theorem visible_append :
    visible (first ++ second) = visible first ++ visible second :=
  List.filterMap_append

@[simp] theorem commits_append :
    commits (first ++ second) = commits first ++ commits second :=
  List.filterMap_append

@[simp] theorem visible_act
    (thread : Thread)
    (act : Act Call Answer) :
    visible [(thread, .act act)] = [(thread, act)] :=
  rfl

@[simp] theorem visible_commit
    (thread : Thread)
    (call : Call)
    (answer : Answer) :
    visible [(thread, .commit call answer)] = [] :=
  rfl

@[simp] theorem commits_act
    (thread : Thread)
    (act : Act Call Answer) :
    commits [(thread, .act act)] = [] :=
  rfl

@[simp] theorem commits_commit
    (thread : Thread)
    (call : Call)
    (answer : Answer) :
    commits [(thread, .commit call answer)] = [(thread, call, answer)] :=
  rfl

end Marks

/-- What one step of an atomic object is to its threads. -/
inductive Object.Move
    {Thread Contents Call Answer : Type}
    [DecidableEq Thread]
    (object : Object Contents Call Answer)
    (contents : Contents)
    (stage : Thread → Stage Call Answer) :
    List (Thread × Mark Call Answer) → Contents →
      (Thread → Stage Call Answer) → Prop where
  | silent :
      Move object contents stage [] contents stage
  | invoke
      (thread : Thread)
      (call : Call)
      (idle : stage thread = .idle) :
      Move object contents stage [(thread, .act (.invoke call))] contents
        (Function.update stage thread (.called call))
  | commit
      (thread : Thread)
      (call : Call)
      (answer : Answer)
      (after : Contents)
      (pending : stage thread = .called call)
      (effect : object.Effect contents call after answer) :
      Move object contents stage [(thread, .commit call answer)] after
        (Function.update stage thread (.answered answer))
  | respond
      (thread : Thread)
      (answer : Answer)
      (fixed : stage thread = .answered answer) :
      Move object contents stage [(thread, .act (.respond answer))] contents
        (Function.update stage thread .idle)

/-- The marked histories of an atomic object. -/
inductive Object.Atomic
    {Thread Contents Call Answer : Type}
    [DecidableEq Thread]
    (object : Object Contents Call Answer) :
    List (Thread × Mark Call Answer) → Contents →
      (Thread → Stage Call Answer) → Prop where
  | init :
      Atomic object [] object.init (fun _ => .idle)
  | step
      {marks moved : List (Thread × Mark Call Answer)}
      {before after : Contents}
      {stage next : Thread → Stage Call Answer}
      (earlier : Atomic object marks before stage)
      (move : object.Move before stage moved after next) :
      Atomic object (marks ++ moved) after next

section Order

variable
  {Thread Contents Call Answer : Type}
  [DecidableEq Thread]
  {object : Object Contents Call Answer}
  {contents : Contents}
  {marks : List (Thread × Mark Call Answer)}
  {stage : Thread → Stage Call Answer}

/-- The operations of an atomic object can be carried out one by one. -/
theorem Object.Atomic.runs
    (atomic : object.Atomic marks contents stage) :
    object.Runs ((commits marks).map Prod.snd) contents := by
  induction atomic with
  | init =>
      exact .init
  | step earlier move inductionHypothesis =>
      rw [commits_append, List.map_append]
      cases move with
      | commit thread call answer after pending effect =>
          exact .step call answer inductionHypothesis effect
      | silent | invoke | respond =>
          simpa [commits] using inductionHypothesis

/-- Each thread of an atomic object makes one call after another. -/
theorem Object.Atomic.serial
    (atomic : object.Atomic marks contents stage)
    (thread : Thread) :
    Serial (lane thread (visible marks)) (lane thread (commits marks))
      (stage thread) := by
  induction atomic with
  | init =>
      exact .nothing
  | step earlier move inductionHypothesis =>
      rw [visible_append, commits_append, lane_append, lane_append]
      cases move with
      | silent =>
          simpa [visible, commits] using inductionHypothesis
      | invoke mover call idle =>
          by_cases same : mover = thread
          · subst same
            rw [idle] at inductionHypothesis
            simpa [visible, commits] using
              inductionHypothesis.invoke call
          · simpa [visible, commits, same, Ne.symm same] using
              inductionHypothesis
      | commit mover call answer after pending =>
          by_cases same : mover = thread
          · subst same
            rw [pending] at inductionHypothesis
            simpa [visible, commits] using
              inductionHypothesis.commit answer
          · simpa [visible, commits, same, Ne.symm same] using
              inductionHypothesis
      | respond mover answer fixed =>
          by_cases same : mover = thread
          · subst same
            rw [fixed] at inductionHypothesis
            simpa [visible, commits] using inductionHypothesis.respond
          · simpa [visible, commits, same, Ne.symm same] using
              inductionHypothesis

/-- A call that has not taken effect. -/
@[simp] def Stage.waiting : Stage Call Answer → Nat
  | .called _ => 1
  | _ => 0

/-- An answer that has not been given. -/
@[simp] def Stage.due : Stage Call Answer → Nat
  | .answered _ => 1
  | _ => 0

/-- Calls, operations and answers of a thread differ by its present call. -/
theorem Serial.counts
    {acts : List (Act Call Answer)}
    {operations : List (Call × Answer)}
    {stage : Stage Call Answer}
    (serial : Serial acts operations stage) :
    (acts.filterMap Act.call?).length =
        operations.length + stage.waiting ∧
      operations.length =
        (acts.filterMap Act.answer?).length + stage.due := by
  induction serial with
  | nothing =>
      exact ⟨rfl, rfl⟩
  | invoke call before inductionHypothesis =>
      simpa [List.filterMap_cons] using inductionHypothesis
  | commit answer before inductionHypothesis =>
      simpa using inductionHypothesis
  | respond before inductionHypothesis =>
      simpa [List.filterMap_cons] using inductionHypothesis

/-- The operations of a thread are among its calls and include its answers. -/
theorem Object.Atomic.counts
    (atomic : object.Atomic marks contents stage)
    (thread : Thread) :
    (lane thread (commits marks)).length ≤
        (called thread (visible marks)).length ∧
      (answered thread (visible marks)).length ≤
        (lane thread (commits marks)).length := by
  obtain ⟨calls, answers⟩ := (atomic.serial thread).counts
  unfold called answered
  omega

omit [DecidableEq Thread] in
/-- A list with one more element ends at a given element or later. -/
private theorem split_concat
    {Entry : Type}
    {entries before after : List Entry}
    {last middle : Entry}
    (shape : entries ++ [last] = before ++ middle :: after) :
    (after = [] ∧ last = middle ∧ entries = before) ∨
      ∃ rest, after = rest ++ [last] ∧ entries = before ++ middle :: rest := by
  rcases List.eq_nil_or_concat' after with rfl | ⟨rest, final, rfl⟩
  · obtain ⟨same, isLast⟩ := List.append_inj' shape rfl
    exact Or.inl ⟨rfl, (List.cons.inj isLast).1, same⟩
  · rw [← List.cons_append, ← List.append_assoc] at shape
    obtain ⟨same, isLast⟩ := List.append_inj' shape rfl
    exact Or.inr ⟨rest, by rw [(List.cons.inj isLast).1], same⟩

/-- An operation that was answered before a call precedes it in the order. -/
private theorem Object.Atomic.realTime
    (atomic : object.Atomic marks contents stage)
    {before between after : List (Thread × Act Call Answer)}
    {first second : Thread}
    {answer : Answer}
    {call : Call}
    (shape :
      visible marks =
        before ++ (first, .respond answer) ::
          between ++ (second, .invoke call) :: after)
    {earlier later : List (Thread × Call × Answer)}
    (split : commits marks = earlier ++ later)
    (includes :
      (called second
          (before ++ (first, .respond answer) :: between)).length <
        (lane second earlier).length) :
    (answered first before).length < (lane first earlier).length := by
  induction atomic generalizing after later earlier with
  | init =>
      simp [visible] at shape
  | step atomic move inductionHypothesis =>
      have counted := atomic.counts
      rw [visible_append] at shape
      rw [commits_append] at split
      cases move with
      | silent =>
          exact inductionHypothesis (by simpa [visible] using shape)
            (by simpa [commits] using split) includes
      | invoke mover made idle =>
          rw [visible_act] at shape
          rw [commits_act, List.append_nil] at split
          rcases split_concat shape with
            ⟨rfl, isLast, same⟩ | ⟨rest, rfl, same⟩
          · -- The call is the last act: it has not taken effect.
            cases isLast
            have few := (counted second).1
            rw [same, split, lane_append, List.length_append] at few
            omega
          · exact inductionHypothesis same split includes
      | commit mover made given after pending effect =>
          rw [visible_commit, List.append_nil] at shape
          rw [commits_commit] at split
          rcases List.eq_nil_or_concat' later with rfl | ⟨rest, last, rfl⟩
          · -- The beginning is the whole order.
            have more :=
              length_answered_lt first answer before
                (between ++ (second, .invoke call) :: after)
            have many := (counted first).2
            rw [shape, List.append_assoc, List.cons_append] at many
            rw [← split.trans (List.append_nil earlier), lane_append,
              List.length_append]
            omega
          · rw [← List.append_assoc] at split
            exact inductionHypothesis shape
              (List.append_inj' split rfl).1 includes
      | respond mover given fixed =>
          rw [visible_act] at shape
          rw [commits_act, List.append_nil] at split
          rcases split_concat shape with
            ⟨rfl, isLast, same⟩ | ⟨rest, rfl, same⟩
          · cases isLast
          · exact inductionHypothesis same split includes

/-- The moments at which the calls take effect give an order that explains them. -/
theorem Object.Atomic.linearization
    (atomic : object.Atomic marks contents stage) :
    Linearization object (visible marks) (commits marks) where
  legal := ⟨contents, atomic.runs⟩
  serial thread := ⟨stage thread, atomic.serial thread⟩
  realTime _ _ _ _ _ _ _ shape _ _ split includes :=
    atomic.realTime shape split includes

end Order

/--
The rule for machines: if every step is, for the threads, a step of an atomic
object, the marked histories of the machine are those of that object.
-/
theorem Machine.ReachesBy.atomic
    {Thread Contents Call Answer State Event : Type}
    [DecidableEq Thread]
    {machine : Machine State Event (Thread × Mark Call Answer)}
    {allowed : State → Event → Prop}
    {marks : List (Thread × Mark Call Answer)}
    {state : State}
    (object : Object Contents Call Answer)
    (contents : State → Contents)
    (stage : State → Thread → Stage Call Answer)
    (initially : contents machine.init = object.init)
    (idle : stage machine.init = fun _ => .idle)
    (moves :
      ∀ {observed emitted : List (Thread × Mark Call Answer)}
        {state next : State} {event : Event},
        machine.ReachesBy allowed observed state →
        allowed state event →
        machine.step? state event = some (next, emitted) →
        object.Move (contents state) (stage state) emitted
          (contents next) (stage next))
    (reached : machine.ReachesBy allowed marks state) :
    object.Atomic marks (contents state) (stage state) := by
  induction reached with
  | init =>
      rw [initially, idle]
      exact .init
  | step event before permitted taken inductionHypothesis =>
      exact .step inductionHypothesis (moves before permitted taken)

end Concurrency
