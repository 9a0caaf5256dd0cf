import Sming.Wiring.FIFO
import Sming.Wiring.WString

/-!
# The AT client

Embedding of `Sming/SmingCore/AtClient.cpp`. The client writes a command to the serial port, waits for its reply or for
the timer, and repeats it, gives up or goes on with the next one in its queue.

The application's calls, the characters that arrive and the timer are events. A callback of the current command runs
between the event that calls it and `answer`; meanwhile the application may make calls, the serial port and the timer
have to wait (`pending`). The timer fires once, and only while it runs.

A command passed to `send()` is numbered and keeps the retries it asked for, the times the client wrote it by itself
and the refusals it met. `written` logs what goes to the serial port. None of this is looked at by the client.
-/

namespace Sming
open Sming.Lib Sming.Wiring List

/-- A command as the application passes it; of a callback it is known whether it is set. -/
structure AtCommand where
  text : String
  response2 : String := ""
  timeout : UInt32 := 2000
  retries : UInt32 := 0
  breakOnError : Bool := true
  onReceive : Bool := false
  onComplete : Bool := false
  deriving DecidableEq, Repr

structure Tracked extends AtCommand where
  serial : Nat
  asked : UInt32
  writes : Nat
  refusals : Nat
  deriving DecidableEq, Repr

inductive AtState
  | ok
  | running
  | error
  deriving DecidableEq, Repr

inductive Origin
  | first
  | retry
  | resend
  deriving DecidableEq, Repr

/-- A command on the serial port, and how often the client wrote it by itself so far. -/
structure Write where
  command : Tracked
  origin : Origin
  number : Nat
  deriving DecidableEq, Repr

structure AtClient where
  currentCommand : Tracked
  queue : ObjectQueue Tracked 10
  state : AtState
  timer : Bool
  pending : Bool
  passed : List Tracked
  written : List Write

namespace AtClient

def track (command : AtCommand) (serial : Nat) : Tracked :=
  { command with serial, asked := command.retries, writes := 0, refusals := 0 }

def new : AtClient where
  currentCommand := track { text := "" } 0
  queue := .new (by decide) (by decide) (track { text := "" } 0)
  state := .ok
  timer := false
  pending := false
  passed := []
  written := []

variable (c : AtClient)

def sendDirect (command : Tracked) (origin : Origin) : AtClient :=
  let writes := if origin = .resend then command.writes else command.writes + 1
  { c with
    state := .running
    currentCommand := { command with writes }
    timer := decide (command.timeout ≠ 0)
    written := c.written ++ [{ command, origin, number := writes }] }

/-- Write the command, or queue it behind the current one; a full queue drops it. -/
def send (command : Tracked) : AtClient :=
  if c.currentCommand.text ≠ "" then { c with queue := (c.queue.enqueue command).1 }
  else c.sendDirect command .first

def next : AtClient :=
  if c.state = .error then c
  else
    let c := { c with state := .ok, currentCommand := { c.currentCommand with text := "" } }
    match c.queue.dequeue with
    | (some command, queue) => { c with queue }.send command
    | (none, _) => c

def resend : AtClient :=
  let c := { c with state := .ok }
  if c.currentCommand.text ≠ "" then c.sendDirect c.currentCommand .resend
  else c.next

/-- The reply holds neither `OK` nor the alternative response. -/
def refused (reply response2 : String) : Bool :=
  (WString.indexOfText reply "OK").isNone && (WString.indexOfText reply response2).isNone

/-- The counter of the current command goes down; it is unsigned. -/
def refuse : AtClient :=
  { c with
    currentCommand :=
      { c.currentCommand with
        retries := c.currentCommand.retries - 1
        refusals := c.currentCommand.refusals + 1 } }

/-- The end of `processor`: the callback, if there is one, decides whether to go on. -/
def complete : AtClient :=
  if c.currentCommand.onComplete then { c with pending := true } else c.next

/-- A character arrived; `available` are the characters that can be read. -/
def processor (arrivedChar : Char) (available : List Char) : AtClient :=
  if c.currentCommand.text = "" then c
  else if c.state = .error then c
  else if c.currentCommand.onReceive then { c with pending := true }
  else if arrivedChar ≠ '\n' then c
  else
    let c := { c with timer := false }
    let reply := String.ofList (available.takeWhile fun x => x != '\r' && x != '\n' && x != '\x00')
    if refused reply c.currentCommand.response2 then
      let c := c.refuse
      if c.currentCommand.retries > 0 then c.sendDirect c.currentCommand .retry
      else if c.currentCommand.breakOnError then { c with state := .error }
      else c.complete
    else c.complete

def ticker : AtClient :=
  let c := { c with timer := false }
  if c.currentCommand.text = "" then c
  else
    let c := c.refuse
    if c.currentCommand.retries > 0 then c.sendDirect c.currentCommand .retry
    else { c with state := .error }

inductive Event
  | send (command : AtCommand)
  | received (arrivedChar : Char) (available : List Char)
  | tick
  | resend
  | next
  | answer (finished : Bool)

def step : Event → Option AtClient
  | .send command =>
    let command := track command c.passed.length
    some ({ c with passed := c.passed ++ [command] }.send command)
  | .received arrivedChar available =>
    if c.pending then none else some (c.processor arrivedChar available)
  | .tick => if c.pending || !c.timer then none else some c.ticker
  | .resend => some c.resend
  | .next => some c.next
  | .answer finished =>
    if c.pending then
      let c := { c with pending := false }
      some (if finished then c.next else c)
    else none

/-! ## How often a command is written -/

/-- Every command was written at most once more than it asked for, calls of `resend()` apart. -/
def Bounded : Prop := ∀ w ∈ c.written, w.number ≤ 1 + w.command.asked.toNat

/-- The refusals a command may meet before it is written too often. -/
def allowance (k : Tracked) : Nat :=
  if k.asked.toNat = 0 then 0 else k.asked.toNat + 1

/-- The counter of a written command is what it asked for less the refusals, and each of these led to a write but the
one that brings it to zero. -/
structure Balanced (k : Tracked) : Prop where
  counter : (k.retries.toNat + k.refusals) % 2 ^ 32 = k.asked.toNat
  within : k.refusals ≤ allowance k →
    k.writes + (if 1 ≤ k.asked.toNat ∧ k.asked.toNat ≤ k.refusals then 1 else 0) = 1 + k.refusals

def Fresh (k : Tracked) : Prop := k.writes = 0 ∧ k.refusals = 0 ∧ k.retries = k.asked

structure Ledger (c : AtClient) : Prop where
  queued : ∀ k ∈ c.queue.toList, Fresh k
  current : c.currentCommand.text ≠ "" → Balanced c.currentCommand
  beyond : c.currentCommand.text ≠ "" → allowance c.currentCommand < c.currentCommand.refusals →
    ¬ c.Bounded

def Refuses : Event → Prop
  | .received arrivedChar available =>
    c.currentCommand.text ≠ "" ∧ c.state ≠ .error ∧ c.currentCommand.onReceive = false ∧
      arrivedChar = '\n' ∧
      refused (String.ofList (available.takeWhile fun x => x != '\r' && x != '\n' && x != '\x00'))
        c.currentCommand.response2 = true
  | .tick => c.currentCommand.text ≠ ""
  | _ => False

def Sparing (e : Event) : Prop :=
  c.Refuses e → c.currentCommand.refusals < allowance c.currentCommand

/-- A command is passed while there is room for it behind the current one, or while nothing waits. -/
def Orderly : Event → Prop
  | .send _ =>
    if c.currentCommand.text ≠ "" then c.queue.toList.length < 10 else c.queue.toList = []
  | _ => True

/-! ### What an event does -/

/-- A change that neither passes nor refuses a command. -/
inductive Quiet (c : AtClient) : AtClient → Prop where
  | idle {state timer pending} :
    Quiet c { c with state, timer, pending }
  | dropped :
    Quiet c { c with currentCommand := { c.currentCommand with text := "" } }
  | started {k queue} :
    c.queue.toList = k :: queue.toList →
    Quiet c ({ c with queue }.sendDirect k .first)
  | resent :
    c.currentCommand.text ≠ "" →
    Quiet c (c.sendDirect c.currentCommand .resend)

abbrev Quietly : AtClient → AtClient → Prop := Relation.ReflTransGen Quiet

/-- A refused command is written again, or its counter has come to zero. -/
inductive Refused (c : AtClient) : AtClient → Prop where
  | again :
    c.refuse.currentCommand.retries > 0 →
    Refused c (c.refuse.sendDirect c.refuse.currentCommand .retry)
  | last :
    ¬ c.refuse.currentCommand.retries > 0 →
    Refused c c.refuse

inductive Moves (c : AtClient) : Event → AtClient → Prop where
  | quiet {e u} :
    ¬ c.Refuses e → c.Orderly e →
    Quietly c u →
    Moves c e u
  | refused {e d u} :
    c.Refuses e → c.Orderly e →
    Refused c d →
    Quietly d u →
    Moves c e u
  | sent {command} :
    Moves c (.send command) ({ c with passed := c.passed ++ [track command c.passed.length] }.send
      (track command c.passed.length))

variable {c u : AtClient} {k : Tracked} {e : Event}

lemma next_quietly (c : AtClient) : Quietly c c.next := by
  unfold AtClient.next
  split
  · exact .refl
  · have idle : Quietly c { c with state := .ok } := .single .idle
    have dropped := idle.tail .dropped
    simp only
    have head := c.queue.dequeue_fst
    have tail := c.queue.dequeue_toList
    generalize c.queue.dequeue = d at head tail
    obtain ⟨taken, queue⟩ := d
    cases taken with
    | none => exact dropped
    | some k =>
      simp only [send, ne_eq, not_true_eq_false, if_false]
      refine dropped.tail (.started ?_)
      rw [tail]
      exact (cons_head?_tail head.symm).symm

lemma complete_quietly (c : AtClient) : Quietly c c.complete := by
  unfold AtClient.complete
  split
  · exact .single .idle
  · exact c.next_quietly

lemma resend_quietly (c : AtClient) : Quietly c c.resend := by
  have idle : Quietly c { c with state := .ok } := .single .idle
  unfold AtClient.resend
  simp only
  split
  case isTrue some => exact idle.tail (.resent some)
  case isFalse => exact idle.trans (next_quietly _)

lemma processor_moves (c : AtClient) (arrivedChar : Char) (available : List Char) :
    Moves c (.received arrivedChar available) (c.processor arrivedChar available) := by
  unfold AtClient.processor
  split
  case isTrue none => exact .quiet (fun r => r.1 none) trivial .refl
  case isFalse some =>
  split
  case isTrue error => exact .quiet (fun r => r.2.1 error) trivial .refl
  case isFalse noError =>
  split
  case isTrue receive =>
    refine .quiet (fun r => ?_) trivial (.single .idle)
    rw [r.2.2.1] at receive
    cases receive
  case isFalse noReceive =>
  split
  case isTrue other => exact .quiet (fun r => other r.2.2.2.1) trivial .refl
  case isFalse newline =>
  have stopped : Quietly c.refuse { c with timer := false }.refuse := .single .idle
  simp only
  split
  case isTrue refusal =>
    have refuses : c.Refuses (.received arrivedChar available) :=
      ⟨some, noError, Bool.eq_false_of_not_eq_true noReceive, Classical.not_not.mp newline, refusal⟩
    split
    case isTrue pos => exact .refused refuses trivial (.again pos) .refl
    case isFalse notPos =>
      refine .refused refuses trivial (.last notPos) ?_
      split
      · exact stopped.tail .idle
      · exact stopped.trans (complete_quietly _)
  case isFalse accepted =>
    have stopped : Quietly c { c with timer := false } := .single .idle
    exact .quiet (fun r => accepted r.2.2.2.2) trivial (stopped.trans (complete_quietly _))

lemma ticker_moves (c : AtClient) : Moves c .tick c.ticker := by
  unfold AtClient.ticker
  simp only
  split
  case isTrue none => exact .quiet (fun r => r none) trivial (.single .idle)
  case isFalse some =>
    split
    case isTrue pos => exact .refused some trivial (.again pos) .refl
    case isFalse notPos => exact .refused some trivial (.last notPos) (.single .idle)

lemma step_moves (st : c.step e = some u) : Moves c e u := by
  cases e with
  | send command =>
    cases st
    exact .sent
  | received arrivedChar available =>
    obtain ⟨-, st⟩ := Option.ite_none_left_eq_some.mp st
    cases st
    exact processor_moves c arrivedChar available
  | tick =>
    obtain ⟨-, st⟩ := Option.ite_none_left_eq_some.mp st
    cases st
    exact ticker_moves c
  | resend =>
    cases st
    exact .quiet id trivial c.resend_quietly
  | next =>
    cases st
    exact .quiet id trivial c.next_quietly
  | answer finished =>
    obtain ⟨-, st⟩ := Option.ite_none_right_eq_some.mp st
    cases st
    have answered : Quietly c { c with pending := false } := .single .idle
    refine .quiet id trivial ?_
    split
    · exact answered.trans (next_quietly _)
    · exact answered

/-- What every quiet change keeps is kept by all of them together. -/
lemma Quietly.keeps {P Q : AtClient → Prop} (keep : ∀ {c u}, P c → Quiet c u → P u ∧ (Q u ↔ Q c))
    (h : P c) (q : Quietly c u) : P u ∧ (Q u ↔ Q c) := by
  induction q with
  | refl => exact ⟨h, Iff.rfl⟩
  | tail _ st ih =>
    obtain ⟨done, same⟩ := keep ih.1 st
    exact ⟨done, same.trans ih.2⟩

lemma Refuses.text_ne (r : c.Refuses e) : c.currentCommand.text ≠ "" := by
  cases e with
  | received => exact r.1
  | tick => exact r
  | send | resend | next | answer => cases r

/-! ### The ledger -/

lemma bounded_sendDirect (c : AtClient) (k : Tracked) (o : Origin) :
    (c.sendDirect k o).Bounded ↔
      c.Bounded ∧ (if o = .resend then k.writes else k.writes + 1) ≤ 1 + k.asked.toNat := by
  rw [Bounded, sendDirect, forall_mem_append, forall_mem_singleton]
  rfl

lemma toNat_sub_one (a : UInt32) : (a - 1).toNat = (a.toNat + (2 ^ 32 - 1)) % 2 ^ 32 := by
  rw [UInt32.toNat_sub, Nat.add_comm]
  rfl

lemma Balanced.writes_le (b : Balanced k) (le : k.refusals ≤ allowance k) : k.writes ≤ 1 + k.asked.toNat := by
  have w := b.within le
  simp only [allowance] at le
  split at le <;> split at w <;> omega

lemma Fresh.balanced (f : Fresh k) : Balanced { k with writes := k.writes + 1 } := by
  obtain ⟨writes, refusals, retries⟩ := f
  constructor
  · simp only [refusals, retries]
    exact Nat.mod_eq_of_lt k.asked.toNat_lt
  · intro _
    simp only [writes, refusals]
    rw [if_neg (by omega)]

lemma Fresh.start (f : Fresh k) (queued : ∀ k ∈ c.queue.toList, Fresh k) :
    (c.sendDirect k .first).Ledger ∧ ((c.sendDirect k .first).Bounded ↔ c.Bounded) := by
  refine ⟨⟨queued, fun _ => f.balanced, ?_⟩, ?_⟩
  · intro _ excess
    simp only [sendDirect, f.2.1] at excess
    exact absurd excess (Nat.not_lt_zero _)
  · rw [bounded_sendDirect, f.1]
    exact and_iff_left (Nat.le_add_right 1 _)

lemma Balanced.refuse (b : Balanced k) {n : Nat}
    (written : 0 < (k.retries - 1).toNat ∧ n = k.writes + 1 ∨ (k.retries - 1).toNat = 0 ∧ n = k.writes) :
    Balanced { k with retries := k.retries - 1, refusals := k.refusals + 1, writes := n } := by
  have counter := b.counter
  have within := b.within
  have less := toNat_sub_one k.retries
  have small := k.retries.toNat_lt
  constructor
  · simp only
    omega
  · intro le
    have w := within (Nat.le_of_succ_le le)
    simp only [allowance] at le ⊢
    split at le <;> split at w <;> split <;> omega

lemma Balanced.write_le_iff (b : Balanced k) (le : k.refusals ≤ allowance k) :
    k.writes + 1 ≤ 1 + k.asked.toNat ↔ k.refusals < allowance k := by
  have w := b.within le
  simp only [allowance] at le ⊢
  split at le <;> split at w <;> split <;> omega

lemma Balanced.zero_lt (b : Balanced k) (le : k.refusals ≤ allowance k)
    (zero : (k.retries - 1).toNat = 0) : k.refusals < allowance k := by
  have counter := b.counter
  have less := toNat_sub_one k.retries
  have small := k.retries.toNat_lt
  simp only [allowance] at le ⊢
  split at le <;> split <;> omega

lemma Ledger.spare (l : c.Ledger) (some : c.currentCommand.text ≠ "") (bounded : c.Bounded) :
    c.currentCommand.refusals ≤ allowance c.currentCommand := by
  by_contra excess
  exact l.beyond some (Nat.lt_of_not_le excess) bounded

lemma Ledger.quiet (l : c.Ledger) (q : Quiet c u) : u.Ledger ∧ (u.Bounded ↔ c.Bounded) := by
  cases q with
  | idle => exact ⟨⟨l.queued, l.current, l.beyond⟩, Iff.rfl⟩
  | dropped => exact ⟨⟨l.queued, absurd rfl, absurd rfl⟩, Iff.rfl⟩
  | started whole =>
    have queued := l.queued
    rw [whole, forall_mem_cons] at queued
    exact queued.1.start queued.2
  | resent some =>
    have b := l.current some
    have bounded : (c.sendDirect c.currentCommand .resend).Bounded ↔ c.Bounded := by
      rw [bounded_sendDirect]
      exact and_iff_left_of_imp fun before => b.writes_le (l.spare some before)
    refine ⟨⟨l.queued, fun _ => ⟨b.counter, b.within⟩, fun _ excess => ?_⟩, bounded⟩
    rw [bounded]
    exact l.beyond some excess

lemma Ledger.refused (l : c.Ledger) (some : c.currentCommand.text ≠ "") (r : Refused c u) :
    u.Ledger ∧ (u.Bounded ↔ c.Bounded ∧ c.currentCommand.refusals < allowance c.currentCommand) := by
  have b := l.current some
  have spare := l.spare some
  have beyond {p : Prop} (bounded : p ↔ c.Bounded ∧ c.currentCommand.refusals < allowance c.currentCommand)
      (excess : allowance c.currentCommand < c.currentCommand.refusals + 1) : ¬ p := fun h =>
    absurd (Nat.le_of_lt_succ excess) (Nat.not_le_of_lt (bounded.mp h).2)
  cases r with
  | again pos =>
    have bounded : (c.refuse.sendDirect c.refuse.currentCommand .retry).Bounded ↔
        c.Bounded ∧ c.currentCommand.refusals < allowance c.currentCommand := by
      rw [bounded_sendDirect]
      exact and_congr_right fun before => b.write_le_iff (spare before)
    exact ⟨⟨l.queued, fun _ => b.refuse (.inl ⟨pos, rfl⟩), fun _ => beyond bounded⟩, bounded⟩
  | last notPos =>
    have zero : (c.currentCommand.retries - 1).toNat = 0 := Nat.eq_zero_of_not_pos notPos
    have bounded : c.refuse.Bounded ↔ c.Bounded ∧ c.currentCommand.refusals < allowance c.currentCommand :=
      (and_iff_left_of_imp fun before => b.zero_lt (spare before) zero).symm
    exact ⟨⟨l.queued, fun _ => b.refuse (.inr ⟨zero, rfl⟩), fun _ => beyond bounded⟩, bounded⟩

lemma Ledger.send (l : c.Ledger) (f : Fresh k) : (c.send k).Ledger ∧ ((c.send k).Bounded ↔ c.Bounded) := by
  unfold AtClient.send
  split
  · refine ⟨⟨?_, l.current, l.beyond⟩, Iff.rfl⟩
    simp only [ObjectQueue.enqueue_toList]
    split
    · exact forall_mem_append.mpr ⟨l.queued, forall_mem_singleton.mpr f⟩
    · exact l.queued
  · exact f.start l.queued

lemma Ledger.step (l : c.Ledger) (st : c.step e = some u) : u.Ledger ∧ (u.Bounded ↔ c.Bounded ∧ c.Sparing e) := by
  cases step_moves st with
  | quiet no _ q =>
    obtain ⟨done, same⟩ := q.keeps Ledger.quiet l
    exact ⟨done, same.trans (and_iff_left fun r => absurd r no).symm⟩
  | refused yes _ r q =>
    obtain ⟨l', bounded⟩ := l.refused yes.text_ne r
    obtain ⟨done, same⟩ := q.keeps Ledger.quiet l'
    exact ⟨done, (same.trans bounded).trans (and_congr_right fun _ => ⟨fun lt _ => lt, fun sparing => sparing yes⟩)⟩
  | @sent command =>
    have l' : { c with passed := c.passed ++ [track command c.passed.length] }.Ledger :=
      ⟨l.queued, l.current, l.beyond⟩
    obtain ⟨done, same⟩ := l'.send (show Fresh (track command c.passed.length) from ⟨rfl, rfl, rfl⟩)
    exact ⟨done, same.trans (and_iff_left nofun).symm⟩

lemma ledger {es : List Event} (r : Run step Always new es c) : c.Ledger :=
  r.invariant ⟨nofun, absurd rfl, absurd rfl⟩ fun l _ st => (l.step st).1

/-- The commands of a run are written at most once more than they asked for exactly if none meets more refusals than
its allowance: none without retries, else one more than the retries. -/
theorem at_writes_bounded_iff {es : List Event} (r : Run step Always new es c) :
    (∀ w ∈ c.written, w.number ≤ 1 + w.command.asked.toNat) ↔ Run step Sparing new es c := by
  apply @Run.iff_guarded _ _ step Sparing Always Bounded new es c r
  · intro w hw
    cases hw
  · intro es t e u r _ st
    exact ((ledger r).step st).2

theorem at_writes_bounded_iff_answered :
    ∃ c, Run step Always new [.send { text := "AT\r", retries := 2 }, .tick, .received '\n' ['O', 'K', '\n']] c ∧
      c.written.map Write.number = [1, 2] ∧
      ((∀ w ∈ c.written, w.number ≤ 1 + w.command.asked.toNat) ↔ Run step Sparing new
        [.send { text := "AT\r", retries := 2 }, .tick, .received '\n' ['O', 'K', '\n']] c) :=
  exists_run (fun c => c.written.map Write.number = [1, 2]) (by decide +kernel)
    fun _ run numbers => ⟨numbers, at_writes_bounded_iff run⟩

/-- A command with the default of no retries times out: the counter wraps and it is written again. -/
theorem at_writes_unbounded_by_default :
    ¬ ∀ es c, Run step Always new es c → ∀ w ∈ c.written, w.number ≤ 1 + w.command.asked.toNat :=
  not_forall_run [.send { text := "AT\r" }, .tick] (by decide +kernel)

/-! ## The order of the commands -/

/-- The commands written for the first time, in order; the current one is the last of them. -/
def started (c : AtClient) : List Tracked := (c.written.filter fun w => w.origin = .first).map Write.command

/-- The commands started and queued are those passed, in order, and the current command is the one started last. -/
structure Accounted (c : AtClient) : Prop where
  order : c.started ++ c.queue.toList = c.passed
  current : c.currentCommand.text ≠ "" →
    c.started.getLast?.map Tracked.serial = some c.currentCommand.serial

structure Numbered (c : AtClient) : Prop where
  queued : ∀ k ∈ c.queue.toList, k.serial < c.passed.length
  fewer : c.started.length + c.queue.toList.length ≤ c.passed.length
  current : c.currentCommand.text ≠ "" →
    c.started.getLast?.map Tracked.serial = some c.currentCommand.serial

lemma started_sendDirect (c : AtClient) (k : Tracked) (o : Origin) :
    (c.sendDirect k o).started = if o = .first then c.started ++ [k] else c.started := by
  cases o <;> simp [started, sendDirect]

section
variable (n : c.Numbered)
include n

lemma Numbered.accounted_iff : c.Accounted ↔ c.started ++ c.queue.toList = c.passed :=
  ⟨fun a => a.order, fun order => ⟨order, n.current⟩⟩

lemma Numbered.same (n' : u.Numbered)
    (order : u.started ++ u.queue.toList = u.passed ↔ c.started ++ c.queue.toList = c.passed) :
    u.Numbered ∧ (u.Accounted ↔ c.Accounted) :=
  ⟨n', (n'.accounted_iff.trans order).trans n.accounted_iff.symm⟩

lemma Numbered.again (some : c.currentCommand.text ≠ "")
    (same : k.serial = c.currentCommand.serial) {o : Origin} (notFirst : o ≠ .first) :
    (c.sendDirect k o).Numbered ∧ ((c.sendDirect k o).Accounted ↔ c.Accounted) := by
  have started : (c.sendDirect k o).started = c.started := by
    rw [started_sendDirect, if_neg notFirst]
  refine n.same ⟨n.queued, ?_, fun _ => ?_⟩ ?_
  · rw [started]
    exact n.fewer
  · rw [started, n.current some, ← same]
    rfl
  · rw [started]
    rfl

lemma Numbered.quiet (q : Quiet c u) : u.Numbered ∧ (u.Accounted ↔ c.Accounted) := by
  cases q with
  | idle => exact n.same ⟨n.queued, n.fewer, n.current⟩ Iff.rfl
  | dropped => exact n.same ⟨n.queued, n.fewer, absurd rfl⟩ Iff.rfl
  | @started k queue whole =>
    -- the head of the queue becomes the last of the started commands
    have started : ({ c with queue }.sendDirect k .first).started = c.started ++ [k] := by
      rw [started_sendDirect, if_pos rfl]
      rfl
    refine n.same ⟨?_, ?_, fun _ => ?_⟩ ?_
    · exact fun k' mem => n.queued k' (whole ▸ mem_cons_of_mem k mem)
    · have fewer := n.fewer
      rw [whole, length_cons] at fewer
      rw [started, List.length_append, length_singleton, Nat.add_right_comm]
      exact fewer
    · rw [started, getLast?_append]
      rfl
    · rw [started, whole, List.append_assoc]
      rfl
  | resent some => exact n.again some rfl (by decide)

lemma Numbered.refused (some : c.currentCommand.text ≠ "") (r : Refused c u) :
    u.Numbered ∧ (u.Accounted ↔ c.Accounted) := by
  obtain ⟨n', same⟩ : c.refuse.Numbered ∧ (c.refuse.Accounted ↔ c.Accounted) :=
    n.same ⟨n.queued, n.fewer, n.current⟩ Iff.rfl
  cases r with
  | again =>
    obtain ⟨done, kept⟩ := n'.again some rfl (show Origin.retry ≠ .first by decide)
    exact ⟨done, kept.trans same⟩
  | last => exact ⟨n', same⟩

lemma Numbered.send (command : AtCommand) :
    ({ c with passed := c.passed ++ [track command c.passed.length] }.send (track command c.passed.length)).Numbered ∧
    (({ c with passed := c.passed ++ [track command c.passed.length] }.send
      (track command c.passed.length)).Accounted ↔ c.Accounted ∧ c.Orderly (.send command)) := by
  generalize hk : track command c.passed.length = k
  have serial : k.serial = c.passed.length := by
    rw [← hk]
    rfl
  have fewer := n.fewer
  have old : ∀ k' ∈ c.queue.toList, k'.serial < c.passed.length + 1 :=
    fun k' mem => Nat.lt_succ_of_lt (n.queued k' mem)
  have grown : (c.passed ++ [k]).length = c.passed.length + 1 := by
    rw [List.length_append]
    rfl
  unfold AtClient.send
  split
  case isTrue some =>
    -- behind the current command
    have orderly : c.Orderly (.send command) ↔ c.queue.toList.length < 10 := by
      rw [Orderly, if_pos some]
    have queue := c.queue.enqueue_toList k
    have n' : { c with passed := c.passed ++ [k], queue := (c.queue.enqueue k).1 }.Numbered := by
      refine ⟨?_, ?_, n.current⟩
      · simp only [queue, grown]
        split
        · exact forall_mem_append.mpr ⟨old, forall_mem_singleton.mpr (serial ▸ Nat.lt_succ_self _)⟩
        · exact old
      · show c.started.length + _ ≤ _
        simp only [queue, grown]
        split
        · rw [List.length_append]
          simp only [length_cons, length_nil]
          omega
        · omega
    refine ⟨n', ?_⟩
    rw [n'.accounted_iff, n.accounted_iff, orderly]
    show c.started ++ (c.queue.enqueue k).1.toList = c.passed ++ [k] ↔ _
    rw [queue]
    split
    case isTrue room =>
      rw [← List.append_assoc, List.append_left_inj]
      exact (and_iff_left room).symm
    case isFalse full =>
      constructor
      · intro order
        have := congrArg List.length order
        rw [List.length_append, grown] at this
        omega
      · intro both
        exact absurd both.2 full
  case isFalse none =>
    -- directly: a command that waits in the queue is overtaken
    have orderly : c.Orderly (.send command) ↔ c.queue.toList = [] := by
      rw [Orderly, if_neg none]
    have started : ({ c with passed := c.passed ++ [k] }.sendDirect k .first).started = c.started ++ [k] := by
      rw [started_sendDirect, if_pos rfl]
      rfl
    have n' : ({ c with passed := c.passed ++ [k] }.sendDirect k .first).Numbered := by
      refine ⟨fun k' mem => grown ▸ old k' mem, ?_, fun _ => ?_⟩
      · rw [started, List.length_append]
        show c.started.length + 1 + c.queue.toList.length ≤ (c.passed ++ [k]).length
        omega
      · rw [started, getLast?_append]
        rfl
    refine ⟨n', ?_⟩
    rw [n'.accounted_iff, n.accounted_iff, orderly, started]
    show c.started ++ [k] ++ c.queue.toList = c.passed ++ [k] ↔ _
    constructor
    · intro order
      -- a last element that waited was passed before
      have empty : c.queue.toList = [] := by
        by_contra waiting
        have last := congrArg getLast? order
        rw [getLast?_append_of_ne_nil _ waiting, getLast?_append] at last
        have mem : k ∈ c.queue.toList := mem_of_getLast? last
        have := n.queued k mem
        omega
      rw [empty, append_nil, List.append_left_inj] at order
      rw [empty, append_nil]
      exact ⟨order, rfl⟩
    · intro both
      obtain ⟨order, empty⟩ := both
      rw [empty, append_nil] at order ⊢
      rw [order]

lemma Numbered.step (st : c.step e = some u) : u.Numbered ∧ (u.Accounted ↔ c.Accounted ∧ c.Orderly e) := by
  cases step_moves st with
  | quiet _ orderly q =>
    obtain ⟨done, same⟩ := q.keeps Numbered.quiet n
    exact ⟨done, same.trans (and_iff_left orderly).symm⟩
  | refused yes orderly r q =>
    obtain ⟨n', kept⟩ := n.refused yes.text_ne r
    obtain ⟨done, same⟩ := q.keeps Numbered.quiet n'
    exact ⟨done, (same.trans kept).trans (and_iff_left orderly).symm⟩
  | @sent command => exact n.send command

end

lemma numbered {es : List Event} (r : Run step Always new es c) : c.Numbered :=
  r.invariant ⟨nofun, Nat.le_refl 0, absurd rfl⟩ fun n _ st => (n.step st).1

/-- The commands of a run started and queued are those passed to `send()`, in order, exactly if each was passed while
the queue had room behind a current command, or with neither a current nor a queued one. -/
theorem at_commands_accounted_iff {es : List Event} (r : Run step Always new es c) :
    c.Accounted ↔ Run step Orderly new es c := by
  apply @Run.iff_guarded _ _ step Orderly Always Accounted new es c r
  · refine ⟨rfl, ?_⟩
    intro some
    exact absurd rfl some
  · intro es t e u r _ st
    exact ((numbered r).step st).2

theorem at_commands_accounted_iff_two :
    ∃ c, Run step Always new [.send { text := "A\r" }, .send { text := "B\r" }, .received '\n' ['O', 'K', '\n']] c ∧
      c.started.map Tracked.serial = [0, 1] ∧ (c.Accounted ↔ Run step Orderly new
        [.send { text := "A\r" }, .send { text := "B\r" }, .received '\n' ['O', 'K', '\n']] c) :=
  exists_run (fun c => c.started.map Tracked.serial = [0, 1]) (by decide +kernel)
    fun _ run serials => ⟨serials, at_commands_accounted_iff run⟩

/-- Twelve commands without a reply: ten wait behind the first one, the last one is dropped. -/
theorem at_command_dropped : ¬ ∀ es c, Run step Always new es c → c.Accounted := by
  intro all
  have order : ∀ es c, Run step Always new es c → c.started ++ c.queue.toList = c.passed :=
    fun es c r => (all es c r).order
  exact not_forall_run (List.replicate 12 (.send { text := "A\r" })) (by decide +kernel) order

end AtClient

end Sming
