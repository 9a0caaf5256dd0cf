import Sming.Data.MultiStream
import Sming.Wiring.FIFO

/-!
# The stream chain

Embedding of `Sming/SmingCore/Data/Stream/StreamChain.h`: a `MultiStream` whose streams wait in a queue.
`Chaining` adds what its user knows: the contents of all attached streams, all bytes that were consumed,
and of the last read those that were not consumed yet.

The base class sets `finished` when a read finds the queue empty and never takes it back. A stream that
is attached later is delivered all the same, but `isFinished()` stays true while it waits in the queue.
-/

namespace Sming.Data
open Sming.Lib Sming.Wiring List MemoryDataStream

def maxStreamChainSize : Nat := 10

abbrev StreamChain (X : Type) := MultiStream X (ObjectQueue X maxStreamChainSize)

instance (X : Type) : MultiStream.Subclass X (ObjectQueue X maxStreamChainSize) where
  getNextStream queue := queue.dequeue
  onCompleted queue := (none, queue)
  onNextStream next queue := (next, none, queue)

namespace StreamChain

variable {X : Type}

/-- A chain as it is constructed; `cell` is what the cells of the queue hold. -/
def new (cell : X) : StreamChain X where
  own := .new (by decide) (by decide) cell

def attachStream (c : StreamChain X) (stream : X) : StreamChain X × Bool :=
  let r := c.own.enqueue stream
  ({ c with own := r.1 }, r.2)

def waiting (rest : X → List UInt8) (queue : ObjectQueue X maxStreamChainSize) : List UInt8 :=
  queue.toList.flatMap rest

lemma dequeue_spec {queue queue' : ObjectQueue X maxStreamChainSize} {next : Option X}
    (h : MultiStream.Subclass.getNextStream queue = (next, queue')) :
    queue.toList = next.toList ++ queue'.toList := by
  have head : next = queue.toList.head? := by
    rw [← ObjectQueue.dequeue_fst]
    exact (congrArg Prod.fst h).symm
  have tail : queue'.toList = queue.toList.tail := by
    rw [← ObjectQueue.dequeue_toList]
    exact congrArg (·.2.toList) h.symm
  rw [head, tail]
  cases queue.toList <;> rfl

end StreamChain

/-- A chain with its user. -/
structure Chaining (X : Type) where
  chain : StreamChain X
  attached : List UInt8 := []
  consumed : List UInt8 := []
  /-- The bytes of the last read that were not consumed. -/
  held : List UInt8 := []

namespace Chaining
open StreamChain

variable {X : Type}

inductive Event (X : Type) where
  | attachStream (stream : X)
  | readMemoryBlock (bufSize : Nat)
  | seek (len : Nat)

def start (cell : X) : Chaining X := { chain := .new cell }

def remaining (rest : X → List UInt8) (t : Chaining X) : List UInt8 := t.chain.remaining rest (waiting rest)

def Sound (WF : X → Prop) (_ : Chaining X) : Event X → Prop
  | .attachStream x => WF x
  | _ => True

/-- A stream is attached before a read has found the queue empty, unless it has nothing to deliver. -/
def InTime (WF : X → Prop) (rest : X → List UInt8) (t : Chaining X) : Event X → Prop
  | .attachStream x => WF x ∧ (t.chain.finished = false ∨ rest x = [])
  | _ => True

instance (WF : X → Prop) [DecidablePred WF] (t : Chaining X) (e : Event X) : Decidable (Sound WF t e) := by
  cases e <;> unfold Sound <;> infer_instance

instance (WF : X → Prop) [DecidablePred WF] (rest : X → List UInt8) (t : Chaining X) (e : Event X) :
    Decidable (InTime WF rest t e) := by
  cases e <;> unfold InTime <;> infer_instance

structure Inv (WF : X → Prop) (rest : X → List UInt8) (shown : X → Nat) (t : Chaining X) : Prop where
  holds : t.chain.Holds WF rest shown t.held
  next : t.chain.nextStream = none
  queued : ∀ x ∈ t.chain.own.toList, WF x
  order : t.consumed ++ t.remaining rest = t.attached
  ended : t.chain.finished = true → t.remaining rest = []

variable {WF : X → Prop} {rest : X → List UInt8} {shown : X → Nat} {t u : Chaining X}

lemma InTime.sound {e : Event X} (h : InTime WF rest t e) : Sound WF t e := by
  cases e with
  | attachStream x => exact h.1
  | _ => trivial

lemma start_inv (cell : X) : Inv WF rest shown (start cell) := by
  have empty : (start cell).chain.own.toList = [] := rfl
  refine ⟨⟨?_, nil_prefix, ?_⟩, rfl, ?_, rfl, fun _ => rfl⟩
  · rintro _ ⟨⟩
  · rintro _ ⟨⟩
  · rw [empty]
    exact forall_mem_nil _

variable [IDataSourceStream X]

/-- One call. The queue has room for what is attached, and the user moves by at most what it has read. -/
def step (rest : X → List UInt8) (t : Chaining X) : Event X → Option (Chaining X)
  | .attachStream x =>
    let r := attachStream t.chain x
    if r.2 then some { t with chain := r.1, attached := t.attached ++ rest x } else none
  | .readMemoryBlock bufSize =>
    let r := t.chain.readMemoryBlock bufSize
    some { t with chain := r.2, held := r.1 }
  | .seek len =>
    if len ≤ t.held.length then
      some { t with
        chain := (t.chain.seek len).1
        consumed := t.consumed ++ t.held.take len
        held := t.held.drop len }
    else none

/-- What was consumed and what remains are the contents attached, in their order, and the chain is
finished only when nothing remains. -/
def InOrder (rest : X → List UInt8) (t : Chaining X) : Prop :=
  t.consumed ++ t.remaining rest = t.attached ∧ (t.chain.isFinished = true → t.remaining rest = [])

instance (rest : X → List UInt8) (t : Chaining X) : Decidable (t.InOrder rest) :=
  inferInstanceAs (Decidable (_ ∧ _))

lemma Inv.inOrder (inv : Inv WF rest shown t) : t.InOrder rest :=
  ⟨inv.order, fun done => inv.ended (MultiStream.isFinished_iff.mp done).1⟩

lemma attachStream_spec {x : X} (st : step rest t (.attachStream x) = some u) :
    ∃ queue : ObjectQueue X maxStreamChainSize, queue.toList = t.chain.own.toList ++ [x] ∧
      u = { t with chain := { t.chain with own := queue }, attached := t.attached ++ rest x } ∧
      u.remaining rest = t.remaining rest ++ rest x := by
  simp only [step] at st
  split at st
  case isFalse => cases st
  case isTrue ok =>
    cases st
    have room : t.chain.own.toList.length < maxStreamChainSize := by
      simpa [attachStream] using ok
    have queue : (t.chain.own.enqueue x).1.toList = t.chain.own.toList ++ [x] := by
      rw [ObjectQueue.enqueue_toList, if_pos room]
    refine ⟨_, queue, rfl, ?_⟩
    have behind : waiting rest (t.chain.own.enqueue x).1 = waiting rest t.chain.own ++ rest x := by
      rw [waiting, queue, flatMap_append, flatMap_singleton]
      rfl
    simp only [remaining, MultiStream.remaining, attachStream, behind, ← List.append_assoc]
    rfl

lemma Inv.attachStream (inv : Inv WF rest shown t) {x : X} (ok : InTime WF rest t (.attachStream x))
    (st : step rest t (.attachStream x) = some u) : Inv WF rest shown u := by
  obtain ⟨queue, content, rfl, remaining⟩ := attachStream_spec st
  refine ⟨⟨inv.holds.wf, inv.holds.held_isPrefix, inv.holds.length_le⟩, inv.next, ?_, ?_, ?_⟩
  · intro y mem
    rw [content, mem_append, mem_singleton] at mem
    rcases mem with mem | rfl
    · exact inv.queued y mem
    · exact ok.1
  · rw [remaining, ← List.append_assoc, inv.order]
  · intro (ended : t.chain.finished = true)
    rcases ok.2 with early | empty
    · exact absurd (ended.symm.trans early) (by decide)
    · rw [remaining, inv.ended ended, empty]
      rfl

section
variable (src : IDataSourceStream.Stepwise X WF rest shown) (inv : Inv WF rest shown t)
include src inv

lemma Inv.attachStream_late {x : X} (late : t.chain.finished = true) (ne : rest x ≠ [])
    (st : step rest t (.attachStream x) = some u) : ¬ u.InOrder rest := by
  obtain ⟨queue, -, rfl, remaining⟩ := attachStream_spec st
  rintro ⟨-, ended⟩
  have nothing : t.chain.current rest = [] := (append_eq_nil_iff.mp (inv.ended late)).1
  have done : t.chain.isFinished = true :=
    MultiStream.isFinished_iff.mpr ⟨late, MultiStream.exhausted_of_current src inv.holds.wf nothing⟩
  have all := ended done
  rw [remaining] at all
  exact ne (append_eq_nil_iff.mp all).2

lemma Inv.advance :
    (∀ x ∈ t.chain.advance.stream, WF x) ∧ t.chain.advance.nextStream = none ∧
      (∀ x ∈ t.chain.advance.own.toList, WF x) ∧
      t.chain.advance.remaining rest (waiting rest) = t.remaining rest ∧
      (t.chain.advance.finished = true → t.remaining rest = []) := by
  have exhausted : t.chain.Exhausted → t.remaining rest = waiting rest t.chain.own := by
    intro done
    rw [remaining, MultiStream.remaining, MultiStream.current_of_exhausted src inv.holds.wf done, inv.next]
    rfl
  generalize adv : t.chain.advance = c
  have spec := adv ▸ t.chain.advance_spec
  cases spec with
  | current => exact ⟨inv.holds.wf, inv.next, inv.queued, rfl, inv.ended⟩
  | next _ some_next => exact absurd (inv.next.symm.trans some_next) (Option.some_ne_none _).symm
  | @fetched x queue done _ fetch =>
    have content : t.chain.own.toList = x :: queue.toList := dequeue_spec fetch
    refine ⟨?_, rfl, ?_, ?_, inv.ended⟩
    · rintro _ ⟨⟩
      exact inv.queued x (content ▸ mem_cons_self)
    · intro y mem
      exact inv.queued y (content ▸ mem_cons_of_mem x mem)
    · rw [exhausted done, waiting, content, flatMap_cons]
      rfl
  | @completed queue done _ fetch =>
    have content : t.chain.own.toList = queue.toList := dequeue_spec fetch
    have empty : queue.toList = [] := by
      rw [← content, ← head?_eq_none_iff, ← ObjectQueue.dequeue_fst]
      exact congrArg Prod.fst fetch
    have nothing : t.remaining rest = [] := by
      rw [exhausted done, waiting, content, empty, flatMap_nil]
    refine ⟨?_, rfl, ?_, ?_, fun _ => nothing⟩
    · rintro _ ⟨⟩
    · exact empty ▸ forall_mem_nil _
    · rw [nothing]
      exact congrArg (flatMap rest) empty

lemma Inv.readMemoryBlock {bufSize : Nat} (st : step rest t (.readMemoryBlock bufSize) = some u) :
    Inv WF rest shown u := by
  cases st
  obtain ⟨wf, next, queued, same, ended⟩ := inv.advance src
  obtain ⟨holds, -, others⟩ := MultiStream.readMemoryBlock_spec src wf bufSize
  have keep : (t.chain.readMemoryBlock bufSize).2.remaining rest (waiting rest) = t.remaining rest :=
    (MultiStream.readMemoryBlock_remaining src wf bufSize _).trans same
  refine ⟨holds, ?_, ?_, ?_, ?_⟩
  · rw [others]
    exact next
  · rw [others]
    exact queued
  · rw [remaining, keep]
    exact inv.order
  · rw [remaining, keep, others]
    exact ended

lemma Inv.seek {len : Nat} (st : step rest t (.seek len) = some u) : Inv WF rest shown u := by
  simp only [step] at st
  split at st
  case isFalse => cases st
  case isTrue le =>
    cases st
    obtain ⟨holds, -, others⟩ := inv.holds.seek src le
    have passed := inv.holds.seek_remaining src le (waiting rest)
    refine ⟨holds, ?_, ?_, ?_, ?_⟩
    · rw [others]
      exact inv.next
    · rw [others]
      exact inv.queued
    · rw [remaining, List.append_assoc, passed]
      exact inv.order
    · intro ended
      rw [others] at ended
      have nothing := inv.ended ended
      rw [remaining, ← passed] at nothing
      exact (append_eq_nil_iff.mp nothing).2

lemma Inv.step {e : Event X} (ok : InTime WF rest t e) (st : Chaining.step rest t e = some u) :
    Inv WF rest shown u := by
  cases e with
  | attachStream x => exact inv.attachStream ok st
  | readMemoryBlock bufSize => exact inv.readMemoryBlock src st
  | seek len => exact inv.seek src st

end

lemma inv_of_run (src : IDataSourceStream.Stepwise X WF rest shown) {cell : X} {es}
    (r : Run (step rest) (InTime WF rest) (start cell) es t) : Inv WF rest shown t :=
  r.invariant (start_inv cell) fun inv ok st => inv.step src ok st

/-- A chain consumes the attached contents in order and is not finished before all of them exactly if no stream with a
content is attached after a read that found the queue empty. -/
theorem streamChain_inOrder_iff (src : IDataSourceStream.Stepwise X WF rest shown) {cell : X} {es}
    (r : Run (step rest) (Sound WF) (start cell) es t) :
    (∀ es' t', es' <+: es → Run (step rest) (Sound WF) (start cell) es' t' → t'.InOrder rest) ↔
      Run (step rest) (InTime WF rest) (start cell) es t := by
  have init : Inv WF rest shown (start cell) := start_inv cell
  apply r.forall_prefix_iff_guarded init.inOrder
  intro es t e u rg sound st
  have inv := inv_of_run src rg
  constructor
  · intro kept
    cases e with
    | attachStream x =>
      refine ⟨sound, ?_⟩
      by_contra late
      rw [not_or, Bool.not_eq_false] at late
      exact inv.attachStream_late src late.1 late.2 st kept
    | _ => trivial
  · intro ok
    exact (inv.step src ok st).inOrder

theorem streamChain_inOrder_pieces :
    ∃ t, Run (step unread) (Sound MemoryDataStream.WF) (start {})
        [.attachStream (.holding [65, 66]), .readMemoryBlock 4, .seek 1, .attachStream {},
          .attachStream (.holding [67]), .seek 1, .readMemoryBlock 4, .readMemoryBlock 4, .seek 1,
          .readMemoryBlock 4] t ∧
      t.InOrder unread ∧ t.chain.isFinished = true ∧ t.consumed = [65, 66, 67] := by
  obtain ⟨t, guarded, done, all⟩ : ∃ t,
      exec (step unread) (InTime MemoryDataStream.WF unread) (start {})
        [.attachStream (.holding [65, 66]), .readMemoryBlock 4, .seek 1, .attachStream {},
          .attachStream (.holding [67]), .seek 1, .readMemoryBlock 4, .readMemoryBlock 4, .seek 1,
          .readMemoryBlock 4] = some t ∧
      t.chain.isFinished = true ∧ t.consumed = [65, 66, 67] := by
    apply exists_exec
    decide +kernel
  have run := (exec_run guarded).mono fun _ _ => InTime.sound
  have inOrder := (streamChain_inOrder_iff seekable.stepwise run).mpr
    (exec_run guarded) _ _ prefix_rfl run
  exact ⟨t, run, inOrder, done, all⟩

/-- A chain was read to its end when the next stream is attached: it claims to be finished with a byte
still to deliver. -/
theorem streamChain_finished_early :
    ¬ ∀ es t, Run (step unread) (Sound MemoryDataStream.WF) (start {}) es t →
      t.InOrder unread :=
  not_forall_run [.attachStream (.holding [65]), .readMemoryBlock 4, .seek 1, .readMemoryBlock 4,
    .attachStream (.holding [66])] (by decide +kernel)

end Chaining

end Sming.Data
