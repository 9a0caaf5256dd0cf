import Sming.Data.CircularBuffer
import Sming.Lib.Run
import Mathlib.Algebra.Group.Nat.Defs

/-!
# The circular buffer as a queue

What `CircularBuffer` is for: a queue of bytes with one place less than it has cells. `Fifo.apply` is that
queue over a list, `CircularBuffer.apply` the functions of the buffer, and `Twin` runs both side by
side on one list of operations, with all they answered.
-/

namespace Sming.Data
open Sming.Lib List

inductive FifoOp (α : Type) where
  | writeByte (charToWrite : α)
  | write (data : List α)
  | readMemoryBlock (bufSize : Nat)
  | seek (len : Nat)
  | flush
  deriving DecidableEq

/-- What an operation answers. A read answers with the data it copied and with their number. -/
inductive FifoAnswer (α : Type) where
  | written (count : Nat)
  | read (data : List α) (count : Nat)
  | moved (success : Bool)
  | flushed
  deriving DecidableEq

/-- The queue: a list with the oldest element first, of at most `capacity` elements. -/
def Fifo.apply {α : Type} (capacity : Nat) (queue : List α) : FifoOp α → List α × FifoAnswer α
  | .writeByte charToWrite =>
    let fits := [charToWrite].take (capacity - queue.length)
    (queue ++ fits, .written fits.length)
  | .write data =>
    let fits := data.take (capacity - queue.length)
    (queue ++ fits, .written fits.length)
  | .readMemoryBlock bufSize => (queue, .read (queue.take bufSize) (queue.take bufSize).length)
  | .seek len => if len ≤ queue.length then (queue.drop len, .moved true) else ([], .moved false)
  | .flush => ([], .flushed)

def CircularBuffer.apply (c : CircularBuffer) : FifoOp UInt8 → CircularBuffer × FifoAnswer UInt8
  | .writeByte charToWrite =>
    let r := c.writeByte charToWrite
    (r.1, .written r.2)
  | .write data =>
    let r := c.write data
    (r.1, .written r.2)
  | .readMemoryBlock bufSize => (c, .read (c.readMemoryBlock bufSize) (c.sizeRead bufSize).toNat)
  | .seek len =>
    let r := c.seek len
    (r.1, .moved r.2)
  | .flush => (c.flush, .flushed)

structure Twin where
  buffer : CircularBuffer
  queue : List UInt8
  answers : List (FifoAnswer UInt8)
  expected : List (FifoAnswer UInt8)
  deriving DecidableEq

namespace Twin

def new (size : Nat) : Twin :=
  { buffer := .new size, queue := [], answers := [], expected := [] }

def step (size : Nat) (t : Twin) (op : FifoOp UInt8) : Option Twin :=
  let b := t.buffer.apply op
  let q := Fifo.apply (size - 1) t.queue op
  some
    { buffer := b.1
      queue := q.1
      answers := t.answers ++ [b.2]
      expected := t.expected ++ [q.2] }

def Countable (t : Twin) : FifoOp UInt8 → Prop
  | .readMemoryBlock bufSize => min bufSize t.buffer.available < 2 ^ 16
  | _ => True

instance (t : Twin) (op : FifoOp UInt8) : Decidable (t.Countable op) := by
  cases op <;> unfold Countable <;> infer_instance

structure Agree (size : Nat) (t : Twin) : Prop where
  valid : t.buffer.Valid
  size_eq : t.buffer.size = size
  content : t.buffer.toList = t.queue

variable {size : Nat} {t u : Twin} {op : FifoOp UInt8}

lemma new_agree (pos : 1 ≤ size) : Agree size (new size) where
  valid := CircularBuffer.new_valid pos
  size_eq := by simp [new, CircularBuffer.new, CircularBuffer.size]
  content := by simp [new, CircularBuffer.new, CircularBuffer.toList]

lemma Agree.room (a : Agree size t) : t.buffer.room = size - 1 - t.queue.length := by
  rw [a.valid.room_eq, a.size_eq, a.content]

lemma Agree.write (a : Agree size t) (data : List UInt8) :
    (t.buffer.write data).1.Valid ∧ (t.buffer.write data).1.size = size ∧
      (t.buffer.write data).1.toList = t.queue ++ data.take (size - 1 - t.queue.length) ∧
      (t.buffer.write data).2 = (data.take (size - 1 - t.queue.length)).length := by
  obtain ⟨valid, same, content⟩ := a.valid.write_spec data
  refine ⟨valid, ?_, ?_, ?_⟩
  · rw [same, a.size_eq]
  · rw [content, a.content, a.room]
  · rw [CircularBuffer.write_snd, a.room, length_take, Nat.min_comm]

lemma Agree.readMemoryBlock (a : Agree size t) (bufSize : Nat) :
    t.buffer.readMemoryBlock bufSize = t.queue.take bufSize ∧
      (t.buffer.sizeRead bufSize).toNat = (t.queue.take bufSize).length % 2 ^ 16 := by
  constructor
  · rw [a.valid.readMemoryBlock_eq, a.content]
  · rw [CircularBuffer.sizeRead, ← a.valid.length_toList, a.content, length_take]
    rfl

lemma Agree.apply (a : Agree size t) (op : FifoOp UInt8) :
    (t.buffer.apply op).1.Valid ∧ (t.buffer.apply op).1.size = size ∧
      (t.buffer.apply op).1.toList = (Fifo.apply (size - 1) t.queue op).1 ∧
      ((t.buffer.apply op).2 = (Fifo.apply (size - 1) t.queue op).2 ↔ t.Countable op) := by
  cases op with
  | writeByte charToWrite =>
    obtain ⟨valid, same, content, count⟩ := a.write [charToWrite]
    simp only [CircularBuffer.apply, a.valid.writeByte_eq]
    exact ⟨valid, same, content, fun _ => trivial, fun _ => congrArg FifoAnswer.written count⟩
  | write data =>
    obtain ⟨valid, same, content, count⟩ := a.write data
    exact ⟨valid, same, content, fun _ => trivial, fun _ => congrArg FifoAnswer.written count⟩
  | readMemoryBlock bufSize =>
    obtain ⟨data, count⟩ := a.readMemoryBlock bufSize
    refine ⟨a.valid, a.size_eq, a.content, ?_⟩
    simp only [CircularBuffer.apply, Fifo.apply, Countable]
    rw [data, count, FifoAnswer.read.injEq, ← a.valid.length_toList, a.content, ← length_take]
    simp only [true_and]
    constructor
    · intro same
      rw [← same]
      exact Nat.mod_lt _ (by decide)
    · intro less
      exact Nat.mod_eq_of_lt less
  | seek len =>
    simp only [CircularBuffer.apply, Fifo.apply]
    by_cases h : len ≤ t.queue.length
    · have le : len ≤ t.buffer.toList.length := by
        rw [a.content]
        exact h
      obtain ⟨valid, content, same⟩ := a.valid.seek le
      rw [if_pos h, ← a.content]
      exact ⟨valid, same.trans a.size_eq, content, fun _ => trivial,
        fun _ => congrArg FifoAnswer.moved (a.valid.seek_snd le)⟩
    · have beyond : t.buffer.toList.length < len := by
        rw [a.content]
        exact Nat.lt_of_not_le h
      rw [if_neg h, a.valid.seek_beyond beyond]
      exact ⟨⟨Nat.zero_le _, Nat.zero_lt_of_lt a.valid.write⟩, a.size_eq,
        CircularBuffer.flush_toList, fun _ => trivial, fun _ => rfl⟩
  | flush =>
    exact ⟨⟨Nat.zero_le _, Nat.zero_lt_of_lt a.valid.write⟩, a.size_eq,
      CircularBuffer.flush_toList, fun _ => trivial, fun _ => rfl⟩

lemma Agree.step (a : Agree size t) (st : step size t op = some u) : Agree size u := by
  obtain ⟨valid, same, content, -⟩ := a.apply op
  cases st
  exact ⟨valid, same, content⟩

lemma agree_of_run {ok : Twin → FifoOp UInt8 → Prop} {ops : List (FifoOp UInt8)} (pos : 1 ≤ size)
    (r : Run (step size) ok (new size) ops t) : Agree size t :=
  r.invariant (new_agree pos) fun a _ st => a.step st

lemma Agree.answers_iff (a : Agree size t) (st : Twin.step size t op = some u) :
    u.answers = u.expected ↔ t.answers = t.expected ∧ t.Countable op := by
  obtain ⟨-, -, -, answer⟩ := a.apply op
  cases st
  rw [← answer]
  constructor
  · intro same
    obtain ⟨init, last⟩ := append_inj' same rfl
    exact ⟨init, List.singleton_inj.mp last⟩
  · rintro ⟨init, last⟩
    exact congrArg₂ (· ++ [·]) init last

/-- After any operations buffer and queue hold and have answered the same, and the room is the rest of the capacity,
unless a read handed over more bytes than 16 bits count. -/
theorem circularBuffer_fifo_iff (pos : 1 ≤ size) {ops : List (FifoOp UInt8)}
    (r : Run (step size) Always (new size) ops t) :
    t.buffer.toList = t.queue ∧ t.buffer.available + t.buffer.room = size - 1 ∧
      (t.answers = t.expected ↔ Run (step size) Countable (new size) ops t) := by
  have a := agree_of_run pos r
  refine ⟨a.content, ?_, ?_⟩
  · have less := a.valid.available_lt
    rw [a.size_eq] at less
    rw [a.room, ← a.content, a.valid.length_toList]
    omega
  · apply r.iff_guarded
    · rfl
    · intro es t e u r _ st
      exact (agree_of_run pos r).answers_iff st

/-- A buffer with three cells: two of three bytes fit, a byte is dropped, the next one goes to the first cell. -/
theorem circularBuffer_fifo_wraps :
    ∃ t, exec (step 3) Always (new 3)
        [.write [1, 2, 3], .seek 1, .writeByte 4, .readMemoryBlock 5, .seek 9, .flush] = some t ∧
      t.answers = t.expected := by
  obtain ⟨t, run, guarded⟩ : ∃ t, exec (step 3) Always (new 3)
        [.write [1, 2, 3], .seek 1, .writeByte 4, .readMemoryBlock 5, .seek 9, .flush] = some t ∧
      exec (step 3) Countable (new 3)
        [.write [1, 2, 3], .seek 1, .writeByte 4, .readMemoryBlock 5, .seek 9, .flush] = some t :=
    exists_exec (by decide)
  have fifo := circularBuffer_fifo_iff (by decide) (exec_run run)
  exact ⟨t, run, fifo.2.2.mpr (exec_run guarded)⟩

lemma exists_miscount {n : Nat} (many : 2 ^ 16 ≤ n) :
    ∃ ops t, Run (step (n + 1)) Always (new (n + 1)) ops t ∧ t.answers ≠ t.expected := by
  have filled : Run (step (n + 1)) Always (new (n + 1)) ([] ++ [.write (List.replicate n 0)]) _ :=
    .snoc .nil trivial rfl
  have a := agree_of_run (Nat.le_add_left 1 n) filled
  refine ⟨_, _, .snoc (e := .readMemoryBlock n) filled trivial rfl, fun same => ?_⟩
  obtain ⟨-, less⟩ := (a.answers_iff rfl).mp same
  unfold Countable at less
  rw [← a.valid.length_toList, a.content] at less
  simp [Fifo.apply, new] at less
  omega

/-- A buffer with 65537 cells: the read of 65536 bytes answers 0. -/
theorem circularBuffer_fifo_miscounts :
    ¬ ∀ size, 1 ≤ size → ∀ ops t, Run (step size) Always (new size) ops t →
      t.buffer.toList = t.queue ∧ t.buffer.available + t.buffer.room = size - 1 ∧
        t.answers = t.expected := by
  intro all
  obtain ⟨ops, t, r, differ⟩ := exists_miscount (Nat.le_refl (2 ^ 16))
  exact differ (all (2 ^ 16 + 1) (by decide) ops t r).2.2

end Twin

end Sming.Data
