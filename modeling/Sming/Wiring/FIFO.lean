import Sming.Lib.Ring
import Sming.Lib.Run

/-!
# The circular queues `FIFO` and `ObjectQueue`

Embedding of `Sming/Wiring/FIFO.h` and `Sming/SmingCore/Data/ObjectQueue.h`. A `FIFO` is the array
with its three counters as the source has them; nothing keeps a caller from dequeuing an empty one.
`ObjectQueue` guards `peek` and `dequeue` with `count()`, so its counters never leave the range that
`FIFO.Valid` describes, and the structure carries that as a field.
-/

namespace Sming.Wiring
open Sming.Lib List

/-- The queue of `FIFO.h`: `rawSize` cells and the counters. -/
structure FIFO (T : Type) (rawSize : Nat) where
  numberOfElements : Int
  nextIn : Nat
  nextOut : Nat
  raw : List T
  deriving Repr, DecidableEq

namespace FIFO

variable {T : Type} {rawSize : Nat} (q : FIFO T rawSize)

/-- The signed counter, read as an `unsigned int`. -/
def count : Nat := (q.numberOfElements % 2 ^ 32).toNat

def enqueue (element : T) : FIFO T rawSize × Bool :=
  if rawSize ≤ q.count then (q, false)
  else
    ({ q with
        numberOfElements := q.numberOfElements + 1
        raw := q.raw.set q.nextIn element
        nextIn := if rawSize ≤ q.nextIn + 1 then 0 else q.nextIn + 1 }, true)

/-- Take the element at `nextOut`, whether or not there is one. -/
def dequeue : Option T × FIFO T rawSize :=
  (q.raw[q.nextOut]?,
    { q with
      numberOfElements := q.numberOfElements - 1
      nextOut := if rawSize ≤ q.nextOut + 1 then 0 else q.nextOut + 1 })

def peek : Option T := q.raw[q.nextOut]?

def flush : FIFO T rawSize :=
  { q with nextIn := 0, nextOut := 0, numberOfElements := 0 }

/-- The content of the queue, oldest element first. -/
def toList : List T := window q.raw q.nextOut q.numberOfElements.toNat

/-- The range of the counters of a queue that was never dequeued while empty. -/
structure Valid (q : FIFO T rawSize) : Prop where
  size : q.raw.length = rawSize
  pos : 0 < rawSize
  bound : rawSize < 2 ^ 31
  lower : 0 ≤ q.numberOfElements
  upper : q.numberOfElements ≤ rawSize
  out : q.nextOut < rawSize
  next : q.nextIn = (q.nextOut + q.numberOfElements.toNat) % rawSize

variable {q : FIFO T rawSize}

section
variable (v : q.Valid)
include v

lemma Valid.length_toList : q.toList.length = q.numberOfElements.toNat := by
  apply length_window
  have := v.size
  have := v.upper
  omega

lemma Valid.count_eq : q.count = q.toList.length := by
  rw [v.length_toList, count]
  have := v.lower
  have := v.upper
  have := v.bound
  congr 1
  exact Int.emod_eq_of_lt v.lower (by omega)

lemma Valid.ne_nil (h : q.count ≠ 0) : q.toList ≠ [] := by
  intro e
  rw [v.count_eq, e] at h
  exact h rfl

lemma Valid.length_le : q.toList.length ≤ rawSize := by
  rw [v.length_toList]
  have := v.upper
  omega

lemma Valid.enqueue (x : T) : (q.enqueue x).1.Valid := by
  unfold FIFO.enqueue
  split
  · exact v
  case isFalse room =>
    rw [v.count_eq, v.length_toList] at room
    obtain ⟨size, pos, bound, lower, upper, out, next⟩ := v
    refine ⟨by simpa using size, pos, bound, ?_, ?_, out, ?_⟩
    · simp only
      omega
    · simp only
      omega
    · have hin : q.nextIn < rawSize := next ▸ Nat.mod_lt _ pos
      simp only
      rw [wrap_succ hin, next, Nat.mod_add_mod]
      congr 1
      omega

lemma Valid.enqueue_spec (x : T) :
    (q.enqueue x).1.toList = (if q.toList.length < rawSize then q.toList ++ [x] else q.toList) ∧
      (q.enqueue x).2 = decide (q.toList.length < rawSize) := by
  unfold FIFO.enqueue
  rw [v.count_eq]
  split
  case isTrue full =>
    have h : ¬ q.toList.length < rawSize := by omega
    simp [h]
  case isFalse room =>
    have h : q.toList.length < rawSize := by omega
    rw [if_pos h, decide_eq_true h]
    refine ⟨?_, rfl⟩
    -- the element is stored in the cell behind the content
    rw [v.length_toList] at h
    have e : (q.numberOfElements + 1).toNat = q.numberOfElements.toNat + 1 := by
      have := v.lower
      omega
    have fits : q.numberOfElements.toNat < q.raw.length := by
      have := v.size
      omega
    simp only [toList, e, v.next]
    have pushed := @window_push _ q.raw q.nextOut _ x fits
    rwa [v.size] at pushed

lemma Valid.dequeue (h : q.toList ≠ []) : q.dequeue.2.Valid := by
  have hpos : 0 < q.toList.length := length_pos_of_ne_nil h
  rw [v.length_toList] at hpos
  obtain ⟨size, pos, bound, lower, upper, out, next⟩ := v
  refine ⟨size, pos, bound, ?_, ?_, ?_, ?_⟩
  · simp only [FIFO.dequeue]
    omega
  · simp only [FIFO.dequeue]
    omega
  · simp only [FIFO.dequeue]
    split <;> omega
  · simp only [FIFO.dequeue]
    rw [wrap_succ out, Nat.mod_add_mod, next]
    congr 1
    omega

lemma Valid.dequeue_spec (h : q.toList ≠ []) :
    ∃ x, q.toList = x :: q.dequeue.2.toList ∧ q.dequeue.1 = some x ∧ q.peek = some x := by
  have hpos : 0 < q.toList.length := length_pos_of_ne_nil h
  rw [v.length_toList] at hpos
  have out : q.nextOut < q.raw.length := by
    have := v.size
    have := v.out
    omega
  refine ⟨q.raw[q.nextOut], ?_, ?_, ?_⟩
  · have e : q.numberOfElements.toNat = (q.numberOfElements - 1).toNat + 1 := by omega
    have hlt : (q.numberOfElements - 1).toNat < q.raw.length := by
      have := v.size
      have := v.upper
      omega
    simp only [toList, FIFO.dequeue]
    rw [e, window_pop hlt out, wrap_succ v.out, v.size]
  · simp [FIFO.dequeue, out]
  · simp [FIFO.peek, out]

end

end FIFO

structure ObjectQueue (T : Type) (rawSize : Nat) extends FIFO T rawSize where
  valid : toFIFO.Valid

namespace ObjectQueue

variable {T : Type} {rawSize : Nat}

/-- A queue as it is constructed; the cells hold anything. -/
def new (pos : 0 < rawSize) (bound : rawSize < 2 ^ 31) (cell : T) : ObjectQueue T rawSize where
  numberOfElements := 0
  nextIn := 0
  nextOut := 0
  raw := List.replicate rawSize cell
  valid := ⟨List.length_replicate, pos, bound, Int.le_refl 0, Int.natCast_nonneg _, pos,
    (Nat.mod_eq_of_lt pos).symm⟩

def peek (q : ObjectQueue T rawSize) : Option T :=
  if q.count ≠ 0 then q.toFIFO.peek else none

/-- Take the oldest element, or null when there is none. -/
def dequeue (q : ObjectQueue T rawSize) : Option T × ObjectQueue T rawSize :=
  if h : q.count ≠ 0 then (q.toFIFO.dequeue.1, ⟨q.toFIFO.dequeue.2, q.valid.dequeue (q.valid.ne_nil h)⟩)
  else (none, q)

def enqueue (q : ObjectQueue T rawSize) (element : T) : ObjectQueue T rawSize × Bool :=
  (⟨(q.toFIFO.enqueue element).1, q.valid.enqueue element⟩, (q.toFIFO.enqueue element).2)

section
variable (q : ObjectQueue T rawSize)

@[simp] lemma count_eq : q.count = q.toList.length := q.valid.count_eq

lemma length_le : q.toList.length ≤ rawSize := q.valid.length_le

@[simp] lemma enqueue_toList (x : T) :
    (q.enqueue x).1.toList = if q.toList.length < rawSize then q.toList ++ [x] else q.toList :=
  (q.valid.enqueue_spec x).1

lemma enqueue_toList_take (x : T) : (q.enqueue x).1.toList = (q.toList ++ [x]).take rawSize := by
  rw [enqueue_toList]
  split
  case isTrue room =>
    rw [take_of_length_le]
    rw [List.length_append]
    exact room
  case isFalse full =>
    rw [take_append_of_le_length (Nat.le_of_not_lt full), take_of_length_le q.length_le]

@[simp] lemma enqueue_ok (x : T) : (q.enqueue x).2 = decide (q.toList.length < rawSize) :=
  (q.valid.enqueue_spec x).2

@[simp] lemma peek_eq : q.peek = q.toList.head? := by
  unfold peek
  by_cases h : q.toList = []
  · simp [h]
  · obtain ⟨x, e, _, pk⟩ := q.valid.dequeue_spec h
    rw [count_eq, e, pk]
    simp

@[simp] lemma dequeue_fst : q.dequeue.1 = q.toList.head? := by
  unfold dequeue
  split
  case isTrue h =>
    obtain ⟨x, e, dq, _⟩ := q.valid.dequeue_spec (q.valid.ne_nil h)
    rw [dq, e]
    rfl
  case isFalse h =>
    have e : q.toList = [] := by simpa using h
    rw [e]
    rfl

@[simp] lemma dequeue_toList : q.dequeue.2.toList = q.toList.tail := by
  unfold dequeue
  split
  case isTrue h =>
    obtain ⟨x, e, _, _⟩ := q.valid.dequeue_spec (q.valid.ne_nil h)
    rw [e]
    rfl
  case isFalse h =>
    have e : q.toList = [] := by simpa using h
    rw [e]
    rfl

end

end ObjectQueue

/-! ### A queue without the guard -/

variable {T : Type} {rawSize : Nat}

inductive FifoEvent (T : Type)
  | enqueue (element : T)
  | dequeue
  | flush

/-- A `FIFO`, and the queue it stands for. -/
def FIFO.step (s : FIFO T rawSize × List T) : FifoEvent T → Option (FIFO T rawSize × List T)
  | .enqueue x => some ((s.1.enqueue x).1, (s.2 ++ [x]).take rawSize)
  | .dequeue => some (s.1.dequeue.2, s.2.tail)
  | .flush => some (s.1.flush, [])

def FIFO.serves (s : FIFO T rawSize × List T) : FifoEvent T → Bool
  | .dequeue => !s.2.isEmpty
  | _ => true

lemma FIFO.Valid.step_iff {s u : FIFO T rawSize × List T} {e : FifoEvent T} (h : s.1.Valid ∧ s.1.toList = s.2)
    (st : step s e = some u) : u.1.Valid ∧ u.1.toList = u.2 ↔ serves s e := by
  obtain ⟨q, l⟩ := s
  dsimp only at h
  obtain ⟨v, rfl⟩ := h
  cases e with
  | enqueue x =>
    cases st
    exact iff_of_true ⟨v.enqueue x, ObjectQueue.enqueue_toList_take ⟨q, v⟩ x⟩ rfl
  | dequeue =>
    cases st
    rw [serves, Bool.not_eq_true', isEmpty_eq_false_iff]
    refine ⟨fun after empty => ?_, fun ne => ⟨v.dequeue ne, ?_⟩⟩
    · have len := congrArg length empty
      have lower := after.1.lower
      simp only [FIFO.dequeue, v.length_toList, length_nil] at len lower
      omega
    · obtain ⟨x, e, _⟩ := v.dequeue_spec ne
      rw [e]
      rfl
  | flush =>
    cases st
    exact iff_of_true ⟨⟨v.size, v.pos, v.bound, Int.le_refl 0, Int.natCast_nonneg _, v.pos,
      (Nat.mod_eq_of_lt v.pos).symm⟩, rfl⟩ rfl

/-- A `FIFO` is the queue it stands for all along a run exactly if it is never dequeued while empty. -/
theorem fifo_queue_iff {q : FIFO T rawSize} (v : q.Valid) {es s} (run : Run FIFO.step Always (q, q.toList) es s) :
    (∀ es' t, es' <+: es → Run FIFO.step Always (q, q.toList) es' t → t.1.Valid ∧ t.1.toList = t.2) ↔
      Run FIFO.step (FIFO.serves · ·) (q, q.toList) es s := by
  refine run.forall_prefix_iff_guarded ⟨v, rfl⟩ fun guarded _ st => ?_
  exact FIFO.Valid.step_iff (guarded.invariant ⟨v, rfl⟩ fun h ok st => (FIFO.Valid.step_iff h st).mpr ok) st

theorem fifo_queue_iff_two : let q : ObjectQueue Nat 2 := .new (by decide) (by decide) 0
    ∃ s, Run FIFO.step (FIFO.serves · ·) (q.toFIFO, q.toList) [.enqueue 1, .dequeue] s ∧ s.1.toList = s.2 :=
  exists_run (·.2 = []) (by decide) fun _ run _ =>
    ((fifo_queue_iff (ObjectQueue.valid _) run.always).mpr run _ _ prefix_rfl run.always).2

end Sming.Wiring
