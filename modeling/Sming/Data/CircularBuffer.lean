import Mathlib.Data.List.Basic

/-!
# The circular buffer

Embedding of `Sming/SmingCore/Data/CircularBuffer.cpp`. The pointers `readPos` and `writePos` are kept
as offsets into the buffer. One cell stays free, so that equal positions mean an empty buffer. `seek`
may leave `readPos` behind the last cell; every other function treats that place as the first cell.
-/

namespace Sming.Data
open List

/-- The cells and the two positions. -/
structure CircularBuffer where
  buffer : List UInt8
  readPos : Nat
  writePos : Nat
  deriving Repr, DecidableEq

namespace CircularBuffer

/-- A buffer as it is constructed; the cells hold anything (here 0). -/
def new (size : Nat) : CircularBuffer :=
  { buffer := List.replicate size 0, readPos := 0, writePos := 0 }

variable (c : CircularBuffer)

def size : Nat := c.buffer.length

def available : Nat :=
  if c.readPos ≤ c.writePos then c.writePos - c.readPos else c.size - (c.readPos - c.writePos)

def isFinished : Bool := c.available < 1

def room : Nat :=
  if c.readPos ≤ c.writePos then c.size - (c.writePos - c.readPos) - 1
  else c.readPos - c.writePos - 1

def flush : CircularBuffer :=
  { c with readPos := 0, writePos := 0 }

def wrap (pos : Nat) : Nat :=
  if pos = c.size then 0 else pos

def copy (buffer : List UInt8) (pos : Nat) (data : List UInt8) : List UInt8 :=
  buffer.take pos ++ data ++ buffer.drop (pos + data.length)

def readMemoryBlock (bufSize : Nat) : List UInt8 :=
  let sizeToRead := min bufSize c.available
  let top := c.size - c.readPos
  if c.writePos < c.readPos ∧ top < sizeToRead then
    (c.buffer.drop c.readPos).take top ++ c.buffer.take (sizeToRead - top)
  else (c.buffer.drop c.readPos).take sizeToRead

/-- The answer of `readMemoryBlock`, the number of bytes read, has 16 bits. -/
def sizeRead (bufSize : Nat) : UInt16 := UInt16.ofNat (min bufSize c.available)

def seek (len : Nat) : CircularBuffer × Bool :=
  if c.available < len then (c.flush, false)
  else if c.readPos < c.writePos then ({ c with readPos := c.readPos + len }, true)
  else if c.size < c.readPos + len then ({ c with readPos := len - (c.size - c.readPos) }, true)
  else ({ c with readPos := c.readPos + len }, true)

/-- Append one byte if there is room for it (C++ `CircularBuffer::write(uint8_t)`). -/
def writeByte (charToWrite : UInt8) : CircularBuffer × Nat :=
  if c.room = 0 then (c, 0)
  else
    ({ c with
        buffer := c.buffer.set c.writePos charToWrite
        writePos := c.wrap (c.writePos + 1) }, 1)

/-- Append as much of the data as there is room for; the answer is its length. -/
def write (data : List UInt8) : CircularBuffer × Nat :=
  let sizeToWrite := min data.length c.room
  let top := c.size - c.writePos
  if c.readPos ≤ c.writePos ∧ top < sizeToWrite then
    ({ c with
        buffer := copy (copy c.buffer c.writePos (data.take top)) 0 ((data.take sizeToWrite).drop top)
        writePos := c.wrap (sizeToWrite - top) }, sizeToWrite)
  else
    ({ c with
        buffer := copy c.buffer c.writePos (data.take sizeToWrite)
        writePos := c.wrap (c.writePos + sizeToWrite) }, sizeToWrite)

/-- The content, oldest byte first. -/
def toList : List UInt8 :=
  if c.readPos ≤ c.writePos then (c.buffer.drop c.readPos).take (c.writePos - c.readPos)
  else c.buffer.drop c.readPos ++ c.buffer.take c.writePos

structure Valid (c : CircularBuffer) : Prop where
  read : c.readPos ≤ c.size
  write : c.writePos < c.size

variable {c : CircularBuffer}

/-- Content in one piece. -/
lemma toList_of_le (h : c.readPos ≤ c.writePos) :
    c.toList = (c.buffer.drop c.readPos).take (c.writePos - c.readPos) := by
  rw [toList, if_pos h]

/-- Content that goes around the end of the array. -/
lemma toList_of_lt (h : c.writePos < c.readPos) : c.toList = c.buffer.drop c.readPos ++ c.buffer.take c.writePos := by
  rw [toList, if_neg (Nat.not_le_of_lt h)]

lemma available_of_le (h : c.readPos ≤ c.writePos) : c.available = c.writePos - c.readPos := by
  rw [available, if_pos h]

lemma available_of_lt (h : c.writePos < c.readPos) : c.available = c.size - (c.readPos - c.writePos) := by
  rw [available, if_neg (Nat.not_le_of_lt h)]

lemma room_of_le (h : c.readPos ≤ c.writePos) : c.room = c.size - (c.writePos - c.readPos) - 1 := by
  rw [room, if_pos h]

lemma room_of_lt (h : c.writePos < c.readPos) : c.room = c.readPos - c.writePos - 1 := by
  rw [room, if_neg (Nat.not_le_of_lt h)]

variable {n pos : Nat} {buffer data : List UInt8}

/-- A new buffer with at least one cell. -/
lemma new_valid (h : 0 < n) : (new n).Valid := by
  refine ⟨Nat.zero_le _, ?_⟩
  simpa [new, size] using h

/-- What `available` counts is the content. -/
lemma Valid.length_toList (v : c.Valid) : c.toList.length = c.available := by
  obtain ⟨read, write⟩ := v
  unfold toList available size at *
  split
  · rw [length_take, length_drop]
    omega
  · rw [List.length_append, length_take, length_drop]
    omega

/-- One cell is never filled. -/
lemma Valid.room_eq (v : c.Valid) : c.room = c.size - 1 - c.toList.length := by
  rw [v.length_toList]
  obtain ⟨read, write⟩ := v
  unfold room available
  split <;> omega

lemma Valid.available_lt (v : c.Valid) : c.available < c.size := by
  obtain ⟨read, write⟩ := v
  unfold available
  split <;> omega

lemma Valid.isFinished_iff (v : c.Valid) : c.isFinished = true ↔ c.toList = [] := by
  rw [isFinished, decide_eq_true_eq, ← v.length_toList, Nat.lt_one_iff, List.length_eq_zero_iff]

/-! ### Copies into the buffer -/

/-- A copy that fills the cells up to the last one. -/
lemma copy_end (ends : pos + data.length = buffer.length) : copy buffer pos data = buffer.take pos ++ data := by
  rw [copy, ends, drop_length, append_nil]

section
variable (fits : pos + data.length ≤ buffer.length)
include fits

lemma length_copy : (copy buffer pos data).length = buffer.length := by
  unfold copy
  simp only [List.length_append, length_take, length_drop]
  omega

/-- The cells up to the end of the copied data. -/
lemma take_copy : (copy buffer pos data).take (pos + data.length) = buffer.take pos ++ data := by
  have length : (buffer.take pos ++ data).length = pos + data.length := by
    rw [List.length_append, length_take]
    omega
  rw [copy, ← length, take_left]

/-- The cells behind the copied data. -/
lemma drop_copy (h : pos + data.length ≤ n) : (copy buffer pos data).drop n = buffer.drop n := by
  obtain ⟨m, rfl⟩ := Nat.exists_eq_add_of_le h
  have length : (buffer.take pos ++ data).length = pos + data.length := by
    rw [List.length_append, length_take]
    omega
  rw [← drop_drop, copy, ← length, drop_left, drop_drop, length]

end

section
variable (v : c.Valid)
include v

/-- A read takes the first bytes of the content, also around the end of the array. -/
lemma Valid.readMemoryBlock_eq (n : Nat) : c.readMemoryBlock n = c.toList.take n := by
  obtain ⟨read, write⟩ := v
  unfold readMemoryBlock
  rcases Nat.lt_or_ge c.writePos c.readPos with lt | le
  · rw [toList_of_lt lt, available_of_lt lt, take_append, length_drop]
    unfold size at *
    by_cases wraps : c.buffer.length - c.readPos <
        min n (c.buffer.length - (c.readPos - c.writePos))
    · simp only [lt, wraps, and_self, if_true]
      congr 1
      · rw [take_eq_take_iff, length_drop]
        omega
      · rw [take_take]
        congr 1
        omega
    · simp only [wraps, and_false, if_false]
      have none : (c.buffer.take c.writePos).take (n - (c.buffer.length - c.readPos)) = [] := by
        rw [take_take, take_eq_nil_iff]
        omega
      rw [none, append_nil, take_eq_take_iff, length_drop]
      omega
  · simp only [Nat.not_lt_of_le le, false_and, if_false]
    rw [toList_of_le le, available_of_le le, take_take]

/-- A `seek` inside the content drops its first bytes. -/
lemma Valid.seek (h : n ≤ c.toList.length) :
    (c.seek n).1.Valid ∧ (c.seek n).1.toList = c.toList.drop n ∧ (c.seek n).1.size = c.size := by
  rw [v.length_toList] at h
  obtain ⟨read, write⟩ := v
  rw [CircularBuffer.seek, if_neg (Nat.not_lt_of_le h)]
  split
  case isTrue lt =>
    have le := Nat.le_of_lt lt
    rw [available_of_le le] at h
    refine ⟨⟨?_, write⟩, ?_, rfl⟩
    · change c.readPos + n ≤ c.size
      omega
    · rw [toList_of_le le, toList_of_le (by change c.readPos + n ≤ c.writePos; omega), drop_take,
        drop_drop, Nat.sub_sub]
  case isFalse ge =>
    rcases Nat.lt_or_ge c.writePos c.readPos with lt | le
    · rw [available_of_lt lt] at h
      rw [toList_of_lt lt]
      split
      case isTrue wraps =>
        have rest : n - (c.size - c.readPos) ≤ c.writePos := by omega
        refine ⟨⟨?_, write⟩, ?_, rfl⟩
        · exact Nat.le_trans rest (Nat.le_of_lt write)
        · rw [toList_of_le rest, drop_append, drop_drop, length_drop, drop_take,
            drop_eq_nil_of_le (Nat.le_of_lt wraps), nil_append]
          rfl
      case isFalse inside =>
        have inside' := Nat.le_of_not_lt inside
        refine ⟨⟨inside', write⟩, ?_, rfl⟩
        have len : n ≤ (c.buffer.drop c.readPos).length := by
          rw [length_drop]
          unfold size at inside'
          omega
        rw [toList_of_lt (Nat.lt_add_right n lt), drop_append_of_le_length len, drop_drop]
    · -- an empty buffer, of which nothing is dropped
      rw [available_of_le le] at h
      obtain rfl : n = 0 := by omega
      rw [Nat.add_zero, if_neg (Nat.not_lt_of_le read)]
      exact ⟨⟨read, write⟩, rfl, rfl⟩

end

/-- The two branches of `write`, in terms of the bytes that are written. -/
lemma write_eq (c : CircularBuffer) (data : List UInt8) : c.write data =
    let written := data.take c.room
    let top := c.size - c.writePos
    if c.readPos ≤ c.writePos ∧ top < written.length then
      ({ c with
          buffer := copy (copy c.buffer c.writePos (written.take top)) 0 (written.drop top)
          writePos := c.wrap (written.length - top) }, written.length)
    else
      ({ c with
          buffer := copy c.buffer c.writePos written
          writePos := c.wrap (c.writePos + written.length) }, written.length) := by
  have length : (data.take c.room).length = min data.length c.room := by rw [length_take, Nat.min_comm]
  have whole : data.take (min data.length c.room) = data.take c.room := by rw [Nat.min_comm, ← take_eq_take_min]
  simp only [write, length, whole]
  split
  case isTrue wraps => rw [take_take, Nat.min_eq_left (Nat.le_of_lt (Nat.lt_of_lt_of_le wraps.2 (Nat.min_le_right _ _)))]
  case isFalse => rfl

lemma write_snd (data : List UInt8) : (c.write data).2 = min data.length c.room := by
  unfold write
  simp only
  split <;> rfl

/-- What is written joins the end of the content. -/
lemma Valid.write_spec (v : c.Valid) (data : List UInt8) :
    (c.write data).1.Valid ∧ (c.write data).1.size = c.size ∧
      (c.write data).1.toList = c.toList ++ data.take c.room := by
  have short : (data.take c.room).length ≤ c.room := length_take_le _ _
  rw [write_eq]
  generalize data.take c.room = d at short
  obtain ⟨read, write⟩ := v
  have cut : c.writePos ≤ (c.buffer.take c.writePos).length := by
    rw [length_take]
    exact Nat.le_min.mpr ⟨Nat.le_refl _, Nat.le_of_lt write⟩
  simp only
  split
  case isTrue wraps =>
    -- the end of the array is filled, and the rest goes to its start
    obtain ⟨b, r, w⟩ := c
    simp only [size] at *
    obtain ⟨le, wraps⟩ := wraps
    rw [room_of_le le, size] at short
    simp only at short
    have first : w + (d.take (b.length - w)).length = b.length := by
      rw [length_take]
      omega
    have second : 0 + (d.drop (b.length - w)).length ≤ (copy b w (d.take (b.length - w))).length := by
      rw [length_copy (Nat.le_of_eq first), length_drop]
      omega
    have place : wrap ⟨b, r, w⟩ (d.length - (b.length - w)) = 0 + (d.drop (b.length - w)).length := by
      rw [wrap, size, if_neg (by simp only; omega), length_drop, Nat.zero_add]
    have before : 0 + (d.drop (b.length - w)).length < r := by
      rw [length_drop]
      omega
    have same := (length_copy second).trans (length_copy (Nat.le_of_eq first))
    rw [place]
    refine ⟨⟨le_of_le_of_eq read same.symm, lt_of_lt_of_eq (Nat.lt_of_lt_of_le before read) same.symm⟩, same, ?_⟩
    rw [toList_of_lt before, drop_copy second (Nat.le_of_lt before), take_copy second, take_zero, nil_append,
      copy_end first, drop_append_of_le_length (Nat.le_trans le cut), drop_take, List.append_assoc, take_append_drop,
      toList_of_le le]
  case isFalse wraps =>
    obtain ⟨b, r, w⟩ := c
    simp only [size] at *
    have fits : w + d.length ≤ b.length := by
      rcases Nat.lt_or_ge w r with lt | le
      · rw [room_of_lt lt] at short
        simp only at short
        omega
      · omega
    have same := length_copy fits
    rcases Nat.lt_or_eq_of_le fits with below | ends
    · have place : wrap ⟨b, r, w⟩ (w + d.length) = w + d.length := if_neg (Nat.ne_of_lt below)
      rw [place]
      refine ⟨⟨le_of_le_of_eq read same.symm, lt_of_lt_of_eq below same.symm⟩, same, ?_⟩
      rcases Nat.lt_or_ge w r with lt | le
      · have before : w + d.length < r := by
          rw [room_of_lt lt] at short
          simp only at short
          omega
        rw [toList_of_lt before, drop_copy fits (Nat.le_of_lt before), take_copy fits, toList_of_lt lt, List.append_assoc]
      · rw [toList_of_le (Nat.le_add_right_of_le le), ← drop_take, take_copy fits,
          drop_append_of_le_length (Nat.le_trans le cut), drop_take, toList_of_le le]
    · -- the write position comes back to the start, in front of the content
      have place : wrap ⟨b, r, w⟩ (w + d.length) = 0 := if_pos ends
      have le : r ≤ w ∧ 0 < r := by
        rcases Nat.lt_or_ge w r with lt | le
        · rw [room_of_lt lt] at short
          simp only at short
          omega
        · rw [room_of_le le, size] at short
          simp only at short
          omega
      rw [place]
      refine ⟨⟨le_of_le_of_eq read same.symm, lt_of_lt_of_eq (Nat.lt_of_lt_of_le le.2 read) same.symm⟩, same, ?_⟩
      rw [toList_of_lt le.2, take_zero, append_nil, copy_end ends, drop_append_of_le_length (Nat.le_trans le.1 cut),
        drop_take, toList_of_le le.1]

/-- One byte is stored as a block of one byte is. -/
lemma Valid.writeByte_eq (v : c.Valid) (charToWrite : UInt8) : c.writeByte charToWrite = c.write [charToWrite] := by
  obtain ⟨read, write⟩ := v
  rw [writeByte, CircularBuffer.write, List.length_singleton]
  by_cases full : c.room = 0
  · have stays : c.wrap c.writePos = c.writePos := if_neg (Nat.ne_of_lt write)
    simp [full, copy, stays]
  · have one : min 1 c.room = 1 := by omega
    have below : ¬ c.size - c.writePos < 1 := by omega
    rw [if_neg full, one]
    simp only [below, and_false, if_false]
    rw [set_eq_take_append_cons_drop, if_pos (c := c.writePos < c.buffer.length) write]
    simp [copy]

lemma flush_toList : c.flush.toList = [] := by
  rw [toList_of_le (Nat.le_refl _)]
  simp [flush]

/-- A `seek` behind the content throws all of it away. -/
lemma Valid.seek_beyond (v : c.Valid) (h : c.toList.length < n) : c.seek n = (c.flush, false) := by
  rw [v.length_toList] at h
  exact if_pos h

lemma Valid.seek_snd (v : c.Valid) (h : n ≤ c.toList.length) : (c.seek n).2 = true := by
  rw [v.length_toList] at h
  rw [CircularBuffer.seek, if_neg (Nat.not_lt_of_le h)]
  split
  · rfl
  · split <;> rfl

end CircularBuffer

end Sming.Data
