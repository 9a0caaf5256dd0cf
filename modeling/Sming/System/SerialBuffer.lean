import Sming.Lib.Ring
import Sming.Lib.Run

/-!
# The buffer of a serial port

Embedding of `Sming/system/include/SerialBuffer.h`, the ring buffer between the interrupt handler and the functions
that tasks call. Sizes and positions are `size_t` of 32 bits: `available` and `getFreeSpace` go through an `int`, and
`find` counts its offset back below zero. One cell stays free, so that equal positions mean an empty buffer.
-/

namespace Sming.System
open Sming.Lib List

/-- The value of an `int` that a `size_t` expression is assigned to. -/
def int32 (n : Int) : Int := n.bmod (2 ^ 32)

/-- The value of a `size_t` that an `int` expression is assigned to. -/
def size32 (n : Int) : Nat := (n % 2 ^ 32).toNat

/-- The cells and the two positions; `buffer` is a null pointer when there are no cells. -/
structure SerialBuffer where
  buffer : List UInt8 := []
  readPos : Nat := 0
  writePos : Nat := 0
  deriving Repr, DecidableEq

namespace SerialBuffer

variable (b : SerialBuffer)

def size : Nat := b.buffer.length

def available : Nat :=
  let ret := int32 (b.writePos - b.readPos)
  size32 (if ret < 0 then int32 (ret + b.size) else ret)

def getFreeSpace : Nat :=
  let ret := int32 (b.readPos - b.writePos - 1)
  size32 (if ret < 0 then int32 (ret + b.size) else ret)

def isEmpty : Bool := b.writePos == b.readPos

def getNextPos (pos : Nat) : Nat :=
  let n := pos + 1
  if n = b.size then 0 else n

def getPrevPos (pos : Nat) : Nat := (if pos ≠ 0 then pos else b.size) - 1

/-- The answer -1 is `none`. -/
def peekChar : Option UInt8 :=
  if b.buffer = [] ∨ b.isEmpty then none else some (b.buffer.getD b.readPos 0)

def peekLastChar : Option UInt8 :=
  if b.buffer = [] ∨ b.isEmpty then none else some (b.buffer.getD (b.getPrevPos b.writePos) 0)

def readChar : Option UInt8 × SerialBuffer :=
  if b.buffer = [] ∨ b.isEmpty then (none, b)
  else (some (b.buffer.getD b.readPos 0), { b with readPos := b.getNextPos b.readPos })

def writeChar (c : UInt8) : SerialBuffer × Bool :=
  let nextPos := b.getNextPos b.writePos
  if nextPos = b.readPos then (b, false)
  else ({ b with buffer := b.buffer.set b.writePos c, writePos := nextPos }, true)

/-- The loop of `find`, with the turns that are left. -/
def findLoop (c : UInt8) : Nat → Nat → Nat → Option Nat
  | 0, _, _ => none
  | left + 1, offset, pos =>
    if b.buffer.getD (size32 (offset + pos)) 0 = c then some pos
    else
      let pos := pos + 1
      if size32 (pos + offset) = b.writePos then none
      else
        let offset := if size32 (pos + offset) = b.size then size32 (-pos) else offset
        findLoop c left offset pos

def find (c : UInt8) : Option Nat := b.findLoop c b.available b.readPos 0

/-- The loop of `resize`: up to `avail` characters are moved while there is room in the new cells. -/
def moveChars (newSize : Nat) : Nat → SerialBuffer → List UInt8 → List UInt8
  | 0, _, moved => moved
  | avail + 1, b, moved =>
    if moved.length < newSize then
      let r := b.readChar
      moveChars newSize avail r.2 (moved ++ [r.1.getD 0xFF])
    else moved

def allocates (heap : Bool) (newSize : Nat) : Bool := heap && decide (newSize < 2 ^ 31)

/-- `heap` says whether there is memory for the new cells, which hold anything (here 0). -/
def resize (newSize : Nat) (heap : Bool) : SerialBuffer × Nat :=
  if b.size = newSize then (b, b.size)
  else if allocates heap newSize = false then (b, b.size)
  else
    let moved := moveChars newSize b.available b []
    ({ buffer := moved ++ List.replicate (newSize - moved.length) 0
       readPos := 0
       writePos := moved.length }, newSize)

def clear : SerialBuffer := { b with readPos := 0, writePos := 0 }

/-! ### The content -/

def count : Nat := distance b.size b.readPos b.writePos

/-- The content, oldest byte first. -/
def toList : List UInt8 := window b.buffer b.readPos b.count

/-- The range of the positions. -/
structure Valid (b : SerialBuffer) : Prop where
  read : b.readPos < b.size
  write : b.writePos < b.size
  small : b.size < 2 ^ 31

variable {b : SerialBuffer}

lemma int32_eq {n : Int} (lo : -(2 ^ 31) ≤ n) (hi : n < 2 ^ 31) : int32 n = n := by
  rw [int32, Int.bmod_eq_of_le] <;> omega

lemma size32_eq {n : Nat} (hi : n < 2 ^ 32) : size32 n = n := by
  unfold size32
  omega

section
variable (v : b.Valid)
include v

lemma Valid.count_lt : b.count < b.size := distance_lt v.read v.write

lemma Valid.length_toList : b.toList.length = b.count := length_window (Nat.le_of_lt v.count_lt)

lemma Valid.length_toList_lt : b.toList.length < b.size := by
  rw [v.length_toList]
  exact v.count_lt

lemma Valid.available_eq : b.available = b.toList.length := by
  rw [v.length_toList]
  obtain ⟨read, write, small⟩ := v
  have ret : int32 (b.writePos - b.readPos) = b.writePos - b.readPos := int32_eq (by omega) (by omega)
  unfold available count distance
  simp only [ret]
  by_cases le : b.readPos ≤ b.writePos
  · have plain : ((b.writePos : Int) - b.readPos) = (b.writePos - b.readPos : Nat) := by omega
    rw [if_neg (by omega), if_pos le, plain, size32_eq (by omega)]
  · have wrapped : ((b.writePos : Int) - b.readPos + b.size) = (b.size - (b.readPos - b.writePos) : Nat) := by
      omega
    rw [if_pos (by omega), if_neg le, int32_eq (by omega) (by omega), wrapped, size32_eq (by omega)]

lemma Valid.getFreeSpace_eq : b.getFreeSpace = b.size - 1 - b.toList.length := by
  rw [v.length_toList]
  obtain ⟨read, write, small⟩ := v
  have ret : int32 (b.readPos - b.writePos - 1) = b.readPos - b.writePos - 1 := int32_eq (by omega) (by omega)
  unfold getFreeSpace count distance
  simp only [ret]
  by_cases le : b.readPos ≤ b.writePos
  · have wrapped : ((b.readPos : Int) - b.writePos - 1 + b.size) =
        (b.size - 1 - (b.writePos - b.readPos) : Nat) := by omega
    rw [if_pos (by omega), if_pos le, int32_eq (by omega) (by omega), wrapped, size32_eq (by omega)]
  · have plain : ((b.readPos : Int) - b.writePos - 1) =
        (b.size - 1 - (b.size - (b.readPos - b.writePos)) : Nat) := by omega
    rw [if_neg (by omega), if_neg le, plain, size32_eq (by omega)]

lemma Valid.isEmpty_iff : b.isEmpty = true ↔ b.toList = [] := by
  rw [← List.length_eq_zero_iff, v.length_toList, isEmpty, beq_iff_eq]
  exact (distance_eq_zero_iff v.read).symm

lemma Valid.nothing_iff : (b.buffer = [] ∨ b.isEmpty = true) ↔ b.toList = [] := by
  rw [← v.isEmpty_iff]
  exact or_iff_right (ne_nil_of_length_pos (Nat.zero_lt_of_lt v.read))

lemma Valid.count_pos (ne : b.toList ≠ []) : 0 < b.count := by
  rw [← v.length_toList]
  exact length_pos_iff.mpr ne

lemma Valid.getElem?_toList {i : Nat} (h : i < b.count) :
    b.toList[i]? = some (b.buffer.getD ((b.readPos + i) % b.size) 0) := by
  have cell : (b.readPos + i) % b.size < b.buffer.length := Nat.mod_lt _ (Nat.zero_lt_of_lt v.read)
  rw [toList, getElem?_window h (Nat.le_of_lt v.count_lt), getD_eq_getElem?_getD, ← size,
    getElem?_eq_getElem cell, Option.getD_some]

/-! ### Characters -/

lemma Valid.peekChar_eq : b.peekChar = b.toList.head? := by
  unfold peekChar
  by_cases nil : b.toList = []
  · rw [if_pos (v.nothing_iff.mpr nil), nil, head?_nil]
  · rw [if_neg (mt v.nothing_iff.mp nil), head?_eq_getElem?, v.getElem?_toList (v.count_pos nil),
      Nat.add_zero, Nat.mod_eq_of_lt v.read]

lemma Valid.peekLastChar_eq : b.peekLastChar = b.toList.getLast? := by
  unfold peekLastChar
  by_cases nil : b.toList = []
  · rw [if_pos (v.nothing_iff.mpr nil), nil, getLast?_nil]
  · have pos := v.count_pos nil
    have prev : next b.size (b.getPrevPos b.writePos) = b.writePos := by
      have := v.write
      unfold Lib.next getPrevPos
      split <;> split <;> omega
    have less : b.getPrevPos b.writePos < b.size := by
      have := v.write
      unfold getPrevPos
      split <;> omega
    have cell : (b.readPos + (b.count - 1)) % b.size = b.getPrevPos b.writePos := by
      have ne : next b.size (b.getPrevPos b.writePos) ≠ b.readPos := by
        rw [prev]
        exact mt (distance_eq_zero_iff v.read).mpr (Nat.ne_of_gt pos)
      have one := distance_next_right v.read ne
      rw [prev] at one
      rw [count, one, Nat.add_sub_cancel, add_distance_mod v.read less]
    rw [if_neg (mt v.nothing_iff.mp nil), getLast?_eq_getElem?, v.length_toList, v.getElem?_toList (by omega), cell]

lemma Valid.readChar_nil (nil : b.toList = []) : b.readChar = (none, b) := if_pos (v.nothing_iff.mpr nil)

lemma Valid.readChar_cons {c : UInt8} {rest : List UInt8} (cons : b.toList = c :: rest) :
    ∃ d : SerialBuffer, b.readChar = (some c, d) ∧ d.Valid ∧ d.size = b.size ∧ d.toList = rest := by
  have some : b.toList ≠ [] := by
    rw [cons]
    exact cons_ne_nil c rest
  have ne := mt (distance_eq_zero_iff v.read).mpr (Nat.ne_of_gt (v.count_pos some))
  have fewer : distance b.size (next b.size b.readPos) b.writePos + 1 = b.count :=
    distance_next_left v.read v.write ne
  have fits := v.count_lt
  have first := v.peekChar_eq
  rw [peekChar, if_neg (mt v.nothing_iff.mp some), cons, head?_cons] at first
  refine ⟨{ b with readPos := next b.size b.readPos }, ?_, ⟨next_lt v.read, v.write, v.small⟩, rfl, ?_⟩
  · rw [readChar, if_neg (mt v.nothing_iff.mp some), first]
    rfl
  · rw [← fewer] at fits
    rw [toList, ← fewer, window_pop (Nat.lt_of_succ_lt fits) v.read] at cons
    rw [← (List.cons.inj cons).2, toList]
    exact congrArg (window b.buffer · _) (next_eq_mod v.read)

lemma Valid.full_iff : next b.size b.writePos = b.readPos ↔ b.count + 1 = b.size := next_eq_iff v.read v.write

lemma Valid.writeChar_room (c : UInt8) (room : b.toList.length + 1 < b.size) :
    ∃ d : SerialBuffer, b.writeChar c = (d, true) ∧ d.Valid ∧ d.size = b.size ∧
      d.toList = b.toList ++ [c] := by
  rw [v.length_toList] at room
  have free : next b.size b.writePos ≠ b.readPos := mt v.full_iff.mp (Nat.ne_of_lt room)
  have one : distance b.size b.readPos (next b.size b.writePos) = b.count + 1 :=
    distance_next_right v.read free
  have same : (b.buffer.set b.writePos c).length = b.size := length_set
  have last : b.writePos = (b.readPos + b.count) % b.buffer.length := (add_distance_mod v.read v.write).symm
  refine ⟨{ b with buffer := b.buffer.set b.writePos c, writePos := next b.size b.writePos }, if_neg free,
    ⟨same.symm ▸ v.read, lt_of_lt_of_eq (next_lt v.write) same.symm, same.symm ▸ v.small⟩, same, ?_⟩
  simp only [toList, count, size, length_set]
  simp only [size] at one
  rw [one]
  nth_rewrite 1 [last]
  exact window_push v.count_lt

lemma Valid.writeChar_full (c : UInt8) (full : ¬ b.toList.length + 1 < b.size) : b.writeChar c = (b, false) := by
  have less := v.count_lt
  rw [v.length_toList] at full
  exact if_pos (v.full_iff.mpr (by omega))

lemma Valid.clear_eq : b.clear.Valid ∧ b.clear.size = b.size ∧ b.clear.toList = [] := by
  have pos := Nat.zero_lt_of_lt v.read
  exact ⟨⟨pos, pos, v.small⟩, rfl, rfl⟩

end

/-! ### Searching -/

lemma size32_succ {x : Int} {n : Nat} (h : size32 x = n) (small : n < 2 ^ 31) : size32 (x + 1) = n + 1 := by
  unfold size32 at *
  omega

lemma size32_neg (n : Nat) : size32 (size32 (-n) + n) = 0 := by
  unfold size32
  omega

lemma Valid.ends_iff (v : b.Valid) {pos : Nat} (le : pos ≤ b.count) :
    (b.readPos + pos) % b.size = b.writePos ↔ pos = b.count := by
  have last : (b.readPos + b.count) % b.size = b.writePos := add_distance_mod v.read v.write
  constructor
  · intro e
    by_contra ne
    exact offset_ne (Nat.lt_of_le_of_ne le ne) v.count_lt (last.trans e.symm)
  · rintro rfl
    exact last

/-- The loop of `find`: `offset` is the position of the first byte, counted back from the first cell once the loop is
past the last. -/
lemma Valid.findLoop_eq (v : b.Valid) (c : UInt8) {left offset pos : Nat} (all : pos + left = b.count)
    (cell : size32 (offset + pos) = (b.readPos + pos) % b.size) :
    b.findLoop c left offset pos = ((b.toList.drop pos).findIdx? (· == c)).map (· + pos) := by
  induction left generalizing offset pos with
  | zero =>
    have nil : b.toList.drop pos = [] := drop_eq_nil_of_le (by rw [v.length_toList]; omega)
    rw [nil]
    rfl
  | succ left ih =>
    have head := v.getElem?_toList (by omega : pos < b.count)
    obtain ⟨less, here⟩ := List.getElem?_eq_some_iff.mp head
    have below : (b.readPos + pos) % b.size < b.size := Nat.mod_lt _ (Nat.zero_lt_of_lt v.read)
    have after : size32 ((pos + 1 : Nat) + offset) = (b.readPos + pos) % b.size + 1 := by
      have := size32_succ cell (Nat.lt_trans below v.small)
      rw [← this]
      congr 1
      omega
    have following : (b.readPos + (pos + 1)) % b.size = ((b.readPos + pos) % b.size + 1) % b.size := by
      rw [Nat.mod_add_mod, Nat.add_assoc]
    rw [drop_eq_getElem_cons less, findIdx?_cons, here, findLoop, cell]
    by_cases found : b.buffer.getD ((b.readPos + pos) % b.size) 0 = c
    · rw [if_pos found, if_pos (beq_iff_eq.mpr found)]
      simp
    · rw [if_neg found, if_neg (mt beq_iff_eq.mp found), Option.map_map]
      simp only [after]
      have shift : ((· + pos) ∘ (· + 1) : Nat → Nat) = (· + (pos + 1)) := by
        funext i
        simp only [Function.comp_apply]
        omega
      rw [shift]
      by_cases ends : (b.readPos + pos) % b.size + 1 = b.writePos
      · -- the last byte was compared
        have last : pos + 1 = b.count := by
          rw [← v.ends_iff (by omega), following, ends, Nat.mod_eq_of_lt v.write]
        have nil : b.toList.drop (pos + 1) = [] := by
          apply drop_eq_nil_of_le
          rw [v.length_toList, last]
        rw [if_pos ends, nil]
        rfl
      · rw [if_neg ends]
        by_cases wraps : (b.readPos + pos) % b.size + 1 = b.size
        · rw [if_pos wraps]
          apply ih (by omega)
          rw [following, wraps, Nat.mod_self]
          exact size32_neg (pos + 1)
        · rw [if_neg wraps]
          apply ih (by omega)
          rw [following, Nat.mod_eq_of_lt (by omega), ← after, Int.add_comm]

lemma Valid.find_eq (v : b.Valid) (c : UInt8) : b.find c = b.toList.findIdx? (· == c) := by
  have start : size32 (b.readPos + (0 : Nat)) = (b.readPos + 0) % b.size := by
    have := v.read
    have := v.small
    rw [Nat.add_zero, Nat.mod_eq_of_lt v.read]
    exact size32_eq (by omega)
  rw [find, v.findLoop_eq c (by rw [Nat.zero_add, v.available_eq, v.length_toList]) start]
  simp

/-! ### Other sizes -/

lemma Valid.moveChars_eq (v : b.Valid) (newSize : Nat) {avail : Nat} (le : avail ≤ b.toList.length)
    (moved : List UInt8) :
    moveChars newSize avail b moved = moved ++ (b.toList.take avail).take (newSize - moved.length) := by
  induction avail generalizing b moved with
  | zero => simp [moveChars]
  | succ avail ih =>
    rw [moveChars]
    split
    case isTrue room =>
      cases content : b.toList with
      | nil =>
        rw [content] at le
        cases le
      | cons c rest =>
        obtain ⟨d, read, valid, -, left⟩ := v.readChar_cons content
        have le' : avail ≤ d.toList.length := by
          rw [left]
          rw [content] at le
          exact Nat.le_of_succ_le_succ le
        obtain ⟨k, more⟩ := Nat.exists_eq_add_of_lt room
        have fits : newSize - moved.length = newSize - (moved.length + 1) + 1 := by omega
        rw [read, ih valid le', left, take_succ_cons, fits, take_succ_cons]
        simp
    case isFalse full =>
      rw [Nat.sub_eq_zero_of_le (Nat.not_lt.mp full), take_zero, append_nil]

/-- A size that is kept, or that there is no memory for. -/
def Stays (b : SerialBuffer) (newSize : Nat) (heap : Bool) : Prop :=
  b.size = newSize ∨ allocates heap newSize = false

instance (newSize : Nat) (heap : Bool) : Decidable (b.Stays newSize heap) :=
  inferInstanceAs (Decidable (_ ∨ _))

variable {newSize : Nat} {heap : Bool}

lemma resize_stays (h : b.Stays newSize heap) : b.resize newSize heap = (b, b.size) := by
  rw [resize]
  split
  · rfl
  · rw [if_pos (h.resolve_left (by assumption))]

/-- A buffer of `size` cells whose first ones are in use. -/
def holding (content : List UInt8) (size : Nat) : SerialBuffer where
  buffer := content ++ List.replicate (size - content.length) 0
  readPos := 0
  writePos := content.length

lemma holding_spec {content : List UInt8} {n : Nat} (room : content.length < n) (small : n < 2 ^ 31) :
    (holding content n).Valid ∧ (holding content n).size = n ∧ (holding content n).toList = content := by
  have size : (holding content n).size = n := by
    rw [SerialBuffer.size, holding, List.length_append, List.length_replicate]
    omega
  refine ⟨⟨?_, ?_, ?_⟩, size, ?_⟩
  · rw [size]
    exact Nat.zero_lt_of_lt room
  · rw [size]
    exact room
  · rw [size]
    exact small
  · change ((holding content n).buffer.rotate 0).take content.length = content
    rw [rotate_zero, holding, take_left]

lemma Valid.resize_eq (v : b.Valid) (h : ¬ b.Stays newSize heap) :
    b.resize newSize heap = (holding (b.toList.take newSize) newSize, newSize) := by
  obtain ⟨other, memory⟩ := not_or.mp h
  rw [resize, if_neg other, if_neg memory, v.available_eq, v.moveChars_eq newSize (Nat.le_refl _),
    take_length, length_nil, Nat.sub_zero, nil_append]
  rfl

lemma small_of_not_stays (h : ¬ b.Stays newSize heap) : newSize < 2 ^ 31 := by
  have memory := (not_or.mp h).2
  rw [Bool.not_eq_false, allocates, Bool.and_eq_true, decide_eq_true_iff] at memory
  exact memory.2

lemma resize_new {size : Nat} (pos : 0 < size) (small : size < 2 ^ 31) :
    (({} : SerialBuffer).resize size true).1 = holding [] size := by
  have other : ({} : SerialBuffer).size ≠ size := Nat.ne_of_lt pos
  have memory : allocates true size = true := decide_eq_true small
  rw [resize, if_neg other, if_neg (by rw [memory]; decide)]
  rfl

end SerialBuffer

/-! ### The queue it is meant to be -/

inductive SerialOp where
  | writeChar (c : UInt8)
  | readChar
  | peekChar
  | peekLastChar
  | find (c : UInt8)
  | clear
  | resize (newSize : Nat) (heap : Bool)
  deriving Repr, DecidableEq

/-- Another size is not 0. -/
def SerialOp.positive : SerialOp → Bool
  | .resize newSize _ => 0 < newSize
  | _ => true

inductive SerialAnswer where
  | written (success : Bool)
  | char (c : Option UInt8)
  | place (pos : Option Nat)
  | cleared
  | sized (size : Nat)
  deriving Repr, DecidableEq

def SerialBuffer.apply (b : SerialBuffer) : SerialOp → SerialBuffer × SerialAnswer
  | .writeChar c => (b.writeChar c).map id .written
  | .readChar => (b.readChar.2, .char b.readChar.1)
  | .peekChar => (b, .char b.peekChar)
  | .peekLastChar => (b, .char b.peekLastChar)
  | .find c => (b, .place (b.find c))
  | .clear => (b.clear, .cleared)
  | .resize newSize heap => (b.resize newSize heap).map id .sized

structure ByteQueue where
  size : Nat
  content : List UInt8 := []
  deriving Repr, DecidableEq

/-- The same operations on the queue; another size keeps the oldest bytes that fit. -/
def ByteQueue.apply (q : ByteQueue) : SerialOp → ByteQueue × SerialAnswer
  | .writeChar c =>
    if q.content.length + 1 < q.size then ({ q with content := q.content ++ [c] }, .written true)
    else (q, .written false)
  | .readChar => ({ q with content := q.content.tail }, .char q.content.head?)
  | .peekChar => (q, .char q.content.head?)
  | .peekLastChar => (q, .char q.content.getLast?)
  | .find c => (q, .place (q.content.findIdx? (· == c)))
  | .clear => ({ q with content := [] }, .cleared)
  | .resize newSize heap =>
    if q.size = newSize ∨ SerialBuffer.allocates heap newSize = false then (q, .sized q.size)
    else ({ size := newSize, content := q.content.take (newSize - 1) }, .sized newSize)

structure SerialTwin where
  buffer : SerialBuffer
  queue : ByteQueue
  answers : List SerialAnswer := []
  expected : List SerialAnswer := []
  deriving DecidableEq

namespace SerialTwin

def start (size : Nat) : SerialTwin where
  buffer := (({} : SerialBuffer).resize size true).1
  queue := { size }

/-- An operation on both; a size is at least 1. -/
def step (t : SerialTwin) (op : SerialOp) : Option SerialTwin :=
  if op.positive then
    some
      { buffer := (t.buffer.apply op).1
        queue := (t.queue.apply op).1
        answers := t.answers ++ [(t.buffer.apply op).2]
        expected := t.expected ++ [(t.queue.apply op).2] }
  else none

structure Sound (t : SerialTwin) : Prop where
  read : t.buffer.readPos < t.buffer.size
  write : t.buffer.writePos < t.buffer.size
  space : t.buffer.available + t.buffer.getFreeSpace = t.buffer.size - 1
  size_eq : t.buffer.size = t.queue.size
  content : t.buffer.toList = t.queue.content
  answers : t.answers = t.expected

def Larger (t : SerialTwin) : SerialOp → Prop
  | .resize newSize heap => t.buffer.Stays newSize heap ∨ t.buffer.available < newSize
  | _ => True

instance (t : SerialTwin) (op : SerialOp) : Decidable (t.Larger op) := by
  cases op <;> unfold Larger <;> infer_instance

structure Agree (t : SerialTwin) : Prop where
  valid : t.buffer.Valid
  size_eq : t.buffer.size = t.queue.size
  content : t.buffer.toList = t.queue.content
  answers : t.answers = t.expected

variable {t u : SerialTwin} {op : SerialOp}

lemma Agree.sound (a : Agree t) : Sound t where
  read := a.valid.read
  write := a.valid.write
  space := by
    have less := a.valid.length_toList_lt
    rw [a.valid.available_eq, a.valid.getFreeSpace_eq]
    omega
  size_eq := a.size_eq
  content := a.content
  answers := a.answers

lemma start_agree {size : Nat} (pos : 0 < size) (small : size < 2 ^ 31) : Agree (start size) := by
  obtain ⟨valid, same, content⟩ := @SerialBuffer.holding_spec [] size pos small
  rw [← SerialBuffer.resize_new pos small] at valid same content
  exact ⟨valid, same, content, rfl⟩

lemma apply_agree {b : SerialBuffer} {q : ByteQueue} (valid : b.Valid) (size_eq : b.size = q.size)
    (content : b.toList = q.content) (op : SerialOp) (larger : ∀ newSize heap, op = .resize newSize heap →
      b.Stays newSize heap ∨ b.available < newSize) :
    (b.apply op).1.Valid ∧ (b.apply op).1.size = (q.apply op).1.size ∧
      (b.apply op).1.toList = (q.apply op).1.content ∧ (b.apply op).2 = (q.apply op).2 := by
  obtain ⟨size, list⟩ := q
  simp only at size_eq content
  subst size_eq content
  cases op with
  | writeChar c =>
    by_cases room : b.toList.length + 1 < b.size
    · obtain ⟨d, written, valid', same, more⟩ := valid.writeChar_room c room
      simp only [SerialBuffer.apply, ByteQueue.apply, written, if_pos room]
      exact ⟨valid', same, more, rfl⟩
    · simp only [SerialBuffer.apply, ByteQueue.apply, valid.writeChar_full c room, if_neg room]
      exact ⟨valid, rfl, rfl, rfl⟩
  | readChar =>
    cases content : b.toList with
    | nil =>
      simp only [SerialBuffer.apply, ByteQueue.apply, valid.readChar_nil content]
      refine ⟨valid, trivial, ?_, rfl⟩
      rw [content]
      rfl
    | cons c rest =>
      obtain ⟨d, read, valid', same, left⟩ := valid.readChar_cons content
      simp only [SerialBuffer.apply, ByteQueue.apply, read]
      exact ⟨valid', same, left, rfl⟩
  | peekChar => exact ⟨valid, rfl, rfl, congrArg SerialAnswer.char valid.peekChar_eq⟩
  | peekLastChar => exact ⟨valid, rfl, rfl, congrArg SerialAnswer.char valid.peekLastChar_eq⟩
  | find c => exact ⟨valid, rfl, rfl, congrArg SerialAnswer.place (valid.find_eq c)⟩
  | clear =>
    obtain ⟨valid', same, nil⟩ := valid.clear_eq
    exact ⟨valid', same, nil, rfl⟩
  | resize newSize heap =>
    by_cases stays : b.Stays newSize heap
    · have asked : b.size = newSize ∨ SerialBuffer.allocates heap newSize = false := stays
      simp only [SerialBuffer.apply, ByteQueue.apply, SerialBuffer.resize_stays stays, if_pos asked]
      exact ⟨valid, rfl, rfl, rfl⟩
    · have room := (larger newSize heap rfl).resolve_left stays
      rw [valid.available_eq] at room
      have whole := take_of_length_le (Nat.le_of_lt room)
      have whole' := take_of_length_le (Nat.le_sub_one_of_lt room)
      obtain ⟨valid', same, kept⟩ := SerialBuffer.holding_spec room (SerialBuffer.small_of_not_stays stays)
      have asked : ¬ (b.size = newSize ∨ SerialBuffer.allocates heap newSize = false) := stays
      simp only [SerialBuffer.apply, ByteQueue.apply, valid.resize_eq stays, whole, whole', if_neg asked]
      exact ⟨valid', same, kept, rfl⟩

lemma Agree.step (a : Agree t) (larger : t.Larger op) (st : step t op = some u) : Agree u := by
  obtain ⟨valid, same, content, answer⟩ := apply_agree a.valid a.size_eq a.content op
    (by rintro newSize heap rfl; exact larger)
  rw [SerialTwin.step] at st
  split at st
  · cases st
    refine ⟨valid, same, content, ?_⟩
    rw [a.answers, answer]
  · cases st

lemma Agree.not_sound (a : Agree t) (small : ¬ t.Larger op) (st : SerialTwin.step t op = some u) : ¬ Sound u := by
  cases op with
  | resize newSize heap =>
    obtain ⟨moves, full⟩ := not_or.mp small
    rw [a.valid.available_eq, Nat.not_lt] at full
    rw [SerialTwin.step] at st
    split at st
    · cases st
      intro sound
      have write := sound.write
      simp only [SerialBuffer.apply, a.valid.resize_eq moves] at write
      simp only [Prod.map, id, SerialBuffer.holding, SerialBuffer.size, List.length_append,
        List.length_replicate, length_take] at write
      omega
    · cases st
  | _ => exact absurd trivial small

/-- All states of a run are sound exactly if every other size was larger than the content: positions inside the
buffer, content and free space filling it but for one cell, and buffer and queue holding and answering the same. -/
theorem serialBuffer_fifo_iff {size : Nat} (pos : 0 < size) (small : size < 2 ^ 31) {ops : List SerialOp}
    (r : Run step Always (start size) ops t) :
    (∀ ops' t', ops' <+: ops → Run step Always (start size) ops' t' → Sound t') ↔
      Run step Larger (start size) ops t := by
  have init := start_agree pos small
  apply r.forall_prefix_iff_guarded init.sound
  intro es t op u r _ st
  have a : Agree t := r.invariant init fun a larger st => a.step larger st
  by_cases larger : t.Larger op
  · exact iff_of_true (a.step larger st).sound larger
  · exact iff_of_false (a.not_sound larger st) larger

theorem serialBuffer_fifo_iff_wraps : ∃ t, Run step Larger (start 3)
      [.writeChar 1, .writeChar 2, .readChar, .writeChar 3, .resize 5 true, .find 3, .resize 3 true] t ∧
    ∀ ops' t', ops' <+: [.writeChar 1, .writeChar 2, .readChar, .writeChar 3, .resize 5 true, .find 3,
      .resize 3 true] → Run step Always (start 3) ops' t' → Sound t' := exists_run (fun _ => True) (by decide)
    fun _ run _ => (serialBuffer_fifo_iff (by decide) (by decide) run.always).mpr run

/-- A full buffer that is made smaller by one cell keeps too many bytes. -/
theorem serialBuffer_resize_overfills :
    ¬ ∀ size, 0 < size → size < 2 ^ 31 → ∀ ops t, Run step Always (start size) ops t → Sound t := by
  intro all
  obtain ⟨t, run, outside⟩ : ∃ t, exec step Always (start 3) [.writeChar 1, .writeChar 2, .resize 2 true] =
      some t ∧ ¬ t.buffer.writePos < t.buffer.size := exists_exec (by decide)
  exact outside (all 3 (by decide) (by decide) _ t (exec_run run)).write

end SerialTwin

end Sming.System
