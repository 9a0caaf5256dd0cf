import Mathlib.Data.BitVec
import Sming.Lib.Memory

/-!
# Access to the flash memory

Embedding of `Sming/system/flashmem.c`. The SDK transfers whole words between word-aligned addresses;
`flashmem_write` and `flashmem_read` build transfers of any alignment and size from that: a partial
unit at the start, blocks through a buffer of 32 words, and a partial unit at the end.

The two functions have one shape, `transfer`. They differ in how a block and a partial unit are moved
(`writeBlock`, `readBlock`, `writeUnit`, `readUnit`). `ok i` says whether the `i`-th call of
`spi_flash_read` or `spi_flash_write` succeeds; a call that fails transfers nothing. Pointers and
flash addresses are 32-bit words and wrap; byte counts are numbers, they stay below `2 ^ 32`.
-/

namespace Sming.System
open Sming.Lib List

abbrev Word := BitVec 32

structure Machine where
  ram : Word → UInt8
  flash : Word → UInt8
  calls : Nat

/-- `INTERNAL_FLASH_WRITE_UNIT_SIZE` and `INTERNAL_FLASH_READ_UNIT_SIZE`. -/
def blksize : Nat := 4

def blkmask : Word := 3

/-- `sizeof(tmpdata)`: `FLASH_BUFFERS` units. -/
def tmpdataSize : Nat := 32 * blksize

/-- `INTERNAL_FLASH_SECTOR_SIZE`. -/
def sectorSize : Nat := 4096

def isAligned (x : Word) : Bool := x &&& 3 == 0

/-- The sector of an address (C `flashmem_find_sector`, `flashmem_get_sector_of_address`). -/
def flashmemGetSectorOfAddress (addr : Word) : Nat := addr.toNat / sectorSize

section
variable (ok : Nat → Bool)

/-- Read words into a buffer: the result, what the buffer got, and the machine. -/
def flashmemReadInternal (m : Machine) (fromaddr : Word) (size : Nat) : Nat × List UInt8 × Machine :=
  if ok m.calls then (size, load m.flash fromaddr size, { m with calls := m.calls + 1 })
  else (0, [], { m with calls := m.calls + 1 })

def flashmemWriteInternal (m : Machine) (data : List UInt8) (toaddr : Word) : Nat × Machine :=
  if ok m.calls then (data.length, { m with flash := store m.flash toaddr data, calls := m.calls + 1 })
  else (0, { m with calls := m.calls + 1 })

inductive Direction
  | write
  | read
  deriving DecidableEq, Repr

/-- `memcpy` of `count` bytes into the buffer, which is then programmed. -/
def writeBlock (m : Machine) (buf addr : Word) (count : Nat) : Nat × Machine :=
  flashmemWriteInternal ok m (load m.ram buf count) addr

/-- Read `count` bytes into the buffer and `memcpy` what arrived. -/
def readBlock (m : Machine) (buf addr : Word) (count : Nat) : Nat × Machine :=
  let (read, tmpdata, m) := flashmemReadInternal ok m addr count
  (read, { m with ram := store m.ram buf tmpdata })

/-- Read the unit at `start`, overlay `n` bytes from position `rest` on, and write it back. -/
def writeUnit (m : Machine) (buf start : Word) (rest n : Nat) : Bool × Machine :=
  let (got, tmpdata, m) := flashmemReadInternal ok m start blksize
  if got ≠ blksize then (false, m)
  else
    let tmpdata := tmpdata.take rest ++ load m.ram buf n ++ tmpdata.drop (rest + n)
    let (written, m) := flashmemWriteInternal ok m tmpdata start
    (written == blksize, m)

/-- Read the unit at `start` and deliver `n` bytes from position `rest` on. -/
def readUnit (m : Machine) (buf start : Word) (rest n : Nat) : Bool × Machine :=
  let (got, tmpdata, m) := flashmemReadInternal ok m start blksize
  if got ≠ blksize then (false, m)
  else (true, { m with ram := store m.ram buf ((tmpdata.drop rest).take n) })

def Direction.block : Direction → Machine → Word → Word → Nat → Nat × Machine
  | .write => writeBlock ok
  | .read => readBlock ok

def Direction.unit : Direction → Machine → Word → Word → Nat → Nat → Bool × Machine
  | .write => writeUnit ok
  | .read => readUnit ok

structure Cursor where
  m : Machine
  buf : Word
  addr : Word
  remain : Nat

/-- The block loop and whether it ran to its end. Every turn takes a byte at least, so that `remain`
turns are enough. -/
def blocks (d : Direction) : Nat → Cursor → Cursor × Bool
  | 0, c => (c, true)
  | fuel + 1, c =>
    if c.remain = 0 then (c, true)
    else
      let count := min c.remain tmpdataSize
      let (moved, m) := d.block ok c.m c.buf c.addr count
      let remain := c.remain - moved
      if moved ≠ count then ({ c with m, remain }, false)
      else blocks d fuel { m, buf := c.buf + (count : Word), addr := c.addr + (count : Word), remain }

def body (d : Direction) (size : Nat) (c : Cursor) : Nat × Machine :=
  let rest := c.remain % blksize
  match blocks ok d c.remain { c with remain := c.remain - rest } with
  | (c, false) => (size - c.remain, c.m)
  | (c, true) =>
    if rest ≠ 0 then
      let (done, m) := d.unit ok c.m c.buf c.addr 0 rest
      if done then (size, m) else (size - c.remain, m)
    else (size, c.m)

def transfer (d : Direction) (m : Machine) (buf addr size : Word) : Nat × Machine :=
  if isAligned buf && isAligned addr && isAligned size then d.block ok m buf addr size.toNat
  else if addr &&& blkmask ≠ 0 then
    -- align the start
    let rest := (addr &&& blkmask).toNat
    let addrAligned := addr &&& ~~~blkmask
    let n := min size.toNat (blksize - rest)
    let (done, m) := d.unit ok m buf addrAligned rest n
    if done then
      if size.toNat - n = 0 then (size.toNat, m)
      else
        body ok d size.toNat
          { m, buf := buf + (n : Word), addr := addrAligned + (blksize : Word)
            remain := size.toNat - n }
    else (0, m)
  else body ok d size.toNat { m, buf, addr, remain := size.toNat }

/-- Write `size` bytes from the pointer `src` to flash. -/
def flashmemWrite (m : Machine) (src toaddr size : Word) : Nat × Machine :=
  transfer ok .write m src toaddr size

/-- Read `size` bytes of flash to the pointer `dst`. -/
def flashmemRead (m : Machine) (dst fromaddr size : Word) : Nat × Machine :=
  transfer ok .read m dst fromaddr size

end

/-! ## What a transfer moves

`Moved d buf addr n m m'`: between `m` and `m'` the function moved the first `n` bytes and did nothing
else. -/

namespace Direction

def source : Direction → Machine → Word → UInt8
  | .write => Machine.ram
  | .read => Machine.flash

def target : Direction → Machine → Word → UInt8
  | .write => Machine.flash
  | .read => Machine.ram

def sourceAt : Direction → Word → Word → Word
  | .write, buf, _ => buf
  | .read, _, addr => addr

def targetAt : Direction → Word → Word → Word
  | .write, _, addr => addr
  | .read, buf, _ => buf

/-- The SPI flash calls a part of a unit takes. -/
def unitCalls : Direction → Nat
  | .write => 2
  | .read => 1

lemma sourceAt_add (d : Direction) (buf addr n : Word) :
    d.sourceAt (buf + n) (addr + n) = d.sourceAt buf addr + n := by
  cases d <;> rfl

lemma targetAt_add (d : Direction) (buf addr n : Word) :
    d.targetAt (buf + n) (addr + n) = d.targetAt buf addr + n := by
  cases d <;> rfl

end Direction

/-- The first `n` bytes were moved, and nothing else changed. -/
structure Moved (d : Direction) (buf addr : Word) (n : Nat) (m m' : Machine) : Prop where
  source : d.source m' = d.source m
  target : d.target m' = store (d.target m) (d.targetAt buf addr) (load (d.source m) (d.sourceAt buf addr) n)

/-- The next `k` calls succeed. -/
def Good (ok : Nat → Bool) (m : Machine) (k : Nat) : Prop := ∀ i < k, ok (m.calls + i) = true

/-- Of `size` bytes the first `n` were moved by the next `k` calls: all of them exactly if there are none or no call
failed. -/
structure Stage (ok : Nat → Bool) (d : Direction) (buf addr : Word) (size k : Nat) (m : Machine) (n : Nat)
    (m' : Machine) : Prop where
  moved : Moved d buf addr n m m'
  le : n ≤ size
  full : n = size ↔ size = 0 ∨ Good ok m k
  calls : Good ok m k → m'.calls = m.calls + k

section
variable {ok : Nat → Bool} {d : Direction} {m m' m'' : Machine} {buf addr : Word}

lemma Moved.called (d : Direction) (m : Machine) (buf addr : Word) (n : Nat) :
    Moved d buf addr 0 m { m with calls := n } := by
  cases d <;> exact ⟨rfl, rfl⟩

variable {n k : Nat}

lemma Moved.trans (h : Moved d buf addr n m m')
    (h' : Moved d (buf + (n : Word)) (addr + (n : Word)) k m' m'') : Moved d buf addr (n + k) m m'' := by
  refine ⟨h'.source.trans h.source, ?_⟩
  rw [h'.target, h.target, h.source, d.sourceAt_add, d.targetAt_add, load_add, store_append, length_load]

lemma good_zero : Good ok m 0 := fun _ hi => absurd hi (Nat.not_lt_zero _)

lemma good_one : Good ok m 1 ↔ ok m.calls = true := by
  refine ⟨fun good => good 0 Nat.one_pos, fun good i hi => ?_⟩
  rw [Nat.lt_one_iff.mp hi]
  exact good

lemma Good.of_add (good : Good ok m (n + k)) : Good ok m n := fun i hi => good i (Nat.lt_add_right k hi)

lemma good_add (calls : m'.calls = m.calls + n) : Good ok m (n + k) ↔ Good ok m n ∧ Good ok m' k := by
  simp only [Good, calls]
  constructor
  · intro h
    refine ⟨Good.of_add h, fun i hi => ?_⟩
    rw [Nat.add_assoc]
    exact h (n + i) (Nat.add_lt_add_left hi n)
  · intro ⟨early, late⟩ i hi
    rcases Nat.lt_or_ge i n with lt | ge
    · exact early i lt
    · have := late (i - n) (by omega)
      rwa [Nat.add_assoc, Nat.add_sub_of_le ge] at this

/-! ### Stages -/

variable {size size' k' : Nat}

lemma Stage.done (moved : Moved d buf addr size m m') (good : Good ok m k) (calls : m'.calls = m.calls + k) :
    Stage ok d buf addr size k m size m' :=
  ⟨moved, Nat.le_refl _, iff_of_true rfl (.inr good), fun _ => calls⟩

lemma Stage.failed (bad : ¬ Good ok m k) (calls : Nat) : Stage ok d buf addr size k m 0 { m with calls } :=
  ⟨.called d m buf addr calls, Nat.zero_le _, by rw [or_iff_left bad, eq_comm], fun good => absurd good bad⟩

/-- A call has failed, and nothing comes after it. -/
lemma Stage.stop (h : Stage ok d buf addr size k m n m') (bad : ¬ Good ok m k) :
    Stage ok d buf addr (size + size') (k + k') m n m' := by
  have worse : ¬ Good ok m (k + k') := fun good => bad good.of_add
  have full := h.full
  have le := h.le
  rw [or_iff_left bad] at full
  refine ⟨h.moved, Nat.le_add_right_of_le le, ?_, fun good => absurd good worse⟩
  rw [or_iff_left worse]
  omega

lemma Stage.trans (h : Stage ok d buf addr size k m size m') (good : Good ok m k) (none : size' = 0 → k' = 0)
    (h' : Stage ok d (buf + (size : Word)) (addr + (size : Word)) size' k' m' n m'') :
    Stage ok d buf addr (size + size') (k + k') m (size + n) m'' := by
  have calls := h.calls good
  have both : Good ok m (k + k') ↔ Good ok m' k' := (good_add calls).trans (and_iff_right good)
  refine ⟨h.moved.trans h'.moved, Nat.add_le_add_left h'.le size, ?_, fun good => ?_⟩
  · rw [Nat.add_left_cancel_iff, h'.full, both]
    refine or_congr_left' fun bad => ⟨fun zero => ?_, fun zero => (Nat.add_eq_zero_iff.mp zero).2⟩
    rw [none zero] at bad
    exact absurd good_zero bad
  · rw [h'.calls (both.mp good), calls, Nat.add_assoc]

lemma block_stage (m : Machine) (buf addr : Word) (count : Nat) :
    ∃ n m', d.block ok m buf addr count = (n, m') ∧ Stage ok d buf addr count 1 m n m' := by
  cases good : ok m.calls with
  | true =>
    cases d with
    | write =>
      refine ⟨count, { m with flash := store m.flash addr (load m.ram buf count), calls := m.calls + 1 }, ?_,
        .done ⟨rfl, rfl⟩ (good_one.mpr good) rfl⟩
      simp [Direction.block, writeBlock, flashmemWriteInternal, good]
    | read =>
      refine ⟨count, { m with ram := store m.ram buf (load m.flash addr count), calls := m.calls + 1 }, ?_,
        .done ⟨rfl, rfl⟩ (good_one.mpr good) rfl⟩
      simp [Direction.block, readBlock, flashmemReadInternal, good]
  | false =>
    have bad : ¬ Good ok m 1 := by rw [good_one, good]; exact Bool.false_ne_true
    refine ⟨0, _, ?_, .failed bad (m.calls + 1)⟩
    cases d with
    | write => simp [Direction.block, writeBlock, flashmemWriteInternal, good]
    | read => simp [Direction.block, readBlock, flashmemReadInternal, good, store]

lemma load_unit (f : Word → UInt8) (start : Word) {rest n : Nat} (fits : rest + n ≤ blksize) :
    load f start blksize = load f start rest ++ load f (start + (rest : Word)) n ++
      load f (start + (rest : Word) + (n : Word)) (blksize - rest - n) := by
  have split : blksize = rest + n + (blksize - rest - n) := by omega
  conv_lhs => rw [split, load_add, load_add, Nat.cast_add, ← add_assoc]

lemma word_add_inj {a : Word} {i j : Nat} (hi : i < 2 ^ 32) (hj : j < 2 ^ 32)
    (h : a + (i : Word) = a + (j : Word)) : i = j := by
  have e : ((i : Word)).toNat = ((j : Word)).toNat := by rw [add_left_cancel h]
  rwa [BitVec.natCast_eq_ofNat, BitVec.natCast_eq_ofNat, BitVec.toNat_ofNat, BitVec.toNat_ofNat,
    Nat.mod_eq_of_lt hi, Nat.mod_eq_of_lt hj] at e

lemma store_unit (f : Word → UInt8) (start : Word) {rest : Nat} {data : List UInt8}
    (fits : rest + data.length ≤ blksize) :
    store f start ((load f start blksize).take rest ++ data ++
      (load f start blksize).drop (rest + data.length)) = store f (start + (rest : Word)) data := by
  rw [← store_merge f start rest (blksize - rest - data.length)]
  · rw [load_unit f start fits]
    rw [List.append_assoc (load f start rest), take_left' (length_load _ _ _),
      ← List.append_assoc (load f start rest), drop_left' (by simp)]
  · intro i hi j hj same
    rw [add_assoc, add_assoc, add_assoc, ← Nat.cast_add, ← Nat.cast_add, ← Nat.cast_add] at same
    have small : blksize < 2 ^ 32 := by decide
    have := word_add_inj (by omega) (by omega) same
    omega

lemma unit_stage (m : Machine) (buf start : Word) {rest n : Nat} (fits : rest + n ≤ blksize) :
    ∃ done m', d.unit ok m buf start rest n = (done, m') ∧ (done = true ↔ Good ok m d.unitCalls) ∧
      Stage ok d buf (start + (rest : Word)) n d.unitCalls m (if done then n else 0) m' := by
  by_cases good : Good ok m d.unitCalls
  · have first : ok m.calls = true := good 0 (by cases d <;> decide)
    refine ⟨true, ?_⟩
    cases d with
    | write =>
      have second : ok (m.calls + 1) = true := good 1 (by decide)
      have len : (load m.ram buf n).length = n := length_load _ _ _
      have merged := @store_unit m.flash start rest (load m.ram buf n) (by rw [len]; exact fits)
      have full : ((load m.flash start blksize).take rest ++ load m.ram buf n ++
          (load m.flash start blksize).drop (rest + n)).length = blksize := by
        simp only [List.length_append, length_take, length_drop, length_load]
        omega
      rw [len] at merged
      refine ⟨{ m with flash := store m.flash (start + (rest : Word)) (load m.ram buf n)
                       calls := m.calls + 2 }, ?_, iff_of_true rfl good, .done ⟨rfl, rfl⟩ good rfl⟩
      simp only [Direction.unit, writeUnit, flashmemReadInternal, flashmemWriteInternal, first, second,
        if_true, ne_eq, not_true_eq_false, if_false, merged, full, beq_self_eq_true]
    | read =>
      refine ⟨{ m with ram := store m.ram buf (load m.flash (start + (rest : Word)) n)
                       calls := m.calls + 1 }, ?_, iff_of_true rfl good, .done ⟨rfl, rfl⟩ good rfl⟩
      have part : ((load m.flash start blksize).drop rest).take n = load m.flash (start + (rest : Word)) n := by
        rw [load_unit m.flash start fits, List.append_assoc, drop_left' (length_load _ _ _),
          take_left' (length_load _ _ _)]
      simp [Direction.unit, readUnit, flashmemReadInternal, first, part]
  · obtain ⟨calls, e⟩ : ∃ calls, d.unit ok m buf start rest n = (false, { m with calls }) := by
      by_cases first : ok m.calls = true
      · cases d with
        | write =>
          have second : ok (m.calls + 1) = false := by
            refine Bool.eq_false_of_not_eq_true fun second => good ?_
            exact (@good_add ok m { m with calls := m.calls + 1 } 1 1 rfl).mpr ⟨good_one.mpr first, good_one.mpr second⟩
          refine ⟨m.calls + 1 + 1, ?_⟩
          simp [Direction.unit, writeUnit, flashmemReadInternal, flashmemWriteInternal, first, second, blksize]
        | read => exact absurd (good_one.mpr first) good
      · refine ⟨m.calls + 1, ?_⟩
        cases d <;>
          simp [Direction.unit, writeUnit, readUnit, flashmemReadInternal, first, blksize]
    exact ⟨false, _, e, iff_of_false Bool.false_ne_true good, .failed good calls⟩

def blockCalls (remain : Nat) : Nat := (remain + (tmpdataSize - 1)) / tmpdataSize

lemma blockCalls_turn {remain : Nat} (h : remain ≠ 0) :
    blockCalls remain = 1 + blockCalls (remain - min remain tmpdataSize) := by
  simp only [blockCalls, tmpdataSize, blksize]
  omega

/-- The block loop is a stage, and it has gone through exactly if no call failed; then the cursor is behind the
blocks. -/
structure Looped (ok : Nat → Bool) (d : Direction) (c : Cursor) (n : Nat) (r : Cursor × Bool) : Prop where
  stage : Stage ok d c.buf c.addr c.remain (blockCalls c.remain) c.m n r.1.m
  done : r.2 = true ↔ Good ok c.m (blockCalls c.remain)
  remain : r.1.remain = c.remain - n
  place : r.2 = true → r.1.buf = c.buf + (c.remain : Word) ∧ r.1.addr = c.addr + (c.remain : Word)

variable {c : Cursor}

lemma looped_none (none : c.remain = 0) : Looped ok d c 0 (c, true) := by
  have good : Good ok c.m (blockCalls c.remain) := none ▸ good_zero
  refine ⟨?_, iff_of_true rfl good, rfl, fun _ => by simp [none]⟩
  rw [none]
  exact .done (.called d c.m c.buf c.addr c.m.calls) good_zero rfl

lemma blocks_looped {fuel : Nat} (enough : c.remain ≤ fuel) : ∃ n, Looped ok d c n (blocks ok d fuel c) := by
  induction fuel generalizing c with
  | zero => exact ⟨0, looped_none (Nat.le_zero.mp enough)⟩
  | succ fuel ih =>
    rw [blocks]
    split
    case isTrue none => exact ⟨0, looped_none none⟩
    case isFalse some =>
      have size : 0 < tmpdataSize := by decide
      have turn := blockCalls_turn some
      have whole : min c.remain tmpdataSize + (c.remain - min c.remain tmpdataSize) = c.remain := by omega
      obtain ⟨n, m, e, first⟩ := @block_stage ok d c.m c.buf c.addr (min c.remain tmpdataSize)
      simp only [e]
      by_cases good : Good ok c.m 1
      · obtain rfl : n = min c.remain tmpdataSize := first.full.mpr (.inr good)
        rw [if_neg (not_not_intro rfl)]
        obtain ⟨k, later⟩ := @ih
          { m, buf := c.buf + (min c.remain tmpdataSize : Nat), addr := c.addr + (min c.remain tmpdataSize : Nat)
            remain := c.remain - min c.remain tmpdataSize } (by simp only; omega)
        refine ⟨min c.remain tmpdataSize + k, ?_, ?_, ?_, fun done => ?_⟩
        · have both := first.trans good (fun zero => by rw [zero]; rfl) later.stage
          rwa [whole, ← turn] at both
        · rw [turn, good_add (first.calls good), and_iff_right good]
          exact later.done
        · rw [← Nat.sub_sub]
          exact later.remain
        · have place := later.place done
          simp only [add_assoc, ← Nat.cast_add, whole] at place
          exact place
      · have short : n ≠ min c.remain tmpdataSize := fun all => (first.full.mp all).elim (by omega) good
        rw [if_pos short]
        refine ⟨n, ?_, iff_of_false Bool.false_ne_true ?_, rfl, fun done => absurd done Bool.false_ne_true⟩
        · have stopped := @Stage.stop _ _ _ _ _ _ _ _ _ (c.remain - min c.remain tmpdataSize)
            (blockCalls (c.remain - min c.remain tmpdataSize)) first good
          rwa [whole, ← turn] at stopped
        · rw [turn]
          exact fun all => good all.of_add

def laterCalls (d : Direction) (remain : Nat) : Nat :=
  blockCalls (remain - remain % blksize) + if remain % blksize = 0 then 0 else d.unitCalls

/-- What is behind the head. When a call fails, the bytes of the last partial unit are counted as well. -/
lemma body_stage (size : Nat) (c : Cursor) :
    ∃ n, Stage ok d c.buf c.addr c.remain (laterCalls d c.remain) c.m n (body ok d size c).2 ∧
      (body ok d size c).1 = size - (c.remain - c.remain % blksize - n) ∧
      (¬ Good ok c.m (laterCalls d c.remain) → n + c.remain % blksize ≤ c.remain) := by
  have le : c.remain % blksize ≤ c.remain := Nat.mod_le _ _
  have whole : c.remain - c.remain % blksize + c.remain % blksize = c.remain := Nat.sub_add_cancel le
  obtain ⟨n, loop⟩ := @blocks_looped ok d { c with remain := c.remain - c.remain % blksize } c.remain (Nat.sub_le _ _)
  have inside : n ≤ c.remain - c.remain % blksize := loop.stage.le
  rw [body]
  generalize blocks ok d c.remain _ = r at loop
  obtain ⟨c', done⟩ := r
  have remain : c'.remain = c.remain - c.remain % blksize - n := loop.remain
  cases done with
  | false =>
    refine ⟨n, ?_, by rw [← remain], fun _ => by omega⟩
    have stopped := @Stage.stop _ _ _ _ _ _ _ _ _ (c.remain % blksize)
      (if c.remain % blksize = 0 then 0 else d.unitCalls) loop.stage (mt loop.done.mpr Bool.false_ne_true)
    rwa [whole] at stopped
  | true =>
    have good := loop.done.mp rfl
    obtain rfl : n = c.remain - c.remain % blksize := loop.stage.full.mpr (.inr good)
    obtain ⟨buf, addr⟩ := loop.place rfl
    rw [Nat.sub_self] at remain
    by_cases tail : c.remain % blksize = 0
    · have stage := loop.stage
      simp only [laterCalls, tail, Nat.sub_zero, if_true, ne_eq, not_true_eq_false, if_false, Nat.add_zero] at stage ⊢
      exact ⟨c.remain, stage, by omega, fun _ => Nat.le_refl _⟩
    · have fits : 0 + c.remain % blksize ≤ blksize := by
        have := Nat.mod_lt c.remain (show 0 < blksize by decide)
        omega
      obtain ⟨done, m, e, last, stage⟩ := @unit_stage ok d c'.m c'.buf c'.addr 0 (c.remain % blksize) fits
      rw [buf, addr, Nat.cast_zero, add_zero] at stage
      have both := loop.stage.trans good (fun zero => absurd zero tail) stage
      simp only [whole] at both
      simp only [laterCalls, ne_eq, tail, not_false_eq_true, if_true, e, remain, Nat.sub_zero, ite_self]
      refine ⟨_, both, by omega, fun bad => ?_⟩
      have failed : ¬ done = true := fun fine => bad ((good_add (loop.stage.calls good)).mpr ⟨good, last.mp fine⟩)
      rw [if_neg failed]
      omega

def headLength (addr : Word) (size : Nat) : Nat :=
  if isAligned addr then 0 else min size (blksize - (addr &&& blkmask).toNat)

lemma headLength_le (addr : Word) (size : Nat) : headLength addr size ≤ size := by
  rw [headLength]
  split
  · exact Nat.zero_le _
  · exact Nat.min_le_left _ _

def tailLength (addr : Word) (size : Nat) : Nat := (size - headLength addr size) % blksize

def headCalls (d : Direction) (addr : Word) : Nat :=
  if isAligned addr then 0 else d.unitCalls

def transferCalls (d : Direction) (buf addr size : Word) : Nat :=
  if isAligned buf && isAligned addr && isAligned size then 1
  else headCalls d addr + laterCalls d (size.toNat - headLength addr size.toNat)

def LateFailure (ok : Nat → Bool) (d : Direction) (addr : Word) (size : Nat) : Prop :=
  (∀ i < headCalls d addr, ok i = true) ∧
    ¬ ∀ i < laterCalls d (size - headLength addr size), ok (headCalls d addr + i) = true

/-- What a transfer did: `n` bytes were moved, and the result counts the last partial unit as well when a call behind
the head failed. -/
structure Outcome (ok : Nat → Bool) (d : Direction) (m : Machine) (buf addr size : Word)
    (r : Nat × Machine) (n : Nat) : Prop where
  stage : Stage ok d buf addr size.toNat (transferCalls d buf addr size) m n r.2
  counted : r.1 = n ∧ (tailLength addr size.toNat = 0 ∨ ¬ LateFailure (fun i => ok (m.calls + i)) d addr size.toNat) ∨
    r.1 = n + tailLength addr size.toNat ∧ LateFailure (fun i => ok (m.calls + i)) d addr size.toNat
  bound : r.1 ≤ size.toNat

lemma toNat_mask (a : Word) : (a &&& 3).toNat = a.toNat % blksize := by
  rw [BitVec.toNat_and]
  exact Nat.and_two_pow_sub_one_eq_mod _ 2

lemma mask_add (a b : Word) : (a &&& ~~~b) + (a &&& b) = a := by
  rw [BitVec.add_eq_or_of_and_eq_zero]
  · ext i
    simp
    grind
  · ext i
    simp
    grind

lemma aligned_add (a : Word) : (a &&& ~~~blkmask) + (((a &&& blkmask).toNat : Nat) : Word) = a := by
  rw [BitVec.natCast_eq_ofNat, BitVec.ofNat_toNat, BitVec.setWidth_eq, mask_add]

lemma isAligned_iff (a : Word) : isAligned a = true ↔ a.toNat % blksize = 0 := by
  rw [← toNat_mask, isAligned, beq_iff_eq]
  exact ⟨fun e => by rw [e]; rfl, fun e => BitVec.eq_of_toNat_eq e⟩

lemma Outcome.of_body {m₁ : Machine} {size : Word}
    (path : (isAligned buf && isAligned addr && isAligned size) = false) (good : Good ok m (headCalls d addr))
    (head : Stage ok d buf addr (headLength addr size.toNat) (headCalls d addr) m (headLength addr size.toNat) m₁) :
    ∃ n, Outcome ok d m buf addr size (body ok d size.toNat
        { m := m₁, buf := buf + (headLength addr size.toNat : Word)
          addr := addr + (headLength addr size.toNat : Word)
          remain := size.toNat - headLength addr size.toNat }) n := by
  have le : headLength addr size.toNat ≤ size.toNat := headLength_le addr size.toNat
  -- the head went through, so that all depends on the later calls
  have late : LateFailure (fun i => ok (m.calls + i)) d addr size.toNat ↔
      ¬ Good ok m₁ (laterCalls d (size.toNat - headLength addr size.toNat)) := by
    rw [LateFailure, Good, head.calls good]
    simp only [Nat.add_assoc]
    exact and_iff_right good
  obtain ⟨n, stage, result, less⟩ := @body_stage ok d size.toNat
    { m := m₁, buf := buf + (headLength addr size.toNat : Word)
      addr := addr + (headLength addr size.toNat : Word)
      remain := size.toNat - headLength addr size.toNat }
  simp only at result less
  refine ⟨headLength addr size.toNat + n, ?_, ?_, result ▸ Nat.sub_le _ _⟩
  · have both := head.trans good (fun zero => by rw [zero]; rfl) stage
    rw [Nat.add_sub_of_le le] at both
    rw [transferCalls, path]
    exact both
  · rw [result, tailLength, late]
    by_cases fine : Good ok m₁ (laterCalls d (size.toNat - headLength addr size.toNat))
    · have all : n = size.toNat - headLength addr size.toNat := stage.full.mpr (.inr fine)
      exact .inl ⟨by omega, .inr (not_not_intro fine)⟩
    · have := less fine
      exact .inr ⟨by omega, fine⟩

lemma body_none (size : Nat) (none : c.remain = 0) : body ok d size c = (size, c.m) := by
  rw [body, none]
  rfl

lemma Outcome.of_head (unaligned : ¬ isAligned addr = true) (size : Word) :
    ∃ n, Outcome ok d m buf addr size (transfer ok d m buf addr size) n := by
  have path : (isAligned buf && isAligned addr && isAligned size) = false := by
    simp [unaligned]
  have mask : addr &&& blkmask ≠ 0 := by
    intro e
    apply unaligned
    rw [isAligned, beq_iff_eq]
    exact e
  have small : (addr &&& blkmask).toNat < blksize := by
    have : (addr &&& blkmask).toNat = addr.toNat % blksize := toNat_mask addr
    rw [this]
    exact Nat.mod_lt _ (by decide)
  have head : headLength addr size.toNat = min size.toNat (blksize - (addr &&& blkmask).toNat) :=
    if_neg unaligned
  have calls : headCalls d addr = d.unitCalls := if_neg unaligned
  obtain ⟨done, m₁, e, fine, stage⟩ := @unit_stage ok d m buf (addr &&& ~~~blkmask)
    (addr &&& blkmask).toNat (headLength addr size.toNat) (by omega)
  rw [← calls] at fine
  rw [aligned_add, ← calls] at stage
  rw [transfer, path]
  simp only [Bool.false_eq_true, if_false, if_pos mask]
  simp only [← head, e]
  cases done with
  | true =>
    have rest := Outcome.of_body path (fine.mp rfl) stage
    rw [if_pos rfl]
    by_cases done : size.toNat - headLength addr size.toNat = 0
    · rw [body_none _ done] at rest
      rwa [if_pos done]
    · have full : (addr &&& blkmask).toNat + headLength addr size.toNat = blksize := by omega
      have next : (addr &&& ~~~blkmask) + (blksize : Word) = addr + (headLength addr size.toNat : Word) := by
        rw [← full, Nat.cast_add, ← add_assoc, aligned_add]
      rwa [if_neg done, next]
  | false =>
    have bad := mt fine.mpr Bool.false_ne_true
    refine ⟨0, ?_, .inl ⟨rfl, .inr fun late => bad late.1⟩, Nat.zero_le _⟩
    have stopped := @Stage.stop _ _ _ _ _ _ _ _ _ (size.toNat - headLength addr size.toNat)
      (laterCalls d (size.toNat - headLength addr size.toNat)) stage bad
    rw [Nat.add_sub_of_le (headLength_le addr size.toNat)] at stopped
    rw [transferCalls, path]
    exact stopped

lemma Outcome.of_aligned {size : Word} (path : (isAligned buf && isAligned addr && isAligned size) = true) :
    ∃ n, Outcome ok d m buf addr size (transfer ok d m buf addr size) n := by
  have tail : tailLength addr size.toNat = 0 := by
    simp only [Bool.and_eq_true] at path
    rw [tailLength, headLength, if_pos path.1.2, Nat.sub_zero]
    exact (isAligned_iff size).mp path.2
  obtain ⟨n, m', e, stage⟩ := @block_stage ok d m buf addr size.toNat
  rw [transfer, if_pos path, e]
  refine ⟨n, ?_, .inl ⟨rfl, .inl tail⟩, stage.le⟩
  rw [transferCalls, if_pos path]
  exact stage

lemma transfer_outcome (ok : Nat → Bool) (d : Direction) (m : Machine) (buf addr size : Word) :
    ∃ n, Outcome ok d m buf addr size (transfer ok d m buf addr size) n := by
  by_cases path : (isAligned buf && isAligned addr && isAligned size) = true
  · exact Outcome.of_aligned path
  · by_cases aligned : isAligned addr = true
    · -- without a head the transfer is its part behind the head
      have mask : ¬ addr &&& blkmask ≠ 0 := by
        rw [isAligned, beq_iff_eq] at aligned
        exact not_not_intro aligned
      have head : headLength addr size.toNat = 0 := if_pos aligned
      have calls : headCalls d addr = 0 := if_pos aligned
      have none : Stage ok d buf addr 0 0 m 0 m := .done (.called d m buf addr m.calls) good_zero rfl
      have rest := @Outcome.of_body ok d m buf addr m size (Bool.eq_false_of_not_eq_true path)
        (calls ▸ good_zero) (by rw [head, calls]; exact none)
      rw [head, Nat.cast_zero, add_zero, add_zero, Nat.sub_zero] at rest
      rwa [transfer, if_neg path, if_neg mask]
    · exact Outcome.of_head aligned size

lemma Moved.inside {n i : Nat} (h : Moved d buf addr n m m') (small : n < 2 ^ 32) (hi : i < n) :
    d.target m' (d.targetAt buf addr + (i : Word)) = d.source m (d.sourceAt buf addr + (i : Word)) := by
  have len : (load (d.source m) (d.sourceAt buf addr) n).length = n := length_load _ _ _
  rw [h.target, store_getElem _ (len.symm ▸ hi), getElem_load]
  intro j hj k hk same
  rw [len] at hj hk
  exact word_add_inj (Nat.lt_trans hj small) (Nat.lt_trans hk small) same

lemma Moved.outside {n : Nat} (h : Moved d buf addr n m m') {a : Word}
    (out : ∀ i < n, a ≠ d.targetAt buf addr + (i : Word)) : d.target m' a = d.target m a := by
  rw [h.target]
  apply store_of_ne
  rwa [length_load]

lemma transfer_succeeds (succeed : ∀ i, ok i = true) (d : Direction) (m : Machine) (buf addr size : Word) :
    (transfer ok d m buf addr size).1 = size.toNat ∧
      Moved d buf addr size.toNat m (transfer ok d m buf addr size).2 := by
  obtain ⟨n, stage, counted, -⟩ := transfer_outcome ok d m buf addr size
  obtain rfl : n = size.toNat := stage.full.mpr (.inr fun i _ => succeed _)
  refine ⟨?_, stage.moved⟩
  rcases counted with ⟨e, -⟩ | ⟨-, late⟩
  · exact e
  · exact absurd (fun i _ => succeed _) late.2

/-- Without failing calls `flashmem_write` programs exactly its range and `flashmem_read` fills exactly its
destination. -/
theorem flashmem_transfers_exactly (succeed : ∀ i, ok i = true) (m : Machine) (buf addr size : Word) :
    ((flashmemWrite ok m buf addr size).1 = size.toNat ∧
      (∀ i < size.toNat, (flashmemWrite ok m buf addr size).2.flash (addr + (i : Word)) = m.ram (buf + (i : Word))) ∧
      (∀ a, (∀ i < size.toNat, a ≠ addr + (i : Word)) → (flashmemWrite ok m buf addr size).2.flash a = m.flash a) ∧
      (flashmemWrite ok m buf addr size).2.ram = m.ram) ∧ ((flashmemRead ok m buf addr size).1 = size.toNat ∧
      (∀ i < size.toNat, (flashmemRead ok m buf addr size).2.ram (buf + (i : Word)) = m.flash (addr + (i : Word))) ∧
      (∀ a, (∀ i < size.toNat, a ≠ buf + (i : Word)) → (flashmemRead ok m buf addr size).2.ram a = m.ram a) ∧
      (flashmemRead ok m buf addr size).2.flash = m.flash) := by
  obtain ⟨written, wrote⟩ := transfer_succeeds succeed .write m buf addr size
  obtain ⟨got, read⟩ := transfer_succeeds succeed .read m buf addr size
  refine ⟨⟨written, ?_, ?_, wrote.source⟩, ⟨got, ?_, ?_, read.source⟩⟩
  · intro i hi
    exact wrote.inside size.isLt hi
  · intro a out
    exact wrote.outside out
  · intro i hi
    exact read.inside size.isLt hi
  · intro a out
    exact read.outside out

theorem flashmem_transfers_exactly_odd :
    (∀ i : Nat, (fun _ => true) i = true) ∧
      (flashmemWrite (fun _ => true) ⟨fun a => a.toNat.toUInt8, fun _ => 0, 0⟩ 1 3 6).1 = 6 ∧
      (flashmemWrite (fun _ => true) ⟨fun a => a.toNat.toUInt8, fun _ => 0, 0⟩ 1 3 6).2.flash 8 = 6 := by
  have done := (@flashmem_transfers_exactly (fun _ => true) (fun _ => rfl)
    ⟨fun a => a.toNat.toUInt8, fun _ => 0, 0⟩ 1 3 6).1
  refine ⟨fun _ => rfl, done.1, ?_⟩
  exact done.2.1 5 (by decide)

lemma exists_telling (d : Direction) : ∃ ram flash : Word → UInt8,
    (d.source ⟨ram, flash, 0⟩ = fun _ => 1) ∧ d.target ⟨ram, flash, 0⟩ = fun _ => 0 := by
  cases d with
  | write => exact ⟨fun _ => 1, fun _ => 0, rfl, rfl⟩
  | read => exact ⟨fun _ => 0, fun _ => 1, rfl, rfl⟩

lemma Moved.le_of_telling {n : Nat} (ones : d.source m = fun _ => 1)
    (zeros : d.target m = fun _ => 0) (h : Moved d buf addr n m m') (h' : Moved d buf addr k m m')
    (small : n < 2 ^ 32) : n ≤ k := by
  by_contra more
  have one := h.inside small (Nat.lt_of_not_le more)
  have zero := @Moved.outside d m m' buf addr k h' (d.targetAt buf addr + (k : Word)) (by
    intro i hi same
    have := word_add_inj (by omega) (by omega) same
    omega)
  rw [zero, ones, zeros] at one
  exact absurd (show (0 : UInt8) = 1 from one) (by decide)

lemma transfer_result_iff (ok : Nat → Bool) (d : Direction) (buf addr size : Word) :
    (∀ ram flash, (transfer ok d ⟨ram, flash, 0⟩ buf addr size).1 ≤ size.toNat ∧
      Moved d buf addr (transfer ok d ⟨ram, flash, 0⟩ buf addr size).1 ⟨ram, flash, 0⟩
        (transfer ok d ⟨ram, flash, 0⟩ buf addr size).2) ↔
    tailLength addr size.toNat = 0 ∨ ¬ LateFailure ok d addr size.toNat := by
  constructor
  · intro all
    obtain ⟨ram, flash, ones, zeros⟩ := exists_telling d
    obtain ⟨bound, claimed⟩ := all ram flash
    obtain ⟨n, stage, counted, -⟩ := transfer_outcome ok d ⟨ram, flash, 0⟩ buf addr size
    simp only [Nat.zero_add] at counted
    rcases counted with ⟨-, cond⟩ | ⟨e, -⟩
    · exact cond
    · have := claimed.le_of_telling ones zeros stage.moved (Nat.lt_of_le_of_lt bound size.isLt)
      exact Or.inl (by omega)
  · intro cond ram flash
    obtain ⟨n, stage, counted, bound⟩ := transfer_outcome ok d ⟨ram, flash, 0⟩ buf addr size
    simp only [Nat.zero_add] at counted
    have e : (transfer ok d ⟨ram, flash, 0⟩ buf addr size).1 = n := by
      rcases counted with ⟨e, -⟩ | ⟨e, late⟩
      · exact e
      · rcases cond with tail | noLate
        · rw [e, tail, Nat.add_zero]
        · exact absurd late noLate
    exact ⟨bound, by rw [e]; exact stage.moved⟩

lemma transfer_complete_iff (ok : Nat → Bool) (d : Direction) (buf addr size : Word) :
    (∀ ram flash, Moved d buf addr size.toNat ⟨ram, flash, 0⟩ (transfer ok d ⟨ram, flash, 0⟩ buf addr size).2) ↔
    size.toNat = 0 ∨ ∀ i < transferCalls d buf addr size, ok i = true := by
  constructor
  · intro all
    obtain ⟨ram, flash, ones, zeros⟩ := exists_telling d
    obtain ⟨n, stage, -⟩ := transfer_outcome ok d ⟨ram, flash, 0⟩ buf addr size
    have full := stage.full
    simp only [Good, Nat.zero_add] at full
    exact full.mp (Nat.le_antisymm stage.le ((all ram flash).le_of_telling ones zeros stage.moved size.isLt))
  · intro cond ram flash
    obtain ⟨n, stage, -⟩ := transfer_outcome ok d ⟨ram, flash, 0⟩ buf addr size
    have full := stage.full
    simp only [Good, Nat.zero_add] at full
    exact full.mpr cond ▸ stage.moved

/-- `flashmem_write` and `flashmem_read` return the number of bytes moved exactly when none lies behind the last whole
unit, or no call behind the head fails. -/
theorem flashmem_result_counts_iff (ok : Nat → Bool) (buf addr size : Word) :
    ((∀ ram flash, (flashmemWrite ok ⟨ram, flash, 0⟩ buf addr size).1 ≤ size.toNat ∧
        Moved .write buf addr (flashmemWrite ok ⟨ram, flash, 0⟩ buf addr size).1 ⟨ram, flash, 0⟩
          (flashmemWrite ok ⟨ram, flash, 0⟩ buf addr size).2) ↔
      tailLength addr size.toNat = 0 ∨ ¬ LateFailure ok .write addr size.toNat) ∧
    ((∀ ram flash, (flashmemRead ok ⟨ram, flash, 0⟩ buf addr size).1 ≤ size.toNat ∧
        Moved .read buf addr (flashmemRead ok ⟨ram, flash, 0⟩ buf addr size).1 ⟨ram, flash, 0⟩
          (flashmemRead ok ⟨ram, flash, 0⟩ buf addr size).2) ↔
      tailLength addr size.toNat = 0 ∨ ¬ LateFailure ok .read addr size.toNat) :=
  ⟨transfer_result_iff ok .write buf addr size, transfer_result_iff ok .read buf addr size⟩

/-- One byte at an aligned address, and every SPI flash call fails: both functions return 1. -/
theorem flashmem_result_counts_lost_tail :
    ¬ ∀ (ok : Nat → Bool) (buf addr size : Word) (ram flash : Word → UInt8),
      ((flashmemWrite ok ⟨ram, flash, 0⟩ buf addr size).1 ≤ size.toNat ∧
        Moved .write buf addr (flashmemWrite ok ⟨ram, flash, 0⟩ buf addr size).1 ⟨ram, flash, 0⟩
          (flashmemWrite ok ⟨ram, flash, 0⟩ buf addr size).2) ∧
      (flashmemRead ok ⟨ram, flash, 0⟩ buf addr size).1 ≤ size.toNat ∧
        Moved .read buf addr (flashmemRead ok ⟨ram, flash, 0⟩ buf addr size).1 ⟨ram, flash, 0⟩
          (flashmemRead ok ⟨ram, flash, 0⟩ buf addr size).2 := by
  intro all
  have moved := (all (fun _ => false) 0 0 1 (fun _ => 1) (fun _ => 0)).1.2
  have byte := congrFun moved.target 0
  revert byte
  decide

end

end Sming.System
