import Sming.Lib.I2c

/-!
# The software I2C master

Embedding of `Sming/SmingCore/core_esp8266_si2c.cpp` on an open-drain bus. A device changes what it does to the lines
only behind a fall of the clock, so that it is a function of the number of falls; times (`twi_delay`, the polls of
`twi_clockStretchLimit`) are left out: a device either lets the clock go while the master waits or not before the next
period.
-/

namespace Sming.Twi

open List Lib.I2c

/-- The device on the bus: whether it lets a line go in a period of the clock. -/
structure Device where
  sda : Nat → Bool
  scl : Nat → Bool

structure Bus where
  scl : Bool := true
  sdaOut : Bool := true
  period : Nat := 0
  monitor : Monitor := {}

variable (d : Device) (b : Bus)

def Bus.level : Level := ⟨b.scl, b.sdaOut && d.sda b.period⟩

def Bus.turn (b c : Bus) : Bus := { c with monitor := b.monitor.observe (b.level d) (c.level d) }

/-- (C++ `SDA_LOW`, `SDA_HIGH`.) -/
def sdaSet (out : Bool) : Bus := b.turn d { b with sdaOut := out }

/-- (C++ `SDA_READ`.) -/
def sdaRead : Bool := (b.level d).sda

/-- (C++ `SCL_LOW`.) -/
def sclLow : Bus := b.turn d { b with scl := false, period := b.period + 1 }

/-- (C++ `SCL_HIGH`, with the wait behind it.) -/
def sclHigh : Bus := b.turn d { b with scl := b.scl || d.scl b.period }

def writeStart : Bool × Bus :=
  let b := sdaSet d (sclHigh d b) true
  if sdaRead d b then (true, sdaSet d b false) else (false, b)

def writeStop : Bus := sdaSet d (sclHigh d (sdaSet d (sclLow d b) false)) true

def writeBit (bit : Bool) : Bus := sclHigh d (sdaSet d (sclLow d b) bit)

def readBit : Bool × Bus :=
  let b := sclHigh d (sdaSet d (sclLow d b) true)
  (sdaRead d b, b)

def writeBits : Nat → UInt8 → Bus → Bus
  | 0, _, b => b
  | n + 1, byte, b => writeBits n (byte <<< 1) (writeBit d b (byte &&& 0x80 != 0))

def writeByte (byte : UInt8) (b : Bus) : Bool × Bus :=
  let (nack, b) := readBit d (writeBits d 8 byte b)
  (!nack, b)

def readBits : Nat → UInt8 → Bus → UInt8 × Bus
  | 0, byte, b => (byte, b)
  | n + 1, byte, b => readBits n (shiftIn byte (readBit d b).1) (readBit d b).2

def readByte (nack : Bool) (b : Bus) : UInt8 × Bus :=
  let (byte, b) := readBits d 8 0 b
  (byte, writeBit d b nack)

/-- The loop that clocks a device which still holds SDA. -/
def release : Nat → Bus → Bus
  | 0, b => b
  | n + 1, b => if sdaRead d b then b else release n (sclHigh d (sclLow d b))

def stopIf (sendStop : Bool) (b : Bus) : Bus := if sendStop then writeStop d b else b

/-- The bytes that go out until one is not acknowledged. -/
def writeBytes : List UInt8 → Bus → Bool × Bus
  | [], b => (true, b)
  | byte :: buf, b =>
    match writeByte d byte b with
    | (true, b) => writeBytes buf b
    | (false, b) => (false, b)

/-- (C++ `twi_writeTo`.) -/
def writeTo (address : UInt8) (buf : List UInt8) (sendStop : Bool) (b : Bus) : UInt8 × Bus :=
  match writeStart d b with
  | (false, b) => (4, b)
  | (true, b) =>
    match writeByte d (address <<< 1) b with
    | (false, b) => (2, stopIf d sendStop b)
    | (true, b) =>
      match writeBytes d buf b with
      | (false, b) => (3, stopIf d sendStop b)
      | (true, b) => (0, release d 10 (stopIf d sendStop b))

def readBytes : Nat → Bus → List UInt8 × Bus
  | 0, b => ([], b)
  | n + 1, b =>
    let (byte, b) := readByte d false b
    let (buf, b) := readBytes n b
    (byte :: buf, b)

/-- (C++ `twi_readFrom`: the code, what is stored from `buf` on; `len - 1` has 32 bits.) -/
def readFrom (address : UInt8) (len : UInt32) (sendStop : Bool) (b : Bus) : UInt8 × List UInt8 × Bus :=
  match writeStart d b with
  | (false, b) => (4, [], b)
  | (true, b) =>
    match writeByte d (address <<< 1 ||| 1) b with
    | (false, b) => (2, [], stopIf d sendStop b)
    | (true, b) =>
      let (buf, b) := readBytes d (len - 1).toNat b
      let (byte, b) := readByte d true b
      (0, buf ++ [byte], release d 10 (stopIf d sendStop b))

/-- The words of a list of bytes up to the first that is not acknowledged, from period `p` on. -/
def sent : Nat → List UInt8 → List Word
  | _, [] => []
  | p, byte :: buf => (byte, !d.sda (p + 9)) :: if d.sda (p + 9) then [] else sent (p + 9) buf

/-- The device touches SDA to acknowledge only. -/
def listens : Nat → List UInt8 → Bool
  | p, [] => d.sda (p + 1)
  | p, _ :: buf => (range' (p + 1) 8).all d.sda && if d.sda (p + 9) then d.sda (p + 10) else listens (p + 9) buf

/-- The byte the device puts on SDA from period `p` on. -/
def driven (p : Nat) : UInt8 := ((range' (p + 1) 8).map d.sda).foldl shiftIn 0

def given : Nat → Nat → List UInt8
  | _, 0 => []
  | p, n + 1 => driven d p :: given (p + 9) n

/-- The device leaves SDA to the master behind each of `n` bytes. -/
def gives : Nat → Nat → Bool
  | _, 0 => true
  | p, n + 1 => d.sda (p + 9) && gives (p + 9) n

/-- The words of a read of `n` bytes and the last. -/
def read (address : UInt8) (p n : Nat) : List Word :=
  if d.sda (p + 9) then [(address <<< 1 ||| 1, false)]
  else (address <<< 1 ||| 1, true) :: (given d (p + 9) n).map (·, true) ++ [(driven d (p + 9 + 9 * n), false)]

/-- The device touches SDA to acknowledge its address and for the bits of its bytes only. -/
def answers (p n : Nat) : Bool :=
  (range' (p + 1) 8).all d.sda && if d.sda (p + 9) then d.sda (p + 10)
    else gives d (p + 9) n && d.sda (p + 9 + 9 * n + 9) && d.sda (p + 9 + 9 * n + 10)

/-- Both lines are free, and the monitor has seen the transfers `ts`. -/
structure Rests (b : Bus) (ts : List (List Word)) : Prop where
  scl : b.scl
  sdaOut : b.sdaOut
  sda : d.sda b.period
  transfers : b.monitor.transfers = ts

/-- The bus in a transfer, with the words `ws` behind it. -/
def during (p : Nat) (t : List (List Word)) (ws : List Word) (out : Bool) : Bus :=
  ⟨true, out, p, ⟨t, some (ws.flatMap Word.bits)⟩⟩

variable {d} {b : Bus} {p : Nat} {t : List (List Word)} {ws : List Word} {l : List Bool} {out scl : Bool}

lemma length_given (n : Nat) : (given d p n).length = n := by
  induction n generalizing p with
  | zero => rfl
  | succ n ih => rw [given, length_cons, ih]

lemma length_tail_read (address : UInt8) (n : Nat) :
    (read d address p n).tail.length = if d.sda (p + 9) then 0 else n + 1 := by
  rw [read]
  split <;> simp [length_given]

lemma writeStart_eq {ts : List (List Word)} (h : Rests d b ts) :
    writeStart d b = (true, during b.period ts [] false) := by
  obtain ⟨scl, out, p, m⟩ := b
  obtain ⟨rfl, rfl, sda, rfl⟩ := h
  simp [writeStart, sdaRead, sclHigh, sdaSet, Bus.turn, Bus.level, during, sda, Monitor.observe]

/-- Behind the last word the device leaves SDA alone; it has not touched it for a word it refused. -/
lemma listens_behind {buf : List UInt8} (free : listens d p buf) : d.sda (p + 9 * (sent d p buf).length + 1) ∧
    ((sent d p buf).all (·.2) = false → d.sda (p + 9 * (sent d p buf).length)) := by
  induction buf generalizing p with
  | nil => exact ⟨free, nofun⟩
  | cons byte buf ih =>
    rw [listens, Bool.and_eq_true] at free
    rw [sent]
    cases nack : d.sda (p + 9) with
    | true => exact ⟨by simpa [nack] using free.2, fun _ => nack⟩
    | false =>
      have := ih (by simpa [nack] using free.2)
      simpa [Nat.mul_add, Nat.add_assoc, Nat.add_comm 9] using this

section
variable (clock : ∀ n, d.scl n)
include clock

lemma writeBit_mk (bit : Bool) : writeBit d ⟨scl, out, p, ⟨t, some l⟩⟩ bit =
    ⟨true, bit, p + 1, ⟨t, some (l ++ [bit && d.sda (p + 1)])⟩⟩ := by
  simp [writeBit, sclHigh, sdaSet, sclLow, Bus.turn, Bus.level, clock (p + 1), Monitor.observe]

lemma readBit_mk : readBit d ⟨scl, out, p, ⟨t, some l⟩⟩ =
    (d.sda (p + 1), ⟨true, true, p + 1, ⟨t, some (l ++ [d.sda (p + 1)])⟩⟩) := by
  change (sdaRead d (writeBit d _ true), writeBit d _ true) = _
  rw [writeBit_mk clock]
  simp [sdaRead, Bus.level]

lemma writeBits_mk {n : Nat} (byte : UInt8) (free : (range' (p + 1) n).all d.sda) :
    ∃ out', writeBits d n byte ⟨true, out, p, ⟨t, some l⟩⟩ =
      ⟨true, out', p + n, ⟨t, some (l ++ bitsFrom n byte)⟩⟩ := by
  induction n generalizing byte p out l with
  | zero => exact ⟨out, by simp [writeBits, bitsFrom]⟩
  | succ n ih =>
    rw [range'_succ, all_cons, Bool.and_eq_true] at free
    obtain ⟨out', e⟩ := ih (byte <<< 1) free.2
    refine ⟨out', ?_⟩
    rw [writeBits, writeBit_mk clock, free.1, Bool.and_true, e, bitsFrom, append_assoc, singleton_append,
      Nat.add_assoc, Nat.add_comm 1]

lemma writeByte_during (byte : UInt8) (free : (range' (p + 1) 8).all d.sda) :
    writeByte d byte (during p t ws out) =
      (!d.sda (p + 9), during (p + 9) t (ws ++ [(byte, !d.sda (p + 9))]) true) := by
  obtain ⟨out', e⟩ := writeBits_mk clock byte free
  rw [writeByte, during, e, readBit_mk clock]
  simp [during, Word.bits]

lemma writeBytes_during {buf : List UInt8} (free : listens d p buf) :
    writeBytes d buf (during p t ws true) =
      ((sent d p buf).all (·.2), during (p + 9 * (sent d p buf).length) t (ws ++ sent d p buf) true) := by
  induction buf generalizing p ws with
  | nil => simp [writeBytes, sent]
  | cons byte buf ih =>
    rw [listens, Bool.and_eq_true] at free
    rw [writeBytes, writeByte_during clock byte free.1, sent]
    cases nack : d.sda (p + 9) with
    | true => rfl
    | false =>
      have rest := free.2
      rw [nack, if_neg Bool.false_ne_true] at rest
      simp [ih rest, Nat.mul_add, Nat.add_assoc, Nat.add_comm 9]

lemma readBits_mk {n : Nat} (byte : UInt8) : ∃ out', readBits d n byte ⟨true, out, p, ⟨t, some l⟩⟩ =
    (((range' (p + 1) n).map d.sda).foldl shiftIn byte,
      ⟨true, out', p + n, ⟨t, some (l ++ (range' (p + 1) n).map d.sda)⟩⟩) := by
  induction n generalizing byte p out l with
  | zero => exact ⟨out, by simp [readBits]⟩
  | succ n ih =>
    rw [readBits, readBit_mk clock]
    obtain ⟨out', e⟩ := ih (shiftIn byte (d.sda (p + 1)))
    refine ⟨out', ?_⟩
    rw [e, range'_succ, map_cons, foldl_cons, append_assoc, singleton_append, Nat.add_right_comm p 1 n]
    rfl

lemma readByte_during (nack : Bool) (free : d.sda (p + 9)) : readByte d nack (during p t ws out) =
    (driven d p, during (p + 9) t (ws ++ [(driven d p, !nack)]) nack) := by
  obtain ⟨out', e⟩ := readBits_mk (n := 8) clock 0
  have bits : bitsFrom 8 (driven d p) = (range' (p + 1) 8).map d.sda := bitsFrom_foldl (by simp)
  rw [readByte, during, e, during]
  simp only [writeBit_mk clock, free]
  simp [Word.bits, bits]
  rfl

lemma readBytes_during {n : Nat} (free : gives d p n) : ∃ out', readBytes d n (during p t ws out) =
    (given d p n, during (p + 9 * n) t (ws ++ (given d p n).map (·, true)) out') := by
  induction n generalizing p ws out with
  | zero => exact ⟨out, by simp [readBytes, given]⟩
  | succ n ih =>
    rw [gives, Bool.and_eq_true] at free
    obtain ⟨out', e⟩ : ∃ out', readBytes d n (during (p + 9) t (ws ++ [(driven d p, true)]) false) = _ := ih free.2
    refine ⟨out', ?_⟩
    simp only [readBytes, readByte_during clock false free.1, Bool.not_false, e]
    simp [given, Nat.mul_add, Nat.add_assoc, Nat.add_comm 9]

lemma writeStop_rests (free : d.sda (p + 1)) : Rests d (writeStop d (during p t ws true)) (t ++ [ws]) := by
  have words := words_flatMap ws [false]
  constructor <;>
    simp [writeStop, during, sclHigh, sdaSet, sclLow, Bus.turn, Bus.level, clock (p + 1), free, Monitor.observe,
      Monitor.transfers, words, Lib.I2c.words]

lemma stopIf_rests (sendStop : Bool) (free : d.sda (p + 1)) (high : d.sda p) :
    Rests d (stopIf d sendStop (during p t ws true)) (t ++ [ws]) := by
  cases sendStop with
  | true => exact writeStop_rests clock free
  | false =>
    have words := words_flatMap ws []
    rw [append_nil] at words
    constructor <;> simp [stopIf, during, high, Monitor.transfers, words, Lib.I2c.words]

lemma release_rests (sendStop : Bool) (free : d.sda (p + 1)) :
    Rests d (release d 10 (stopIf d sendStop (during p t ws true))) (t ++ [ws]) := by
  have at_rest {b : Bus} {n : Nat} (h : Rests d b (t ++ [ws])) : Rests d (release d (n + 1) b) (t ++ [ws]) := by
    rwa [release, if_pos (by simp [sdaRead, Bus.level, h.sdaOut, h.sda])]
  cases high : d.sda p with
  | true => exact at_rest (stopIf_rests clock sendStop free high)
  | false =>
    cases sendStop with
    | true => exact at_rest (writeStop_rests clock free)
    | false =>
      -- the acknowledged device holds SDA; the pulse that frees it is a bit of no word
      have words := words_flatMap ws [true]
      rw [stopIf, if_neg Bool.false_ne_true, release, if_neg (by simp [sdaRead, Bus.level, during, high])]
      apply at_rest
      constructor <;>
        simp [during, sclHigh, sclLow, Bus.turn, Bus.level, clock (p + 1), free, Monitor.observe, Monitor.transfers,
          words, Lib.I2c.words]

/-- The code for the words of a `twi_writeTo`. -/
def code (ws : List Word) : UInt8 := if ws.all (·.2) then 0 else if ws.length = 1 then 2 else 3

lemma writeTo_spec {ts : List (List Word)} {address : UInt8} {buf : List UInt8} (sendStop : Bool) (rest : Rests d b ts)
    (free : listens d b.period (address <<< 1 :: buf)) :
    let ws := sent d b.period (address <<< 1 :: buf)
    (writeTo d address buf sendStop b).1 = code ws ∧ Rests d (writeTo d address buf sendStop b).2 (ts ++ [ws]) := by
  rw [listens, Bool.and_eq_true] at free
  simp only [writeTo, writeStart_eq rest, writeByte_during clock _ free.1, sent]
  cases nack : d.sda (b.period + 9) with
  | true =>
    rw [nack] at free
    exact ⟨rfl, stopIf_rests clock sendStop free.2 nack⟩
  | false =>
    have next : listens d (b.period + 9) buf := by simpa [nack] using free.2
    have all_sent : writeBytes d buf (during (b.period + 9) ts [(address <<< 1, true)] true) = _ :=
      writeBytes_during clock next
    simp only [Bool.not_false, nil_append, all_sent]
    cases all : (sent d (b.period + 9) buf).all (·.2) with
    | true => exact ⟨by simp [code, all], release_rests clock sendStop (listens_behind next).1⟩
    | false =>
      refine ⟨?_, stopIf_rests clock sendStop (listens_behind next).1 ((listens_behind next).2 all)⟩
      have some_sent : sent d (b.period + 9) buf ≠ [] := fun e => by simp [e] at all
      simp [code, all, some_sent]

lemma readFrom_spec {ts : List (List Word)} (address : UInt8) {len : UInt32} {n : Nat} (sendStop : Bool)
    (rest : Rests d b ts) (size : (len - 1).toNat = n) (free : answers d b.period n) :
    let r := readFrom d address len sendStop b
    r.1 = (if d.sda (b.period + 9) then 2 else 0) ∧ r.2.1 = (read d address b.period n).tail.map (·.1) ∧
      Rests d r.2.2 (ts ++ [read d address b.period n]) := by
  rw [answers, Bool.and_eq_true] at free
  simp only [readFrom, writeStart_eq rest, writeByte_during clock _ free.1, read, size]
  cases nack : d.sda (b.period + 9) with
  | true =>
    rw [nack] at free
    exact ⟨rfl, rfl, stopIf_rests clock sendStop free.2 nack⟩
  | false =>
    have next : gives d (b.period + 9) n ∧ d.sda (b.period + 9 + 9 * n + 9) ∧ d.sda (b.period + 9 + 9 * n + 10) := by
      simpa [nack, and_assoc] using free.2
    obtain ⟨out', e⟩ : ∃ out', readBytes d n (during (b.period + 9) ts [(address <<< 1 ||| 1, true)] true) = _ :=
      readBytes_during clock next.1
    simp only [Bool.not_false, nil_append, e, readByte_during clock true next.2.1]
    exact ⟨rfl, by simp [Function.comp_def], release_rests clock sendStop next.2.2⟩

end

end Sming.Twi
