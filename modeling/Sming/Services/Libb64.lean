import Mathlib.Algebra.Group.Nat.Defs
import Sming.Lib.Base64

/-!
# The base64 encoder of libb64

Embedding of `Sming/Services/libb64/cencode.c`. The encoder can be called with any pieces of the plain text.
Between two calls it keeps how many bytes of a group of three it has seen, the bits that wait for the next
byte and the number of groups on the current line. The loop that is entered in the middle by a `switch` is
one function of the byte here, since every turn of it ends with a look for the next byte.
-/

namespace Sming.Services

open Lib List Base64

inductive Base64Encodestep where
  | stepA
  | stepB
  | stepC
  deriving Repr, DecidableEq

structure Base64Encodestate where
  step : Base64Encodestep
  result : UInt8
  stepcount : Nat
  stepsPerLine : Nat
  deriving Repr, DecidableEq

def base64InitEncodestate (charsPerLine : Nat) : Base64Encodestate :=
  { step := .stepA, result := 0, stepcount := 0, stepsPerLine := charsPerLine / 4 }

def base64Encoding : List UInt8 :=
  "ABCDEFGHIJKLMNOPQRSTUVWXYZabcdefghijklmnopqrstuvwxyz0123456789+/".toList.map
    fun c => UInt8.ofNat c.toNat

def base64EncodeValue (value : UInt8) : UInt8 :=
  if value > 63 then 61 else base64Encoding.getD value.toNat 0

/-- The code of one byte and the encoder after it: the loop of `base64_encode_block` from one look for a byte to the
next. -/
def base64EncodeByte (s : Base64Encodestate) (fragment : UInt8) : List UInt8 × Base64Encodestate :=
  match s.step with
  | .stepA =>
    ([base64EncodeValue ((fragment &&& 0xfc) >>> 2)],
      { s with result := (fragment &&& 0x03) <<< 4, step := .stepB })
  | .stepB =>
    ([base64EncodeValue (s.result ||| ((fragment &&& 0xf0) >>> 4))],
      { s with result := (fragment &&& 0x0f) <<< 2, step := .stepC })
  | .stepC =>
    let code := [base64EncodeValue (s.result ||| ((fragment &&& 0xc0) >>> 6)),
      base64EncodeValue (fragment &&& 0x3f)]
    let s := { s with result := fragment &&& 0x3f, step := .stepA, stepcount := s.stepcount + 1 }
    if s.stepcount = s.stepsPerLine then (code ++ [10], { s with stepcount := 0 }) else (code, s)

def base64EncodeBlock : List UInt8 → Base64Encodestate → List UInt8 × Base64Encodestate
  | [], s => ([], s)
  | c :: plaintext, s =>
    let r := base64EncodeByte s c
    let rs := base64EncodeBlock plaintext r.2
    (r.1 ++ rs.1, rs.2)

def base64EncodeBlockend (s : Base64Encodestate) : List UInt8 :=
  match s.step with
  | .stepB => [base64EncodeValue s.result, 61, 61]
  | .stepC => [base64EncodeValue s.result, 61]
  | .stepA => []

lemma base64EncodeBlock_append (a b : List UInt8) (s : Base64Encodestate) :
    base64EncodeBlock (a ++ b) s = ((base64EncodeBlock a s).1 ++ (base64EncodeBlock b (base64EncodeBlock a s).2).1,
        (base64EncodeBlock b (base64EncodeBlock a s).2).2) := by
  induction a generalizing s with
  | nil => rfl
  | cons c a ih =>
    rw [cons_append, base64EncodeBlock, ih, base64EncodeBlock]
    simp only [List.append_assoc]

/-! ## Lengths -/

def Base64Encodestep.index : Base64Encodestep → Nat
  | .stepA => 0
  | .stepB => 1
  | .stepC => 2

lemma Base64Encodestep.index_le (step : Base64Encodestep) : step.index ≤ 2 := by
  cases step <;> decide

lemma base64EncodeByte_length_le (s : Base64Encodestate) (c : UInt8) :
    (base64EncodeByte s c).2.step.index = (s.step.index + 1) % 3 ∧
      (base64EncodeByte s c).1.length ≤ 1 + 2 * ((s.step.index + 1) / 3) := by
  unfold base64EncodeByte
  cases s.step with
  | stepA => exact ⟨rfl, Nat.le_refl _⟩
  | stepB => exact ⟨rfl, Nat.le_refl _⟩
  | stepC =>
    simp only
    split
    · exact ⟨rfl, Nat.le_refl 3⟩
    · exact ⟨rfl, Nat.le_succ 2⟩

lemma base64EncodeBlock_length_le (plaintext : List UInt8) (s : Base64Encodestate) :
    (base64EncodeBlock plaintext s).1.length ≤
      plaintext.length + 2 * ((s.step.index + plaintext.length) / 3) := by
  induction plaintext generalizing s with
  | nil => exact Nat.zero_le _
  | cons c plaintext ih =>
    obtain ⟨index, length⟩ := base64EncodeByte_length_le s c
    have rest := ih (base64EncodeByte s c).2
    rw [base64EncodeBlock, List.length_append, length_cons]
    rw [index] at rest
    omega

/-- The length of the end of the code after `n` bytes. -/
def base64EndLength (n : Nat) : Nat :=
  if n % 3 = 0 then 0 else 4 - n % 3

lemma base64EncodeBlockend_length (s : Base64Encodestate) :
    (base64EncodeBlockend s).length = base64EndLength s.step.index := by
  unfold base64EncodeBlockend
  cases s.step with
  | stepA => rfl
  | stepB => rfl
  | stepC => rfl

/-- The length of the code of `n` bytes with a line break after every 18 groups. -/
def base64Length (n : Nat) : Nat := n + n / 3 + n / 54

structure Base64Encodestate.After (s : Base64Encodestate) (n : Nat) : Prop where
  step : s.step.index = n % 3
  stepcount : s.stepcount = n / 3 % 18
  stepsPerLine : s.stepsPerLine = 18

variable {s : Base64Encodestate}

lemma base64EncodeByte_inside (h : s.step ≠ .stepC) (c : UInt8) :
    (base64EncodeByte s c).2.step.index = s.step.index + 1 ∧ (base64EncodeByte s c).1.length = 1 ∧
      (base64EncodeByte s c).2 =
        { s with result := (base64EncodeByte s c).2.result, step := (base64EncodeByte s c).2.step } := by
  unfold base64EncodeByte
  cases e : s.step with
  | stepA => exact ⟨rfl, rfl, rfl⟩
  | stepB => exact ⟨rfl, rfl, rfl⟩
  | stepC => exact absurd e h

variable {n : Nat}

lemma Base64Encodestate.After.byte (h : s.After n) (c : UInt8) :
    (base64EncodeByte s c).2.After (n + 1) ∧
      base64Length n + (base64EncodeByte s c).1.length = base64Length (n + 1) := by
  obtain ⟨step, stepcount, stepsPerLine⟩ := h
  by_cases last : s.step = .stepC
  · rw [last] at step
    change 2 = n % 3 at step
    unfold base64EncodeByte base64Length
    simp only [last, stepcount, stepsPerLine]
    split
    · refine ⟨⟨?_, ?_, rfl⟩, ?_⟩
      · simp only [Base64Encodestep.index]
        omega
      · simp only
        omega
      · simp only [List.length_append, length_cons, length_nil]
        omega
    · refine ⟨⟨?_, ?_, rfl⟩, ?_⟩
      · simp only [Base64Encodestep.index]
        omega
      · simp only
        omega
      · simp only [length_cons, length_nil]
        omega
  · obtain ⟨index, length, rest⟩ := base64EncodeByte_inside last c
    have less := (base64EncodeByte s c).2.step.index_le
    refine ⟨⟨?_, ?_, ?_⟩, ?_⟩
    · omega
    · rw [rest]
      simp only [stepcount]
      omega
    · rw [rest]
      exact stepsPerLine
    · unfold base64Length
      omega

lemma Base64Encodestate.After.block (h : s.After n) (plaintext : List UInt8) :
    (base64EncodeBlock plaintext s).2.After (n + plaintext.length) ∧
      base64Length n + (base64EncodeBlock plaintext s).1.length = base64Length (n + plaintext.length) := by
  induction plaintext generalizing s n with
  | nil => exact ⟨h, rfl⟩
  | cons c plaintext ih =>
    obtain ⟨h, length⟩ := h.byte c
    obtain ⟨h', length'⟩ := ih h
    rw [base64EncodeBlock, List.length_append, length_cons,
      show n + (plaintext.length + 1) = n + 1 + plaintext.length by omega]
    exact ⟨h', by omega⟩

lemma Base64Encodestate.After.blockend (h : s.After n) : (base64EncodeBlockend s).length = base64EndLength n := by
  rw [base64EncodeBlockend_length, h.step, base64EndLength, Nat.mod_mod, ← base64EndLength]

/-! ## The code -/

lemma base64EncodeValue_eq {v : UInt8} (h : v.toNat = n) (less : n < 64) : base64EncodeValue v = digit n := by
  have table : ∀ n < 64, base64EncodeValue (UInt8.ofNat n) = digit n := by decide +kernel
  rw [← table n less, ← h, UInt8.ofNat_toNat]

lemma forall_byte {f : UInt8 → UInt8} {g : Nat → Nat}
    (table : ∀ n < 256, (f (UInt8.ofNat n)).toNat = g n) (a : UInt8) : (f a).toNat = g a.toNat := by
  rw [← table a.toNat a.toNat_lt, UInt8.ofNat_toNat]

lemma toNat_or_of_multiple {x y : UInt8} {m k : Nat} (hx : x.toNat = m * 2 ^ k) (hy : y.toNat = n)
    (less : n < 2 ^ k) : (x ||| y).toNat = m * 2 ^ k + n := by
  rw [UInt8.toNat_or, hx, hy, ← Nat.shiftLeft_eq, Nat.shiftLeft_add_eq_or_of_lt less]

section Digits

variable (a b c : UInt8)

lemma first_digit : base64EncodeValue ((a &&& 0xfc) >>> 2) = digitAt 262144 (group a b c) := by
  have ha := a.toNat_lt
  have hb := b.toNat_lt
  have hc := c.toNat_lt
  have high := @forall_byte (fun a => (a &&& 0xfc) >>> 2) (· / 4) (by decide +kernel) a
  rw [base64EncodeValue_eq high (by omega), digitAt, group]
  congr 1
  omega

lemma second_digit :
    base64EncodeValue ((a &&& 0x03) <<< 4 ||| (b &&& 0xf0) >>> 4) = digitAt 4096 (group a b c) := by
  have ha := a.toNat_lt
  have hb := b.toNat_lt
  have hc := c.toNat_lt
  have low := @forall_byte (fun a => (a &&& 0x03) <<< 4) (· % 4 * 2 ^ 4) (by decide +kernel) a
  have high := @forall_byte (fun b => (b &&& 0xf0) >>> 4) (· / 16) (by decide +kernel) b
  rw [base64EncodeValue_eq (toNat_or_of_multiple low high (by omega)) (by omega), digitAt, group]
  congr 1
  omega

lemma third_digit :
    base64EncodeValue ((b &&& 0x0f) <<< 2 ||| (c &&& 0xc0) >>> 6) = digitAt 64 (group a b c) := by
  have ha := a.toNat_lt
  have hb := b.toNat_lt
  have hc := c.toNat_lt
  have low := @forall_byte (fun b => (b &&& 0x0f) <<< 2) (· % 16 * 2 ^ 2) (by decide +kernel) b
  have high := @forall_byte (fun c => (c &&& 0xc0) >>> 6) (· / 64) (by decide +kernel) c
  rw [base64EncodeValue_eq (toNat_or_of_multiple low high (by omega)) (by omega), digitAt, group]
  congr 1
  omega

lemma fourth_digit : base64EncodeValue (c &&& 0x3f) = digitAt 1 (group a b c) := by
  have ha := a.toNat_lt
  have hb := b.toNat_lt
  have hc := c.toNat_lt
  have low := @forall_byte (fun c => c &&& 0x3f) (· % 64) (by decide +kernel) c
  rw [base64EncodeValue_eq low (by omega), digitAt, group]
  congr 1
  omega

end Digits

lemma digitAt_ne_break (w g : Nat) : (digitAt w g != 10) = true := by
  have table : ∀ v < 64, (digit v != 10) = true := by decide
  exact table _ (Nat.mod_lt _ (by decide))

lemma base64EncodeBlock_group (h : s.step = .stepA) (a b c : UInt8) (plaintext : List UInt8) :
    ∃ s' lineBreak, s'.step = .stepA ∧ lineBreak.filter (· != 10) = [] ∧
      base64EncodeBlock (a :: b :: c :: plaintext) s = ([digitAt 262144 (group a b c), digitAt 4096 (group a b c),
            digitAt 64 (group a b c), digitAt 1 (group a b c)] ++
          lineBreak ++ (base64EncodeBlock plaintext s').1, (base64EncodeBlock plaintext s').2) := by
  simp only [base64EncodeBlock, base64EncodeByte, h, ← first_digit a b c, ← second_digit a b c,
    ← third_digit a b c, ← fourth_digit a b c]
  split
  · exact ⟨_, [10], rfl, rfl, rfl⟩
  · exact ⟨_, [], rfl, rfl, rfl⟩

lemma base64EncodeBlock_encode (h : s.step = .stepA) (plaintext : List UInt8) :
    ((base64EncodeBlock plaintext s).1 ++ base64EncodeBlockend (base64EncodeBlock plaintext s).2).filter
      (· != 10) = encode plaintext := by
  induction plaintext using encode.induct generalizing s with
  | case1 => simp [base64EncodeBlock, base64EncodeBlockend, h, encode]
  | case2 a =>
    have second := second_digit a 0 0
    rw [show ((0 : UInt8) &&& 0xf0) >>> 4 = 0 from rfl, UInt8.or_zero] at second
    simp [base64EncodeBlock, base64EncodeByte, base64EncodeBlockend, h, first_digit a 0 0, second,
      encode, pad, digitAt_ne_break, - bne_iff_ne]
  | case3 a b =>
    have third := third_digit a b 0
    rw [show ((0 : UInt8) &&& 0xc0) >>> 6 = 0 from rfl, UInt8.or_zero] at third
    simp [base64EncodeBlock, base64EncodeByte, base64EncodeBlockend, h, first_digit a b 0,
      second_digit a b 0, third, encode, pad, digitAt_ne_break, - bne_iff_ne]
  | case4 a b c rest ih =>
    obtain ⟨s', lineBreak, step, none, e⟩ := base64EncodeBlock_group h a b c rest
    rw [e, encode, ← ih step]
    simp only [filter_append, none, List.append_assoc]
    simp [digitAt_ne_break, - bne_iff_ne]

end Sming.Services
