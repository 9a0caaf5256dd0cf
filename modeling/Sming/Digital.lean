import Mathlib.Data.Nat.Bitwise

/-!
# Measuring a pulse

Embedding of `pulseIn` of `Sming/SmingCore/Digital.cpp`. Three loops sample the input register and share one budget of
rounds; the mask of the pin is kept in eight bits.
-/

namespace Sming.Digital

def digitalPinToBitMask (pin : Fin 16) : UInt32 := 1 <<< UInt32.ofNat pin

/-- The rounds of `while(p(sample)) if(numloops++ == maxloops) return 0;` with `left` rounds to go, from sample `i` on. -/
def rounds (p : Nat → Bool) : Nat → Nat → Option Nat
  | 0, i => if p i then none else some 0
  | left + 1, i => if p i then (rounds p left (i + 1)).map (· + 1) else some 0

def pulseWidth (p : Nat → Bool) (maxloops : Nat) : Option Nat := do
  let n ← rounds p maxloops 0
  let m ← rounds (fun i => !p i) (maxloops - n) (n + 1)
  rounds p (maxloops - n - m) (n + m + 2)

/-- (C++ `microsecondsToClockCycles`, by 16.) -/
def maxloops (timeout : UInt32) : Nat := (timeout * 80 / 16).toNat

def atState (pin : Fin 16) (state : UInt8) (sample : UInt32) : Bool :=
  let bit : UInt8 := (digitalPinToBitMask pin).toUInt8
  let stateMask : UInt8 := if state ≠ 0 then bit else 0
  sample &&& bit.toUInt32 = stateMask.toUInt32

/-- (C++ `pulseIn`, with `clockCyclesToMicroseconds`.) -/
def pulseIn (pin : Fin 16) (state : UInt8) (timeout : UInt32) (samples : Nat → UInt32) : UInt32 :=
  match pulseWidth (fun i => atState pin state (samples i)) (maxloops timeout) with
  | none => 0
  | some width => (UInt32.ofNat width * 21 + 16) / 80

def level (pin : Fin 16) (state : UInt8) (samples : Nat → UInt32) (i : Nat) : Bool :=
  (samples i).toNat.testBit pin == decide (state ≠ 0)

/-- A complete pulse: the signal leaves the level behind `n` samples, enters it behind `m` more and leaves it again behind
another `width`. -/
structure Pulse (p : Nat → Bool) (n m width : Nat) : Prop where
  before : ∀ i < n, p i
  left : p n = false
  low : ∀ i < m, p (n + 1 + i) = false
  entered : p (n + 1 + m)
  high : ∀ i < width, p (n + m + 2 + i)
  ended : p (n + m + 2 + width) = false

variable {p : Nat → Bool} {pin : Fin 16} {state : UInt8} {samples : Nat → UInt32}

lemma rounds_eq_some_iff {left i n : Nat} :
    rounds p left i = some n ↔ n ≤ left ∧ (∀ j < n, p (i + j)) ∧ p (i + n) = false := by
  induction left generalizing i n with
  | zero =>
    rw [rounds]
    cases n <;> cases p i <;> simp
  | succ left ih =>
    rw [rounds]
    cases n with
    | zero => cases p i <;> simp
    | succ n =>
      have shift j : p (i + (j + 1)) = p (i + 1 + j) := congrArg p (by omega)
      simp only [Nat.forall_lt_succ_left, shift, Nat.add_zero]
      cases p i <;> simp [ih]

lemma pulseWidth_eq_some_iff {loops width : Nat} :
    pulseWidth p loops = some width ↔ ∃ n m, Pulse p n m width ∧ n + m + width ≤ loops := by
  simp only [pulseWidth, bind, Option.bind_eq_some_iff, rounds_eq_some_iff, Nat.zero_add, Bool.not_eq_true',
    Bool.not_eq_false']
  constructor
  · rintro ⟨n, ⟨a, before, left⟩, m, ⟨b, low, entered⟩, c, high, ended⟩
    exact ⟨n, m, ⟨before, left, low, entered, high, ended⟩, by omega⟩
  · rintro ⟨n, m, ⟨before, left, low, entered, high, ended⟩, enough⟩
    exact ⟨n, ⟨by omega, before, left⟩, m, ⟨by omega, low, entered⟩, by omega, high, ended⟩

lemma forall_pulse_iff {loops : Nat} {Q : Nat → Prop} :
    (∀ n m width, Pulse p n m width → n + m + width ≤ loops → Q width) ↔
      ∀ width, pulseWidth p loops = some width → Q width := by
  simp only [pulseWidth_eq_some_iff]
  exact ⟨fun all width ⟨n, m, pulse, enough⟩ => all n m width pulse enough,
    fun all n m width pulse enough => all width ⟨n, m, pulse, enough⟩⟩

lemma digitalPinToBitMask_toUInt8 :
    ∀ pin, (digitalPinToBitMask pin).toUInt8.toNat = if pin.val < 8 then 2 ^ pin.val else 0 := by
  decide

lemma atState_eq (sample : UInt32) : atState pin state sample =
    if pin.val < 8 then sample.toNat.testBit pin == decide (state ≠ 0) else true := by
  have mask := digitalPinToBitMask_toUInt8 pin
  rw [atState]
  simp only [← UInt32.toNat_inj, UInt32.toNat_and, UInt8.toNat_toUInt32, apply_ite UInt8.toNat, mask]
  split
  · rw [Nat.and_two_pow]
    have pos := Nat.two_pow_pos pin.val
    cases sample.toNat.testBit pin <;> by_cases high : state = 0 <;> simp [high, pos.ne]
  · simp

def Measured (pin : Fin 16) (state : UInt8) (timeout : UInt32) (samples : Nat → UInt32) : Prop :=
  (∀ n m width, Pulse (level pin state samples) n m width → n + m + width ≤ maxloops timeout →
    (pulseIn pin state timeout samples).toNat = (width * 21 + 16) / 80) ∧
  ((∀ n m width, Pulse (level pin state samples) n m width → maxloops timeout < n + m + width) →
    pulseIn pin state timeout samples = 0)

lemma pulseIn_of_lt (low : pin.val < 8) (timeout : UInt32) : pulseIn pin state timeout samples =
    match pulseWidth (level pin state samples) (maxloops timeout) with
    | none => 0
    | some width => (UInt32.ofNat width * 21 + 16) / 80 := by
  rw [pulseIn]
  simp only [atState_eq, if_pos low]
  rfl

lemma pulseIn_of_ge (high : 8 ≤ pin.val) (timeout : UInt32) : pulseIn pin state timeout samples = 0 := by
  have never : pulseWidth (fun _ => true) (maxloops timeout) = none := by
    apply Option.eq_none_iff_forall_ne_some.mpr
    intro width found
    obtain ⟨n, m, pulse, -⟩ := pulseWidth_eq_some_iff.mp found
    cases pulse.left
  rw [pulseIn]
  simp only [atState_eq, if_neg (Nat.not_lt.mpr high), never]

/-- A pulse is measured rightly on a pin below eight unless its length overflows; on any other pin only if its length is
no microsecond. -/
theorem pulseIn_iff (pin : Fin 16) (state : UInt8) (timeout : UInt32) (samples : Nat → UInt32) :
    (Measured pin state timeout samples ↔
      ∀ n m width, Pulse (level pin state samples) n m width → n + m + width ≤ maxloops timeout →
        width * 21 + 16 < if pin.val < 8 then 2 ^ 32 else 80) ∧
    ∀ samples' : Nat → UInt32, (∀ i, (samples' i).toNat.testBit pin = (samples i).toNat.testBit pin) →
      pulseIn pin state timeout samples' = pulseIn pin state timeout samples := by
  constructor
  · rw [Measured, forall_pulse_iff, forall_pulse_iff]
    cases found : pulseWidth (level pin state samples) (maxloops timeout) with
    | none =>
      refine iff_of_true ⟨nofun, fun _ => ?_⟩ nofun
      rcases Nat.lt_or_ge pin.val 8 with low | high
      · rw [pulseIn_of_lt low, found]
      · exact pulseIn_of_ge high timeout
    | some width =>
      obtain ⟨n, m, pulse, enough⟩ := pulseWidth_eq_some_iff.mp found
      rw [and_iff_left fun none => absurd enough (Nat.not_le.mpr (none n m width pulse))]
      simp only [Option.some.injEq, forall_eq']
      rcases Nat.lt_or_ge pin.val 8 with low | high
      · rw [pulseIn_of_lt low, found, if_pos low]
        simp only [UInt32.toNat_div, UInt32.toNat_add, UInt32.toNat_mul, UInt32.toNat_ofNat', UInt32.reduceToNat]
        omega
      · rw [pulseIn_of_ge high, if_neg (Nat.not_lt.mpr high), UInt32.toNat_zero]
        omega
  · intro samples' same
    rcases Nat.lt_or_ge pin.val 8 with low | high
    · have signal : level pin state samples' = level pin state samples := by
        funext i
        rw [level, level, same]
      rw [pulseIn_of_lt low, pulseIn_of_lt low, signal]
    · rw [pulseIn_of_ge high, pulseIn_of_ge high]

theorem pulseIn_not_measured : ¬ ∀ pin state timeout samples, Measured pin state timeout samples := by
  intro all
  have pulse : Pulse (level 8 1 fun i => if 2 ≤ i ∧ i < 8 then 0x100 else 0) 0 1 5 := by
    constructor <;> decide
  have wrong := (all 8 1 4 fun i => if 2 ≤ i ∧ i < 8 then 0x100 else 0).1 0 1 5 pulse (by decide)
  rw [pulseIn_of_ge (by decide)] at wrong
  exact absurd wrong (by decide)

end Sming.Digital
