import Mathlib.Algebra.Ring.Nat
import Sming.Lib.Loop

/-!
# The clock of the SPI bus

Embedding of `SPIClass::setClock`, `SPIClass::getFrequency` and `SPIClass::setFrequency` (`Sming/SmingCore/SPI.cpp`).
A requested frequency is reached with a clock divider of 2, 3 or 5 and a pre-divider that is searched upwards. The
pre-divider is an `int` until it is handed to `setClock`, which takes a byte.
-/

namespace Sming
open Lib

inductive CpuFreq where
  | mhz80
  | mhz160
  deriving DecidableEq

def CpuFreq.system_get_cpu_freq : CpuFreq → Nat
  | .mhz80 => 80
  | .mhz160 => 160

def CpuFreq.hertz (c : CpuFreq) : Nat := c.system_get_cpu_freq * 1000000

inductive Stop where
  | divisionByZero
  /-- The turns of a loop that are allowed were not enough. -/
  | unfinished

def quotient (a b : Int) : Except Stop Int := if b = 0 then .error .divisionByZero else .ok (a.tdiv b)

/-- What `setFrequency` uses of the object: `initialised` and `spiSettings.speed`. -/
structure SPIClass where
  initialised : Bool := false
  speed : Int := 4000000

namespace SPIClass

def setClock (prediv cntdiv : UInt8) : UInt32 :=
  if prediv = 0 ∨ cntdiv = 0 then (1 : UInt32) <<< 31
  else
    ((prediv.toUInt32 - 1) &&& 0x1FFF) <<< 18 ||| ((cntdiv.toUInt32 - 1) &&& 0x3F) <<< 12 |||
      ((cntdiv >>> 1).toUInt32 &&& 0x3F) <<< 6

/-- What the hardware divides the CPU clock by: nothing with `SPI_CLK_EQU_SYSCLK`, else the two dividers. -/
def busDivider (clock : UInt32) : Nat :=
  if clock >>> 31 = 1 then 1
  else ((clock >>> 18 &&& 0x1FFF).toNat + 1) * ((clock >>> 12 &&& 0x3F).toNat + 1)

/-- The quotient and the remainder of the C library, for a denominator that is not zero. -/
def div (numer denom : Int) : Int × Int :=
  let quot := numer.tdiv denom
  let rem := numer.tmod denom
  if numer ≥ 0 ∧ rem < 0 then (quot + 1, rem - denom) else (quot, rem)

def turn (cpu freq clk pre : Int) : Int ⊕ Except Stop (Int × Int) :=
  match quotient cpu pre with
  | .error e => .inr (.error e)
  | .ok q => if q.tdiv clk > freq then .inl (pre + 1) else .inr (.ok (pre, q.tdiv clk))

/-- The pre-divider, and the frequency it gives. -/
def getFrequency (fuel : Nat) (c : CpuFreq) (freq clk : Int) : Except Stop (Int × Int) :=
  match quotient c.hertz freq with
  | .error e => .error e
  | .ok divider => (loop (turn c.hertz freq clk) fuel (div divider clk).1).getD (.error .unfinished)

/-- The part of `setFrequency` that tries the clock dividers. -/
def tryDividers (fuel : Nat) (c : CpuFreq) (freq : Int) : Except Stop UInt32 := do
  let (pre2, f2) ← getFrequency fuel c freq 2
  if f2 = freq then return setClock (UInt8.ofInt pre2) 2
  else
    let (pre3, f3) ← getFrequency fuel c freq 3
    let (pre5, f5) ← getFrequency fuel c freq 5
    if f3 ≤ f2 ∧ f2 ≥ f5 then return setClock (UInt8.ofInt pre2) 2
    else if f5 ≤ f3 then return setClock (UInt8.ofInt pre3) 3
    else return setClock (UInt8.ofInt pre5) 5

def setFrequency (fuel : Nat) (c : CpuFreq) (s : SPIClass) (freq : Int) : Except Stop (SPIClass × Option UInt32) :=
  let cpuFreq : Int := c.system_get_cpu_freq * 10000000
  -- no changes
  if s.initialised ∧ freq = s.speed then .ok (s, none)
  else if freq = cpuFreq then .ok ({ s with speed := freq }, some (setClock 0 0))
  else do
    let freq := min freq (cpuFreq.tdiv 2)
    let clock ← tryDividers fuel c freq
    return ({ s with speed := freq }, some clock)

def Bounded (c : CpuFreq) (s : SPIClass) (freq : Int) : Prop :=
  ∃ fuel s' written, setFrequency fuel c s freq = .ok (s', written) ∧
    ∀ clock, written = some clock → (c.hertz : Int) ≤ freq * busDivider clock

/-! ### The register -/

lemma busDivider_setClock_all : ∀ pre < 256, ∀ clk ∈ [2, 3, 5],
    busDivider (setClock (UInt8.ofNat pre) (UInt8.ofNat clk)) = if pre = 0 then 1 else pre * clk := by
  decide +kernel

def bus (pre clk : Nat) : Nat := if pre % 256 = 0 then 1 else pre % 256 * clk

lemma busDivider_setClock (pre : Nat) {clk : Nat} (known : clk ∈ [2, 3, 5]) :
    busDivider (setClock (UInt8.ofInt pre) (UInt8.ofNat clk)) = bus pre clk := by
  have byte : UInt8.ofInt pre = UInt8.ofNat (pre % 256) := by
    rw [UInt8.ofInt]
    congr 1
  rw [byte, busDivider_setClock_all _ (Nat.mod_lt _ (by decide)) _ known, bus]

/-! ### The search -/

section
variable {C freq clk pre fuel : Nat}

structure Found (C freq clk pre : Nat) : Prop where
  started : 0 < C / freq / clk
  start : C / freq / clk ≤ pre
  slow : C / (pre * clk) ≤ freq
  first : ∀ p, C / freq / clk ≤ p → p < pre → freq < C / (p * clk)

lemma quotient_pos {a b : Nat} (pos : 0 < b) : quotient a b = .ok ((a / b : Nat) : Int) := by
  rw [quotient, if_neg (by omega), Int.ofNat_tdiv]

lemma div_natCast (a b : Nat) : (div a b).1 = ((a / b : Nat) : Int) := by
  have nonneg : ¬ (a : Int).tmod b < 0 := by
    rw [← Int.ofNat_tmod]
    omega
  rw [div, if_neg (fun h => nonneg h.2), Int.ofNat_tdiv]

lemma turn_pos (pos : 0 < pre) :
    turn C freq clk pre = if freq < C / (pre * clk) then .inl ((pre + 1 : Nat) : Int)
      else .inr (.ok (pre, ((C / (pre * clk) : Nat) : Int))) := by
  rw [turn, quotient_pos pos]
  simp only [← Int.ofNat_tdiv, Nat.div_div_eq_div_mul, gt_iff_lt, Int.ofNat_lt]
  rfl

def Searching (C freq clk : Nat) (s : Int) : Prop :=
  ∃ pre : Nat, s = pre ∧ C / freq / clk ≤ pre ∧ ∀ p, C / freq / clk ≤ p → p < pre → freq < C / (p * clk)

def Result (C freq clk : Nat) (r : Except Stop (Int × Int)) : Prop :=
  ∃ pre : Nat, Found C freq clk pre ∧ r = .ok (pre, ((C / (pre * clk) : Nat) : Int))

lemma searching_go (started : 0 < C / freq / clk) {s s' : Int} (inv : Searching C freq clk s)
    (go : turn C freq clk s = .inl s') : Searching C freq clk s' ∧ (C + 1 - s').toNat < (C + 1 - s).toNat := by
  obtain ⟨pre, rfl, start, first⟩ := inv
  rw [turn_pos (Nat.lt_of_lt_of_le started start)] at go
  split_ifs at go with fast
  cases go
  have low : pre ≤ C := by
    by_contra high
    have big : C < pre * clk := by
      have some : 0 < clk := Nat.pos_of_ne_zero fun zero => by simp [zero] at started
      exact Nat.lt_of_lt_of_le (Nat.not_le.mp high) (Nat.le_mul_of_pos_right pre some)
    rw [Nat.div_eq_of_lt big] at fast
    cases fast
  refine ⟨⟨pre + 1, rfl, by omega, fun p from_start before => ?_⟩, by omega⟩
  rcases Nat.lt_succ_iff_lt_or_eq.mp before with earlier | rfl
  · exact first p from_start earlier
  · exact fast

lemma searching_leave (started : 0 < C / freq / clk) {s : Int} {r : Except Stop (Int × Int)}
    (inv : Searching C freq clk s) (leave : turn C freq clk s = .inr r) : Result C freq clk r := by
  obtain ⟨pre, rfl, start, first⟩ := inv
  rw [turn_pos (Nat.lt_of_lt_of_le started start)] at leave
  split_ifs at leave with fast
  cases leave
  exact ⟨pre, ⟨started, start, Nat.not_lt.mp fast, first⟩, rfl⟩

lemma searching_start (C freq clk : Nat) : Searching C freq clk ((C / freq / clk : Nat) : Int) :=
  ⟨_, rfl, Nat.le_refl _, fun _ from_start before => absurd from_start (Nat.not_le.mpr before)⟩

variable {c : CpuFreq}

lemma getFrequency_pos (pos : 0 < freq) : getFrequency fuel c freq clk =
    (loop (turn c.hertz freq clk) fuel ((c.hertz / freq / clk : Nat) : Int)).getD (.error .unfinished) := by
  rw [getFrequency, quotient_pos pos]
  simp only [div_natCast]

lemma getFrequency_found (clk : Nat) (pos : 0 < freq) {r : Int × Int} (found : getFrequency fuel c freq clk = .ok r) :
    Result c.hertz freq clk (.ok r) := by
  rw [getFrequency_pos pos] at found
  cases ended : loop (turn c.hertz freq clk) fuel ((c.hertz / freq / clk : Nat) : Int) with
  | none =>
    rw [ended] at found
    cases found
  | some e =>
    rw [ended] at found
    obtain rfl : e = .ok r := found
    rcases Nat.eq_zero_or_pos (c.hertz / freq / clk) with zero | started
    · -- the first quotient of the search has no value
      rw [zero] at ended
      cases fuel with
      | zero => cases ended
      | succ fuel => cases ended
    · exact loop_invariant (fun _ _ inv go => (searching_go started inv go).1)
        (fun _ _ inv leave => searching_leave started inv leave) (searching_start _ _ _) ended

lemma getFrequency_total (clk : Nat) (pos : 0 < freq) (started : 0 < c.hertz / freq / clk)
    (enough : c.hertz + 1 < fuel) : ∃ r, getFrequency fuel c freq clk = .ok r := by
  obtain ⟨e, ended, pre, found, rfl⟩ := loop_total (fun s : Int => (c.hertz + 1 - s).toNat)
    (fun _ _ inv go => searching_go started inv go) (fun _ _ inv leave => searching_leave started inv leave)
    (searching_start _ _ _) (show (c.hertz + 1 - ((c.hertz / freq / clk : Nat) : Int)).toNat < fuel by omega)
  rw [getFrequency_pos pos, ended]
  exact ⟨_, rfl⟩

end

/-! ### Whole quotients -/

section
variable {C freq t : Nat}

/-- The least divider that gives at most `freq`, in whole Hz. -/
def least (C freq : Nat) : Nat := C / (freq + 1) + 1

lemma div_le_iff_least (pos : 0 < t) : C / t ≤ freq ↔ least C freq ≤ t := by
  rw [least, ← Nat.lt_succ_iff, Nat.div_lt_iff_lt_mul pos, Nat.succ_le_iff, Nat.div_lt_iff_lt_mul freq.succ_pos,
    Nat.mul_comm]

lemma lt_of_lt_least (pos : 0 < t) (less : t < least C freq) : freq * t < C := by
  have fast : freq < C / t := Nat.not_le.mp fun le => Nat.not_le.mpr less ((div_le_iff_least pos).mp le)
  have whole := Nat.div_mul_le_self C t
  have more := Nat.mul_le_mul_right t fast
  rw [Nat.succ_mul] at more
  omega

lemma div_lt_div_of_lt {t' : Nat} (pos : 0 < t) (less : t < t') (small : t * t' ≤ C) : C / t' < C / t := by
  rw [Nat.lt_div_iff_mul_lt pos]
  have whole := Nat.div_mul_le_self C t'
  have big : t ≤ C / t' := (Nat.le_div_iff_mul_le (Nat.lt_trans pos less)).mpr small
  have step := Nat.mul_le_mul_left (C / t') (Nat.succ_le_of_lt less)
  rw [Nat.mul_succ] at step
  omega

lemma div_le_least (pos : 0 < freq) (big : C < freq * (freq + 1)) : C / freq ≤ least C freq := by
  have few : C / (freq + 1) < freq := (Nat.div_lt_iff_lt_mul freq.succ_pos).mpr big
  have whole : C < (freq + 1) * (C / (freq + 1) + 1) := Nat.lt_mul_div_succ C freq.succ_pos
  rw [← Nat.lt_succ_iff, Nat.div_lt_iff_lt_mul pos, Nat.succ_mul, least]
  rw [Nat.mul_comm, Nat.mul_add, Nat.mul_one] at whole
  omega

end

/-! ### The choice of the divider -/

/-- The numbers that the clock dividers reach. -/
def smooth (t : Nat) : Prop := t % 2 = 0 ∨ t % 3 = 0 ∨ t % 5 = 0

instance (t : Nat) : Decidable (smooth t) := inferInstanceAs (Decidable (_ ∨ _ ∨ _))

def target (C freq : Nat) : Nat := if smooth (least C freq) then least C freq else least C freq + 1

/-- The choice between the results of the three searches. -/
def best (C pre2 pre3 pre5 : Nat) : Nat × Nat :=
  if C / (pre3 * 3) ≤ C / (pre2 * 2) ∧ C / (pre5 * 5) ≤ C / (pre2 * 2) then (pre2, 2)
  else if C / (pre5 * 5) ≤ C / (pre3 * 3) then (pre3, 3)
  else (pre5, 5)

inductive Chosen (C freq : Nat) : Nat → Nat → Prop where
  | hit {pre2 : Nat} : Found C freq 2 pre2 → C / (pre2 * 2) = freq → Chosen C freq pre2 2
  | best {pre clk pre2 pre3 pre5 : Nat} : Found C freq 2 pre2 → Found C freq 3 pre3 → Found C freq 5 pre5 →
    best C pre2 pre3 pre5 = (pre, clk) → Chosen C freq pre clk

section
variable {C freq clk pre : Nat}

lemma Found.pos (found : Found C freq clk pre) : 0 < pre * clk := by
  have some : 0 < clk := Nat.pos_of_ne_zero fun zero => by simpa [zero] using found.started
  exact Nat.mul_pos (Nat.lt_of_lt_of_le found.started found.start) some

lemma Found.least_le (found : Found C freq clk pre) : least C freq ≤ pre * clk :=
  (div_le_iff_least found.pos).mp found.slow

/-- The frequency is high enough for the search to begin at the right place, and for the dividers around the least one
to give different frequencies. -/
structure Regular (C freq : Nat) : Prop where
  near : C / freq ≤ least C freq
  apart : (least C freq + 5) * (least C freq + 5) ≤ C

lemma Found.next (found : Found C freq clk pre) (regular : Regular C freq) :
    least C freq ≤ pre * clk ∧ pre * clk < least C freq + clk := by
  have near := regular.near
  refine ⟨found.least_le, ?_⟩
  have some := found.pos
  obtain ⟨p, rfl⟩ : ∃ p, pre = p + 1 := Nat.exists_eq_add_one.mpr (Nat.pos_of_mul_pos_right some)
  rw [Nat.succ_mul] at some ⊢
  apply Nat.add_lt_add_right
  rcases Nat.lt_or_ge p (C / freq / clk) with early | late
  · have whole := Nat.div_mul_le_self (C / freq) clk
    have step := Nat.mul_le_mul_right clk early
    rw [Nat.succ_mul] at step
    have : clk ≠ 0 := fun zero => by simp [zero] at some
    omega
  · have fast := found.first p late (Nat.lt_succ_self p)
    have before : 0 < p * clk := Nat.pos_of_ne_zero fun zero => by simp [zero] at fast
    exact Nat.not_le.mp fun le => Nat.not_le.mpr fast ((div_le_iff_least before).mpr le)

lemma Regular.div_le_div_iff (regular : Regular C freq) {a b : Nat} (la : least C freq ≤ a) (ua : a < least C freq + 5)
    (lb : least C freq ≤ b) (ub : b < least C freq + 5) : C / b ≤ C / a ↔ a ≤ b := by
  have pos : 0 < least C freq := Nat.succ_pos _
  constructor
  · intro le
    by_contra less
    have small : b * a ≤ C := Nat.le_trans (Nat.mul_le_mul (Nat.le_of_lt ub) (Nat.le_of_lt ua)) regular.apart
    exact Nat.not_lt.mpr le (div_lt_div_of_lt (by omega) (Nat.not_le.mp less) small)
  · intro le
    exact Nat.div_le_div_left le (by omega)

def clockDivider (t : Nat) : Nat := if t % 2 = 0 then 2 else if t % 3 = 0 then 3 else 5

lemma target_of_next {t : Nat} (next : least C freq ≤ t) (div : t % clk = 0)
    (kind : clk = 2 ∧ t < least C freq + 2 ∧ (least C freq % 3 = 0 ∨ least C freq % 5 = 0 → least C freq % 2 = 0) ∨
      clk = 3 ∧ t = least C freq ∧ t % 2 ≠ 0 ∨ clk = 5 ∧ t = least C freq ∧ t % 2 ≠ 0 ∧ t % 3 ≠ 0) :
    t = target C freq ∧ clk = clockDivider (target C freq) := by
  have aimed : target C freq = t := by
    rw [target]
    split_ifs with h <;> rw [smooth] at h <;> rcases kind with ⟨rfl, _⟩ | ⟨rfl, _⟩ | ⟨rfl, _⟩ <;> omega
  rw [aimed, clockDivider]
  refine ⟨rfl, ?_⟩
  split_ifs <;> rcases kind with ⟨rfl, _⟩ | ⟨rfl, _⟩ | ⟨rfl, _⟩ <;> omega

lemma Chosen.target (regular : Regular C freq) (chosen : Chosen C freq pre clk) :
    pre * clk = target C freq ∧ clk = clockDivider (target C freq) := by
  cases chosen with
  | hit f2 hit =>
    obtain ⟨l2, u2⟩ := f2.next regular
    -- the least divider is slow enough, so that the one that meets the frequency is the least
    have slow : C / least C freq ≤ C / (pre * 2) := by
      rw [hit]
      exact (div_le_iff_least (Nat.succ_pos _)).mpr (Nat.le_refl _)
    rw [regular.div_le_div_iff l2 (by omega) (Nat.le_refl _) (by omega)] at slow
    exact target_of_next l2 (by omega) (by omega)
  | best f2 f3 f5 best =>
    obtain ⟨l2, u2⟩ := f2.next regular
    obtain ⟨l3, u3⟩ := f3.next regular
    obtain ⟨l5, u5⟩ := f5.next regular
    simp only [SPIClass.best, regular.div_le_div_iff l2 (by omega) l3 (by omega),
      regular.div_le_div_iff l2 (by omega) l5 (by omega), regular.div_le_div_iff l3 (by omega) l5 (by omega)] at best
    split_ifs at best
    · cases best
      exact target_of_next l2 (by omega) (by omega)
    · cases best
      exact target_of_next l3 (by omega) (by omega)
    · cases best
      exact target_of_next l5 (by omega) (by omega)

lemma Chosen.pos (chosen : Chosen C freq pre clk) : clk ∈ [2, 3, 5] ∧ 0 < pre * clk := by
  cases chosen with
  | hit f2 => exact ⟨by decide, f2.pos⟩
  | best f2 f3 f5 best =>
    rw [SPIClass.best] at best
    split_ifs at best
    · cases best
      exact ⟨by decide, f2.pos⟩
    · cases best
      exact ⟨by decide, f3.pos⟩
    · cases best
      exact ⟨by decide, f5.pos⟩

end

/-! ### The byte -/

section
variable {c : CpuFreq} {freq clk pre : Nat}

lemma clockDivider_le (t : Nat) : clockDivider t ≤ 5 := by
  rw [clockDivider]
  split_ifs <;> omega

lemma clk_bounds (known : clk ∈ [2, 3, 5]) : 2 ≤ clk ∧ clk ≤ 5 := by
  simp only [List.mem_cons, List.not_mem_nil, or_false] at known
  omega

lemma bus_of_le (pos : 0 < pre) (byte : pre ≤ 255) : bus pre clk = pre * clk := by
  rw [bus, Nat.mod_eq_of_lt (by omega), if_neg (by omega)]

lemma bus_of_lt (pos : 0 < clk) (large : 255 < pre) : bus pre clk + clk ≤ pre * clk := by
  rw [bus]
  split_ifs with zero
  · have many := Nat.mul_le_mul_right clk large
    omega
  · have step := Nat.mul_le_mul_right clk (show pre % 256 + 1 ≤ pre by omega)
    rwa [Nat.succ_mul] at step

lemma bus_bounds (pre : Nat) (known : clk ∈ [2, 3, 5]) : 0 < bus pre clk ∧ bus pre clk ≤ 1275 := by
  obtain ⟨two, le⟩ := clk_bounds known
  rw [bus]
  split_ifs with zero
  · decide
  · exact ⟨Nat.mul_pos (by omega) (by omega), Nat.mul_le_mul (show pre % 256 ≤ 255 by omega) le⟩

lemma hertz_bounds (c : CpuFreq) : 80000000 ≤ c.hertz ∧ c.hertz ≤ 160000000 := by
  cases c <;> decide

lemma regular_of_least (c : CpuFreq) (le : least c.hertz freq ≤ 1275) : Regular c.hertz freq := by
  obtain ⟨low, high⟩ := hertz_bounds c
  have whole : c.hertz < (freq + 1) * least c.hertz freq := Nat.lt_mul_div_succ _ freq.succ_pos
  have large := Nat.lt_of_lt_of_le whole (Nat.mul_le_mul_left (freq + 1) le)
  refine ⟨div_le_least (by omega) ?_, ?_⟩
  · have square : 62744 * 62745 ≤ freq * (freq + 1) := Nat.mul_le_mul (by omega) (by omega)
    omega
  · have square := Nat.mul_le_mul (show least c.hertz freq + 5 ≤ 1280 by omega)
      (show least c.hertz freq + 5 ≤ 1280 by omega)
    omega

structure Fits (C freq : Nat) : Prop where
  slow : C ≤ freq * SPIClass.target C freq
  byte : SPIClass.target C freq ≤ 255 * clockDivider (SPIClass.target C freq)

lemma target_bounds (C freq : Nat) : least C freq ≤ target C freq ∧ target C freq ≤ least C freq + 1 := by
  rw [target]
  split_ifs <;> omega

lemma Chosen.slow_iff (chosen : Chosen c.hertz freq pre clk) : c.hertz ≤ freq * bus pre clk ↔ Fits c.hertz freq := by
  obtain ⟨known, some⟩ := chosen.pos
  obtain ⟨two, five⟩ := clk_bounds known
  obtain ⟨above, next⟩ := target_bounds c.hertz freq
  have pos : 0 < pre := Nat.pos_of_mul_pos_right some
  constructor
  · intro slow
    obtain ⟨busPos, busLe⟩ := bus_bounds pre known
    have reached : least c.hertz freq ≤ bus pre clk :=
      Nat.not_lt.mp fun less => Nat.not_le.mpr (lt_of_lt_least busPos less) slow
    have regular := regular_of_least c (Nat.le_trans reached busLe)
    obtain ⟨aim, kind⟩ := chosen.target regular
    rcases Nat.lt_or_ge 255 pre with large | byte
    · -- what is left of the pre-divider lies before the least divider
      have cut : bus pre clk + clk ≤ pre * clk := bus_of_lt (by omega) large
      omega
    · rw [bus_of_le pos byte, aim] at slow
      refine ⟨slow, ?_⟩
      rw [← kind, ← aim]
      exact Nat.mul_le_mul_right clk byte
  · intro fits
    have le := clockDivider_le (SPIClass.target c.hertz freq)
    have byte := fits.byte
    have regular : Regular c.hertz freq := regular_of_least c (by omega)
    obtain ⟨aim, kind⟩ := chosen.target regular
    rw [← kind, ← aim] at byte
    rw [bus_of_le pos (Nat.le_of_mul_le_mul_right byte (by omega)), aim]
    exact fits.slow

/-! ### All dividers -/

variable {fuel : Nat}

lemma bind_ok {α β : Type} {x : Except Stop α} {f : α → Except Stop β} {b : β} (ok : (x >>= f) = .ok b) :
    ∃ a, x = .ok a ∧ f a = .ok b := by
  cases x with
  | error e => cases ok
  | ok a => exact ⟨a, rfl, ok⟩

lemma tryDividers_chosen (pos : 0 < freq) {clock : UInt32} (ok : tryDividers fuel c freq = .ok clock) :
    ∃ pre clk, Chosen c.hertz freq pre clk ∧ busDivider clock = bus pre clk := by
  obtain ⟨r2, get2, ok⟩ := bind_ok ok
  obtain ⟨pre2, f2, same⟩ := getFrequency_found 2 pos get2
  cases same
  change (if ((c.hertz / (pre2 * 2) : Nat) : Int) = freq then _ else _) = _ at ok
  split_ifs at ok with hit
  · cases ok
    exact ⟨pre2, 2, .hit f2 (Int.ofNat_inj.mp hit), busDivider_setClock pre2 (by decide)⟩
  · obtain ⟨r3, get3, ok⟩ := bind_ok ok
    obtain ⟨pre3, f3, same⟩ := getFrequency_found 3 pos get3
    cases same
    obtain ⟨r5, get5, ok⟩ := bind_ok ok
    obtain ⟨pre5, f5, same⟩ := getFrequency_found 5 pos get5
    cases same
    have chosen {pre clk : Nat} := @Chosen.best c.hertz freq pre clk pre2 pre3 pre5 f2 f3 f5
    change (if ((c.hertz / (pre3 * 3) : Nat) : Int) ≤ ((c.hertz / (pre2 * 2) : Nat) : Int) ∧
      ((c.hertz / (pre5 * 5) : Nat) : Int) ≤ ((c.hertz / (pre2 * 2) : Nat) : Int) then _ else
      if ((c.hertz / (pre5 * 5) : Nat) : Int) ≤ ((c.hertz / (pre3 * 3) : Nat) : Int) then _ else _) = _ at ok
    simp only [Int.ofNat_le] at ok
    split_ifs at ok with first second
    · cases ok
      exact ⟨pre2, 2, chosen (if_pos first), busDivider_setClock pre2 (by decide)⟩
    · cases ok
      exact ⟨pre3, 3, chosen ((if_neg first).trans (if_pos second)), busDivider_setClock pre3 (by decide)⟩
    · cases ok
      exact ⟨pre5, 5, chosen ((if_neg first).trans (if_neg second)), busDivider_setClock pre5 (by decide)⟩

lemma tryDividers_total (enough : c.hertz + 1 < fuel) (pos : 0 < freq) (reached : 0 < c.hertz / freq / 5) :
    ∃ clock, tryDividers fuel c freq = .ok clock := by
  obtain ⟨r2, get2⟩ : ∃ r, getFrequency fuel c freq 2 = .ok r := getFrequency_total 2 pos (by omega) enough
  obtain ⟨r3, get3⟩ : ∃ r, getFrequency fuel c freq 3 = .ok r := getFrequency_total 3 pos (by omega) enough
  obtain ⟨r5, get5⟩ : ∃ r, getFrequency fuel c freq 5 = .ok r := getFrequency_total 5 pos reached enough
  rw [tryDividers, get2, get3, get5]
  change ∃ clock, ite (r2.2 = freq) (Except.ok _) (ite (r3.2 ≤ r2.2 ∧ r5.2 ≤ r2.2) (Except.ok _)
    (ite (r5.2 ≤ r3.2) (Except.ok _) (Except.ok _))) = Except.ok clock
  split_ifs <;> exact ⟨_, rfl⟩

lemma tryDividers_hit (enough : c.hertz + 1 < fuel) (pos : 0 < freq) (started : 0 < c.hertz / freq / 2) {k : Nat}
    (even : least c.hertz freq = k * 2) (regular : Regular c.hertz freq) (meets : c.hertz / (k * 2) = freq) :
    ∃ clock, tryDividers fuel c freq = .ok clock := by
  obtain ⟨r2, get2⟩ : ∃ r, getFrequency fuel c freq 2 = .ok r := getFrequency_total 2 pos started enough
  obtain ⟨pre2, f2, same⟩ := getFrequency_found 2 pos get2
  obtain ⟨above, next⟩ := f2.next regular
  have found : pre2 = k := by omega
  have hit : r2.2 = freq := by rw [Except.ok.inj same, found, meets]
  rw [tryDividers, get2]
  change ∃ clock, ite (r2.2 = freq) (Except.ok _) _ = Except.ok clock
  rw [if_pos hit]
  exact ⟨_, rfl⟩

lemma Chosen.eq_of_lt (chosen : Chosen c.hertz freq pre clk) (high : c.hertz / 5 < freq) :
    freq = c.hertz / 2 ∨ freq = c.hertz / 4 := by
  have few : c.hertz / freq / 5 = 0 := by
    exact Nat.div_eq_of_lt ((Nat.div_lt_iff_lt_mul (by omega)).mpr (by omega))
  cases chosen with
  | hit f2 hit =>
    have small : c.hertz / (freq + 1) < 5 := (Nat.div_lt_iff_lt_mul freq.succ_pos).mpr (by omega)
    have le : least c.hertz freq ≤ 5 := small
    obtain ⟨above, next⟩ := f2.next (regular_of_least c (by omega))
    have pos := f2.pos
    obtain rfl | rfl | rfl : pre = 1 ∨ pre = 2 ∨ pre = 3 := by omega
    · exact .inl hit.symm
    · exact .inr hit.symm
    · omega
  | best f2 f3 f5 => exact absurd f5.started (by omega)

/-! ### The guarantee -/

/-- The frequencies that do not exceed the request: no change, ten times the CPU clock (which is taken for the CPU
clock), a half or a quarter of the CPU clock, and those below that fit. -/
inductive Reachable (c : CpuFreq) (s : SPIClass) (freq : Int) : Prop where
  | unchanged : s.initialised → freq = s.speed → Reachable c s freq
  | full : freq = 10 * c.hertz → Reachable c s freq
  | half : freq = c.hertz / 2 → Reachable c s freq
  | quarter : freq = c.hertz / 4 → Reachable c s freq
  | divided : freq ≤ c.hertz / 5 → Fits c.hertz freq.toNat → Reachable c s freq

variable {s : SPIClass}

lemma cpuFreq_eq (c : CpuFreq) : (c.system_get_cpu_freq : Int) * 10000000 = 10 * c.hertz := by
  cases c <;> rfl

lemma setFrequency_changes (changes : ¬ (s.initialised ∧ (freq : Int) = s.speed))
    (notFull : (freq : Int) ≠ 10 * c.hertz) :
    setFrequency fuel c s freq = do
      let clock ← tryDividers fuel c (min freq (5 * c.hertz) : Nat)
      return ({ s with speed := (min freq (5 * c.hertz) : Nat) }, some clock) := by
  have clamp : min (freq : Int) (((c.system_get_cpu_freq : Int) * 10000000).tdiv 2) = (min freq (5 * c.hertz) : Nat) := by
    cases c with
    | mhz80 =>
      change min (freq : Int) 400000000 = (min freq 400000000 : Nat)
      omega
    | mhz160 =>
      change min (freq : Int) 800000000 = (min freq 800000000 : Nat)
      omega
  rw [setFrequency, if_neg changes, clamp, if_neg (by rwa [cpuFreq_eq])]

lemma bounded_unchanged {freq : Int} (init : s.initialised) (same : freq = s.speed) : Bounded c s freq := by
  refine ⟨0, s, none, ?_, fun _ none => by cases none⟩
  rw [setFrequency, if_pos ⟨init, same⟩]

lemma bounded_of_fits (pos : 0 < freq) (le : freq ≤ c.hertz)
    (ok : ∃ clock, tryDividers fuel c freq = .ok clock) (fits : Fits c.hertz freq) : Bounded c s freq := by
  obtain ⟨clock, ok⟩ := ok
  obtain ⟨pre, clk, chosen, reads⟩ := tryDividers_chosen pos ok
  by_cases changes : s.initialised ∧ (freq : Int) = s.speed
  · exact bounded_unchanged changes.1 changes.2
  · have slow := chosen.slow_iff.mpr fits
    refine ⟨fuel, { s with speed := freq }, some clock, ?_, fun _ same => ?_⟩
    · rw [setFrequency_changes changes (by omega), Nat.min_eq_left (by omega), ok]
      rfl
    · cases same
      rw [reads]
      exact_mod_cast slow

lemma bounded_even {k : Nat} (part : k = 1 ∨ k = 2) : Bounded c s ((c.hertz / (k * 2) : Nat) : Int) := by
  have even : least c.hertz (c.hertz / (k * 2)) = k * 2 := by
    rcases part with rfl | rfl <;> cases c <;> rfl
  have started : 0 < c.hertz / (c.hertz / (k * 2)) / 2 := by
    rcases part with rfl | rfl <;> cases c <;> decide
  have fits : Fits c.hertz (c.hertz / (k * 2)) := by
    rcases part with rfl | rfl <;> cases c <;> exact ⟨by decide, by decide⟩
  have pos : 0 < c.hertz / (k * 2) := by
    rcases part with rfl | rfl <;> cases c <;> decide
  exact bounded_of_fits pos (Nat.div_le_self _ _)
    (tryDividers_hit (Nat.lt_succ_self _) pos started even (regular_of_least c (by omega)) rfl) fits

/-- The clock is set and not faster than asked for exactly for the reachable frequencies. -/
theorem setFrequency_bounded_iff (c : CpuFreq) (s : SPIClass) {freq : Int} (pos : 1 ≤ freq) :
    Bounded c s freq ↔ Reachable c s freq := by
  obtain ⟨low, high⟩ := hertz_bounds c
  obtain ⟨freq, rfl⟩ := Int.eq_ofNat_of_zero_le (show 0 ≤ freq by omega)
  constructor
  · rintro ⟨fuel, s', written, ok, slow⟩
    by_cases changes : s.initialised ∧ (freq : Int) = s.speed
    · exact .unchanged changes.1 changes.2
    by_cases full : (freq : Int) = 10 * c.hertz
    · exact .full full
    rw [setFrequency_changes changes full] at ok
    obtain ⟨clock, gets, same⟩ := bind_ok ok
    cases same
    obtain ⟨pre, clk, chosen, reads⟩ := tryDividers_chosen (by omega) gets
    rcases Nat.lt_or_ge (c.hertz / 5) freq with above | below
    · obtain half | quarter := chosen.eq_of_lt (by omega)
      · exact .half (by omega)
      · exact .quarter (by omega)
    · rw [Nat.min_eq_left (by omega)] at chosen
      have slow := slow clock rfl
      rw [reads] at slow
      exact .divided (by omega) (chosen.slow_iff.mp (by exact_mod_cast slow))
  · intro reach
    cases reach with
    | unchanged init same => exact bounded_unchanged init same
    | full full =>
      by_cases changes : s.initialised ∧ (freq : Int) = s.speed
      · exact bounded_unchanged changes.1 changes.2
      · refine ⟨0, { s with speed := freq }, some (setClock 0 0), ?_, fun _ same => ?_⟩
        · rw [setFrequency, if_neg changes, cpuFreq_eq, if_pos full]
        · cases same
          rw [show busDivider (setClock 0 0) = 1 by decide]
          omega
    | half half =>
      obtain rfl : freq = c.hertz / (1 * 2) := by omega
      exact bounded_even (.inl rfl)
    | quarter quarter =>
      obtain rfl : freq = c.hertz / (2 * 2) := by omega
      exact bounded_even (.inr rfl)
    | divided below fits =>
      have few : 5 ≤ c.hertz / freq := (Nat.le_div_iff_mul_le (by omega)).mpr (by omega)
      exact bounded_of_fits (by omega) (by omega) (tryDividers_total (Nat.lt_succ_self _) (by omega) (Nat.div_pos few (by decide))) fits

theorem default_speed_bounded : (1 : Int) ≤ 4000000 ∧ Bounded .mhz80 {} 4000000 := by
  refine ⟨by decide, (setFrequency_bounded_iff .mhz80 {} (by decide)).mpr ?_⟩
  exact .divided (by decide) ⟨by decide, by decide⟩

/-- For 100 kHz the pre-divider 400 is written as 144, and the bus runs at 277 kHz. -/
theorem low_speed_exceeded : ¬ ∀ (c : CpuFreq) (s : SPIClass) (freq : Int), 1 ≤ freq → Bounded c s freq := by
  intro all
  obtain ⟨fuel, s', written, ok, slow⟩ := all .mhz80 {} 100000 (by decide)
  cases fuel with
  | zero => cases ok
  | succ fuel =>
    have writes : setFrequency (fuel + 1) .mhz80 {} 100000 = .ok ({ speed := 100000 }, some (setClock 144 2)) := rfl
    rw [writes] at ok
    cases ok
    exact absurd (slow _ rfl) (by decide)

end

end SPIClass

end Sming
