import Mathlib.Data.Nat.Digits.Lemmas
import Sming.System.StringUtil

/-!
# Numbers as text

Embedding of the integer conversions of `Sming/system/stringconversion.cpp`.
-/

namespace Sming.System
open Sming.Lib List

/-- The digits of `val` in front of `text`, at most `i` of them (the loop of C++ `ltoa_wp`). -/
def ltoaLoop (base : Nat) : Nat → Int → List Char → List Char
  | 0, _, text => text
  | i + 1, val, text =>
    if val = 0 then text else ltoaLoop base i (val.tdiv base) (hexchar (UInt8.ofInt (val.tmod base)) :: text)

/-- How many places are left to pad: `width -= strlen(text)` in 32 bits, if a width is given. -/
def padding (width : Int32) (text : List Char) : Nat :=
  if width = 0 then 0 else (width - Int32.ofNat text.length).toInt.toNat

/-- What C++ `ltoa_wp` leaves in its buffer. The number is a C string; the padding stands in front of a sign. -/
def ltoaWp (val : Int32) (base : Nat) (width : Int32) (pad : Char) : List Char :=
  let digits := ltoaLoop base 38 (if val < 0 then -val else val).toInt []
  let digits := if digits = [] then ['0'] else digits
  let text := before '\x00' (if val < 0 then '-' :: digits else digits)
  List.replicate (padding width text) pad ++ text

/-- The same without a sign. -/
def ultoaWp (val : UInt32) (base : Nat) (width : Int32) (pad : Char) : List Char :=
  let digits := ltoaLoop base 38 val.toNat []
  let text := before '\x00' (if digits = [] then ['0'] else digits)
  List.replicate (padding width text) pad ++ text

def ltoaW (val : Int32) (base : Nat) (width : Int32) : List Char := ltoaWp val base width ' '

def ltoa (val : Int32) (base : Nat) : List Char := ltoaW val base 0

/-- The width is not handed on. -/
def ultoaW (val : UInt32) (base : Nat) (_width : Int32) : List Char := ultoaWp val base 0 ' '

def ultoa (val : UInt32) (base : Nat) : List Char := ultoaW val base 0

def numeral (base v : Nat) : List Char :=
  if v = 0 then ['0'] else ((Nat.digits base v).map fun d => hexchar (UInt8.ofNat d)).reverse

lemma ltoaLoop_eq {base : Nat} (two : 1 < base) {i v : Nat} (enough : v < base ^ i) (text : List Char) :
    ltoaLoop base i v text = ((Nat.digits base v).map fun d => hexchar (UInt8.ofNat d)).reverse ++ text := by
  induction i generalizing v text with
  | zero =>
    obtain rfl : v = 0 := by simpa using enough
    rw [ltoaLoop, Nat.digits_zero]
    rfl
  | succ i ih =>
    by_cases zero : v = 0
    · subst zero
      rw [ltoaLoop, Int.ofNat_zero, if_pos rfl, Nat.digits_zero]
      rfl
    · have digit : UInt8.ofInt ((v : Int).tmod base) = UInt8.ofNat (v % base) := by
        rw [← Int.ofNat_tmod, UInt8.ofInt]
        apply UInt8.toNat.inj
        rw [UInt8.toNat_ofNat', UInt8.toNat_ofNat']
        omega
      have fewer : v / base < base ^ i := by
        rw [Nat.div_lt_iff_lt_mul (by omega), ← Nat.pow_succ]
        exact enough
      rw [ltoaLoop, if_neg (by omega), digit, ← Int.ofNat_tdiv, ih fewer,
        Nat.digits_def' two (Nat.pos_of_ne_zero zero), map_cons, reverse_cons, List.append_assoc]
      rfl

lemma hexchar_digit : ∀ d < 16, hexchar (UInt8.ofNat d) ≠ '\x00' ∧ hexchar (UInt8.ofNat d) ≠ '-' ∧
    unhex (hexchar (UInt8.ofNat d)) = d := by
  decide

lemma exists_digit {base v : Nat} {c : Char} (two : 1 < base) (le : base ≤ 16) (mem : c ∈ numeral base v) :
    ∃ d < 16, hexchar (UInt8.ofNat d) = c := by
  rw [numeral] at mem
  split at mem
  · exact ⟨0, by decide, (mem_singleton.mp mem).symm⟩
  · obtain ⟨d, digit, same⟩ := List.mem_map.mp (mem_reverse.mp mem)
    exact ⟨d, Nat.lt_of_lt_of_le (Nat.digits_lt_base two digit) le, same⟩

lemma nul_not_mem_numeral {base v : Nat} (two : 1 < base) (le : base ≤ 16) : '\x00' ∉ numeral base v := by
  intro mem
  obtain ⟨d, digit, same⟩ := exists_digit two le mem
  exact (hexchar_digit d digit).1 same

def signed (base : Nat) (v : Int) : List Char := if v < 0 then '-' :: numeral base v.natAbs else numeral base v.natAbs

/-- The text behind as many of `pad` as the width asks for. -/
def rightAligned (width : Int) (pad : Char) (text : List Char) : List Char :=
  List.replicate (width - text.length).toNat pad ++ text

variable {base : Nat}

lemma digits_eq (two : 1 < base) {v : Nat} (small : v < 2 ^ 32) :
    (if ltoaLoop base 38 v [] = [] then ['0'] else ltoaLoop base 38 v []) = numeral base v := by
  have digits : v < base ^ 38 :=
    Nat.lt_of_lt_of_le small (Nat.le_trans (Nat.pow_le_pow_right (by decide) (by decide)) (Nat.pow_le_pow_left two 38))
  rw [ltoaLoop_eq two digits, append_nil, numeral]
  by_cases zero : v = 0
  · subst zero
    simp
  · have some : ((Nat.digits base v).map fun d => hexchar (UInt8.ofNat d)).reverse ≠ [] := by
      simpa [Nat.digits_ne_nil_iff_ne_zero] using zero
    rw [if_neg zero, if_neg some]

lemma length_numeral_le (two : 1 < base) {v : Nat} (small : v < 2 ^ 32) : (numeral base v).length ≤ 32 := by
  rw [numeral]
  split
  · exact (by decide : 1 ≤ 32)
  · rw [List.length_reverse, List.length_map, Nat.digits_length_le_iff two]
    exact Nat.lt_of_lt_of_le small (Nat.pow_le_pow_left two 32)

lemma natAbs_toInt_lt (v : Int32) : v.toInt.natAbs < 2 ^ 32 := by
  have := v.le_toInt
  have := v.toInt_lt
  omega

lemma length_signed_le (two : 1 < base) (v : Int32) : (signed base v.toInt).length ≤ 33 := by
  have := length_numeral_le two (natAbs_toInt_lt v)
  rw [signed]
  split
  · exact Nat.succ_le_succ this
  · omega

section
variable {width : Int32} {text : List Char} (short : text.length ≤ 33)
include short

lemma toInt_length : (Int32.ofNat text.length).toInt = text.length := Int32.toInt_ofNat_of_lt (by omega)

/-- A width that is not close to the least one leaves what is missing of it. -/
lemma padding_eq (low : -2 ^ 31 + text.length ≤ width.toInt) :
    padding width text = (width.toInt - text.length).toNat := by
  have := width.toInt_lt
  rw [padding]
  split
  case isTrue zero =>
    subst zero
    exact (Int.toNat_of_nonpos (by simp)).symm
  case isFalse =>
    rw [Int32.toInt_sub, toInt_length short, Int.bmod_eq_of_le (by omega) (by omega)]

/-- The subtraction wraps: a width close to the least one asks for two thousand million places. -/
lemma padding_pos (high : width.toInt < -2 ^ 31 + text.length) : 0 < padding width text := by
  have := width.le_toInt
  have some : width ≠ 0 := by
    rintro rfl
    have : (0 : Int32).toInt = 0 := rfl
    omega
  have wraps : (width.toInt - text.length).bmod (2 ^ 32) = width.toInt - text.length + 2 ^ 32 := by
    rw [← Int.add_bmod_right, Int.bmod_eq_of_le (by omega) (by omega)]
    rfl
  rw [padding, if_neg some, Int32.toInt_sub, toInt_length short]
  omega

end

section
variable (two : 1 < base) (le : base ≤ 16)
include two le

/-- What `ltoa_wp` writes for every number but the least one, which has no positive counterpart. -/
lemma ltoaWp_eq_signed {v : Int32} (least : v ≠ Int32.minValue) (width : Int32) (pad : Char) :
    ltoaWp v base width pad =
      List.replicate (padding width (signed base v.toInt)) pad ++ signed base v.toInt := by
  have negative : v < 0 ↔ v.toInt < 0 := Int32.lt_iff_toInt_lt
  have value : (if v < 0 then -v else v).toInt = v.toInt.natAbs := by
    split
    case isTrue neg =>
      have neg := negative.mp neg
      have ne : v.toInt ≠ -2 ^ 31 := fun eq => least (Int32.toInt.inj eq)
      have ge := v.le_toInt
      rw [Int32.toInt_neg, Int.bmod_eq_of_le (by omega) (by omega)]
      omega
    case isFalse pos =>
      have := mt negative.mpr pos
      omega
  have free : '\x00' ∉ signed base v.toInt := by
    rw [signed]
    split <;> simp [nul_not_mem_numeral two le]
  rw [ltoaWp, value]
  simp only [digits_eq two (natAbs_toInt_lt v), negative]
  rw [← signed, before_of_not_mem free]

lemma ltoaWp_eq_rightAligned {v : Int32} (least : v ≠ Int32.minValue) {width : Int32}
    (low : -2 ^ 31 + (signed base v.toInt).length ≤ width.toInt) (pad : Char) :
    ltoaWp v base width pad = rightAligned width.toInt pad (signed base v.toInt) := by
  rw [ltoaWp_eq_signed two le least, padding_eq (length_signed_le two v) low]
  rfl

lemma ultoaWp_eq (v : UInt32) (width : Int32) (pad : Char) :
    ultoaWp v base width pad =
      List.replicate (padding width (numeral base v.toNat)) pad ++ numeral base v.toNat := by
  rw [ultoaWp]
  simp only [digits_eq two v.toNat_lt]
  rw [before_of_not_mem (nul_not_mem_numeral two le)]

lemma ltoaWp_eq {v : Nat} (small : v < 2 ^ 31) {width : Int32} (pos : 0 ≤ width.toInt) (pad : Char) :
    ltoaWp (Int32.ofNat v) base width pad =
      List.replicate (width.toInt - (numeral base v).length).toNat pad ++ numeral base v := by
  have short := length_signed_le two (Int32.ofNat v)
  have value : (Int32.ofNat v).toInt = v := Int32.toInt_ofNat_of_lt small
  have least : Int32.ofNat v ≠ Int32.minValue := by
    intro eq
    have least : (Int32.ofNat v).toInt = -2 ^ 31 := congrArg Int32.toInt eq
    omega
  rw [ltoaWp_eq_rightAligned two le least (by omega), value]
  rfl

/-! ### Canonical numerals -/

def parse (base : Nat) : List Char → Int
  | '-' :: text => -(text.foldl (fun n c => n * base + unhex c) 0 : Nat)
  | text => (text.foldl (fun n c => n * base + unhex c) 0 : Nat)

def zeroPadded (base : Nat) (width : Int) (v : Int) : List Char :=
  (if v < 0 then ['-'] else []) ++ List.replicate (width - (signed base v).length).toNat '0' ++ numeral base v.natAbs

/-- The conversions of a number. -/
structure Canonical (v : Int32) (base : Nat) (width : Int32) : Prop where
  ltoa_eq : ltoa v base = signed base v.toInt
  ltoaW_eq : ltoaW v base width = rightAligned width.toInt ' ' (signed base v.toInt)
  ultoa_eq : 0 ≤ v.toInt → ultoa v.toUInt32 base = ltoa v base
  ultoaW_eq : 0 ≤ v.toInt → ultoaW v.toUInt32 base width = ltoaW v base width
  parse_eq : parse base (ltoa v base) = v.toInt
  zero_eq : ltoaWp v base width '0' = zeroPadded base width.toInt v.toInt

lemma foldl_numeral (v : Nat) : (numeral base v).foldl (fun n c => n * base + unhex c) 0 = v := by
  rw [numeral]
  split
  case isTrue zero => simp [zero, unhex]
  case isFalse =>
    have value (ds : List Nat) (digits : ∀ d ∈ ds, d < base) :
        (ds.map fun d => hexchar (UInt8.ofNat d)).foldr (fun c n => n * base + unhex c) 0 = Nat.ofDigits base ds := by
      induction ds with
      | nil => rfl
      | cons d ds ih =>
        rw [forall_mem_cons] at digits
        rw [map_cons, foldr_cons, ih digits.2, (hexchar_digit d (by omega)).2.2, Nat.ofDigits_cons,
          Nat.add_comm, Nat.mul_comm]
    rw [foldl_reverse, value _ fun d => Nat.digits_lt_base two, Nat.ofDigits_digits]

lemma parse_signed (v : Int) : parse base (signed base v) = v := by
  rw [signed]
  split
  case isTrue neg =>
    rw [parse, foldl_numeral two le]
    omega
  case isFalse pos =>
    rw [parse.eq_def]
    split
    case h_1 text minus =>
      obtain ⟨d, digit, same⟩ := exists_digit two le (minus ▸ mem_cons_self)
      exact absurd same (hexchar_digit d digit).2.1
    case h_2 =>
      rw [foldl_numeral two le]
      omega

end

lemma rightAligned_of_le {width : Int} {text : List Char} (le : width ≤ text.length) (pad : Char) :
    rightAligned width pad text = text := by
  rw [rightAligned, Int.toNat_of_nonpos (by omega)]
  rfl

lemma ltoa_minValue : ∀ base ≤ 16, 1 < base → ltoa Int32.minValue base = ['-'] := by
  decide +kernel

lemma numeral_ne_nil (v : Nat) : numeral base v ≠ [] := by
  rw [numeral]
  split
  · nofun
  case isFalse some => simpa [Nat.digits_ne_nil_iff_ne_zero] using some

lemma ultoaWp_zero (two : 1 < base) (le : base ≤ 16) {v : Int32} (pos : 0 ≤ v.toInt) :
    ultoaWp v.toUInt32 base 0 ' ' = signed base v.toInt := by
  have value : v.toUInt32.toNat = v.toInt.natAbs := by
    have cond : v.toInt = if 2 * v.toUInt32.toNat < 2 ^ 32 then (v.toUInt32.toNat : Int) else v.toUInt32.toNat - 2 ^ 32 :=
      BitVec.toInt_eq_toNat_cond v.toBitVec
    have bound := v.toUInt32.toNat_lt
    split at cond <;> omega
  rw [ultoaWp_eq two le, value, padding, if_pos rfl, signed, if_neg (Int.not_lt.mpr pos)]
  rfl

/-- The conversions are right for every number but the least one, unless there is something to pad: the
width is above the length of the text, or so far below zero that the subtraction wraps. -/
theorem canonical_iff (v : Int32) (base : Nat) (two : 1 < base) (le : base ≤ 16) (width : Int32) :
    Canonical v base width ↔ v ≠ Int32.minValue ∧ -2 ^ 31 + (signed base v.toInt).length ≤ width.toInt ∧
      width.toInt ≤ (signed base v.toInt).length := by
  have short := length_signed_le two v
  constructor
  · intro h
    have least : v ≠ Int32.minValue := by
      rintro rfl
      have text := h.ltoa_eq
      rw [ltoa_minValue base le two, signed, if_pos (by decide)] at text
      exact numeral_ne_nil _ (List.cons.inj text).2.symm
    have low : -2 ^ 31 + (signed base v.toInt).length ≤ width.toInt := by
      refine Int.not_lt.mp fun high => ?_
      have text := congrArg List.length h.ltoaW_eq
      rw [ltoaW, ltoaWp_eq_signed two le least, rightAligned_of_le (by omega), List.length_append,
        List.length_replicate] at text
      have := padding_pos short high
      omega
    refine ⟨least, low, Int.not_lt.mp fun wide => ?_⟩
    obtain ⟨more, pads⟩ : ∃ more, (width.toInt - (signed base v.toInt).length).toNat = more + 1 :=
      Nat.exists_eq_add_one.mpr (by omega)
    by_cases neg : v.toInt < 0
    · -- the padding stands in front of the sign
      have zero := h.zero_eq
      rw [ltoaWp_eq_rightAligned two le least low, rightAligned, zeroPadded, pads, if_pos neg] at zero
      cases zero
    · -- the width is not handed on
      have text := h.ultoaW_eq (Int.not_lt.mp neg)
      rw [ultoaW, ultoaWp_zero two le (Int.not_lt.mp neg), h.ltoaW_eq, rightAligned, pads] at text
      have length := congrArg List.length text
      rw [List.length_append, List.length_replicate] at length
      omega
  · rintro ⟨least, low, enough⟩
    have aligned := ltoaWp_eq_rightAligned two le least low
    have text (pad : Char) := (aligned pad).trans (rightAligned_of_le enough pad)
    have plain : ltoa v base = signed base v.toInt := ltoaWp_eq_signed two le least 0 ' '
    exact {
      ltoa_eq := plain
      ltoaW_eq := aligned ' '
      ultoa_eq := fun pos => (ultoaWp_zero two le pos).trans plain.symm
      ultoaW_eq := fun pos => (ultoaWp_zero two le pos).trans (text ' ').symm
      parse_eq := by rw [plain, parse_signed two le]
      zero_eq := by
        rw [text, zeroPadded, Int.toNat_of_nonpos (by omega), signed]
        split <;> simp }

theorem canonical_iff_ten : Canonical (-10) 10 3 :=
  (canonical_iff (-10) 10 (by decide) (by decide) 3).mpr (by decide +kernel)

theorem canonical_not_least : ¬ ∀ (v : Int32) (base : Nat) (width : Int32), 1 < base → base ≤ 16 → width < 39 →
    Canonical v base width := by
  intro all
  have text := (all Int32.minValue 10 0 (by decide) (by decide) (by decide)).ltoa_eq
  exact absurd text (by decide +kernel)

end Sming.System
