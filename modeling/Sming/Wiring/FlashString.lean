import Mathlib.Algebra.Group.Nat.Defs
import Mathlib.Data.List.Basic

/-!
# Strings in flash memory

Embedding of the comparisons of `Sming/Wiring/FlashString.h`, and of `memcmp_aligned` and `memcpy_aligned` of
`Sming/Wiring/FakePgmSpace.cpp`, which go by words. Two strings in flash are compared with the bytes that fill their
last words; a string in memory is not.
-/

namespace Sming.Wiring
open List

/-- (C++ `ALIGNUP`.) -/
def alignUp (n : Nat) : Nat := (n + 3) / 4 * 4

structure FlashString where
  flashLength : Nat
  /-- The address of the data. -/
  flashData : Nat
  aligned : flashData % 4 = 0

variable (flash : Nat → UInt8)

def word (a : Nat) : Nat :=
  (flash a).toNat + 2 ^ 8 * (flash (a + 1)).toNat + 2 ^ 16 * (flash (a + 2)).toNat + 2 ^ 24 * (flash (a + 3)).toNat

def memcmpAligned : Nat → Nat → Nat → Nat
  | 0, _, _ => 0
  | n + 1, p1, p2 => if word flash p1 ≠ word flash p2 then 1 else memcmpAligned n (p1 + 4) (p2 + 4)

def memcpyAligned (src len : Nat) : List UInt8 := (range (len / 4 * 4)).map fun i => flash (src + i)

namespace FlashString

variable (s : FlashString)

def content : List UInt8 := (range s.flashLength).map fun i => flash (s.flashData + i)

/-- (C++ `LOAD_FSTR`.) -/
def load : List UInt8 := memcpyAligned flash s.flashData (alignUp (s.flashLength + 1))

def memcmpEqual (buf other : List UInt8) (n : Nat) : Bool := buf.take n == other.take n

def isEqual (s str : FlashString) : Bool :=
  if s.flashLength ≠ str.flashLength then false
  else if s.flashData = str.flashData then true
  else memcmpAligned flash (alignUp s.flashLength / 4) s.flashData str.flashData == 0

/-- The same for a C string, `none` if it is null. -/
def isEqualCstr : Option (List UInt8) → Bool
  | none => s.flashLength == 0
  | some cstr => if cstr.length ≠ s.flashLength then false else memcmpEqual (s.load flash) cstr cstr.length

/-- (C++ `String::equals`.) -/
def equalsString (str : List UInt8) : Bool :=
  if str.length ≠ s.flashLength then false else memcmpEqual (s.load flash) str str.length

/-- The string is one of `DEFINE_FSTR`, which fills up with zeros; behind one of `IMPORT_FSTR` there is anything. -/
def Defined : Prop :=
  ∀ i, s.flashLength ≤ i → i < alignUp (s.flashLength + 1) → flash (s.flashData + i) = 0

def SamePadding (s str : FlashString) : Prop :=
  ∀ i, s.flashLength ≤ i → i < alignUp s.flashLength → flash (s.flashData + i) = flash (str.flashData + i)

variable {flash} {s str : FlashString}

lemma word_eq_iff {a b : Nat} : word flash a = word flash b ↔ ∀ i < 4, flash (a + i) = flash (b + i) := by
  have bound i := (flash i).toNat_lt
  simp only [← UInt8.toNat_inj, word]
  constructor
  · intro same i less
    have := bound a; have := bound (a + 1); have := bound (a + 2); have := bound (a + 3)
    have := bound b; have := bound (b + 1); have := bound (b + 2); have := bound (b + 3)
    obtain rfl | rfl | rfl | rfl : i = 0 ∨ i = 1 ∨ i = 2 ∨ i = 3 := by omega
    · rw [Nat.add_zero, Nat.add_zero]
      omega
    all_goals omega
  · intro same
    have first := same 0 (by decide)
    rw [Nat.add_zero, Nat.add_zero] at first
    rw [first, same 1 (by decide), same 2 (by decide), same 3 (by decide)]

lemma memcmpAligned_eq_zero_iff {n p q : Nat} :
    memcmpAligned flash n p q = 0 ↔ ∀ i < 4 * n, flash (p + i) = flash (q + i) := by
  induction n generalizing p q with
  | zero => exact iff_of_true rfl nofun
  | succ n ih =>
    rw [memcmpAligned]
    split
    case isTrue other =>
      refine iff_of_false nofun fun all => other (word_eq_iff.mpr fun i less => all i (by omega))
    case isFalse same =>
      have same := word_eq_iff.mp (not_not.mp same)
      rw [ih]
      constructor
      · intro all i less
        by_cases first : i < 4
        · exact same i first
        · have later := all (i - 4) (by omega)
          rwa [Nat.add_assoc, Nat.add_assoc, Nat.add_sub_cancel' (Nat.not_lt.mp first)] at later
      · intro all i less
        rw [Nat.add_assoc, Nat.add_assoc]
        exact all (4 + i) (by omega)

lemma content_eq_iff : s.content flash = str.content flash ↔
    s.flashLength = str.flashLength ∧ ∀ i < s.flashLength, flash (s.flashData + i) = flash (str.flashData + i) := by
  constructor
  · intro same
    have length : s.flashLength = str.flashLength := by simpa [content] using congrArg List.length same
    rw [content, content, length, map_inj_left] at same
    exact ⟨length, fun i less => same i (mem_range.mpr (length ▸ less))⟩
  · rintro ⟨length, same⟩
    rw [content, content, ← length, map_inj_left]
    exact fun i mem => same i (mem_range.mp mem)

lemma isEqual_eq_true_iff : s.isEqual flash str = true ↔ s.content flash = str.content flash ∧
    (s.flashData = str.flashData ∨ SamePadding flash s str) := by
  rw [content_eq_iff, isEqual]
  split
  case isTrue other => exact iff_of_false nofun fun same => other same.1.1
  case isFalse same =>
    split
    case isTrue here => exact iff_of_true rfl ⟨⟨not_not.mp same, fun i _ => by rw [here]⟩, .inl here⟩
    case isFalse elsewhere =>
      have words : 4 * (alignUp s.flashLength / 4) = alignUp s.flashLength := by
        rw [alignUp]
        omega
      have le : s.flashLength ≤ alignUp s.flashLength := by
        rw [alignUp]
        omega
      rw [beq_iff_eq, memcmpAligned_eq_zero_iff, words, or_iff_right elsewhere, and_iff_right (not_not.mp same)]
      constructor
      · exact fun all => ⟨fun i less => all i (Nat.lt_of_lt_of_le less le), fun i _ less => all i less⟩
      · intro both i less
        exact (Nat.lt_or_ge i s.flashLength).elim (both.1 i) fun ge => both.2 i ge less

lemma take_load (s : FlashString) : (s.load flash).take s.flashLength = s.content flash := by
  have enough : s.flashLength ≤ alignUp (s.flashLength + 1) / 4 * 4 := by
    rw [alignUp]
    omega
  rw [load, memcpyAligned, content, ← map_take, take_range, Nat.min_eq_left enough]

lemma equalsString_iff (bytes : List UInt8) : s.equalsString flash bytes = true ↔ bytes = s.content flash := by
  rw [equalsString]
  split
  case isTrue other =>
    refine iff_of_false nofun fun same => other ?_
    simp [same, content]
  case isFalse same =>
    rw [memcmpEqual, not_not.mp same, take_load, take_of_length_le (Nat.le_of_eq (not_not.mp same)), beq_iff_eq,
      eq_comm]

lemma isEqualCstr_iff (cstr : Option (List UInt8)) :
    s.isEqualCstr flash cstr = true ↔ cstr.getD [] = s.content flash := by
  cases cstr with
  | none =>
    rw [isEqualCstr, beq_iff_eq, Option.getD_none, eq_comm (a := []), content, map_eq_nil_iff, range_eq_nil]
  | some cstr => exact equalsString_iff cstr

lemma samePadding_of_defined (defined : s.Defined flash) (defined' : str.Defined flash)
    (length : s.flashLength = str.flashLength) : SamePadding flash s str := by
  intro i ge less
  have more : i < alignUp (s.flashLength + 1) := by
    rw [alignUp] at less ⊢
    omega
  rw [defined i ge more, defined' i (length ▸ ge) (length ▸ more)]

/-- Strings in flash are compared rightly exactly if those with the same content have the same bytes behind it, as
those of `DEFINE_FSTR` do; strings in memory always are. -/
theorem isEqual_iff (flash : Nat → UInt8) (s str : FlashString) :
    ((s.isEqual flash str = true ↔ s.content flash = str.content flash) ↔
      (s.content flash = str.content flash → s.flashData = str.flashData ∨ SamePadding flash s str)) ∧
    (s.Defined flash → str.Defined flash → (s.isEqual flash str = true ↔ s.content flash = str.content flash)) ∧
    (∀ bytes, s.equalsString flash bytes = true ↔ bytes = s.content flash) ∧
    ∀ cstr, s.isEqualCstr flash cstr = true ↔ cstr.getD [] = s.content flash := by
  refine ⟨?_, fun defined defined' => ?_, equalsString_iff, isEqualCstr_iff⟩
  · rw [isEqual_eq_true_iff, and_iff_left_iff_imp]
  · rw [isEqual_eq_true_iff, and_iff_left_iff_imp]
    exact fun same => .inr (samePadding_of_defined defined defined' (content_eq_iff.mp same).1)

theorem isEqual_not_imported : ¬ ∀ flash (s str : FlashString),
    s.isEqual flash str = true ↔ s.content flash = str.content flash := by
  intro all
  have same := (all (fun i => if i = 5 then 1 else 0) ⟨1, 4, rfl⟩ ⟨1, 12, rfl⟩).mpr rfl
  exact absurd same (by decide)

end FlashString

end Sming.Wiring
