import Sming.Lib.FirstOccurrence

/-!
# Searching without regard to case

Embedding of `strstri` of `Sming/system/stringutil.cpp`, in one pass over the string: where a match that has begun
breaks off, the search goes on from that character, not from the one behind the start of the match. The hexadecimal
digits are those of `stringutil.h`.
-/

namespace Sming.System
open Sming.Lib List

/-- The digit of a value; NUL above 15. -/
def hexchar (c : UInt8) : Char :=
  if c < 10 then Char.ofNat (48 + c.toNat) else if c ≤ 15 then Char.ofNat (97 + c.toNat - 10) else '\x00'

/-- The value of a digit. The source answers -1 for other characters, which its callers exclude. -/
def unhex (c : Char) : Nat :=
  if '0' ≤ c ∧ c ≤ '9' then c.toNat - '0'.toNat
  else if 'a' ≤ c ∧ c ≤ 'f' then 10 + c.toNat - 'a'.toNat
  else 10 + c.toNat - 'A'.toNat

/-- The loop of `strstri` over the characters from `pos` on. A mismatch in the middle of the token has the same
character looked at again with the first one of the token. -/
def strstriLoop (pToken : List Char) : List Char → Nat → Nat → Option Nat
  | [], _, _ => none
  | c :: pString, pos, matchIndex =>
    if (pToken[matchIndex]?).map Char.toLower = some c.toLower then
      if pToken.length = matchIndex + 1 then some (pos - matchIndex)
      else strstriLoop pToken pString (pos + 1) (matchIndex + 1)
    else if (pToken[0]?).map Char.toLower = some c.toLower then
      if pToken.length = 1 then some pos else strstriLoop pToken pString (pos + 1) 1
    else strstriLoop pToken pString (pos + 1) 0

def strstri (pString pToken : List Char) : Option Nat := if pToken = [] then none else strstriLoop pToken pString 0 0

def lowerAt (l : List Char) (i : Nat) : Option Char := (l[i]?).map Char.toLower

/-- The token stands at `p`, ignoring the case. -/
def OccursAt (s t : List Char) (p : Nat) : Prop := ∀ i < t.length, lowerAt s (p + i) = lowerAt t i

instance (s t : List Char) (p : Nat) : Decidable (OccursAt s t p) := inferInstanceAs (Decidable (∀ i < t.length, _))

/-- Where a match of `k` characters ends with the first `j` of the token once more, both go on with the same
character. -/
def Restartable (t : List Char) : Prop :=
  ∀ k < t.length, ∀ j < k, 0 < j → (∀ i < j, lowerAt t (k - j + i) = lowerAt t i) → lowerAt t j = lowerAt t k

variable {s t : List Char} {c : Char} {pos m : Nat}

/-- The state of the loop: `m` characters of the token are matched in front of `pos`, and it stands nowhere before. -/
structure Matched (s t : List Char) (pos m : Nat) : Prop where
  le : m ≤ pos
  less : m < t.length
  same : ∀ i < m, lowerAt s (pos - m + i) = lowerAt t i
  earlier : ∀ q < pos - m, ¬ OccursAt s t q

namespace Matched

lemma found (h : Matched s t pos m) (last : t.length = m + 1) (next : lowerAt s pos = lowerAt t m) :
    FirstAt (OccursAt s t) 0 (some (pos - m)) := by
  refine ⟨Nat.zero_le _, fun i less => ?_, fun q _ => h.earlier q⟩
  rcases Nat.lt_succ_iff_lt_or_eq.mp (last ▸ less) with less | rfl
  · exact h.same i less
  · rw [Nat.sub_add_cancel h.le]
    exact next

lemma advance (h : Matched s t pos m) (more : t.length ≠ m + 1) (next : lowerAt s pos = lowerAt t m) :
    Matched s t (pos + 1) (m + 1) where
  le := Nat.succ_le_succ h.le
  less := Nat.lt_of_le_of_ne h.less more.symm
  same i less := by
    rw [Nat.add_sub_add_right]
    rcases Nat.lt_succ_iff_lt_or_eq.mp less with less | rfl
    · exact h.same i less
    · rw [Nat.sub_add_cancel h.le]
      exact next
  earlier := by
    rw [Nat.add_sub_add_right]
    exact h.earlier

lemma restart (h : Matched s t pos m) (restartable : Restartable t) (other : lowerAt s pos ≠ lowerAt t m) :
    Matched s t pos 0 where
  le := Nat.zero_le _
  less := Nat.zero_lt_of_lt h.less
  same := nofun
  earlier q less occurs := by
    by_cases inside : q < pos - m
    · exact h.earlier q inside occurs
    by_cases start : q = pos - m
    · have next := occurs m h.less
      rw [start, Nat.sub_add_cancel h.le] at next
      exact other next
    have le := h.le
    have lt := h.less
    -- an occurrence inside would repeat the first `pos - q` characters of the token
    have repeated : ∀ i < pos - q, lowerAt t (m - (pos - q) + i) = lowerAt t i := by
      intro i less
      rw [← h.same _ (by omega), ← occurs i (by omega)]
      congr 1
      omega
    have next := occurs (pos - q) (by omega)
    rw [Nat.add_sub_cancel' (by omega)] at next
    exact other (next.trans (restartable m lt (pos - q) (by omega) (by omega) repeated))

lemma skip (h : Matched s t pos 0) (other : lowerAt s pos ≠ lowerAt t 0) : Matched s t (pos + 1) 0 where
  le := Nat.zero_le _
  less := h.less
  same := nofun
  earlier q less occurs := by
    rcases Nat.lt_succ_iff_lt_or_eq.mp less with less | rfl
    · exact h.earlier q less occurs
    · exact other (occurs 0 h.less)

lemma nowhere (h : Matched s t s.length m) : FirstAt (OccursAt s t) 0 none := by
  intro q _ occurs
  by_cases before : q < s.length - m
  · exact h.earlier q before occurs
  · have last := occurs (t.length - 1) (by have := h.less; omega)
    have some := h.less
    rw [lowerAt, lowerAt, getElem?_eq_none (by omega), getElem?_eq_getElem (by omega)] at last
    cases last

end Matched

lemma strstriLoop_first (restartable : Restartable t) (rest : List Char) (cut : s.drop pos = rest) (le : pos ≤ s.length)
    (h : Matched s t pos m) : FirstAt (OccursAt s t) 0 (strstriLoop t rest pos m) := by
  induction rest generalizing pos m with
  | nil =>
    obtain rfl : pos = s.length := Nat.le_antisymm le (drop_eq_nil_iff.mp cut)
    exact h.nowhere
  | cons c rest ih =>
    have here : s[pos]? = some c := by
      have head := congrArg (·[0]?) cut
      simpa using head
    have next : s.drop (pos + 1) = rest := by
      rw [← drop_drop, cut]
      rfl
    have short := (List.getElem?_eq_some_iff.mp here).1
    have lower : lowerAt s pos = some c.toLower := by rw [lowerAt, here]; rfl
    rw [strstriLoop, ← lower]
    split
    case isTrue same =>
      split
      case isTrue last => exact h.found last same.symm
      case isFalse more => exact ih next short (h.advance more same.symm)
    case isFalse other =>
      have h := h.restart restartable (Ne.symm other)
      split
      case isTrue same =>
        split
        case isTrue last => exact h.found last same.symm
        case isFalse more => exact ih next short (h.advance more same.symm)
      case isFalse other => exact ih next short (h.skip (Ne.symm other))

/-! ### A token that is not restartable is missed -/

lemma le_of_strstriLoop {p : Nat} (found : strstriLoop t s pos m = some p) (le : m ≤ pos) : pos - m ≤ p := by
  induction s generalizing pos m with
  | nil => cases found
  | cons c s ih =>
    rw [strstriLoop] at found
    split at found
    · split at found
      · exact Nat.le_of_eq (Option.some.inj found)
      · have := ih found (Nat.succ_le_succ le)
        omega
    · split at found
      · split at found
        · cases found
          exact Nat.sub_le ..
        · have := ih found (Nat.le_add_left ..)
          omega
      · have := ih found (Nat.zero_le _)
        omega

lemma strstriLoop_append (u rest : List Char) (same : u <+: t.drop m) (less : m + u.length < t.length) :
    strstriLoop t (u ++ rest) pos m = strstriLoop t rest (pos + u.length) (m + u.length) := by
  induction u generalizing pos m with
  | nil => rfl
  | cons c u ih =>
    rw [length_cons] at less ⊢
    have short : m < t.length := by omega
    rw [drop_eq_getElem_cons short, cons_prefix_cons] at same
    rw [cons_append, strstriLoop, getElem?_eq_getElem short, ← same.1, Option.map_some, if_pos rfl,
      if_neg (by omega), ih same.2 (by omega), Nat.add_right_comm, Nat.add_right_comm m]
    rfl

lemma strstriLoop_restart (other : lowerAt t m ≠ some c.toLower) (s : List Char) :
    strstriLoop t (c :: s) pos m = strstriLoop t (c :: s) pos 0 := by
  rw [lowerAt] at other
  rw [strstriLoop, if_neg other, strstriLoop]
  split <;> rfl

/-- The search finds the first place of a token in every string exactly if the token is restartable. -/
theorem strstri_first_iff (t : List Char) (some : t ≠ []) :
    (∀ s, FirstAt (OccursAt s t) 0 (strstri s t)) ↔ Restartable t := by
  constructor
  · intro all k less j inside pos repeated
    by_contra other
    -- the match breaks off behind `k` characters, and the token is there from `k - j` on
    have length : (t.take k).length = k := length_take_of_le (Nat.le_of_lt less)
    have occurs : OccursAt (t.take k ++ t.drop j) t (k - j) := by
      intro i short
      by_cases i < j
      case pos early =>
        rw [← repeated i early, lowerAt, lowerAt, getElem?_append_left (by omega), getElem?_take_of_lt (by omega)]
      case neg late =>
        rw [lowerAt, lowerAt, getElem?_append_right (by omega), length, getElem?_drop]
        congr 2
        omega
    have rest := drop_eq_getElem_cons (Nat.lt_trans inside less)
    have search : strstri (t.take k ++ t.drop j) t = strstriLoop t (t.drop j) k 0 := by
      rw [strstri, if_neg some, strstriLoop_append _ _ (List.take_prefix k t) (by omega), length, Nat.zero_add, rest]
      apply strstriLoop_restart
      rw [lowerAt, lowerAt, getElem?_eq_getElem (Nat.lt_trans inside less)] at other
      exact Ne.symm other
    have first := all (t.take k ++ t.drop j)
    rw [search] at first
    cases found : strstriLoop t (t.drop j) k 0 with
    | none =>
      rw [found] at first
      exact first _ (Nat.zero_le _) occurs
    | some p =>
      rw [found] at first
      have late := le_of_strstriLoop found (Nat.zero_le _)
      exact first.2.2 (k - j) (Nat.zero_le _) (by omega) occurs
  · intro restartable s
    rw [strstri, if_neg some]
    exact strstriLoop_first restartable s rfl (Nat.zero_le _)
      ⟨Nat.zero_le _, length_pos_iff.mpr some, nofun, nofun⟩

/-- The repeated part goes on as the token does. -/
theorem strstri_first_iff_abab : let t := ['a', 'b', 'a', 'b']
    t ≠ [] ∧ ∀ s, FirstAt (OccursAt s t) 0 (strstri s t) :=
  ⟨by decide, (strstri_first_iff ['a', 'b', 'a', 'b'] (by decide)).mpr (by unfold Restartable; decide)⟩

theorem strstri_not_first : ¬ ∀ s t, t ≠ [] → FirstAt (OccursAt s t) 0 (strstri s t) := by
  intro all
  have missed := all ['a', 'a', 'a', 'b'] ['a', 'a', 'b'] (by decide)
  exact missed 1 (Nat.zero_le _) (by decide)

end Sming.System
