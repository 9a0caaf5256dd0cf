import Mathlib.Data.List.Rotate
import Mathlib.Data.Nat.ModEq

/-!
# Windows of a circular array

A circular buffer keeps `n` elements of an array in the cells `out, out + 1, …`, wrapping at the
array's end. `window raw out n` is the list of these elements, oldest first. The lemmas about it are
what a queue over such an array needs: an element stored behind the window joins its end, and the
cell at `out` holds the oldest element, whose removal moves the window by one cell.

`next` is the position after a cell, and `distance` counts the cells from one position to another, for
queues that keep two positions and no count.
-/

namespace Sming.Lib
open List

variable {α : Type*}

def window (raw : List α) (out n : Nat) : List α := (raw.rotate out).take n

variable {raw : List α}

lemma length_window {out n} (h : n ≤ raw.length) : (window raw out n).length = n := by
  simp [window, h]

lemma getElem?_window {out n i} (hi : i < n) (h : n ≤ raw.length) :
    (window raw out n)[i]? = raw[(out + i) % raw.length]? := by
  have hlt : i < raw.length := by omega
  rw [window, getElem?_take_of_lt hi, getElem?_rotate hlt, Nat.add_comm]

variable {i m : Nat}

lemma wrap_succ (h : i < m) : (if m ≤ i + 1 then 0 else i + 1) = (i + 1) % m := by
  split
  · have e : i + 1 = m := by omega
    rw [e, Nat.mod_self]
  · rw [Nat.mod_eq_of_lt (by omega)]

def next (m i : Nat) : Nat := if i + 1 = m then 0 else i + 1

lemma next_eq_mod (h : i < m) : next m i = (i + 1) % m := by
  rw [← wrap_succ h, next]
  split <;> split <;> omega

lemma next_lt (h : i < m) : next m i < m := by
  rw [next]
  split <;> omega

/-- The number of cells from `i` to `j` in a ring of `m` cells. -/
def distance (m i j : Nat) : Nat := if i ≤ j then j - i else m - (i - j)

variable {j : Nat}

lemma distance_lt (hi : i < m) (hj : j < m) : distance m i j < m := by
  rw [distance]
  split <;> omega

lemma distance_eq_zero_iff (hi : i < m) : distance m i j = 0 ↔ j = i := by
  rw [distance]
  split <;> omega

lemma distance_next_left (hi : i < m) (hj : j < m) (ne : j ≠ i) : distance m (next m i) j + 1 = distance m i j := by
  unfold next distance
  by_cases last : i + 1 = m
  · simp only [if_pos last]
    split <;> split <;> omega
  · simp only [if_neg last]
    split <;> split <;> omega

lemma distance_next_right (hi : i < m) (ne : next m j ≠ i) :
    distance m i (next m j) = distance m i j + 1 := by
  unfold next distance at *
  by_cases last : j + 1 = m
  · simp only [if_pos last] at ne ⊢
    split <;> split <;> omega
  · simp only [if_neg last] at ne ⊢
    split <;> split <;> omega

lemma next_eq_iff (hi : i < m) (hj : j < m) : next m j = i ↔ distance m i j + 1 = m := by
  unfold next distance
  split <;> split <;> omega

lemma add_distance_mod (hi : i < m) (hj : j < m) : (i + distance m i j) % m = j := by
  unfold distance
  split
  · rw [Nat.add_sub_cancel' (by assumption), Nat.mod_eq_of_lt hj]
  · have e : i + (m - (i - j)) = j + m := by omega
    rw [e, Nat.add_mod_right, Nat.mod_eq_of_lt hj]

lemma offset_ne {out : Nat} (hi : i < j) (hj : j < m) : (out + j) % m ≠ (out + i) % m := by
  intro e
  have h : j % m = i % m := Nat.ModEq.add_left_cancel' out e
  rw [Nat.mod_eq_of_lt hj, Nat.mod_eq_of_lt (by omega)] at h
  omega

lemma window_push {out n x} (h : n < raw.length) :
    window (raw.set ((out + n) % raw.length) x) out (n + 1) = window raw out n ++ [x] := by
  have hlen : (window raw out n).length = n := length_window (by omega)
  have hroom : n + 1 ≤ (raw.set ((out + n) % raw.length) x).length := by
    rw [length_set]
    exact h
  apply ext_getElem?
  intro i
  rcases Nat.lt_trichotomy i n with lt | eq | gt
  · rw [getElem?_window (by omega) hroom, getElem?_append_left (by omega),
      getElem?_window lt (by omega), length_set, getElem?_set_ne (offset_ne lt h)]
  · subst eq
    have hcell : (out + i) % raw.length < raw.length := Nat.mod_lt _ (by omega)
    rw [getElem?_window (by omega) hroom, getElem?_append_right (by omega), length_set, getElem?_set_self hcell, hlen]
    simp
  · rw [getElem?_eq_none, getElem?_eq_none]
    · simp [hlen]; omega
    · rw [length_window hroom]
      omega

lemma window_pop {out n} (h : n < raw.length) (hout : out < raw.length) :
    window raw out (n + 1) = raw[out] :: window raw ((out + 1) % raw.length) n := by
  apply ext_getElem?
  intro i
  cases i with
  | zero =>
    rw [getElem?_window (by omega) (by omega), Nat.add_zero, Nat.mod_eq_of_lt hout]
    simp [hout]
  | succ i =>
    rw [getElem?_cons_succ]
    rcases Nat.lt_or_ge i n with lt | ge
    · rw [getElem?_window (by omega) (by omega), getElem?_window lt (by omega), Nat.mod_add_mod,
        Nat.add_assoc, Nat.add_comm 1 i]
    · rw [getElem?_eq_none, getElem?_eq_none]
      · rw [length_window (by omega)]
        omega
      · rw [length_window (by omega)]
        omega

end Sming.Lib
