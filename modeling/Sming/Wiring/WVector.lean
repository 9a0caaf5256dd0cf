import Mathlib.Data.List.Sort

/-!
# Sorting a vector

Embedding of `Vector::sort` of `Sming/Wiring/WVector.h`, the insertion sort that moves the larger elements in front of a
key up by one. Read from its end, the sorted part of the vector is a list that the key is inserted into.
-/

namespace Sming.Wiring.WVector
open List

variable {α : Type*}

def shift (compareFunction : α → α → Int) (key : α) : Nat → List α → List α
  | 0, data => data.set 0 key
  | i + 1, data =>
    match data[i]? with
    | none => data
    | some e =>
      if compareFunction e key > 0 then shift compareFunction key i (data.set (i + 1) e) else data.set (i + 1) key

/-- The outer loop, for the elements from `j` on. -/
def sortFrom (compareFunction : α → α → Int) : Nat → Nat → List α → List α
  | 0, _, data => data
  | n + 1, j, data =>
    match data[j]? with
    | none => data
    | some key => sortFrom compareFunction n (j + 1) (shift compareFunction key j data)

def sort (compareFunction : α → α → Int) (data : List α) : List α := sortFrom compareFunction (data.length - 1) 1 data

variable {compare : α → α → Int}

abbrev NotBelow (compare : α → α → Int) (a b : α) : Prop := compare b a ≤ 0

lemma shift_eq (key hole : α) (sorted rest : List α) :
    shift compare key sorted.length (sorted.reverse ++ hole :: rest) =
      (sorted.orderedInsert (NotBelow compare) key).reverse ++ rest := by
  induction sorted generalizing hole rest with
  | nil => rfl
  | cons e sorted ih =>
    have last : (sorted.reverse ++ e :: hole :: rest)[sorted.length]? = some e := by
      simp
    have free (x : α) : (sorted.reverse ++ e :: hole :: rest).set (sorted.length + 1) x =
        sorted.reverse ++ e :: x :: rest := by
      simp [set_append_right]
    rw [reverse_cons, List.append_assoc, singleton_append, length_cons, shift, last, orderedInsert_cons]
    simp only [free]
    split
    case isTrue above => rw [ih, if_neg (Int.not_le.mpr above), reverse_cons, List.append_assoc]; rfl
    case isFalse below => rw [if_pos (Int.not_lt.mp below)]; simp

lemma sortFrom_eq (sorted rest : List α) :
    sortFrom compare rest.length sorted.length (sorted.reverse ++ rest) =
      (rest.foldl (fun l key => l.orderedInsert (NotBelow compare) key) sorted).reverse := by
  induction rest generalizing sorted with
  | nil => exact append_nil _
  | cons key rest ih =>
    have next : (sorted.reverse ++ key :: rest)[sorted.length]? = some key := by
      simp
    rw [length_cons, sortFrom, next]
    simp only [shift_eq]
    rw [← orderedInsert_length (NotBelow compare) sorted key, ih]
    rfl

lemma sort_eq (data : List α) : sort compare data = (data.reverse.insertionSort (NotBelow compare)).reverse := by
  cases data with
  | nil => rfl
  | cons first rest =>
    rw [insertionSort, foldr_reverse]
    exact sortFrom_eq [first] rest

/-- Neither of two elements comes before the other. -/
def equivalent (compare : α → α → Int) (a b : α) : Bool := compare a b ≤ 0 ∧ compare b a ≤ 0

/-- With a total preorder as the comparison, the elements are sorted and equivalent ones keep their order. -/
theorem sort_correct (compare : α → α → Int) (total : ∀ a b, compare a b ≤ 0 ∨ compare b a ≤ 0)
    (trans : ∀ a b c, compare a b ≤ 0 → compare b c ≤ 0 → compare a c ≤ 0) (data : List α) :
    (sort compare data).Perm data ∧ (sort compare data).Pairwise (fun a b => compare a b ≤ 0) ∧
      ∀ e, (sort compare data).filter (equivalent compare e) = data.filter (equivalent compare e) := by
  have _ : Std.Total (NotBelow compare) := ⟨fun a b => total b a⟩
  have _ : IsTrans α (NotBelow compare) := ⟨fun a b c ab bc => trans c b a bc ab⟩
  have perm : (sort compare data).Perm data := by
    rw [sort_eq]
    exact (reverse_perm _).trans ((perm_insertionSort _ _).trans data.reverse_perm)
  refine ⟨perm, ?_, fun e => ?_⟩
  · rw [sort_eq, pairwise_reverse]
    exact pairwise_insertionSort (NotBelow compare) data.reverse
  · -- the class of `e` is a sorted part of the vector, so it is found in the result; by its length it is all of it
    have class_sorted : (data.reverse.filter (equivalent compare e)).Pairwise (NotBelow compare) := by
      apply pairwise_of_forall_mem_list
      intro a ha b hb
      have first := of_decide_eq_true (mem_filter.mp ha).2
      have second := of_decide_eq_true (mem_filter.mp hb).2
      exact trans _ _ _ second.2 first.1
    have found := sublist_insertionSort class_sorted filter_sublist
    rw [filter_reverse] at found
    have found := (reverse_sublist.mpr found).filter (equivalent compare e)
    rw [reverse_reverse, List.filter_filter, ← sort_eq] at found
    simp only [Bool.and_self] at found
    exact (found.eq_of_length (perm.filter _).length_eq.symm).symm

theorem sort_correct_pairs : (sort (fun a b : Nat × Nat => (a.1 : Int) - b.1) [(2, 0), (1, 1), (2, 2), (1, 3)]).Pairwise
    fun a b => (a.1 : Int) - b.1 ≤ 0 :=
  (sort_correct (fun a b : Nat × Nat => (a.1 : Int) - b.1) (by intros; omega) (by intros; omega) _).2.1

end Sming.Wiring.WVector
