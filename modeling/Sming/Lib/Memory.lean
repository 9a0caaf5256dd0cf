import Mathlib.Data.Nat.Cast.Defs
import Mathlib.Data.Set.Function
import Mathlib.Order.Interval.Set.Defs

/-!
# Byte-addressed memory

A memory is a function from addresses to cells; addresses may wrap, as machine words do. `load` reads
consecutive cells and `store` writes them. Both follow the order of the addresses, so a transfer done
in parts is the transfer done at once (`load_add`, `store_append`), and a store of what is already
there changes nothing (`store_load`). `store_merge` is the rule for a read-modify-write of a unit that
is larger than the data.
-/

namespace Sming.Lib
open List

variable {A β : Type*} [AddMonoidWithOne A] {m m' : A → β} {a b : A}

def load (m : A → β) (a : A) : Nat → List β
  | 0 => []
  | n + 1 => m a :: load m (a + 1) n

/-- The memory after storing the cells `xs` from address `a` on. -/
def store [DecidableEq A] (m : A → β) (a : A) : List β → A → β
  | [] => m
  | x :: xs => store (Function.update m a x) (a + 1) xs

lemma add_one_add (a : A) (n : Nat) : a + 1 + (n : A) = a + ((n + 1 : Nat) : A) := by
  rw [add_assoc, Nat.add_comm n 1, Nat.cast_one_add]

lemma forall_offset_succ {P : A → Prop} {n : Nat} (h : ∀ i < n + 1, P (a + (i : A))) :
    P a ∧ ∀ i < n, P (a + 1 + (i : A)) := by
  constructor
  · have first := h 0 (Nat.succ_pos n)
    rwa [Nat.cast_zero, add_zero] at first
  · intro i hi
    rw [add_one_add]
    exact h (i + 1) (Nat.succ_lt_succ hi)

@[simp] lemma length_load (m : A → β) (a : A) (n : Nat) : (load m a n).length = n := by
  induction n generalizing a with
  | zero => rfl
  | succ n ih => simp [load, ih]

lemma load_add (m : A → β) (a : A) (n k : Nat) : load m a (n + k) = load m a n ++ load m (a + n) k := by
  induction n generalizing a with
  | zero => simp [load]
  | succ n ih => rw [Nat.add_right_comm, load, load, ih, add_one_add, cons_append]

lemma load_congr {n : Nat} (h : ∀ i < n, m (a + (i : A)) = m' (a + (i : A))) : load m a n = load m' a n := by
  induction n generalizing a with
  | zero => rfl
  | succ n ih =>
    obtain ⟨first, rest⟩ := forall_offset_succ (P := fun b => m b = m' b) h
    rw [load, load, first, ih rest]

lemma getElem_load {n i : Nat} (h : i < (load m a n).length) : (load m a n)[i] = m (a + (i : A)) := by
  induction n generalizing a i with
  | zero => cases h
  | succ n ih =>
    cases i with
    | zero => simp [load]
    | succ i =>
      have h' : i < (load m (a + 1) n).length := by simpa [load] using h
      simp only [load, getElem_cons_succ]
      rw [ih h', add_one_add]

variable [DecidableEq A]

lemma store_append (m : A → β) (a : A) (xs ys : List β) :
    store m a (xs ++ ys) = store (store m a xs) (a + xs.length) ys := by
  induction xs generalizing m a with
  | nil => simp [store]
  | cons x xs ih => rw [cons_append, store, store, ih, add_one_add, length_cons]

lemma store_load (m : A → β) (a : A) (n : Nat) : store m a (load m a n) = m := by
  induction n generalizing a with
  | zero => rfl
  | succ n ih => rw [load, store, Function.update_eq_self, ih]

variable {xs : List β}

lemma store_of_ne (h : ∀ i < xs.length, b ≠ a + (i : A)) : store m a xs b = m b := by
  induction xs generalizing m a with
  | nil => rfl
  | cons x xs ih =>
    obtain ⟨first, rest⟩ := forall_offset_succ h
    rw [store, ih rest, Function.update_of_ne first]

lemma store_getElem (inj : Set.InjOn (fun i : Nat => a + (i : A)) (Set.Iio xs.length))
    {i : Nat} (hi : i < xs.length) : store m a xs (a + (i : A)) = xs[i] := by
  -- the cell at `i` is written when `i` cells are done, and no later store meets it
  have parts : xs = xs.take i ++ (xs[i] :: xs.drop (i + 1)) := by
    rw [getElem_cons_drop, take_append_drop]
  have len : (xs.take i).length = i := length_take_of_le (Nat.le_of_lt hi)
  have := store_append m a (xs.take i) (xs[i] :: xs.drop (i + 1))
  rw [← parts, len] at this
  rw [this, store, store_of_ne, Function.update_self]
  intro j hj same
  rw [length_drop] at hj
  rw [add_one_add, add_assoc, ← Nat.cast_add] at same
  have := inj hi (show i + (j + 1) ∈ Set.Iio xs.length by simp only [Set.mem_Iio]; omega) same
  omega

lemma load_store (inj : Set.InjOn (fun i : Nat => a + (i : A)) (Set.Iio xs.length)) :
    load (store m a xs) a xs.length = xs := by
  apply ext_getElem (length_load _ _ _)
  intro i _ hi
  rw [getElem_load, store_getElem inj hi]

lemma update_store (h : ∀ i < xs.length, b ≠ a + (i : A)) (x : β) :
    Function.update (store m a xs) b x = store (Function.update m b x) a xs := by
  induction xs generalizing m a with
  | nil => rfl
  | cons y xs ih =>
    obtain ⟨first, rest⟩ := forall_offset_succ h
    rw [store, store, ih rest, Function.update_comm first]

/-- Read-modify-write: a unit read from `a`, overlaid with `xs` behind its first `r` cells and stored
back, is a store of `xs` alone. -/
lemma store_merge (m : A → β) (a : A) (r k : Nat)
    (apart : ∀ i < k, ∀ j < xs.length, a + (r : A) + (xs.length : A) + (i : A) ≠ a + r + (j : A)) :
    store m a (load m a r ++ xs ++ load m (a + r + xs.length) k) = store m (a + r) xs := by
  have rest : load m (a + r + xs.length) k = load (store m (a + r) xs) (a + r + xs.length) k := by
    apply load_congr
    intro i hi
    exact (store_of_ne (apart i hi)).symm
  rw [store_append, store_append, store_load, rest, List.length_append, length_load, Nat.cast_add,
    ← add_assoc, store_load]

end Sming.Lib
