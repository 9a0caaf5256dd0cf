import Mathlib.Data.List.TakeWhile

/-!
# First occurrences

`before a l` is the part of a list in front of the first `a`, the whole list if there is none. Its length is the place
where a search for `a` ends, so comparing places is asking which elements stand in front of others
(`mem_before_iff`). `FirstAt` is the answer of a search for a place with a property.
-/

namespace Sming.Lib
open List

variable {α : Type*} [DecidableEq α] {a b : α} {l m : List α}

def before (a : α) (l : List α) : List α := l.takeWhile (· != a)

lemma before_cons_self (a : α) (l : List α) : before a (a :: l) = [] := takeWhile_cons_of_neg (by simp)

lemma before_cons_of_ne (h : b ≠ a) (l : List α) : before a (b :: l) = b :: before a l :=
  takeWhile_cons_of_pos (by simpa using h)

lemma before_cons_congr (same : a ∈ l → before a m = before a l) (mem : a ∈ b :: l) :
    before a (b :: m) = before a (b :: l) := by
  by_cases h : b = a
  · rw [h, before_cons_self, before_cons_self]
  · rw [before_cons_of_ne h, before_cons_of_ne h, same ((mem_cons.mp mem).resolve_left (Ne.symm h))]

lemma before_append_of_not_mem (h : a ∉ l) (m : List α) : before a (l ++ m) = l ++ before a m := by
  apply takeWhile_append_of_pos
  intro b mem
  simpa using ne_of_mem_of_not_mem mem h

lemma before_of_not_mem (h : a ∉ l) : before a l = l := by
  have whole := before_append_of_not_mem h []
  simpa [before] using whole

lemma before_append_cons (h : a ∉ l) (m : List α) : before a (l ++ a :: m) = l := by
  rw [before_append_of_not_mem h, before_cons_self, append_nil]

lemma not_mem_before (a : α) (l : List α) : a ∉ before a l := by
  intro mem
  simpa using mem_takeWhile_imp mem

lemma before_eq_self_iff : before a l = l ↔ a ∉ l :=
  ⟨fun same mem => not_mem_before a l (same.symm ▸ mem), before_of_not_mem⟩

lemma before_isPrefix (a : α) (l : List α) : before a l <+: l := takeWhile_prefix _

lemma mem_of_mem_before (h : b ∈ before a l) : b ∈ l := (before_isPrefix a l).subset h

lemma exists_before_append (h : a ∈ l) : ∃ m, l = before a l ++ a :: m := by
  induction l with
  | nil => cases h
  | cons b l ih =>
    by_cases same : b = a
    · subst same
      rw [before_cons_self]
      exact ⟨l, rfl⟩
    · rw [before_cons_of_ne same]
      obtain ⟨m, cut⟩ := ih ((mem_cons.mp h).resolve_left (Ne.symm same))
      exact ⟨m, congrArg (b :: ·) cut⟩

lemma exists_drop_before (h : a ∈ l) : ∃ m, l.drop (before a l).length = a :: m := by
  obtain ⟨m, cut⟩ := exists_before_append h
  exact ⟨m, (congrArg (List.drop (before a l).length) cut).trans drop_left⟩

lemma before_append_of_mem (h : a ∈ l) (m : List α) : before a (l ++ m) = before a l := by
  obtain ⟨rest, cut⟩ := exists_before_append h
  have stays := before_append_cons (not_mem_before a l) (rest ++ m)
  rwa [← cons_append, ← List.append_assoc, ← cut] at stays

lemma mem_before_iff : b ∈ before a l ↔ b ∈ l ∧ (before b l).length < (before a l).length := by
  induction l with
  | nil => simp [before]
  | cons c l ih =>
    by_cases isA : c = a
    · subst isA
      rw [before_cons_self]
      simp
    by_cases isB : c = b
    · subst isB
      rw [before_cons_of_ne isA, before_cons_self]
      simp
    · rw [before_cons_of_ne isA, before_cons_of_ne isB, mem_cons, mem_cons, ih]
      simp [Ne.symm isB]

lemma findIdx?_eq_before (a : α) (l : List α) :
    (l.findIdx? fun x => x == a) = if a ∈ l then some (before a l).length else none := by
  induction l with
  | nil => rfl
  | cons b l ih =>
    rw [findIdx?_cons, ih]
    by_cases same : b = a
    · subst same
      rw [before_cons_self]
      simp
    · rw [before_cons_of_ne same]
      by_cases mem : a ∈ l <;> simp [same, Ne.symm same, mem]

/-- The first place at or behind `start` with the property, none if there is no such place. -/
def FirstAt (occurs : Nat → Prop) (start : Nat) : Option Nat → Prop
  | some p => start ≤ p ∧ occurs p ∧ ∀ q, start ≤ q → q < p → ¬ occurs q
  | none => ∀ q, start ≤ q → ¬ occurs q

variable {occurs : Nat → Prop} {start : Nat} {r r' : Option Nat}

lemma FirstAt.unique (h : FirstAt occurs start r) (h' : FirstAt occurs start r') : r = r' := by
  cases r with
  | none =>
    cases r' with
    | none => rfl
    | some p' => exact absurd h'.2.1 (h p' h'.1)
  | some p =>
    cases r' with
    | none => exact absurd h.2.1 (h' p h.1)
    | some p' =>
      have le : p ≤ p' := Nat.le_of_not_lt fun less => h.2.2 p' h'.1 less h'.2.1
      have ge : p' ≤ p := Nat.le_of_not_lt fun less => h'.2.2 p h.1 less h.2.1
      rw [Nat.le_antisymm le ge]

lemma FirstAt.skip {next : Nat} (le : start ≤ next) (skipped : ∀ q, start ≤ q → q < next → ¬ occurs q)
    (h : FirstAt occurs next r) : FirstAt occurs start r := by
  have before (q : Nat) (ge : start ≤ q) (none : next ≤ q → ¬ occurs q) : ¬ occurs q :=
    (Nat.lt_or_ge q next).elim (skipped q ge) none
  cases r with
  | none => exact fun q ge => before q ge (h q)
  | some p => exact ⟨Nat.le_trans le h.1, h.2.1, fun q ge less => before q ge fun ge => h.2.2 q ge less⟩

lemma firstAt_findIdx? (a : α) (l : List α) (start : Nat) :
    FirstAt (fun p => l[p]? = some a) start (((l.drop start).findIdx? (· == a)).map (· + start)) := by
  have shift (q : Nat) (ge : start ≤ q) : l[q]? = (l.drop start)[q - start]? := by
    rw [getElem?_drop, Nat.add_sub_cancel' ge]
  cases found : (l.drop start).findIdx? (· == a) with
  | none =>
    intro q ge at_q
    rw [shift q ge] at at_q
    exact absurd (findIdx?_eq_none_iff.mp found a (mem_of_getElem? at_q)) (by simp)
  | some i =>
    obtain ⟨lt, here, earlier⟩ := findIdx?_eq_some_iff_getElem.mp found
    refine ⟨Nat.le_add_left .., ?_, fun q ge less at_q => ?_⟩
    · have same := shift (i + start) (Nat.le_add_left ..)
      rwa [Nat.add_sub_cancel, getElem?_eq_getElem lt, beq_iff_eq.mp here] at same
    · have at_q := (shift q ge).symm.trans at_q
      obtain ⟨lt, same⟩ := List.getElem?_eq_some_iff.mp at_q
      exact earlier (q - start) (Nat.sub_lt_right_of_lt_add ge less) (beq_iff_eq.mpr same)

end Sming.Lib
