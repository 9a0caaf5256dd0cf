import Mathlib.Data.List.DropRight

/-!
# Words

The words of a list are its longest parts without blanks, for any predicate that says which symbols are blank.
-/

namespace Sming.Lib
open List

variable {α : Type*} {blank : α → Bool} {a : α} {l w : List α}

def words (blank : α → Bool) (l : List α) : List (List α) := (l.splitOnP blank).filter fun w => !w.isEmpty

@[simp] lemma words_nil : words blank [] = [] := by
  rw [words, splitOnP_nil]
  rfl

lemma words_append_blank (h : blank a = true) (l m : List α) :
    words blank (l ++ a :: m) = words blank l ++ words blank m := by
  rw [words, splitOnP_append_cons l m h, filter_append]
  rfl

lemma words_cons_blank (h : blank a = true) (l : List α) : words blank (a :: l) = words blank l := by
  have parts := words_append_blank h [] l
  rwa [words_nil, nil_append, nil_append] at parts

lemma words_solid (ne : l ≠ []) (solid : ∀ a ∈ l, blank a = false) : words blank l = [l] := by
  rw [words, splitOnP_eq_singleton solid]
  cases l with
  | nil => exact absurd rfl ne
  | cons a l => rfl

lemma mem_words (mem : w ∈ words blank l) : w ≠ [] ∧ ∀ a ∈ w, blank a = false := by
  obtain ⟨part, ne⟩ := mem_filter.mp mem
  refine ⟨by simpa using ne, ?_⟩
  clear mem ne
  induction l generalizing w with
  | nil =>
    rw [splitOnP_nil, mem_singleton] at part
    subst part
    exact forall_mem_nil _
  | cons x l ih =>
    obtain ⟨first, parts, split⟩ := exists_cons_of_ne_nil (splitOnP_ne_nil blank l)
    rw [splitOnP_cons_eq_if_modifyHead, split] at part
    rw [split] at ih
    cases h : blank x with
    | true =>
      rw [if_pos h, mem_cons] at part
      rcases part with rfl | part
      · exact forall_mem_nil _
      · exact ih part
    | false =>
      rw [if_neg (by simp [h]), modifyHead_cons, mem_cons] at part
      rcases part with rfl | part
      · exact forall_mem_cons.mpr ⟨h, ih mem_cons_self⟩
      · exact ih (mem_cons_of_mem _ part)

lemma words_cons_solid (h : blank a = false) (l : List α) :
    ∃ rest, words blank (a :: l) = (a :: l).takeWhile (fun x => !blank x) :: rest := by
  have first : (a :: l).takeWhile (fun x => !blank x) ≠ [] := by
    rw [takeWhile_cons_of_pos (by simp [h])]
    exact cons_ne_nil _ _
  have solid : ∀ x ∈ (a :: l).takeWhile (fun x => !blank x), blank x = false := fun x mem => by
    simpa using mem_takeWhile_imp mem
  have whole : (a :: l).takeWhile (fun x => !blank x) ++ (a :: l).dropWhile (fun x => !blank x) = a :: l :=
    List.takeWhile_append_dropWhile
  cases after : (a :: l).dropWhile (fun x => !blank x) with
  | nil =>
    rw [after, append_nil] at whole
    rw [whole] at solid ⊢
    exact ⟨[], words_solid (cons_ne_nil _ _) solid⟩
  | cons b m =>
    have stop : blank b = true := by
      have no := head?_dropWhile_not (fun x => !blank x) (a :: l)
      rw [after] at no
      simpa using no
    rw [after] at whole
    refine ⟨words blank m, ?_⟩
    calc words blank (a :: l) = words blank ((a :: l).takeWhile (fun x => !blank x) ++ b :: m) := by rw [whole]
      _ = [(a :: l).takeWhile (fun x => !blank x)] ++ words blank m := by
        rw [words_append_blank stop, words_solid first solid]

lemma words_dropWhile (l : List α) : words blank (l.dropWhile blank) = words blank l := by
  induction l with
  | nil => rfl
  | cons a l ih =>
    cases h : blank a with
    | true => rw [dropWhile_cons_of_pos h, ih, words_cons_blank h]
    | false => rw [dropWhile_cons_of_neg (by simp [h])]

lemma words_rdropWhile (l : List α) : words blank (l.rdropWhile blank) = words blank l := by
  induction l using reverseRecOn with
  | nil => rfl
  | append_singleton l a ih =>
    cases h : blank a with
    | true => rw [rdropWhile_concat_pos _ _ _ h, ih, words_append_blank h, words_nil, append_nil]
    | false => rw [rdropWhile_concat_neg _ _ _ (by simp [h])]

end Sming.Lib
