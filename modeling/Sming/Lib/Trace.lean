import Mathlib.Data.List.Induction

/-!
# Order in a log

A log is the list of what happened, oldest entry first. `Justified P log` says that every entry fits what was
in the log before it; `PrecededBy p q log` that nothing of kind `p` happened without something of kind `q`
before it.
-/

namespace Sming.Lib
open List

universe u

variable {α : Type u} {P : List α → α → Prop} {p q : α → Prop} {log more : List α} {a : α}

def Justified (P : List α → α → Prop) (log : List α) : Prop :=
  ∀ before a after, log = before ++ a :: after → P before a

lemma justified_nil : Justified P [] := by
  intro before a after h
  exact absurd h (by simp)

lemma justified_iff_getElem : Justified P log ↔ ∀ i (h : i < log.length), P (log.take i) log[i] := by
  constructor
  · intro all i h
    apply all _ _ (log.drop (i + 1))
    rw [getElem_cons_drop, take_append_drop]
  · rintro all before a after rfl
    have here := all before.length (by simp)
    rwa [take_left, getElem_of_append rfl rfl] at here

instance [∀ before a, Decidable (P before a)] (log : List α) : Decidable (Justified P log) :=
  decidable_of_iff _ justified_iff_getElem.symm

lemma justified_concat : Justified P (log ++ [a]) ↔ Justified P log ∧ P log a := by
  constructor
  · intro h
    refine ⟨fun before b after e => h before b (after ++ [a]) ?_, h log a [] rfl⟩
    rw [e, List.append_assoc, cons_append]
  · rintro ⟨old, new⟩ before b after e
    cases after using reverseRecOn with
    | nil =>
      obtain ⟨rfl, same⟩ := append_inj' e rfl
      cases same
      exact new
    | append_singleton after x =>
      rw [← cons_append, ← List.append_assoc] at e
      obtain ⟨rfl, -⟩ := append_inj' e rfl
      exact old before b after rfl

lemma justified_append (free : ∀ a ∈ more, ∀ before, P before a) : Justified P (log ++ more) ↔ Justified P log := by
  induction more using reverseRecOn with
  | nil => rw [append_nil]
  | append_singleton more a ih =>
    rw [forall_mem_append, forall_mem_singleton] at free
    rw [← List.append_assoc, justified_concat, ih free.1]
    exact and_iff_left (free.2 _)

lemma Justified.append (old : Justified P log) (new : ∀ a ∈ more, ∀ later, P (log ++ later) a) :
    Justified P (log ++ more) := by
  induction more using reverseRecOn with
  | nil => rwa [append_nil]
  | append_singleton more a ih =>
    rw [forall_mem_append, forall_mem_singleton] at new
    rw [← List.append_assoc, justified_concat]
    exact ⟨ih new.1, new.2 more⟩

def PrecededBy (p q : α → Prop) (log : List α) : Prop :=
  ∀ before a after, log = before ++ a :: after → p a → ∃ b ∈ before, q b

lemma precededBy_nil : PrecededBy p q [] := justified_nil

lemma precededBy_concat : PrecededBy p q (log ++ [a]) ↔ PrecededBy p q log ∧ (p a → ∃ b ∈ log, q b) :=
  justified_concat

lemma precededBy_append (none : ∀ a ∈ more, ¬ p a) : PrecededBy p q (log ++ more) ↔ PrecededBy p q log :=
  justified_append fun a mem _ pa => absurd pa (none a mem)

end Sming.Lib
