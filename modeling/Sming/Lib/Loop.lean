import Mathlib.Init

/-!
# While loops

A loop is a turn `step` that either goes on with a new state or leaves with a result. `loop step fuel`
runs at most `fuel` turns and answers `none` when they were not enough, so that "the loop ends" is a
statement of its own. `loop_invariant` is the invariant rule for what a loop that ends leaves behind;
`loop_total` adds a measure that every turn makes smaller, which gives the end as well.
-/

namespace Sming.Lib

variable {σ α : Type*} {step : σ → σ ⊕ α} {Inv : σ → Prop} {Post : α → Prop}

def loop (step : σ → σ ⊕ α) : Nat → σ → Option α
  | 0, _ => none
  | fuel + 1, s =>
    match step s with
    | .inl s' => loop step fuel s'
    | .inr a => some a

lemma loop_invariant (go : ∀ s s', Inv s → step s = .inl s' → Inv s')
    (leave : ∀ s a, Inv s → step s = .inr a → Post a) {fuel : Nat} {s : σ} {a : α} (init : Inv s)
    (h : loop step fuel s = some a) : Post a := by
  induction fuel generalizing s with
  | zero => cases h
  | succ fuel ih =>
    rw [loop] at h
    cases e : step s with
    | inl s' =>
      rw [e] at h
      exact ih (go s s' init e) h
    | inr b =>
      rw [e] at h
      cases h
      exact leave s a init e

lemma loop_total (measure : σ → Nat) (go : ∀ s s', Inv s → step s = .inl s' → Inv s' ∧ measure s' < measure s)
    (leave : ∀ s a, Inv s → step s = .inr a → Post a) {fuel : Nat} {s : σ} (init : Inv s)
    (enough : measure s < fuel) : ∃ a, loop step fuel s = some a ∧ Post a := by
  induction fuel generalizing s with
  | zero => cases enough
  | succ fuel ih =>
    rw [loop]
    cases e : step s with
    | inl s' =>
      obtain ⟨inv, less⟩ := go s s' init e
      exact ih inv (Nat.lt_of_lt_of_le less (Nat.le_of_lt_succ enough))
    | inr a => exact ⟨a, rfl, leave s a init e⟩

end Sming.Lib
