import Mathlib.Data.List.Basic

/-!
# Runs of a partial step function

A system is a step function `step : σ → ε → Option σ`; `none` says that the event cannot happen in the state. `Run step
ok s es t` says that the events `es` lead from `s` to `t`, each of them meeting the condition `ok` in its state. With
`Always` these are all the runs of the system.

`Run.invariant` is the induction every safety result goes through. `Run.iff_guarded` is its two-way form;
`Run.forall_prefix_iff_guarded` is for a property that may come back after it was lost. `exec` evaluates a run on
concrete events.
-/

namespace Sming.Lib
open List

universe u v

variable {σ : Type u} {ε : Type v}

/-- The condition that every step meets. -/
def Always : σ → ε → Prop := fun _ _ => True

instance (s : σ) (e : ε) : Decidable (Always s e) := .isTrue trivial

/-- `Run step ok s es t`: the events `es` lead from `s` to `t`, each of them meeting `ok`. -/
inductive Run (step : σ → ε → Option σ) (ok : σ → ε → Prop) (s : σ) : List ε → σ → Prop where
  | nil :
    Run step ok s [] s
  | snoc {es t e u} :
    Run step ok s es t →
    ok t e →
    step t e = some u →
    Run step ok s (es ++ [e]) u

variable {step : σ → ε → Option σ} {ok ok' : σ → ε → Prop}

lemma Run.invariant {Inv : σ → Prop} {s es t} (r : Run step ok s es t) (init : Inv s)
    (keep : ∀ {t e u}, Inv t → ok t e → step t e = some u → Inv u) : Inv t := by
  induction r with
  | nil => exact init
  | snoc _ hok st ih => exact keep ih hok st

lemma Run.mono {s es t} (r : Run step ok s es t) (h : ∀ t e, ok t e → ok' t e) : Run step ok' s es t := by
  induction r with
  | nil => exact .nil
  | snoc _ hok st ih => exact .snoc ih (h _ _ hok) st

lemma Run.always {s es t} (r : Run step ok s es t) : Run step Always s es t := r.mono fun _ _ _ => trivial

lemma Run.snoc_inv {s es e u} (r : Run step ok s (es ++ [e]) u) :
    ∃ t, Run step ok s es t ∧ ok t e ∧ step t e = some u := by
  generalize h : es ++ [e] = l at r
  cases r with
  | nil => exact absurd h (by simp)
  | snoc r hok st =>
    obtain ⟨rfl, e'⟩ := append_inj' h rfl
    cases e'
    exact ⟨_, r, hok, st⟩

lemma Run.unique {s es t t'} (r : Run step ok s es t) (r' : Run step ok' s es t') : t = t' := by
  induction r generalizing t' with
  | nil =>
    generalize h : ([] : List ε) = l at r'
    cases r' with
    | nil => rfl
    | snoc => exact absurd h (by simp)
  | snoc _ _ st ih =>
    obtain ⟨x, rx, _, st'⟩ := r'.snoc_inv
    have e := ih rx
    subst e
    rw [st] at st'
    exact Option.some.inj st'

variable {P : σ → Prop}

/-- When a step keeps `P` exactly if it meets `ok`, a run keeps `P` exactly if its steps meet `ok`. -/
lemma Run.iff_guarded {s es t} (r : Run step ok' s es t) (init : P s)
    (keep : ∀ {es t e u}, Run step ok' s es t → ok' t e → step t e = some u → (P u ↔ P t ∧ ok t e)) :
    P t ↔ Run step ok s es t := by
  induction r with
  | nil => exact ⟨fun _ => .nil, fun _ => init⟩
  | snoc r hok' st ih =>
    rw [keep r hok' st, ih]
    constructor
    · rintro ⟨rg, hok⟩
      exact .snoc rg hok st
    · intro rg
      obtain ⟨x, rx, hok, _⟩ := rg.snoc_inv
      have e := r.unique rx
      subst e
      exact ⟨rx, hok⟩

/-- When a step from a guarded run leads to `P` exactly if it meets `ok`, a run has `P` after each of its steps exactly
if they meet `ok`. -/
lemma Run.forall_step_iff_guarded {s es t} (r : Run step ok' s es t)
    (keep : ∀ {es t e u}, Run step ok s es t → ok' t e → step t e = some u → (P u ↔ ok t e)) :
    (∀ es' e t', es' ++ [e] <+: es → Run step ok' s (es' ++ [e]) t' → P t') ↔ Run step ok s es t := by
  induction r with
  | nil => exact ⟨fun _ => .nil, fun _ es' e t' pre _ => absurd (prefix_nil.mp pre) (by simp)⟩
  | @snoc es t e u r hok' st ih =>
    constructor
    · intro all
      have rg : Run step ok s es t :=
        ih.mp fun es' e' t' pre => all es' e' t' (pre.trans (prefix_append es [e]))
      exact .snoc rg ((keep rg hok' st).mp (all _ _ _ prefix_rfl (.snoc r hok' st))) st
    · intro rg es' e' t' pre r'
      obtain ⟨x, rx, hok, st'⟩ := rg.snoc_inv
      obtain rfl := r.unique rx
      rcases prefix_concat_iff.mp pre with whole | pre
      · rw [whole] at r'
        rw [r'.unique rg]
        exact (keep rx hok' st').mpr hok
      · exact ih.mpr rx es' e' t' pre r'

lemma Run.forall_prefix_iff_guarded {s es t} (r : Run step ok' s es t) (init : P s)
    (keep : ∀ {es t e u}, Run step ok s es t → ok' t e → step t e = some u → (P u ↔ ok t e)) :
    (∀ es' t', es' <+: es → Run step ok' s es' t' → P t') ↔ Run step ok s es t := by
  rw [← r.forall_step_iff_guarded keep]
  constructor
  · exact fun all es' e t' => all (es' ++ [e]) t'
  · intro all es' t' pre r'
    cases r' with
    | nil => exact init
    | snoc r' hok' st => exact all _ _ _ pre (.snoc r' hok' st)

lemma Run.cons {s t e es u} (hok : ok s e) (st : step s e = some t) (r : Run step ok t es u) :
    Run step ok s (e :: es) u := by
  induction r with
  | nil => exact @Run.snoc _ _ step ok s [] s e t .nil hok st
  | @snoc fs x f y _ hok' st' ih => exact @Run.snoc _ _ step ok s (e :: fs) x f y ih hok' st'

lemma Run.reaches {Inv final : σ → Prop} {s} (events : Nat → ε) (measure : σ → Nat) (init : Inv s)
    (progress : ∀ {t} i, Inv t → ¬ final t →
      ∃ u, ok t (events i) ∧ step t (events i) = some u ∧ Inv u ∧ measure u < measure t) :
    ∃ n t, Run step ok s ((range n).map events) t ∧ Inv t ∧ final t := by
  have later : ∀ m n t, Run step ok s ((range n).map events) t → Inv t → measure t ≤ m →
      ∃ n t, Run step ok s ((range n).map events) t ∧ Inv t ∧ final t := by
    intro m
    induction m with
    | zero =>
      intro n t r inv le
      by_cases h : final t
      · exact ⟨n, t, r, inv, h⟩
      · obtain ⟨u, -, -, -, less⟩ := progress n inv h
        omega
    | succ m ih =>
      intro n t r inv le
      by_cases h : final t
      · exact ⟨n, t, r, inv, h⟩
      · obtain ⟨u, hok, st, inv', less⟩ := progress n inv h
        apply ih (n + 1) u ?_ inv' (by omega)
        rw [range_succ, map_append]
        exact .snoc r hok st
  exact later _ 0 s .nil init (Nat.le_refl _)

/-- The state a list of events leads to when each of them meets `ok`, computed. -/
def exec (step : σ → ε → Option σ) (ok : σ → ε → Prop) [∀ s e, Decidable (ok s e)] :
    σ → List ε → Option σ
  | s, [] => some s
  | s, e :: es => if ok s e then (step s e).bind fun t => exec step ok t es else none

lemma exec_run [∀ s e, Decidable (ok s e)] {s es t} (h : exec step ok s es = some t) : Run step ok s es t := by
  induction es generalizing s with
  | nil =>
    cases h
    exact .nil
  | cons e es ih =>
    rw [exec] at h
    split at h
    case isTrue hok =>
      obtain ⟨x, st, h⟩ := Option.bind_eq_some_iff.mp h
      exact .cons hok st (ih h)
    case isFalse => exact nomatch h

lemma exists_exec [∀ s e, Decidable (ok s e)] [DecidablePred P] {s es}
    (h : (exec step ok s es).any fun t => decide (P t)) : ∃ t, exec step ok s es = some t ∧ P t := by
  obtain ⟨t, run, holds⟩ := Option.any_eq_true .. |>.mp h
  exact ⟨t, run, of_decide_eq_true holds⟩

lemma exists_run [∀ s e, Decidable (ok s e)] {Q : σ → Prop} {s es} (P : σ → Prop) [DecidablePred P]
    (h : (exec step ok s es).any fun t => decide (P t)) (known : ∀ t, Run step ok s es t → P t → Q t) :
    ∃ t, Run step ok s es t ∧ Q t := by
  obtain ⟨t, done, holds⟩ := exists_exec h
  exact ⟨t, exec_run done, known t (exec_run done) holds⟩

lemma not_forall_run [∀ s e, Decidable (ok s e)] [DecidablePred P] {s} (es : List ε)
    (h : (exec step ok s es).any fun t => !decide (P t)) : ¬ ∀ es t, Run step ok s es t → P t := by
  intro all
  obtain ⟨t, run, bad⟩ : ∃ t, exec step ok s es = some t ∧ ¬ P t := by
    apply exists_exec
    simpa only [decide_not] using h
  exact bad (all es t (exec_run run))

end Sming.Lib
