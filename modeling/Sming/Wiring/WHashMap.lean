import Mathlib.Algebra.Group.Nat.Defs
import Mathlib.Data.List.Nodup

/-!
# The hash map

Embedding of `Sming/Wiring/WHashMap.h`: two parallel arrays of keys and values in the order of
insertion, searched from the front. A key is entered only when the search does not find it, so every
key stands once; the structure carries this. The index operator of a map that is not `const` enters
the key it is asked for, which is `touch`.
-/

namespace Sming.Wiring
open List

structure HashMap (K V : Type) where
  entries : List (K × V) := []
  nodup : (entries.map Prod.fst).Nodup := by exact List.nodup_nil
  deriving DecidableEq

namespace HashMap

variable {K V : Type} [DecidableEq K] (m : HashMap K V)

def count : Nat := m.entries.length

def contains (k : K) : Bool := m.entries.any fun e => e.1 == k

/-- The value of a key, `nil` if it is absent (C++ `operator[]` of a `const` map). -/
def value (k : K) (nil : V) : V :=
  ((m.entries.find? fun e => e.1 == k).map Prod.snd).getD nil

variable {m : HashMap K V} {k : K}

lemma contains_iff : m.contains k = true ↔ k ∈ m.entries.map Prod.fst := by
  simp [contains]

lemma not_contains (h : m.contains k = false) : k ∉ m.entries.map Prod.fst := by
  intro mem
  rw [contains_iff.mpr mem] at h
  cases h

/-- Look a key up, entering it with the value `nil` if it is absent (C++ `operator[]`). -/
def touch (m : HashMap K V) (k : K) (nil : V) : HashMap K V :=
  if h : m.contains k then m else
    { entries := m.entries ++ [(k, nil)]
      nodup := by
        rw [map_append, map_singleton, ← concat_eq_append]
        exact m.nodup.concat (not_contains (Bool.not_eq_true _ ▸ h)) }

def assign (m : HashMap K V) (k : K) (v : V) : HashMap K V where
  entries := m.entries.map fun e => if e.1 = k then (k, v) else e
  nodup := by
    have keys : (m.entries.map fun e => if e.1 = k then (k, v) else e).map Prod.fst =
        m.entries.map Prod.fst := by
      rw [List.map_map]
      apply map_congr_left
      intro e _
      simp only [Function.comp_apply]
      split
      · exact Eq.symm ‹_›
      · rfl
    rw [keys]
    exact m.nodup

/-- `m[k] = v`. -/
def set (m : HashMap K V) (k : K) (v : V) : HashMap K V := (m.touch k v).assign k v

/-- `m[k] = f(m[k])`, which enters an absent key with `nil` first. `none` is the creation of the 65536th entry: the
counter has 16 bits, and the reference returned is outside of the arrays. -/
def update (m : HashMap K V) (k : K) (nil : V) (f : V → V) : Option (HashMap K V) :=
  if m.contains k = true ∨ m.count + 1 < 2 ^ 16 then some (m.set k (f (m.value k nil))) else none

def remove (m : HashMap K V) (k : K) : HashMap K V where
  entries := m.entries.eraseP fun e => e.1 == k
  nodup := m.nodup.sublist (eraseP_sublist.map Prod.fst)

variable {v w : V}

omit [DecidableEq K] in
lemma value_unique (hv : (k, v) ∈ m.entries) (hw : (k, w) ∈ m.entries) : v = w :=
  congrArg Prod.snd (inj_on_of_nodup_map m.nodup hv hw rfl)

variable {k' : K} {nil : V}

lemma mem_touch :
    (k', v) ∈ (m.touch k nil).entries ↔ (k', v) ∈ m.entries ∨ (m.contains k = false ∧ k' = k ∧ v = nil) := by
  rw [touch]
  split
  case isTrue h => simp [h]
  case isFalse h => simp [h]

lemma mem_assign (h : m.contains k = true) :
    (k', w) ∈ (m.assign k v).entries ↔ if k' = k then w = v else (k', w) ∈ m.entries := by
  obtain ⟨⟨k₁, u⟩, hu, rfl⟩ := List.mem_map.mp (contains_iff.mp h)
  rw [assign, List.mem_map]
  constructor
  · rintro ⟨⟨k₂, x⟩, hx, e⟩
    simp only at e
    split at e
    · cases e
      rw [if_pos rfl]
    · cases e
      rwa [if_neg ‹_›]
  · intro hw
    split at hw
    case isTrue same =>
      subst same hw
      exact ⟨(k', u), hu, if_pos rfl⟩
    case isFalse other => exact ⟨(k', w), hw, if_neg other⟩

lemma contains_touch (m : HashMap K V) (k : K) (nil : V) : (m.touch k nil).contains k = true := by
  rw [touch]
  split
  case isTrue h => exact h
  case isFalse => simp [contains]

lemma mem_set : (k', w) ∈ (m.set k v).entries ↔ if k' = k then w = v else (k', w) ∈ m.entries := by
  rw [set, mem_assign (contains_touch m k v)]
  split
  · rfl
  case isFalse other => simp [mem_touch, other]

omit [DecidableEq K] in
lemma not_mem_eraseP [BEq K] [LawfulBEq K] {l : List (K × V)}
    (nodup : (l.map Prod.fst).Nodup) : k ∉ (l.eraseP fun e => e.1 == k).map Prod.fst := by
  induction l with
  | nil => exact not_mem_nil
  | cons e l ih =>
    rw [map_cons, nodup_cons] at nodup
    rw [eraseP_cons]
    cases h : e.1 == k with
    | true =>
      rw [← eq_of_beq h]
      exact nodup.1
    | false =>
      rw [cond_false, map_cons, mem_cons]
      rintro (rfl | mem)
      · simp at h
      · exact ih nodup.2 mem

lemma mem_remove : (k', w) ∈ (m.remove k).entries ↔ k' ≠ k ∧ (k', w) ∈ m.entries := by
  constructor
  · intro h
    refine ⟨?_, mem_of_mem_eraseP h⟩
    rintro rfl
    exact not_mem_eraseP m.nodup (List.mem_map_of_mem h)
  · rintro ⟨other, h⟩
    exact (mem_eraseP_of_neg (by simpa using other)).mpr h

lemma contains_iff_exists : m.contains k = true ↔ ∃ v, (k, v) ∈ m.entries := by
  simp [contains_iff]

lemma contains_set : (m.set k v).contains k' = (decide (k' = k) || m.contains k') := by
  rw [Bool.eq_iff_iff, Bool.or_eq_true, decide_eq_true_iff, contains_iff_exists, contains_iff_exists]
  simp only [mem_set]
  by_cases h : k' = k <;> simp [h]

lemma contains_remove : (m.remove k).contains k' = (decide (k' ≠ k) && m.contains k') := by
  rw [Bool.eq_iff_iff, Bool.and_eq_true, decide_eq_true_iff, contains_iff_exists, contains_iff_exists]
  simp only [mem_remove, exists_and_left]

lemma value_of_mem (h : (k, v) ∈ m.entries) : m.value k nil = v := by
  rw [value]
  cases hf : m.entries.find? fun e => e.1 == k with
  | none => exact absurd (find?_eq_none.mp hf _ h) (by simp)
  | some e =>
    obtain ⟨k₁, w⟩ := e
    have key := find?_some hf
    simp only [beq_iff_eq] at key
    subst key
    exact value_unique (mem_of_find?_eq_some hf) h

lemma value_of_not_contains (h : m.contains k = false) : m.value k nil = nil := by
  rw [value]
  cases hf : m.entries.find? fun e => e.1 == k with
  | none => rfl
  | some e =>
    have key := find?_some hf
    simp only [beq_iff_eq] at key
    subst key
    exact absurd (List.mem_map_of_mem (mem_of_find?_eq_some hf)) (not_contains h)

lemma value_set : (m.set k v).value k' nil = if k' = k then v else m.value k' nil := by
  split
  case isTrue same =>
    apply value_of_mem
    rw [mem_set, if_pos same]
  case isFalse other =>
    cases hc : m.contains k' with
    | true =>
      obtain ⟨w, hw⟩ := contains_iff_exists.mp hc
      rw [value_of_mem hw]
      apply value_of_mem
      rwa [mem_set, if_neg other]
    | false =>
      rw [value_of_not_contains hc]
      apply value_of_not_contains
      rw [contains_set, hc, decide_eq_false other, Bool.or_self]

omit [DecidableEq K] in
lemma ext {m' : HashMap K V} (same : m.entries = m'.entries) : m = m' := by
  cases m
  cases same
  rfl

lemma set_set (m : HashMap K V) (k : K) (v w : V) : (m.set k v).set k w = m.set k w := by
  have there : (m.set k v).contains k = true := by
    rw [contains_set, decide_eq_true rfl, Bool.true_or]
  have keys : ∀ v : V, (m.set k v).entries = (m.touch k v).entries.map fun e => if e.1 = k then (k, v) else e :=
    fun _ => rfl
  apply ext
  rw [set, touch, dif_pos there]
  show ((m.set k v).entries.map fun e => if e.1 = k then (k, w) else e) = _
  rw [keys, keys, List.map_map]
  cases h : m.contains k with
  | true =>
    rw [touch, touch, dif_pos h, dif_pos h]
    apply map_congr_left
    intro e _
    rw [Function.comp_apply]
    by_cases same : e.1 = k
    · rw [if_pos same, if_pos rfl, if_pos same]
    · rw [if_neg same, if_neg same]
  | false =>
    have absent : ¬ m.contains k = true := by rw [h]; exact Bool.false_ne_true
    rw [touch, touch, dif_neg absent, dif_neg absent, map_append, map_append]
    congr 1
    · apply map_congr_left
      intro e mem
      have other : ¬ e.1 = k := fun same => not_contains h (same ▸ List.mem_map_of_mem mem)
      rw [Function.comp_apply, if_neg other, if_neg other]
    · rw [map_singleton, map_singleton, Function.comp_apply, if_pos rfl, if_pos rfl, if_pos rfl]

lemma update_update (m : HashMap K V) (k : K) (nil : V) (f g : V → V) :
    ((m.update k nil f).bind fun m' => m'.update k nil g) = m.update k nil (g ∘ f) := by
  rw [update, update]
  split
  · have there : (m.set k (f (m.value k nil))).contains k = true := by
      rw [contains_set, decide_eq_true rfl, Bool.true_or]
    rw [Option.bind_some, update, if_pos (.inl there), value_set, if_pos rfl, set_set]
    rfl
  · rfl

end HashMap

end Sming.Wiring
