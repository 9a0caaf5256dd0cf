import Mathlib.Data.List.Forall2
import Mathlib.Data.List.Induction

/-!
# Finite maps in the order of insertion

A map over keys that are compared by an equivalence `==`: the list of its entries, oldest first, with
no two equivalent keys. A new key goes to the end of the list, a value is assigned in its place, and
what is removed leaves the order of the others as it is.
-/

namespace Sming.Lib
open List Option

variable {K V : Type} [BEq K]

/-- A finite map that remembers the order in which its keys were entered. -/
structure OrderedMap (K V : Type) [BEq K] where
  entries : List (K × V) := []
  distinct : entries.Pairwise fun a b => (a.1 == b.1) = false := by exact List.Pairwise.nil

namespace OrderedMap

lemma ext {m m' : OrderedMap K V} (h : m.entries = m'.entries) : m = m' := by
  cases m
  cases h
  rfl

variable (m : OrderedMap K V)

def count : Nat := m.entries.length

def indexOf (k : K) : Option Nat := m.entries.findIdx? fun e => k == e.1

def contains (k : K) : Bool := m.entries.any fun e => k == e.1

def lookup (k : K) : Option V := (m.entries.find? fun e => k == e.1).map Prod.snd

def touch [EquivBEq K] (k : K) (v : V) : OrderedMap K V :=
  if h : m.contains k then m else
    { entries := m.entries ++ [(k, v)]
      distinct := by
        refine pairwise_append.mpr ⟨m.distinct, pairwise_singleton .., ?_⟩
        intro a mem b last
        obtain rfl := mem_singleton.mp last
        cases e : a.1 == k with
        | false => rfl
        | true =>
          have same : (k == a.1) = true := BEq.symm e
          exact absurd (List.any_eq_true.mpr ⟨a, mem, same⟩) h }

def set [EquivBEq K] (k : K) (v : V) : OrderedMap K V where
  entries := (m.touch k v).entries.map fun e => if k == e.1 then (e.1, v) else e
  distinct := by
    refine pairwise_map.mpr ((m.touch k v).distinct.imp ?_)
    intro a b ne
    split <;> split <;> exact ne

def erase (k : K) : OrderedMap K V where
  entries := m.entries.filter fun e => !(k == e.1)
  distinct := m.distinct.filter _

def eraseAt (i : Nat) : OrderedMap K V where
  entries := m.entries.eraseIdx i
  distinct := m.distinct.sublist (eraseIdx_sublist ..)

lemma contains_iff {m : OrderedMap K V} {k : K} :
    m.contains k = true ↔ ∃ e ∈ m.entries, (k == e.1) = true := List.any_eq_true

lemma contains_eq_isSome (k : K) : m.contains k = (m.indexOf k).isSome := by
  rw [contains, indexOf, findIdx?_isSome]

lemma contains_eq_lookup (k : K) : m.contains k = (m.lookup k).isSome := by
  rw [lookup, isSome_map, Bool.eq_iff_iff, find?_isSome, contains_iff]

lemma lookup_eq (k : K) : m.lookup k = (m.indexOf k).bind fun i => m.entries[i]?.map Prod.snd := by
  rw [lookup, indexOf, find?_eq_bind_findIdx?_getElem?, Option.map_bind]
  rfl

section

variable {α : Type} {p : α → Bool} {l : List α} {i : Nat}

lemma map_ite_eq_modify (f : α → α) (one : l.Pairwise fun a b => ¬ (p a = true ∧ p b = true))
    (found : l.findIdx? p = some i) : (l.map fun a => if p a then f a else a) = l.modify i f := by
  induction l generalizing i with
  | nil => cases found
  | cons a l ih =>
    obtain ⟨others, one⟩ := pairwise_cons.mp one
    rw [findIdx?_cons] at found
    cases h : p a with
    | true =>
      rw [h] at found
      cases found
      have rest : (l.map fun a => if p a then f a else a) = l.map id := by
        apply map_congr_left
        intro b mem
        exact if_neg fun hb => others b mem ⟨h, hb⟩
      rw [map_cons, rest, List.map_id, h, if_pos rfl, modify_zero_cons]
    | false =>
      rw [h, if_neg Bool.false_ne_true] at found
      obtain ⟨j, later, rfl⟩ := map_eq_some_iff.mp found
      rw [map_cons, ih one later, h, modify_succ_cons]
      rfl

lemma filter_not_eq_eraseIdx (one : l.Pairwise fun a b => ¬ (p a = true ∧ p b = true))
    (found : l.findIdx? p = some i) : (l.filter fun a => !p a) = l.eraseIdx i := by
  induction l generalizing i with
  | nil => cases found
  | cons a l ih =>
    obtain ⟨others, one⟩ := pairwise_cons.mp one
    rw [findIdx?_cons] at found
    cases h : p a with
    | true =>
      rw [h] at found
      cases found
      rw [filter_cons_of_neg (by simp [h]), eraseIdx_cons_zero, filter_eq_self]
      intro b mem
      cases hb : p b with
      | false => rfl
      | true => exact absurd ⟨h, hb⟩ (others b mem)
    | false =>
      rw [h, if_neg Bool.false_ne_true] at found
      obtain ⟨j, later, rfl⟩ := map_eq_some_iff.mp found
      rw [filter_cons_of_pos (by simp [h]), ih one later, eraseIdx_cons_succ]

end

lemma erase_of_none {m : OrderedMap K V} {k : K} (h : m.indexOf k = none) : (m.erase k).entries = m.entries := by
  rw [erase, filter_eq_self]
  intro e mem
  rw [findIdx?_eq_none_iff.mp h e mem, Bool.not_false]

variable [EquivBEq K]

lemma pairwise_not_both (k : K) :
    m.entries.Pairwise fun a b => ¬ ((k == a.1) = true ∧ (k == b.1) = true) := by
  refine m.distinct.imp ?_
  rintro a b ne ⟨ha, hb⟩
  rw [BEq.trans (BEq.symm ha) hb] at ne
  cases ne

lemma indexOf_of_getElem? {m : OrderedMap K V} {i : Nat} {e : K × V} (h : m.entries[i]? = some e) :
    m.indexOf e.1 = some i := by
  obtain ⟨lt, rfl⟩ := List.getElem?_eq_some_iff.mp h
  refine findIdx?_eq_some_iff_getElem.mpr ⟨lt, BEq.rfl, ?_⟩
  intro j less
  have ne := pairwise_iff_getElem.mp m.distinct j i (by omega) lt less
  rw [Bool.not_eq_true, BEq.comm, ne]

lemma touch_entries_of_none {m : OrderedMap K V} {k : K} {v : V} (h : m.indexOf k = none) :
    (m.touch k v).entries = m.entries ++ [(k, v)] := by
  have absent : m.contains k = false := by rw [contains_eq_isSome, h, isSome_none]
  rw [touch, dif_neg (by simp [absent])]

lemma touch_of_some {m : OrderedMap K V} {k : K} {i : Nat} {v : V} (h : m.indexOf k = some i) : m.touch k v = m := by
  rw [touch, dif_pos (by rw [contains_eq_isSome, h, isSome_some])]

lemma set_entries (k : K) (v : V) :
    (m.set k v).entries = (m.touch k v).entries.map fun e => if k == e.1 then (e.1, v) else e := rfl

lemma set_entries_of_none {m : OrderedMap K V} {k : K} {v : V} (h : m.indexOf k = none) :
    (m.set k v).entries = m.entries ++ [(k, v)] := by
  have old : (m.entries.map fun e => if k == e.1 then (e.1, v) else e) = m.entries.map id := by
    apply map_congr_left
    intro e mem
    exact if_neg (by simp [findIdx?_eq_none_iff.mp h e mem])
  rw [set_entries, touch_entries_of_none h, map_append, old, List.map_id, map_singleton, if_pos BEq.rfl]

lemma set_entries_of_some {m : OrderedMap K V} {k : K} {i : Nat} {v : V} (h : m.indexOf k = some i) :
    (m.set k v).entries = m.entries.modify i fun e => (e.1, v) := by
  rw [set_entries, touch_of_some h]
  exact map_ite_eq_modify (fun e => (e.1, v)) (m.pairwise_not_both k) h

lemma indexOf_touch {m : OrderedMap K V} {k : K} {v : V} :
    (m.touch k v).indexOf k = some ((m.indexOf k).getD m.count) := by
  cases h : m.indexOf k with
  | some i => rw [touch_of_some h, h, getD_some]
  | none =>
    have last : (m.touch k v).entries[m.count]? = some (k, v) := by
      rw [touch_entries_of_none h, count, getElem?_concat_length]
    rw [indexOf_of_getElem? last, getD_none]

lemma set_touch (k : K) (v w : V) : (m.touch k w).set k v = m.set k v := by
  have same : ((m.touch k w).set k v).entries = (m.set k v).entries := by
    cases h : m.indexOf k with
    | some i => rw [touch_of_some h]
    | none =>
      rw [set_entries, touch_of_some indexOf_touch, set_entries, touch_entries_of_none h,
        touch_entries_of_none h, map_append, map_append, map_singleton, map_singleton, if_pos BEq.rfl, if_pos BEq.rfl]
  exact ext same

lemma erase_of_some {m : OrderedMap K V} {k : K} {i : Nat} (h : m.indexOf k = some i) :
    (m.erase k).entries = m.entries.eraseIdx i := filter_not_eq_eraseIdx (m.pairwise_not_both k) h

/-! ### Many assignments -/

lemma count_touch (k : K) (v : V) : (m.touch k v).count = if m.contains k then m.count else m.count + 1 := by
  rw [touch]
  split
  · rfl
  · exact List.length_append

lemma count_set (k : K) (v : V) : (m.set k v).count = if m.contains k then m.count else m.count + 1 := by
  rw [← count_touch m k v, count, set_entries, List.length_map, count]

lemma set_lookup (k : K) (nil : V) : m.set k ((m.lookup k).getD nil) = m.touch k nil := by
  apply ext
  cases found : m.indexOf k with
  | none => rw [set_entries_of_none found, touch_entries_of_none found, lookup_eq, found]; rfl
  | some i =>
    rw [set_entries_of_some found, touch_of_some found, lookup_eq, found, bind_some]
    cases h : m.entries[i]? with
    | none => exact modify_eq_self (List.getElem?_eq_none_iff.mp h)
    | some e =>
      apply ext_getElem?
      intro j
      rw [getElem?_modify]
      by_cases same : i = j
      · simp [← same, h]
      · simp [same]

def setAll (es : List (K × V)) : OrderedMap K V := es.foldl (fun m e => m.set e.1 e.2) m

lemma setAll_concat (es : List (K × V)) (e : K × V) : m.setAll (es ++ [e]) = (m.setAll es).set e.1 e.2 := by
  rw [setAll, foldl_concat]
  rfl

lemma lookup_of_mem {m : OrderedMap K V} {e : K × V} (mem : e ∈ m.entries) : m.lookup e.1 = some e.2 := by
  obtain ⟨i, h⟩ := getElem?_of_mem mem
  rw [lookup_eq, indexOf_of_getElem? h, bind_some, h, map_some]

lemma setAll_of_subset {m : OrderedMap K V} {es : List (K × V)} (sub : ∀ e ∈ es, e ∈ m.entries) :
    m.setAll es = m := by
  induction es with
  | nil => rfl
  | cons e es ih =>
    have mem := sub e mem_cons_self
    have same : m.set e.1 e.2 = m := by
      have there : m.contains e.1 = true := contains_iff.mpr ⟨e, mem, BEq.rfl⟩
      have again := set_lookup m e.1 e.2
      rw [lookup_of_mem mem, getD_some] at again
      rw [again, touch, dif_pos there]
    show (m.set e.1 e.2).setAll es = m
    rw [same]
    exact ih fun e' mem' => sub e' (mem_cons_of_mem _ mem')

lemma setAll_empty : setAll {} m.entries = m := by
  have front : ∀ es : List (K × V), es <+: m.entries → (setAll {} es : OrderedMap K V).entries = es := by
    intro es
    induction es using reverseRecOn with
    | nil => exact fun _ => rfl
    | append_singleton es e ih =>
      intro pre
      have start := ih ((prefix_append es [e]).trans pre)
      have distinct := pairwise_append.mp (m.distinct.sublist pre.sublist)
      have absent : (setAll {} es).indexOf e.1 = none := by
        rw [indexOf, start, findIdx?_eq_none_iff]
        intro e' mem
        rw [BEq.comm]
        exact distinct.2.2 e' mem e mem_cons_self
      rw [setAll_concat, set_entries_of_none absent, start]
  exact ext (front m.entries prefix_rfl)

/-! ### Maps with other keys -/

section

variable {L : Type} [BEq L] [EquivBEq L] {R : K → L → Prop} {m : OrderedMap K V} {n : OrderedMap L V}
  {k : K} {l : L}

omit [EquivBEq K] [EquivBEq L]

/-- The same values in the same order, under keys that `R` relates. -/
def Related (R : K → L → Prop) (m : OrderedMap K V) (n : OrderedMap L V) : Prop :=
  List.Forall₂ (fun a b => R a.1 b.1 ∧ a.2 = b.2) m.entries n.entries

/-- `k` is found among keys of the one map where `l` is found among those of the other. -/
def Found (R : K → L → Prop) (k : K) (l : L) : Prop := ∀ a b, R a b → (k == a) = (l == b)

namespace Related

section
variable (h : Related R m n)
include h

lemma count : m.count = n.count := List.Forall₂.length_eq h

lemma getElem? {i : Nat} {f : L × V} (there : n.entries[i]? = some f) :
    ∃ a, m.entries[i]? = some (a, f.2) ∧ R a f.1 := by
  obtain ⟨lt, rfl⟩ := List.getElem?_eq_some_iff.mp there
  have lt' : i < m.entries.length := (List.Forall₂.length_eq h).symm ▸ lt
  have rel := List.Forall₂.get h lt' lt
  exact ⟨_, (getElem?_eq_getElem lt').trans (congrArg some (Prod.ext rfl rel.2)), rel.1⟩

lemma mono {R' : K → L → Prop} (imp : ∀ a b, R a b → R' a b) : Related R' m n :=
  List.Forall₂.imp (fun a b rel => ⟨imp a.1 b.1 rel.1, rel.2⟩) h

lemma lookup (found : Found R k l) : m.lookup k = n.lookup l := by
  have all : ∀ {es : List (K × V)} {fs : List (L × V)},
      List.Forall₂ (fun a b => R a.1 b.1 ∧ a.2 = b.2) es fs →
        (es.find? fun e => k == e.1).map Prod.snd = (fs.find? fun f => l == f.1).map Prod.snd := by
    intro es fs h
    induction h with
    | nil => rfl
    | @cons a b es fs rel _ ih =>
      rw [find?_cons, find?_cons, found _ _ rel.1]
      cases l == b.1 with
      | true => exact congrArg some rel.2
      | false => exact ih
  exact all h

lemma contains (found : Found R k l) : m.contains k = n.contains l := by
  rw [contains_eq_lookup, contains_eq_lookup, h.lookup found]

lemma erase (found : Found R k l) : Related R (m.erase k) (n.erase l) :=
  rel_filter (fun a b rel => by simp only [found _ _ rel.1]) h

variable [EquivBEq K] [EquivBEq L]

lemma touch (found : Found R k l) (rel : R k l) (v : V) : Related R (m.touch k v) (n.touch l v) := by
  have same := h.contains found
  rw [OrderedMap.touch, OrderedMap.touch]
  by_cases there : n.contains l = true
  · rw [dif_pos (same.trans there), dif_pos there]
    exact h
  · rw [dif_neg (same ▸ there), dif_neg there]
    exact rel_append h (.cons ⟨rel, rfl⟩ .nil)

lemma set (found : Found R k l) (rel : R k l) (v : V) : Related R (m.set k v) (n.set l v) := by
  refine rel_map (fun a b rel => ?_) (h.touch found rel v)
  rw [found _ _ rel.1]
  cases l == b.1 with
  | true => exact ⟨rel.1, rfl⟩
  | false => exact rel

end

end Related

end

end OrderedMap

end Sming.Lib
