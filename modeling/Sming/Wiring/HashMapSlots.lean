import Mathlib.Data.Nat.Basic
import Sming.Lib.OrderedMap
import Sming.Lib.Run
import Sming.Wiring.WHashMap

/-!
# The slots of the hash map

Embedding of the class of `Sming/Wiring/WHashMap.h` with its storage: two arrays of pointers, allocated, copied and
freed together, so that a slot here is the key and the value behind the pointers of one index. The first `currentIndex`
slots are the entries, those up to `size` are kept for later. Both counters have 16 bits while `allocate` takes an
`unsigned int`.

`none` is a read or write outside of the arrays, and the creation of the 65536th entry, after which `currentIndex` has
wrapped and the reference the operator returns is `*values[-1]`.

The specification is `Sming.Lib.OrderedMap` with a null value; `Holds` relates the slots to it.
-/

namespace Sming.Wiring.HashMap

open Sming.Lib List Option OrderedMap

variable {K V : Type}

structure Slots (K V : Type) where
  /-- The objects behind `keys[i]` and `values[i]`. -/
  slots : List (K × V) := []
  nil : V
  currentIndex : Nat := 0
  size : Nat := 0
  /-- The arrays have at least `size` slots. -/
  fits : size ≤ slots.length := by exact Nat.zero_le _

namespace Slots

variable (s : Slots K V)

def count : Nat := s.currentIndex

def keyAt (idx : Nat) : Option K :=
  if idx < s.count then s.slots[idx]?.map Prod.fst else none

def valueAt (idx : Nat) : Option V :=
  if idx < s.count then s.slots[idx]?.map Prod.snd else none

/-- The loop of `indexOf` over the first `n` slots. -/
def search [BEq K] (key : K) : List (K × V) → Nat → Option (Option Nat)
  | _, 0 => some none
  | [], _ + 1 => none
  | slot :: slots, n + 1 =>
    if key == slot.1 then some (some 0)
    else (search key slots n).map fun found => found.map (· + 1)

/-- The index of a key; `some none` is the answer -1. -/
def indexOf [BEq K] (key : K) : Option (Option Nat) := search key s.slots s.currentIndex

def contains [BEq K] (key : K) : Option Bool := (s.indexOf key).map isSome

/-- (C++ `operator[]` of a `const` map.) -/
def lookup [BEq K] (key : K) : Option V :=
  (s.indexOf key).bind fun
    | some i => s.valueAt i
    | none => some s.nil

def allocate [Inhabited K] [Inhabited V] (newSize : Nat) : Slots K V :=
  if newSize ≤ s.size then s else
    { s with
      slots := s.slots.take s.size ++ List.replicate (newSize - s.size) default
      -- `size` has 16 bits, `newSize` has not
      size := newSize % 2 ^ 16
      fits := by
        have := s.fits
        have := Nat.mod_le newSize (2 ^ 16)
        simp only [List.length_append, length_take, List.length_replicate]
        omega }

/-- The arrays get one more slot when all of them are entries. -/
def grow [Inhabited K] [Inhabited V] : Slots K V :=
  if s.currentIndex ≥ s.size then s.allocate (s.currentIndex + 1) else s

/-- The slot behind the entries becomes an entry with the null value. -/
def append (key : K) : Slots K V :=
  { s with
    slots := s.slots.set s.currentIndex (key, s.nil)
    currentIndex := (s.currentIndex + 1) % 2 ^ 16
    fits := by rw [length_set]; exact s.fits }

/-- The index of the value that the reference is to, and the map after the call (C++ `operator[]`). -/
def index [BEq K] [Inhabited K] [Inhabited V] (key : K) : Option (Nat × Slots K V) :=
  (s.indexOf key).bind fun
    | some i => some (i, s)
    | none =>
      let t := s.grow.append key
      -- the reference is to `*values[currentIndex - 1]`
      if t.currentIndex = 0 then none else some (t.currentIndex - 1, t)

def assign (i : Nat) (v : V) : Slots K V :=
  { s with
    slots := s.slots.modify i fun slot => (slot.1, v)
    fits := by rw [length_modify]; exact s.fits }

/-- `map[key] = v`. -/
def set [BEq K] [Inhabited K] [Inhabited V] (key : K) (v : V) :
    Option (Slots K V) := (s.index key).map fun r => r.2.assign r.1 v

/-- `n` turns of the loop of `removeAt`, the first one for the slot `i`. -/
def shift (slots : List (K × V)) (i : Nat) : Nat → List (K × V)
  | 0 => slots
  | n + 1 =>
    shift (match slots[i]? with
      | some slot => slots.set (i - 1) slot
      | none => slots) (i + 1) n

@[simp] lemma length_shift (slots : List (K × V)) (i n : Nat) : (shift slots i n).length = slots.length := by
  induction n generalizing slots i with
  | zero => rfl
  | succ n ih =>
    rw [shift, ih]
    split
    · rw [length_set]
    · rfl

def removeAt (index : Nat) : Slots K V :=
  if index ≥ s.currentIndex then s else
    { s with
      slots := shift s.slots (index + 1) (s.size - (index + 1))
      currentIndex := s.currentIndex - 1
      fits := by rw [length_shift]; exact s.fits }

def remove [BEq K] (key : K) : Option (Slots K V) :=
  (s.indexOf key).map fun
    | some i => s.removeAt i
    | none => s

def clear : Slots K V := { nil := s.nil }

/-- One turn of the loop of `setMultiple`: entry `i` of `map` is assigned. -/
def setFrom [BEq K] [Inhabited K] [Inhabited V] (map s : Slots K V) (i : Nat) : Option (Slots K V) :=
  (map.keyAt i).bind fun key => (map.valueAt i).bind fun v => s.set key v

/-- `setMultiple` of another map. -/
def setMultiple [BEq K] [Inhabited K] [Inhabited V] (s map : Slots K V) : Option (Slots K V) :=
  (range map.count).foldlM (setFrom map) s

/-- `setMultiple` of the map itself, which it reads while it is written. -/
def setMultipleSelf [BEq K] [Inhabited K] [Inhabited V] : Option (Slots K V) :=
  (range s.count).foldlM (fun s i => setFrom s s i) s

def setNullValue (nullv : V) : Slots K V := { s with nil := nullv }

end Slots

/-- The calls that are not `const`. -/
inductive Call (K V : Type) where
  | index (key : K)
  | set (key : K) (v : V)
  | remove (key : K)
  | removeAt (index : Nat)
  | setMultiple (map : Slots K V)
  | setMultipleSelf
  | allocate (newSize : Nat)
  | clear
  | setNullValue (nullv : V)

variable [BEq K] [Inhabited K] [Inhabited V]

def Slots.step (s : Slots K V) : Call K V → Option (Slots K V)
  | .index key => (s.index key).map Prod.snd
  | .set key v => s.set key v
  | .remove key => s.remove key
  | .removeAt index => some (s.removeAt index)
  | .setMultiple map => s.setMultiple map
  | .setMultipleSelf => s.setMultipleSelf
  | .allocate newSize => some (s.allocate newSize)
  | .clear => some s.clear
  | .setNullValue nullv => some (s.setNullValue nullv)

/-! ## The specification -/

structure Spec (K V : Type) [BEq K] where
  map : OrderedMap K V := {}
  nil : V

namespace Spec

variable [EquivBEq K]

/-- The key is there or there is room for one more entry. -/
def room (m : Spec K V) (key : K) : Prop := m.map.contains key = true ∨ m.map.count + 1 < 2 ^ 16

instance (m : Spec K V) (key : K) : Decidable (m.room key) := inferInstanceAs (Decidable (_ ∨ _))

def index (m : Spec K V) (key : K) : Option (Spec K V) :=
  if m.room key then some { m with map := m.map.touch key m.nil } else none

def set (m : Spec K V) (key : K) (v : V) : Option (Spec K V) :=
  if m.room key then some { m with map := m.map.set key v } else none

def lookup (m : Spec K V) (key : K) : V := (m.map.lookup key).getD m.nil

end Spec

def Slots.entries (s : Slots K V) : Option (List (K × V)) :=
  (range s.count).mapM fun i => (s.keyAt i).bind fun key => (s.valueAt i).map fun v => (key, v)

/-- The calls on the specification; `none` is the creation of the 65536th entry. -/
def Spec.step [EquivBEq K] (m : Spec K V) : Call K V → Option (Spec K V)
  | .index key => m.index key
  | .set key v => m.set key v
  | .remove key => some { m with map := m.map.erase key }
  | .removeAt index => some { m with map := m.map.eraseAt index }
  | .setMultiple map => map.entries.bind fun es => es.foldlM (fun m e => m.set e.1 e.2) m
  | .setMultipleSelf => some m
  | .allocate _ => some m
  | .clear => some { m with map := {} }
  | .setNullValue nullv => some { m with nil := nullv }

/-- The `const` calls, and the value behind the reference of `operator[]`, answer what the
specification says. -/
structure Slots.Shows [EquivBEq K] (s : Slots K V) (m : Spec K V) : Prop where
  count : s.count = m.map.count
  keyAt : ∀ idx, s.keyAt idx = m.map.entries[idx]?.map Prod.fst
  valueAt : ∀ idx, s.valueAt idx = m.map.entries[idx]?.map Prod.snd
  indexOf : ∀ key, s.indexOf key = some (m.map.indexOf key)
  contains : ∀ key, s.contains key = some (m.map.contains key)
  lookup : ∀ key, s.lookup key = some (m.lookup key)
  index : ∀ key, m.room key → (s.index key).bind (fun r => r.2.valueAt r.1) = some (m.lookup key)

/-! ## Every call keeps the entries -/

/-- The entries of the specification are the first slots. -/
structure Slots.Lists (s : Slots K V) (m : Spec K V) : Prop where
  nil : s.nil = m.nil
  entries : s.slots.take s.currentIndex = m.map.entries
  le_length : s.currentIndex ≤ s.slots.length

/-- They are, and `size` is no less than their number. -/
structure Slots.Holds (s : Slots K V) (m : Spec K V) : Prop extends s.Lists m where
  within : s.currentIndex ≤ s.size
  small : s.size < 2 ^ 16

namespace Slots

variable {s : Slots K V} {m m' : Spec K V} {key : K}

omit [Inhabited K] [Inhabited V] in
lemma search_eq {slots : List (K × V)} {n : Nat} (h : n ≤ slots.length) :
    search key slots n = some ((slots.take n).findIdx? fun e => key == e.1) := by
  induction n generalizing slots with
  | zero =>
    cases slots with
    | nil => rfl
    | cons => rfl
  | succ n ih =>
    cases slots with
    | nil => cases h
    | cons slot slots =>
      rw [search, take_succ_cons, findIdx?_cons]
      split
      · rfl
      · rw [ih (Nat.le_of_succ_le_succ h), map_some]

namespace Lists

omit [Inhabited K] [Inhabited V]

lemma count (h : s.Lists m) : s.currentIndex = m.map.count := by
  rw [OrderedMap.count, ← h.entries, length_take, Nat.min_eq_left h.le_length]

lemma getElem? (h : s.Lists m) (idx : Nat) : m.map.entries[idx]? = if idx < s.count then s.slots[idx]? else none := by
  rw [← h.entries, getElem?_take]
  rfl

lemma indexOf (h : s.Lists m) (key : K) : s.indexOf key = some (m.map.indexOf key) := by
  rw [Slots.indexOf, search_eq h.le_length, h.entries]
  rfl

lemma keyAt (h : s.Lists m) (idx : Nat) : s.keyAt idx = m.map.entries[idx]?.map Prod.fst := by
  rw [Slots.keyAt, h.getElem?]
  split <;> rfl

lemma valueAt (h : s.Lists m) (idx : Nat) : s.valueAt idx = m.map.entries[idx]?.map Prod.snd := by
  rw [Slots.valueAt, h.getElem?]
  split <;> rfl

end Lists

lemma Holds.lists_allocate (h : s.Holds m) (newSize : Nat) : (s.allocate newSize).Lists m := by
  rw [Slots.allocate]
  split
  case isTrue => exact h.toLists
  case isFalse more =>
    have fits := s.fits
    have within := h.within
    refine ⟨h.nil, ?_, ?_⟩
    · have cover : s.currentIndex ≤ (s.slots.take s.size).length := by
        rwa [length_take, Nat.min_eq_left fits]
      rw [take_append_of_le_length cover, take_take, Nat.min_eq_left within, h.entries]
    · simp only [List.length_append, length_take, List.length_replicate]
      omega

lemma Holds.allocate (h : s.Holds m) {newSize : Nat}
    (kept : newSize ≤ s.size ∨ s.currentIndex ≤ newSize % 2 ^ 16) : (s.allocate newSize).Holds m := by
  refine ⟨h.lists_allocate newSize, ?_, ?_⟩
  · rw [Slots.allocate]
    split
    case isTrue => exact h.within
    case isFalse more => exact kept.resolve_left more
  · rw [Slots.allocate]
    split
    case isTrue => exact h.small
    case isFalse => exact Nat.mod_lt _ (by decide)

omit [BEq K] in
lemma grow_currentIndex (s : Slots K V) : s.grow.currentIndex = s.currentIndex := by
  rw [grow, Slots.allocate]
  split
  · split <;> rfl
  · rfl

lemma Holds.grow (h : s.Holds m) (room : s.currentIndex + 1 < 2 ^ 16) :
    s.grow.Holds m ∧ s.grow.currentIndex < s.grow.size := by
  rw [grow_currentIndex, Slots.grow]
  split
  case isTrue =>
    refine ⟨h.allocate (.inr (by omega)), ?_⟩
    rw [Slots.allocate]
    split
    · omega
    · show s.currentIndex < (s.currentIndex + 1) % 2 ^ 16
      omega
  case isFalse => exact ⟨h, by omega⟩

omit [Inhabited K] [Inhabited V] in
lemma Holds.append [EquivBEq K] (h : s.Holds m) (free : s.currentIndex < s.size)
    (room : s.currentIndex + 1 < 2 ^ 16) (absent : m.map.indexOf key = none) :
    (s.append key).Holds { m with map := m.map.touch key m.nil } := by
  have next : (s.append key).currentIndex = s.currentIndex + 1 := Nat.mod_eq_of_lt room
  have inside : s.currentIndex < s.slots.length := Nat.lt_of_lt_of_le free s.fits
  refine ⟨⟨h.nil, ?_, ?_⟩, ?_, h.small⟩
  · rw [next, touch_entries_of_none absent, ← h.entries, ← h.nil]
    simp only [Slots.append]
    rw [take_add_one, take_set_of_le (Nat.le_refl _), getElem?_set_self inside, toList_some]
  · rw [next, Slots.append, length_set]
    exact inside
  · rw [next]
    exact free

variable [EquivBEq K]

lemma Holds.index (h : s.Holds m) (room : m.room key) :
    ∃ t, s.index key = some ((m.map.indexOf key).getD m.map.count, t) ∧
      t.Holds { m with map := m.map.touch key m.nil } := by
  rw [Slots.index, h.indexOf]
  cases found : m.map.indexOf key with
  | some i => exact ⟨s, rfl, by rwa [touch_of_some found]⟩
  | none =>
    have less : s.currentIndex + 1 < 2 ^ 16 := by
      rw [h.count]
      refine room.resolve_left ?_
      rw [contains_eq_isSome, found]
      decide
    obtain ⟨hg, free⟩ := h.grow less
    have same := s.grow_currentIndex
    have next : (s.grow.append key).currentIndex = s.currentIndex + 1 := by
      rw [← same] at less ⊢
      exact Nat.mod_eq_of_lt less
    refine ⟨s.grow.append key, ?_, hg.append free (same ▸ less) found⟩
    simp only [bind_some]
    rw [next, if_neg (Nat.succ_ne_zero _), h.count]
    rfl

omit [Inhabited K] [Inhabited V] in
lemma Lists.assign (h : s.Lists m) {i : Nat} (found : m.map.indexOf key = some i) (v : V) :
    (s.assign i v).Lists { m with map := m.map.set key v } := by
  refine ⟨h.nil, ?_, ?_⟩
  · simp only [Slots.assign]
    rw [set_entries_of_some found, ← h.entries, take_modify]
  · rw [Slots.assign, length_modify]
    exact h.le_length

lemma Holds.set (h : s.Holds m) (room : m.room key) (v : V) :
    ∃ t, s.set key v = some t ∧ t.Holds { m with map := m.map.set key v } := by
  obtain ⟨t, e, ht⟩ := h.index room
  refine ⟨_, by rw [Slots.set, e, map_some], ?_⟩
  rw [← set_touch m.map key v m.nil]
  exact ⟨ht.toLists.assign indexOf_touch v, ht.within, ht.small⟩

omit [EquivBEq K] [BEq K] [Inhabited K] [Inhabited V] in
lemma getElem?_shift {slots : List (K × V)} {i n : Nat} (h : i + n < slots.length) (j : Nat) :
    (shift slots (i + 1) n)[j]? = if i ≤ j ∧ j < i + n then slots[j + 1]? else slots[j]? := by
  induction n generalizing slots i with
  | zero => rw [shift, if_neg (by omega)]
  | succ n ih =>
    have inside : i + 1 < slots.length := by omega
    rw [shift, getElem?_eq_getElem inside]
    simp only [Nat.add_sub_cancel]
    rw [ih (by rw [length_set]; omega)]
    rcases Nat.lt_trichotomy j i with lt | rfl | gt
    · rw [if_neg (by omega), if_neg (by omega), getElem?_set_ne (by omega)]
    · rw [if_neg (by omega), if_pos (by omega), getElem?_set_self (by omega), getElem?_eq_getElem inside]
    · rw [getElem?_set_ne (by omega), getElem?_set_ne (by omega)]
      exact if_congr (by omega) rfl rfl

omit [EquivBEq K] [Inhabited K] [Inhabited V] in
lemma Holds.removeAt (h : s.Holds m) (index : Nat) :
    (s.removeAt index).Holds { m with map := m.map.eraseAt index } := by
  rw [Slots.removeAt]
  split
  case isTrue outside =>
    have same : m.map.eraseAt index = m.map := by
      apply OrderedMap.ext
      apply eraseIdx_of_length_le
      exact Nat.le_trans (Nat.le_of_eq h.count.symm) outside
    rwa [same]
  case isFalse inside =>
    have fits := s.fits
    have within := h.within
    have lower : s.currentIndex - 1 ≤ s.size := Nat.le_trans (Nat.sub_le _ _) within
    refine ⟨⟨h.nil, ?_, by rw [length_shift]; exact Nat.le_trans lower fits⟩, lower, h.small⟩
    apply ext_getElem?
    intro j
    simp only [eraseAt]
    rw [getElem?_take, getElem?_shift (by omega), getElem?_eraseIdx, h.getElem?, h.getElem?, Slots.count]
    rcases Nat.lt_or_ge j index with before | behind
    · rw [if_pos (by omega), if_neg (by omega), if_pos before, if_pos (by omega)]
    · rw [if_neg (Nat.not_lt.mpr behind)]
      rcases Nat.lt_or_ge j (s.currentIndex - 1) with low | high
      · rw [if_pos low, if_pos (by omega), if_pos (by omega)]
      · rw [if_neg (by omega), if_neg (by omega)]

omit [Inhabited K] [Inhabited V] in
lemma Holds.remove (h : s.Holds m) (key : K) :
    ∃ t, s.remove key = some t ∧ t.Holds { m with map := m.map.erase key } := by
  rw [Slots.remove, h.indexOf]
  cases found : m.map.indexOf key with
  | some i =>
    refine ⟨s.removeAt i, rfl, ?_⟩
    rw [show m.map.erase key = m.map.eraseAt i from OrderedMap.ext (erase_of_some found)]
    exact h.removeAt i
  | none =>
    refine ⟨s, rfl, ?_⟩
    rwa [show m.map.erase key = m.map from OrderedMap.ext (erase_of_none found)]

section

variable {σ α β : Type} {f : σ → α → Option σ} {l : List α}

omit [BEq K] [EquivBEq K] [Inhabited K] [Inhabited V]

lemma foldlM_invariant {Inv : σ → Prop} {s : σ} (init : Inv s)
    (turn : ∀ s, Inv s → ∀ a ∈ l, ∃ t, f s a = some t ∧ Inv t) : ∃ t, l.foldlM f s = some t ∧ Inv t := by
  induction l generalizing s with
  | nil => exact ⟨s, rfl, init⟩
  | cons a l ih =>
    obtain ⟨t, e, ht⟩ := turn s init a mem_cons_self
    obtain ⟨u, eu, hu⟩ := ih ht fun s hs b mem => turn s hs b (mem_cons_of_mem a mem)
    refine ⟨u, ?_, hu⟩
    rw [foldlM_cons, e]
    exact eu

lemma foldlM_bind_of_mapM {read : α → Option β} {g : σ → β → Option σ} {items : List β}
    (h : l.mapM read = some items) (s : σ) : l.foldlM (fun s a => (read a).bind (g s)) s = items.foldlM g s := by
  induction l generalizing s items with
  | nil =>
    cases h
    rfl
  | cons a l ih =>
    rw [mapM_cons] at h
    obtain ⟨b, hb, h⟩ := bind_eq_some_iff.mp h
    obtain ⟨bs, hbs, h⟩ := bind_eq_some_iff.mp h
    cases h
    rw [foldlM_cons, foldlM_cons, hb, bind_some]
    exact bind_congr fun t => ih hbs t

end

lemma Holds.setAll (h : s.Holds m) {es : List (K × V)} (e : es.foldlM (fun m e => m.set e.1 e.2) m = some m') :
    ∃ t, es.foldlM (fun s e => s.set e.1 e.2) s = some t ∧ t.Holds m' := by
  induction es generalizing s m with
  | nil =>
    cases e
    exact ⟨s, rfl, h⟩
  | cons e₀ es ih =>
    rw [foldlM_cons] at e
    obtain ⟨m₁, e₁, e⟩ := bind_eq_some_iff.mp e
    rw [Spec.set] at e₁
    split at e₁
    case isTrue room =>
      cases e₁
      obtain ⟨t, et, ht⟩ := h.set room e₀.2
      rw [foldlM_cons, et]
      exact ih ht e
    case isFalse => cases e₁

lemma Holds.setMultiple (h : s.Holds m) {map : Slots K V} {es : List (K × V)}
    (read : map.entries = some es) (e : es.foldlM (fun m e => m.set e.1 e.2) m = some m') :
    ∃ t, s.setMultiple map = some t ∧ t.Holds m' := by
  obtain ⟨t, et, ht⟩ := h.setAll e
  refine ⟨t, ?_, ht⟩
  rw [← et, ← foldlM_bind_of_mapM read s, Slots.setMultiple]
  congr 1
  funext s i
  rw [setFrom, bind_assoc]
  apply Option.bind_congr
  intro key _
  rw [bind_map]
  rfl

lemma Holds.setMultipleSelf (h : s.Holds m) : ∃ t, s.setMultipleSelf = some t ∧ t.Holds m := by
  refine @foldlM_invariant _ _ _ _ (fun t => t.Holds m) s h ?_
  intro t ht i mem
  have inside : i < m.map.entries.length := by
    rw [← OrderedMap.count, ← h.count]
    exact mem_range.mp mem
  have entry := getElem?_eq_getElem inside
  have found := indexOf_of_getElem? entry
  have same : m.map.set m.map.entries[i].1 m.map.entries[i].2 = m.map := by
    apply OrderedMap.ext
    rw [set_entries_of_some found, modify_eq_set_getElem?, entry]
    exact set_getElem_self inside
  have room : m.room m.map.entries[i].1 := .inl (by rw [contains_eq_isSome, found, isSome_some])
  obtain ⟨u, eu, hu⟩ := ht.set room m.map.entries[i].2
  rw [same] at hu
  refine ⟨u, ?_, hu⟩
  rw [setFrom, ht.keyAt, ht.valueAt, entry]
  exact eu

def Kept (s : Slots K V) : Call K V → Prop
  | .allocate newSize => newSize ≤ s.size ∨ s.count ≤ newSize % 2 ^ 16
  | _ => True

lemma Holds.step (h : s.Holds m) {call : Call K V} (kept : s.Kept call)
    (e : m.step call = some m') : ∃ t, s.step call = some t ∧ t.Holds m' := by
  cases call with
  | index key =>
    rw [Spec.step, Spec.index] at e
    split at e
    case isTrue room =>
      cases e
      obtain ⟨t, et, ht⟩ := h.index room
      exact ⟨t, by rw [Slots.step, et, map_some], ht⟩
    case isFalse => cases e
  | set key v =>
    rw [Spec.step, Spec.set] at e
    split at e
    case isTrue room =>
      cases e
      exact h.set room v
    case isFalse => cases e
  | remove key =>
    cases e
    exact h.remove key
  | removeAt index =>
    cases e
    exact ⟨_, rfl, h.removeAt index⟩
  | setMultiple map =>
    obtain ⟨es, read, e⟩ := bind_eq_some_iff.mp e
    exact h.setMultiple read e
  | setMultipleSelf =>
    cases e
    exact h.setMultipleSelf
  | allocate newSize =>
    cases e
    exact ⟨_, rfl, h.allocate kept⟩
  | clear =>
    cases e
    exact ⟨_, rfl, ⟨h.nil, rfl, Nat.le_refl 0⟩, Nat.le_refl 0, Nat.two_pow_pos 16⟩
  | setNullValue nullv =>
    cases e
    exact ⟨_, rfl, ⟨rfl, h.entries, h.le_length⟩, h.within, h.small⟩

omit [Inhabited K] [Inhabited V] [EquivBEq K] in
lemma Lists.lookup (h : s.Lists m) (key : K) : s.lookup key = some (m.lookup key) := by
  rw [Slots.lookup, h.indexOf, Spec.lookup, lookup_eq, bind_some]
  cases found : m.map.indexOf key with
  | none => exact congrArg some h.nil
  | some i =>
    obtain ⟨inside, -⟩ := findIdx?_eq_some_iff_getElem.mp found
    simp only [bind_some]
    rw [h.valueAt, getElem?_eq_getElem inside]
    rfl

lemma Holds.shows (h : s.Holds m) : s.Shows m where
  count := h.count
  keyAt := h.keyAt
  valueAt := h.valueAt
  indexOf := h.indexOf
  contains key := by rw [Slots.contains, h.indexOf, contains_eq_isSome, map_some]
  lookup := h.lookup
  index key room := by
    obtain ⟨t, et, ht⟩ := h.index room
    rw [et, bind_some, ht.valueAt, Spec.lookup, lookup_eq]
    cases found : m.map.indexOf key with
    | none =>
      rw [touch_entries_of_none found, getD_none, OrderedMap.count, getElem?_concat_length]
      rfl
    | some i =>
      obtain ⟨inside, -⟩ := findIdx?_eq_some_iff_getElem.mp found
      rw [touch_of_some found, getD_some, getElem?_eq_getElem inside, bind_some, getElem?_eq_getElem inside]
      rfl

omit [EquivBEq K] in
lemma Lists.set (h : s.Lists m) {i : Nat} (found : m.map.indexOf key = some i) (v : V) :
    s.set key v = some (s.assign i v) := by
  rw [Slots.set, Slots.index, h.indexOf, found]
  rfl

omit [BEq K] [EquivBEq K] in
lemma valueAt_allocate_count (cut : s.size < s.currentIndex) :
    (s.allocate s.currentIndex).valueAt (s.currentIndex - 1) = some default := by
  have kept : (s.slots.take s.size).length = s.size := by
    rw [length_take, Nat.min_eq_left s.fits]
  have below : s.currentIndex - 1 < s.currentIndex := by omega
  rw [Slots.allocate, if_neg (Nat.not_le.mpr cut), Slots.valueAt]
  refine (if_pos below).trans ?_
  rw [getElem?_append_right (by omega), getElem?_replicate, if_pos (by omega)]
  rfl

lemma Lists.breaks (h : s.Lists m) (cut : s.size < s.currentIndex) {v : V} (ne : v ≠ default) :
    ∃ key t, m.room key ∧ s.set key v = some t ∧
      ¬ (t.allocate s.currentIndex).Shows { m with map := m.map.set key v } := by
  have inside : s.currentIndex - 1 < m.map.entries.length := by
    have count : s.currentIndex = m.map.entries.length := h.count
    omega
  have last := getElem?_eq_getElem inside
  have found := indexOf_of_getElem? last
  refine ⟨_, _, .inl ?_, h.set found v, ?_⟩
  · rw [contains_eq_isSome, found, isSome_some]
  · intro shows
    have answer := shows.valueAt (s.currentIndex - 1)
    rw [set_entries_of_some found, getElem?_modify_eq, last] at answer
    have lost : ((s.assign (s.currentIndex - 1) v).allocate s.currentIndex).valueAt
        (s.currentIndex - 1) = some default := valueAt_allocate_count cut
    rw [lost] at answer
    exact ne (Option.some.inj answer).symm

end Slots

/-! ## Whole runs -/

structure Twin (K V : Type) [BEq K] where
  map : Option (Slots K V)
  spec : Spec K V

namespace Twin

variable [EquivBEq K]

def new (nil : V) : Twin K V where
  map := some { nil }
  spec := { nil }

def step (t : Twin K V) (call : Call K V) : Option (Twin K V) :=
  (t.spec.step call).map fun spec => { map := t.map.bind (·.step call), spec }

/-- The map answers what the specification says. -/
def Agrees (t : Twin K V) : Prop := ∃ s, t.map = some s ∧ s.Shows t.spec

def Holds (t : Twin K V) : Prop := ∃ s, t.map = some s ∧ s.Holds t.spec

/-- `allocate` does not bring `size` below the number of entries. -/
def Kept (t : Twin K V) (call : Call K V) : Prop := ∀ s, t.map = some s → s.Kept call

/-- No call asks for 65536 slots or more. -/
def Plain (_ : Twin K V) : Call K V → Prop
  | .allocate newSize => newSize < 2 ^ 16
  | _ => True

omit [Inhabited K] [Inhabited V] [EquivBEq K] in
lemma holds_new (nil : V) : (new nil : Twin K V).Holds :=
  ⟨_, rfl, ⟨rfl, rfl, Nat.le_refl 0⟩, Nat.le_refl 0, Nat.two_pow_pos 16⟩

variable {t u : Twin K V} {call : Call K V}

lemma Holds.agrees (h : t.Holds) : t.Agrees := by
  obtain ⟨s, e, hs⟩ := h
  exact ⟨s, e, hs.shows⟩

lemma Holds.step (h : t.Holds) (kept : t.Kept call) (st : t.step call = some u) : u.Holds := by
  obtain ⟨s, e, hs⟩ := h
  obtain ⟨m, em, rfl⟩ := map_eq_some_iff.mp st
  obtain ⟨s', es, hs'⟩ := hs.step (kept s e) em
  exact ⟨s', by rw [e, bind_some, es], hs'⟩

omit [Inhabited K] [Inhabited V] [EquivBEq K] in
lemma Holds.kept_of_plain (h : t.Holds) (plain : t.Plain call) : t.Kept call := by
  intro s e
  obtain ⟨s', e', hs⟩ := h
  obtain rfl := Option.some.inj (e.symm.trans e')
  cases call with
  | allocate newSize =>
    have within := hs.within
    have exact' : newSize % 2 ^ 16 = newSize := Nat.mod_eq_of_lt plain
    rw [Slots.Kept, exact', Slots.count]
    omega
  | _ => trivial

lemma Holds.run {ok : Twin K V → Call K V → Prop} {calls : List (Call K V)} (h : t.Holds)
    (kept : ∀ {t call}, t.Holds → ok t call → t.Kept call) (r : Run Twin.step ok t calls u) : u.Holds :=
  r.invariant h fun ht hok st => ht.step (kept ht hok) st

lemma Holds.breaks [Nontrivial V] {newSize : Nat} (h : t.Holds) (cut : ¬ t.Kept (.allocate newSize))
    (st : t.step (.allocate newSize) = some u) : ∃ more w, Run Twin.step Plain u more w ∧ ¬ w.Agrees := by
  obtain ⟨s, e, hs⟩ := h
  have cut : s.size < newSize ∧ newSize % 2 ^ 16 < s.currentIndex := by
    rw [Kept] at cut
    simp only [e, Option.some.injEq, forall_eq', Slots.Kept, Slots.count] at cut
    omega
  have lists := hs.lists_allocate newSize
  have index : (s.allocate newSize).currentIndex = s.currentIndex := lists.count.trans hs.count.symm
  have size : (s.allocate newSize).size = newSize % 2 ^ 16 := by
    rw [Slots.allocate, if_neg (by omega)]
  obtain ⟨v, ne⟩ := exists_ne (default : V)
  obtain ⟨key, s', room, set, differs⟩ := lists.breaks (by omega) ne
  have small : s.currentIndex < 2 ^ 16 := Nat.lt_of_le_of_lt hs.within hs.small
  obtain rfl : (⟨some (s.allocate newSize), t.spec⟩ : Twin K V) = u := by
    rw [Twin.step, e] at st
    exact Option.some.inj st
  have assigned : Twin.step ⟨some (s.allocate newSize), t.spec⟩ (.set key v) =
      some ⟨some s', { t.spec with map := t.spec.map.set key v }⟩ := by
    rw [Twin.step, Spec.step, Spec.set, if_pos room, bind_some, Slots.step, set, map_some]
  refine ⟨[.set key v, .allocate s.currentIndex], ⟨some (s'.allocate s.currentIndex), _⟩,
    .cons trivial assigned (.cons small rfl .nil), ?_⟩
  rintro ⟨r, er, shows⟩
  cases er
  rw [index] at differs
  exact differs shows

/-- Calls that keep `size` keep the map what the specification says; after others, if values can differ at all, some
call shows it. -/
lemma Holds.agrees_iff_kept [Nontrivial V] (h : t.Holds) (st : t.step call = some u) :
    (∀ more w, Run Twin.step Plain u more w → w.Agrees) ↔ t.Kept call := by
  constructor
  · intro all
    by_contra cut
    cases call with
    | allocate newSize =>
      obtain ⟨more, w, r, differs⟩ := h.breaks cut st
      exact differs (all more w r)
    | _ => exact cut fun _ _ => trivial
  · intro kept more w r
    exact ((h.step kept st).run (fun ht plain => ht.kept_of_plain plain) r).agrees

end Twin

open Twin

/-- A run in which `allocate` does not cut `size` below the number of entries keeps the map what the specification
says; where values can differ, only such a run does whatever is called next. -/
theorem hashMap_refines_iff [EquivBEq K] {nil : V} {calls : List (Call K V)} {t : Twin K V}
    (r : Run Twin.step Always (new nil) calls t) :
    (Run Twin.step Kept (new nil) calls t → t.Agrees) ∧ (Nontrivial V →
      ((∀ calls' t', calls' <+: calls → Run Twin.step Always (new nil) calls' t' →
          ∀ more u, Run Twin.step Plain t' more u → u.Agrees) ↔ Run Twin.step Kept (new nil) calls t)) := by
  have start : (new nil : Twin K V).Holds := holds_new nil
  constructor
  · intro rk
    exact (start.run (fun _ kept => kept) rk).agrees
  · intro _
    apply r.forall_prefix_iff_guarded
    · intro more u ru
      exact (start.run (fun ht plain => ht.kept_of_plain plain) ru).agrees
    · intro calls t call u rk _ st
      exact (start.run (fun _ kept => kept) rk).agrees_iff_kept st

theorem hashMap_refines_iff_reused :
    ∃ t : Twin Nat Nat, Run Twin.step Kept (new 7) [.set 1 5, .remove 1, .allocate 4, .index 2] t ∧
      t.Agrees ∧ t.spec.map.entries = [(2, 7)] := by
  have kept : ∀ (t : Twin Nat Nat) (call : Call Nat Nat), (∀ n, call ≠ .allocate n) → t.Kept call := by
    intro t call other s _
    cases call with
    | allocate n => exact absurd rfl (other n)
    | _ => trivial
  have r : Run Twin.step Kept (new 7 : Twin Nat Nat) [.set 1 5, .remove 1, .allocate 4, .index 2] _ :=
    .cons (kept _ _ fun n h => (by cases h)) rfl (.cons (kept _ _ fun n h => (by cases h)) rfl
      (.cons (fun s e => .inr (by cases e; decide)) rfl (.cons (kept _ _ fun n h => (by cases h)) rfl .nil)))
  exact ⟨_, r, (hashMap_refines_iff r.always).1 r, by decide⟩

/-- One entry, a request for 65536 slots and a second entry: the value of the first one is gone. -/
theorem hashMap_allocate_loses :
    ¬ ∀ (calls : List (Call Nat Nat)) (t : Twin Nat Nat),
      Run Twin.step Always (new 0) calls t → t.Agrees := by
  intro all
  obtain ⟨s, e, shows⟩ := all [.set 1 5, .allocate 65536, .index 2] _
    (.cons trivial rfl (.cons trivial rfl (.cons trivial rfl .nil)))
  have answer := shows.valueAt 0
  cases e
  exact absurd answer (by decide)

/-! ## Keys compared for equality

The other modules use the map with keys that are compared for equality. For them the map without its slots,
`HashMap`, is what the slots represent. -/

section

variable {K V : Type} [DecidableEq K] [Inhabited K] [Inhabited V]

omit [Inhabited K] [Inhabited V] in
def toOrdered (m : HashMap K V) : OrderedMap K V where
  entries := m.entries
  distinct := by
    refine (pairwise_map.mp m.nodup).imp ?_
    intro a b ne
    exact beq_false_of_ne ne

omit [Inhabited K] [Inhabited V]

section
variable (m : HashMap K V) (k : K)

lemma toOrdered_contains : m.toOrdered.contains k = m.contains k := by
  rw [OrderedMap.contains, contains]
  simp only [toOrdered, BEq.comm]

lemma toOrdered_lookup (nil : V) : (m.toOrdered.lookup k).getD nil = m.value k nil := by
  rw [OrderedMap.lookup, value]
  simp only [toOrdered, BEq.comm]

lemma toOrdered_touch (v : V) : (m.touch k v).toOrdered = m.toOrdered.touch k v := by
  apply OrderedMap.ext
  rw [OrderedMap.touch, touch]
  split
  case isTrue h => rw [dif_pos (by rwa [toOrdered_contains])]
  case isFalse h =>
    rw [dif_neg (by rwa [toOrdered_contains])]
    rfl

lemma toOrdered_set (v : V) : (m.set k v).toOrdered = m.toOrdered.set k v := by
  apply OrderedMap.ext
  rw [set_entries, ← toOrdered_touch]
  apply map_congr_left
  intro e _
  by_cases h : e.1 = k
  · rw [if_pos h, if_pos (by rw [h, BEq.rfl]), h]
  · rw [if_neg h, if_neg]
    simpa using Ne.symm h

lemma toOrdered_remove : (m.remove k).toOrdered = m.toOrdered.erase k := by
  apply OrderedMap.ext
  have search : (m.entries.findIdx? fun e => e.1 == k) = m.toOrdered.indexOf k := by
    rw [OrderedMap.indexOf]
    simp only [toOrdered, BEq.comm]
  have removed : (m.remove k).toOrdered.entries = m.entries.eraseP fun e => e.1 == k := rfl
  rw [removed, eraseP_eq_eraseIdx, search]
  cases found : m.toOrdered.indexOf k with
  | none => exact (erase_of_none found).symm
  | some i => exact (erase_of_some found).symm

end

end

end Sming.Wiring.HashMap
