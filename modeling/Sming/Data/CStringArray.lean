import Sming.Wiring.WString

/-!
# Arrays of strings

Embedding of `Sming/SmingCore/Data/CStringArray.cpp`: strings in one buffer with a NUL between them.
The buffer is a `String`, so there is a NUL behind its last character as well. The callers of `add` hand over
whole strings, so its length argument is left out. So is the store of `count` into `stringCount`: it
matters only for an array that was made from a text and is added to later.

`pack` lays strings out in a buffer, which is what `add` keeps, and `seen` are the strings that the loops over
a buffer see.
-/

namespace Sming.Data
open Sming.Lib Sming.Wiring Sming.Wiring.WString List

structure CStringArray where
  buffer : List Char := []
  stringCount : Nat := 0
  deriving DecidableEq

namespace CStringArray

variable (a : CStringArray)

def add (str : List Char) : CStringArray where
  buffer := (if a.buffer = [] then [] else a.buffer ++ ['\x00']) ++ str
  stringCount := a.stringCount + 1

/-- The loop of `indexOf` over the characters from `offset` on; a round takes one string and its NUL. -/
def search (str : List Char) : Nat → List Char → Nat → Option Nat
  | 0, _, _ => none
  | fuel + 1, rest, index =>
    if rest = [] then none
    else if strcasecmp str rest then some index
    else search str fuel (rest.drop ((before '\x00' rest).length + 1)) (index + 1)

def indexOf (str : List Char) : Option Nat := search str a.buffer.length a.buffer 0

/-- An array that was made from a text counts its strings when it is asked first. -/
def count : Nat :=
  if a.stringCount = 0 ∧ 0 < a.buffer.length then a.buffer.count '\x00' + 1 else a.stringCount

def nth : Nat → List Char → Nat → Option (List Char)
  | 0, _, _ => none
  | fuel + 1, rest, index =>
    if rest = [] then none
    else if index = 0 then some (before '\x00' rest)
    else nth fuel (rest.drop ((before '\x00' rest).length + 1)) (index - 1)

def getValue (index : Nat) : Option (List Char) :=
  if index < a.count then nth a.buffer.length a.buffer index else none

def clear (_ : CStringArray) : CStringArray := {}

def pack : List (List Char) → List Char
  | [] => []
  | s :: strs => s ++ strs.flatMap ('\x00' :: ·)

structure Holds (a : CStringArray) (strs : List (List Char)) : Prop where
  buffer : a.buffer = pack strs
  solid : ∀ s ∈ strs, s ≠ [] ∧ '\x00' ∉ s
  counted : a.stringCount = strs.length

variable {a : CStringArray} {b str : List Char} {strs : List (List Char)}

/-- The strings the loops over a buffer see: an empty one at its end is not seen. -/
def seen : List Char → List (List Char)
  | [] => []
  | c :: cs =>
    if c = '\x00' then [] :: seen cs
    else
      match seen cs with
      | [] => [[c]]
      | s :: strs => (c :: s) :: strs

lemma seen_of_ne_nil (ne : b ≠ []) : seen b = before '\x00' b :: seen (b.drop ((before '\x00' b).length + 1)) := by
  induction b with
  | nil => exact absurd rfl ne
  | cons c cs ih =>
    rw [seen]
    by_cases nul : c = '\x00'
    · subst nul
      rw [if_pos rfl, before_cons_self]
      rfl
    · rw [if_neg nul, before_cons_of_ne nul, length_cons, drop_succ_cons]
      by_cases last : cs = []
      · subst last
        rfl
      · rw [ih last]

lemma seen_append (free : '\x00' ∉ str) (b : List Char) : seen (str ++ '\x00' :: b) = str :: seen b := by
  rw [seen_of_ne_nil (by simp), before_append_cons free, append_cons, drop_left' (by simp)]

lemma seen_of_not_mem (ne : str ≠ []) (free : '\x00' ∉ str) : seen str = [str] := by
  rw [seen_of_ne_nil ne, before_of_not_mem free, drop_of_length_le (Nat.le_succ _)]
  rfl

lemma seen_pack (free : ∀ s ∈ strs, '\x00' ∉ s) :
    seen (pack strs) = if strs.getLast? = some [] then strs.dropLast else strs := by
  induction strs with
  | nil => rfl
  | cons s strs ih =>
    rw [forall_mem_cons] at free
    cases strs with
    | nil =>
      rw [pack, flatMap_nil, append_nil]
      by_cases empty : s = []
      · subst empty
        rfl
      · rw [seen_of_not_mem empty free.1, if_neg (by simpa using empty)]
    | cons t strs =>
      have more : pack (s :: t :: strs) = s ++ '\x00' :: pack (t :: strs) := by simp [pack]
      rw [more, seen_append free.1, ih free.2, getLast?_cons_cons]
      split <;> rfl

lemma search_eq {fuel : Nat} (enough : b.length ≤ fuel) (index : Nat) :
    search str fuel b index = ((seen b).findIdx? (strcasecmp str)).map (· + index) := by
  induction fuel generalizing b index with
  | zero =>
    rw [eq_nil_of_length_eq_zero (Nat.le_zero.mp enough)]
    rfl
  | succ fuel ih =>
    rw [search]
    split
    case isTrue empty =>
      subst empty
      rfl
    case isFalse ne =>
      have compare : strcasecmp str b = strcasecmp str (before '\x00' b) := by
        rw [strcasecmp, strcasecmp, before_of_not_mem (not_mem_before _ b)]
      have pos := length_pos_iff.mpr ne
      rw [seen_of_ne_nil ne, compare, findIdx?_cons]
      cases strcasecmp str (before '\x00' b) with
      | true => rw [if_pos rfl, if_pos rfl, Option.map_some, Nat.zero_add]
      | false =>
        rw [if_neg Bool.false_ne_true, if_neg Bool.false_ne_true, ih (by rw [length_drop]; omega), Option.map_map]
        congr 1
        funext i
        simp only [Function.comp_apply]
        omega

lemma nth_eq {fuel : Nat} (enough : b.length ≤ fuel) (index : Nat) : nth fuel b index = (seen b)[index]? := by
  induction fuel generalizing b index with
  | zero =>
    rw [eq_nil_of_length_eq_zero (Nat.le_zero.mp enough)]
    rfl
  | succ fuel ih =>
    rw [nth]
    split
    case isTrue empty =>
      subst empty
      rfl
    case isFalse ne =>
      have pos := length_pos_iff.mpr ne
      rw [seen_of_ne_nil ne]
      cases index with
      | zero => rfl
      | succ index => exact ih (by rw [length_drop]; omega) index

lemma indexOf_eq (a : CStringArray) (str : List Char) : a.indexOf str = (seen a.buffer).findIdx? (strcasecmp str) := by
  rw [indexOf, search_eq (Nat.le_refl _)]
  exact Option.map_id' ..

lemma getValue_eq (a : CStringArray) (index : Nat) :
    a.getValue index = if index < a.count then (seen a.buffer)[index]? else none := by
  rw [getValue, nth_eq (Nat.le_refl _)]

def Refines (a : CStringArray) (strs : List (List Char)) : Prop :=
  a.count = strs.length ∧ (∀ i, a.getValue i = strs[i]?) ∧ ∀ str, a.indexOf str = strs.findIdx? (strcasecmp str)

lemma refines_of_seen (strings : seen a.buffer = strs) (counted : a.count = strs.length) : a.Refines strs := by
  refine ⟨counted, fun i => ?_, fun str => ?_⟩
  · rw [getValue_eq, counted, strings]
    split
    case isTrue => rfl
    case isFalse outside => exact (getElem?_eq_none (Nat.le_of_not_lt outside)).symm
  · rw [indexOf_eq, strings]

namespace Holds

lemma empty : Holds {} [] := ⟨rfl, nofun, rfl⟩

lemma add (h : a.Holds strs) (ne : str ≠ []) (free : '\x00' ∉ str) : (a.add str).Holds (strs ++ [str]) where
  buffer := by
    cases strs with
    | nil => simp [CStringArray.add, h.buffer, pack]
    | cons s strs =>
      have some := (h.solid s mem_cons_self).1
      simp [CStringArray.add, h.buffer, pack, some]
  solid := forall_mem_append.mpr ⟨h.solid, forall_mem_singleton.mpr ⟨ne, free⟩⟩
  counted := by
    rw [List.length_append, ← h.counted]
    rfl

lemma count (h : a.Holds strs) : a.count = strs.length := by
  rw [CStringArray.count]
  split
  case isTrue made =>
    have none : strs = [] := eq_nil_of_length_eq_zero (h.counted ▸ made.1)
    rw [h.buffer, none] at made
    exact absurd made.2 (Nat.lt_irrefl 0)
  case isFalse => exact h.counted

lemma refines (h : a.Holds strs) : a.Refines strs := by
  refine refines_of_seen ?_ h.count
  rw [h.buffer, seen_pack fun s mem => (h.solid s mem).2, if_neg]
  exact fun last => (h.solid _ (mem_of_getLast? last)).1 rfl

lemma getValue (h : a.Holds strs) (index : Nat) : a.getValue index = strs[index]? := h.refines.2.1 index

lemma indexOf (h : a.Holds strs) (str : List Char) : a.indexOf str = strs.findIdx? (strcasecmp str) := h.refines.2.2 str

end Holds

/-! ### Any strings

The array is a list of strings, empty ones among them, that were given packed or one by one. -/

def build (packed added : List (List Char)) : CStringArray := added.foldl add { buffer := pack packed }

/-- There are strings of one kind only, the last one is not empty, and neither is the first one that was added. -/
def Plain (packed added : List (List Char)) : Prop :=
  (packed = [] ∨ added = []) ∧ (packed ++ added).getLast? ≠ some [] ∧ (packed = [] → added.head? ≠ some [])

variable {packed added : List (List Char)}

lemma foldl_add_stringCount (a : CStringArray) : (added.foldl add a).stringCount = a.stringCount + added.length := by
  induction added generalizing a with
  | nil => rfl
  | cons s added ih =>
    rw [foldl_cons, ih, length_cons, Nat.add_comm added.length]
    exact Nat.add_assoc ..

lemma foldl_add_buffer (ne : a.buffer ≠ []) :
    (added.foldl add a).buffer = a.buffer ++ added.flatMap ('\x00' :: ·) := by
  induction added generalizing a with
  | nil => simp
  | cons s added ih => rw [foldl_cons, ih] <;> simp [add, ne]

lemma foldl_add_buffer_of_nil (empty : a.buffer = []) :
    (added.foldl add a).buffer = pack (added.dropWhile (· = [])) := by
  induction added generalizing a with
  | nil => exact empty
  | cons s added ih =>
    by_cases first : s = []
    · rw [foldl_cons, ih (by simp [add, empty, first]), dropWhile_cons_of_pos (by simpa using first)]
    · have buffer : (a.add s).buffer = s := by simp [add, empty]
      rw [foldl_cons, foldl_add_buffer (by rwa [buffer]), buffer, dropWhile_cons_of_neg (by simpa using first)]
      rfl

lemma count_pack (free : ∀ s ∈ strs, '\x00' ∉ s) (some : strs ≠ []) : (pack strs).count '\x00' + 1 = strs.length := by
  obtain ⟨s, strs, rfl⟩ := exists_cons_of_ne_nil some
  rw [pack, count_append, count_eq_zero_of_not_mem (free s mem_cons_self), Nat.zero_add]
  replace free := (forall_mem_cons.mp free).2
  clear some
  induction strs with
  | nil => rfl
  | cons t strs ih =>
    rw [forall_mem_cons] at free
    simpa [count_eq_zero_of_not_mem free.1] using ih free.2

def stored (packed added : List (List Char)) : List (List Char) :=
  if packed = [] then added.dropWhile (· = []) else packed

lemma build_buffer (one : packed = [] ∨ added = []) : (build packed added).buffer = pack (stored packed added) := by
  rw [build, stored]
  split
  case isTrue none =>
    subst none
    exact foldl_add_buffer_of_nil rfl
  case isFalse some =>
    rw [one.resolve_left some]
    rfl

lemma stored_suffix (one : packed = [] ∨ added = []) : stored packed added <:+ packed ++ added := by
  rw [stored]
  split
  case isTrue none => exact none ▸ dropWhile_suffix _
  case isFalse some => simp [one.resolve_left some]

lemma stored_eq_iff (one : packed = [] ∨ added = []) :
    stored packed added = packed ++ added ↔ (packed = [] → added.head? ≠ some []) := by
  rw [stored]
  split
  case isTrue none => cases added <;> simp [none, dropWhile_eq_self_iff]
  case isFalse some => simp [some, one.resolve_left some]

lemma Refines.length_le (h : a.Refines strs) : strs.length ≤ (seen a.buffer).length := by
  apply Nat.le_of_not_lt
  intro less
  have value := h.2.1 (seen a.buffer).length
  rw [getValue_eq, h.1, if_pos less, getElem?_eq_none (Nat.le_refl _)] at value
  exact absurd (List.getElem?_eq_none_iff.mp value.symm) (Nat.not_le.mpr less)

/-- An array shows the strings it was given exactly if they are `Plain`. -/
theorem build_iff (packed added : List (List Char)) (free : ∀ s ∈ packed ++ added, '\x00' ∉ s) :
    (build packed added).Refines (packed ++ added) ↔ Plain packed added := by
  constructor
  · intro h
    have one : packed = [] ∨ added = [] := by
      by_contra both
      rw [not_or] at both
      have counted := h.1
      have some := length_pos_iff.mpr both.1
      have more := length_pos_iff.mpr both.2
      rw [count, build, foldl_add_stringCount, if_neg (by simp [both.2]), List.length_append] at counted
      dsimp only at counted
      omega
    have suffix := stored_suffix one
    have long := h.length_le
    rw [build_buffer one, seen_pack fun s mem => free s (suffix.subset mem)] at long
    split at long
    case isTrue last =>
      have pos : stored packed added ≠ [] := by
        intro empty
        rw [empty] at last
        cases last
      have pos := length_pos_iff.mpr pos
      have le := suffix.length_le
      rw [length_dropLast] at long
      omega
    case isFalse last =>
      have whole := suffix.eq_of_length_le long
      exact ⟨one, whole ▸ last, (stored_eq_iff one).mp whole⟩
  · rintro ⟨one, last, first⟩
    have strings : seen (build packed added).buffer = packed ++ added := by
      rw [build_buffer one, (stored_eq_iff one).mpr first, seen_pack free, if_neg last]
    apply refines_of_seen strings
    rw [count, build, foldl_add_stringCount]
    rcases one with rfl | rfl
    · rw [if_neg]
      · exact Nat.zero_add _
      · rintro ⟨none, some⟩
        rw [eq_nil_of_length_eq_zero ((Nat.zero_add _).symm.trans none)] at some
        cases some
    · rw [append_nil] at free strings ⊢
      split
      case isTrue made => exact count_pack free fun none => absurd made.2 (by simp [none, pack])
      case isFalse empty =>
        have none : (build packed []).buffer = [] := by simpa [build] using empty
        rw [none] at strings
        rw [← strings]
        rfl

theorem build_iff_middle : (build [] [['a'], [], ['b']]).Refines [['a'], [], ['b']] :=
  (build_iff [] [['a'], [], ['b']] (by decide)).mpr ⟨.inl rfl, by decide, by decide⟩

theorem build_not_empty : ¬ ∀ packed added, (∀ s ∈ packed ++ added, '\x00' ∉ s) →
    (build packed added).Refines (packed ++ added) := by
  intro all
  have first := (all [] [[], ['a']] (by decide)).2.1 0
  exact absurd first (by decide)

end CStringArray

end Sming.Data
