import Mathlib.Algebra.Group.Nat.Defs
import Mathlib.Algebra.Ring.Int.Defs
import Mathlib.Data.List.DropRight
import Sming.Lib.FirstOccurrence

/-!
# Text

The functions of `Sming/Wiring/WString.cpp` and `Sming/Wiring/SplitString.cpp` that the URL parser and the AT client
call, and the `strtol` of the C library. An index of -1 is `none`. A text that is copied from a `char*` ends at its first
NUL. A `String` keeps its length and its capacity in 16 bits (`WString.h`); this is left out, so what is said of texts is
meant for those of fewer than 65536 characters.
-/

namespace Sming.Wiring.WString
open Sming.Lib List String

/-- The first `c` at or behind `fromIndex`. -/
def indexOf (s : String) (c : Char) (fromIndex : Nat) : Option Nat :=
  ((s.toList.drop fromIndex).findIdx? fun x => x == c).map fun i => i + fromIndex

/-- The first place where the text `s2` stands; `memmem` finds an empty text at the start, but an empty
string is not searched (C++ `String::indexOf`). -/
def indexOfText (s s2 : String) : Option Nat :=
  if s.length = 0 then none
  else (List.range (s.length + 1)).find? fun i => s2.toList.isPrefixOf (s.toList.drop i)

/-- The characters from `left` up to `right`, which are swapped if they are out of order. -/
def substring (s : String) (left right : Nat) : String :=
  ofList (((s.toList.take (max left right)).drop (min left right)).takeWhile (· != '\x00'))

def remove (s : String) (index count : Nat) : String :=
  ofList (s.toList.take index ++ s.toList.drop (index + count))

def toLowerCase (s : String) : String := ofList (s.toList.map Char.toLower)

/-- The letters in front of the first NUL. -/
def toUpperCase (s : String) : String :=
  ofList ((before '\x00' s.toList).map Char.toUpper ++ s.toList.drop (before '\x00' s.toList).length)

def replace (s : String) (find replacement : Char) : String :=
  ofList ((before '\x00' s.toList).map (fun c => if c = find then replacement else c) ++
    s.toList.drop (before '\x00' s.toList).length)

/-- The last `c` in front of the first NUL. -/
def lastIndexOf (s : String) (c : Char) : Option Nat :=
  let text := before '\x00' s.toList
  (text.reverse.findIdx? (· == c)).map fun i => text.length - 1 - i

/-- Two C strings are the same apart from the case. -/
def strcasecmp (s t : List Char) : Bool :=
  (before '\x00' s).map Char.toLower == (before '\x00' t).map Char.toLower

def equalsIgnoreCase (s s2 : String) : Bool := s.length == s2.length && strcasecmp s.toList s2.toList

def isspace (c : Char) : Bool := c == ' ' || (9 ≤ c.toNat && c.toNat ≤ 13)

def trim (s : String) : String := ofList ((s.toList.dropWhile isspace).reverse.dropWhile isspace).reverse

/-- The parts of a list between the separators; a last part stands even if it is empty. -/
def splitAt (delim : Char) : List Char → List (List Char)
  | [] => [[]]
  | c :: cs =>
    if c = delim then [] :: splitAt delim cs
    else
      match splitAt delim cs with
      | [] => [[c]]
      | part :: parts => (c :: part) :: parts

/-- The parts are copied by `substring`. -/
def splitString (what : String) (delim : Char) : List String :=
  (splitAt delim (trim what).toList).map fun part => ofList (before '\x00' part)

def digits (cs : List Char) : Nat :=
  (cs.takeWhile Char.isDigit).foldl (fun n c => 10 * n + (c.toNat - '0'.toNat)) 0

/-- `atoi`, as an `int`. -/
def toInt (s : String) : Int :=
  match s.toList.dropWhile isspace with
  | '-' :: cs => (-(digits cs : Int)).bmod (2 ^ 32)
  | '+' :: cs => (digits cs : Int).bmod (2 ^ 32)
  | cs => (digits cs : Int).bmod (2 ^ 32)

def toLong (value : Int) : Int := max (-2 ^ 31) (min (2 ^ 31 - 1) value)

/-- The digits behind the sign. Without digits nothing is read of `p`. -/
def strtolDigits (p : List Char) (negative : Bool) (body : List Char) : Int × List Char :=
  if (body.takeWhile Char.isDigit).isEmpty then (0, p)
  else (toLong (if negative then -(digits body) else digits body), body.dropWhile Char.isDigit)

/-- The number at the start of a text and the text behind it, to the base 10. -/
def strtol (p : List Char) : Int × List Char :=
  match p.dropWhile isspace with
  | '-' :: body => strtolDigits p true body
  | '+' :: body => strtolDigits p false body
  | body => strtolDigits p false body

/-! ### Searches and copies, in terms of the characters -/

variable {c d : Char} {cs : List Char}

lemma isSome_indexOfText (s s2 : String) : (indexOfText s s2).isSome = true ↔ s ≠ "" ∧ s2.toList <:+: s.toList := by
  rw [indexOfText]
  split
  case isTrue zero =>
    have empty : s = "" := String.length_eq_zero_iff.mp zero
    simp [empty]
  case isFalse some =>
    have full : s ≠ "" := fun empty => some (by rw [empty]; rfl)
    rw [find?_isSome]
    constructor
    · rintro ⟨i, -, start⟩
      have start : s2.toList <+: s.toList.drop i := isPrefixOf_iff_prefix.mp start
      exact ⟨full, start.isInfix.trans (drop_suffix i _).isInfix⟩
    · rintro ⟨-, front, back, eq⟩
      refine ⟨front.length, ?_, isPrefixOf_iff_prefix.mpr ⟨back, ?_⟩⟩
      · have len := congrArg List.length eq
        simp only [List.length_append, String.length_toList] at len
        exact mem_range.mpr (by omega)
      · rw [← eq, List.append_assoc, drop_left]

lemma indexOf_eq (cs : List Char) (c : Char) (fromIndex : Nat) :
    indexOf (ofList cs) c fromIndex =
      if c ∈ cs.drop fromIndex then some ((before c (cs.drop fromIndex)).length + fromIndex) else none := by
  rw [indexOf, toList_ofList, findIdx?_eq_before]
  split <;> rfl

lemma indexOf_zero_getD (cs : List Char) (c : Char) :
    (indexOf (ofList cs) c 0).getD cs.length = (before c cs).length := by
  rw [indexOf_eq, drop_zero]
  split
  · rfl
  case isFalse absent => rw [before_of_not_mem absent, Option.getD_none]

lemma substring_eq (cs : List Char) (left n : Nat) :
    substring (ofList cs) left (left + n) = ofList (before '\x00' ((cs.drop left).take n)) := by
  have le : left ≤ left + n := Nat.le_add_right _ _
  rw [substring, toList_ofList, Nat.max_eq_right le, Nat.min_eq_left le, drop_take, Nat.add_sub_cancel_left]
  rfl

lemma substring_part (a b c : List Char) {left right : Nat} (l : left = a.length) (r : right = a.length + b.length) :
    substring (ofList (a ++ (b ++ c))) left right = ofList (before '\x00' b) := by
  rw [l, r, substring_eq, drop_left, take_left]

lemma substring_comm (s : String) (left right : Nat) : substring s left right = substring s right left := by
  rw [substring, substring, Nat.max_comm, Nat.min_comm]

lemma splitAt_eq_splitOn (d : Char) (cs : List Char) : splitAt d cs = cs.splitOn d := by
  induction cs with
  | nil => rfl
  | cons c cs ih =>
    rw [splitAt, splitOn_cons_eq_if_modifyHead, ih]
    cases split : cs.splitOn d with
    | nil => exact absurd split (splitOn_ne_nil d cs)
    | cons part parts => simp

lemma rdropWhile_append (solid : isspace d = false) (front rest : List Char) :
    (front ++ d :: rest).rdropWhile isspace = front ++ d :: rest.rdropWhile isspace := by
  have stays : (d :: front.reverse).dropWhile isspace = d :: front.reverse :=
    dropWhile_cons_of_neg (by rw [solid]; decide)
  rw [rdropWhile, reverse_append, reverse_cons, List.append_assoc, singleton_append, dropWhile_append, rdropWhile]
  split
  case isTrue empty =>
    rw [stays, List.isEmpty_iff.mp empty]
    simp
  case isFalse => simp

lemma trim_append (solid : isspace d = false) (front rest : List Char) :
    trim (ofList (front ++ d :: rest)) =
      ofList (front.dropWhile isspace ++ d :: rest.rdropWhile isspace) := by
  have stays : (d :: rest).dropWhile isspace = d :: rest := dropWhile_cons_of_neg (by rw [solid]; decide)
  have left : (front ++ d :: rest).dropWhile isspace = front.dropWhile isspace ++ d :: rest := by
    rw [dropWhile_append]
    split
    case isTrue empty => rw [stays, List.isEmpty_iff.mp empty, nil_append]
    case isFalse => rfl
  rw [trim, toList_ofList, left]
  exact congrArg ofList (rdropWhile_append solid _ _)

lemma mem_trim (h : c ∈ (trim (ofList cs)).toList) : c ∈ cs := by
  rw [trim, toList_ofList, toList_ofList, mem_reverse] at h
  exact (dropWhile_sublist _).subset (mem_reverse.mp ((dropWhile_sublist _).subset h))

lemma mem_of_mem_splitOn {part : List Char} (mem : part ∈ cs.splitOn d) (inside : c ∈ part) : c ∈ cs := by
  obtain ⟨i, place⟩ := mem_iff_getElem?.mp mem
  have joined : [d].intercalate (cs.splitOn d) = cs := intercalate_splitOn d
  rw [← joined, List.intercalate, mem_flatten]
  exact ⟨part, mem_of_getElem? (getElem?_intersperse_two_mul.trans place), inside⟩

lemma splitString_eq (whole : '\x00' ∉ cs) :
    splitString (ofList cs) d = ((trim (ofList cs)).toList.splitOn d).map ofList := by
  rw [splitString, splitAt_eq_splitOn]
  refine map_congr_left fun part mem => ?_
  rw [before_of_not_mem fun nul => whole (mem_trim (mem_of_mem_splitOn mem nul))]

lemma splitString_of_not_mem (whole : '\x00' ∉ cs) (absent : d ∉ cs) :
    splitString (ofList cs) d = [trim (ofList cs)] := by
  rw [splitString_eq whole, splitOn_eq_singleton fun mem => absent (mem_trim mem)]
  simp

lemma splitString_append (solid : isspace d = false) (absent : d ∉ cs) {rest : List Char}
    (whole : '\x00' ∉ cs ++ d :: rest) :
    splitString (ofList (cs ++ d :: rest)) d = ofList (cs.dropWhile isspace) ::
      ((rest.rdropWhile isspace).splitOn d).map ofList := by
  have absent' : d ∉ cs.dropWhile isspace := fun mem => absent ((dropWhile_sublist _).subset mem)
  rw [splitString_eq whole, trim_append solid, toList_ofList, splitOn_append_cons_self_of_not_mem absent', map_cons]

lemma ne_of_isDigit {c d : Char} (digit : c.isDigit = true) (other : d.isDigit = false) : c ≠ d := by
  rintro rfl
  rw [digit] at other
  cases other

lemma isspace_of_isDigit {c : Char} (digit : c.isDigit = true) : isspace c = false := by
  have range : 48 ≤ c.toNat ∧ c.toNat ≤ 57 := Char.isDigit_iff_toNat.mp digit
  have blank : c ≠ ' ' := ne_of_isDigit digit (by decide)
  simp [isspace, blank]
  omega

lemma toInt_digits (ne : cs ≠ []) (all : ∀ c ∈ cs, c.isDigit = true) (small : digits cs < 2 ^ 31) :
    toInt (ofList cs) = digits cs := by
  have fits : (digits cs : Int).bmod (2 ^ 32) = digits cs := Int.bmod_eq_of_le_mul_two (by omega) (by omega)
  obtain ⟨d, ds, cut⟩ := exists_cons_of_ne_nil ne
  have digit : d.isDigit = true := all d (cut ▸ mem_cons_self)
  have kept : (ofList cs).toList.dropWhile isspace = cs := by
    rw [toList_ofList, cut, dropWhile_cons_of_neg (by rw [isspace_of_isDigit digit]; decide)]
  rw [toInt, kept]
  split
  case h_1 => exact absurd (all '-' mem_cons_self) (by decide)
  case h_2 => exact absurd (all '+' mem_cons_self) (by decide)
  case h_3 => exact fits

lemma toInt_toDigits {n : Nat} (small : n < 2 ^ 31) : toInt (ofList (Nat.toDigits 10 n)) = n := by
  have all : ∀ c ∈ Nat.toDigits 10 n, c.isDigit = true := fun c mem =>
    Nat.isDigit_of_mem_toDigits (by decide) (by decide) mem
  have value : digits (Nat.toDigits 10 n) = n := by
    rw [digits, takeWhile_eq_self_iff.mpr all]
    exact Nat.ofDigitChars_ten_toDigits
  rw [toInt_digits Nat.toDigits_ne_nil all (value.symm ▸ small), value]

lemma strtol_digits {blanks ds rest : List Char} (skipped : ∀ b ∈ blanks, isspace b = true) (ne : ds ≠ [])
    (all : ∀ c ∈ ds, c.isDigit = true) (small : digits ds < 2 ^ 31) (stop : ∀ c ∈ rest.head?, c.isDigit = false) :
    strtol (blanks ++ (ds ++ rest)) = ((digits ds : Int), rest) := by
  have none : rest.takeWhile Char.isDigit = [] ∧ rest.dropWhile Char.isDigit = rest := by
    cases rest with
    | nil => exact ⟨rfl, rfl⟩
    | cons c rest =>
      have no : ¬ c.isDigit = true := by simp [stop c rfl]
      exact ⟨takeWhile_cons_of_neg no, dropWhile_cons_of_neg no⟩
  have front : (ds ++ rest).takeWhile Char.isDigit = ds := by
    rw [takeWhile_append_of_pos all, none.1, append_nil]
  have value : digits (ds ++ rest) = digits ds := by
    rw [digits, digits, front, takeWhile_eq_self_iff.mpr all]
  obtain ⟨d, ds', cut⟩ := exists_cons_of_ne_nil ne
  have digit : d.isDigit = true := all d (cut ▸ mem_cons_self)
  have solid : (blanks ++ (ds ++ rest)).dropWhile isspace = ds ++ rest := by
    rw [dropWhile_append_of_pos skipped, cut, cons_append, dropWhile_cons_of_neg]
    rw [isspace_of_isDigit digit]
    decide
  have first : ∀ c body, ds ++ rest = c :: body → c.isDigit = true := by
    intro c body eq
    rw [cut, cons_append] at eq
    exact (List.cons.inj eq).1 ▸ digit
  rw [strtol, solid]
  split
  case h_1 body eq => exact absurd (first _ _ eq) (by decide)
  case h_2 body eq => exact absurd (first _ _ eq) (by decide)
  case h_3 =>
    have fits : toLong (digits ds) = digits ds := by
      rw [toLong, Int.min_eq_right (by omega), Int.max_eq_right (by omega)]
    rw [strtolDigits, front, if_neg (by simpa using ne), dropWhile_append_of_pos all, none.2,
      if_neg Bool.false_ne_true, value, fits]

end Sming.Wiring.WString
