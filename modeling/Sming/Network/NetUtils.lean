import Sming.Lib.FirstOccurrence

/-!
# Searching a chain of buffers

Embedding of the `pbuf` functions of `Sming/SmingCore/Network/NetUtils.cpp`. A chain is the list of its
payloads; `none` as the answer of a comparison is an access outside of a payload.

Searches and copies see the bytes of the chain as one text. The comparison does not: behind the last byte of
a buffer it takes the first byte of the next one, which an empty buffer does not have.
-/

namespace Sming.Network.NetUtils
open Sming.Lib

/-- (C++ `pbuf`.) -/
abbrev Pbuf := List (List Char)

def pbufFindChar : Pbuf → Char → Nat → Option Nat
  | [], _, _ => none
  | buf :: next, wtf, startPos =>
    if buf.length ≤ startPos then (pbufFindChar next wtf (startPos - buf.length)).map (· + buf.length)
    else
      match (buf.drop startPos).findIdx? (· == wtf) with
      | some i => some (startPos + i)
      | none => (pbufFindChar next wtf 0).map (· + buf.length)

/-- The loop over the compared text, at the place `cur` of the first buffer. -/
def compareAt : List Char → Pbuf → Nat → Option Bool
  | [], _, _ => some true
  | _ :: _, [], _ => some false
  | c :: cmp, buf :: next, cur =>
    match buf[cur]? with
    | none => none
    | some target =>
      if target ≠ c then some false
      else if buf.length ≤ cur + 1 then compareAt cmp next 0
      else compareAt cmp (buf :: next) (cur + 1)

def pbufIsStrEqual (compared : List Char) : Pbuf → Nat → Option Bool
  | [], _ => some false
  | buf :: next, startPos =>
    if buf.length ≤ startPos then pbufIsStrEqual compared next (startPos - buf.length)
    else compareAt compared (buf :: next) startPos

/-- The loop of `pbufFindStr`; a round goes on behind the place that was tried. There is no answer if the rounds do not
last. -/
def findStr (buf : Pbuf) (first : Char) (wtf : List Char) : Nat → Nat → Option (Option Nat)
  | 0, _ => none
  | rounds + 1, cur =>
    match pbufFindChar buf first cur with
    | none => some none
    | some cur =>
      match pbufIsStrEqual wtf buf cur with
      | none => none
      | some true => some (some cur)
      | some false => findStr buf first wtf rounds (cur + 1)

/-- The place of the text `first :: rest`, `some none` if it is not there. -/
def pbufFindStr (buf : Pbuf) (first : Char) (rest : List Char) (startPos : Nat) : Option (Option Nat) :=
  findStr buf first (first :: rest) (buf.flatten.length + 1) startPos

/-- A copy as a C string. -/
def pbufStrCopy (buf : Pbuf) (startPos length : Nat) : String :=
  String.ofList (before '\x00' ((buf.flatten.drop startPos).take length))

/-! ### The searches see one text -/

variable {buf next : Pbuf} {c : Char} {w : List Char} {cur start : Nat}

lemma drop_flatten_cons {b : List Char} (le : b.length ≤ start) :
    (b :: next).flatten.drop start = next.flatten.drop (start - b.length) := by
  rw [List.flatten_cons, List.drop_append, List.drop_of_length_le le, List.nil_append]

lemma pbufFindChar_eq : pbufFindChar buf c start = ((buf.flatten.drop start).findIdx? (· == c)).map (· + start) := by
  induction buf generalizing start with
  | nil => rw [List.flatten_nil, List.drop_nil]; rfl
  | cons b next ih =>
    rw [pbufFindChar]
    split
    case isTrue le =>
      rw [ih, drop_flatten_cons le, Option.map_map]
      congr 1
      funext i
      simp only [Function.comp_apply]
      omega
    case isFalse less =>
      have le := Nat.le_of_not_le less
      rw [ih, List.drop_zero, List.flatten_cons, List.drop_append_of_le_length le, List.findIdx?_append,
        List.length_drop]
      cases (b.drop start).findIdx? (· == c) with
      | some i => simp [Nat.add_comm]
      | none =>
        simp only [Option.none_or, Option.map_map]
        congr 1
        funext i
        simp only [Function.comp_apply]
        omega

def Within : Pbuf → Nat → Prop
  | [], cur => cur = 0
  | b :: _, cur => cur < b.length

lemma compareAt_eq (full : ∀ b ∈ buf, b ≠ []) (within : Within buf cur) :
    compareAt w buf cur = some (w.isPrefixOf (buf.flatten.drop cur)) := by
  induction w generalizing buf cur with
  | nil => simp [compareAt]
  | cons c w ih =>
    cases buf with
    | nil => simp [compareAt]
    | cons b next =>
      have within : cur < b.length := within
      have here : (b :: next).flatten.drop cur = b[cur] :: (b :: next).flatten.drop (cur + 1) := by
        rw [List.flatten_cons, List.drop_append_of_le_length (Nat.le_of_lt within), List.drop_eq_getElem_cons within,
          List.drop_append_of_le_length within]
        rfl
      rw [compareAt, List.getElem?_eq_getElem within, here, List.isPrefixOf]
      dsimp only
      rcases eq_or_ne b[cur] c with same | other
      · rw [if_neg (not_not.mpr same), same, beq_self_eq_true, Bool.true_and]
        split
        case isTrue end_ =>
          have inside : Within next 0 := by
            cases next with
            | nil => rfl
            | cons b' next => exact List.length_pos_iff.mpr (full b' (by simp))
          rw [ih (fun b' mem => full b' (List.mem_cons_of_mem _ mem)) inside, drop_flatten_cons end_,
            Nat.sub_eq_zero_of_le within]
        case isFalse more => exact ih full (Nat.lt_of_not_le more)
      · rw [if_pos other, beq_false_of_ne other.symm, Bool.false_and]

lemma pbufIsStrEqual_eq (full : ∀ b ∈ buf, b ≠ []) :
    pbufIsStrEqual (c :: w) buf start = some ((c :: w).isPrefixOf (buf.flatten.drop start)) := by
  induction buf generalizing start with
  | nil => simp [pbufIsStrEqual]
  | cons b next ih =>
    rw [pbufIsStrEqual]
    split
    case isTrue le => rw [ih (fun b' mem => full b' (List.mem_cons_of_mem _ mem)), drop_flatten_cons le]
    case isFalse less => exact compareAt_eq full (Nat.lt_of_not_le less)

def Occurs (buf : Pbuf) (w : List Char) (p : Nat) : Prop := w <+: buf.flatten.drop p

lemma Occurs.first (h : Occurs buf (c :: w) cur) : buf.flatten[cur]? = some c := by
  obtain ⟨more, eq⟩ := h
  have head := congrArg (·[0]?) eq
  simpa using head.symm

lemma findStr_first (full : ∀ b ∈ buf, b ≠ []) {rounds : Nat} (enough : buf.flatten.length < rounds + cur)
    (one : 0 < rounds) : ∃ r, findStr buf c (c :: w) rounds cur = some r ∧ FirstAt (Occurs buf (c :: w)) cur r := by
  induction rounds generalizing cur with
  | zero => cases one
  | succ rounds ih =>
    have found := firstAt_findIdx? c buf.flatten cur
    rw [← pbufFindChar_eq] at found
    rw [findStr]
    cases place : pbufFindChar buf c cur with
    | none =>
      rw [place] at found
      exact ⟨none, rfl, fun q ge at_q => found q ge at_q.first⟩
    | some p =>
      rw [place] at found
      have inside : p < buf.flatten.length := (List.getElem?_eq_some_iff.mp found.2.1).1
      have skipped q (ge : cur ≤ q) (less : q < p) (at_q : Occurs buf (c :: w) q) := found.2.2 q ge less at_q.first
      dsimp only
      rw [pbufIsStrEqual_eq full]
      cases compare : (c :: w).isPrefixOf (buf.flatten.drop p) with
      | true => exact ⟨some p, rfl, found.1, List.isPrefixOf_iff_prefix.mp compare, skipped⟩
      | false =>
        have start := found.1
        obtain ⟨r, eq, least⟩ := ih (by omega : buf.flatten.length < rounds + (p + 1)) (by omega)
        refine ⟨r, eq, least.skip (Nat.le_succ_of_le found.1) fun q ge less at_q => ?_⟩
        rcases Nat.lt_succ_iff_lt_or_eq.mp less with less | rfl
        · exact skipped q ge less at_q
        · exact absurd (List.isPrefixOf_iff_prefix.mpr at_q) (by rw [compare]; nofun)

lemma pbufFindStr_firstAt (full : ∀ b ∈ buf, b ≠ []) (first : Char) (rest : List Char) (start : Nat) :
    ∃ r, pbufFindStr buf first rest start = some r ∧ FirstAt (Occurs buf (first :: rest)) start r :=
  findStr_first full (by omega) (Nat.succ_pos _)

/-- The search finds the first place of the text, and never leaves a buffer; how the bytes are cut makes no
difference. -/
theorem pbufFindStr_first (buf : Pbuf) (full : ∀ b ∈ buf, b ≠ []) (first : Char) (rest : List Char) (start : Nat) :
    ∃ r, pbufFindStr buf first rest start = some r ∧ FirstAt (Occurs buf (first :: rest)) start r ∧
      ∀ buf' : Pbuf, (∀ b ∈ buf', b ≠ []) → buf'.flatten = buf.flatten →
        pbufFindStr buf' first rest start = some r := by
  obtain ⟨r, eq, least⟩ := pbufFindStr_firstAt full first rest start
  refine ⟨r, eq, least, fun buf' full' same => ?_⟩
  obtain ⟨r', eq', least'⟩ := pbufFindStr_firstAt full' first rest start
  have occurs : Occurs buf' (first :: rest) = Occurs buf (first :: rest) := by
    funext p
    rw [Occurs, Occurs, same]
  rw [occurs] at least'
  rw [eq', least'.unique least]

theorem pbufFindStr_first_cut : ∃ r, pbufFindStr [['a', '\r'], ['\n']] '\r' ['\n'] 0 = some r ∧
    FirstAt (Occurs [['a', '\r'], ['\n']] ['\r', '\n']) 0 r :=
  have ⟨r, eq, least, _⟩ := pbufFindStr_first [['a', '\r'], ['\n']] (by decide) '\r' ['\n'] 0
  ⟨r, eq, least⟩

end Sming.Network.NetUtils
