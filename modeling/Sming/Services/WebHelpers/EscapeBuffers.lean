import Mathlib.Data.List.Infix
import Sming.Services.WebHelpers.Escape

/-!
# Escaping into a buffer

The loops of `uri_escape` and `uri_unescape` (`Sming/Services/WebHelpers/escape.cpp`) with the room in their
destination, and `uri_unescape_inplace`, whose destination is the source. `uriEscape` and `unescape` are the texts that
they are to produce. A call without a destination gets one of the length that is enough.
-/

namespace Sming.Services.WebHelpers
open Sming.Lib Sming.Network.Http Sming.System List

/-! ### The loops -/

def uriEscapeLen (s : List Char) : Nat := s.foldl (fun ret c => ret + if mustEscape c then 3 else 1) 0

/-- What C++ `uri_escape` stores in front of the terminator, and whether it has come to the end of the source. -/
def escapeInto (destLen : Nat) : List Char → List Char × Bool
  | [] => ([], true)
  | c :: src =>
    if destLen ≤ 1 then ([], false)
    else if mustEscape c then
      if destLen ≤ 3 then ([], false)
      else
        let r := escapeInto (destLen - 3) src
        (['%', hexchar (c.toUInt8 >>> 4), hexchar (c.toUInt8 &&& 0x0f)] ++ r.1, r.2)
    else
      let r := escapeInto (destLen - 1) src
      ((if c = ' ' then '+' else c) :: r.1, r.2)

/-- A turn of the loop of C++ `uri_unescape`: the character stored and the rest of the source. -/
def unescapeTurn : List Char → Option (Char × List Char)
  | [] => none
  | '%' :: h :: l :: cs =>
    if isxdigit h && isxdigit l then some (Char.ofNat (16 * unhex h + unhex l), cs) else some ('%', h :: l :: cs)
  | '+' :: cs => some (' ', cs)
  | c :: cs => some (c, cs)

/-- What C++ `uri_unescape` stores in front of the terminator, and whether it has come to the end of the source. -/
def unescapeInto : Nat → List Char → List Char × Bool
  | destLen + 2, src =>
    match unescapeTurn src with
    | none => ([], true)
    | some (c, rest) =>
      let r := unescapeInto (destLen + 1) rest
      (c :: r.1, r.2)
  | _, src => ([], src.isEmpty)

/-- The loop with the destination and the source in the same memory; the source ends at `last`. -/
def inplaceLoop (last : Nat) : Nat → Nat → Nat → List Char → List Char
  | destLen + 2, dest, src, mem =>
    match unescapeTurn ((mem.take last).drop src) with
    | none => mem.set dest '\x00'
    | some (c, rest) => inplaceLoop last (destLen + 1) (dest + 1) (last - rest.length) (mem.set dest c)
  | _, dest, src, mem => if src = last then mem.set dest '\x00' else mem

/-- The memory of a text after C++ `uri_unescape_inplace`. -/
def uriUnescapeInplace (s : List Char) : List Char := inplaceLoop s.length (s.length + 1) 0 0 (s ++ ['\x00'])

/-! ### What they store -/

lemma uriEscapeLen_eq (s : List Char) : uriEscapeLen s = (s.flatMap escapeChar).length := by
  have length (ret : Nat) : s.foldl (fun ret c => ret + if mustEscape c then 3 else 1) ret =
      ret + (s.flatMap escapeChar).length := by
    induction s generalizing ret with
    | nil => rfl
    | cons c s ih =>
      rw [foldl_cons, ih, flatMap_cons, List.length_append, escapeChar]
      split
      · exact Nat.add_assoc _ _ _
      · split <;> exact Nat.add_assoc _ _ _
  rw [uriEscapeLen, length, Nat.zero_add]

lemma escapeInto_cons (destLen : Nat) (c : Char) (src : List Char) :
    escapeInto destLen (c :: src) = if destLen ≤ (escapeChar c).length then ([], false)
      else (escapeChar c ++ (escapeInto (destLen - (escapeChar c).length) src).1,
        (escapeInto (destLen - (escapeChar c).length) src).2) := by
  rw [escapeInto, escapeChar]
  by_cases must : mustEscape c = true
  · simp only [if_pos must, length_cons, length_nil]
    by_cases one : destLen ≤ 1
    · rw [if_pos one, if_pos (by omega)]
    · rw [if_neg one]
  · by_cases blank : c = ' '
    · simp only [if_neg must, if_pos blank]
      rfl
    · simp only [if_neg must, if_neg blank]
      rfl

/-- What a loop stores and its terminator have room, and it comes to its end exactly if the whole text has room, which
is then what it has stored. -/
def Fits (destLen : Nat) (text : List Char) (r : List Char × Bool) : Prop :=
  r.1.length < destLen ∧ (r.2 = true ↔ text.length < destLen) ∧ (r.2 = true → r.1 = text)

lemma escapeInto_fits (src : List Char) {destLen : Nat} (pos : 1 ≤ destLen) :
    Fits destLen (src.flatMap escapeChar) (escapeInto destLen src) := by
  induction src generalizing destLen with
  | nil => exact ⟨pos, ⟨fun _ => pos, fun _ => rfl⟩, fun _ => rfl⟩
  | cons c src ih =>
    rw [escapeInto_cons, flatMap_cons, Fits, List.length_append]
    split
    case isTrue full => exact ⟨pos, ⟨nofun, fun room => by omega⟩, nofun⟩
    case isFalse space =>
      obtain ⟨room, done, same⟩ := @ih (destLen - (escapeChar c).length) (by omega)
      refine ⟨?_, ?_, fun finished => congrArg _ (same finished)⟩
      · rw [List.length_append]
        omega
      · rw [done]
        omega

lemma unescape_turn (src : List Char) :
    unescape src = match unescapeTurn src with | none => [] | some (c, rest) => c :: unescape rest := by
  fun_cases unescapeTurn src
  case case1 => rfl
  case case2 h l cs digits => rw [unescape, if_pos digits]
  case case3 h l cs digits => rw [unescape, if_neg digits]
  case case4 cs => rw [unescape]
  case case5 c cs short other =>
    rw [unescape]
    · exact short
    · exact other

lemma unescapeTurn_suffix {src rest : List Char} {c : Char} (turn : unescapeTurn src = some (c, rest)) :
    rest <:+ src ∧ rest.length < src.length := by
  revert turn
  fun_cases unescapeTurn src <;> rintro ⟨⟩
  · exact ⟨⟨['%', _, _], rfl⟩, by simp; omega⟩
  · exact ⟨⟨['%'], rfl⟩, by simp⟩
  · exact ⟨⟨['+'], rfl⟩, by simp⟩
  · exact ⟨⟨[_], rfl⟩, by simp⟩

lemma exists_unescapeTurn (c : Char) (src : List Char) : ∃ r, unescapeTurn (c :: src) = some r := by
  generalize more : c :: src = s
  fun_cases unescapeTurn s
  case case1 => cases more
  all_goals exact ⟨_, rfl⟩

lemma unescapeInto_eq (src : List Char) (n : Nat) :
    unescapeInto (n + 1) src = ((unescape src).take n, decide ((unescape src).length < n + 1)) := by
  induction n generalizing src with
  | zero =>
    cases src with
    | nil => rfl
    | cons c src =>
      obtain ⟨r, turn⟩ := exists_unescapeTurn c src
      rw [unescape_turn, turn]
      rfl
  | succ n ih =>
    rw [unescapeInto, unescape_turn src]
    cases unescapeTurn src with
    | none => rfl
    | some r => simp [ih]

lemma unescapeInto_fits (src : List Char) {destLen : Nat} (pos : 1 ≤ destLen) :
    Fits destLen (unescape src) (unescapeInto destLen src) := by
  obtain ⟨n, rfl⟩ := Nat.exists_eq_add_of_le' pos
  rw [unescapeInto_eq, Fits, decide_eq_true_eq, length_take]
  exact ⟨by omega, .rfl, fun room => take_of_length_le (Nat.le_of_lt_succ room)⟩

lemma length_unescape (src : List Char) : (unescape src).length ≤ src.length := by
  induction src using unescape.induct with
  | case1 => exact le_rfl
  | case2 h l cs digits ih =>
    rw [unescape_escaped digits]
    simp only [length_cons]
    omega
  | case3 h l cs digits ih =>
    rw [unescape, if_neg digits]
    exact Nat.succ_le_succ ih
  | case4 cs ih => exact Nat.succ_le_succ ih
  | case5 c cs short other ih =>
    rw [unescape]
    · exact Nat.succ_le_succ ih
    · exact short
    · exact other

lemma set_eq_append {mem : List Char} {dest : Nat} (inside : dest < mem.length) (c : Char) :
    mem.set dest c = mem.take dest ++ [c] ++ mem.drop (dest + 1) := by
  rw [set_eq_take_append_cons_drop, if_pos inside, append_cons]

/-- The destination never overtakes the source, so that what is still to be read is what was there. -/
lemma inplaceLoop_eq {last n dest src : Nat} {mem : List Char} (behind : dest ≤ src) (inside : src ≤ last)
    (whole : last < mem.length) (enough : last - src ≤ n) :
    ∃ tail, inplaceLoop last (n + 1) dest src mem =
      mem.take dest ++ unescape ((mem.take last).drop src) ++ '\x00' :: tail := by
  have store := @set_eq_append mem dest (by omega)
  have left : ((mem.take last).drop src).length = last - src := by
    rw [length_drop, length_take, Nat.min_eq_left whole.le]
  induction n generalizing dest src mem with
  | zero =>
    obtain rfl : src = last := by omega
    rw [eq_nil_of_length_eq_zero (left.trans (Nat.sub_self src)), unescape]
    exact ⟨_, (if_pos rfl).trans (by rw [store, append_nil, List.append_assoc]; rfl)⟩
  | succ n ih =>
    rw [inplaceLoop, unescape_turn ((mem.take last).drop src)]
    cases turn : unescapeTurn ((mem.take last).drop src) with
    | none => exact ⟨_, by simp [store]; rfl⟩
    | some r =>
      obtain ⟨suffix, shorter⟩ := unescapeTurn_suffix turn
      rw [left] at shorter
      have rest : ((mem.set dest r.1).take last).drop (last - r.2.length) = r.2 := by
        have same := suffix_iff_eq_drop.mp suffix
        rw [left, drop_drop, ← Nat.add_sub_assoc shorter.le, Nat.add_sub_cancel' inside] at same
        rw [take_set, drop_set_of_lt (by omega), ← same]
      have head : (mem.set dest r.1).take (dest + 1) = mem.take dest ++ [r.1] := by
        rw [store]
        exact take_left' (by simp; omega)
      obtain ⟨tail, result⟩ := @ih (dest + 1) (last - r.2.length) (mem.set dest r.1) (by omega) (by omega)
        (by rwa [length_set]) (by omega) (set_eq_append (by rw [length_set]; omega)) (by rw [rest]; omega)
      exact ⟨tail, result.trans (by rw [rest, head]; simp)⟩

lemma uriUnescapeInplace_eq (e : List Char) : ∃ tail, uriUnescapeInplace e = unescape e ++ '\x00' :: tail := by
  obtain ⟨tail, result⟩ := @inplaceLoop_eq e.length e.length 0 0 (e ++ ['\x00']) le_rfl (Nat.zero_le _)
    (by simp) le_rfl
  rw [take_zero, nil_append, drop_zero, take_left] at result
  exact ⟨tail, result⟩

/-- The length computed first is that of the text, which is read back, in place as in a buffer of its own; the room of
a destination is kept to. -/
theorem uri_buffers :
    (∀ s : String, '\x00' ∉ s.toList → (uriEscape s).length = uriEscapeLen s.toList ∧
        escapeInto (uriEscapeLen s.toList + 1) s.toList = ((uriEscape s).toList, true) ∧
        uriUnescape (uriEscape s) = s) ∧ (∀ e : List Char, ∃ text, unescapeInto (e.length + 1) e = (text, true) ∧
        before '\x00' (uriUnescapeInplace e) = before '\x00' text) ∧
      ∀ (src : List Char) (destLen : Nat), 1 ≤ destLen →
        Fits destLen (src.flatMap escapeChar) (escapeInto destLen src) ∧
          Fits destLen (unescape src) (unescapeInto destLen src) := by
  refine ⟨fun s nul => ⟨?_, ?_, uriUnescape_uriEscape nul⟩, fun e => ⟨unescape e, ?_, ?_⟩,
    fun src destLen pos => ⟨escapeInto_fits src pos, unescapeInto_fits src pos⟩⟩
  · rw [uriEscapeLen_eq, uriEscape_eq, String.length_ofList]
  · obtain ⟨-, finished, text⟩ := escapeInto_fits s.toList (Nat.le_add_left 1 (uriEscapeLen s.toList))
    have room := finished.mpr (by rw [uriEscapeLen_eq]; exact Nat.lt_succ_self _)
    rw [uriEscape_eq, String.toList_ofList]
    exact Prod.ext (text room) room
  · rw [unescapeInto_eq, take_of_length_le (length_unescape e),
      decide_eq_true (Nat.lt_succ_of_le (length_unescape e))]
  · obtain ⟨tail, result⟩ := uriUnescapeInplace_eq e
    rw [result]
    by_cases nul : '\x00' ∈ unescape e
    · exact before_append_of_mem nul _
    · rw [before_append_cons nul, before_of_not_mem nul]

end Sming.Services.WebHelpers
