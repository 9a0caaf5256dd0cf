import Sming.Network.Http.HttpRequest

/-!
# Escaped text

Embedding of the decoding half of `Sming/Services/WebHelpers/escape.cpp`: `%HH` is the character with this code, `+` is
a blank, everything else is itself. The decoded text is written over the escaped one. A `String` that was decoded in
place is then cut at its first NUL.

Behind the round trip, the lemmas are about a text that grows at its end while it is still escaped: a character that
cannot belong to an escape splits it, and a decoded NUL hides what comes behind it.
-/

namespace Sming.Services.WebHelpers
open Sming.Lib Sming.Network.Http Sming.System List String

def isxdigit (c : Char) : Bool := ('0' ≤ c && c ≤ '9') || ('a' ≤ c && c ≤ 'f') || ('A' ≤ c && c ≤ 'F')

def unescape : List Char → List Char
  | [] => []
  | '%' :: h :: l :: cs =>
    if isxdigit h && isxdigit l then Char.ofNat (16 * unhex h + unhex l) :: unescape cs
    else '%' :: unescape (h :: l :: cs)
  | '+' :: cs => ' ' :: unescape cs
  | c :: cs => c :: unescape cs

def uriUnescape (s : String) : String := ofList (before '\x00' (unescape s.toList))

variable {c h l : Char} {cs w : List Char}

/-! ### One character -/

lemma unescape_cons (percent : c ≠ '%') (plus : c ≠ '+') : unescape (c :: cs) = c :: unescape cs := by
  rw [unescape]
  · rintro _ _ _ rfl
    exact absurd rfl percent
  · exact plus

lemma unescape_escaped (digits : (isxdigit h && isxdigit l) = true) :
    unescape ('%' :: h :: l :: cs) = Char.ofNat (16 * unhex h + unhex l) :: unescape cs := by
  rw [unescape, if_pos digits]

lemma unescape_percent (stray : ∀ h l rest, cs = h :: l :: rest → (isxdigit h && isxdigit l) = false) :
    unescape ('%' :: cs) = '%' :: unescape cs := by
  rcases cs with _ | ⟨h, _ | ⟨l, rest⟩⟩
  · rfl
  · rfl
  · rw [unescape, stray h l rest rfl, if_neg Bool.false_ne_true]

/-- A character that stands for itself and is not part of an escape. -/
def Solid (c : Char) : Prop := isxdigit c = false ∧ c ≠ '%' ∧ c ≠ '+'

instance (c : Char) : Decidable (Solid c) := inferInstanceAs (Decidable (_ ∧ _))

lemma unescape_append_solid (solid : Solid c) (w t : List Char) :
    unescape (w ++ c :: t) = unescape w ++ c :: unescape t := by
  obtain ⟨digit, percent, plus⟩ := solid
  induction w using unescape.induct with
  | case1 => exact unescape_cons percent plus
  | case2 h l cs digits ih =>
    rw [cons_append, cons_append, cons_append, unescape_escaped digits, ih, unescape_escaped digits, cons_append]
  | case3 h l cs digits ih =>
    rw [cons_append, cons_append, cons_append, unescape, if_neg digits,
      ← cons_append, ← cons_append, ih, unescape, if_neg digits, cons_append]
  | case4 cs ih => rw [cons_append, unescape, ih, unescape, cons_append]
  | case5 d cs short other ih =>
    by_cases hd : d = '%'
    · -- fewer than two characters stand behind the percent sign, and `c` is no digit
      subst hd
      have stray : ∀ h l rest, cs ++ c :: t = h :: l :: rest → (isxdigit h && isxdigit l) = false := by
        intro h l rest e
        rcases cs with _ | ⟨a, _ | ⟨b, cs⟩⟩
        · cases e
          rw [digit, Bool.false_and]
        · cases e
          rw [digit, Bool.and_false]
        · exact (short a b cs rfl rfl).elim
      rw [cons_append, unescape_percent stray, ih, unescape_percent, cons_append]
      rintro h l rest rfl
      exact (short h l rest rfl rfl).elim
    · rw [cons_append, unescape_cons hd other, ih, unescape_cons hd other, cons_append]

/-! ### The round trip -/

/-- The code of one character (C++ `uri_escape`, one turn of its loop). -/
def escapeChar (c : Char) : List Char :=
  if mustEscape c then ['%', hexchar (c.toUInt8 >>> 4), hexchar (c.toUInt8 &&& 0x0f)]
  else if c = ' ' then ['+']
  else [c]

lemma uriEscape_eq (s : String) : uriEscape s = ofList (s.toList.flatMap escapeChar) := rfl

lemma code_of_mustEscape {c : Char} (must : mustEscape c = true) :
    (isxdigit (hexchar (c.toUInt8 >>> 4)) = true ∧ isxdigit (hexchar (c.toUInt8 &&& 0x0f)) = true) ∧
      Char.ofNat (16 * unhex (hexchar (c.toUInt8 >>> 4)) + unhex (hexchar (c.toUInt8 &&& 0x0f))) = c := by
  rw [mustEscape, decide_eq_true_eq] at must
  -- the table is gone through by itself: the characters are too many
  have code := (List.all_eq_true (p := fun d : Char =>
    isxdigit (hexchar (d.toUInt8 >>> 4)) && isxdigit (hexchar (d.toUInt8 &&& 0x0f)) &&
      Char.ofNat (16 * unhex (hexchar (d.toUInt8 >>> 4)) + unhex (hexchar (d.toUInt8 &&& 0x0f))) == d)).mp
    (by decide +kernel) c must
  simpa using code

lemma unescape_escapeChar (c : Char) (rest : List Char) : unescape (escapeChar c ++ rest) = c :: unescape rest := by
  rw [escapeChar]
  split
  case isTrue must =>
    obtain ⟨digits, value⟩ := code_of_mustEscape must
    rw [cons_append, cons_append, cons_append, nil_append, unescape_escaped (Bool.and_eq_true_iff.mpr digits), value]
  case isFalse keep =>
    split
    case isTrue blank =>
      rw [blank, singleton_append, unescape]
    case isFalse =>
      rw [singleton_append, unescape_cons]
      · rintro rfl
        exact keep (by decide)
      · rintro rfl
        exact keep (by decide)

lemma unescape_flatMap_escapeChar (cs rest : List Char) :
    unescape (cs.flatMap escapeChar ++ rest) = cs ++ unescape rest := by
  induction cs with
  | nil => rfl
  | cons c cs ih => rw [flatMap_cons, List.append_assoc, unescape_escapeChar, ih, cons_append]

lemma uriUnescape_uriEscape {s : String} (nul : '\x00' ∉ s.toList) : uriUnescape (uriEscape s) = s := by
  have whole := unescape_flatMap_escapeChar s.toList []
  rw [append_nil, unescape, append_nil] at whole
  rw [uriUnescape, uriEscape_eq, toList_ofList, whole, before_of_not_mem nul, ofList_toList]

lemma mem_uriEscape {s : String} (mem : c ∈ (uriEscape s).toList) :
    (c ∈ s.toList ∧ mustEscape c = false) ∨ c = '%' ∨ c = '+' ∨ isxdigit c = true := by
  rw [uriEscape_eq, toList_ofList, mem_flatMap] at mem
  obtain ⟨d, md, mem⟩ := mem
  rw [escapeChar] at mem
  split at mem
  case isTrue must =>
    obtain ⟨⟨high, low⟩, -⟩ := code_of_mustEscape must
    simp only [mem_cons, not_mem_nil, or_false] at mem
    obtain rfl | rfl | rfl := mem
    · exact .inr (.inl rfl)
    · exact .inr (.inr (.inr high))
    · exact .inr (.inr (.inr low))
  case isFalse keep =>
    split at mem
    case isTrue =>
      cases mem_singleton.mp mem
      exact .inr (.inr (.inl rfl))
    case isFalse =>
      cases mem_singleton.mp mem
      exact .inl ⟨md, Bool.eq_false_iff.mpr keep⟩

lemma not_mem_uriEscape (s : String) (must : mustEscape c = true) (solid : Solid c) : c ∉ (uriEscape s).toList := by
  intro mem
  obtain ⟨-, keep⟩ | percent | plus | digit := mem_uriEscape mem
  · rw [must] at keep
    cases keep
  · exact solid.2.1 percent
  · exact solid.2.2 plus
  · rw [solid.1] at digit
    cases digit

lemma nul_not_mem_uriEscape {s : String} (nul : '\x00' ∉ s.toList) : '\x00' ∉ (uriEscape s).toList := by
  intro mem
  obtain ⟨old, -⟩ | percent | plus | digit := mem_uriEscape mem
  · exact nul old
  · exact absurd percent (by decide)
  · exact absurd plus (by decide)
  · exact absurd digit (by decide)

lemma uriEscape_eq_empty_iff {s : String} : uriEscape s = "" ↔ s = "" := by
  constructor
  · intro empty
    have whole := unescape_flatMap_escapeChar s.toList []
    rw [uriEscape_eq, ofList_eq_empty_iff] at empty
    rw [append_nil, empty, unescape, append_nil] at whole
    exact String.toList_eq_nil_iff.mp whole.symm
  · rintro rfl
    rfl

/-! ### Texts that grow -/

lemma before_unescape_append (hidden : '\x00' ∈ unescape w) (t : List Char) :
    before '\x00' (unescape (w ++ t)) = before '\x00' (unescape w) := by
  induction w using unescape.induct with
  | case1 => cases hidden
  | case2 h l cs digits ih =>
    rw [unescape_escaped digits] at hidden ⊢
    rw [cons_append, cons_append, cons_append, unescape_escaped digits]
    exact before_cons_congr ih hidden
  | case3 h l cs digits ih =>
    rw [unescape, if_neg digits] at hidden ⊢
    rw [cons_append, cons_append, cons_append, unescape, if_neg digits]
    exact before_cons_congr ih hidden
  | case4 cs ih =>
    rw [unescape] at hidden ⊢
    rw [cons_append, unescape]
    exact before_cons_congr ih hidden
  | case5 c cs short other ih =>
    by_cases hc : c = '%'
    · subst hc
      rcases cs with _ | ⟨h, _ | ⟨l, rest⟩⟩
      · exact absurd hidden (by decide)
      · -- the character behind the percent sign is the NUL, which is no digit
        have nul : h = '\x00' := by
          by_contra ne
          by_cases own : h ≠ '%' ∧ h ≠ '+'
          · simp [unescape_percent, unescape_cons own.1 own.2, unescape, Ne.symm ne] at hidden
          · obtain rfl | rfl : h = '%' ∨ h = '+' := by tauto
            all_goals exact absurd hidden (by decide)
        subst nul
        rw [cons_append, unescape_percent]
        · exact before_cons_congr (fun _ => ih (by decide)) hidden
        · rintro h l rest ⟨⟩
          rfl
      · exact (short h l rest rfl rfl).elim
    · rw [unescape_cons hc other] at hidden ⊢
      rw [cons_append, unescape_cons hc other]
      exact before_cons_congr ih hidden

end Sming.Services.WebHelpers
