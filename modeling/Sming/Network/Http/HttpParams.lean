import Sming.Network.Http.HttpBodyParser

/-!
# Printing parameters and reading them back

`HttpParams::printTo` of `Sming/SmingCore/Network/Http/HttpParams.cpp` (`urlencode`) against `formUrlParser`.
The printed text is read pair by pair: `parse_pairs` is about the pairs that a `&` follows,
`parse_last` about the last one, whose value is not read at all if it is empty. That parameter is lost;
`printTo_received_iff` says that it is the only one.
-/

namespace Sming.Network.Http
open Sming.Lib Sming.Wiring Sming.Services.WebHelpers List Option String

/-! ### Pairs of a name and a value -/

/-- A name and a value that can be written as they are: the name ends at the first `=` and the value at the
first `&`. -/
structure Written (p : List Char × List Char) : Prop where
  name : '=' ∉ p.1
  value : '&' ∉ p.2
  nul : '\x00' ∉ p.1 ++ p.2

def pairText (p : List Char × List Char) : List Char := p.1 ++ '=' :: p.2

def rawEntry (p : List Char × List Char) : String × String := (ofList p.1, ofList p.2)

def HttpParams.appendAll (params : HttpParams) (es : List (String × String)) : Option HttpParams :=
  es.foldlM (fun params e => params.append e.1 e.2) params

lemma HttpParams.appendAll_cons (params : HttpParams) (e : String × String) (es : List (String × String)) :
    params.appendAll (e :: es) = (params.append e.1 e.2).bind fun params => params.appendAll es :=
  foldlM_cons ..

variable {es : List (String × String)}

lemma HttpParams.appendAll_eq {l : List (String × String)}
    (distinct : ((l ++ es).map Prod.fst).Nodup) (room : l.length < 2 ^ 16) :
    appendAll ⟨l⟩ es = if (l ++ es).length < 2 ^ 16 then some ⟨l ++ es⟩ else none := by
  induction es generalizing l with
  | nil =>
    rw [append_nil, if_pos room]
    rfl
  | cons e es ih =>
    have absent : e.1 ∉ l.map Prod.fst := by
      rw [map_append, map_cons, nodup_append] at distinct
      intro mem
      exact distinct.2.2 _ mem _ mem_cons_self rfl
    rw [append_cons] at distinct ⊢
    rw [appendAll_cons, append_new absent]
    by_cases more : l.length + 1 < 2 ^ 16
    · rw [if_pos more, bind_some, ih distinct (by simpa using more)]
    · rw [if_neg more, if_neg, bind_none]
      rw [List.length_append, List.length_append, List.length_singleton]
      omega

lemma HttpParams.appendAll_empty (distinct : (es.map Prod.fst).Nodup) :
    appendAll {} es = if es.length < 2 ^ 16 then some ⟨es⟩ else none :=
  appendAll_eq (l := []) distinct (Nat.two_pow_pos 16)

namespace Form

variable {params : HttpParams} {p : List Char × List Char}

lemma parse_pair (written : Written p) (rest : List Char) :
    parse ⟨{}, params⟩ (pairText p ++ '&' :: rest) =
      (params.append (rawEntry p).1 (rawEntry p).2).bind fun params => parse ⟨{}, params⟩ rest := by
  obtain ⟨nul, nul'⟩ := not_or.mp (mem_append.not.mp written.nul)
  rw [pairText, List.append_assoc, cons_append, parse_name written.name, parse_value written.value,
    before_of_not_mem nul, before_of_not_mem nul', empty_append]
  rfl

lemma parse_pairs {ps : List (List Char × List Char)} (written : ∀ p ∈ ps, Written p)
    (params : HttpParams) (rest : List Char) :
    parse ⟨{}, params⟩ ((ps.flatMap fun p => pairText p ++ ['&']) ++ rest) =
      (params.appendAll (ps.map rawEntry)).bind fun params => parse ⟨{}, params⟩ rest := by
  induction ps generalizing params with
  | nil => rfl
  | cons p ps ih =>
    rw [flatMap_cons, List.append_assoc, List.append_assoc, singleton_append,
      parse_pair (written p mem_cons_self), map_cons, HttpParams.appendAll_cons, bind_assoc]
    apply Option.bind_congr
    intro params _
    exact ih (fun p mem => written p (mem_cons_of_mem _ mem)) params

lemma parse_last (written : Written p) :
    (parse ⟨{}, params⟩ (pairText p)).map Form.params =
      if p.2 = [] then some params else params.append (rawEntry p).1 (rawEntry p).2 := by
  obtain ⟨nul, -⟩ := not_or.mp (mem_append.not.mp written.nul)
  split
  case isTrue empty =>
    rw [pairText, parse_name written.name, empty, parse_nil]
    rfl
  case isFalse more =>
    rw [pairText, parse_lastPair written.name written.value more, before_of_not_mem nul, empty_append, Option.map_map]
    exact Option.map_id' ..

end Form

lemma intercalate_concat {α : Type} (f : α → List Char) (ps : List α) (last : α) :
    ['&'].intercalate ((ps ++ [last]).map f) = (ps.flatMap fun p => f p ++ ['&']) ++ f last := by
  induction ps with
  | nil => simp
  | cons p ps ih =>
    obtain ⟨q, qs, cut⟩ := exists_cons_of_ne_nil (concat_ne_nil last ps)
    rw [cons_append, map_cons, cut, map_cons, List.intercalate_cons_cons, ← map_cons,
      ← cut, ih, flatMap_cons, List.append_assoc, List.append_assoc, List.append_assoc]

lemma Form.outcome_pairs {ps : List (List Char × List Char)} {last : List Char × List Char}
    (written : ∀ p ∈ ps ++ [last], Written p) (distinct : (((ps ++ [last]).map rawEntry).map Prod.fst).Nodup)
    (room : (ps ++ [last]).length < 2 ^ 16) :
    outcome (parse {} (['&'].intercalate ((ps ++ [last]).map pairText))) =
      some (HttpParams.unescape ⟨(if last.2 = [] then ps else ps ++ [last]).map rawEntry⟩) := by
  have front : HttpParams.appendAll {} (ps.map rawEntry) = some ⟨ps.map rawEntry⟩ := by
    rw [HttpParams.appendAll_empty, if_pos]
    · rw [List.length_append] at room
      rw [List.length_map]
      omega
    · rw [map_append, map_append, nodup_append] at distinct
      exact distinct.1
  have whole : HttpParams.append ⟨ps.map rawEntry⟩ (rawEntry last).1 (rawEntry last).2 =
      some ⟨(ps ++ [last]).map rawEntry⟩ := by
    rw [map_append] at distinct ⊢
    rw [HttpParams.append_new, if_pos]
    · rfl
    · rwa [List.length_append, ← List.length_map rawEntry] at room
    · intro mem
      rw [map_append, nodup_append] at distinct
      exact distinct.2.2 _ mem _ (mem_singleton_self _) rfl
  rw [intercalate_concat, parse_pairs fun p mem => written p (mem_append_left _ mem), front,
    bind_some, outcome, parse_last (written last (mem_append_right _ (mem_singleton_self _)))]
  split
  · rfl
  · rw [whole]
    rfl

/-! ### The round trip -/

def encoded (e : String × String) : List Char × List Char := ((uriEscape e.1).toList, (uriEscape e.2).toList)

@[simp] lemma encoded_fst (e : String × String) : (encoded e).1 = (uriEscape e.1).toList := by
  rw [encoded]

@[simp] lemma encoded_snd (e : String × String) : (encoded e).2 = (uriEscape e.2).toList := by
  rw [encoded]

lemma toList_urlencode (params : HashMap String String) :
    (urlencode params).toList = ['&'].intercalate ((params.entries.map encoded).map pairText) := by
  rw [urlencode, toList_intercalate, List.map_map, List.map_map]
  have pairs : ∀ e ∈ params.entries,
      (String.toList ∘ fun e => uriEscape e.1 ++ "=" ++ uriEscape e.2) e = (pairText ∘ encoded) e := by
    intro e _
    rw [Function.comp_apply, Function.comp_apply, toList_append, toList_append, pairText,
      encoded_fst, encoded_snd, List.append_assoc]
    rfl
  rw [← map_congr_left pairs]
  rfl

lemma written_encoded {e : String × String} (free : NulFree e.1 ∧ NulFree e.2) : Written (encoded e) where
  name := by
    rw [encoded_fst]
    exact not_mem_uriEscape e.1 (by decide) (by decide)
  value := by
    rw [encoded_snd]
    exact not_mem_uriEscape e.2 (by decide) (by decide)
  nul := by
    rw [mem_append, not_or, encoded_fst, encoded_snd]
    exact ⟨nul_not_mem_uriEscape free.1, nul_not_mem_uriEscape free.2⟩

lemma unescape_encoded (free : ∀ e ∈ es, NulFree e.1 ∧ NulFree e.2) :
    HttpParams.unescape ⟨(es.map encoded).map rawEntry⟩ = ⟨es⟩ := by
  rw [HttpParams.unescape, List.map_map, List.map_map]
  congr 1
  conv_rhs => rw [← List.map_id es]
  apply map_congr_left
  intro e mem
  simp only [Function.comp_apply, rawEntry, encoded_fst, encoded_snd, ofList_toList, id_eq]
  rw [uriUnescape_uriEscape (free e mem).1, uriUnescape_uriEscape (free e mem).2]

lemma nodup_encoded (free : ∀ e ∈ es, NulFree e.1 ∧ NulFree e.2)
    (nodup : (es.map Prod.fst).Nodup) : (((es.map encoded).map rawEntry).map Prod.fst).Nodup := by
  have keys : ((es.map encoded).map rawEntry).map Prod.fst = (es.map Prod.fst).map uriEscape := by
    rw [List.map_map, List.map_map, List.map_map]
    apply map_congr_left
    intro e _
    simp only [Function.comp_apply, rawEntry, encoded_fst, ofList_toList]
  have nul : ∀ key ∈ es.map Prod.fst, NulFree key := by
    intro key mem
    obtain ⟨e, me, rfl⟩ := List.mem_map.mp mem
    exact (free e me).1
  rw [keys]
  refine nodup.map_on ?_
  intro key mem key' mem' same
  rw [← uriUnescape_uriEscape (nul key mem), same, uriUnescape_uriEscape (nul key' mem')]

lemma outcome_printed {last : String × String}
    (free : ∀ e ∈ es ++ [last], NulFree e.1 ∧ NulFree e.2) (nodup : ((es ++ [last]).map Prod.fst).Nodup)
    (small : (es ++ [last]).length < 2 ^ 16) :
    Form.outcome (Form.parse {} (['&'].intercalate (((es ++ [last]).map encoded).map pairText))) =
      some ⟨if last.2 = "" then es else es ++ [last]⟩ := by
  have written : ∀ p ∈ (es ++ [last]).map encoded, Written p := by
    intro p mem
    obtain ⟨e, me, rfl⟩ := List.mem_map.mp mem
    exact written_encoded (free e me)
  have distinct := nodup_encoded free nodup
  have room : ((es ++ [last]).map encoded).length < 2 ^ 16 := by rwa [List.length_map]
  have empty : (encoded last).2 = [] ↔ last.2 = "" := by
    rw [encoded_snd, String.toList_eq_nil_iff, uriEscape_eq_empty_iff]
  rw [map_append, map_singleton] at written distinct room ⊢
  rw [Form.outcome_pairs written distinct room]
  by_cases h : last.2 = ""
  · rw [if_pos h, if_pos (empty.mpr h), unescape_encoded fun e mem => free e (mem_append_left _ mem)]
  · have whole := unescape_encoded free
    rw [map_append, map_singleton] at whole
    rw [if_neg h, if_neg (empty.not.mpr h), whole]

lemma nul_not_mem_urlencode {params : HashMap String String}
    (free : ∀ e ∈ params.entries, NulFree e.1 ∧ NulFree e.2) : '\x00' ∉ (urlencode params).toList := by
  have pieces : ∀ l ∈ (params.entries.map encoded).map pairText, '\x00' ∉ l := by
    intro l mem
    obtain ⟨p, mp, rfl⟩ := List.mem_map.mp mem
    obtain ⟨e, me, rfl⟩ := List.mem_map.mp mp
    have nul := (written_encoded (free e me)).nul
    rw [mem_append, not_or] at nul
    rw [pairText, mem_append, mem_cons, not_or, not_or]
    exact ⟨nul.1, by decide, nul.2⟩
  rw [toList_urlencode]
  generalize (params.entries.map encoded).map pairText = ls at pieces
  induction ls with
  | nil => exact not_mem_nil
  | cons l ls ih =>
    cases ls with
    | nil => simpa using pieces
    | cons l' ls =>
      rw [List.intercalate_cons_cons, mem_append, mem_append, not_or, not_or]
      exact ⟨⟨pieces l mem_cons_self, by decide⟩, ih fun l mem => pieces l (mem_cons_of_mem _ mem)⟩

/-- Parameters that are printed and read back are the same if and only if the last value is not empty. -/
theorem printTo_received_iff {params : HashMap String String} (small : params.count < 2 ^ 16)
    (free : ∀ e ∈ params.entries, NulFree e.1 ∧ NulFree e.2) {chunks : List (List Char)}
    (cut : chunks.flatten = (urlencode params).toList) :
    (∃ ps, received chunks = some ps ∧ ps.entries.Perm params.entries) ↔
      ∀ e, params.entries.getLast? = some e → e.2 ≠ "" := by
  rw [received_flatten (cut ▸ nul_not_mem_urlencode free), received_singleton, cut, toList_urlencode]
  rcases eq_nil_or_concat params.entries with empty | ⟨es, last, entries⟩
  · rw [empty]
    exact ⟨fun _ e h => (by cases h), fun _ => ⟨{}, rfl, List.Perm.nil⟩⟩
  · rw [concat_eq_append] at entries
    have nodup := params.nodup
    rw [HashMap.count] at small
    rw [entries] at small free nodup ⊢
    rw [outcome_printed free nodup small, getLast?_concat]
    constructor
    · rintro ⟨ps, read, perm⟩ e h empty
      cases h
      cases read
      have lengths := perm.length_eq
      rw [if_pos empty] at lengths
      simp at lengths
    · intro full
      exact ⟨_, rfl, by rw [if_neg (full last rfl)]⟩

theorem printTo_received_iff_blank :
    ∃ ps, received [['a', '+'], ['=', '%', '3'], ['d']] = some ps ∧ ps.entries.Perm [("a ", "=")] := by
  let params : HashMap String String := { entries := [("a ", "=")], nodup := nodup_singleton _ }
  have cut : [['a', '+'], ['=', '%', '3'], ['d']].flatten = (urlencode params).toList := by decide +kernel
  have free : ∀ e ∈ params.entries, NulFree e.1 ∧ NulFree e.2 := by
    intro e mem
    rw [mem_singleton.mp mem]
    exact ⟨by decide +kernel, by decide +kernel⟩
  apply (printTo_received_iff (by decide) free cut).mpr
  intro e h
  cases h
  decide

/-- A parameter with an empty value is printed as `a=` and not read. -/
theorem printTo_loses_empty :
    ¬ ∀ (params : HashMap String String) (chunks : List (List Char)), params.count < 2 ^ 16 →
      (∀ e ∈ params.entries, NulFree e.1 ∧ NulFree e.2) → chunks.flatten = (urlencode params).toList →
      ∃ ps, received chunks = some ps ∧ ps.entries.Perm params.entries := by
  intro all
  let params : HashMap String String := { entries := [("a", "")], nodup := nodup_singleton _ }
  have cut : [['a', '=']].flatten = (urlencode params).toList := by
    rw [toList_urlencode]
    simp [params, pairText, uriEscape_eq, escapeChar, mustEscape]
  have free : ∀ e ∈ params.entries, NulFree e.1 ∧ NulFree e.2 := by
    intro e mem
    rw [mem_singleton.mp mem]
    exact ⟨by decide +kernel, by decide +kernel⟩
  obtain ⟨ps, read, perm⟩ := all params [['a', '=']] (by decide) free cut
  have empty : received [['a', '=']] = some {} := by decide +kernel
  rw [empty] at read
  cases read
  exact absurd perm.length_eq (by decide)

end Sming.Network.Http
