import Mathlib.Data.Option.Basic
import Sming.Services.WebHelpers.Escape

/-!
# Form bodies

Embedding of `formUrlParser` of `Sming/SmingCore/Network/Http/HttpBodyParser.cpp`. The parser looks for `=`
and `&` in turn. What stands in front of the one it looks for is appended to the name, or to the value of
the parameter with this name; at the end of the data the unfinished piece is appended as well, and the
search goes on with the next call. The names and values are decoded when the body has ended.

A finished piece is copied by `String::substring`, which stops at a NUL, an unfinished one is copied whole.
So the parameters depend on the cuts only where a NUL stands in an unfinished piece at the end of a call.
-/

namespace Sming.Network.Http
open Sming.Lib Sming.Wiring Sming.Wiring.WString Sming.Services.WebHelpers List Option String

/-- The entries of a parameter map in the order of insertion. The keys are rewritten in
place when they are decoded, so that they need not stay different. -/
structure HttpParams where
  entries : List (String × String) := []
  deriving DecidableEq

def HttpParams.value (params : HttpParams) (key : String) : String :=
  ((params.entries.find? fun e => e.1 == key).map Prod.snd).getD ""

/-- `params[key] += data`; `none` is the creation of the 65536th entry. -/
def HttpParams.append (params : HttpParams) (key data : String) : Option HttpParams :=
  match params.entries.findIdx? fun e => e.1 == key with
  | some i => some ⟨params.entries.modify i fun e => (e.1, e.2 ++ data)⟩
  | none =>
    if params.entries.length + 1 < 2 ^ 16 then some ⟨params.entries ++ [(key, data)]⟩ else none

def HttpParams.unescape (params : HttpParams) : HttpParams :=
  ⟨params.entries.map fun e => (uriUnescape e.1, uriUnescape e.2)⟩

structure FormUrlParserState where
  searchChar : Char := '='
  postName : String := ""
  deriving DecidableEq

structure Form where
  state : FormUrlParserState := {}
  params : HttpParams := {}
  deriving DecidableEq

namespace Form

def keep (f : Form) (data : String) : Option Form :=
  if f.state.searchChar = '=' then some { f with state.postName := f.state.postName ++ data }
  else (f.params.append f.state.postName data).map fun params => { f with params }

def finish (f : Form) (buf : String) : Option Form :=
  if f.state.searchChar = '=' then
    some { f with state := { searchChar := '&', postName := f.state.postName ++ buf } }
  else
    (f.params.append f.state.postName buf).map fun params =>
      { state := { searchChar := '=', postName := "" }, params }

/-- The loop over the data. A turn takes at least one character away, so that the length of the data is
enough `fuel`. -/
def parseData : Nat → Form → String → Option Form
  | 0, f, _ => some f
  | fuel + 1, f, text =>
    if text.length = 0 then some f
    else
      match indexOf text f.state.searchChar 0 with
      | none => f.keep text
      | some pos =>
        (f.finish (substring text 0 pos)).bind fun f => parseData fuel f (remove text 0 (pos + 1))

def parse (f : Form) (data : List Char) : Option Form := parseData data.length f (ofList data)

end Form

structure FormRequest where
  args : Option FormUrlParserState := none
  postParams : HttpParams := {}
  deriving DecidableEq

/-- The calls of the parser; the start and the end are told by a negative length. -/
inductive ParseCall where
  | dataStart
  | dataEnd
  | data (text : List Char)

def formUrlParser (request : FormRequest) : ParseCall → Option FormRequest
  | .dataStart => some { request with args := some {} }
  | .dataEnd => some { args := none, postParams := request.postParams.unescape }
  | .data text =>
    match request.args with
    | none => some request
    | some state =>
      (Form.parse { state, params := request.postParams } text).map fun f =>
        { args := some f.state, postParams := f.params }

def received (chunks : List (List Char)) : Option HttpParams :=
  let calls := ParseCall.dataStart :: chunks.map ParseCall.data ++ [ParseCall.dataEnd]
  (calls.foldlM formUrlParser {}).map FormRequest.postParams

/-! ### Appending to a value -/

namespace HttpParams

variable {front back : List (String × String)} {key v : String} {l : List (String × String)}

lemma exists_entry (mem : key ∈ l.map Prod.fst) :
    ∃ front v back, l = front ++ (key, v) :: back ∧ key ∉ front.map Prod.fst := by
  induction l with
  | nil => cases mem
  | cons e l ih =>
    by_cases same : e.1 = key
    · exact ⟨[], e.2, l, by rw [← same]; rfl, not_mem_nil⟩
    · rw [map_cons, mem_cons] at mem
      obtain ⟨front, v, back, rfl, absent⟩ := ih (mem.resolve_left (Ne.symm same))
      refine ⟨e :: front, v, back, rfl, ?_⟩
      rw [map_cons, mem_cons, not_or]
      exact ⟨Ne.symm same, absent⟩

lemma findIdx?_of_not_mem (absent : key ∉ front.map Prod.fst) : (front.findIdx? fun e => e.1 == key) = none := by
  rw [findIdx?_eq_none_iff]
  intro e mem
  apply beq_false_of_ne
  rintro rfl
  exact absent (List.mem_map_of_mem mem)

lemma append_entry (absent : key ∉ front.map Prod.fst) (a : String) :
    append ⟨front ++ (key, v) :: back⟩ key a = some ⟨front ++ (key, v ++ a) :: back⟩ := by
  have found : ((front ++ (key, v) :: back).findIdx? fun e => e.1 == key) = some front.length := by
    rw [findIdx?_append, findIdx?_of_not_mem absent, findIdx?_cons, BEq.rfl, if_pos rfl]
    simp
  rw [append]
  simp only
  rw [found]
  simp [modify_eq_take_drop]

lemma append_new (absent : key ∉ l.map Prod.fst) (a : String) :
    append ⟨l⟩ key a = if l.length + 1 < 2 ^ 16 then some ⟨l ++ [(key, a)]⟩ else none := by
  rw [append]
  simp only
  rw [findIdx?_of_not_mem absent]

lemma find?_of_not_mem (absent : key ∉ front.map Prod.fst) : (front.find? fun e => e.1 == key) = none := by
  rw [find?_eq_none]
  intro e mem same
  exact absent (eq_of_beq same ▸ List.mem_map_of_mem mem)

lemma value_entry (absent : key ∉ front.map Prod.fst) : value ⟨front ++ (key, v) :: back⟩ key = v := by
  rw [value, find?_append, find?_of_not_mem absent, none_or, find?_cons_of_pos (by simp)]
  rfl

lemma exists_slot (params : HttpParams) (key : String) :
    ∃ front back, key ∉ front.map Prod.fst ∧ (params.entries = front ++ (key, params.value key) :: back ∨
        params.entries = front ∧ back = [] ∧ params.value key = "") ∧
      ∀ a, params.append key a =
        if key ∈ params.entries.map Prod.fst ∨ params.entries.length + 1 < 2 ^ 16 then
          some ⟨front ++ (key, params.value key ++ a) :: back⟩ else none := by
  obtain ⟨l⟩ := params
  by_cases mem : key ∈ l.map Prod.fst
  · obtain ⟨front, v, back, rfl, absent⟩ := exists_entry mem
    refine ⟨front, back, absent, ?_⟩
    rw [value_entry absent]
    exact ⟨.inl rfl, fun a => (append_entry absent a).trans (if_pos (.inl mem)).symm⟩
  · have none : value ⟨l⟩ key = "" := by
      rw [value, find?_of_not_mem mem]
      rfl
    refine ⟨l, [], mem, .inr ⟨rfl, rfl, none⟩, fun a => ?_⟩
    simp only [append_new mem, none, empty_append, mem, false_or]

lemma append_append (params : HttpParams) (key a b : String) :
    ((params.append key a).bind fun params => params.append key b) = params.append key (a ++ b) := by
  obtain ⟨front, back, absent, -, append⟩ := params.exists_slot key
  rw [append, append]
  split
  case isTrue => rw [bind_some, append_entry absent, String.append_assoc]
  case isFalse => rfl

end HttpParams

variable {data buf : String} {sep : Char} {s : Char × List Char}

namespace Form

variable {f g : Form} {cs rest : List Char}

/-! ### The pieces of the data -/

/-- Data is one unfinished piece, or a piece, the separator that is looked for, and more data. -/
@[elab_as_elim]
lemma piecesInduction {motive : Form → List Char → Prop} (open_ : ∀ f cs, f.state.searchChar ∉ cs → motive f cs)
    (piece : ∀ f cs rest, f.state.searchChar ∉ cs → (∀ g, motive g rest) →
      motive f (cs ++ f.state.searchChar :: rest)) (f : Form) (cs : List Char) : motive f cs := by
  induction length : cs.length using Nat.strong_induction_on generalizing f cs with
  | _ n ih =>
    by_cases mem : f.state.searchChar ∈ cs
    · obtain ⟨rest, cut⟩ := exists_before_append mem
      have shorter : rest.length < n := by
        rw [cut, List.length_append, length_cons] at length
        omega
      rw [cut]
      exact piece f _ rest (not_mem_before _ _) fun g => ih _ shorter g rest rfl
    · exact open_ f cs mem

lemma parseData_open (fuel : Nat) (absent : f.state.searchChar ∉ cs) (ne : cs ≠ []) :
    parseData (fuel + 1) f (ofList cs) = f.keep (ofList cs) := by
  have some : (ofList cs).length ≠ 0 := by
    rw [length_ofList]
    exact fun zero => ne (List.length_eq_zero_iff.mp zero)
  rw [parseData, if_neg some, indexOf_eq, drop_zero, if_neg absent]

lemma parseData_piece (fuel : Nat) (absent : f.state.searchChar ∉ cs) :
    parseData (fuel + 1) f (ofList (cs ++ f.state.searchChar :: rest)) =
      (f.finish (ofList (before '\x00' cs))).bind fun f => parseData fuel f (ofList rest) := by
  have some : (ofList (cs ++ f.state.searchChar :: rest)).length ≠ 0 := by
    rw [length_ofList, List.length_append]
    exact Nat.succ_ne_zero _
  have piece : substring (ofList (cs ++ f.state.searchChar :: rest)) 0 cs.length =
      ofList (before '\x00' cs) := by
    have copy := substring_eq (cs ++ f.state.searchChar :: rest) 0 cs.length
    rwa [Nat.zero_add, drop_zero, take_left] at copy
  have tail : remove (ofList (cs ++ f.state.searchChar :: rest)) 0 (cs.length + 1) = ofList rest := by
    rw [remove, toList_ofList, take_zero, nil_append, Nat.zero_add, drop_length_add_append, drop_one, tail_cons]
  rw [parseData, if_neg some, indexOf_eq, drop_zero,
    if_pos (mem_append_right _ mem_cons_self), before_append_cons absent]
  simp only [Nat.add_zero]
  rw [piece, tail]

lemma parseData_fuel (f : Form) (cs : List Char) {fuel : Nat} (enough : cs.length ≤ fuel) :
    parseData fuel f (ofList cs) = f.parse cs := by
  induction f, cs using piecesInduction generalizing fuel with
  | open_ f cs absent =>
    cases cs with
    | nil =>
      cases fuel with
      | zero => rfl
      | succ fuel => rfl
    | cons c cs =>
      obtain ⟨fuel, rfl⟩ := Nat.exists_eq_add_of_le' (Nat.le_trans (Nat.le_add_left 1 _) enough)
      rw [parse, length_cons, parseData_open _ absent (cons_ne_nil _ _), parseData_open _ absent (cons_ne_nil _ _)]
  | piece f cs rest absent ih =>
    have length : (cs ++ f.state.searchChar :: rest).length = cs.length + rest.length + 1 := by
      rw [List.length_append, length_cons, Nat.add_assoc]
    rw [length] at enough
    obtain ⟨fuel, rfl⟩ := Nat.exists_eq_add_of_le' (Nat.le_trans (Nat.le_add_left 1 _) enough)
    rw [parse, length, parseData_piece _ absent, parseData_piece _ absent]
    congr 1
    funext g
    rw [ih g (by omega), ih g (by omega)]

lemma parse_nil (f : Form) : f.parse [] = some f := rfl

lemma parse_open (absent : f.state.searchChar ∉ cs) (ne : cs ≠ []) : f.parse cs = f.keep (ofList cs) := by
  rw [← parseData_fuel f cs (Nat.le_succ _), parseData_open _ absent ne]

lemma parse_piece (absent : f.state.searchChar ∉ cs) (rest : List Char) :
    f.parse (cs ++ f.state.searchChar :: rest) =
      (f.finish (ofList (before '\x00' cs))).bind fun f => f.parse rest := by
  rw [← parseData_fuel f _ (Nat.le_succ _), parseData_piece _ absent]
  congr 1
  funext g
  rw [parseData_fuel]
  rw [List.length_append, length_cons]
  omega

variable {name : String} {params : HttpParams}

lemma parse_name (absent : '=' ∉ cs) (rest : List Char) :
    parse ⟨⟨'=', name⟩, params⟩ (cs ++ '=' :: rest) =
      parse ⟨⟨'&', name ++ ofList (before '\x00' cs)⟩, params⟩ rest :=
  parse_piece (f := ⟨⟨'=', name⟩, params⟩) absent rest

lemma parse_value (absent : '&' ∉ cs) (rest : List Char) :
    parse ⟨⟨'&', name⟩, params⟩ (cs ++ '&' :: rest) =
      (params.append name (ofList (before '\x00' cs))).bind fun params =>
        parse ⟨{}, params⟩ rest := by
  rw [parse_piece (f := ⟨⟨'&', name⟩, params⟩) absent rest]
  exact bind_map ..

lemma parse_lastValue (absent : '&' ∉ cs) (ne : cs ≠ []) :
    parse ⟨⟨'&', name⟩, params⟩ cs = (params.append name (ofList cs)).map fun params => ⟨⟨'&', name⟩, params⟩ :=
  parse_open (f := ⟨⟨'&', name⟩, params⟩) absent ne

lemma parse_lastPair {vs : List Char} (absent : '=' ∉ cs) (absent' : '&' ∉ vs) (ne : vs ≠ []) :
    parse ⟨⟨'=', name⟩, params⟩ (cs ++ '=' :: vs) =
      (params.append (name ++ ofList (before '\x00' cs)) (ofList vs)).map fun params =>
        ⟨⟨'&', name ++ ofList (before '\x00' cs)⟩, params⟩ := by
  rw [parse_name absent, parse_lastValue absent' ne]

/-! ### Cuts without a NUL in the unfinished piece -/

lemma keep_searchChar (h : f.keep data = some g) : g.state.searchChar = f.state.searchChar := by
  rw [keep] at h
  split at h
  case isTrue =>
    cases h
    rfl
  case isFalse =>
    obtain ⟨params, -, rfl⟩ := map_eq_some_iff.mp h
    rfl

def other (c : Char) : Char := if c = '=' then '&' else '='

lemma finish_searchChar (h : f.finish buf = some g) : g.state.searchChar = other f.state.searchChar := by
  rw [finish] at h
  split at h
  case isTrue name =>
    cases h
    rw [other, if_pos name]
  case isFalse name =>
    obtain ⟨params, -, rfl⟩ := map_eq_some_iff.mp h
    rw [other, if_neg name]

lemma keep_keep (f : Form) (a b : String) : ((f.keep a).bind fun f => f.keep b) = f.keep (a ++ b) := by
  by_cases name : f.state.searchChar = '='
  · simp only [keep, if_pos name, bind_some, String.append_assoc]
  · simp only [keep, if_neg name]
    rw [← HttpParams.append_append, Option.map_bind, bind_map]
    congr 1
    funext params
    exact if_neg name

lemma keep_finish (f : Form) (a b : String) : ((f.keep a).bind fun f => f.finish b) = f.finish (a ++ b) := by
  by_cases name : f.state.searchChar = '='
  · simp only [keep, finish, if_pos name, bind_some, String.append_assoc]
  · simp only [keep, finish, if_neg name]
    rw [← HttpParams.append_append, Option.map_bind, bind_map]
    congr 1
    funext params
    exact if_neg name

section Cut

variable {piece : List Char} (absent : f.state.searchChar ∉ piece) (ne : piece ≠ [])

include absent ne

lemma parse_cut_piece {more : List Char} (absent' : f.state.searchChar ∉ more) (rest : List Char) :
    ((f.parse piece).bind fun g => g.parse (more ++ f.state.searchChar :: rest)) =
      (f.finish (ofList piece ++ ofList (before '\x00' more))).bind fun g => g.parse rest := by
  rw [parse_open absent ne, ← keep_finish, bind_assoc]
  apply Option.bind_congr
  intro g hg
  rw [← keep_searchChar hg] at absent' ⊢
  rw [parse_piece absent']

lemma parse_cut_open (absent' : f.state.searchChar ∉ rest) :
    ((f.parse piece).bind fun g => g.parse rest) = f.parse (piece ++ rest) := by
  by_cases last : rest = []
  · rw [last, append_nil]
    exact bind_fun_some _
  · rw [parse_open absent ne, parse_open (not_mem_append absent absent') (append_ne_nil_of_left_ne_nil ne _),
      ofList_append, ← keep_keep]
    apply Option.bind_congr
    intro g hg
    rw [← keep_searchChar hg] at absent'
    rw [parse_open absent' last]

end Cut

lemma parse_open_append {piece : List Char} (absent : f.state.searchChar ∉ piece)
    (nul : '\x00' ∉ piece) (rest : List Char) :
    f.parse (piece ++ rest) = (f.parse piece).bind fun f => f.parse rest := by
  by_cases empty : piece = []
  · rw [empty, nil_append, parse_nil, bind_some]
  by_cases mem : f.state.searchChar ∈ rest
  · obtain ⟨rest', cut⟩ := exists_before_append mem
    have absent' := not_mem_before f.state.searchChar rest
    rw [cut, parse_cut_piece absent empty absent', ← List.append_assoc, parse_piece (not_mem_append absent absent'),
      before_append_of_not_mem nul, ofList_append]
  · exact (parse_cut_open absent empty mem).symm

end Form

/-- The separator that is looked for, with the characters since the last one that was found. -/
def scanChar (s : Char × List Char) (c : Char) : Char × List Char :=
  if c = s.1 then (Form.other s.1, []) else (s.1, s.2 ++ [c])

/-- The name or value that is unfinished at the end of a body that begins with `front`. -/
def unfinished (front : List Char) : List Char := (front.foldl scanChar ('=', [])).2

lemma foldl_scanChar_open {cs : List Char} (absent : sep ∉ cs) (piece : List Char) :
    cs.foldl scanChar (sep, piece) = (sep, piece ++ cs) := by
  induction cs generalizing piece with
  | nil => rw [foldl_nil, append_nil]
  | cons c cs ih =>
    rw [mem_cons, not_or] at absent
    rw [foldl_cons, scanChar, if_neg (Ne.symm absent.1), ih absent.2, List.append_assoc, singleton_append]

lemma foldl_scanChar_piece {cs : List Char} (absent : sep ∉ cs) (rest : List Char) :
    (cs ++ sep :: rest).foldl scanChar (sep, []) = rest.foldl scanChar (Form.other sep, []) := by
  rw [foldl_append, foldl_scanChar_open absent, foldl_cons, scanChar, if_pos rfl]

lemma not_mem_foldl_scanChar (absent : s.1 ∉ s.2) (cs : List Char) :
    (cs.foldl scanChar s).1 ∉ (cs.foldl scanChar s).2 := by
  induction cs generalizing s with
  | nil => exact absent
  | cons c cs ih =>
    rw [foldl_cons]
    apply ih
    rw [scanChar]
    split
    case isTrue => exact not_mem_nil
    case isFalse ne =>
      rw [mem_append, mem_singleton, not_or]
      exact ⟨absent, Ne.symm ne⟩

def NulFree (s : String) : Prop := '\x00' ∉ s.toList

instance (s : String) : Decidable (NulFree s) := inferInstanceAs (Decidable (_ ∉ _))

lemma NulFree.append {s t : String} (hs : NulFree s) (ht : NulFree t) : NulFree (s ++ t) := by
  rw [NulFree, toList_append, mem_append, not_or]
  exact ⟨hs, ht⟩

lemma nulFree_before (cs : List Char) : NulFree (ofList (before '\x00' cs)) := by
  rw [NulFree, toList_ofList]
  exact not_mem_before _ _

namespace Form

/-- A form between two pieces of a body that came in one chunk: names and values have lost their NULs. -/
structure Tidy (f : Form) : Prop where
  search : f.state.searchChar = '=' ∧ f.state.postName = "" ∨ f.state.searchChar = '&'
  name : NulFree f.state.postName
  equals : '=' ∉ f.state.postName.toList
  keys : ∀ e ∈ f.params.entries, NulFree e.1
  values : ∀ e ∈ f.params.entries, NulFree e.2

lemma tidy_new : Tidy {} where
  search := .inl ⟨rfl, rfl⟩
  name := not_mem_nil
  equals := not_mem_nil
  keys _ mem := (not_mem_nil mem).elim
  values _ mem := (not_mem_nil mem).elim

end Form

lemma HttpParams.forall_append {params params' : HttpParams} {key a : String}
    {P : String × String → Prop} (h : params.append key a = some params')
    (old : ∀ e ∈ params.entries, P e) (grown : ∀ v, P (key, v) → P (key, v ++ a)) (new : P (key, a)) :
    ∀ e ∈ params'.entries, P e := by
  obtain ⟨front, back, -, slot, append⟩ := params.exists_slot key
  rw [append, ite_none_right_eq_some] at h
  cases h.2
  rw [forall_mem_append, forall_mem_cons]
  rcases slot with cut | ⟨rfl, rfl, empty⟩
  · rw [cut, forall_mem_append, forall_mem_cons] at old
    exact ⟨old.1, grown _ old.2.1, old.2.2⟩
  · rw [empty, empty_append]
    exact ⟨old, new, nofun⟩

lemma HttpParams.length_append {params params' : HttpParams} {key a : String}
    (h : params.append key a = some params') : params'.entries.length ≤ params.entries.length + 1 := by
  obtain ⟨front, back, -, slot, append⟩ := params.exists_slot key
  rw [append, ite_none_right_eq_some] at h
  cases h.2
  rcases slot with cut | ⟨rfl, rfl, -⟩
  · rw [cut]
    simp
  · simp

lemma HttpParams.append_room {params : HttpParams} (room : params.entries.length + 1 < 2 ^ 16)
    (key a : String) : ∃ params', params.append key a = some params' := by
  obtain ⟨front, back, -, -, append⟩ := params.exists_slot key
  exact ⟨_, (append a).trans (if_pos (.inr room))⟩

namespace Form

variable {f g : Form}

lemma Tidy.finish (tidy : f.Tidy) {cs : List Char} (absent : f.state.searchChar ∉ cs)
    (h : f.finish (ofList (before '\x00' cs)) = some g) : g.Tidy := by
  rw [Form.finish] at h
  split at h
  case isTrue name =>
    cases h
    refine ⟨.inr rfl, tidy.name.append (nulFree_before cs), ?_, tidy.keys, tidy.values⟩
    rw [toList_append, toList_ofList, mem_append, not_or]
    rw [name] at absent
    exact ⟨tidy.equals, fun mem => absent (mem_of_mem_before mem)⟩
  case isFalse name =>
    obtain ⟨params, ha, rfl⟩ := map_eq_some_iff.mp h
    refine ⟨.inl ⟨rfl, rfl⟩, not_mem_nil, not_mem_nil, ?_, ?_⟩
    · exact HttpParams.forall_append ha tidy.keys (fun _ h => h) tidy.name
    · exact HttpParams.forall_append ha tidy.values (fun _ h => h.append (nulFree_before cs))
        (nulFree_before cs)

lemma Tidy.finish_length (tidy : f.Tidy) (h : f.finish buf = some g) :
    g.params.entries.length ≤ f.params.entries.length + [f.state.searchChar].count '&' := by
  rw [Form.finish] at h
  split at h
  case isTrue =>
    cases h
    exact Nat.le_add_right _ _
  case isFalse name =>
    obtain ⟨params, ha, rfl⟩ := map_eq_some_iff.mp h
    have search := tidy.search.resolve_left fun s => name s.1
    rw [search]
    exact HttpParams.length_append ha

lemma Tidy.finish_room (tidy : f.Tidy)
    (room : f.params.entries.length + [f.state.searchChar].count '&' < 2 ^ 16) (buf : String) :
    ∃ g, f.finish buf = some g := by
  rw [Form.finish]
  split
  case isTrue => exact ⟨_, rfl⟩
  case isFalse name =>
    have search := tidy.search.resolve_left fun s => name s.1
    rw [search] at room
    obtain ⟨params, ha⟩ := HttpParams.append_room room f.state.postName buf
    exact ⟨_, by rw [ha, map_some]⟩

lemma Tidy.split (tidy : f.Tidy) (front : List Char) :
    ∃ s : Option Form, (∀ rest, f.parse (front ++ rest) =
        s.bind fun g => g.parse ((front.foldl scanChar (f.state.searchChar, [])).2 ++ rest)) ∧
      (∀ g, s = some g → g.Tidy ∧ g.state.searchChar = (front.foldl scanChar (f.state.searchChar, [])).1) ∧
      (f.params.entries.length + front.count '&' < 2 ^ 16 →
        ∃ g, s = some g ∧ g.params.entries.length ≤ f.params.entries.length + front.count '&') := by
  induction f, front using piecesInduction with
  | open_ f piece absent =>
    rw [foldl_scanChar_open absent]
    refine ⟨some f, fun rest => rfl, ?_, ?_⟩
    · intro g h
      cases h
      exact ⟨tidy, rfl⟩
    · exact fun _ => ⟨f, rfl, Nat.le_add_right _ _⟩
  | piece f piece rest absent ih =>
    rw [foldl_scanChar_piece absent]
    have count : (piece ++ f.state.searchChar :: rest).count '&' =
        piece.count '&' + [f.state.searchChar].count '&' + rest.count '&' := by
      rw [count_append, ← singleton_append, count_append, Nat.add_assoc]
    cases hg : f.finish (ofList (before '\x00' piece)) with
    | none =>
      refine ⟨none, ?_, fun _ h => (by cases h), ?_⟩
      · intro more
        rw [List.append_assoc, cons_append, parse_piece absent, hg]
        rfl
      · intro few
        obtain ⟨g, hg'⟩ := tidy.finish_room (by omega) (ofList (before '\x00' piece))
        rw [hg] at hg'
        cases hg'
    | some g =>
      obtain ⟨s, parse, known, room⟩ := ih g (tidy.finish absent hg)
      rw [finish_searchChar hg] at parse known
      have length := tidy.finish_length hg
      refine ⟨s, ?_, known, ?_⟩
      · intro more
        rw [List.append_assoc, cons_append, parse_piece absent, hg, bind_some, parse]
      · intro few
        obtain ⟨g', hs, le⟩ := room (by omega)
        exact ⟨g', hs, by omega⟩

end Form

/-! ### What can be seen in the end -/

namespace HttpParams

variable {front back : List (String × String)} {params params' : HttpParams} {key v a b : String}

/-- What an entry becomes in the end, whatever is still appended to its value. -/
def prospect (e : String × String) : String × (String → String) :=
  (e.1, fun more => uriUnescape (e.2 ++ more))

lemma value_append (h : params.append key a = some params') : params'.value key = params.value key ++ a := by
  obtain ⟨front, back, absent, -, append⟩ := params.exists_slot key
  rw [append, ite_none_right_eq_some] at h
  cases h.2
  exact value_entry absent

lemma append_prospect (same : params.entries.map prospect = params'.entries.map prospect) (key a : String) :
    ((params.append key a).map fun p => p.entries.map prospect) =
      (params'.append key a).map fun p => p.entries.map prospect := by
  obtain ⟨l⟩ := params
  obtain ⟨l'⟩ := params'
  dsimp only at same
  have keys : ∀ l : List (String × String), l.map Prod.fst = (l.map prospect).map Prod.fst := by
    intro l
    rw [List.map_map]
    rfl
  by_cases mem : key ∈ l.map Prod.fst
  · obtain ⟨front, v, back, rfl, absent⟩ := exists_entry mem
    rw [map_append, map_cons] at same
    obtain ⟨front', rest', rfl, same₁, same₂⟩ := map_eq_append_iff.mp same.symm
    obtain ⟨e', back', rfl, same₃, same₄⟩ := map_eq_cons_iff.mp same₂
    obtain ⟨key', v'⟩ := e'
    obtain ⟨rfl, grow⟩ := Prod.mk.inj same₃
    have absent' : key' ∉ front'.map Prod.fst := by rwa [keys, same₁, ← keys]
    rw [append_entry absent, append_entry absent']
    have grown : prospect (key', v ++ a) = prospect (key', v' ++ a) := by
      refine Prod.ext rfl (funext fun more => ?_)
      have later := congrFun grow (a ++ more)
      rw [← String.append_assoc, ← String.append_assoc] at later
      exact later.symm
    simp only [map_some, map_append, map_cons, same₁, same₄, grown]
  · have length : l.length = l'.length := by
      have := congrArg List.length same
      rwa [List.length_map, List.length_map] at this
    have mem' : key ∉ l'.map Prod.fst := by rwa [keys, ← same, ← keys]
    rw [append_new mem, append_new mem', length]
    split
    case isTrue => simp only [map_some, map_append, same]
    case isFalse => rfl

lemma append_hidden (hidden : '\x00' ∈ Services.WebHelpers.unescape (params.value key ++ a).toList) (b : String) :
    ((params.append key a).map fun p => p.entries.map prospect) =
      (params.append key (a ++ b)).map fun p => p.entries.map prospect := by
  have grown : prospect (key, params.value key ++ a) = prospect (key, params.value key ++ (a ++ b)) := by
    refine Prod.ext rfl (funext fun more => ?_)
    have behind : params.value key ++ (a ++ b) ++ more = params.value key ++ a ++ (b ++ more) := by
      simp only [String.append_assoc]
    simp only [prospect]
    rw [behind, uriUnescape, uriUnescape, toList_append, toList_append (s := params.value key ++ a),
      before_unescape_append hidden, before_unescape_append hidden]
  obtain ⟨front, back, -, -, append⟩ := params.exists_slot key
  rw [append, append]
  split
  case isTrue => simp only [map_some, map_append, map_cons, grown]
  case isFalse => rfl

end HttpParams

namespace Form

variable {f g : Form} {cs : List Char}

def prospect (f : Form) : FormUrlParserState × List (String × (String → String)) :=
  (f.state, f.params.entries.map HttpParams.prospect)

def outcome (s : Option Form) : Option HttpParams := (s.map Form.params).map HttpParams.unescape

variable {x y : Option Form}

lemma outcome_of_prospect (same : x.map prospect = y.map prospect) : outcome x = outcome y := by
  have seen : ∀ s : Option Form, outcome s = (s.map prospect).map fun p =>
      ⟨p.2.map fun e => (uriUnescape e.1, e.2 "")⟩ := by
    intro s
    cases s with
    | none => rfl
    | some f => simp [outcome, prospect, HttpParams.unescape, HttpParams.prospect]
  rw [seen, seen, same]

lemma map_prospect {x y : Option HttpParams} (state : FormUrlParserState)
    (same : (x.map fun p => p.entries.map HttpParams.prospect) = y.map fun p => p.entries.map HttpParams.prospect) :
    (x.map (Form.mk state)).map prospect = (y.map (Form.mk state)).map prospect := by
  have both := congrArg (Option.map fun l => (state, l)) same
  rw [Option.map_map, Option.map_map] at both ⊢
  exact both

lemma keep_prospect (same : f.prospect = g.prospect) (data : String) :
    (f.keep data).map prospect = (g.keep data).map prospect := by
  obtain ⟨state, params⟩ := Prod.mk.inj same
  rw [keep, keep, state]
  split
  case isTrue => simp only [map_some, prospect, params]
  case isFalse => exact map_prospect _ (HttpParams.append_prospect params _ data)

lemma finish_prospect (same : f.prospect = g.prospect) (buf : String) :
    (f.finish buf).map prospect = (g.finish buf).map prospect := by
  obtain ⟨state, params⟩ := Prod.mk.inj same
  rw [finish, finish, state]
  split
  case isTrue => simp only [map_some, prospect, params]
  case isFalse => exact map_prospect _ (HttpParams.append_prospect params _ buf)

lemma bind_prospect {next : Form → Option Form} (same : x.map prospect = y.map prospect)
    (step : ∀ {f g : Form}, f.prospect = g.prospect → (next f).map prospect = (next g).map prospect) :
    (x.bind next).map prospect = (y.bind next).map prospect := by
  cases x with
  | none =>
    cases y with
    | none => rfl
    | some g => cases same
  | some f =>
    cases y with
    | none => cases same
    | some g => exact step (Option.some.inj same)

lemma parse_prospect (same : f.prospect = g.prospect) (cs : List Char) :
    (f.parse cs).map prospect = (g.parse cs).map prospect := by
  induction f, cs using piecesInduction generalizing g with
  | open_ f cs absent =>
    by_cases empty : cs = []
    · rw [empty]
      exact congrArg some same
    · have absent' : g.state.searchChar ∉ cs := (Prod.mk.inj same).1 ▸ absent
      rw [parse_open absent empty, parse_open absent' empty]
      exact keep_prospect same _
  | piece f cs rest absent ih =>
    have search : g.state.searchChar = f.state.searchChar := by rw [(Prod.mk.inj same).1]
    rw [parse_piece absent]
    rw [← search] at absent ⊢
    rw [parse_piece absent]
    exact bind_prospect (finish_prospect same _) fun same' => ih _ same'

end Form

/-! ### Cuts that cannot be seen -/

/-- The unfinished value follows a decoded NUL, so that nothing is seen of it. -/
def Hidden (front : List Char) : Prop :=
  ∃ f, Form.parse {} front = some f ∧ f.state.searchChar = '&' ∧
    '\x00' ∈ unescape (before '\x00' (f.params.value f.state.postName).toList)

def Clean (front : List Char) : Prop := '\x00' ∉ unfinished front ∨ Hidden front

namespace Form

variable {f g : Form}

lemma parse_hidden_append {piece : List Char} (value : f.state.searchChar ≠ '=')
    (absent : f.state.searchChar ∉ piece) (nul : '\x00' ∈ piece) (hidden : '\x00' ∈ unescape
      (f.params.value f.state.postName ++ ofList (before '\x00' piece)).toList) (rest : List Char) :
    ((f.parse piece).bind fun f => f.parse rest).map prospect = (f.parse (piece ++ rest)).map prospect := by
  have ne : piece ≠ [] := ne_nil_of_mem nul
  by_cases mem : f.state.searchChar ∈ rest
  · obtain ⟨rest', cut⟩ := exists_before_append mem
    have absent' := not_mem_before f.state.searchChar rest
    -- with the cut the whole piece is appended, without it the part in front of the NUL
    rw [cut, parse_cut_piece absent ne absent', ← List.append_assoc, parse_piece (not_mem_append absent absent'),
      before_append_of_mem nul]
    refine bind_prospect ?_ fun same => parse_prospect same rest'
    obtain ⟨tail, parts⟩ := exists_before_append nul
    have longer := HttpParams.append_hidden hidden
      (ofList ('\x00' :: tail) ++ ofList (before '\x00' (before f.state.searchChar rest)))
    rw [← String.append_assoc, ← ofList_append, ← parts] at longer
    rw [finish, finish, if_neg value, if_neg value]
    exact map_prospect _ longer.symm
  · rw [parse_cut_open absent ne mem]

lemma keep_value (value : f.state.searchChar ≠ '=') (h : f.keep data = some g) :
    g.state = f.state ∧
      g.params.value g.state.postName = f.params.value f.state.postName ++ data := by
  rw [keep, if_neg value] at h
  obtain ⟨params, appended, rfl⟩ := map_eq_some_iff.mp h
  exact ⟨rfl, HttpParams.value_append appended⟩

lemma Tidy.value (tidy : f.Tidy) (key : String) : NulFree (f.params.value key) := by
  rw [HttpParams.value]
  cases found : f.params.entries.find? fun e => e.1 == key with
  | none => exact not_mem_nil
  | some e => exact tidy.values e (mem_of_find?_eq_some found)

lemma Tidy.before_value (tidy : f.Tidy) {piece : List Char} (value : f.state.searchChar ≠ '=')
    (h : f.keep (ofList piece) = some g) :
    before '\x00' (g.params.value g.state.postName).toList =
      (f.params.value f.state.postName ++ ofList (before '\x00' piece)).toList := by
  rw [(keep_value value h).2, toList_append, toList_ofList,
    before_append_of_not_mem (tidy.value _), toList_append, toList_ofList]

lemma parse_append {front : List Char} (clean : Clean front) (rest : List Char) :
    ((parse {} front).bind fun f => f.parse rest).map prospect = (parse {} (front ++ rest)).map prospect := by
  obtain ⟨s, split, known, -⟩ := tidy_new.split front
  have whole := split []
  rw [append_nil, append_nil] at whole
  cases s with
  | none =>
    rw [split, whole]
    rfl
  | some g =>
    obtain ⟨tidy, search⟩ := known g rfl
    have absent : g.state.searchChar ∉ unfinished front := by
      rw [search]
      exact not_mem_foldl_scanChar not_mem_nil front
    change parse {} front = g.parse (unfinished front) at whole
    have both : parse {} (front ++ rest) = g.parse (unfinished front ++ rest) := split rest
    rw [whole, both]
    by_cases nul : '\x00' ∈ unfinished front
    · obtain ⟨f, hf, value, hidden⟩ := clean.resolve_left fun h => h nul
      have kept : g.keep (ofList (unfinished front)) = some f := by
        rw [← parse_open absent (ne_nil_of_mem nul), ← whole, hf]
      have value : g.state.searchChar ≠ '=' := by
        rw [← keep_searchChar kept, value]
        decide
      rw [tidy.before_value value kept] at hidden
      exact parse_hidden_append value absent nul hidden rest
    · rw [parse_open_append absent nul]

end Form

/-! ### Cuts that can be seen -/

lemma HttpParams.value_of_unescape {params pa pb : HttpParams} {key a b : String}
    (ha : params.append key a = some pa) (hb : params.append key b = some pb) (same : pa.unescape = pb.unescape) :
    uriUnescape (params.value key ++ a) = uriUnescape (params.value key ++ b) := by
  obtain ⟨front, back, -, -, append⟩ := params.exists_slot key
  rw [append, ite_none_right_eq_some] at ha hb
  cases ha.2
  cases hb.2
  have entries := congrArg HttpParams.entries same
  simp only [unescape, map_append, map_cons, append_cancel_left_eq,
    List.cons.injEq, Prod.mk.injEq, true_and, and_true] at entries
  exact entries

lemma uriUnescape_nul_ne {v : String} {piece : List Char} (nul : '\x00' ∈ piece)
    (seen : '\x00' ∉ unescape (v ++ ofList (before '\x00' piece)).toList) :
    uriUnescape (v ++ (ofList piece ++ "x")) ≠
      uriUnescape (v ++ (ofList (before '\x00' piece) ++ "x")) := by
  obtain ⟨tail, parts⟩ := exists_before_append nul
  generalize before '\x00' piece = q at parts seen
  subst parts
  have kept : (v ++ (ofList (q ++ '\x00' :: tail) ++ "x")).toList =
      (v ++ ofList q).toList ++ '\x00' :: (tail ++ ['x']) := by
    simp
  have cut : (v ++ (ofList q ++ "x")).toList = (v ++ ofList q).toList ++ 'x' :: [] := by
    simp
  have kept' := unescape_append_solid (c := '\x00') (by decide) (v ++ ofList q).toList (tail ++ ['x'])
  have cut' := unescape_append_solid (c := 'x') (by decide) (v ++ ofList q).toList []
  rw [uriUnescape, uriUnescape, kept, cut, kept', cut', before_append_cons seen, before_append_of_not_mem seen]
  intro same
  have lengths := congrArg String.length same
  simp [unescape, before] at lengths

variable {chunks : List (List Char)}

namespace Form

variable {f : Form} {piece : List Char}

lemma name_cut_seen {params : HttpParams} (absent : '=' ∉ piece) (nul : '\x00' ∈ piece)
    (keys : ∀ e ∈ params.entries, NulFree e.1) (room : params.entries.length + 2 < 2 ^ 16) :
    ∃ rest, outcome ((parse ⟨{}, params⟩ piece).bind fun f => f.parse rest) ≠
      outcome (parse ⟨{}, params⟩ (piece ++ rest)) := by
  obtain ⟨l⟩ := params
  -- the first value goes to the name, the second one to the name up to the NUL
  generalize hq : before '\x00' piece = q
  have free : NulFree (ofList q) := hq ▸ nulFree_before piece
  have absent' : '=' ∉ q := fun mem => absent (mem_of_mem_before (hq ▸ mem))
  have again : before '\x00' q = q := before_of_not_mem (by simpa [NulFree] using free)
  have other : ¬ NulFree (ofList piece) := by
    rw [NulFree, toList_ofList, not_not]
    exact nul
  have new : ofList piece ∉ l.map Prod.fst := by
    intro mem
    obtain ⟨e, me, same⟩ := List.mem_map.mp mem
    exact other (same ▸ keys e me)
  have differ : ofList q ≠ ofList piece := fun same => other (same ▸ free)
  have read : ∀ name cs, '=' ∉ cs →
      (parse ⟨⟨'=', name⟩, ⟨l⟩⟩ (cs ++ '=' :: (['1'] ++ '&' :: (q ++ '=' :: ['2'])))).map Form.params =
        (HttpParams.append ⟨l⟩ (name ++ ofList (before '\x00' cs)) "1").bind
          fun params => params.append (ofList q) "2" := by
    intro name cs absent
    rw [parse_name absent, parse_value (by decide), Option.map_bind]
    apply Option.bind_congr
    intro params _
    rw [Function.comp_apply, parse_lastPair absent' (by decide) (by decide), again, empty_append, Option.map_map]
    exact Option.map_id' ..
  refine ⟨'=' :: (['1'] ++ '&' :: (q ++ '=' :: ['2'])), ?_⟩
  have whole := read "" piece absent
  have cut := read (ofList piece) [] not_mem_nil
  rw [hq, empty_append, HttpParams.append_append] at whole
  rw [nil_append, before_of_not_mem not_mem_nil, ofList_nil, append_empty,
    HttpParams.append_new new, if_pos (by simp at room; omega), bind_some] at cut
  have kept : parse ⟨{}, ⟨l⟩⟩ piece = some ⟨⟨'=', ofList piece⟩, ⟨l⟩⟩ := by
    rw [parse_open absent (ne_nil_of_mem nul), keep, if_pos rfl, empty_append]
  rw [kept, bind_some, outcome, outcome, cut]
  change _ ≠ Option.map _ ((parse ⟨{}, ⟨l⟩⟩ _).map Form.params)
  rw [whole]
  by_cases mem : ofList q ∈ l.map Prod.fst
  · obtain ⟨front, v, back, rfl, absent⟩ := HttpParams.exists_entry mem
    rw [List.append_assoc, cons_append, HttpParams.append_entry absent, HttpParams.append_entry absent]
    intro same
    have lengths := congrArg (Option.map fun p => p.entries.length) same
    simp [HttpParams.unescape] at lengths
  · have mem' : ofList q ∉ (l ++ [(ofList piece, "1")]).map Prod.fst := by
      simp [mem, differ]
    rw [HttpParams.append_new mem, HttpParams.append_new mem', if_pos (by simp at room ⊢; omega),
      if_pos (by simp at room ⊢; omega)]
    intro same
    have lengths := congrArg (Option.map fun p => p.entries.length) same
    simp [HttpParams.unescape] at lengths

lemma value_cut_seen {params : HttpParams} {key : String} (absent : '&' ∉ piece) (nul : '\x00' ∈ piece)
    (equals : '=' ∉ key.toList) (free : NulFree key)
    (seen : '\x00' ∉ unescape (params.value key ++ ofList (before '\x00' piece)).toList)
    (room : params.entries.length + 1 < 2 ^ 16) :
    ∃ rest, outcome ((parse ⟨⟨'&', key⟩, params⟩ piece).bind fun f => f.parse rest) ≠
      outcome (parse ⟨⟨'&', key⟩, params⟩ (piece ++ rest)) := by
  have again : key = ofList (before '\x00' key.toList) := by
    rw [before_of_not_mem free, ofList_toList]
  have read : ∀ params : HttpParams, ∀ cs, '&' ∉ cs →
      (parse ⟨⟨'&', key⟩, params⟩ (cs ++ '&' :: (key.toList ++ '=' :: ['x']))).map Form.params =
        params.append key (ofList (before '\x00' cs) ++ "x") := by
    intro params cs absent
    rw [parse_value absent, Option.map_bind, ← HttpParams.append_append]
    apply Option.bind_congr
    intro params _
    rw [Function.comp_apply, parse_lastPair equals (by decide) (by decide), ← again, empty_append, Option.map_map]
    exact Option.map_id' ..
  refine ⟨'&' :: (key.toList ++ '=' :: ['x']), ?_⟩
  have whole := read params piece absent
  have cut : ((parse ⟨⟨'&', key⟩, params⟩ piece).bind fun f =>
      f.parse ('&' :: (key.toList ++ '=' :: ['x']))).map Form.params =
        params.append key (ofList piece ++ "x") := by
    rw [parse_lastValue absent (ne_nil_of_mem nul), bind_map, Option.map_bind, ← HttpParams.append_append]
    apply Option.bind_congr
    intro params _
    have rest := read params [] not_mem_nil
    rw [nil_append, before_of_not_mem not_mem_nil, ofList_nil, empty_append] at rest
    rw [Function.comp_apply, Function.comp_apply, rest]
  rw [outcome, outcome, cut, whole]
  obtain ⟨pa, ha⟩ := HttpParams.append_room room key (ofList piece ++ "x")
  obtain ⟨pb, hb⟩ := HttpParams.append_room room key (ofList (before '\x00' piece) ++ "x")
  rw [ha, hb]
  intro same
  exact uriUnescape_nul_ne nul seen (HttpParams.value_of_unescape ha hb (Option.some.inj same))

lemma clean_of_forall {front : List Char} (few : front.count '&' + 2 < 2 ^ 16)
    (same : ∀ rest, outcome ((parse {} front).bind fun f => f.parse rest) =
      outcome (parse {} (front ++ rest))) : Clean front := by
  obtain ⟨s, split, known, room⟩ := tidy_new.split front
  obtain ⟨g, rfl, length⟩ := room (by simp; omega)
  obtain ⟨tidy, search⟩ := known g rfl
  have absent : g.state.searchChar ∉ unfinished front := by
    rw [search]
    exact not_mem_foldl_scanChar not_mem_nil front
  have split : ∀ rest, parse {} (front ++ rest) = g.parse (unfinished front ++ rest) := split
  have whole := split []
  rw [append_nil, append_nil] at whole
  simp only [split, whole] at same
  obtain ⟨⟨c, name⟩, params⟩ := g
  have small : params.entries.length + 2 < 2 ^ 16 := by
    have length : params.entries.length ≤ front.count '&' := by simpa using length
    omega
  by_contra unclean
  rw [Clean, not_or, not_not] at unclean
  obtain ⟨nul, notHidden⟩ := unclean
  rcases tidy.search with ⟨isName, empty⟩ | isValue
  · cases isName
    cases empty
    obtain ⟨rest, differs⟩ := name_cut_seen absent nul tidy.keys small
    exact differs (same rest)
  · cases isValue
    have seen : '\x00' ∉ unescape
        (params.value name ++ ofList (before '\x00' (unfinished front))).toList := by
      intro hidden
      obtain ⟨params', appended⟩ := HttpParams.append_room (Nat.lt_of_succ_lt small) name
        (ofList (unfinished front))
      have value : '&' ≠ '=' := by decide
      have kept : keep ⟨⟨'&', name⟩, params⟩ (ofList (unfinished front)) = some ⟨⟨'&', name⟩, params'⟩ := by
        rw [keep, if_neg value, appended, map_some]
      refine notHidden ⟨_, whole.trans ((parse_open absent (ne_nil_of_mem nul)).trans kept), rfl, ?_⟩
      rw [tidy.before_value value kept]
      exact hidden
    obtain ⟨rest, differs⟩ := value_cut_seen absent nul tidy.equals tidy.name seen
      (Nat.lt_of_succ_lt small)
    exact differs (same rest)

lemma foldlM_concat (chunks : List (List Char)) (rest : List Char) (f : Form) :
    (chunks ++ [rest]).foldlM parse f = (chunks.foldlM parse f).bind fun f => f.parse rest := by
  rw [foldlM_append]
  apply Option.bind_congr
  intro g _
  rw [foldlM_cons]
  cases g.parse rest with
  | none => rfl
  | some g => rfl

lemma foldlM_parse_prospect (clean : ∀ fronts, fronts <+: chunks → Clean fronts.flatten) (rest : List Char) :
    ((chunks ++ [rest]).foldlM parse {}).map prospect = (parse {} (chunks.flatten ++ rest)).map prospect := by
  induction chunks using reverseRecOn generalizing rest with
  | nil => rw [foldlM_concat, foldlM_nil, flatten_nil, nil_append]; rfl
  | append_singleton chunks chunk ih =>
    have before := ih (fun fronts pre => clean fronts (pre.trans (prefix_append chunks [chunk]))) chunk
    have last := parse_append (clean _ prefix_rfl) rest
    have flat : (chunks ++ [chunk]).flatten = chunks.flatten ++ chunk := by simp
    rw [flat] at last ⊢
    rw [← last, foldlM_concat]
    exact bind_prospect before fun same => parse_prospect same rest

end Form

lemma foldlM_formUrlParser (chunks : List (List Char)) (f : Form) :
    (chunks.map ParseCall.data).foldlM formUrlParser ⟨some f.state, f.params⟩ =
      (chunks.foldlM Form.parse f).map fun f => ⟨some f.state, f.params⟩ := by
  induction chunks generalizing f with
  | nil => rfl
  | cons chunk chunks ih =>
    rw [map_cons, foldlM_cons, foldlM_cons, formUrlParser]
    change Option.bind (Option.map _ (f.parse chunk)) _ = Option.map _ (Option.bind (f.parse chunk) _)
    rw [bind_map, Option.map_bind]
    apply Option.bind_congr
    intro g _
    exact ih g

lemma received_eq (chunks : List (List Char)) : received chunks = Form.outcome (chunks.foldlM Form.parse {}) := by
  have data := foldlM_formUrlParser chunks {}
  rw [received]
  simp only [cons_append, foldlM_cons, foldlM_append]
  change Option.map _ (Option.bind (foldlM formUrlParser ⟨some {}, {}⟩ _) _) = _
  rw [data, bind_map, Form.outcome]
  cases chunks.foldlM Form.parse {} with
  | none => rfl
  | some f => rfl

lemma received_singleton (text : List Char) : received [text] = Form.outcome (Form.parse {} text) := by
  rw [received_eq]
  exact congrArg Form.outcome (Form.foldlM_concat [] text {})

lemma received_concat (clean : ∀ fronts, fronts <+: chunks → Clean fronts.flatten) (rest : List Char) :
    received (chunks ++ [rest]) = received [chunks.flatten ++ rest] := by
  rw [received_eq, received_singleton]
  exact Form.outcome_of_prospect (Form.foldlM_parse_prospect clean rest)

lemma mem_of_mem_foldl_scanChar {c : Char} {cs : List Char}
    (mem : c ∈ (cs.foldl scanChar s).2) : c ∈ s.2 ∨ c ∈ cs := by
  induction cs generalizing s with
  | nil => exact .inl mem
  | cons d cs ih =>
    rw [foldl_cons] at mem
    rcases ih mem with old | later
    · rw [scanChar] at old
      split at old
      case isTrue => cases old
      case isFalse =>
        rcases mem_append.mp old with old | last
        · exact .inl old
        · exact .inr (mem_cons.mpr (.inl (mem_singleton.mp last)))
    · exact .inr (mem_cons_of_mem d later)

lemma received_flatten (nul : '\x00' ∉ chunks.flatten) : received chunks = received [chunks.flatten] := by
  rcases eq_nil_or_concat chunks with rfl | ⟨fronts, rest, rfl⟩
  · rfl
  · rw [concat_eq_append, flatten_append, flatten_singleton] at nul
    rw [concat_eq_append, received_concat]
    · rw [flatten_append, flatten_singleton]
    · intro fronts' pre
      refine .inl fun mem => nul ?_
      obtain ⟨more, rfl⟩ := pre
      rw [flatten_append, List.append_assoc]
      exact mem_append_left _ ((mem_of_mem_foldl_scanChar mem).resolve_left not_mem_nil)

/-- The chunks of a form body may be cut behind clean fronts and, with room in the map, only there if the body may go
on with anything. -/
theorem formUrlParser_chunks_iff (chunks : List (List Char)) :
    ((∀ fronts, fronts <+: chunks → Clean fronts.flatten) → ∀ fronts rest, fronts <+: chunks →
        received (fronts ++ [rest]) = received [fronts.flatten ++ rest]) ∧ (chunks.flatten.count '&' + 2 < 2 ^ 16 →
      (∀ fronts rest, fronts <+: chunks → received (fronts ++ [rest]) = received [fronts.flatten ++ rest]) →
      ∀ fronts, fronts <+: chunks → Clean fronts.flatten) := by
  refine ⟨fun clean fronts rest pre => received_concat (fun _ pre' => clean _ (pre'.trans pre)) rest, ?_⟩
  intro few same
  induction chunks using reverseRecOn with
  | nil =>
    intro fronts pre
    rw [prefix_nil.mp pre]
    exact .inl not_mem_nil
  | append_singleton chunks chunk ih =>
    have flat : (chunks ++ [chunk]).flatten = chunks.flatten ++ chunk := by simp
    have clean := ih (by rw [flat, count_append] at few; omega)
      fun fronts rest pre => same fronts rest (pre.trans (prefix_append chunks [chunk]))
    intro fronts pre
    rcases prefix_concat_iff.mp pre with rfl | pre
    · -- the cuts in front of the last chunk are clean, so that only the one behind it may be seen
      apply Form.clean_of_forall few
      intro rest
      have before := Form.foldlM_parse_prospect clean chunk
      rw [← received_singleton, ← same _ rest prefix_rfl, received_eq, flat, Form.foldlM_concat]
      apply Form.outcome_of_prospect
      exact (Form.bind_prospect before fun same => Form.parse_prospect same rest).symm
    · exact clean fronts pre

theorem formUrlParser_chunks_iff_name : Clean ['a'] ∧ received [['a'], ['=', '1']] = received [['a', '=', '1']] := by
  have clean : ∀ fronts, fronts <+: [['a']] → Clean fronts.flatten := by
    intro fronts pre
    refine .inl fun mem => ?_
    have mem := (mem_of_mem_foldl_scanChar mem).resolve_left not_mem_nil
    obtain ⟨more, cut⟩ := pre
    have whole : '\x00' ∈ (fronts ++ more).flatten := by
      rw [flatten_append]
      exact mem_append_left _ mem
    rw [cut] at whole
    exact absurd whole (by decide)
  have same := (formUrlParser_chunks_iff [['a']]).1 clean [['a']] ['=', '1'] prefix_rfl
  rw [singleton_append, flatten_singleton, singleton_append] at same
  exact ⟨clean [['a']] prefix_rfl, same⟩

/-- A NUL in the first of two names: with a cut behind it the names stay different until they are decoded. -/
theorem formUrlParser_chunks_differ : ¬ ∀ chunks : List (List Char), received chunks = received [chunks.flatten] := by
  intro all
  have same := all [['a', '\x00'], ['b', '=', '1', '&', 'a', '=', '2']]
  rw [flatten_cons, flatten_singleton] at same
  exact absurd same (by decide +kernel)

end Sming.Network.Http
