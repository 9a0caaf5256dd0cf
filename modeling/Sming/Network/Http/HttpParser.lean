import Mathlib.Data.List.Infix
import Sming.Network.Http.HttpCommon

/-!
# The request line

Embedding of `http_parser_execute` of `Sming/third-party/http-parser/http_parser.c` for requests, from the first byte
to the end of the request target; the strict variant, which is the default. All states behind the target are one state
here, since no `on_url` comes from them.

A data callback reports what has been read since its mark, which is set at the first byte of the target, and again at
the first byte of every later segment that begins inside. A segment that begins right behind the target brings an empty
piece.
-/

namespace Sming.Network.Http
open List Option String

inductive ParserState where
  | startReq
  | reqMethod
  | reqSpacesBeforeUrl
  | reqSchema
  | reqSchemaSlash
  | reqSchemaSlashSlash
  | reqServerStart
  | reqServer
  | reqServerWithAt
  | reqPath
  | reqQueryStringStart
  | reqQueryString
  | reqFragmentStart
  | reqFragment
  | afterUrl
  deriving Repr, DecidableEq

/-- The states at whose segment start `url_mark` is set. -/
def ParserState.isUrl : ParserState → Bool
  | startReq | reqMethod | reqSpacesBeforeUrl | afterUrl => false
  | _ => true

/-- The fields of `http_parser` that the request line uses; `failed` is an `http_errno`. -/
structure HttpParser where
  state : ParserState := .startReq
  method : HttpMethod := .delete
  index : Nat := 0
  nread : Nat := 0
  failed : Bool := false
  deriving Repr, DecidableEq

namespace HttpParser

def maxHeaderSize : Nat := 80 * 1024

def isAlpha (c : Char) : Bool :=
  let lower := (c.toNat ||| 0x20) % 256
  'a'.toNat ≤ lower && lower ≤ 'z'.toNat

def isNum (c : Char) : Bool := '0' ≤ c && c ≤ '9'

def isMark (c : Char) : Bool :=
  c == '-' || c == '_' || c == '.' || c == '!' || c == '~' || c == '*' || c == '\'' || c == '(' ||
    c == ')'

def isUserinfoChar (c : Char) : Bool :=
  isAlpha c || isNum c || isMark c || c == '%' || c == ';' || c == ':' || c == '&' || c == '=' ||
    c == '+' || c == '$' || c == ','

/-- The bits of `normal_url_char`. -/
def isUrlChar (c : Char) : Bool := 33 ≤ c.toNat && c.toNat ≤ 126 && c != '#' && c != '?'

/-- One byte of the target; `none` is `s_dead`. -/
def parseUrlChar (s : ParserState) (ch : Char) : Option ParserState :=
  if ch = ' ' ∨ ch = '\r' ∨ ch = '\n' ∨ ch = '\t' ∨ ch = '\x0c' then none
  else
    match s with
    | .reqSpacesBeforeUrl =>
      if ch = '/' ∨ ch = '*' then some .reqPath else if isAlpha ch then some .reqSchema else none
    | .reqSchema =>
      if isAlpha ch then some .reqSchema else if ch = ':' then some .reqSchemaSlash else none
    | .reqSchemaSlash => if ch = '/' then some .reqSchemaSlashSlash else none
    | .reqSchemaSlashSlash => if ch = '/' then some .reqServerStart else none
    | .reqServerStart | .reqServer | .reqServerWithAt =>
      if ch = '@' then
        if s = .reqServerWithAt then none else some .reqServerWithAt
      else if ch = '/' then some .reqPath
      else if ch = '?' then some .reqQueryStringStart
      else if isUserinfoChar ch ∨ ch = '[' ∨ ch = ']' then some .reqServer
      else none
    | .reqPath =>
      if isUrlChar ch then some .reqPath
      else if ch = '?' then some .reqQueryStringStart
      else if ch = '#' then some .reqFragmentStart
      else none
    | .reqQueryStringStart | .reqQueryString =>
      if isUrlChar ch ∨ ch = '?' then some .reqQueryString
      else if ch = '#' then some .reqFragmentStart
      else none
    | .reqFragmentStart =>
      if isUrlChar ch ∨ ch = '?' then some .reqFragment
      else if ch = '#' then some .reqFragmentStart
      else none
    | .reqFragment => if isUrlChar ch ∨ ch = '?' ∨ ch = '#' then some .reqFragment else none
    | _ => none

/-- The method a first letter stands for until more is read. -/
def firstMethod : Char → Option HttpMethod
  | 'A' => some .acl | 'B' => some .bind | 'C' => some .connect | 'D' => some .delete
  | 'G' => some .get | 'H' => some .head | 'L' => some .lock | 'M' => some .mkcol
  | 'N' => some .notify | 'O' => some .options | 'P' => some .post | 'R' => some .report
  | 'S' => some .subscribe | 'T' => some .trace | 'U' => some .unlock
  | _ => none

/-- The method another letter changes the guess to. -/
def switchMethod : HttpMethod → Nat → Char → Option HttpMethod
  | .post, 1, 'U' => some .put
  | .post, 1, 'A' => some .patch
  | .post, 1, 'R' => some .propfind
  | .put, 2, 'R' => some .purge
  | .connect, 1, 'H' => some .checkout
  | .connect, 2, 'P' => some .copy
  | .mkcol, 1, 'O' => some .move
  | .mkcol, 1, 'E' => some .merge
  | .mkcol, 1, '-' => some .msearch
  | .mkcol, 2, 'A' => some .mkactivity
  | .mkcol, 3, 'A' => some .mkcalendar
  | .subscribe, 1, 'E' => some .search
  | .subscribe, 1, 'O' => some .source
  | .report, 2, 'B' => some .rebind
  | .propfind, 4, 'P' => some .proppatch
  | .lock, 1, 'I' => some .link
  | .unlock, 2, 'S' => some .unsubscribe
  | .unlock, 2, 'B' => some .unbind
  | .unlock, 3, 'I' => some .unlink
  | _, _, _ => none

/-- One byte; `none` is `goto error`. -/
def step (p : HttpParser) (ch : Char) : Option HttpParser :=
  match p.state with
  | .startReq =>
    if ch = '\r' ∨ ch = '\n' then some p
    else (firstMethod ch).map fun m => { p with state := .reqMethod, method := m, index := 1 }
  | .reqMethod =>
    let matcher := p.method.str.toList
    if ch = '\x00' then none
    else if ch = ' ' ∧ matcher.length ≤ p.index then
      some { p with state := .reqSpacesBeforeUrl, index := p.index + 1 }
    else if matcher[p.index]? = some ch then some { p with index := p.index + 1 }
    else (switchMethod p.method p.index ch).map fun m => { p with method := m, index := p.index + 1 }
  | .reqSpacesBeforeUrl =>
    if ch = ' ' then some p
    else
      let state := if p.method = .connect then .reqServerStart else .reqSpacesBeforeUrl
      (parseUrlChar state ch).map fun s => { p with state := s }
  | .reqSchema | .reqSchemaSlash | .reqSchemaSlashSlash | .reqServerStart =>
    (parseUrlChar p.state ch).map fun s => { p with state := s }
  | .reqServer | .reqServerWithAt | .reqPath | .reqQueryStringStart | .reqQueryString
  | .reqFragmentStart | .reqFragment =>
    if ch = ' ' ∨ ch = '\r' ∨ ch = '\n' then some { p with state := .afterUrl }
    else (parseUrlChar p.state ch).map fun s => { p with state := s }
  | .afterUrl => some p

/-- Count a byte and read it (C `COUNT_HEADER_SIZE`). -/
def advance (p : HttpParser) (ch : Char) : Option HttpParser :=
  if maxHeaderSize < p.nread + 1 then none else step { p with nread := p.nread + 1 } ch

variable {ch : Char}

lemma isUrl_of_parseUrlChar {s t : ParserState} (h : parseUrlChar s ch = some t) : t.isUrl = true := by
  cases s
  all_goals
    simp only [parseUrlChar] at h
    repeat' split at h
    all_goals cases h
    all_goals rfl

variable {p q : HttpParser}

lemma failed_of_step (h : p.step ch = some q) : q.failed = p.failed := by
  rw [step] at h
  cases hs : p.state
  all_goals
    simp only [hs] at h
    repeat' split at h
    all_goals first
      | cases h <;> rfl
      | obtain ⟨_, -, rfl⟩ := map_eq_some_iff.mp h
        rfl

lemma step_outside (out : p.state.isUrl = false)
    (open' : p.state ≠ .afterUrl) (h : p.step ch = some q) : q.state ≠ .afterUrl := by
  rw [step] at h
  cases hs : p.state
  all_goals rw [hs] at out open' h
  case startReq =>
    simp only at h
    split at h
    · cases h
      rw [hs]
      exact open'
    · obtain ⟨m, -, rfl⟩ := map_eq_some_iff.mp h
      exact nofun
  case reqMethod =>
    simp only at h
    repeat' split at h
    · cases h
    · cases h
      exact nofun
    · cases h
      exact nofun
    · obtain ⟨m, -, rfl⟩ := map_eq_some_iff.mp h
      exact nofun
  case reqSpacesBeforeUrl =>
    simp only at h
    split at h
    · cases h
      rw [hs]
      exact open'
    · obtain ⟨t, ht, rfl⟩ := map_eq_some_iff.mp h
      intro e
      have url := isUrl_of_parseUrlChar ht
      simp only at e
      rw [e] at url
      cases url
  case afterUrl => exact absurd rfl open'
  all_goals cases out

lemma step_inside (inside : p.state.isUrl = true)
    (h : p.step ch = some q) : q.state = .afterUrl ∨ q.state.isUrl = true := by
  rw [step] at h
  cases hs : p.state
  all_goals rw [hs] at inside h
  all_goals try cases inside
  all_goals simp only at h
  case reqSchema | reqSchemaSlash | reqSchemaSlashSlash | reqServerStart =>
    obtain ⟨t, ht, rfl⟩ := map_eq_some_iff.mp h
    exact .inr (isUrl_of_parseUrlChar ht)
  all_goals
    split at h
    · cases h
      exact .inl rfl
    · obtain ⟨t, ht, rfl⟩ := map_eq_some_iff.mp h
      exact .inr (isUrl_of_parseUrlChar ht)

lemma advance_outside (out : p.state.isUrl = false) (open' : p.state ≠ .afterUrl) (h : p.advance ch = some q) :
    q.failed = p.failed ∧ q.state ≠ .afterUrl := by
  rw [advance] at h
  split at h
  · cases h
  · have failed := failed_of_step h
    exact ⟨failed, step_outside (by exact out) (by exact open') h⟩

lemma advance_inside (inside : p.state.isUrl = true) (h : p.advance ch = some q) :
    q.failed = p.failed ∧ (q.state = .afterUrl ∨ q.state.isUrl = true) := by
  rw [advance] at h
  split at h
  · cases h
  · have failed := failed_of_step h
    exact ⟨failed, step_inside (by exact inside) h⟩

end HttpParser

/-- The state of the loop over the bytes of a segment: what stands behind `url_mark`, and the pieces
reported to `on_url`. -/
structure Scan where
  parser : HttpParser := {}
  mark : Option (List Char) := none
  urls : List String := []
  deriving Repr, DecidableEq

namespace Scan

def feed (s : Scan) (ch : Char) : Scan :=
  if s.parser.failed = true ∨ s.parser.state = .afterUrl then s
  else
    match s.parser.advance ch with
    | none => { s with parser := { s.parser with failed := true }, mark := none }
    | some q =>
      if q.state = .afterUrl then { parser := q, mark := none, urls := s.urls ++ [ofList (s.mark.getD [])] }
      else if q.state.isUrl then { s with parser := q, mark := some (s.mark.getD [] ++ [ch]) }
      else { s with parser := q }

def start (p : HttpParser) : Scan where
  parser := p
  mark := if p.state.isUrl then some [] else none

variable {s : Scan} {ch : Char}

lemma feed_failed (h : s.parser.failed = true) : s.feed ch = s := if_pos (.inl h)

lemma feed_done (h : s.parser.state = .afterUrl) : s.feed ch = s := if_pos (.inr h)

lemma feed_refused (h : s.parser.state ≠ .afterUrl)
    (refused : s.parser.advance ch = none) : (s.feed ch).parser.failed = true := by
  rw [feed]
  split
  case isTrue failed => exact failed.resolve_right h
  case isFalse => rw [refused]

lemma feed_read {q : HttpParser} (alive : s.parser.failed = false)
    (h : s.parser.state ≠ .afterUrl) (read : s.parser.advance ch = some q) :
    s.feed ch =
      if q.state = .afterUrl then { parser := q, mark := none, urls := s.urls ++ [ofList (s.mark.getD [])] }
      else if q.state.isUrl then { s with parser := q, mark := some (s.mark.getD [] ++ [ch]) }
      else { s with parser := q } := by
  rw [feed, if_neg (by simp [alive, h]), read]

structure Before (s : Scan) : Prop where
  outside : s.parser.state.isUrl = false
  more : s.parser.state ≠ .afterUrl
  mark : s.mark = none
  urls : s.urls = []

structure Inside (s : Scan) (t : List Char) : Prop where
  alive : s.parser.failed = false
  inside : s.parser.state.isUrl = true
  mark : s.mark = some t
  urls : s.urls = []

structure Done (s : Scan) (t : List Char) : Prop where
  alive : s.parser.failed = false
  state : s.parser.state = .afterUrl
  mark : s.mark = none
  urls : s.urls = [ofList t]

lemma Inside.more {s t} (h : Inside s t) : s.parser.state ≠ .afterUrl := by
  intro e
  have inside := h.inside
  rw [e] at inside
  cases inside

lemma Before.feed {s} (b : Before s) (ch : Char) :
    (s.feed ch).parser.failed = true ∨ Before (s.feed ch) ∨ Inside (s.feed ch) [ch] := by
  cases alive : s.parser.failed with
  | true => exact .inl (by rw [feed_failed alive]; exact alive)
  | false =>
    cases read : s.parser.advance ch with
    | none => exact .inl (feed_refused b.more read)
    | some q =>
      obtain ⟨failed, more⟩ := HttpParser.advance_outside b.outside b.more read
      rw [feed_read alive b.more read, if_neg more, b.mark, b.urls]
      cases url : q.state.isUrl with
      | true => exact .inr (.inr ⟨failed.trans alive, url, rfl, rfl⟩)
      | false => exact .inr (.inl ⟨url, more, rfl, rfl⟩)

lemma Inside.feed {s t} (b : Inside s t) (ch : Char) :
    (s.feed ch).parser.failed = true ∨ Inside (s.feed ch) (t ++ [ch]) ∨ Done (s.feed ch) t := by
  cases read : s.parser.advance ch with
  | none => exact .inl (feed_refused b.more read)
  | some q =>
    obtain ⟨failed, done | url⟩ := HttpParser.advance_inside b.inside read
    · rw [feed_read b.alive b.more read, if_pos done, b.mark, b.urls]
      exact .inr (.inr ⟨failed.trans b.alive, done, rfl, rfl⟩)
    · have more : q.state ≠ .afterUrl := by
        intro e
        rw [e] at url
        cases url
      rw [feed_read b.alive b.more read, if_neg more, if_pos url, b.mark, b.urls]
      exact .inr (.inl ⟨failed.trans b.alive, url, rfl, rfl⟩)

lemma foldl_done {s t} (d : Done s t) (cs : List Char) : cs.foldl Scan.feed s = s := by
  induction cs with
  | nil => rfl
  | cons c cs ih => rw [foldl_cons, feed_done d.state, ih]

lemma foldl_failed (h : s.parser.failed = true) (cs : List Char) : cs.foldl Scan.feed s = s := by
  induction cs with
  | nil => rfl
  | cons c cs ih => rw [foldl_cons, feed_failed h, ih]

lemma Before.start_parser {s} (b : Before s) : start s.parser = s := by
  obtain ⟨parser, mark, urls⟩ := s
  obtain ⟨outside, -, none, empty⟩ := b
  subst none empty
  rw [start, if_neg (by rw [outside]; exact nofun)]

lemma Before.foldl {s} (b : Before s) (data : List Char) :
    (data.foldl Scan.feed s).parser.failed = true ∨ Before (data.foldl Scan.feed s) ∨
      (∃ t, Inside (data.foldl Scan.feed s) t) ∨ ∃ t, Done (data.foldl Scan.feed s) t := by
  induction data using reverseRecOn with
  | nil => exact .inr (.inl b)
  | append_singleton cs c ih =>
    rw [foldl_append, foldl_cons, foldl_nil]
    rcases ih with failed | before | ⟨t, inside⟩ | ⟨t, done⟩
    · rw [feed_failed failed]
      exact .inl failed
    · rcases before.feed c with failed | before | inside
      · exact .inl failed
      · exact .inr (.inl before)
      · exact .inr (.inr (.inl ⟨[c], inside⟩))
    · rcases inside.feed c with failed | inside | done
      · exact .inl failed
      · exact .inr (.inr (.inl ⟨t ++ [c], inside⟩))
      · exact .inr (.inr (.inr ⟨t, done⟩))
    · rw [feed_done done.state]
      exact .inr (.inr (.inr ⟨t, done⟩))

def scan (cs : List Char) : Scan := cs.foldl Scan.feed {}

lemma scan_concat (cs : List Char) (c : Char) : scan (cs ++ [c]) = (scan cs).feed c := by
  rw [scan, foldl_append]
  rfl

/-- Every prefix of a request ends before, inside or behind the target, or is refused. What stands
behind the mark is the end of the prefix. -/
inductive Phase (cs : List Char) : Prop where
  | failed (h : (scan cs).parser.failed = true)
  | before (h : Before (scan cs))
  | inside (t : List Char) (h : Inside (scan cs) t) (ne : t ≠ [])
  | done (t pre post : List Char) (c : Char) (e : cs = pre ++ c :: post) (ne : t ≠ [])
    (h : Inside (scan pre) t) (d : Done (scan (pre ++ [c])) t)

lemma phase (cs : List Char) : Phase cs := by
  induction cs using reverseRecOn with
  | nil => exact .before ⟨rfl, nofun, rfl, rfl⟩
  | append_singleton cs c ih =>
    cases ih with
    | failed h =>
      refine .failed ?_
      rw [scan_concat, feed_failed h]
      exact h
    | before h =>
      obtain failed | before | inside := h.feed c
      · exact .failed (by rw [scan_concat]; exact failed)
      · exact .before (by rw [scan_concat]; exact before)
      · exact .inside [c] (by rw [scan_concat]; exact inside) (cons_ne_nil _ _)
    | inside t h ne =>
      obtain failed | inside | done := h.feed c
      · exact .failed (by rw [scan_concat]; exact failed)
      · refine .inside (t ++ [c]) (by rw [scan_concat]; exact inside) ?_
        exact append_ne_nil_of_right_ne_nil _ (cons_ne_nil _ _)
      · exact .done t cs [] c rfl ne h (by rw [scan_concat]; exact done)
    | done t pre post d e ne h done =>
      exact .done t pre (post ++ [c]) d (by rw [e]; simp) ne h done

lemma Inside.ne_nil {cs t} (h : Inside (scan cs) t) : cs ≠ [] := by
  rintro rfl
  exact absurd h.mark nofun

lemma Inside.last {cs t c} (h : Inside (scan (cs ++ [c])) t) :
    t = [c] ∨ ∃ t', t' ≠ [] ∧ t = t' ++ [c] ∧ Inside (scan cs) t' := by
  rw [scan_concat] at h
  cases phase cs with
  | failed f =>
    rw [feed_failed f] at h
    exact absurd (f.symm.trans h.alive) nofun
  | before b =>
    obtain failed | before | inside := b.feed c
    · exact absurd (failed.symm.trans h.alive) nofun
    · exact absurd (before.outside.symm.trans h.inside) nofun
    · exact .inl (Option.some.inj (h.mark.symm.trans inside.mark))
  | inside t' b ne =>
    obtain failed | inside | done := b.feed c
    · exact absurd (failed.symm.trans h.alive) nofun
    · exact .inr ⟨t', ne, Option.some.inj (h.mark.symm.trans inside.mark), b⟩
    · exact absurd (done.mark.symm.trans h.mark) nofun
  | done t' pre post d e _ _ done =>
    have same : scan cs = scan (pre ++ [d]) := by
      rw [e, scan, scan, append_cons, foldl_append]
      exact foldl_done done post
    rw [same, feed_done done.state] at h
    exact absurd (done.mark.symm.trans h.mark) nofun

variable {s' : Scan}

lemma parser_feed (h : s.parser = s'.parser) (c : Char) : (s.feed c).parser = (s'.feed c).parser := by
  rw [feed, feed, h]
  split
  · exact h
  · cases s'.parser.advance c with
    | none => rfl
    | some q =>
      simp only
      repeat' split
      all_goals rfl

lemma Inside.start {s t} (h : Inside s t) : Inside (start s.parser) [] where
  alive := h.alive
  inside := h.inside
  mark := if_pos h.inside
  urls := rfl

lemma Inside.of_parser {t t' c} (h : Inside s t) (h' : Inside (s'.feed c) t')
    (e : s.parser = s'.parser) : Inside (s.feed c) (t ++ [c]) := by
  have p := parser_feed e c
  obtain failed | inside | done := h.feed c
  · rw [p] at failed
    exact absurd (failed.symm.trans h'.alive) nofun
  · exact inside
  · have url := h'.inside
    rw [← p, done.state] at url
    cases url

lemma Done.of_parser {t t' c} (h : Inside s t) (h' : Done (s'.feed c) t')
    (e : s.parser = s'.parser) : Done (s.feed c) t := by
  have p := parser_feed e c
  obtain failed | inside | done := h.feed c
  · rw [p] at failed
    exact absurd (failed.symm.trans h'.alive) nofun
  · have url := inside.inside
    rw [p, h'.state] at url
    cases url
  · exact done

end Scan

/-- One segment: the parser behind it and the pieces it reported (C `http_parser_execute`). -/
def HttpParser.execute (p : HttpParser) (data : List Char) : HttpParser × List String :=
  let s := data.foldl Scan.feed (Scan.start p)
  (s.parser, if p.failed then [] else s.urls ++ (s.mark.map ofList).toList)

def HttpParser.executeAll : HttpParser → List (List Char) → List String
  | _, [] => []
  | p, segment :: segments => (p.execute segment).2 ++ executeAll (p.execute segment).1 segments

def target (input : List Char) : Option String :=
  match HttpParser.execute {} input with
  | (p, [url]) => if p.state = .afterUrl ∧ p.failed = false then some url else none
  | _ => none

namespace HttpParser
open Scan

variable {data : List Char}

lemma execute_inside {t : List Char} (h : Inside (scan data) t) :
    execute {} data = ((scan data).parser, [ofList t]) := by
  rw [execute, show data.foldl Scan.feed (Scan.start {}) = scan data from rfl, h.mark, h.urls]
  rfl

lemma execute_done {p : HttpParser} {t : List Char} (alive : p.failed = false)
    (h : Done (data.foldl Scan.feed (Scan.start p)) t) : (p.execute data).2 = [ofList t] := by
  rw [execute, alive, h.mark, h.urls]
  rfl

end HttpParser

open Scan HttpParser

variable {url : String} {input pre : List Char} {segments : List (List Char)} {c : Char}

lemma executeAll_of_target (h : target input = some url) : executeAll {} [input] = [url] := by
  rw [target] at h
  split at h
  case h_2 => cases h
  case h_1 p url' e =>
    split at h
    · cases h
      rw [executeAll, e]
      rfl
    · cases h

lemma target_split (h : target input = some url) :
    ∃ t pre c post, input = pre ++ c :: post ∧ url = ofList t ∧ t ≠ [] ∧
      Inside (scan pre) t ∧ Done (scan (pre ++ [c])) t := by
  rw [target] at h
  split at h
  case h_2 => cases h
  case h_1 p url' e =>
    split at h
    case isFalse => cases h
    case isTrue acc =>
      cases h
      have hp : p = (scan input).parser := (congrArg Prod.fst e).symm
      subst hp
      cases phase input with
      | failed f => exact absurd (f.symm.trans acc.2) nofun
      | before b => exact absurd acc.1 b.more
      | inside t b ne => exact absurd acc.1 b.more
      | done t pre post c e' ne b d =>
        refine ⟨t, pre, c, post, e', ?_, ne, b, d⟩
        -- what comes behind the target changes nothing
        have same : scan input = scan (pre ++ [c]) := by
          rw [e', scan, scan, append_cons, foldl_append]
          exact foldl_done d post
        have pieces : (execute {} input).2 = [ofList t] := by
          apply execute_done rfl
          rw [show input.foldl Scan.feed (Scan.start {}) = scan input from rfl, same]
          exact d
        rw [e] at pieces
        exact head_eq_of_cons_eq pieces

lemma executeAll_behind {p : HttpParser} (h : p.state = .afterUrl) (segments : List (List Char)) :
    executeAll p segments = [] := by
  induction segments with
  | nil => rfl
  | cons data segments ih =>
    have still : ∀ cs : List Char, cs.foldl Scan.feed (Scan.start p) = Scan.start p := by
      intro cs
      induction cs with
      | nil => rfl
      | cons c cs ih => rw [foldl_cons, feed_done h, ih]
    have mark : (Scan.start p).mark = none := by
      rw [Scan.start, h]
      rfl
    have nothing : p.execute data = (p, []) := by
      rw [execute, still, mark]
      exact Prod.ext rfl (ite_self [])
    rw [executeAll, nothing]
    exact ih

def Unbroken (segments : List (List Char)) : Prop :=
  ∀ front, front <+: segments → (scan front.flatten).parser.state.isUrl = false

instance (segments : List (List Char)) : Decidable (Unbroken segments) :=
  decidable_of_iff (∀ front ∈ segments.inits, (scan front.flatten).parser.state.isUrl = false)
    (forall_congr' fun front => imp_congr_left (mem_inits front segments))

variable {t : List Char}

lemma executeAll_foldl_done {s : Scan} (b : Before s) (unbroken : ∀ front, front <+: segments →
      (front.flatten.foldl Scan.feed s).parser.state.isUrl = false)
    (done : Done (segments.flatten.foldl Scan.feed s) t) : executeAll s.parser segments = [ofList t] := by
  induction segments generalizing s with
  | nil => exact absurd done.state b.more
  | cons data segments ih =>
    rw [flatten_cons, foldl_append] at done
    have alive : s.parser.failed = false := by
      by_contra failed
      rw [Bool.not_eq_false] at failed
      rw [foldl_failed failed, foldl_failed failed] at done
      exact absurd (failed.symm.trans done.alive) nofun
    -- the first segment does not end inside the target, so it ends before or behind it
    have first := unbroken [data] (prefix_append [data] segments)
    rw [flatten_singleton] at first
    rw [executeAll, execute, b.start_parser, alive]
    rcases b.foldl data with failed | before | ⟨t', inside⟩ | ⟨t', behind⟩
    · rw [foldl_failed failed] at done
      exact absurd (failed.symm.trans done.alive) nofun
    · have rest := ih before (fun front h => by
        have := unbroken (data :: front) (cons_prefix_cons.mpr ⟨rfl, h⟩)
        rwa [flatten_cons, foldl_append] at this) done
      rw [before.mark, before.urls]
      exact rest
    · exact absurd (first.symm.trans inside.inside) nofun
    · rw [foldl_done behind] at done
      rw [executeAll_behind behind.state, behind.mark, done.urls]
      rfl

lemma executeAll_of_unbroken (h : target segments.flatten = some url) (unbroken : Unbroken segments) :
    executeAll {} segments = [url] := by
  obtain ⟨t, pre, c, post, e, rfl, -, -, done⟩ := target_split h
  refine executeAll_foldl_done (s := {}) ⟨rfl, nofun, rfl, rfl⟩ unbroken ?_
  rw [e, append_cons, foldl_append]
  show Done (post.foldl Scan.feed (scan (pre ++ [c]))) t
  rw [foldl_done done]
  exact done

lemma executeAll_border_behind (post : List Char) (h : Inside (scan pre) t) (d : Done (scan (pre ++ [c])) t) :
    executeAll {} [pre, c :: post] = [ofList t, ""] := by
  rw [scan_concat] at d
  have second : Done ((c :: post).foldl Scan.feed (Scan.start (scan pre).parser)) [] := by
    have d' := Done.of_parser h.start d rfl
    rw [foldl_cons, foldl_done d']
    exact d'
  rw [executeAll, executeAll, executeAll, execute_inside h, execute_done h.alive second]
  rfl

lemma executeAll_border_inside {b : Char} (post : List Char)
    (h : Inside (scan pre) t) (h' : Inside (scan (pre ++ [b])) (t ++ [b]))
    (d : Done (scan (pre ++ [b] ++ [c])) (t ++ [b])) :
    executeAll {} [pre, b :: c :: post] = [ofList t, ofList [b]] := by
  rw [scan_concat] at d
  have h'' : Inside ((scan pre).feed b) (t ++ [b]) := scan_concat pre b ▸ h'
  have inside := Inside.of_parser h.start h'' rfl
  have p : ((Scan.start (scan pre).parser).feed b).parser = (scan (pre ++ [b])).parser := by
    rw [scan_concat]
    exact @parser_feed (Scan.start (scan pre).parser) (scan pre) rfl b
  have second :
      Done ((b :: c :: post).foldl Scan.feed (Scan.start (scan pre).parser)) [b] := by
    have d' := Done.of_parser inside d p
    rw [foldl_cons, foldl_cons, foldl_done d']
    exact d'
  rw [executeAll, executeAll, executeAll, execute_inside h, execute_done h.alive second]
  rfl

end Sming.Network.Http
