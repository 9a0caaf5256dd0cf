import Sming.Network.UrlText

/-!
# Reading a URL back

`UrlParts` are the components of a URL and `print` puts them together. The constructor of `URL` reads them back
(`Reparsed`) exactly if they are `Clean`: it takes any `@` for the end of credentials, it looks for the path in the query
too, it trims the credentials, and its copies end at a NUL.
-/

namespace Sming.Network.URL
open Sming.Lib Sming.Wiring.WString List Option String

abbrev Undelimited : Type := { cs : List Char // ∀ c ∈ [':', '@', '/', '?'], c ∉ cs }

structure UrlParts where
  scheme : Undelimited
  lower : scheme.val.map Char.toLower = scheme
  credentials : Option (Undelimited × Undelimited)
  host : Undelimited
  port : Option (Fin 65536)
  port_pos : port ≠ some 0
  path : List Char
  path_start : path = [] ∨ ∃ rest, path = '/' :: rest
  path_chars : '?' ∉ path
  query : List Char
  query_start : query = [] ∨ ∃ rest, query = '?' :: rest

namespace UrlParts

variable (p : UrlParts)

def credentialsPart : List Char :=
  p.credentials.elim [] fun c => c.1.val ++ ':' :: (c.2.val ++ ['@'])

def portPart : List Char := p.port.elim [] fun n => ':' :: Nat.toDigits 10 n

def behind : List Char :=
  p.credentialsPart ++ (p.host.val ++ (p.portPart ++ (p.path ++ p.query)))

def print : List Char := p.scheme.val ++ ':' :: '/' :: '/' :: p.behind

/-- The constructor returns the components; the port is compared if there is one. -/
structure Reparsed (p : UrlParts) (u : URL) : Prop where
  protocol : u.protocol = ofList p.scheme
  user : u.user = p.credentials.elim "" fun c => ofList c.1
  password : u.password = p.credentials.elim "" fun c => ofList c.2
  host : u.host = ofList p.host
  port : ∀ n ∈ p.port, u.port = some (n.val : Int)
  path : u.path = ofList p.path
  query : u.query = ofList p.query

/-- The components that can be read back: something stands behind the scheme, there is no NUL and no blank at the ends of
the credentials, no `@` behind a host without credentials, and no slash in a query without a path. -/
structure Clean (p : UrlParts) : Prop where
  ne_nil : p.behind ≠ []
  nul : '\x00' ∉ p.print
  blanks : ∀ c ∈ p.credentials, c.1.val.dropWhile isspace = c.1 ∧ c.2.val.rdropWhile isspace = c.2
  at_sign : p.credentials = none → '@' ∉ p.path ++ p.query
  slash : p.path = [] → '/' ∉ p.query

variable {p : UrlParts}

/-! ### The scheme -/

lemma before_colon_print (p : UrlParts) : before ':' p.print = p.scheme :=
  before_append_cons (p.scheme.property _ (by decide)) _

lemma schemeLength_print (ne : p.behind ≠ []) : schemeLength p.print = p.scheme.val.length + 3 := by
  have rest : p.print.drop (before ':' p.print).length = ':' :: '/' :: '/' :: p.behind := by
    rw [before_colon_print, print, drop_left]
  have some := length_pos_of_ne_nil ne
  rw [schemeLength, rest, before_colon_print]
  simp only [length_cons, take_succ_cons, take_zero, and_true]
  rw [if_pos (by omega)]

lemma behindScheme_print (ne : p.behind ≠ []) : behindScheme p.print = p.behind := by
  rw [behindScheme, schemeLength_print ne, print, ← drop_drop, drop_left]
  rfl

lemma schemeName_print (ne : p.behind ≠ []) : schemeName p.print = (before '\x00' p.scheme.val).map Char.toLower := by
  rw [schemeName, schemeLength_print ne, if_neg (by omega), before_colon_print]

lemma schemeName_eq_iff (ne : p.behind ≠ []) : schemeName p.print = p.scheme ↔ '\x00' ∉ p.scheme.val := by
  rw [schemeName_print ne, ← before_eq_self_iff]
  constructor
  · intro same
    apply (before_isPrefix '\x00' p.scheme.val).eq_of_length_le
    have lengths := congrArg List.length same
    rw [List.length_map] at lengths
    exact lengths.symm.le
  · intro same
    rw [same, p.lower]

/-! ### The credentials -/

lemma rdropWhile_before_eq_iff {cs : List Char} : (before '\x00' cs).rdropWhile isspace = cs ↔
    '\x00' ∉ cs ∧ cs.rdropWhile isspace = cs := by
  constructor
  · intro same
    have copy : before '\x00' cs = cs := by
      apply (before_isPrefix '\x00' cs).eq_of_length_le
      have shorter := (List.rdropWhile_prefix isspace (before '\x00' cs)).length_le
      rwa [same] at shorter
    rw [copy] at same
    refine ⟨?_, same⟩
    rw [← copy]
    exact not_mem_before _ _
  · rintro ⟨noNul, same⟩
    rw [before_of_not_mem noNul, same]

variable {user password : Undelimited} {c : Char} {u : URL}

lemma before_at_behind (h : p.credentials = some (user, password)) :
    before '@' p.behind = user.val ++ ':' :: password.val ∧ '@' ∈ p.behind := by
  have absent : '@' ∉ user.val ++ ':' :: password.val := by
    simp [user.property '@' (by decide), password.property '@' (by decide)]
  have cut : p.behind = (user.val ++ ':' :: password.val) ++ '@' :: (p.host.val ++ (p.portPart ++
      (p.path ++ p.query))) := by
    rw [behind, credentialsPart, h]
    simp
  rw [cut]
  exact ⟨before_append_cons absent _, mem_append_right _ mem_cons_self⟩

lemma credentials_some_iff (ne : p.behind ≠ []) (h : p.credentials = some (user, password)) :
    (∃ r, parseCredentials (ofList p.print) (schemeLength p.print) = some r ∧
      r.1 = ofList user ∧ r.2.1 = ofList password) ↔ ('\x00' ∉ user.val ∧ '\x00' ∉ password.val) ∧
      user.val.dropWhile isspace = user ∧ password.val.rdropWhile isspace = password := by
  obtain ⟨text, present⟩ := before_at_behind h
  have colon : ':' ∉ user.val := user.property _ (by decide)
  rw [← behindScheme_print ne] at present
  rw [parseCredentials_parts present rfl, credentialsText, behindScheme_print ne, text]
  by_cases nul : '\x00' ∈ user.val
  · have cut : before '\x00' (user.val ++ ':' :: password.val) = before '\x00' user.val := before_append_of_mem nul _
    rw [cut, splitString_of_not_mem (not_mem_before _ _) fun mem => colon (mem_of_mem_before mem)]
    refine iff_of_false ?_ fun h => h.1.1 nul
    rintro ⟨r, none, -⟩
    cases none
  · have cut : before '\x00' (user.val ++ ':' :: password.val) =
        user.val ++ ':' :: before '\x00' password.val := by
      rw [before_append_of_not_mem nul, before_cons_of_ne (by decide)]
    have single : ':' ∉ (before '\x00' password.val).rdropWhile isspace := fun mem =>
      password.property ':' (by decide) (mem_of_mem_before ((List.rdropWhile_prefix isspace _).subset mem))
    have whole : '\x00' ∉ user.val ++ ':' :: before '\x00' password.val := cut ▸ not_mem_before _ _
    rw [cut, splitString_append (by decide) colon whole, splitOn_eq_singleton single]
    constructor
    · rintro ⟨r, parsed, sameUser, samePassword⟩
      obtain ⟨-, e⟩ := ite_none_right_eq_some.mp parsed
      rw [← Option.some.inj e] at sameUser samePassword
      obtain ⟨noNul, trimmed⟩ := rdropWhile_before_eq_iff.mp (ofList_inj.mp samePassword)
      exact ⟨⟨nul, noNul⟩, ofList_inj.mp sameUser, trimmed⟩
    · rintro ⟨⟨-, noNul⟩, left, right⟩
      rw [rdropWhile_before_eq_iff.mpr ⟨noNul, right⟩, left]
      exact ⟨_, rfl, rfl, rfl⟩

lemma splitOn_eq_cons (d : Char) (cs : List Char) : ∃ parts, cs.splitOn d = before d cs :: parts := by
  by_cases mem : d ∈ cs
  · obtain ⟨m, cut⟩ := exists_before_append mem
    have split := splitOn_append_cons_self_of_not_mem (not_mem_before d cs) m
    rw [← cut] at split
    exact ⟨_, split⟩
  · rw [before_of_not_mem mem, splitOn_eq_singleton mem]
    exact ⟨[], rfl⟩

lemma not_mem_portPart (p : UrlParts) (digit : c.isDigit = false) (other : c ≠ ':') : c ∉ p.portPart := by
  rw [portPart]
  cases p.port with
  | none => exact not_mem_nil
  | some n =>
    rw [elim_some, mem_cons, not_or]
    refine ⟨other, fun mem => ?_⟩
    have := Nat.isDigit_of_mem_toDigits (by decide) (by decide) mem
    rw [digit] at this
    cases this

lemma exists_path_cons (p : UrlParts) (ne : p.path ++ p.query ≠ []) :
    ∃ c z, p.path ++ p.query = c :: z ∧ (c = '/' ∨ c = '?') := by
  rcases p.path_start with path | ⟨rest, path⟩
  · rcases p.query_start with query | ⟨rest, query⟩
    · rw [path, query] at ne
      exact absurd rfl ne
    · exact ⟨'?', rest, by rw [path, query, nil_append], .inr rfl⟩
  · exact ⟨'/', rest ++ p.query, by rw [path, cons_append], .inl rfl⟩

lemma credentials_none_iff (ne : p.behind ≠ []) (h : p.credentials = none) :
    (∃ r, parseCredentials (ofList p.print) (schemeLength p.print) = some r ∧ r.1 = "" ∧ r.2.1 = "") ↔
      '@' ∉ p.path ++ p.query := by
  have host : '@' ∉ p.host.val := p.host.property _ (by decide)
  have port : '@' ∉ p.portPart := p.not_mem_portPart (by decide) (by decide)
  have behind_eq : p.behind = p.host.val ++ (p.portPart ++ (p.path ++ p.query)) := by
    rw [behind, credentialsPart, h]
    rfl
  by_cases present : '@' ∈ p.path ++ p.query
  · refine iff_of_false ?_ (not_not.mpr present)
    rintro ⟨r, parsed, user, password⟩
    have found : '@' ∈ behindScheme p.print := by
      rw [behindScheme_print ne, behind_eq]
      exact mem_append_right _ (mem_append_right _ present)
    rw [parseCredentials_parts found rfl, credentialsText, behindScheme_print ne, behind_eq,
      before_append_of_not_mem host, before_append_of_not_mem port] at parsed
    obtain ⟨two, e⟩ := ite_none_right_eq_some.mp parsed
    rw [← Option.some.inj e] at user password
    -- a NUL in the host would leave no colon
    have noNul : '\x00' ∉ p.host.val := by
      intro nul
      rw [before_append_of_mem nul, splitString_of_not_mem (not_mem_before _ _) fun mem =>
        p.host.property ':' (by decide) (mem_of_mem_before mem), List.length_singleton] at two
      omega
    have whole : '\x00' ∉ p.host.val ++ before '\x00' (p.portPart ++ before '@' (p.path ++ p.query)) :=
      before_append_of_not_mem noNul _ ▸ not_mem_before _ _
    rw [before_append_of_not_mem noNul] at user password
    cases hasPort : p.port with
    | some n =>
      -- the second part starts with the digits of the port
      obtain ⟨d, ds, digits⟩ := exists_cons_of_ne_nil (Nat.toDigits_ne_nil (n := n) (b := 10))
      have digit : d.isDigit = true :=
        Nat.isDigit_of_mem_toDigits (by decide) (by decide) (digits ▸ mem_cons_self)
      have text : before '\x00' (p.portPart ++ before '@' (p.path ++ p.query)) =
          ':' :: d :: before '\x00' (ds ++ before '@' (p.path ++ p.query)) := by
        rw [portPart, hasPort, elim_some, digits, cons_append, before_cons_of_ne (by decide),
          cons_append, before_cons_of_ne (ne_of_isDigit digit (by decide))]
      rw [text] at whole
      rw [text, splitString_append (by decide) (p.host.property _ (by decide)) whole, ← nil_append (d :: _),
        rdropWhile_append (isspace_of_isDigit digit), nil_append] at password
      obtain ⟨parts, split⟩ := splitOn_eq_cons ':' (d :: (before '\x00' (ds ++ before '@' (p.path ++ p.query))).rdropWhile
        isspace)
      rw [split, before_cons_of_ne (ne_of_isDigit digit (by decide))] at password
      exact absurd (ofList_inj.mp password) (cons_ne_nil _ _)
    | none =>
      -- the first part has the slash or the question mark behind the host
      obtain ⟨c, z, start, delimiter⟩ := p.exists_path_cons (ne_nil_of_mem present)
      have others : c ≠ '@' ∧ c ≠ '\x00' ∧ c ≠ ':' ∧ isspace c = false := by
        rcases delimiter with rfl | rfl <;> decide
      obtain ⟨at_sign, nul, colon, solid⟩ := others
      have text : before '\x00' (p.portPart ++ before '@' (p.path ++ p.query)) =
          c :: before '\x00' (before '@' z) := by
        rw [portPart, hasPort, elim_none, nil_append, start, before_cons_of_ne at_sign, before_cons_of_ne nul]
      rw [text] at whole user
      rw [splitString_eq whole, trim_append solid, toList_ofList] at user
      obtain ⟨parts, split⟩ := splitOn_eq_cons ':' (p.host.val.dropWhile isspace ++
        c :: (before '\x00' (before '@' z)).rdropWhile isspace)
      rw [split, before_append_of_not_mem fun mem =>
        p.host.property ':' (by decide) ((dropWhile_sublist _).subset mem), before_cons_of_ne colon] at user
      exact absurd (ofList_inj.mp user) (by simp)
  · refine iff_of_true ⟨_, parseCredentials_none ?_, rfl, rfl⟩ present
    rw [behindScheme_print ne, behind_eq]
    simp only [mem_append, not_or] at present ⊢
    exact ⟨host, port, present⟩

lemma credentials_iff (ne : p.behind ≠ []) :
    (∃ r, parseCredentials (ofList p.print) (schemeLength p.print) = some r ∧
      r.1 = (p.credentials.elim "" fun c => ofList c.1) ∧ r.2.1 = p.credentials.elim "" fun c => ofList c.2) ↔
    '\x00' ∉ p.credentialsPart ∧
      (∀ c ∈ p.credentials, c.1.val.dropWhile isspace = c.1 ∧ c.2.val.rdropWhile isspace = c.2) ∧
      (p.credentials = none → '@' ∉ p.path ++ p.query) := by
  rw [credentialsPart]
  cases h : p.credentials with
  | none =>
    rw [elim_none, elim_none, elim_none, credentials_none_iff ne h]
    simp
  | some c =>
    rw [elim_some, elim_some, elim_some, credentials_some_iff ne h]
    simp

/-! ### What is behind the start of the host -/

def front (p : UrlParts) : List Char := p.scheme.val ++ ':' :: '/' :: '/' :: p.credentialsPart

lemma print_eq (p : UrlParts) : p.print = p.front ++ (p.host.val ++ (p.portPart ++ (p.path ++ p.query))) := by
  rw [print, front, behind]
  simp

lemma hostPlace_print (ne : p.behind ≠ []) (at_sign : p.credentials = none → '@' ∉ p.path ++ p.query) :
    hostPlace p.print = p.front.length := by
  rw [hostPlace, credentialsLength, schemeLength_print ne, behindScheme_print ne, front, credentialsPart]
  cases h : p.credentials with
  | some c =>
    obtain ⟨text, present⟩ := before_at_behind h
    rw [if_pos present, text]
    simp
    omega
  | none =>
    have absent : '@' ∉ p.behind := by
      have := at_sign h
      simp only [mem_append, not_or] at this
      rw [behind, credentialsPart, h]
      simp [this, p.host.property '@' (by decide), p.not_mem_portPart (c := '@') (by decide) (by decide)]
    rw [if_neg absent]
    simp

lemma before_query_print (p : UrlParts) : before '?' p.print = p.front ++ (p.host.val ++ (p.portPart ++ p.path)) := by
  have front : '?' ∉ p.front := by
    rw [UrlParts.front, credentialsPart]
    cases p.credentials with
    | none => simp [p.scheme.property '?' (by decide)]
    | some c => simp [p.scheme.property '?' (by decide), c.1.property '?' (by decide), c.2.property '?' (by decide)]
  have query : before '?' p.query = [] := by
    rcases p.query_start with query | ⟨rest, query⟩
    · rw [query]
      rfl
    · rw [query, before_cons_self]
  rw [print_eq, before_append_of_not_mem front, before_append_of_not_mem (p.host.property _ (by decide)),
    before_append_of_not_mem (p.not_mem_portPart (by decide) (by decide)),
    before_append_of_not_mem p.path_chars, query, append_nil]

lemma drop_query_print (p : UrlParts) : p.print.drop (before '?' p.print).length = p.query := by
  have cut : p.print = (p.front ++ (p.host.val ++ (p.portPart ++ p.path))) ++ p.query := by
    rw [print_eq]
    simp
  rw [before_query_print, cut, drop_left]

lemma slash_print (slash : p.path = [] → '/' ∉ p.query) :
    p.path = [] ∧ '/' ∉ p.print.drop p.front.length ∨
      '/' ∈ p.print.drop p.front.length ∧ before '/' (p.print.drop p.front.length) = p.host.val ++ p.portPart := by
  have host : '/' ∉ p.host.val := p.host.property _ (by decide)
  have port : '/' ∉ p.portPart := p.not_mem_portPart (by decide) (by decide)
  rw [print_eq, drop_left]
  rcases p.path_start with path | ⟨rest, path⟩
  · left
    simp [host, port, path, slash path]
  · right
    rw [path, before_append_of_not_mem host, before_append_of_not_mem port, cons_append, before_cons_self]
    simp

lemma portEnd_print (slash : p.path = [] → '/' ∉ p.query) :
    (indexOf (ofList p.print) '/' p.front.length).getD (before '?' p.print).length =
      p.front.length + (p.host.val.length + p.portPart.length) := by
  rw [indexOf_eq]
  rcases slash_print slash with ⟨path, absent⟩ | ⟨present, place⟩
  · rw [if_neg absent, before_query_print, path]
    simp
  · rw [if_pos present, place]
    simp [Nat.add_comm]

lemma portStart_print (p : UrlParts) :
    (indexOf (ofList p.print) ':' p.front.length).filter
      (· < p.front.length + (p.host.val.length + p.portPart.length)) =
    p.port.map fun _ => p.front.length + p.host.val.length := by
  have host : ':' ∉ p.host.val := p.host.property _ (by decide)
  rw [indexOf_eq, print_eq, drop_left, before_append_of_not_mem host, portPart]
  cases p.port with
  | some n =>
    rw [elim_some, cons_append, before_cons_self, if_pos (by simp), filter_some]
    simp [Nat.add_comm]
  | none =>
    split
    · rw [filter_some, if_neg (by simp; omega)]
      rfl
    · rfl

lemma parseHost_print (slash : p.path = [] → '/' ∉ p.query) (protocol user password : String)
    (h : parseHost (ofList p.print) protocol user password p.front.length = u) :
    u.host = ofList (before '\x00' p.host) ∧ (∀ n ∈ p.port, u.port = some (n.val : Int)) ∧
      u.path = ofList (before '\x00' p.path) ∧ u.query = ofList (before '\x00' p.query) := by
  subst h
  refine ⟨?_, ?_, ?_, ?_⟩
  · simp only [parseHost, length_ofList, indexOf_zero_getD, portEnd_print slash, portStart_print]
    rw [print_eq]
    apply substring_part p.front p.host _ rfl
    rw [portPart]
    cases p.port with
    | some n => rfl
    | none => rfl
  · intro n isPort
    have port : p.port = some n := isPort
    simp only [parseHost, length_ofList, indexOf_zero_getD, portEnd_print slash, portStart_print]
    have text : p.print = (p.front ++ (p.host.val ++ [':'])) ++ (Nat.toDigits 10 n ++ (p.path ++ p.query)) := by
      rw [print_eq, portPart, port]
      simp
    have copy : substring (ofList p.print) (p.front.length + p.host.val.length + 1)
        (p.front.length + (p.host.val.length + p.portPart.length)) = ofList (Nat.toDigits 10 n) := by
      rw [text, substring_part _ _ _ (by simp; omega) (by rw [portPart, port]; simp; omega), before_of_not_mem]
      intro nul
      exact absurd (Nat.isDigit_of_mem_toDigits (by decide) (by decide) nul) (by decide)
    simp only [port, map_some, copy]
    rw [toInt_toDigits (by omega)]
  · rw [parseHost_path]
    rcases slash_print slash with ⟨path, absent⟩ | ⟨present, place⟩
    · rw [if_neg absent, path]
      rfl
    · have text : p.print = (p.front ++ (p.host.val ++ p.portPart)) ++ (p.path ++ p.query) := by
        rw [print_eq]
        simp
      rw [if_pos present, place, before_query_print, text]
      exact substring_part _ _ _ (by simp; omega) (by simp; omega)
  · rw [parseHost_query, drop_query_print]

lemma path_ne_of_slash (path : p.path = []) (slash : '/' ∈ p.query) (protocol user password : String) :
    (parseHost (ofList p.print) protocol user password p.front.length).path ≠ ofList p.path := by
  obtain ⟨rest, query⟩ : ∃ rest, p.query = '?' :: rest := by
    rcases p.query_start with query | query
    · rw [query] at slash
      cases slash
    · exact query
  have tail : '/' ∈ rest := by
    rw [query] at slash
    exact (mem_cons.mp slash).resolve_left (by decide)
  have behind : p.print.drop p.front.length = p.host.val ++ (p.portPart ++ '?' :: rest) := by
    rw [print_eq, drop_left, path, query, nil_append]
  have found : '/' ∈ p.print.drop p.front.length := by
    rw [behind]
    simp [tail]
  have place : (before '/' (p.print.drop p.front.length)).length + p.front.length =
      (before '?' p.print).length + ((before '/' rest).length + 1) := by
    rw [behind, before_append_of_not_mem (p.host.property _ (by decide)),
      before_append_of_not_mem (p.not_mem_portPart (by decide) (by decide)), before_cons_of_ne (by decide),
      before_query_print, path]
    simp
    omega
  have cut : p.print.drop (before '?' p.print).length = '?' :: rest := by
    rw [drop_query_print, query]
  rw [parseHost_path, if_pos found, place, substring_comm, substring_eq, cut, take_succ_cons,
    before_cons_of_ne (by decide), path]
  intro same
  exact absurd (ofList_inj.mp same) (cons_ne_nil _ _)

lemma not_reparsed_of_behind_nil (nil : p.behind = []) (h : parse (ofList p.print) = some u) : ¬ p.Reparsed u := by
  intro reparsed
  have text : p.print = p.scheme.val ++ [':', '/', '/'] := by rw [print, nil]
  have long : p.print ≠ [] := by
    rw [text]
    simp
  have rest : p.print.drop (before ':' p.print).length = [':', '/', '/'] := by
    rw [before_colon_print, text, drop_left]
  have none : schemeName p.print = ['h', 't', 't', 'p'] := by
    rw [schemeName, schemeLength, rest]
    rfl
  have http : p.scheme.val = ['h', 't', 't', 'p'] := by
    have protocol := reparsed.protocol
    have parsed := h
    rw [parse_eq long] at parsed
    obtain ⟨r, -, rfl⟩ := map_eq_some_iff.mp parsed
    rw [none] at protocol
    exact (ofList_inj.mp protocol).symm
  have host : p.host.val = [] := by
    rw [behind, append_eq_nil_iff, append_eq_nil_iff] at nil
    exact nil.2.1
  rw [text, http] at h
  have found := Option.some.inj
    ((show parse (ofList (['h', 't', 't', 'p'] ++ [':', '/', '/'])) = some
      { protocol := "http", host := "http", port := some 0, path := "//" } by decide +kernel).symm.trans h)
  have same := reparsed.host
  rw [← found, host] at same
  exact absurd same (by decide)

lemma nul_not_mem_print_iff (p : UrlParts) : '\x00' ∉ p.print ↔ '\x00' ∉ p.scheme.val ∧ '\x00' ∉ p.credentialsPart ∧
    '\x00' ∉ p.host.val ∧ '\x00' ∉ p.path ∧ '\x00' ∉ p.query := by
  have port : '\x00' ∉ p.portPart := p.not_mem_portPart (by decide) (by decide)
  rw [print, behind]
  simp [port]

/-- For all components: the constructor reads them back from the text they make up exactly if they are clean. -/
theorem parse_print_iff (p : UrlParts) : (∃ u, parse (ofList p.print) = some u ∧ p.Reparsed u) ↔ p.Clean := by
  have long : p.print ≠ [] := by simp [print]
  constructor
  · rintro ⟨u, parsed, reparsed⟩
    have ne : p.behind ≠ [] := fun nil => not_reparsed_of_behind_nil nil parsed reparsed
    rw [parse_eq long] at parsed
    obtain ⟨r, credentials, rfl⟩ := map_eq_some_iff.mp parsed
    obtain ⟨noNul, blanks, at_sign⟩ := (credentials_iff ne).mp ⟨r, credentials, reparsed.user, reparsed.password⟩
    rw [hostPlace_of_parseCredentials credentials, hostPlace_print ne at_sign] at reparsed
    have slash : p.path = [] → '/' ∉ p.query := fun path mem =>
      path_ne_of_slash path mem _ _ _ reparsed.path
    obtain ⟨host, -, path, query⟩ := parseHost_print slash _ _ _ rfl
    refine ⟨ne, p.nul_not_mem_print_iff.mpr ⟨?_, noNul, ?_, ?_, ?_⟩, blanks, at_sign, slash⟩
    · exact (schemeName_eq_iff ne).mp (ofList_inj.mp reparsed.protocol)
    · exact before_eq_self_iff.mp (ofList_inj.mp (host.symm.trans reparsed.host))
    · exact before_eq_self_iff.mp (ofList_inj.mp (path.symm.trans reparsed.path))
    · exact before_eq_self_iff.mp (ofList_inj.mp (query.symm.trans reparsed.query))
  · intro clean
    obtain ⟨scheme, credentials, nulHost, nulPath, nulQuery⟩ := p.nul_not_mem_print_iff.mp clean.nul
    obtain ⟨r, read, user, password⟩ := (credentials_iff clean.ne_nil).mpr ⟨credentials, clean.blanks, clean.at_sign⟩
    rw [parse_eq long, read, map_some, hostPlace_of_parseCredentials read, hostPlace_print clean.ne_nil clean.at_sign]
    refine ⟨_, rfl, ?_⟩
    obtain ⟨host, port, path, query⟩ := parseHost_print clean.slash (ofList (schemeName p.print)) r.1 r.2.1 rfl
    rw [before_of_not_mem nulHost] at host
    rw [before_of_not_mem nulPath] at path
    rw [before_of_not_mem nulQuery] at query
    exact ⟨congrArg ofList ((schemeName_eq_iff clean.ne_nil).mpr scheme), user, password, host, port, path, query⟩

-- without a path, a slash in the query moves the end of the host and turns the path around
example : parse "http://h?f=/a" = some
    { protocol := "http", host := "h?f=", port := some 80, path := "?f=", query := "?f=/a" } := by decide +kernel

def mailQuery : UrlParts where
  scheme := ⟨['h', 't', 't', 'p'], by simp⟩
  lower := by decide
  credentials := none
  host := ⟨['h'], by simp⟩
  port := none
  port_pos := by decide
  path := []
  path_start := .inl rfl
  path_chars := by decide
  query := "?m=a@b".toList
  query_start := .inr ⟨_, rfl⟩

/-- An `@` in the query aborts. -/
theorem parse_print_loses : ¬ ∀ p : UrlParts, ∃ u, parse (ofList p.print) = some u ∧ p.Reparsed u := by
  intro all
  obtain ⟨u, parsed, -⟩ := all mailQuery
  rw [show parse (ofList mailQuery.print) = none by decide +kernel] at parsed
  cases parsed

end UrlParts

end Sming.Network.URL
