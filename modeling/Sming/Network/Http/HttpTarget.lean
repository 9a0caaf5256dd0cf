import Sming.Network.Http.HttpServerConnection
import Sming.Network.UrlText

/-!
# The target of a request

`staticOnPath` makes a `URL` from the target of a request, which for a server starts with a slash. The constructor
was written for URLs with a scheme: it looks for `://` and `@` everywhere in the text, also in the path and in the
query of a target. If it finds one, the host starts behind it and the path is not the one that was sent.
-/

namespace Sming.Network.Http
open Sming.Lib Sming.Wiring.WString List Option String HttpServerConnection
open Sming.Network.URL (schemeLength behindScheme hostPlace parseHost)

variable {t rest : List Char}

lemma parseHost_path_zero (rest : List Char) (protocol user password : String) :
    (parseHost (ofList ('/' :: rest)) protocol user password 0).path =
      ofList (before '\x00' (before '?' ('/' :: rest))) := by
  have copy := substring_eq ('/' :: rest) 0 (before '?' ('/' :: rest)).length
  rw [drop_zero, ← prefix_iff_eq_take.mp (before_isPrefix '?' _), Nat.zero_add] at copy
  rw [URL.parseHost_path, drop_zero, if_pos mem_cons_self, before_cons_self]
  exact copy

lemma substring_ne_before {pathStart : Nat} (later : 0 < pathStart) (inside : pathStart ≤ ('/' :: rest).length) :
    (substring (ofList ('/' :: rest)) pathStart (before '?' ('/' :: rest)).length).toList ≠
      before '?' ('/' :: rest) := by
  generalize target : '/' :: rest = t at *
  by_cases order : pathStart ≤ (before '?' t).length
  · obtain ⟨n, length⟩ := Nat.exists_eq_add_of_le order
    rw [length, substring_eq, toList_ofList]
    intro same
    have shorter := (before_isPrefix '\x00' ((t.drop pathStart).take n)).length_le
    rw [same, length_take] at shorter
    omega
  · obtain ⟨n, place⟩ := Nat.exists_eq_add_of_lt (Nat.lt_of_not_le order)
    have query : '?' ∈ t := by
      by_contra absent
      rw [before_of_not_mem absent] at order
      exact order inside
    obtain ⟨m, behind⟩ := exists_drop_before query
    rw [substring_comm, place, Nat.add_assoc, substring_eq, behind, take_succ_cons,
      before_cons_of_ne (by decide), toList_ofList, ← target, before_cons_of_ne (by decide)]
    intro same
    exact absurd (List.cons.inj same).1 (by decide)

lemma parseHost_path_ne (rest : List Char) (protocol user password : String) {hostStart : Nat}
    (later : 0 < hostStart) :
    (parseHost (ofList ('/' :: rest)) protocol user password hostStart).path.toList ≠
      before '?' ('/' :: rest) := by
  rw [URL.parseHost_path]
  by_cases slash : '/' ∈ ('/' :: rest).drop hostStart
  · have inside := (before_isPrefix '/' (('/' :: rest).drop hostStart)).length_le
    rw [length_drop] at inside
    have start : hostStart < ('/' :: rest).length := by
      by_contra behind
      rw [drop_of_length_le (Nat.le_of_not_lt behind)] at slash
      cases slash
    rw [if_pos slash]
    exact substring_ne_before (by omega) (by omega)
  · rw [if_neg slash, before_cons_of_ne (by decide)]
    exact (cons_ne_nil _ _).symm

/-- The target has no `://` behind its first colon, no `@` and no NUL. -/
structure Plain (t : List Char) : Prop where
  scheme : schemeLength t = 0
  credentials : '@' ∉ t
  nul : '\x00' ∉ t

/-- The URL has the path in front of the first question mark, and path and query make up the target. -/
structure Sees (u : URL) (t : List Char) : Prop where
  path : u.path.toList = before '?' t
  whole : u.path ++ u.query = ofList t

lemma hostPlace_eq_zero_iff : hostPlace t = 0 ↔ schemeLength t = 0 ∧ '@' ∉ t := by
  rw [hostPlace, Nat.add_eq_zero_iff, URL.credentialsLength]
  constructor
  · rintro ⟨scheme, credentials⟩
    rw [behindScheme, scheme, drop_zero] at credentials
    refine ⟨scheme, fun mem => ?_⟩
    rw [if_pos mem] at credentials
    cases credentials
  · rintro ⟨scheme, absent⟩
    rw [behindScheme, scheme, drop_zero, if_neg absent]
    exact ⟨rfl, rfl⟩

lemma sees_zero_iff (rest : List Char) (protocol user password : String) :
    Sees (parseHost (ofList ('/' :: rest)) protocol user password 0) ('/' :: rest) ↔
      '\x00' ∉ '/' :: rest := by
  have path := parseHost_path_zero rest protocol user password
  have query := URL.parseHost_query ('/' :: rest) protocol user password 0
  have parts := prefix_iff_eq_append.mp (before_isPrefix '?' ('/' :: rest))
  constructor
  · intro sees
    have whole := sees.whole
    rw [path, query, ← ofList_append, ofList_inj] at whole
    rw [← whole, mem_append, not_or]
    exact ⟨not_mem_before _ _, not_mem_before _ _⟩
  · intro noNul
    rw [← parts, mem_append, not_or] at noNul
    refine ⟨?_, ?_⟩
    · rw [path, before_of_not_mem noNul.1, toList_ofList]
    · rw [path, query, before_of_not_mem noNul.1, before_of_not_mem noNul.2, ← ofList_append, parts]

lemma exists_sees_of_plain (plain : Plain ('/' :: rest)) :
    ∃ u, URL.parse (ofList ('/' :: rest)) = some u ∧ Sees u ('/' :: rest) := by
  have front := hostPlace_eq_zero_iff.mpr ⟨plain.scheme, plain.credentials⟩
  have behind : '@' ∉ behindScheme ('/' :: rest) := by
    rw [behindScheme, plain.scheme]
    exact plain.credentials
  refine ⟨_, ?_, (sees_zero_iff rest (ofList (URL.schemeName ('/' :: rest))) "" "").mpr plain.nul⟩
  rw [URL.parse_eq (cons_ne_nil _ _), URL.parseCredentials_none behind, front, map_some]

lemma parse_of_onUrls {c : HttpServerConnection} {tree} (h : c.resourceTree = some tree) {s : String} {u : URL}
    (e : c.onUrls [s] = some (c.onPath u).1) : URL.parse s = some u := by
  rw [onUrls] at e
  obtain ⟨v, parsed, e⟩ := bind_eq_some_iff.mp e
  obtain ⟨ok, uri, -⟩ := onPath_of_tree h v
  rw [if_pos ok, onUrls] at e
  have same := congrArg HttpServerConnection.uri (Option.some.inj e)
  rw [uri, (onPath_of_tree h u).2.1] at same
  rw [parsed, same]

/-- A target that starts with a slash is seen in path and query as the client sent it, and routed by this path,
exactly if it is plain. -/
theorem onPath_sees_target_iff {c : HttpServerConnection} {tree} (h : c.resourceTree = some tree) (rest : List Char) :
    (∃ u, c.onUrls [ofList ('/' :: rest)] = some (c.onPath u).1 ∧ Sees u ('/' :: rest)) ↔
      Plain ('/' :: rest) := by
  have ne : '/' :: rest ≠ [] := cons_ne_nil _ _
  constructor
  · rintro ⟨u, served, sees⟩
    have parsed := parse_of_onUrls h served
    rw [URL.parse_eq ne] at parsed
    obtain ⟨r, credentials, rfl⟩ := map_eq_some_iff.mp parsed
    rw [URL.hostPlace_of_parseCredentials credentials] at sees
    have front : hostPlace ('/' :: rest) = 0 := by
      by_contra later
      exact parseHost_path_ne rest _ _ _ (Nat.pos_of_ne_zero later) sees.path
    rw [front] at sees
    obtain ⟨scheme, absent⟩ := hostPlace_eq_zero_iff.mp front
    exact ⟨scheme, absent, (sees_zero_iff rest _ _ _).mp sees⟩
  · intro plain
    obtain ⟨u, parsed, sees⟩ := exists_sees_of_plain plain
    obtain ⟨ok, -⟩ := onPath_of_tree h u
    refine ⟨u, ?_, sees⟩
    rw [onUrls, parsed, bind_some, if_pos ok, onUrls]

theorem onPath_sees_target_iff_colons : ∃ u,
    { resourceTree := some {} : HttpServerConnection }.onUrls ["/a:b?c=d:e"] =
      some ({ resourceTree := some {} : HttpServerConnection }.onPath u).1 ∧ Sees u "/a:b?c=d:e".toList :=
  (onPath_sees_target_iff rfl "a:b?c=d:e".toList).mpr ⟨by decide, by decide, by decide⟩

/-- A URL in the query is taken for the URL of the request: the path is the one of that URL. -/
theorem onPath_misses_target : ¬ ∀ (c : HttpServerConnection) tree, c.resourceTree = some tree → ∀ rest,
    ∃ u, c.onUrls [ofList ('/' :: rest)] = some (c.onPath u).1 ∧ Sees u ('/' :: rest) := by
  intro all
  obtain ⟨u, served, sees⟩ := all { resourceTree := some {} } {} rfl "go?u=ftp://h/f".toList
  have parsed := parse_of_onUrls rfl served
  have other : URL.parse "/go?u=ftp://h/f" = some
      { protocol := "/go?u=ftp", host := "h", path := "?u=ftp://h", query := "?u=ftp://h/f" } := by
    decide +kernel
  rw [show ofList ('/' :: "go?u=ftp://h/f".toList) = "/go?u=ftp://h/f" from rfl, other] at parsed
  cases parsed
  exact absurd sees.path (by decide)

end Sming.Network.Http
