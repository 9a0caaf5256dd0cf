import Sming.Network.URL

/-!
# What the text of a URL determines

The parts of a text that the constructor of `URL` looks at, described without positions: the scheme in front of the
first `://`, the credentials in front of the first `@` behind it, and the host behind both. The constructor calls
`abort()` if the credentials have no colon, and it leaves `Port` as it was in memory if the text is empty, or names
no port and has a scheme without a default.
-/

namespace Sming.Network.URL
open Sming.Lib Sming.Wiring.WString List Option String

/-- The characters of the scheme and of `://`; none if the first colon is not followed by two slashes and
something else. -/
def schemeLength (t : List Char) : Nat :=
  let rest := t.drop (before ':' t).length
  if 3 < rest.length ∧ rest.take 3 = [':', '/', '/'] then (before ':' t).length + 3 else 0

def behindScheme (t : List Char) : List Char := t.drop (schemeLength t)

def schemeName (t : List Char) : List Char :=
  if schemeLength t = 0 then ['h', 't', 't', 'p'] else (before '\x00' (before ':' t)).map Char.toLower

/-- The characters of the credentials and of `@`. -/
def credentialsLength (t : List Char) : Nat :=
  if '@' ∈ behindScheme t then (before '@' (behindScheme t)).length + 1 else 0

def hostPlace (t : List Char) : Nat := schemeLength t + credentialsLength t

/-- A port stands behind the host: a colon in front of the path, and of the query if there is no path. -/
def NamesPort (front host : List Char) : Prop :=
  if '/' ∈ host then ':' ∈ before '/' host else '?' ∉ front ∧ ':' ∈ before '?' host

variable {t : List Char}

lemma before_nul_eq_iff {cs : List Char} (short : cs.length ≤ 3) :
    before '\x00' cs = [':', '/', '/'] ↔ cs = [':', '/', '/'] := by
  constructor
  · intro h
    have whole := before_isPrefix '\x00' cs
    rw [h] at whole
    exact (whole.eq_of_length_le short).symm
  · rintro rfl
    decide

lemma parseProtocol_eq (t : List Char) : parseProtocol (ofList t) = (ofList (schemeName t), schemeLength t) := by
  rw [parseProtocol, indexOf_eq, drop_zero, schemeName, schemeLength]
  by_cases colon : ':' ∈ t
  · have protocol : substring (ofList t) 0 (before ':' t).length = ofList (before '\x00' (before ':' t)) := by
      have copy := substring_eq t 0 (before ':' t).length
      rwa [Nat.zero_add, drop_zero, prefix_iff_eq_take.mp (before_isPrefix ':' t) |>.symm] at copy
    have slashes : substring (ofList t) (before ':' t).length ((before ':' t).length + 3) = "://" ↔
        (t.drop (before ':' t).length).take 3 = [':', '/', '/'] := by
      rw [substring_eq, ← before_nul_eq_iff (length_take_le _ _), ← ofList_inj]
    simp only [if_pos colon, Nat.add_zero, length_ofList, slashes, protocol, length_drop]
    split
    · rw [if_neg (Nat.succ_ne_zero _), toLowerCase, toList_ofList]
    · rfl
  · simp only [if_neg colon, before_of_not_mem colon, drop_length]
    rfl

lemma schemeLength_le (t : List Char) : schemeLength t ≤ t.length := by
  rw [schemeLength, length_drop]
  split
  · omega
  · exact Nat.zero_le _

/-- The text of the credentials, as the constructor copies it. -/
def credentialsText (t : List Char) : List Char := before '\x00' (before '@' (behindScheme t))

lemma nul_not_mem_credentialsText (t : List Char) : '\x00' ∉ credentialsText t := not_mem_before _ _

lemma parseCredentials_none (absent : '@' ∉ behindScheme t) :
    parseCredentials (ofList t) (schemeLength t) = some ("", "", hostPlace t) := by
  rw [behindScheme] at absent
  rw [parseCredentials, indexOf_eq, if_neg absent, hostPlace, credentialsLength, behindScheme, if_neg absent]
  rfl

lemma parseCredentials_parts (credentials : '@' ∈ behindScheme t) {parts : List String}
    (split : splitString (ofList (credentialsText t)) ':' = parts) :
    parseCredentials (ofList t) (schemeLength t) =
      if 2 ≤ parts.length then some (parts.getD 0 "", parts.getD 1 "", hostPlace t) else none := by
  have copy := substring_eq t (schemeLength t) (before '@' (behindScheme t)).length
  rw [← behindScheme, ← prefix_iff_eq_take.mp (before_isPrefix '@' _), Nat.add_comm, ← credentialsText] at copy
  have place : hostPlace t = (before '@' (behindScheme t)).length + schemeLength t + 1 := by
    rw [hostPlace, credentialsLength, if_pos credentials]
    omega
  rw [parseCredentials, indexOf_eq, ← behindScheme, if_pos credentials]
  simp only [copy, split, place]
  rcases parts with _ | ⟨user, _ | ⟨password, rest⟩⟩
  · rfl
  · rfl
  · rw [if_pos (show 2 ≤ (user :: password :: rest).length from Nat.le_add_left 2 rest.length)]
    rfl

lemma hostPlace_le (t : List Char) : hostPlace t ≤ t.length := by
  have scheme := schemeLength_le t
  rw [hostPlace, credentialsLength, behindScheme]
  split
  case isTrue credentials =>
    obtain ⟨m, cut⟩ := exists_before_append credentials
    have lengths := congrArg List.length cut
    rw [length_drop, List.length_append, length_cons] at lengths
    omega
  case isFalse => omega

lemma parseCredentials_isSome_iff (t : List Char) :
    (parseCredentials (ofList t) (schemeLength t)).isSome ↔ ('@' ∈ behindScheme t → ':' ∈ credentialsText t) := by
  by_cases credentials : '@' ∈ behindScheme t
  · rw [parseCredentials_parts credentials rfl]
    by_cases colon : ':' ∈ credentialsText t
    · obtain ⟨m, cut⟩ := exists_before_append colon
      have two : 2 ≤ (splitString (ofList (credentialsText t)) ':').length := by
        have whole := nul_not_mem_credentialsText t
        rw [cut] at whole
        rw [cut, splitString_append (by decide) (not_mem_before _ _) whole, length_cons, List.length_map]
        have := length_pos_of_ne_nil (splitOn_ne_nil ':' (m.rdropWhile isspace))
        omega
      rw [if_pos two]
      exact iff_of_true rfl fun _ => colon
    · rw [splitString_of_not_mem (nul_not_mem_credentialsText t) colon]
      exact iff_of_false Bool.false_ne_true fun h => colon (h credentials)
  · rw [parseCredentials_none credentials]
    exact iff_of_true rfl fun h => absurd h credentials

lemma portStart_isSome_iff {front host : List Char} :
    ((indexOf (ofList (front ++ host)) ':' front.length).filter (· <
      (indexOf (ofList (front ++ host)) '/' front.length).getD
        ((indexOf (ofList (front ++ host)) '?' 0).getD (front ++ host).length))).isSome ↔
      NamesPort front host := by
  rw [indexOf_zero_getD, indexOf_eq, indexOf_eq, drop_left, NamesPort]
  by_cases colon : ':' ∈ host
  · rw [if_pos colon, filter_some]
    by_cases path : '/' ∈ host
    · rw [if_pos path, if_pos path, mem_before_iff, and_iff_right colon]
      simp
    · rw [if_neg path, if_neg path, getD_none, mem_before_iff, and_iff_right colon]
      by_cases query : '?' ∈ front
      · have le := (before_isPrefix '?' front).length_le
        rw [before_append_of_mem query, if_neg (by simp; omega)]
        exact iff_of_false Bool.false_ne_true fun h => h.1 query
      · rw [before_append_of_not_mem query, List.length_append, and_iff_right query]
        simp [Nat.add_comm front.length]
  · rw [if_neg colon]
    refine iff_of_false Bool.false_ne_true ?_
    split
    · exact fun h => colon (mem_of_mem_before h)
    · exact fun h => colon (mem_of_mem_before h.2)

lemma parse_eq (ne : t ≠ []) : parse (ofList t) = (parseCredentials (ofList t) (schemeLength t)).map fun r =>
      parseHost (ofList t) (ofList (schemeName t)) r.1 r.2.1 r.2.2 := by
  have long : ¬ (ofList t).length = 0 := by
    rw [length_ofList, List.length_eq_zero_iff]
    exact ne
  rw [parse, if_neg long, parseProtocol_eq]

lemma hostPlace_of_parseCredentials {r : String × String × Nat}
    (h : parseCredentials (ofList t) (schemeLength t) = some r) : r.2.2 = hostPlace t := by
  by_cases credentials : '@' ∈ behindScheme t
  · rw [parseCredentials_parts credentials rfl] at h
    obtain ⟨-, e⟩ := ite_none_right_eq_some.mp h
    rw [← Option.some.inj e]
  · rw [parseCredentials_none credentials] at h
    rw [← Option.some.inj h]

lemma parseHost_query (t : List Char) (protocol user password : String) (hostStart : Nat) :
    (parseHost (ofList t) protocol user password hostStart).query =
      ofList (before '\x00' (t.drop (before '?' t).length)) := by
  have copy := substring_eq t (before '?' t).length (t.length - (before '?' t).length)
  rw [← length_drop, take_length, length_drop, Nat.add_sub_cancel' (before_isPrefix '?' t).length_le] at copy
  simp only [parseHost, length_ofList, indexOf_zero_getD]
  split
  · exact copy
  case isFalse none =>
    rw [not_not.mp none, drop_length]
    rfl

lemma parseHost_path (t : List Char) (protocol user password : String) (hostStart : Nat) :
    (parseHost (ofList t) protocol user password hostStart).path =
      if '/' ∈ t.drop hostStart then
        substring (ofList t) ((before '/' (t.drop hostStart)).length + hostStart) (before '?' t).length
      else "" := by
  simp only [parseHost, length_ofList, indexOf_zero_getD]
  by_cases slash : '/' ∈ t.drop hostStart
  · rw [indexOf_eq, if_pos slash, if_pos slash]
  · rw [indexOf_eq, if_neg slash, if_neg slash]

lemma port_isSome_iff (t protocol : List Char) (user password : String) {hostStart : Nat}
    (le : hostStart ≤ t.length) :
    (parseHost (ofList t) (ofList protocol) user password hostStart).port.isSome ↔
      NamesPort (t.take hostStart) (t.drop hostStart) ∨
        ofList protocol ∈ ["http", "https", "wss"] := by
  have place := @portStart_isSome_iff (t.take hostStart) (t.drop hostStart)
  rw [take_append_drop, length_take_of_le le] at place
  simp only [parseHost, length_ofList]
  rw [← place]
  generalize (indexOf (ofList t) ':' hostStart).filter _ = portStart
  cases portStart with
  | some portStart => exact iff_of_true rfl (.inl rfl)
  | none =>
    simp only [mem_cons, not_mem_nil, or_false, isSome_none, Bool.false_eq_true, false_or]
    split
    case isTrue secure => exact iff_of_true rfl (.inr secure)
    case isFalse plain =>
      split
      case isTrue default => exact iff_of_true rfl (.inl default)
      case isFalse other => exact iff_of_false Bool.false_ne_true (not_or.mpr ⟨other, plain⟩)

/-- The constructor, with the value that the memory of `Port` had. -/
def construct (memory : Int32) (s : String) : Option URL :=
  (parse s).map fun u => { u with port := some (u.port.getD memory.toInt) }

/-- The text is not empty, its credentials have a colon, and it names a port or its scheme has a default one. -/
structure Determined (t : List Char) : Prop where
  ne_nil : t ≠ []
  credentials : '@' ∈ behindScheme t → ':' ∈ credentialsText t
  port : NamesPort (t.take (hostPlace t)) (t.drop (hostPlace t)) ∨
    ofList (schemeName t) ∈ ["http", "https", "wss"]

/-- For every text: the constructor ends with fields that do not depend on what was in memory before, exactly if the
text is determined. -/
theorem construct_determined_iff (s : String) :
    (∃ u, ∀ memory, construct memory s = some u) ↔ Determined s.toList := by
  obtain ⟨t, rfl⟩ : ∃ t, s = ofList t := ⟨s.toList, ofList_toList.symm⟩
  rw [toList_ofList]
  constructor
  · rintro ⟨u, same⟩
    obtain ⟨v, parsed, -⟩ := map_eq_some_iff.mp (same 0)
    -- two values of the memory show whether `Port` was set
    have set : v.port.isSome := by
      by_contra unset
      have zero := same 0
      have one := same 1
      simp only [construct, parsed, map_some, not_isSome_iff_eq_none.mp unset, getD_none] at zero one
      have differ := congrArg URL.port (Option.some.inj (zero.trans one.symm))
      exact absurd differ (by decide : ¬ some (Int32.toInt 0) = some (Int32.toInt 1))
    have ne : t ≠ [] := by
      rintro rfl
      rw [show parse (ofList []) = some {} from rfl] at parsed
      cases parsed
      cases set
    rw [parse_eq ne] at parsed
    obtain ⟨r, credentials, rfl⟩ := map_eq_some_iff.mp parsed
    refine ⟨ne, (parseCredentials_isSome_iff t).mp (isSome_of_eq_some credentials), ?_⟩
    rw [hostPlace_of_parseCredentials credentials] at set
    exact (port_isSome_iff t _ _ _ (hostPlace_le t)).mp set
  · intro determined
    obtain ⟨r, credentials⟩ :=
      isSome_iff_exists.mp ((parseCredentials_isSome_iff t).mpr determined.credentials)
    have set := (port_isSome_iff t (schemeName t) r.1 r.2.1 (hostPlace_le t)).mpr determined.port
    rw [← hostPlace_of_parseCredentials credentials] at set
    obtain ⟨port, port_eq⟩ := isSome_iff_exists.mp set
    refine ⟨{ parseHost (ofList t) (ofList (schemeName t)) r.1 r.2.1 r.2.2 with port := some port }, fun memory => ?_⟩
    rw [construct, parse_eq determined.ne_nil, credentials]
    simp only [map_some, port_eq, getD_some]

/-- A request target with an `@` and no colon in front of it aborts, and a scheme without a default leaves `Port`
open. -/
theorem construct_undetermined : ¬ (∀ s, ∃ u, construct 0 s = some u) ∧
    ¬ ∀ s memory memory', construct memory s = construct memory' s := by
  constructor
  · intro all
    obtain ⟨u, h⟩ := all "/a@b"
    rw [show construct 0 "/a@b" = none by decide] at h
    cases h
  · intro all
    exact absurd (all "ws://a" 0 1) (by decide)

end Sming.Network.URL
