import Sming.Network.SmtpReplies

/-!
# Where the SMTP parser looks

`smtpParse` always ends (`smtpParse_ends`), but it does not always stay in its buffer. It leaves it in a
buffer that begins inside of a line, and at three kinds of ends of a buffer (`Overruns`): a separator with
nothing behind it, an empty line that ends with a lone line feed where a message or a challenge is copied,
and `AUTH ` with a lone line feed.
-/

namespace Sming.Network
open Sming.Wiring Sming.Network.Http SmtpParser List

namespace SmtpClient

variable {k : Codec} {c c' : SmtpClient}

/-- What may not be left of the buffer behind a code. -/
inductive Overruns (c : SmtpClient) : List UInt8 → Prop where
  | noText {b : UInt8} : Separator b → Overruns c [b]
  | noLine {b : UInt8} :
    Separator b →
    successCode c.state ≠ some (strtol c.code) ∨ c.state = .requestingAuthChallenge →
    Overruns c [b, lf]
  | noMethods {b : UInt8} :
    Separator b →
    c.state = .hello →
    strtol c.code = 250 →
    Overruns c (b :: (bytes "AUTH " ++ [lf]))

/-- A buffer that the parser does not leave. -/
def Within (k : Codec) (c : SmtpClient) (buf : List UInt8) : Prop :=
  c.codeLength ≤ 3 ∧
    ∀ pre tail c', buf = pre ++ tail → Accepts k c pre c' → c'.codeLength = 3 → ¬ Overruns c' tail

/-! ### A line that ends with a lone line feed -/

variable {mem tail : List UInt8} {n : Int} {b : UInt8}

lemma read_before (neg : n < 0) : SmtpParser.read mem n = .error .outside := if_neg fun inside => by omega

variable {v : List UInt8}

lemma copyMessage_bare (ne : v ≠ []) (c : SmtpClient) : ∃ c', copyMessage (v ++ [lf]) (v.length - 1) c = .ok c' := by
  have some : 0 < v.length := length_pos_of_ne_nil ne
  have inside : SmtpParser.read (v ++ [lf]) (min (v.length - 1) smtpErrorLength) =
      .ok ((v ++ [lf]).take (min (v.length - 1 : Int) smtpErrorLength).toNat) := by
    refine if_pos ⟨by omega, ?_⟩
    rw [List.length_append]
    omega
  exact ⟨_, by rw [copyMessage, inside]; rfl⟩

lemma copyMessage_empty (c : SmtpClient) : copyMessage [lf] (([] : List UInt8).length - 1) c = .error .outside := by
  rw [copyMessage, read_before (by decide)]
  rfl

lemma capability_ok {pipelining startTLS auth : Bool}
    (first : strncmp mem (bytes "PIPELINING") (sizeT n) = .ok pipelining)
    (second : strncmp mem (bytes "STARTTLS") (sizeT n) = .ok startTLS)
    (third : strncmp mem (bytes "AUTH ") 5 = .ok auth)
    (methods : auth = true → ∃ text, SmtpParser.read (mem.drop 5) (n - 5) = .ok text) :
    ∃ c', capability mem n c = .ok c' := by
  simp only [capability, first, second, third, bind, Except.bind]
  cases pipelining with
  | true => exact ⟨_, rfl⟩
  | false =>
    cases startTLS with
    | true => exact ⟨_, rfl⟩
    | false =>
      cases auth with
      | false => exact ⟨_, rfl⟩
      | true =>
        obtain ⟨text, inside⟩ := methods rfl
        rw [inside]
        exact ⟨_, rfl⟩

lemma strncmp_bare_auth (v : List UInt8) :
    strncmp (v ++ [lf]) (bytes "AUTH ") 5 = .ok ((bytes "AUTH ").isPrefixOf v) :=
  strncmp_stop (by decide) v []

lemma capability_empty (c : SmtpClient) : ∃ c', capability [lf] (([] : List UInt8).length - 1) c = .ok c' := by
  have pipelining : strncmp [lf] (bytes "PIPELINING") (sizeT (([] : List UInt8).length - 1)) = .ok false := rfl
  have startTLS : strncmp [lf] (bytes "STARTTLS") (sizeT (([] : List UInt8).length - 1)) = .ok false := rfl
  exact capability_ok pipelining startTLS (strncmp_bare_auth []) fun h => (by cases h)

lemma capability_bare (ne : v ≠ []) (other : v ≠ bytes "AUTH ") (c : SmtpClient) :
    ∃ c', capability (v ++ [lf]) (v.length - 1) c = .ok c' := by
  have some : 0 < v.length := length_pos_of_ne_nil ne
  have inside : sizeT (v.length - 1) ≤ (v ++ [lf]).length := by
    rw [List.length_append, sizeT]
    omega
  refine capability_ok (strncmp_take _ inside) (strncmp_take _ inside) (strncmp_bare_auth v) fun start => ?_
  obtain ⟨w, rfl⟩ := isPrefixOf_iff_prefix.1 start
  have more : 0 < w.length := by
    refine length_pos_of_ne_nil fun none => other ?_
    rw [none, append_nil]
  have five : (bytes "AUTH ").length = 5 := by decide
  refine ⟨_, if_pos ⟨?_, ?_⟩⟩
  · rw [List.length_append, five]
    omega
  · rw [length_drop, List.length_append, List.length_append, five]
    simp
    omega

lemma capability_noMethods (c : SmtpClient) :
    capability (bytes "AUTH " ++ [lf]) ((bytes "AUTH ").length - 1) c = .error .outside := by
  rfl

variable {e : Fault}

lemma onLine_bare_error (h : onLine k (v ++ [lf]) (v.length - 1) c = .error e) :
    v = [] ∧ (successCode c.state ≠ some c.codeValue ∨ c.state = .requestingAuthChallenge) ∨
      v = bytes "AUTH " ∧ c.state = .hello ∧ c.codeValue = 250 := by
  obtain no | ⟨code, success, ne⟩ | ⟨hello, ok⟩ | ⟨challenge, ok⟩ | ⟨success, hello, challenge⟩ := line_cases c
  · refine .inl ⟨?_, .inl fun eq => (by rw [no] at eq; cases eq)⟩
    by_contra some
    obtain ⟨c', copied⟩ := copyMessage_bare some c.heard
    rw [onLine_unexpected no, copied] at h
    cases h
  · refine .inl ⟨?_, .inl fun eq => ne (Option.some.inj (eq.symm.trans success))⟩
    by_contra some
    obtain ⟨c', copied⟩ := copyMessage_bare some c.heard
    rw [onLine_refused success ne, copied] at h
    cases h
  · refine .inr ⟨?_, hello, ok⟩
    by_contra other
    rw [onLine_hello hello ok] at h
    by_cases none : v = []
    · subst none
      obtain ⟨c', learnt⟩ := capability_empty c.heard
      rw [nil_append, learnt] at h
      cases h
    · obtain ⟨c', learnt⟩ := capability_bare none other c.heard
      rw [learnt] at h
      cases h
  · refine .inl ⟨?_, .inr challenge⟩
    by_contra ne
    have some : 0 < v.length := length_pos_of_ne_nil ne
    have inside : SmtpParser.read (v ++ [lf]) (v.length - 1) =
        .ok ((v ++ [lf]).take (v.length - 1 : Int).toNat) := by
      refine if_pos ⟨by omega, ?_⟩
      rw [List.length_append]
      omega
    rw [onLine_challenge challenge ok, inside] at h
    cases h
  · rw [onLine_proceeds success hello challenge] at h
    cases h

lemma onLine_empty (bad : successCode c.state ≠ some c.codeValue ∨ c.state = .requestingAuthChallenge) :
    onLine k [lf] (([] : List UInt8).length - 1) c = .error .outside := by
  obtain no | ⟨code, success, ne⟩ | ⟨hello, ok⟩ | ⟨challenge, ok⟩ | ⟨success, hello, challenge⟩ := line_cases c
  · rw [onLine_unexpected no, copyMessage_empty]
    rfl
  · rw [onLine_refused success ne, copyMessage_empty]
    rfl
  · rw [hello, ok] at bad
    rcases bad with ne | state
    · exact absurd rfl ne
    · cases state
  · rw [onLine_challenge challenge ok, read_before (by decide)]
    rfl
  · rcases bad with ne | state
    · exact absurd success ne
    · exact absurd state challenge

lemma onLine_noMethods (hello : c.state = .hello) (ok : c.codeValue = 250) :
    onLine k (bytes "AUTH " ++ [lf]) ((bytes "AUTH ").length - 1) c = .error .outside := by
  rw [onLine_hello hello ok, capability_noMethods]
  rfl

/-! ### Runs of the parser -/

lemma onLine_bare (sep : Separator b) (h : Text (v ++ [lf])) :
    onLine k (v ++ [lf]) ((eol b (v ++ [lf])).1.length - 2) c = onLine k (v ++ [lf]) (v.length - 1) c := by
  have length : ((v ++ [lf]).length : Int) - 2 = v.length - 1 := by
    rw [List.length_append, List.length_singleton]
    omega
  rw [eol_open (h.cons sep.ne_cr), length]

lemma parses_bare (three : c.codeLength = 3) (sep : Separator b)
    (h : Text (v ++ [lf])) (out : onLine k (v ++ [lf]) (v.length - 1) (c.atText b) = .error e) :
    Parses k c (b :: (v ++ [lf])) (.error e) := by
  refine .fault three sep ?_ ((onLine_bare sep h).trans out)
  rw [eol_open (h.cons sep.ne_cr), getLast?_concat]

lemma Overruns.parses (h : Overruns c tail) (three : c.codeLength = 3) : Parses k c tail (.error .outside) := by
  cases h with
  | noText sep => exact .noText three sep
  | @noLine b sep bad =>
    rw [← atText_state c b, ← atText_codeValue c b] at bad
    exact parses_bare (v := []) three sep (by decide) (onLine_empty bad)
  | @noMethods b sep hello ok =>
    rw [← atText_state c b] at hello
    rw [← atText_codeValue c b] at ok
    exact parses_bare (v := bytes "AUTH ") three sep (by decide) (onLine_noMethods hello ok)

lemma Parses.overruns {buf : List UInt8} {r : Except Fault (SmtpClient × Bool)} (h : Parses k c buf r)
    (error : r = .error e) :
    ∃ pre tail c', buf = pre ++ tail ∧ Accepts k c pre c' ∧ c'.codeLength = 3 ∧ Overruns c' tail := by
  induction h with
  | done c => cases error
  | @digit c b rest r few next ih =>
    obtain ⟨pre, tail, c', rfl, accepted, three, leaves⟩ := ih error
    exact ⟨b :: pre, tail, c', rfl, .digit few accepted, three, leaves⟩
  | noSeparator three bad => cases error
  | @noText c b three sep => exact ⟨[], [b], c, rfl, .nil c, three, .noText sep⟩
  | noEnd three sep ne last => cases error
  | @fault c b rest f three sep last out =>
    rcases text_or_line rest with line | ⟨text, after, rfl, line⟩
    · rw [eol_open (line.cons sep.ne_cr)] at last
      obtain ⟨v, rfl⟩ := getLast?_eq_some_iff.1 last
      rw [onLine_bare sep line] at out
      refine ⟨[], b :: (v ++ [lf]), c, rfl, .nil c, three, ?_⟩
      rcases onLine_bare_error out with ⟨rfl, bad⟩ | ⟨rfl, hello, ok⟩
      · rw [atText_state, atText_codeValue] at bad
        exact .noLine sep bad
      · rw [atText_state] at hello
        rw [atText_codeValue] at ok
        exact .noMethods sep hello ok
    · rw [onLine_eol sep line] at out
      cases out
  | refused three sep last out => cases error
  | @line c d b rest r three sep last out next ih =>
    obtain ⟨pre, tail, c', eq, accepted, three', leaves⟩ := ih error
    rcases text_or_line rest with line | ⟨text, after, rfl, line⟩
    · -- nothing is left behind the line
      rw [eol_open (line.cons sep.ne_cr)] at next
      cases next
      cases error
    · rw [onLine_eol sep line] at out
      rw [eol_line sep line] at eq
      subst eq
      refine ⟨b :: (text ++ cr :: lf :: pre), tail, c', ?_, ?_, three', leaves⟩
      · rw [cons_append, List.append_assoc]
        rfl
      · exact .line three sep line (Except.ok.inj out) accepted

lemma smtpParse_overruns {pre : List UInt8} (accepted : Accepts k c pre c') (three : c'.codeLength = 3)
    (leaves : Overruns c' tail) : smtpParse k none c (pre ++ tail) = .error .outside :=
  (accepted.parses (leaves.parses three)).smtpParse none

lemma smtpParse_cases (k : Codec) {c : SmtpClient} (few : c.codeLength ≤ 3) (buf : List UInt8) :
    (∃ r, smtpParse k none c buf = .ok r) ∨
    ∃ pre tail c', buf = pre ++ tail ∧ Accepts k c pre c' ∧ c'.codeLength = 3 ∧ Overruns c' tail := by
  obtain ⟨r, h⟩ := parses_total k few buf
  cases r with
  | ok r => exact .inl ⟨_, h.smtpParse none⟩
  | error e => exact .inr (h.overruns rfl)

lemma smtpParse_ok_iff (few : c.codeLength ≤ 3) (buf : List UInt8) :
    (∃ r, smtpParse k none c buf = .ok r) ↔ Within k c buf := by
  refine ⟨fun ⟨r, ok⟩ => ⟨few, ?_⟩, fun within => ?_⟩
  · rintro pre tail c' rfl accepted three leaves
    rw [smtpParse_overruns accepted three leaves] at ok
    cases ok
  · rcases smtpParse_cases k few buf with ok | ⟨pre, tail, c', eq, accepted, three, leaves⟩
    · exact ok
    · exact absurd leaves (within.2 pre tail c' eq accepted three)

lemma smtpParse_ends (k : Codec) (c : SmtpClient) (buf : List UInt8) : smtpParse k none c buf ≠ .error .endless := by
  intro endless
  by_cases few : c.codeLength ≤ 3
  · rcases smtpParse_cases k few buf with ⟨r, ok⟩ | ⟨pre, tail, c', rfl, accepted, three, leaves⟩
    · rw [ok] at endless
      cases endless
    · rw [smtpParse_overruns accepted three leaves] at endless
      cases endless
  · by_cases ne : buf = []
    · subst ne
      cases endless
    · rw [smtpParse_inside_line ne (by omega)] at endless
      cases endless

/-- The parser ends, and exactly the buffers of `Within` are not left. -/
theorem smtpParse_within_iff (k : Codec) (c : SmtpClient) {buf : List UInt8} (ne : buf ≠ []) :
    smtpParse k none c buf ≠ .error .endless ∧ ((∃ r, smtpParse k none c buf = .ok r) ↔ Within k c buf) := by
  refine ⟨smtpParse_ends k c buf, ?_⟩
  by_cases few : c.codeLength ≤ 3
  · exact smtpParse_ok_iff few buf
  · refine ⟨fun ⟨r, ok⟩ => ?_, fun within => absurd within.1 few⟩
    rw [smtpParse_inside_line ne (by omega)] at ok
    cases ok

theorem smtpParse_within_banner : bytes "220 ready\r\n250" ≠ [] ∧ Within default {} (bytes "220 ready\r\n250") :=
  ⟨by decide, (smtpParse_within_iff default {} (by decide)).2.1 ⟨_, rfl⟩⟩

/-- A segment that ends behind the separator. -/
theorem smtpParse_leaves_buffer :
    ¬ ∀ (k : Codec) (c : SmtpClient) (buf : List UInt8), buf ≠ [] → ∃ r, smtpParse k none c buf = .ok r := by
  intro all
  obtain ⟨r, ok⟩ := all default {} (bytes "220 ") (by decide)
  have out : smtpParse default none {} (bytes "220 ") = .error .outside := rfl
  rw [out] at ok
  cases ok

end SmtpClient

end Sming.Network
