import Sming.Network.SmtpClient

/-!
# What the SMTP parser does with the bytes it gets

`Parses` lists the outcomes of the parser on the bytes that are left, without pointers and counters. It covers
all of them (`parses_total`) and is what `smtpParse` computes (`Parses.smtpParse`). `Reacts` is what a single
line can do to the client.
-/

namespace Sming.Network
open Sming.Network.Http SmtpParser List

variable {before : Option UInt8} {buf : List UInt8} {prev : UInt8} {fuel : Nat}

namespace SmtpParser

/-- The bytes of a line with its end, and what follows; `prev` stands before them. -/
def eol (prev : UInt8) : List UInt8 → List UInt8 × List UInt8
  | [] => ([], [])
  | b :: rest =>
    if prev = cr ∧ b = lf then ([b], rest)
    else (b :: (eol b rest).1, (eol b rest).2)

lemma eol_append (prev : UInt8) (rest : List UInt8) : (eol prev rest).1 ++ (eol prev rest).2 = rest := by
  induction rest generalizing prev with
  | nil => rfl
  | cons b rest ih =>
    rw [eol]
    split
    · rfl
    · exact congrArg (b :: ·) (ih b)

lemma eol_ne_nil (prev : UInt8) {rest : List UInt8} (ne : rest ≠ []) : (eol prev rest).1 ≠ [] := by
  cases rest with
  | nil => exact absurd rfl ne
  | cons b rest =>
    rw [eol]
    split
    · exact cons_ne_nil _ _
    · exact cons_ne_nil _ _

lemma eol_getLast? (prev : UInt8) {rest : List UInt8} (more : (eol prev rest).2 ≠ []) :
    (eol prev rest).1.getLast? = some lf := by
  induction rest generalizing prev with
  | nil => exact absurd rfl more
  | cons b rest ih =>
    rw [eol] at more ⊢
    split
    case isTrue found => rw [found.2, getLast?_singleton]
    case isFalse no =>
      rw [if_neg no] at more
      have last := ih b more
      rw [getLast?_cons, last, Option.getD_some]

lemma byteAt_append (pre : List UInt8) (b : UInt8) (rest : List UInt8) :
    byteAt (pre ++ b :: rest) pre.length = .ok b := by
  simp [byteAt]

lemma byteBefore_append (pre : List UInt8) (b : UInt8) (rest : List UInt8) :
    byteBefore before (pre ++ b :: rest) (pre.length + 1) = .ok b := byteAt_append pre b rest

lemma byteAt_length (buf : List UInt8) : byteAt buf buf.length = .error .outside := by
  simp [byteAt]

lemma advanceUntilEol_succ {p : Cursor} {b : UInt8}
    (last : byteBefore before buf p.pos = .ok prev) (here : byteAt buf p.pos = .ok b) (fuel : Nat) :
    advanceUntilEol before buf (fuel + 1) p = if prev = cr ∧ b = lf then .ok p.advance
      else if 0 < p.advance.len then advanceUntilEol before buf fuel p.advance
      else .ok p.advance := by
  rw [advanceUntilEol, last, here]
  by_cases first : prev = cr
  · by_cases second : b = lf <;> simp [first, second, Except.map, bind, Except.bind]
  · simp [first, bind, Except.bind]

lemma advanceUntilEol_eq (before : Option UInt8) (pre : List UInt8) (prev : UInt8) {rest : List UInt8} (ne : rest ≠ [])
    (enough : rest.length ≤ fuel) :
    advanceUntilEol before (pre ++ prev :: rest) fuel { pos := pre.length + 1, len := rest.length } =
      .ok { pos := pre.length + 1 + (eol prev rest).1.length, len := (eol prev rest).2.length } := by
  induction rest generalizing pre prev fuel with
  | nil => exact absurd rfl ne
  | cons b rest ih =>
    cases fuel with
    | zero => exact absurd enough (Nat.not_succ_le_zero _)
    | succ fuel =>
      have split : pre ++ prev :: b :: rest = (pre ++ [prev]) ++ b :: rest := by
        rw [List.append_assoc, singleton_append]
      have len : (pre ++ [prev]).length = pre.length + 1 := by
        rw [List.length_append, List.length_singleton]
      have here : byteAt (pre ++ prev :: b :: rest) (pre.length + 1) = .ok b := by
        rw [split, ← len]
        exact byteAt_append _ b rest
      have next : (Cursor.mk (pre.length + 1) (b :: rest).length).advance =
          { pos := pre.length + 1 + 1, len := rest.length } := rfl
      rw [advanceUntilEol_succ (byteBefore_append pre prev _) here, next, eol]
      by_cases found : prev = cr ∧ b = lf
      · rw [if_pos found, if_pos found]
        rfl
      · rw [if_neg found, if_neg found]
        by_cases more : rest = []
        · subst more
          rfl
        · rw [if_pos (length_pos_of_ne_nil more), split, ← len,
            ih (pre ++ [prev]) b more (Nat.le_of_succ_le_succ enough)]
          congr 2
          rw [length_cons]
          omega

lemma advanceUntilEol_at_end {pre : List UInt8} (ne : prev ≠ cr) (fuel : Nat) :
    advanceUntilEol before (pre ++ [prev]) (fuel + 2) { pos := pre.length + 1, len := 0 } = .error .outside := by
  have outside : byteBefore before (pre ++ [prev]) (pre.length + 1 + 1) = .error .outside := by
    have := byteAt_length (pre ++ [prev])
    rwa [List.length_append] at this
  rw [advanceUntilEol, byteBefore_append pre prev []]
  simp only [ne, if_false, bind, Except.bind, Bool.false_eq_true]
  have wraps : 0 < (Cursor.mk (pre.length + 1) 0).advance.len := by
    change 0 < 2 ^ 32 - 1
    decide
  rw [if_pos wraps, advanceUntilEol]
  change (byteBefore before _ (pre.length + 1 + 1) >>= _) = _
  rw [outside]
  rfl

lemma byteBefore_getLast {pre w : List UInt8} (ne : w ≠ []) (after : List UInt8) :
    byteBefore before (pre ++ (w ++ after)) (pre.length + w.length) = .ok (w.getLast ne) := by
  have split : pre ++ (w ++ after) = (pre ++ w.dropLast) ++ w.getLast ne :: after := by
    nth_rewrite 1 [← dropLast_append_getLast ne]
    rw [List.append_assoc, List.append_assoc, singleton_append]
  have len : pre.length + w.length = (pre ++ w.dropLast).length + 1 := by
    have := length_pos_of_ne_nil ne
    rw [List.length_append, length_dropLast]
    omega
  rw [split, len]
  exact byteBefore_append _ _ after

end SmtpParser

namespace SmtpClient

variable {k : Codec} {c : SmtpClient}

lemma parseLine_eq {pre rest : List UInt8} (ne : rest ≠ []) :
    parseLine k before (pre ++ prev :: rest) c { pos := pre.length + 1, len := rest.length } =
      if (eol prev rest).1.getLast? ≠ some lf then .ok (c, none, (pre ++ prev :: rest).length)
      else (onLine k rest ((eol prev rest).1.length - 2) { c with codeLength := 0 }).map fun r =>
          (r.1, if r.2 then some { pos := pre.length + 1 + (eol prev rest).1.length
                                   len := (eol prev rest).2.length } else none, 0) := by
  have enough : rest.length ≤ (pre ++ prev :: rest).length + 2 := by
    rw [List.length_append, length_cons]
    omega
  have found := advanceUntilEol_eq before pre prev ne enough
  have whole : pre ++ prev :: rest = (pre ++ [prev]) ++ ((eol prev rest).1 ++ (eol prev rest).2) := by
    rw [eol_append, List.append_assoc, singleton_append]
  have len : (pre ++ [prev]).length = pre.length + 1 := by
    rw [List.length_append, List.length_singleton]
  have last : byteBefore before (pre ++ prev :: rest) (pre.length + 1 + (eol prev rest).1.length) =
      .ok ((eol prev rest).1.getLast (eol_ne_nil prev ne)) := by
    nth_rewrite 1 [whole]
    rw [← len]
    exact byteBefore_getLast _ _
  have drop : (pre ++ prev :: rest).drop (pre.length + 1) = rest := by
    rw [drop_append, drop_of_length_le (Nat.le_succ _)]
    simp
  have length : ((pre.length + 1 + (eol prev rest).1.length : Nat) - (pre.length + 1 : Nat) : Int) =
      (eol prev rest).1.length := by
    omega
  simp only [parseLine, found, last, drop, length, bind, Except.bind,
    getLast?_eq_some_getLast (eol_ne_nil prev ne), ne_eq, Option.some.injEq]
  by_cases ended : (eol prev rest).1.getLast (eol_ne_nil prev ne) = lf
  · simp only [ended, not_true_eq_false, if_false]
    cases onLine k rest ((eol prev rest).1.length - 2) { c with codeLength := 0 } with
    | error e => rfl
    | ok r =>
      obtain ⟨c', accepted⟩ := r
      cases accepted
      · rfl
      · rfl
  · have nothing : (eol prev rest).2 = [] := by
      by_contra more
      have last := eol_getLast? prev more
      rw [getLast?_eq_some_getLast (eol_ne_nil prev ne), Option.some.injEq] at last
      exact ended last
    have all : (eol prev rest).1 = rest := by
      have parts := eol_append prev rest
      rwa [nothing, append_nil] at parts
    rw [if_pos ended, if_pos ended, all, List.length_append, length_cons]
    congr 3
    omega

/-- The byte behind a code. -/
def Separator (b : UInt8) : Prop := b = space ∨ b = minus

instance : DecidablePred Separator := fun _ => inferInstanceAs (Decidable (_ ∨ _))

lemma Separator.ne_cr {b : UInt8} (sep : Separator b) : b ≠ cr := by
  rcases sep with rfl | rfl
  · decide
  · decide

/-- The client at the start of the text of a line. -/
def atText (c : SmtpClient) (b : UInt8) : SmtpClient := { c.separate b with codeLength := 0 }

@[simp] lemma atText_state (c : SmtpClient) (b : UInt8) : (c.atText b).state = c.state := rfl

@[simp] lemma atText_codeValue (c : SmtpClient) (b : UInt8) : (c.atText b).codeValue = strtol c.code := rfl

/-- What the parser makes of the bytes that are left; `false` is an error of the server. -/
inductive Parses (k : Codec) : SmtpClient → List UInt8 → Except Fault (SmtpClient × Bool) → Prop where
  | done (c : SmtpClient) : Parses k c [] (.ok (c, true))
  | digit {c : SmtpClient} {b : UInt8} {rest : List UInt8} {r : Except Fault (SmtpClient × Bool)} :
    c.codeLength < 3 →
    Parses k (c.collect b) rest r →
    Parses k c (b :: rest) r
  | noSeparator {c : SmtpClient} {b : UInt8} {rest : List UInt8} :
    c.codeLength = 3 →
    ¬ Separator b →
    Parses k c (b :: rest) (.ok (c, false))
  -- the counter is at zero when the search for the end of the line starts
  | noText {c : SmtpClient} {b : UInt8} :
    c.codeLength = 3 →
    Separator b →
    Parses k c [b] (.error .outside)
  | noEnd {c : SmtpClient} {b : UInt8} {rest : List UInt8} :
    c.codeLength = 3 →
    Separator b →
    rest ≠ [] →
    (eol b rest).1.getLast? ≠ some lf →
    Parses k c (b :: rest) (.ok (c.separate b, true))
  | fault {c : SmtpClient} {b : UInt8} {rest : List UInt8} {e : Fault} :
    c.codeLength = 3 →
    Separator b →
    (eol b rest).1.getLast? = some lf →
    onLine k rest ((eol b rest).1.length - 2) (c.atText b) = .error e →
    Parses k c (b :: rest) (.error e)
  | refused {c c' : SmtpClient} {b : UInt8} {rest : List UInt8} :
    c.codeLength = 3 →
    Separator b →
    (eol b rest).1.getLast? = some lf →
    onLine k rest ((eol b rest).1.length - 2) (c.atText b) = .ok (c', false) →
    Parses k c (b :: rest) (.ok (c', false))
  | line {c c' : SmtpClient} {b : UInt8} {rest : List UInt8} {r : Except Fault (SmtpClient × Bool)} :
    c.codeLength = 3 →
    Separator b →
    (eol b rest).1.getLast? = some lf →
    onLine k rest ((eol b rest).1.length - 2) (c.atText b) = .ok (c', true) →
    Parses k c' (eol b rest).2 r →
    Parses k c (b :: rest) r

def answer (buf : List UInt8) (r : SmtpClient × Bool) : SmtpClient × Nat :=
  (r.1, if r.2 then buf.length else 0)

section
variable {pre rest : List UInt8} {b : UInt8}

lemma parseLoop_digit (few : c.codeLength < 3) (fuel : Nat) :
    parseLoop k before (pre ++ b :: rest) (fuel + 1) c { pos := pre.length, len := (b :: rest).length } =
      parseLoop k before (pre ++ b :: rest) fuel (c.collect b) { pos := pre.length + 1, len := rest.length } := by
  simp only [parseLoop, length_cons, Nat.succ_ne_zero, byteAt_append, bind, Except.bind, if_false, if_pos few]
  rfl

lemma parseLoop_noSeparator (three : c.codeLength = 3) (bad : ¬ Separator b) (fuel : Nat) :
    parseLoop k before (pre ++ b :: rest) (fuel + 1) c { pos := pre.length, len := (b :: rest).length } =
      .ok (c, 0) := by
  have few : ¬ c.codeLength < 3 := by omega
  simp only [parseLoop, length_cons, Nat.succ_ne_zero, byteAt_append, bind, Except.bind, if_false, if_neg few]
  exact if_pos ⟨three, not_or.1 bad⟩

lemma parseLoop_text (three : c.codeLength = 3) (sep : Separator b) (fuel : Nat) :
    parseLoop k before (pre ++ b :: rest) (fuel + 1) c { pos := pre.length, len := (b :: rest).length } =
      (parseLine k before (pre ++ b :: rest) (c.separate b) { pos := pre.length + 1, len := rest.length }).bind
        fun r => r.2.1.elim (.ok (r.1, r.2.2)) (parseLoop k before (pre ++ b :: rest) fuel r.1) := by
  have few : ¬ c.codeLength < 3 := by omega
  have good : ¬ (c.codeLength = 3 ∧ b ≠ space ∧ b ≠ minus) := fun bad => not_or.2 bad.2 sep
  have text : parseText k before (pre ++ b :: rest) c b { pos := pre.length, len := rest.length + 1 } =
      parseLine k before (pre ++ b :: rest) (c.separate b) { pos := pre.length + 1, len := rest.length } :=
    if_pos three
  rw [parseLoop]
  simp only [text, Nat.succ_ne_zero, length_cons, byteAt_append, bind, Except.bind, if_false, if_neg few, if_neg good]
  cases parseLine k before (pre ++ b :: rest) (c.separate b) { pos := pre.length + 1, len := rest.length } with
  | error e => rfl
  | ok r =>
    obtain ⟨c', next, n⟩ := r
    cases next
    · rfl
    · rfl

end

lemma parseLine_at_end {pre : List UInt8} {b : UInt8} (ne : b ≠ cr) :
    parseLine k before (pre ++ [b]) c { pos := pre.length + 1, len := 0 } = .error .outside := by
  rw [parseLine, advanceUntilEol_at_end ne]
  rfl

lemma parseLoop_line {pre rest : List UInt8} {b : UInt8} (three : c.codeLength = 3) (sep : Separator b)
    (last : (eol b rest).1.getLast? = some lf) (fuel : Nat) :
    parseLoop k before (pre ++ b :: rest) (fuel + 1) c { pos := pre.length, len := (b :: rest).length } =
      (onLine k rest ((eol b rest).1.length - 2) (c.atText b)).bind fun r =>
        if r.2 then
          parseLoop k before (pre ++ b :: rest) fuel r.1
            { pos := pre.length + 1 + (eol b rest).1.length, len := (eol b rest).2.length }
        else .ok (r.1, 0) := by
  have ne : rest ≠ [] := by
    rintro rfl
    exact absurd last (Option.some_ne_none lf).symm
  rw [parseLoop_text three sep, parseLine_eq ne, if_neg (not_not.2 last), atText]
  cases onLine k rest ((eol b rest).1.length - 2) { c.separate b with codeLength := 0 } with
  | error e => rfl
  | ok r =>
    obtain ⟨c', accepted⟩ := r
    cases accepted
    · rfl
    · rfl

variable {r : Except Fault (SmtpClient × Bool)} {α β : Type} {c' : SmtpClient}

lemma Parses.parseLoop {rest : List UInt8} (h : Parses k c rest r) (pre : List UInt8) (enough : rest.length ≤ fuel) :
    parseLoop k before (pre ++ rest) (fuel + 1) c { pos := pre.length, len := rest.length } =
      r.map (answer (pre ++ rest)) := by
  induction h generalizing pre fuel with
  | done c =>
    rw [append_nil]
    rfl
  | @digit c b rest r few next ih =>
    cases fuel with
    | zero => exact absurd enough (Nat.not_succ_le_zero _)
    | succ fuel =>
      have step := ih (pre ++ [b]) (Nat.le_of_succ_le_succ enough)
      rw [List.append_assoc, singleton_append, List.length_append, List.length_singleton] at step
      rw [parseLoop_digit few, step]
  | noSeparator three bad =>
    rw [parseLoop_noSeparator three bad]
    rfl
  | noText three sep =>
    rw [parseLoop_text three sep]
    change (parseLine _ _ _ _ { pos := _, len := 0 }).bind _ = _
    rw [parseLine_at_end sep.ne_cr]
    rfl
  | noEnd three sep ne last =>
    rw [parseLoop_text three sep, parseLine_eq ne, if_pos last]
    rfl
  | fault three sep last out =>
    rw [parseLoop_line three sep last, out]
    rfl
  | refused three sep last out =>
    rw [parseLoop_line three sep last, out]
    rfl
  | @line c c' b rest r three sep last out next ih =>
    cases fuel with
    | zero => exact absurd enough (Nat.not_succ_le_zero _)
    | succ fuel =>
      have parts := eol_append b rest
      have short : (eol b rest).2.length ≤ fuel := by
        have := congrArg List.length parts
        rw [List.length_append] at this
        rw [length_cons] at enough
        omega
      have step := ih (pre ++ b :: (eol b rest).1) short
      rw [List.append_assoc, cons_append, parts, List.length_append, length_cons] at step
      rw [parseLoop_line three sep last, out]
      change SmtpClient.parseLoop _ _ _ _ _ _ = _
      rw [← step]
      congr 2
      omega

lemma Parses.smtpParse (h : Parses k c buf r) (before : Option UInt8) : smtpParse k before c buf = r.map (answer buf) :=
  h.parseLoop [] le_rfl

lemma smtpParse_inside_line (ne : buf ≠ []) (more : 3 < c.codeLength) :
    smtpParse k none c buf = .error .outside := by
  cases buf with
  | nil => exact absurd rfl ne
  | cons b rest =>
    have few : ¬ c.codeLength < 3 := by omega
    have no : ¬ c.codeLength = 3 := by omega
    simp only [SmtpClient.smtpParse, parseLoop, length_cons, Nat.succ_ne_zero, byteAt, getElem?_cons_zero, bind,
      Except.bind, if_false, few, no, false_and, parseText, parseLine]
    rfl

/-! ### What a line can do -/

def heard (c : SmtpClient) : SmtpClient := c.record (.reply c.state c.codeValue)

/-- What a line can do to the client; `false` is an error of the server. -/
inductive Reacts : SmtpClient → SmtpClient × Bool → Prop where
  | unexpected {c : SmtpClient} (message : List UInt8) :
    successCode c.state = none →
    Reacts c ({ c.heard with message := message }, true)
  | refused {c : SmtpClient} {code : Int} (message : List UInt8) :
    successCode c.state = some code →
    c.codeValue ≠ code →
    Reacts c ({ c.heard with message := message }, false)
  | hello {c : SmtpClient} (pipeline startTLS : Bool) (methods : List String) :
    c.state = .hello →
    c.codeValue = 250 →
    Reacts c ({ c.heard with
      optPipeline := pipeline, optStartTLS := startTLS, authMethods := methods }.helloEnd, true)
  | challenge {c : SmtpClient} (text : List UInt8) :
    c.state = .requestingAuthChallenge →
    c.codeValue = 334 →
    Reacts c ({ c.heard with authChallenge := text, state := .sendAuthResponse }, true)
  | proceeds {c : SmtpClient} :
    successCode c.state = some c.codeValue →
    c.state ≠ .hello →
    c.state ≠ .requestingAuthChallenge →
    Reacts c (c.heard.proceed, true)

lemma bind_eq_ok {x : Except Fault α} {f : α → Except Fault β} {b : β}
    (h : x.bind f = .ok b) : ∃ a, x = .ok a ∧ f a = .ok b := by
  cases x with
  | error e => cases h
  | ok a => exact ⟨a, rfl, h⟩

lemma map_eq_ok {x : Except Fault α} {f : α → β} {b : β} (h : x.map f = .ok b) : ∃ a, x = .ok a ∧ f a = b := by
  cases x with
  | error e => cases h
  | ok a => exact ⟨a, rfl, Except.ok.inj h⟩

lemma copyMessage_inv {mem : List UInt8} {n : Int} (h : copyMessage mem n c = .ok c') :
    ∃ message, c' = { c with message := message } := by
  obtain ⟨text, -, out⟩ := bind_eq_ok h
  exact ⟨_, (Except.ok.inj out).symm⟩

lemma capability_inv {mem : List UInt8} {n : Int} (h : capability mem n c = .ok c') :
    ∃ pipeline startTLS methods,
      c' = { c with optPipeline := pipeline, optStartTLS := startTLS, authMethods := methods } := by
  obtain ⟨pipelining, -, h⟩ := bind_eq_ok h
  cases pipelining with
  | true => exact ⟨_, _, _, (Except.ok.inj h).symm⟩
  | false =>
    obtain ⟨startTLS, -, h⟩ := bind_eq_ok h
    cases startTLS with
    | true => exact ⟨_, _, _, (Except.ok.inj h).symm⟩
    | false =>
      obtain ⟨auth, -, h⟩ := bind_eq_ok h
      cases auth with
      | false => exact ⟨_, _, _, (Except.ok.inj h).symm⟩
      | true =>
        obtain ⟨text, -, h⟩ := bind_eq_ok h
        exact ⟨_, _, _, (Except.ok.inj h).symm⟩

section
variable {mem : List UInt8} {n : Int}

lemma onLine_unexpected (no : successCode c.state = none) :
    onLine k mem n c = (copyMessage mem n c.heard).map (·, true) := by
  simp only [onLine, record, no]
  rfl

lemma onLine_refused {code : Int} (success : successCode c.state = some code) (ne : c.codeValue ≠ code) :
    onLine k mem n c = (copyMessage mem n c.heard).map fun c =>
      ({ c with message := c.message.set smtpErrorLength 0 }, false) := by
  simp only [onLine, record, success]
  exact if_pos ne

lemma onLine_hello (hello : c.state = .hello) (ok : c.codeValue = 250) :
    onLine k mem n c = (capability mem n c.heard).map fun c => (c.helloEnd, true) := by
  simp only [onLine, record, hello, successCode]
  rw [if_neg (not_not.2 ok)]
  simp only [heard, record, hello]

lemma onLine_challenge (challenge : c.state = .requestingAuthChallenge) (ok : c.codeValue = 334) :
    onLine k mem n c = (read mem n).map fun text =>
      ({ c.heard with authChallenge := k.base64Decode text, state := .sendAuthResponse }, true) := by
  simp only [onLine, record, challenge, successCode]
  rw [if_neg (not_not.2 ok)]
  simp only [heard, record, challenge]

lemma onLine_proceeds (success : successCode c.state = some c.codeValue) (hello : c.state ≠ .hello)
    (challenge : c.state ≠ .requestingAuthChallenge) : onLine k mem n c = .ok (c.heard.proceed, true) := by
  simp only [onLine, record, success]
  rw [if_neg (not_not.2 rfl)]
  rfl

end

lemma line_cases (c : SmtpClient) :
    successCode c.state = none ∨ (∃ code, successCode c.state = some code ∧ c.codeValue ≠ code) ∨
    (c.state = .hello ∧ c.codeValue = 250) ∨ (c.state = .requestingAuthChallenge ∧ c.codeValue = 334) ∨
    (successCode c.state = some c.codeValue ∧ c.state ≠ .hello ∧ c.state ≠ .requestingAuthChallenge) := by
  cases success : successCode c.state with
  | none => exact .inl rfl
  | some code =>
    by_cases eq : c.codeValue = code
    · subst eq
      by_cases hello : c.state = .hello
      · rw [hello] at success
        exact .inr (.inr (.inl ⟨hello, (Option.some.inj success).symm⟩))
      · by_cases challenge : c.state = .requestingAuthChallenge
        · rw [challenge] at success
          exact .inr (.inr (.inr (.inl ⟨challenge, (Option.some.inj success).symm⟩)))
        · exact .inr (.inr (.inr (.inr ⟨rfl, hello, challenge⟩)))
    · exact .inr (.inl ⟨code, rfl, eq⟩)

lemma onLine_reacts {mem : List UInt8} {n : Int} {r : SmtpClient × Bool} (h : onLine k mem n c = .ok r) :
    Reacts c r := by
  obtain no | ⟨code, success, ne⟩ | ⟨hello, ok⟩ | ⟨challenge, ok⟩ | ⟨success, hello, challenge⟩ := line_cases c
  · rw [onLine_unexpected no] at h
    obtain ⟨c', copied, rfl⟩ := map_eq_ok h
    obtain ⟨message, rfl⟩ := copyMessage_inv copied
    exact .unexpected message no
  · rw [onLine_refused success ne] at h
    obtain ⟨c', copied, rfl⟩ := map_eq_ok h
    obtain ⟨message, rfl⟩ := copyMessage_inv copied
    exact .refused _ success ne
  · rw [onLine_hello hello ok] at h
    obtain ⟨c', learnt, rfl⟩ := map_eq_ok h
    obtain ⟨pipeline, startTLS, methods, rfl⟩ := capability_inv learnt
    exact .hello pipeline startTLS methods hello ok
  · rw [onLine_challenge challenge ok] at h
    obtain ⟨text, -, rfl⟩ := map_eq_ok h
    exact .challenge (k.base64Decode text) challenge ok
  · rw [onLine_proceeds success hello challenge] at h
    obtain rfl := Except.ok.inj h
    exact .proceeds success hello challenge

@[simp] lemma helloEnd_codeLength : c.helloEnd.codeLength = c.codeLength := by
  rw [helloEnd]
  split
  · rfl
  · rfl

@[simp] lemma proceed_codeLength : c.proceed.codeLength = c.codeLength := by
  rw [proceed]
  split <;> try rfl
  split
  · rfl
  · rfl

lemma Reacts.codeLength {r : SmtpClient × Bool} (h : Reacts c r) : r.1.codeLength = c.codeLength := by
  cases h with
  | unexpected message no => rfl
  | refused message success ne => rfl
  | hello pipeline startTLS methods hello ok => exact helloEnd_codeLength
  | challenge text challenge ok => rfl
  | proceeds success hello challenge => exact proceed_codeLength

lemma parses_total (k : Codec) {c : SmtpClient} (few : c.codeLength ≤ 3) (buf : List UInt8) :
    ∃ r, Parses k c buf r := by
  -- the end of a line may be far away
  induction size : buf.length using Nat.strong_induction_on generalizing c buf with
  | _ size ih =>
    subst size
    cases buf with
    | nil => exact ⟨_, .done c⟩
    | cons b rest =>
      by_cases digit : c.codeLength < 3
      · obtain ⟨r, next⟩ := ih rest.length (Nat.lt_succ_self _) (c := c.collect b) digit rest rfl
        exact ⟨r, .digit digit next⟩
      · have three : c.codeLength = 3 := by omega
        by_cases sep : Separator b
        · by_cases ne : rest = []
          · subst ne
            exact ⟨_, .noText three sep⟩
          · by_cases last : (eol b rest).1.getLast? = some lf
            · cases out : onLine k rest ((eol b rest).1.length - 2) (c.atText b) with
              | error e => exact ⟨_, .fault three sep last out⟩
              | ok r =>
                obtain ⟨c', accepted⟩ := r
                cases accepted with
                | false => exact ⟨_, .refused three sep last out⟩
                | true =>
                  have zero : c'.codeLength = 0 := (onLine_reacts out).codeLength
                  have less : (eol b rest).2.length < (b :: rest).length := by
                    have parts := congrArg List.length (eol_append b rest)
                    rw [List.length_append] at parts
                    rw [length_cons]
                    omega
                  obtain ⟨r, next⟩ := ih _ less (c := c') (by omega) _ rfl
                  exact ⟨r, .line three sep last out next⟩
            · exact ⟨_, .noEnd three sep ne last⟩
        · exact ⟨_, .noSeparator three sep⟩

end SmtpClient

end Sming.Network
