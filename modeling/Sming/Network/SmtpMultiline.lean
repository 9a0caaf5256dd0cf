import Sming.Network.SmtpReplies

/-!
# Replies of several lines

Only the case `eSMTP_Hello` of the parser looks at `isLastLine`. In the other states each line of a reply is
taken for a reply: the first one makes the transition, and the next ones are judged in the state it leads to, where
they may move on or be taken for an error, unless the reply is `Harmless`.
-/

namespace Sming.Network
open Sming.Network.Http SmtpParser SmtpClient

def lineBytes (code : Vector UInt8 3) (b : UInt8) (text : List UInt8) : List UInt8 :=
  code.toList ++ b :: (text ++ [cr, lf])

/-- A reply of the server; the code may be any three bytes. -/
structure Reply where
  code : Vector UInt8 3
  /-- The texts of the lines before the last one. -/
  front : List (List UInt8)
  last : List UInt8
  front_text : ∀ text ∈ front, Text text
  last_text : Text last

namespace Reply

variable (r : Reply)

def continuation : List UInt8 := r.front.flatMap (lineBytes r.code minus)

def bytes : List UInt8 := r.continuation ++ lineBytes r.code space r.last

def single : Reply := { r with front := [], front_text := List.forall_mem_nil _ }

def frontLines : List (UInt8 × List UInt8) := r.front.map (minus, ·)

def lines : List (UInt8 × List UInt8) := r.frontLines ++ [(space, r.last)]

lemma continuation_eq : r.continuation = r.frontLines.flatMap fun line => lineBytes r.code line.1 line.2 := by
  rw [frontLines, List.flatMap_map]
  rfl

lemma bytes_eq : r.bytes = r.lines.flatMap fun line => lineBytes r.code line.1 line.2 := by
  rw [lines, List.flatMap_append, ← continuation_eq, bytes, List.flatMap_singleton]

lemma frontLines_ok : ∀ line ∈ r.frontLines, Separator line.1 ∧ Text line.2 := by
  intro line mem
  obtain ⟨text, inside, rfl⟩ := List.mem_map.1 mem
  exact ⟨.inr rfl, r.front_text text inside⟩

lemma lines_ok : ∀ line ∈ r.lines, Separator line.1 ∧ Text line.2 := by
  intro line mem
  rcases List.mem_append.1 mem with inside | last
  · exact r.frontLines_ok line inside
  · obtain rfl := List.mem_singleton.1 last
    exact ⟨.inl rfl, r.last_text⟩

end Reply

namespace SmtpClient

variable {k : Codec} {c : SmtpClient}

def begun (c : SmtpClient) (code : Vector UInt8 3) (b : UInt8) : SmtpClient :=
  { c with code := code, codeValue := strtol code, isLastLine := b == space, codeLength := 0 }

lemma setIfInBounds_three (old code : Vector UInt8 3) :
    ∃ x y z, code.toList = [x, y, z] ∧ ((old.setIfInBounds 0 x).setIfInBounds 1 y).setIfInBounds 2 z = code := by
  obtain ⟨⟨bs⟩, size⟩ := code
  obtain ⟨⟨as⟩, size'⟩ := old
  obtain ⟨x, y, z, rfl⟩ := List.length_eq_three.1 size
  obtain ⟨u, v, w, rfl⟩ := List.length_eq_three.1 size'
  exact ⟨x, y, z, rfl, rfl⟩

lemma collectAll_atText (zero : c.codeLength = 0) (code : Vector UInt8 3) (b : UInt8) :
    (c.collectAll code.toList).atText b = c.begun code b := by
  obtain ⟨x, y, z, list, set⟩ := setIfInBounds_three c.code code
  have all : (c.collectAll code.toList).code = code := by
    rw [list]
    change ((c.code.setIfInBounds c.codeLength x).setIfInBounds (c.codeLength + 1) y).setIfInBounds
      (c.codeLength + 1 + 1) z = code
    rw [zero]
    exact set
  rw [collectAll_eq, all]
  rfl

def readLines (k : Codec) (code : Vector UInt8 3) : SmtpClient → List (UInt8 × List UInt8) → SmtpClient × Bool
  | c, [] => (c, true)
  | c, line :: lines =>
    let r := replied k (c.begun code line.1) line.2
    if r.2 then readLines k code r.1 lines else r

variable {code : Vector UInt8 3} {d : SmtpClient}

lemma readLines_accepted {b : UInt8} {text : List UInt8}
    (accepted : replied k (c.begun code b) text = (d, true)) (lines : List (UInt8 × List UInt8)) :
    readLines k code c ((b, text) :: lines) = readLines k code d lines := by
  rw [readLines, accepted]
  rfl

lemma readLines_refused {b : UInt8} {text : List UInt8}
    (refused : replied k (c.begun code b) text = (d, false)) (lines : List (UInt8 × List UInt8)) :
    readLines k code c ((b, text) :: lines) = (d, false) := by
  rw [readLines, refused]
  rfl

lemma replied_codeLength (k : Codec) (c : SmtpClient) (code : Vector UInt8 3) (b : UInt8) (text : List UInt8) :
    (replied k (c.begun code b) text).1.codeLength = 0 := (replied_reacts k (c.begun code b) text).codeLength

lemma parses_lines {lines : List (UInt8 × List UInt8)} (zero : c.codeLength = 0)
    (ok : ∀ line ∈ lines, Separator line.1 ∧ Text line.2) :
    Parses k c (lines.flatMap fun line => lineBytes code line.1 line.2) (.ok (readLines k code c lines)) := by
  induction lines generalizing c with
  | nil => exact .done c
  | cons line lines ih =>
    obtain ⟨b, text⟩ := line
    obtain ⟨⟨sep, text_ok⟩, rest⟩ := List.forall_mem_cons.1 ok
    change Separator b at sep
    change Text text at text_ok
    have three : (c.collectAll code.toList).codeLength = 3 := by
      rw [collectAll_codeLength, zero, Vector.length_toList]
    have digits : Accepts k c code.toList (c.collectAll code.toList) :=
      accepts_code k (by rw [zero, Vector.length_toList])
    rw [List.flatMap_cons, lineBytes, List.append_assoc, List.cons_append, List.append_assoc]
    apply digits.parses
    have out := onLine_eol (k := k) (c := (c.collectAll code.toList).atText b) sep text_ok
      (lines.flatMap fun line => lineBytes code line.1 line.2)
    have end' := eol_getLast?_line sep text_ok (lines.flatMap fun line => lineBytes code line.1 line.2)
    have zero' := replied_codeLength k c code b text
    rw [collectAll_atText zero] at out
    cases result : replied k (c.begun code b) text with
    | mk d accepted =>
      rw [result] at out zero'
      cases accepted with
      | false =>
        rw [readLines_refused result]
        exact .refused three sep end' (by rw [collectAll_atText zero]; exact out)
      | true =>
        rw [readLines_accepted result]
        refine .line three sep end' (by rw [collectAll_atText zero]; exact out) ?_
        change Parses k d (eol b (text ++ cr :: lf :: _)).2 _
        rw [eol_line sep text_ok]
        exact ih zero' rest

/-! ### What is compared -/

/-- The whole reply leads to the state to which its last line alone leads, sends the same commands and is taken for
an error just as that is; the lines before the last one send nothing. -/
def AsSingle (k : Codec) (before : Option UInt8) (c : SmtpClient) (r : Reply) : Prop :=
  ∃ whole single front : SmtpClient × Nat,
    smtpParse k before c r.bytes = .ok whole ∧ smtpParse k before c r.single.bytes = .ok single ∧
    smtpParse k before c r.continuation = .ok front ∧
    whole.1.state = single.1.state ∧ whole.1.commands = single.1.commands ∧
    (whole.2 = r.bytes.length ↔ single.2 = r.single.bytes.length) ∧ front.1.commands = c.commands

lemma smtpParse_reply (before : Option UInt8) (zero : c.codeLength = 0) (r : Reply) :
    smtpParse k before c r.bytes = .ok (answer r.bytes (readLines k r.code c r.lines)) := by
  rw [r.bytes_eq]
  exact (parses_lines zero r.lines_ok).smtpParse before

/-- The number of bytes says whether the reply was an error. -/
lemma answer_all_iff (r : Reply) (x : SmtpClient × Bool) : (answer r.bytes x).2 = r.bytes.length ↔ x.2 = true := by
  have some : 0 < r.bytes.length := by
    rw [Reply.bytes, List.length_append, lineBytes, List.length_append, Vector.length_toList]
    omega
  rw [answer]
  cases x.2 with
  | false => exact ⟨fun none => absurd none (Nat.ne_of_lt some), nofun⟩
  | true => exact ⟨fun _ => rfl, fun _ => rfl⟩

lemma asSingle_of_readLines {before : Option UInt8} (zero : c.codeLength = 0) {r : Reply}
    (state : (readLines k r.code c r.lines).1.state = (readLines k r.code c [(space, r.last)]).1.state)
    (sent : (readLines k r.code c r.lines).1.commands = (readLines k r.code c [(space, r.last)]).1.commands)
    (error : (readLines k r.code c r.lines).2 = (readLines k r.code c [(space, r.last)]).2)
    (early : (readLines k r.code c r.frontLines).1.commands = c.commands) : AsSingle k before c r := by
  have whole := smtpParse_reply (k := k) before zero r
  have single := smtpParse_reply (k := k) before zero r.single
  have front : smtpParse k before c r.continuation =
      .ok (answer r.continuation (readLines k r.code c r.frontLines)) := by
    rw [r.continuation_eq]
    exact (parses_lines zero r.frontLines_ok).smtpParse before
  refine ⟨_, _, _, whole, single, front, state, sent, ?_, early⟩
  rw [answer_all_iff, answer_all_iff]
  exact Bool.eq_iff_iff.mp error

/-! ### One line -/

def successor (pipeline : Bool) : SmtpState → SmtpState
  | .banner => .hello
  | .requestingAuthChallenge => .sendAuthResponse
  | .sendingAuth => .ready
  | .sendingMail => if pipeline then .sendingRcpt else .sendRcpt
  | .sendingRcpt => if pipeline then .sendingData else .sendData
  | .sendingData => .sendHeader
  | .sent => .ready
  | .quitting => .disconnect
  | state => state

def triggered (c : SmtpClient) : List Command :=
  if c.state = .banner then [.ehlo c.url.host] else []

@[simp] lemma heard_commands : c.heard.commands = c.commands := by
  simp [heard, record, commands]

lemma proceed_state (challenge : c.state ≠ .requestingAuthChallenge) :
    c.proceed.state = successor c.optPipeline c.state := by
  cases state : c.state <;> simp_all [proceed, successor, sendString, record, close]

lemma proceed_commands : c.proceed.commands = c.commands ++ c.triggered := by
  by_cases banner : c.state = .banner
  · by_cases tls : c.useSsl = false ∧ c.optStartTLS = true
    · simp [proceed, banner, tls, triggered, commands, sendString, record]
    · simp [proceed, banner, tls, triggered, commands, sendString, record]
  · rw [triggered, if_neg banner, List.append_nil, proceed]
    split
    case h_1 state => exact absurd state banner
    case h_6 => simp [commands, record]
    case h_7 => simp [commands, record, close]
    all_goals rfl

lemma replied_expected (success : successCode c.state = some c.codeValue) (hello : c.state ≠ .hello)
    (text : List UInt8) :
    ∃ d, replied k c text = (d, true) ∧ d.state = successor c.optPipeline c.state ∧
      d.commands = c.commands ++ c.triggered := by
  by_cases challenge : c.state = .requestingAuthChallenge
  · have ok : c.codeValue = 334 := by
      rw [challenge] at success
      exact (Option.some.inj success).symm
    refine ⟨_, replied_challenge challenge ok text, ?_, ?_⟩
    · rw [challenge]
      rfl
    · rw [triggered, if_neg (by rw [challenge]; decide), List.append_nil]
      exact heard_commands
  · refine ⟨_, replied_proceeds success hello challenge text, ?_, ?_⟩
    · exact proceed_state (c := c.heard) challenge
    · rw [proceed_commands, heard_commands]
      rfl

lemma replied_other (other : successCode c.state ≠ some c.codeValue) (text : List UInt8) :
    (replied k c text).1.state = c.state ∧ (replied k c text).1.commands = c.commands ∧
      (replied k c text).2 = (successCode c.state).isNone := by
  obtain no | ⟨code, success, ne⟩ | ⟨hello, ok⟩ | ⟨challenge, ok⟩ | ⟨success, -, -⟩ := line_cases c
  · rw [replied_unexpected no, no]
    exact ⟨rfl, heard_commands, rfl⟩
  · rw [replied_refused success ne, success]
    exact ⟨rfl, heard_commands, rfl⟩
  · exact absurd (by rw [hello, ok]; rfl) other
  · exact absurd (by rw [challenge, ok]; rfl) other
  · exact absurd success other

/-- Lines that the state does not wait for change nothing; they are errors in a state that waits for others. -/
lemma readLines_other (other : successCode c.state ≠ some (strtol code)) (lines : List (UInt8 × List UInt8)) :
    (readLines k code c lines).1.state = c.state ∧ (readLines k code c lines).1.commands = c.commands ∧
      (readLines k code c lines).2 = (lines.isEmpty || (successCode c.state).isNone) := by
  induction lines generalizing c with
  | nil => exact ⟨rfl, rfl, rfl⟩
  | cons line lines ih =>
    obtain ⟨b, text⟩ := line
    obtain ⟨state, sent, error⟩ := replied_other (k := k) (c := c.begun code b) other text
    cases result : replied k (c.begun code b) text with
    | mk d accepted =>
      rw [result] at state sent error
      cases accepted with
      | false =>
        rw [readLines_refused result]
        exact ⟨state, sent, error⟩
      | true =>
        rw [readLines_accepted result]
        have state : d.state = c.state := state
        have none : true = (successCode c.state).isNone := error
        obtain ⟨state', sent', error'⟩ := ih (c := d) (by rw [state]; exact other)
        refine ⟨state'.trans state, sent'.trans sent, ?_⟩
        rw [error', state, ← none, Bool.or_true, Bool.or_true]

lemma successCode_successor {state : SmtpState} {code : Int} (success : successCode state = some code)
    (hello : state ≠ .hello) (pipeline : Bool) :
    successCode (successor pipeline state) = some code ↔ state = .sendingMail ∧ pipeline = true := by
  cases state <;> cases pipeline <;> simp_all [successCode, successor] <;> omega

/-- Where the next line of the same reply is no error. -/
lemma successCode_successor_isNone {state : SmtpState} {code : Int} (success : successCode state = some code)
    (hello : state ≠ .hello) {pipeline : Bool} (banner : state ≠ .banner)
    (piped : ¬ ((state = .sendingMail ∨ state = .sendingRcpt) ∧ pipeline = true)) :
    (successCode (successor pipeline state)).isNone = true := by
  cases state <;> cases pipeline <;> simp_all [successCode, successor]

lemma readLines_moves (success : successCode c.state = some (strtol code))
    (hello : c.state ≠ .hello) (away : ¬ (c.state = .sendingMail ∧ c.optPipeline = true))
    (b : UInt8) (text : List UInt8) (lines : List (UInt8 × List UInt8)) :
    (readLines k code c ((b, text) :: lines)).1.state = successor c.optPipeline c.state ∧
    (readLines k code c ((b, text) :: lines)).1.commands = c.commands ++ c.triggered ∧
    (readLines k code c ((b, text) :: lines)).2 =
      (lines.isEmpty || (successCode (successor c.optPipeline c.state)).isNone) := by
  obtain ⟨d, result, state, sent⟩ := replied_expected (k := k) (c := c.begun code b) success hello text
  change d.state = successor c.optPipeline c.state at state
  have other : successCode d.state ≠ some (strtol code) := by
    rw [state]
    exact fun again => away ((successCode_successor success hello _).1 again)
  obtain ⟨same, quiet, error⟩ := readLines_other (k := k) other lines
  rw [state] at error
  rw [readLines_accepted result lines]
  exact ⟨same.trans state, quiet.trans sent, error⟩

/-! ### The answer to `EHLO` -/

/-- Where the last line of the answer leads. -/
def helloTarget (c : SmtpClient) : SmtpState :=
  if c.useSsl = false ∧ c.optStartTLS = true then .startTLS
  else if c.url.user ≠ "" ∧ c.authMethods ≠ [] then .sendAuth
  else .ready

lemma helloEnd_last (last : c.isLastLine = true) : c.helloEnd = { c with state := c.helloTarget } :=
  if_pos last

lemma helloEnd_more (more : c.isLastLine = false) : c.helloEnd = c := by
  rw [helloEnd, more]
  rfl

def learnAll (c : SmtpClient) (texts : List (List UInt8)) : SmtpClient :=
  texts.foldl (fun c text => c.learn text) c

structure SameCaps (c d : SmtpClient) : Prop where
  url : c.url = d.url
  useSsl : c.useSsl = d.useSsl
  optStartTLS : c.optStartTLS = d.optStartTLS
  authMethods : c.authMethods = d.authMethods

lemma SameCaps.helloTarget {c : SmtpClient} (h : SameCaps c d) : helloTarget c = helloTarget d := by
  rw [SmtpClient.helloTarget, h.url, h.useSsl, h.optStartTLS, h.authMethods]
  rfl

lemma SameCaps.learn {c : SmtpClient} (h : SameCaps c d) (text : List UInt8) :
    SameCaps (c.learn text) (d.learn text) := by
  simp only [SmtpClient.learn]
  split
  · exact ⟨h.url, h.useSsl, h.optStartTLS, h.authMethods⟩
  · split
    · exact ⟨h.url, h.useSsl, rfl, h.authMethods⟩
    · split
      · exact ⟨h.url, h.useSsl, h.optStartTLS, rfl⟩
      · exact h

section
variable (c : SmtpClient) (text : List UInt8)

lemma learn_frame :
    ∃ pipeline startTLS methods, c.learn text =
      { c with optPipeline := pipeline, optStartTLS := startTLS, authMethods := methods } :=
  capability_inv (capability_text text [] c)

lemma learn_state : (c.learn text).state = c.state := by
  obtain ⟨pipeline, startTLS, methods, learnt⟩ := learn_frame c text
  rw [learnt]

lemma learn_isLastLine : (c.learn text).isLastLine = c.isLastLine := by
  obtain ⟨pipeline, startTLS, methods, learnt⟩ := learn_frame c text
  rw [learnt]

lemma learn_commands : (c.learn text).commands = c.commands := by
  obtain ⟨pipeline, startTLS, methods, learnt⟩ := learn_frame c text
  rw [learnt]
  rfl

end

lemma readLines_hello (ok : strtol code = 250) {c : SmtpClient}
    (hello : c.state = .hello) (caps : SameCaps c d) (texts : List (List UInt8)) (lines : List (UInt8 × List UInt8)) :
    ∃ c', readLines k code c (texts.map (minus, ·) ++ lines) = readLines k code c' lines ∧
      c'.state = .hello ∧ c'.commands = c.commands ∧ SameCaps c' (d.learnAll texts) := by
  induction texts generalizing c d with
  | nil => exact ⟨c, rfl, hello, rfl, caps⟩
  | cons text texts ih =>
    have result := replied_hello (k := k) (c := c.begun code minus) hello ok text
    have more : ((c.begun code minus).heard.learn text).isLastLine = false := learn_isLastLine _ text
    rw [helloEnd_more more] at result
    have begin' : SameCaps (c.begun code minus).heard d :=
      ⟨caps.url, caps.useSsl, caps.optStartTLS, caps.authMethods⟩
    have still : ((c.begun code minus).heard.learn text).state = .hello := (learn_state _ text).trans hello
    obtain ⟨c', eq, state, quiet, caps'⟩ := ih still (begin'.learn text)
    refine ⟨c', ?_, state, ?_, caps'⟩
    · rw [List.map_cons, List.cons_append, readLines_accepted result, eq]
    · rw [quiet, learn_commands, heard_commands]
      rfl

lemma readLines_hello_last (ok : strtol code = 250) (hello : c.state = .hello) (text : List UInt8) :
    (readLines k code c [(space, text)]).1.state = (c.learn text).helloTarget ∧
    (readLines k code c [(space, text)]).1.commands = c.commands ∧
    (readLines k code c [(space, text)]).2 = true := by
  have result := replied_hello (k := k) (c := c.begun code space) hello ok text
  have last : ((c.begun code space).heard.learn text).isLastLine = true := learn_isLastLine _ text
  have caps : SameCaps (c.begun code space).heard c := ⟨rfl, rfl, rfl, rfl⟩
  rw [helloEnd_last last] at result
  rw [readLines_accepted result]
  refine ⟨(caps.learn text).helloTarget, ?_, rfl⟩
  exact (learn_commands _ text).trans heard_commands

/-! ### Whole replies -/

/-- The reply has one line, or its first line does not lead to a state that judges the next ones; in the state
`eSMTP_Hello` they may not say anything that the last one alone would not. -/
structure Harmless (c : SmtpClient) (r : Reply) : Prop where
  banner : r.front ≠ [] → ¬ (c.state = .banner ∧ strtol r.code = 220)
  piped : r.front ≠ [] → c.state = .sendingMail ∨ c.state = .sendingRcpt → strtol r.code = 250 → c.optPipeline = false
  hello : c.state = .hello → strtol r.code = 250 →
    (c.learnAll (r.front ++ [r.last])).helloTarget = (c.learn r.last).helloTarget

section
variable {r : Reply} {before : Option UInt8} (zero : c.codeLength = 0)
include zero

lemma asSingle_of_front_nil (one : r.front = []) : AsSingle k before c r := by
  have none : r.frontLines = [] := by rw [Reply.frontLines, one]; rfl
  have all : r.lines = [(space, r.last)] := by rw [Reply.lines, none]; rfl
  refine asSingle_of_readLines zero ?_ ?_ ?_ ?_
  · rw [all]
  · rw [all]
  · rw [all]
  · rw [none]
    rfl

lemma asSingle_other (other : successCode c.state ≠ some (strtol r.code)) : AsSingle k before c r := by
  obtain ⟨state, sent, error⟩ := readLines_other (k := k) other r.lines
  obtain ⟨state', sent', error'⟩ := readLines_other (k := k) other [(space, r.last)]
  have front := readLines_other (k := k) other r.frontLines
  have some : r.lines.isEmpty = false := by simp [Reply.lines]
  rw [some] at error
  exact asSingle_of_readLines zero (state.trans state'.symm) (sent.trans sent'.symm) (error.trans error'.symm) front.2.1

lemma asSingle_moves (success : successCode c.state = some (strtol r.code)) (hello : c.state ≠ .hello)
    (banner : c.state ≠ .banner)
    (piped : ¬ ((c.state = .sendingMail ∨ c.state = .sendingRcpt) ∧ c.optPipeline = true)) : AsSingle k before c r := by
  have away : ¬ (c.state = .sendingMail ∧ c.optPipeline = true) := fun h => piped ⟨.inl h.1, h.2⟩
  have quiet : c.triggered = [] := if_neg banner
  obtain ⟨state', sent', error'⟩ := readLines_moves (k := k) success hello away space r.last []
  cases front : r.front with
  | nil => exact asSingle_of_front_nil zero front
  | cons text texts =>
    have first : r.frontLines = (minus, text) :: texts.map (minus, ·) := by rw [Reply.frontLines, front]; rfl
    have all : r.lines = (minus, text) :: (texts.map (minus, ·) ++ [(space, r.last)]) := by rw [Reply.lines, first]; rfl
    obtain ⟨state, sent, error⟩ :=
      readLines_moves (k := k) success hello away minus text (texts.map (minus, ·) ++ [(space, r.last)])
    obtain ⟨-, early, -⟩ := readLines_moves (k := k) success hello away minus text (texts.map (minus, ·))
    rw [← all] at state sent error
    rw [← first] at early
    rw [successCode_successor_isNone success hello banner piped, Bool.or_true] at error error'
    rw [quiet, List.append_nil] at early
    exact asSingle_of_readLines zero (state.trans state'.symm) (sent.trans sent'.symm) (error.trans error'.symm) early

lemma asSingle_hello (hello : c.state = .hello) (ok : strtol r.code = 250)
    (same : (c.learnAll (r.front ++ [r.last])).helloTarget = (c.learn r.last).helloTarget) : AsSingle k before c r := by
  have caps : SameCaps c c := ⟨rfl, rfl, rfl, rfl⟩
  obtain ⟨d, whole, state, sent, caps'⟩ := readLines_hello (k := k) ok hello caps r.front [(space, r.last)]
  obtain ⟨e, front, -, early, -⟩ := readLines_hello (k := k) ok hello caps r.front []
  obtain ⟨last, quiet, good⟩ := readLines_hello_last (k := k) ok state r.last
  obtain ⟨last', quiet', good'⟩ := readLines_hello_last (k := k) ok hello r.last
  have target : (c.learnAll (r.front ++ [r.last])).helloTarget = (d.learn r.last).helloTarget := by
    rw [learnAll, List.foldl_append]
    exact ((caps'.learn r.last).helloTarget).symm
  rw [List.append_nil, ← Reply.frontLines] at front
  rw [← Reply.frontLines, ← Reply.lines] at whole
  refine asSingle_of_readLines zero ?_ ?_ ?_ ?_
  · rw [whole, last, last', ← same, target]
  · rw [whole, quiet, quiet', sent]
  · rw [whole, good, good']
  · rw [front]
    exact early

end

def twoLines (code : Vector UInt8 3) (first second : String) (ok : Text (bytes first) ∧ Text (bytes second)) :
    Reply where
  code := code
  front := [bytes first]
  last := bytes second
  front_text := List.forall_mem_singleton.2 ok.1
  last_text := ok.2

end SmtpClient

end Sming.Network
