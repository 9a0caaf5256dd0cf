import Sming.Network.SmtpLines

/-!
# Complete lines of the server

`replied` says what the client does with a line that is complete, from its text alone. `Accepts` describes
the bytes the parser takes whatever follows them: complete lines that are no errors, and at the end at most
the code of the next one (`Accepts.parses`).
-/

namespace Sming.Network
open Sming.Wiring Sming.Network.Http SmtpParser List

namespace SmtpParser

/-- Bytes without the end of a line. -/
def Text (text : List UInt8) : Prop := ¬ [cr, lf] <:+: text

instance : DecidablePred Text := fun _ => inferInstanceAs (Decidable (¬ _))

variable {b : UInt8} {text : List UInt8}

lemma Text.tail (h : Text (b :: text)) : Text text := fun inner => h (infix_cons inner)

lemma Text.head {a : UInt8} (h : Text (b :: a :: text)) : ¬ (b = cr ∧ a = lf) := by
  rintro ⟨rfl, rfl⟩
  exact h ⟨[], text, rfl⟩

lemma Text.cons (ne : b ≠ cr) (h : Text text) : Text (b :: text) := by
  intro inner
  rcases infix_cons_iff.1 inner with first | rest
  · exact ne (cons_prefix_cons.1 first).1.symm
  · exact h rest

lemma eol_text {prev : UInt8} (h : Text (prev :: text)) (after : List UInt8) :
    eol prev (text ++ cr :: lf :: after) = (text ++ [cr, lf], after) := by
  induction text generalizing prev with
  | nil =>
    have no : ¬ (prev = cr ∧ cr = lf) := fun h => absurd h.2 (by decide)
    rw [nil_append, eol, if_neg no, eol, if_pos ⟨rfl, rfl⟩]
    rfl
  | cons b text ih =>
    rw [cons_append, eol, if_neg h.head, ih h.tail]
    rfl

lemma eol_open {prev : UInt8} {rest : List UInt8} (h : Text (prev :: rest)) : eol prev rest = (rest, []) := by
  induction rest generalizing prev with
  | nil => rfl
  | cons b rest ih => rw [eol, if_neg h.head, ih h.tail]

lemma text_or_line (rest : List UInt8) : Text rest ∨ ∃ text after, rest = text ++ cr :: lf :: after ∧ Text text := by
  induction rest with
  | nil => exact .inl (by decide)
  | cons b rest ih =>
    by_cases first : [cr, lf] <+: b :: rest
    · obtain ⟨after, eq⟩ := first
      exact .inr ⟨[], after, eq.symm, by decide⟩
    · rcases ih with h | ⟨text, after, rfl, h⟩
      · refine .inl fun inner => ?_
        rcases infix_cons_iff.1 inner with start | inside
        · exact first start
        · exact h inside
      · refine .inr ⟨b :: text, after, rfl, fun inner => ?_⟩
        rcases infix_cons_iff.1 inner with start | inside
        · exact first (start.trans (prefix_append (b :: text) (cr :: lf :: after)))
        · exact h inside

/-- Whether a line is taken for the text it is compared with. -/
def alike (line text : List UInt8) : Bool := line <+: text || text ++ [0] <+: line

lemma strncmp_take {mem : List UInt8} (text : List UInt8) {n : Nat} (inside : n ≤ mem.length) :
    strncmp mem text n = .ok (alike (mem.take n) text) := by
  induction n generalizing mem text with
  | zero => cases mem <;> cases text <;> rfl
  | succ n ih =>
    cases mem with
    | nil => exact absurd inside (Nat.not_succ_le_zero _)
    | cons a mem =>
      cases text with
      | nil => simp [strncmp, alike, cons_prefix_cons, eq_comm (a := (0 : UInt8)), Bool.beq_eq_decide_eq]
      | cons b text =>
        rw [strncmp, take_succ_cons]
        by_cases eq : a = b
        · subst eq
          rw [if_pos rfl, ih text (Nat.le_of_succ_le_succ inside)]
          simp [alike, cons_prefix_cons]
        · have eq' : ¬ b = a := fun h => eq h.symm
          simp [alike, cons_prefix_cons, eq, eq']

lemma strncmp_stop (stop : b ∉ text) (line after : List UInt8) :
    strncmp (line ++ b :: after) text text.length = .ok (text.isPrefixOf line) := by
  induction text generalizing line with
  | nil => cases line <;> rfl
  | cons d text ih =>
    cases line with
    | nil =>
      have ne : b ≠ d := fun eq => stop (mem_cons.2 (.inl eq))
      rw [nil_append, length_cons, strncmp, if_neg ne]
      rfl
    | cons a line =>
      rw [cons_append, length_cons, strncmp]
      by_cases eq : a = d
      · subst eq
        rw [if_pos rfl, ih (fun mem => stop (mem_cons_of_mem _ mem))]
        simp
      · rw [if_neg eq, isPrefixOf_cons_cons, beq_false_of_ne fun h => eq h.symm, Bool.false_and]

end SmtpParser

namespace SmtpClient

variable {k : Codec} {c c' : SmtpClient}

/-- The text of a line of the answer to `EHLO`. -/
def learn (text : List UInt8) (c : SmtpClient) : SmtpClient :=
  let line := text.take (sizeT text.length)
  if alike line (bytes "PIPELINING") then { c with optPipeline := true }
  else if alike line (bytes "STARTTLS") then { c with optStartTLS := true }
  else if (bytes "AUTH ").isPrefixOf text then
    let methods := String.ofList ((text.drop 5).map fun b => Char.ofNat b.toNat)
    { c with authMethods := WString.splitString methods ' ' }
  else c

/-- The text of an error. -/
def noted (text : List UInt8) (c : SmtpClient) : SmtpClient :=
  { c with message := text.take smtpErrorLength ++ c.message.drop (text.take smtpErrorLength).length }

/-- What a line with this text does; `false` is an error of the server. -/
def replied (k : Codec) (c : SmtpClient) (text : List UInt8) : SmtpClient × Bool :=
  match successCode c.state with
  | none => (c.heard.noted text, true)
  | some code =>
    if c.codeValue ≠ code then
      let c := c.heard.noted text
      ({ c with message := c.message.set smtpErrorLength 0 }, false)
    else if c.state = .hello then ((c.heard.learn text).helloEnd, true)
    else if c.state = .requestingAuthChallenge then
      ({ c.heard with authChallenge := k.base64Decode text, state := .sendAuthResponse }, true)
    else (c.heard.proceed, true)

lemma read_text (text after : List UInt8) : SmtpParser.read (text ++ after) text.length = .ok text := by
  simp [SmtpParser.read]

lemma copyMessage_text (text after : List UInt8) (c : SmtpClient) :
    copyMessage (text ++ after) text.length c = .ok (c.noted text) := by
  have length : min (text.length : Int) smtpErrorLength = (text.take smtpErrorLength).length := by
    rw [length_take]
    omega
  have parts : text ++ after = text.take smtpErrorLength ++ (text.drop smtpErrorLength ++ after) := by
    rw [← List.append_assoc, take_append_drop]
  rw [copyMessage, length, parts, read_text]
  rfl

lemma sizeT_le (n : Nat) : sizeT n ≤ n := by
  rw [sizeT]
  omega

lemma strncmp_line (text after lit : List UInt8) :
    strncmp (text ++ after) lit (sizeT text.length) = .ok (alike (text.take (sizeT text.length)) lit) := by
  have inside : sizeT text.length ≤ (text ++ after).length := by
    have := sizeT_le text.length
    rw [List.length_append]
    omega
  rw [strncmp_take lit inside, take_append_of_le_length (sizeT_le _)]

lemma capability_text (text after : List UInt8) (c : SmtpClient) :
    capability (text ++ cr :: after) text.length c = .ok (c.learn text) := by
  have five : (bytes "AUTH ").length = 5 := by decide
  have auth : strncmp (text ++ cr :: after) (bytes "AUTH ") 5 = .ok ((bytes "AUTH ").isPrefixOf text) :=
    strncmp_stop (by decide) text after
  simp only [capability, strncmp_line, auth, bind, Except.bind, learn]
  cases alike (text.take (sizeT text.length)) (bytes "PIPELINING") with
  | true => rfl
  | false =>
    cases alike (text.take (sizeT text.length)) (bytes "STARTTLS") with
    | true => rfl
    | false =>
      cases start : (bytes "AUTH ").isPrefixOf text with
      | false => rfl
      | true =>
        have long : 5 ≤ text.length := by
          have := (List.isPrefixOf_iff_prefix.1 start).length_le
          rwa [five] at this
        have length : (text.length - 5 : Int) = (text.drop 5).length := by
          rw [length_drop]
          omega
        rw [drop_append_of_le_length long, length, read_text]
        rfl

lemma replied_unexpected (no : successCode c.state = none) (text : List UInt8) :
    replied k c text = (c.heard.noted text, true) := by
  rw [replied, no]

lemma replied_refused {code : Int} (success : successCode c.state = some code) (ne : c.codeValue ≠ code)
    (text : List UInt8) :
    replied k c text =
      ({ c.heard.noted text with message := (c.heard.noted text).message.set smtpErrorLength 0 }, false) := by
  rw [replied, success]
  exact if_pos ne

lemma replied_hello (hello : c.state = .hello) (ok : c.codeValue = 250) (text : List UInt8) :
    replied k c text = ((c.heard.learn text).helloEnd, true) := by
  simp only [replied, hello, successCode, ok, ne_eq, not_true_eq_false, if_false, if_true]

lemma replied_challenge (challenge : c.state = .requestingAuthChallenge) (ok : c.codeValue = 334)
    (text : List UInt8) :
    replied k c text = ({ c.heard with authChallenge := k.base64Decode text, state := .sendAuthResponse }, true) := by
  simp only [replied, challenge, successCode, ok, ne_eq, not_true_eq_false, reduceCtorEq, if_false, if_true]

lemma replied_proceeds (success : successCode c.state = some c.codeValue) (hello : c.state ≠ .hello)
    (challenge : c.state ≠ .requestingAuthChallenge) (text : List UInt8) :
    replied k c text = (c.heard.proceed, true) := by
  simp only [replied, success, ne_eq, not_true_eq_false, if_false, if_neg hello, if_neg challenge]

lemma onLine_text (text after : List UInt8) :
    onLine k (text ++ cr :: lf :: after) text.length c = .ok (replied k c text) := by
  obtain no | ⟨code, success, ne⟩ | ⟨hello, ok⟩ | ⟨challenge, ok⟩ | ⟨success, hello, challenge⟩ := line_cases c
  · rw [onLine_unexpected no, copyMessage_text, replied_unexpected no]
    rfl
  · rw [onLine_refused success ne, copyMessage_text, replied_refused success ne]
    rfl
  · rw [onLine_hello hello ok, capability_text, replied_hello hello ok]
    rfl
  · rw [onLine_challenge challenge ok, read_text, replied_challenge challenge ok]
    rfl
  · rw [onLine_proceeds success hello challenge, replied_proceeds success hello challenge]

lemma replied_reacts (k : Codec) (c : SmtpClient) (text : List UInt8) : Reacts c (replied k c text) :=
  onLine_reacts (onLine_text text [])

/-- The client after these bytes, whatever follows them. -/
inductive Accepts (k : Codec) : SmtpClient → List UInt8 → SmtpClient → Prop where
  | nil (c : SmtpClient) : Accepts k c [] c
  | digit {c c' : SmtpClient} {b : UInt8} {rest : List UInt8} :
    c.codeLength < 3 →
    Accepts k (c.collect b) rest c' →
    Accepts k c (b :: rest) c'
  | line {c d c' : SmtpClient} {b : UInt8} {text rest : List UInt8} :
    c.codeLength = 3 →
    Separator b →
    Text text →
    replied k (c.atText b) text = (d, true) →
    Accepts k d rest c' →
    Accepts k c (b :: (text ++ cr :: lf :: rest)) c'

variable {b : UInt8} {text : List UInt8}

section
variable (sep : Separator b) (h : Text text)
include sep h

lemma eol_line (after : List UInt8) : eol b (text ++ cr :: lf :: after) = (text ++ [cr, lf], after) :=
  eol_text (h.cons sep.ne_cr) after

lemma onLine_eol (after : List UInt8) :
    onLine k (text ++ cr :: lf :: after) ((eol b (text ++ cr :: lf :: after)).1.length - 2) c =
      .ok (replied k c text) := by
  have length : ((text ++ [cr, lf]).length : Int) - 2 = text.length := by
    rw [List.length_append]
    simp
  rw [eol_line sep h, length, onLine_text]

lemma eol_getLast?_line (after : List UInt8) : (eol b (text ++ cr :: lf :: after)).1.getLast? = some lf := by
  rw [eol_line sep h]
  simp

end

variable {pre : List UInt8}

lemma Accepts.parses {tail : List UInt8} {r : Except Fault (SmtpClient × Bool)}
    (h : Accepts k c pre c') (next : Parses k c' tail r) : Parses k c (pre ++ tail) r := by
  induction h with
  | nil c => exact next
  | digit few rest ih => exact .digit few (ih next)
  | @line c d c' b text rest three sep ok accepted more ih =>
    have out := onLine_eol (k := k) (c := c.atText b) sep ok (rest ++ tail)
    rw [accepted] at out
    have go : Parses k d (eol b (text ++ cr :: lf :: (rest ++ tail))).2 r := by
      rw [eol_line sep ok]
      exact ih next
    rw [cons_append, List.append_assoc]
    exact .line three sep (eol_getLast?_line sep ok _) out go

lemma Accepts.codeLength_le (h : Accepts k c pre c') (few : c.codeLength ≤ 3) : c'.codeLength ≤ 3 := by
  induction h with
  | nil c => exact few
  | digit less rest ih => exact ih less
  | @line c d c' b text rest three sep ok accepted more ih =>
    have zero : d.codeLength = 0 := by
      have kept := (replied_reacts k (c.atText b) text).codeLength
      rwa [accepted] at kept
    exact ih (by omega)

lemma Accepts.smtpParse (h : Accepts k c pre c') (before : Option UInt8) :
    smtpParse k before c pre = .ok (c', pre.length) := by
  have parsed := (h.parses (.done c')).smtpParse before
  rwa [append_nil] at parsed

def collectAll (c : SmtpClient) (bs : List UInt8) : SmtpClient := bs.foldl collect c

lemma collectAll_eq (c : SmtpClient) (bs : List UInt8) :
    c.collectAll bs = { c with code := (c.collectAll bs).code, codeLength := c.codeLength + bs.length } := by
  induction bs generalizing c with
  | nil => rfl
  | cons b bs ih =>
    have length : c.codeLength + (b :: bs).length = (c.collect b).codeLength + bs.length := by
      rw [length_cons]
      change _ = c.codeLength + 1 + bs.length
      omega
    rw [length]
    exact ih (c.collect b)

lemma collectAll_codeLength (c : SmtpClient) (bs : List UInt8) :
    (c.collectAll bs).codeLength = c.codeLength + bs.length := by
  rw [collectAll_eq]

lemma accepts_code (k : Codec) {c : SmtpClient} {bs : List UInt8} (few : c.codeLength + bs.length ≤ 3) :
    Accepts k c bs (c.collectAll bs) := by
  induction bs generalizing c with
  | nil => exact .nil c
  | cons b bs ih =>
    rw [length_cons] at few
    have more : (c.collect b).codeLength + bs.length ≤ 3 := by
      change c.codeLength + 1 + bs.length ≤ 3
      omega
    exact .digit (by omega) (ih more)

def commands (c : SmtpClient) : List Command :=
  c.log.filterMap fun
    | .sent _ command => some command
    | _ => none

end SmtpClient

end Sming.Network
