import Sming.Lib.Words
import Sming.Network.SmtpMultiline

/-!
# The capabilities of the server

Each line of the answer to `EHLO` is compared with a keyword over the length of the line, so the empty line and every
beginning of a keyword are taken for it, and so is a keyword with a NUL behind it. The methods of `AUTH` are cut at
single blanks, and nothing that an earlier answer has set is ever taken back.
-/

namespace Sming.Wiring.WString
open Sming.Lib Option String

variable {cs : List Char} {parts : List (List Char)}

def Word (part : List Char) : Prop := part ≠ [] ∧ ∀ c ∈ part, isspace c = false ∧ c ≠ '\x00'

instance (part : List Char) : Decidable (Word part) :=
  have : Decidable (∀ c ∈ part, isspace c = false ∧ c ≠ '\x00') := List.decidableBAll _ part
  inferInstanceAs (Decidable (part ≠ [] ∧ ∀ c ∈ part, isspace c = false ∧ c ≠ '\x00'))

lemma words_splitOn (cs : List Char) : (cs.splitOn ' ').flatMap (words isspace) = words isspace cs := by
  induction h : cs.length using Nat.strong_induction_on generalizing cs with
  | _ n ih =>
    by_cases mem : ' ' ∈ cs
    · obtain ⟨front, rest, rfl, absent⟩ := List.eq_append_cons_of_mem mem
      have shorter : rest.length < n := by
        rw [← h, List.length_append, List.length_cons]
        omega
      rw [List.splitOn_append_cons_self_of_not_mem absent, List.flatMap_cons, ih _ shorter rest rfl, words_append_blank (by decide)]
    · rw [List.splitOn_eq_singleton mem, List.flatMap_singleton]

lemma words_trim (cs : List Char) : words isspace (trim (ofList cs)).toList = words isspace cs := by
  rw [trim, toList_ofList, toList_ofList]
  exact (words_rdropWhile _).trans (words_dropWhile cs)

variable {part : List Char}

lemma Word.words_eq (word : Word part) : words isspace part = [part] :=
  words_solid word.1 fun c mem => (word.2 c mem).1

lemma Word.before_eq (word : Word part) : before '\x00' part = part :=
  before_of_not_mem fun mem => (word.2 _ mem).2 rfl

lemma word_of_before (ne : before '\x00' part ≠ []) (solid : ∀ c ∈ before '\x00' part, isspace c = false)
    (first : before '\x00' part = part.takeWhile (fun c => !isspace c)) : Word part := by
  have whole : '\x00' ∉ part := by
    intro mem
    obtain ⟨after, cut⟩ := exists_before_append mem
    have longer : part.takeWhile (fun c => !isspace c) =
        before '\x00' part ++ '\x00' :: after.takeWhile (fun c => !isspace c) := by
      conv_lhs => rw [cut]
      rw [List.takeWhile_append_of_pos fun c mem => by simp [solid c mem], List.takeWhile_cons_of_pos (by decide)]
    rw [← first, List.self_eq_append_right] at longer
    cases longer
  rw [before_of_not_mem whole] at ne solid
  exact ⟨ne, fun c mem => ⟨solid c mem, ne_of_mem_of_not_mem mem whole⟩⟩

lemma map_before_eq_iff (parts : List (List Char)) :
    parts.map (before '\x00') = parts.flatMap (words isspace) ↔ ∀ part ∈ parts, Word part := by
  induction parts with
  | nil => simp
  | cons part parts ih =>
    rw [List.map_cons, List.flatMap_cons, List.forall_mem_cons]
    constructor
    · intro same
      have mem : before '\x00' part ∈ (part :: parts).flatMap (words isspace) := by
        rw [List.flatMap_cons, ← same]
        exact List.mem_cons_self
      obtain ⟨piece, -, inside⟩ := List.mem_flatMap.mp mem
      obtain ⟨ne, solid⟩ := mem_words inside
      have word : Word part := by
        apply word_of_before ne solid
        cases part with
        | nil => exact absurd rfl ne
        | cons c cs =>
          have head : c ≠ '\x00' := by
            rintro rfl
            exact ne (before_cons_self _ _)
          have solid' : isspace c = false := by
            apply solid
            rw [before_cons_of_ne head]
            exact List.mem_cons_self
          obtain ⟨rest, first⟩ := words_cons_solid solid' cs
          rw [first] at same
          exact (List.cons.inj same).1
      rw [word.words_eq, word.before_eq, List.singleton_append] at same
      exact ⟨word, ih.mp (List.cons.inj same).2⟩
    · rintro ⟨word, rest⟩
      rw [word.words_eq, word.before_eq, ih.mpr rest, List.singleton_append]

/-- Words with one blank between them; what stands around them does not matter. -/
def SingleSpaced (cs : List Char) : Prop :=
  ∀ part ∈ ((cs.dropWhile isspace).rdropWhile isspace).splitOn ' ', Word part

instance (cs : List Char) : Decidable (SingleSpaced cs) := inferInstanceAs (Decidable (∀ part ∈ _, Word part))

lemma splitString_words_iff (cs : List Char) :
    splitString (ofList cs) ' ' = (words isspace cs).map ofList ↔ SingleSpaced cs := by
  have cut : splitString (ofList cs) ' ' =
      (((trim (ofList cs)).toList.splitOn ' ').map (before '\x00')).map ofList := by
    rw [List.map_map, ← splitAt_eq_splitOn]
    rfl
  have trimmed : (trim (ofList cs)).toList = (cs.dropWhile isspace).rdropWhile isspace := by
    rw [trim, toList_ofList, toList_ofList]
    rfl
  rw [SingleSpaced, ← trimmed, ← map_before_eq_iff, words_splitOn, words_trim, cut]
  exact List.map_inj_right fun _ _ same => ofList_inj.mp same

end Sming.Wiring.WString

namespace Sming.Network
open Sming.Lib Sming.Network.Http Sming.Wiring SmtpParser SmtpClient Option

/-! ### What an answer says -/

/-- The text of a line with the methods for the authentication. -/
def isAuth (text : List UInt8) : Bool := (bytes "AUTH ").isPrefixOf text

def authText (text : List UInt8) : List Char := (text.drop 5).map fun b => Char.ofNat b.toNat

def authLine (texts : List (List UInt8)) : Option (List UInt8) := texts.reverse.find? isAuth

lemma authLine_cons (text : List UInt8) (texts : List (List UInt8)) :
    authLine (text :: texts) = (authLine texts).or (if isAuth text then some text else none) := by
  rw [authLine, List.reverse_cons, List.find?_append, List.find?_singleton]
  rfl

namespace Reply

def texts (r : Reply) : List (List UInt8) := r.front ++ [r.last]

/-- The words of the line `AUTH`, none if there is no such line. -/
def methods (r : Reply) : List String :=
  match authLine r.texts with
  | none => []
  | some text => (words WString.isspace (authText text)).map String.ofList

end Reply

namespace SmtpClient

variable {k : Codec} {c d : SmtpClient} {text : List UInt8} {texts : List (List UInt8)}

structure Learnt (r : Reply) (c : SmtpClient) : Prop where
  pipeline : c.optPipeline = true ↔ bytes "PIPELINING" ∈ r.texts
  startTLS : c.optStartTLS = true ↔ bytes "STARTTLS" ∈ r.texts
  methods : c.authMethods = r.methods

/-! ### What the client makes of it -/

def likePipelining (text : List UInt8) : Bool := alike text (bytes "PIPELINING")

/-- A text that is taken for `STARTTLS`; the empty one is taken for `PIPELINING` before. -/
def likeStartTLS (text : List UInt8) : Bool := alike text (bytes "STARTTLS") && !text.isEmpty

structure Told (texts : List (List UInt8)) (c d : SmtpClient) : Prop where
  pipeline : d.optPipeline = (c.optPipeline || texts.any likePipelining)
  startTLS : d.optStartTLS = (c.optStartTLS || texts.any likeStartTLS)
  methods : d.authMethods = ((authLine texts).map fun text =>
    WString.splitString (String.ofList (authText text)) ' ').getD c.authMethods

lemma Told.cons {e : SmtpClient} (first : Told [text] c d) (rest : Told texts d e) : Told (text :: texts) c e where
  pipeline := by
    rw [rest.pipeline, first.pipeline, List.any_cons, List.any_cons, List.any_nil, Bool.or_false, Bool.or_assoc]
  startTLS := by
    rw [rest.startTLS, first.startTLS, List.any_cons, List.any_cons, List.any_nil, Bool.or_false, Bool.or_assoc]
  methods := by
    rw [rest.methods, first.methods, authLine_cons, authLine_cons]
    cases authLine texts <;> rfl

variable {b : UInt8}

lemma alike_cons {a : UInt8} {lit : List UInt8} (h : alike (b :: text) (a :: lit) = true) : b = a := by
  rw [alike, Bool.or_eq_true, decide_eq_true_eq, decide_eq_true_eq] at h
  rcases h with start | start
  · exact (List.cons_prefix_cons.mp start).1
  · exact (List.cons_prefix_cons.mp start).1.symm

variable {rest : List UInt8}

lemma first_pipelining (h : likePipelining (b :: rest) = true) : b = 80 := by
  have same : alike (b :: rest) (80 :: (bytes "PIPELINING").tail) = true := h
  exact alike_cons same

lemma first_startTLS (h : likeStartTLS (b :: rest) = true) : b = 83 := by
  have same : alike (b :: rest) (83 :: (bytes "STARTTLS").tail) = true := (Bool.and_eq_true_iff.mp h).1
  exact alike_cons same

lemma first_auth (h : isAuth (b :: rest) = true) : b = 65 := by
  have start : (65 :: (bytes "AUTH ").tail) <+: b :: rest := List.isPrefixOf_iff_prefix.mp h
  exact (List.cons_prefix_cons.mp start).1.symm

lemma startTLS_alone (h : likeStartTLS text = true) : likePipelining text = false ∧ isAuth text = false := by
  cases text with
  | nil => cases h
  | cons b rest =>
    have first := first_startTLS h
    refine ⟨Bool.eq_false_iff.mpr fun other => ?_, Bool.eq_false_iff.mpr fun other => ?_⟩
    · exact absurd (first.symm.trans (first_pipelining other)) (by decide)
    · exact absurd (first.symm.trans (first_auth other)) (by decide)

lemma auth_alone (h : isAuth text = true) : likePipelining text = false := by
  cases text with
  | nil => cases h
  | cons b rest =>
    exact Bool.eq_false_iff.mpr fun other => absurd ((first_auth h).symm.trans (first_pipelining other)) (by decide)

lemma learn_eq (size : text.length < 2 ^ 32) (c : SmtpClient) :
    c.learn text = if likePipelining text then { c with optPipeline := true }
      else if likeStartTLS text then { c with optStartTLS := true }
      else if isAuth text then { c with authMethods := WString.splitString (String.ofList (authText text)) ' ' }
      else c := by
  have whole : text.take (sizeT text.length) = text := by
    have same : sizeT text.length = text.length := by
      rw [sizeT]
      omega
    rw [same, List.take_length]
  cases text with
  | nil => rfl
  | cons b rest =>
    have more : likeStartTLS (b :: rest) = alike (b :: rest) (bytes "STARTTLS") := Bool.and_true _
    simp only [learn, whole, more]
    rfl

lemma told_learn (size : text.length < 2 ^ 32) (c : SmtpClient) : Told [text] c (c.learn text) := by
  rw [learn_eq size]
  cases pipeline : likePipelining text with
  | true =>
    have startTLS : likeStartTLS text = false :=
      Bool.eq_false_iff.mpr fun h => by simp [(startTLS_alone h).1] at pipeline
    have auth : isAuth text = false := Bool.eq_false_iff.mpr fun h => by simp [auth_alone h] at pipeline
    constructor <;> simp [pipeline, startTLS, auth, authLine]
  | false =>
    cases startTLS : likeStartTLS text with
    | true => constructor <;> simp [pipeline, startTLS, (startTLS_alone startTLS).2, authLine]
    | false =>
      cases auth : isAuth text with
      | true => constructor <;> simp [pipeline, startTLS, auth, authLine]
      | false => constructor <;> simp [pipeline, startTLS, auth, authLine]

lemma Told.helloEnd (told : Told texts c d) : Told texts c d.helloEnd := by
  rw [SmtpClient.helloEnd]
  split
  · exact ⟨told.pipeline, told.startTLS, told.methods⟩
  · exact told

lemma told_lines {code : Vector UInt8 3} (ok : strtol code = 250) (hello : c.state = .hello)
    (size : ∀ text ∈ texts, text.length < 2 ^ 32) {last : List UInt8} (size' : last.length < 2 ^ 32) :
    ∃ d, readLines k code c (texts.map (minus, ·) ++ [(space, last)]) = (d, true) ∧ Told (texts ++ [last]) c d := by
  induction texts generalizing c with
  | nil =>
    have result := replied_hello (k := k) (c := c.begun code space) hello ok last
    refine ⟨_, readLines_accepted result [], ?_⟩
    have told := told_learn size' (c.begun code space).heard
    exact Told.helloEnd ⟨told.pipeline, told.startTLS, told.methods⟩
  | cons text texts ih =>
    have result := replied_hello (k := k) (c := c.begun code minus) hello ok text
    have more : ((c.begun code minus).heard.learn text).isLastLine = false := learn_isLastLine _ text
    rw [helloEnd_more more] at result
    have still : ((c.begun code minus).heard.learn text).state = .hello := (learn_state _ text).trans hello
    have told := told_learn (size text List.mem_cons_self) (c.begun code minus).heard
    obtain ⟨d, rest, told'⟩ := ih still fun text mem => size text (List.mem_cons_of_mem _ mem)
    refine ⟨d, ?_, Told.cons ⟨told.pipeline, told.startTLS, told.methods⟩ told'⟩
    rw [List.map_cons, List.cons_append, readLines_accepted result, rest]

/-! ### Which answers are understood -/

/-- A text that a comparison over its length takes for another one. -/
def TakenFor (lit text : List UInt8) : Prop := text <+: lit ∨ lit ++ [0] <+: text

instance (lit text : List UInt8) : Decidable (TakenFor lit text) := inferInstanceAs (Decidable (_ ∨ _))

/-- No line is taken for what it is not, no option was set before without a line for it, and the methods stand between
single blanks. -/
structure Unmistaken (c : SmtpClient) (r : Reply) : Prop where
  pipeline : bytes "PIPELINING" ∈ r.texts ∨
    c.optPipeline = false ∧ ∀ text ∈ r.texts, ¬ TakenFor (bytes "PIPELINING") text
  startTLS : bytes "STARTTLS" ∈ r.texts ∨
    c.optStartTLS = false ∧ ∀ text ∈ r.texts, text = [] ∨ ¬ TakenFor (bytes "STARTTLS") text
  methods : (authLine r.texts).elim (c.authMethods = []) fun text => WString.SingleSpaced (authText text)

lemma alike_eq_false (lit text : List UInt8) : alike text lit = false ↔ ¬ TakenFor lit text := by
  rw [← Bool.not_eq_true, alike, Bool.or_eq_true, decide_eq_true_eq, decide_eq_true_eq]
  rfl

lemma likeStartTLS_eq_false (text : List UInt8) :
    likeStartTLS text = false ↔ text = [] ∨ ¬ TakenFor (bytes "STARTTLS") text := by
  rw [← alike_eq_false, likeStartTLS, Bool.and_eq_false_iff, Bool.not_eq_false', List.isEmpty_iff, or_comm]

lemma option_iff {old new : Bool} {like : List UInt8 → Bool} (lit : List UInt8) (own : like lit = true)
    (told : new = (old || texts.any like)) :
    (new = true ↔ lit ∈ texts) ↔ lit ∈ texts ∨ old = false ∧ ∀ text ∈ texts, like text = false := by
  by_cases mem : lit ∈ texts
  · have some : texts.any like = true := List.any_eq_true.mpr ⟨lit, mem, own⟩
    rw [told, some, Bool.or_true]
    exact ⟨fun _ => .inl mem, fun _ => ⟨fun _ => mem, fun _ => rfl⟩⟩
  · rw [iff_false_right mem, or_iff_right mem, Bool.not_eq_true, told, Bool.or_eq_false_iff, List.any_eq_false]
    simp only [Bool.not_eq_true]

variable {r : Reply}

lemma Told.learnt_iff (told : Told r.texts c d) : Learnt r d ↔ Unmistaken c r := by
  have pipeline := option_iff (bytes "PIPELINING") (by decide) told.pipeline
  have startTLS := option_iff (bytes "STARTTLS") (by decide) told.startTLS
  have methods : d.authMethods = r.methods ↔
      (authLine r.texts).elim (c.authMethods = []) fun text => WString.SingleSpaced (authText text) := by
    rw [told.methods, Reply.methods]
    cases authLine r.texts with
    | none => exact Iff.rfl
    | some text =>
      rw [map_some, getD_some, elim_some]
      exact WString.splitString_words_iff (authText text)
  simp only [likePipelining, alike_eq_false] at pipeline
  simp only [likeStartTLS_eq_false] at startTLS
  exact ⟨fun h => ⟨pipeline.mp h.pipeline, startTLS.mp h.startTLS, methods.mp h.methods⟩,
    fun h => ⟨pipeline.mpr h.pipeline, startTLS.mpr h.startTLS, methods.mpr h.methods⟩⟩

lemma length_le_bytes (mem : text ∈ r.texts) : text.length ≤ r.bytes.length := by
  obtain ⟨b, line⟩ : ∃ b, (b, text) ∈ r.lines := by
    rcases List.mem_append.mp mem with front | last
    · exact ⟨minus, List.mem_append_left _ (List.mem_map_of_mem front)⟩
    · rw [List.mem_singleton.mp last]
      exact ⟨space, List.mem_append_right _ (List.mem_singleton_self _)⟩
  have part : text <:+: r.bytes := by
    rw [r.bytes_eq]
    refine List.IsInfix.trans ?_ (List.infix_of_mem_flatten (List.mem_map_of_mem line))
    exact ⟨r.code.toList ++ [b], [cr, lf], by simp [lineBytes]⟩
  exact part.length_le

lemma parsed_learnt_iff (before : Option UInt8) (zero : c.codeLength = 0) (r : Reply) :
    (∃ d n, smtpParse k before c r.bytes = .ok (d, n) ∧ Learnt r d) ↔ Learnt r (readLines k r.code c r.lines).1 := by
  rw [smtpParse_reply before zero]
  constructor
  · rintro ⟨d, n, result, learnt⟩
    obtain ⟨rfl, -⟩ := Prod.mk.inj (Except.ok.inj result)
    exact learnt
  · intro learnt
    exact ⟨_, _, rfl, learnt⟩

lemma readLines_not_learnt (hello : c.state = .hello) (no : strtol r.code ≠ 250) :
    Learnt r (readLines k r.code c r.lines).1 ↔ Learnt r c := by
  obtain ⟨⟨b, text⟩, lines, all⟩ : ∃ line lines, r.lines = line :: lines :=
    List.exists_cons_of_ne_nil (List.append_ne_nil_of_right_ne_nil _ (List.cons_ne_nil _ _))
  have waits : successCode (c.begun r.code b).state = some 250 := congrArg successCode hello
  have refused := replied_refused (k := k) waits no text
  rw [all, readLines_refused refused]
  exact ⟨fun h => ⟨h.pipeline, h.startTLS, h.methods⟩, fun h => ⟨h.pipeline, h.startTLS, h.methods⟩⟩

/-- After which answers to `EHLO` the client knows exactly what they say. A refused one says it in vain. -/
theorem hello_learnt_iff (k : Codec) (before : Option UInt8) {c : SmtpClient} (hello : c.state = .hello)
    (zero : c.codeLength = 0) (r : Reply) (size : r.bytes.length < 2 ^ 32) :
    (∃ d n, smtpParse k before c r.bytes = .ok (d, n) ∧ Learnt r d) ↔
      strtol r.code = 250 ∧ Unmistaken c r ∨ strtol r.code ≠ 250 ∧ Learnt r c := by
  rw [parsed_learnt_iff before zero]
  by_cases ok : strtol r.code = 250
  · have short : ∀ text ∈ r.texts, text.length < 2 ^ 32 := fun text mem => (length_le_bytes mem).trans_lt size
    obtain ⟨d, read, told⟩ := told_lines (k := k) ok hello
      (fun text mem => short text (List.mem_append_left _ mem))
      (short r.last (List.mem_append_right _ List.mem_cons_self))
    have all : readLines k r.code c r.lines = (d, true) := read
    rw [all, Told.learnt_iff told, and_iff_right ok, or_iff_left fun h => h.1 ok]
  · rw [readLines_not_learnt hello ok, and_iff_right ok, or_iff_right fun h => ok h.1]

theorem hello_learnt_pipelining :
    ({ state := .hello } : SmtpClient).state = .hello ∧ ({ state := .hello } : SmtpClient).codeLength = 0 ∧
    (twoLines #v[50, 53, 48] "AUTH PLAIN LOGIN" "PIPELINING" (by decide)).bytes.length < 2 ^ 32 ∧
    ∃ d n, smtpParse default none { state := .hello }
        (twoLines #v[50, 53, 48] "AUTH PLAIN LOGIN" "PIPELINING" (by decide)).bytes = .ok (d, n) ∧
      Learnt (twoLines #v[50, 53, 48] "AUTH PLAIN LOGIN" "PIPELINING" (by decide)) d := by
  have short : (twoLines #v[50, 53, 48] "AUTH PLAIN LOGIN" "PIPELINING" (by decide)).bytes.length < 2 ^ 32 := by decide
  refine ⟨rfl, rfl, short, (hello_learnt_iff default none rfl rfl _ short).mpr (.inl ⟨by decide, ?_⟩)⟩
  have spaced : WString.SingleSpaced (authText (bytes "AUTH PLAIN LOGIN")) := by decide +kernel
  exact ⟨.inl (by decide), .inr ⟨rfl, by decide⟩, spaced⟩

def emptyAnswer : Reply := (twoLines (#v[50, 53].push 48) "" "" (by decide)).single

/-- The empty line sets the option. -/
theorem empty_line_pipelines :
    ¬ (∀ (k : Codec) (before : Option UInt8) (c : SmtpClient) (r : Reply), c.state = .hello → c.codeLength = 0 →
      r.bytes.length < 2 ^ 32 → ∃ d n, smtpParse k before c r.bytes = .ok (d, n) ∧ Learnt r d) := by
  intro all
  have learnt := (parsed_learnt_iff none rfl emptyAnswer).mp
    (all default none { state := .hello } emptyAnswer rfl rfl (by decide))
  exact absurd (learnt.pipeline.mp (by decide)) (by decide)

end SmtpClient

end Sming.Network
