import Sming.Network.SmtpBounds

/-!
# Replies in several buffers

The parser keeps the bytes of a code between two calls, but the start of a line is a local pointer: a call that
begins inside of a line takes its buffer for the whole text, and looks at the byte before it. So what the client does
depends on where the bytes of the server are cut: cuts behind complete lines and inside of a code make no difference
(`smtpParse_segments`), a cut inside of a text may.

Every buffer comes with the byte that happens to lie before it.
-/

namespace Sming.Network
open Sming.Network.Http SmtpParser List

namespace SmtpClient

variable {k : Codec} {c c' : SmtpClient}

def feed (k : Codec) (c : SmtpClient) : List (UInt8 × List UInt8) → Except Fault SmtpClient
  | [] => .ok c
  | (before, buf) :: bufs => (smtpParse k before c buf).bind fun r => feed k r.1 bufs

lemma feed_cons {before : UInt8} {buf : List UInt8} {r : SmtpClient × Nat}
    (parsed : smtpParse k before c buf = .ok r) (bufs : List (UInt8 × List UInt8)) :
    feed k c ((before, buf) :: bufs) = feed k r.1 bufs := by
  rw [feed, parsed]
  rfl

def joined (bufs : List (UInt8 × List UInt8)) : List UInt8 := (bufs.map Prod.snd).flatten

lemma joined_cons (before : UInt8) (buf : List UInt8) (bufs : List (UInt8 × List UInt8)) :
    joined ((before, buf) :: bufs) = buf ++ joined bufs := rfl

structure Agree (c d : SmtpClient) : Prop where
  state : c.state = d.state
  codeValue : c.codeValue = d.codeValue
  optPipeline : c.optPipeline = d.optPipeline
  optStartTLS : c.optStartTLS = d.optStartTLS
  authMethods : c.authMethods = d.authMethods
  authChallenge : c.authChallenge = d.authChallenge
  commands : c.commands = d.commands

lemma Agree.refl (c : SmtpClient) : Agree c c where
  state := rfl
  codeValue := rfl
  optPipeline := rfl
  optStartTLS := rfl
  authMethods := rfl
  authChallenge := rfl
  commands := rfl

/-- The buffers lead where their bytes lead at once. -/
def Unaffected (k : Codec) (c : SmtpClient) (bufs : List (UInt8 × List UInt8)) : Prop :=
  ∃ d r, feed k c bufs = .ok d ∧ smtpParse k none c (joined bufs) = .ok r ∧ Agree d r.1

/-- Every buffer that something follows ends behind complete lines or inside of a code. -/
inductive Clean (k : Codec) : SmtpClient → List (UInt8 × List UInt8) → Prop where
  | nil (c : SmtpClient) : Clean k c []
  | last {c : SmtpClient} {before : UInt8} {buf : List UInt8} {bufs : List (UInt8 × List UInt8)} :
    joined bufs = [] →
    Clean k c ((before, buf) :: bufs)
  | cons {c c' : SmtpClient} {before : UInt8} {buf : List UInt8} {bufs : List (UInt8 × List UInt8)} :
    Accepts k c buf c' →
    Clean k c' bufs →
    Clean k c ((before, buf) :: bufs)

variable {bufs : List (UInt8 × List UInt8)}

lemma feed_nothing (nothing : joined bufs = []) : feed k c bufs = .ok c := by
  induction bufs with
  | nil => rfl
  | cons buf bufs ih =>
    obtain ⟨before, buf⟩ := buf
    obtain ⟨rfl, rest⟩ := append_eq_nil_iff.1 nothing
    exact ih rest

/-- A call that begins at most inside of a code does not look at the byte before its buffer. -/
lemma smtpParse_before (few : c.codeLength ≤ 3) (before : Option UInt8) (buf : List UInt8) :
    smtpParse k before c buf = smtpParse k none c buf := by
  obtain ⟨r, h⟩ := parses_total k few buf
  rw [h.smtpParse before, h.smtpParse none]

lemma Clean.feed (h : Clean k c bufs) (few : c.codeLength ≤ 3)
    {r : SmtpClient × Nat} (ok : smtpParse k none c (joined bufs) = .ok r) : feed k c bufs = .ok r.1 := by
  induction h generalizing r with
  | nil c =>
    obtain rfl := Except.ok.inj ok
    rfl
  | @last c before buf bufs nothing =>
    rw [joined_cons, nothing, append_nil] at ok
    rw [feed_cons ((smtpParse_before few _ _).trans ok)]
    exact feed_nothing nothing
  | @cons c c' before buf bufs accepted rest ih =>
    have few' := accepted.codeLength_le few
    obtain ⟨out, next⟩ := parses_total k few' (joined bufs)
    have whole := (accepted.parses next).smtpParse none
    rw [joined_cons, whole] at ok
    obtain ⟨x, rfl, eq⟩ := map_eq_ok ok
    have first : r.1 = x.1 := congrArg Prod.fst eq.symm
    rw [feed_cons (accepted.smtpParse _), first]
    exact ih few' (next.smtpParse none)

/-- Buffers that are cut cleanly lead where their bytes lead at once. -/
theorem smtpParse_segments {k : Codec} {c : SmtpClient} {bufs : List (UInt8 × List UInt8)} (clean : Clean k c bufs)
    (within : Within k c (joined bufs)) : Unaffected k c bufs := by
  obtain ⟨r, ok⟩ := (smtpParse_ok_iff within.1 _).2 within
  exact ⟨r.1, r, clean.feed within.1 ok, ok, .refl r.1⟩

theorem smtpParse_segments_code :
    Clean default {} [(0, bytes "220 ready\r\n25"), (0, bytes "0 ok\r\n")] ∧
    Unaffected default {} [(0, bytes "220 ready\r\n25"), (0, bytes "0 ok\r\n")] := by
  have line : Accepts default ((({} : SmtpClient).collect 50).collect 50 |>.collect 48)
      (space :: (bytes "ready" ++ cr :: lf :: bytes "25")) _ :=
    .line rfl (.inl rfl) (by decide) rfl (.digit (by decide) (.digit (by decide) (.nil _)))
  have clean : Clean default {} [(0, bytes "220 ready\r\n25"), (0, bytes "0 ok\r\n")] :=
    .cons (.digit (by decide) (.digit (by decide) (.digit (by decide) line))) (.last rfl)
  have few : ({} : SmtpClient).codeLength ≤ 3 := by decide
  exact ⟨clean, smtpParse_segments clean ((smtpParse_ok_iff few _).1 ⟨_, rfl⟩)⟩

/-- A first byte that is no line feed is not compared with the byte before the buffer. -/
lemma advanceUntilEol_first (b : UInt8) {x : UInt8} (ne : x ≠ lf) (rest : List UInt8) (fuel n : Nat) :
    advanceUntilEol (some b) (x :: rest) (fuel + 1) ⟨0, n + 2⟩ =
      advanceUntilEol (some b) (x :: rest) fuel ⟨1, n + 1⟩ := by
  have prev : SmtpParser.byteBefore (some b) (x :: rest) 0 = .ok b := rfl
  rw [advanceUntilEol_succ prev rfl, if_neg fun h => ne h.2]
  rfl

/-- The client behind the first half of a line of the answer to `EHLO`. -/
def halfway : SmtpClient :=
  (((({ state := .hello } : SmtpClient).collect 50).collect 53).collect 48).separate minus

lemma smtpParse_halfway (b : UInt8) :
    smtpParse default (some b) halfway (bytes "LINING\r\n") = .ok ({ halfway with codeLength := 0 }.heard, 8) := by
  have found : advanceUntilEol (some b) (bytes "LINING\r\n") ((bytes "LINING\r\n").length + 2) ⟨0, 8⟩ = .ok ⟨8, 0⟩ :=
    advanceUntilEol_first b (x := 76) (by decide) (bytes "INING\r\n") 9 6
  show (parseLine default (some b) (bytes "LINING\r\n") halfway ⟨0, 8⟩).bind _ = _
  rw [parseLine, found]
  rfl

/-- A cut inside of a line of the answer to `EHLO`: whatever lies before the second buffer, the option is lost. -/
theorem smtpParse_cut_line :
    ¬ ∃ b : UInt8, Unaffected default { state := .hello }
      [(b, bytes "250-PIPE"), (b, bytes "LINING\r\n"), (b, bytes "250 ok\r\n")] := by
  rintro ⟨b, d, r, fed, whole, agree⟩
  have parsed : Parses default { state := .hello } (bytes "250-PIPE") (.ok (halfway, true)) :=
    .digit (by decide) (.digit (by decide) (.digit (by decide) (.noEnd rfl (.inr rfl) (by decide) (by decide))))
  have first : smtpParse default (some b) { state := .hello } (bytes "250-PIPE") = .ok (halfway, 8) :=
    parsed.smtpParse (some b)
  obtain ⟨ended, last, option⟩ : ∃ x, smtpParse default (some b) { halfway with codeLength := 0 }.heard
      (bytes "250 ok\r\n") = .ok x ∧ x.1.optPipeline = false :=
    ⟨_, (smtpParse_before (by decide) _ _).trans rfl, rfl⟩
  rw [feed_cons first, feed_cons (smtpParse_halfway b), feed_cons last] at fed
  have lost : d.optPipeline = false := by
    cases fed
    exact option
  have kept : r.1.optPipeline = true := by
    have parsed : smtpParse default none { state := .hello } (bytes "250-PIPELINING\r\n250 ok\r\n") = .ok r := whole
    cases parsed
    rfl
  have same := agree.optPipeline
  rw [lost, kept] at same
  cases same

end SmtpClient

end Sming.Network
