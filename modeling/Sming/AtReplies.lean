import Sming.AtClient

/-!
# Replies to AT commands

A reply of a device may have several lines, and it is a success if one of them holds `OK` or the alternative response
of the command. `processor` looks at the text up to the first end of line only, and it takes every such text for a
success if the command has no alternative response, since the empty text is found in it.
-/

namespace Sming.AtClient
open Sming.Lib Sming.Wiring List String

/-- What `processor` makes of a reply. -/
inductive Verdict where
  | accepted
  | again
  | failed
  | passedOver
  deriving DecidableEq, Repr

/-- The reply as `processor` sees it: the end of a line is a NUL, and a text ends there. -/
def firstText (reply : List Char) : List Char := reply.takeWhile fun x => x != '\r' && x != '\n' && x != '\x00'

def verdict (c : AtClient) (reply : List Char) : Verdict :=
  if refused (ofList (firstText reply)) c.currentCommand.response2 then
    if c.currentCommand.retries - 1 > 0 then .again
    else if c.currentCommand.breakOnError then .failed
    else .passedOver
  else .accepted

structure Waiting (c : AtClient) : Prop where
  text : c.currentCommand.text ≠ ""
  state : c.state ≠ .error
  onReceive : c.currentCommand.onReceive = false
  onComplete : c.currentCommand.onComplete = false

variable {c : AtClient}

lemma processor_eq (waiting : c.Waiting) (reply : List Char) : c.processor '\n' reply =
    match c.verdict reply with
    | .accepted => next { c with timer := false }
    | .again =>
      let c := refuse { c with timer := false }
      c.sendDirect c.currentCommand .retry
    | .failed => { refuse { c with timer := false } with state := .error }
    | .passedOver => next (refuse { c with timer := false }) := by
  obtain ⟨text, state, onReceive, onComplete⟩ := waiting
  have done : ∀ c : AtClient, c.currentCommand.onComplete = false → c.complete = c.next := by
    intro c none
    rw [complete, if_neg (by simp [none])]
  rw [processor, if_neg text, if_neg state, if_neg (by simp [onReceive]), if_neg (by simp), verdict]
  by_cases bad : refused (ofList (firstText reply)) c.currentCommand.response2 = true
  · rw [if_pos bad]
    refine (if_pos bad).trans ?_
    by_cases more : c.currentCommand.retries - 1 > 0
    · rw [if_pos more]
      exact if_pos more
    · rw [if_neg more]
      refine (if_neg more).trans ?_
      by_cases stop : c.currentCommand.breakOnError = true
      · rw [if_pos stop]
        exact if_pos stop
      · rw [if_neg stop]
        exact (if_neg stop).trans (done _ onComplete)
  · rw [if_neg bad]
    exact (if_neg bad).trans (done _ onComplete)

def Succeeds (c : AtClient) (reply : List Char) : Prop :=
  c.verdict reply = .accepted ∧ c.processor '\n' reply = next { c with timer := false }

def lines (reply : List Char) : List (List Char) := reply.splitOnP fun x => x == '\r' || x == '\n'

/-- A line is a success for the command. -/
def Good (c : AtClient) (line : List Char) : Prop :=
  "OK".toList <:+: line ∨ c.currentCommand.response2 ≠ "" ∧ c.currentCommand.response2.toList <:+: line

/-- The text up to the first CR, LF or NUL decides as the whole reply should: it is good; or no line is, and there is
an alternative response or the text is empty; or there is none, and a text taken for a success comes with a line that
is good. -/
inductive FirstLineDecides (c : AtClient) (reply : List Char) : Prop where
  | good (first : c.Good (firstText reply))
  | bad (none : ∀ line ∈ lines reply, ¬ c.Good line)
    (seen : c.currentCommand.response2 ≠ "" ∨ firstText reply = [])
  | lucky (absent : c.currentCommand.response2 = "") (some : firstText reply ≠ [])
    (later : ∃ line ∈ lines reply, c.Good line)

/-! ## The first text -/

lemma exists_line (reply : List Char) : ∃ line ∈ lines reply, firstText reply <+: line := by
  have first : ∃ line rest, lines reply = line :: rest ∧ firstText reply <+: line := by
    induction reply with
    | nil => exact ⟨[], [], rfl, nil_prefix⟩
    | cons x reply ih =>
      obtain ⟨line, rest, eq, start⟩ := ih
      rw [lines] at eq ⊢
      rw [splitOnP_cons_eq_if_modifyHead, eq]
      by_cases stop : x = '\r' ∨ x = '\n'
      · rw [if_pos (by simpa using stop), firstText, takeWhile_cons_of_neg (by rcases stop with rfl | rfl <;> decide)]
        exact ⟨[], _, rfl, nil_prefix⟩
      · rw [if_neg (by simpa using stop)]
        refine ⟨x :: line, rest, rfl, ?_⟩
        rw [firstText, takeWhile_cons]
        split
        · exact cons_prefix_cons.mpr ⟨rfl, start⟩
        · exact nil_prefix
  obtain ⟨line, rest, eq, start⟩ := first
  exact ⟨line, eq ▸ mem_cons_self, start⟩

lemma Good.of_prefix {text line : List Char} (good : c.Good text) (start : text <+: line) : c.Good line :=
  good.imp (fun ok => ok.trans start.isInfix) fun other => ⟨other.1, other.2.trans start.isInfix⟩

lemma not_refused_iff {text : List Char} :
    ¬ refused (ofList text) c.currentCommand.response2 = true ↔
      c.Good text ∨ c.currentCommand.response2 = "" ∧ text ≠ [] := by
  have full : ofList text ≠ "" ↔ text ≠ [] := by
    rw [Ne, ← toList_inj, toList_ofList]
    rfl
  have found : ∀ t : String, ¬ (WString.indexOfText (ofList text) t).isNone = true ↔
      text ≠ [] ∧ t.toList <:+: text := by
    intro t
    rw [Bool.not_eq_true, Option.isNone_eq_false_iff, WString.isSome_indexOfText, full, toList_ofList]
  have part : ∀ t : String, t ≠ "" → t.toList <:+: text → text ≠ [] := by
    rintro t given inner rfl
    exact given (toList_inj.mp (infix_nil.mp inner))
  rw [refused, Bool.and_eq_true, not_and_or, found, found]
  constructor
  · rintro (⟨-, ok⟩ | ⟨some, other⟩)
    · exact .inl (.inl ok)
    · by_cases absent : c.currentCommand.response2 = ""
      · exact .inr ⟨absent, some⟩
      · exact .inl (.inr ⟨absent, other⟩)
  · rintro ((ok | ⟨given, other⟩) | ⟨absent, some⟩)
    · exact .inl ⟨part "OK" (by decide) ok, ok⟩
    · exact .inr ⟨part _ given other, other⟩
    · rw [absent]
      exact .inr ⟨some, nil_infix⟩

lemma succeeds_iff (waiting : c.Waiting) (reply : List Char) : c.Succeeds reply ↔
    c.Good (firstText reply) ∨ c.currentCommand.response2 = "" ∧ firstText reply ≠ [] := by
  rw [← not_refused_iff, Succeeds, processor_eq waiting, verdict]
  constructor
  · rintro ⟨accepted, -⟩ bad
    rw [if_pos bad] at accepted
    split_ifs at accepted
  · intro good
    rw [if_neg good]
    exact ⟨rfl, rfl⟩

/-- A reply that ends with the end of a line makes a command without callbacks succeed if and only if some line is
good, exactly if its first text decides. -/
theorem succeeds_iff_good_line {c : AtClient} (waiting : c.Waiting) (front : List Char) :
    (c.Succeeds (front ++ ['\n']) ↔ ∃ line ∈ lines (front ++ ['\n']), c.Good line) ↔
      c.FirstLineDecides (front ++ ['\n']) := by
  generalize front ++ ['\n'] = reply
  rw [succeeds_iff waiting]
  obtain ⟨line, mem, start⟩ := exists_line reply
  constructor
  · intro iff
    by_cases later : ∃ line ∈ lines reply, c.Good line
    · obtain first | ⟨absent, some⟩ := iff.mpr later
      · exact .good first
      · exact .lucky absent some later
    · refine .bad (fun line mem good => later ⟨line, mem, good⟩) ?_
      have not := mt iff.mp later
      by_cases given : c.currentCommand.response2 = ""
      · exact .inr (not_not.mp fun some => not (.inr ⟨given, some⟩))
      · exact .inl given
  · intro decides
    cases decides with
    | good first => exact iff_of_true (.inl first) ⟨line, mem, first.of_prefix start⟩
    | bad none seen =>
      refine iff_of_false ?_ fun ⟨line, mem, good⟩ => none line mem good
      rintro (first | ⟨absent, some⟩)
      · exact none line mem (first.of_prefix start)
      · exact seen.elim (fun given => given absent) some
    | lucky absent some later => exact iff_of_true (.inr ⟨absent, some⟩) later

def sent : AtClient := AtClient.new.send (track { text := "AT" } 0)

lemma waiting_sent : sent.Waiting := ⟨by decide, by decide, rfl, rfl⟩

theorem succeeds_iff_good_line_ok : sent.Succeeds ("OK\r".toList ++ ['\n']) ↔
    ∃ line ∈ lines ("OK\r".toList ++ ['\n']), sent.Good line :=
  (succeeds_iff_good_line waiting_sent "OK\r".toList).mpr (.good (.inl (by decide)))

/-- An error is a success for a command without an alternative response. -/
theorem error_succeeds : ¬ ∀ (c : AtClient), c.Waiting → ∀ front : List Char,
    (c.Succeeds (front ++ ['\n']) ↔ ∃ line ∈ lines (front ++ ['\n']), c.Good line) := by
  intro all
  have iff := all sent waiting_sent "ERROR".toList
  have success : sent.Succeeds ("ERROR".toList ++ ['\n']) :=
    (succeeds_iff waiting_sent _).mpr (.inr ⟨rfl, by decide⟩)
  obtain ⟨line, mem, good⟩ := iff.mp success
  have whole : lines ("ERROR".toList ++ ['\n']) = ["ERROR".toList, []] := by decide
  have bad : ∀ line ∈ ["ERROR".toList, []], ¬ "OK".toList <:+: line := by decide
  rw [whole] at mem
  exact good.elim (bad line mem) fun other => other.1 rfl

end Sming.AtClient
