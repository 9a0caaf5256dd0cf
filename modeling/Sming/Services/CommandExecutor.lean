import Sming.Lib.Run
import Sming.Network.Http.HttpRequest

/-!
# The command executor

Model of `Services/CommandProcessing/CommandExecutor.cpp` with the parts of `CommandHandler.cpp` it uses. The executor
collects printable characters in `commandBuf` and passes the line on at the end of line. `commandBuf` is not set by the
constructors and not cleared at the end of a line: only the next printable character or an escape writes the terminator
at the front.

The functions of the commands are of an arbitrary type `φ`; `call` says what one of them does to the command handler
and prints. `CommandTwin` runs the executor beside `LineReader`, which says what the lines are.
-/

namespace Sming.Services

open Sming.Lib Sming.Wiring Option Function
open Sming.Network.Http (bytes)

/-! ### The command handler -/

inductive VerboseMode where
  | verbose
  | silent
  deriving DecidableEq, Repr

/-- A command. The function is `none` for a delegate made with `NULL`. -/
structure CommandDelegate (φ : Type) where
  commandName : List UInt8
  commandFunction : Option φ
  deriving DecidableEq

structure CommandHandler (φ : Type) where
  registeredCommands : HashMap (List UInt8) (CommandDelegate φ) := {}
  verboseMode : VerboseMode := .verbose
  currentPrompt : List UInt8 := bytes "Sming>"
  currentEOL : UInt8 := 13
  deriving DecidableEq

variable {φ : Type}

namespace CommandHandler

def getCommandDelegate (h : CommandHandler φ) (commandString : List UInt8) : CommandDelegate φ :=
  h.registeredCommands.value commandString ⟨[], none⟩

/-- Does not replace a command. -/
def registerCommand (h : CommandHandler φ) (reqDelegate : CommandDelegate φ) : CommandHandler φ × Bool :=
  if h.registeredCommands.contains reqDelegate.commandName then (h, false)
  else ({ h with registeredCommands := h.registeredCommands.set reqDelegate.commandName reqDelegate }, true)

def unregisterCommand (h : CommandHandler φ) (reqDelegate : CommandDelegate φ) : CommandHandler φ × Bool :=
  if h.registeredCommands.contains reqDelegate.commandName then
    ({ h with registeredCommands := h.registeredCommands.remove reqDelegate.commandName }, true)
  else (h, false)

end CommandHandler

/-! ### The executor -/

/-- What is printed: a text as it is, or a text that is read as a format. -/
inductive CommandPrint where
  | print (text : List UInt8)
  | printf (format : List UInt8)
  deriving DecidableEq, Repr

def maxCommandSize : Nat := 64

def isprint (c : UInt8) : Bool := 32 ≤ c && c ≤ 126

/-- An executor with the global command handler, what it has printed and the lines it has passed to
`processCommandLine`. `padding` is the byte between `commandBuf` and the aligned `commandIndex`. -/
structure CommandExecutor (φ : Type) where
  commandBuf : List UInt8
  padding : UInt8
  commandIndex : Nat := 0
  commandHandler : CommandHandler φ
  commandOutput : List CommandPrint := []
  lines : List (List UInt8) := []
  deriving DecidableEq

/-- What a command function does with its line: the handler it leaves and what it prints. -/
abbrev CommandCall (φ : Type) : Type :=
  φ → List UInt8 → CommandHandler φ → CommandHandler φ × List CommandPrint

namespace CommandExecutor

variable (x : CommandExecutor φ)

def print (texts : List CommandPrint) : CommandExecutor φ :=
  { x with commandOutput := x.commandOutput ++ texts }

def setIndex (i : Nat) : CommandExecutor φ := { x with commandIndex := i }

def setByte (i : Nat) (c : UInt8) : CommandExecutor φ :=
  { x with commandBuf := x.commandBuf.set i c }

/-- `commandBuf[i] = c`; `none` is a store outside of the array. -/
def store (i : Nat) (c : UInt8) : Option (CommandExecutor φ) :=
  if i < x.commandBuf.length then some (x.setByte i c) else none

/-- `String(commandBuf)`: the bytes up to the first NUL of the array and of the members behind it. -/
def line : List UInt8 :=
  let behind := [x.padding, UInt8.ofNat (x.commandIndex % 256), UInt8.ofNat (x.commandIndex / 256)]
  (x.commandBuf ++ behind).takeWhile (· != 0)

def processCommandLine (call : CommandCall φ) (x : CommandExecutor φ) (cmdString : List UInt8) :
    CommandExecutor φ :=
  let cmdCommand := cmdString.takeWhile (· != 32)
  let x := { x with lines := x.lines ++ [cmdString] }
  let x := match (x.commandHandler.getCommandDelegate cmdCommand).commandFunction with
    | none =>
      x.print [.print (bytes "Command not found, cmd = '"), .print cmdCommand, .print (bytes "'\r\n")]
    | some f =>
      { x with
        commandHandler := (call f cmdString x.commandHandler).1
        commandOutput := x.commandOutput ++ (call f cmdString x.commandHandler).2 }
  if x.commandHandler.verboseMode = .verbose then x.print [.printf x.commandHandler.currentPrompt] else x

/-- The escape branch of `executorReceive`. -/
def deleteLine : Option (CommandExecutor φ) :=
  ((x.setIndex 0).store 0 0).map fun x =>
    if x.commandHandler.verboseMode = .verbose then
      x.print [.print (bytes "\r\n"), .print x.commandHandler.currentPrompt]
    else x

/-- The end of line branch. -/
def endLine (call : CommandCall φ) (x : CommandExecutor φ) : CommandExecutor φ :=
  (x.processCommandLine call x.line).setIndex 0

/-- The last branch. -/
def addChar (recvChar : UInt8) : Option (CommandExecutor φ) :=
  if x.commandIndex < maxCommandSize ∧ isprint recvChar then
    (x.store x.commandIndex recvChar).bind fun x =>
      (x.setIndex (x.commandIndex + 1)).store (x.commandIndex + 1) 0
  else some x

def executorReceive (call : CommandCall φ) (x : CommandExecutor φ) (recvChar : UInt8) :
    Option (CommandExecutor φ × Int) := (if recvChar = 27 then x.deleteLine
    else if recvChar = x.commandHandler.currentEOL then some (x.endLine call)
    else x.addChar recvChar).map (·, 0)

/-- The two overloads for several characters; a nonzero answer would stop them. -/
def executorReceiveAll (call : CommandCall φ) (x : CommandExecutor φ) (receiveReturn : Int) :
    List UInt8 → Option (CommandExecutor φ × Int)
  | [] => some (x, receiveReturn)
  | c :: recvData => (x.executorReceive call c).bind fun r =>
    if r.2 ≠ 0 then some r else r.1.executorReceiveAll call r.2 recvData

variable {call : CommandCall φ} {x y : CommandExecutor φ} {current : List UInt8} {c : UInt8}

lemma store_inside {i : Nat} (inside : i < x.commandBuf.length) : x.store i c = some (x.setByte i c) :=
  if_pos inside

lemma processCommandLine_spec (cmdString : List UInt8) :
    (x.processCommandLine call cmdString).commandBuf = x.commandBuf ∧
      (x.processCommandLine call cmdString).lines = x.lines ++ [cmdString] := by
  simp only [processCommandLine]
  split <;> split <;> exact ⟨rfl, rfl⟩

structure Edits (x : CommandExecutor φ) (current : List UInt8) : Prop where
  size : x.commandBuf.length = maxCommandSize + 1
  index : x.commandIndex = min current.length maxCommandSize
  text : x.commandBuf.take x.commandIndex = current.take maxCommandSize
  ends : x.commandIndex ≠ 0 → x.commandBuf[x.commandIndex]? = some 0
  printable : ∀ c ∈ current, isprint c = true

lemma Edits.first (size : x.commandBuf.length = maxCommandSize + 1) (index : x.commandIndex = 0) :
    Edits x [] where
  size := size
  index := index
  text := by rw [index]; rfl
  ends := fun h => absurd index h
  printable := fun _ mem => absurd mem List.not_mem_nil

lemma Edits.deleteLine (e : Edits x current) : ∃ y, x.deleteLine = some y ∧ Edits y [] ∧ y.lines = x.lines := by
  have size := e.size
  have front : 0 < (x.setIndex 0).commandBuf.length := by
    rw [setIndex, size]
    exact Nat.succ_pos _
  rw [CommandExecutor.deleteLine, store_inside front, map_some]
  refine ⟨_, rfl, ?_⟩
  have cleared : ((x.setIndex 0).setByte 0 0).commandBuf.length = maxCommandSize + 1 :=
    List.length_set.trans size
  split <;> exact ⟨.first cleared rfl, rfl⟩

lemma Edits.endLine (e : Edits x current) : Edits (x.endLine call) [] := by
  apply Edits.first _ rfl
  rw [CommandExecutor.endLine, setIndex, (processCommandLine_spec x.line).1]
  exact e.size

lemma Edits.addChar (e : Edits x current) (print : isprint c = true) :
    ∃ y, x.addChar c = some y ∧ Edits y (current ++ [c]) ∧ y.lines = x.lines := by
  have size := e.size
  have index := e.index
  have printable : ∀ d ∈ current ++ [c], isprint d = true := by
    intro d mem
    rcases List.mem_append.mp mem with mem | mem
    · exact e.printable d mem
    · rwa [List.mem_singleton.mp mem]
  rw [CommandExecutor.addChar]
  split
  case isTrue room =>
    have short : x.commandIndex = current.length := by omega
    have second : x.commandIndex + 1 < (x.commandBuf.set x.commandIndex c).length := by
      rw [List.length_set]
      omega
    rw [store_inside (show x.commandIndex < x.commandBuf.length by omega), bind_some, store_inside second]
    refine ⟨_, rfl, ⟨?_, ?_, ?_, ?_, printable⟩, rfl⟩
    · exact List.length_set.trans (List.length_set.trans size)
    · simp only [setByte, setIndex, List.length_append, List.length_singleton]
      omega
    · simp only [setByte, setIndex]
      rw [List.take_set_of_le (Nat.le_refl _), List.take_add_one, List.take_set_of_le (Nat.le_refl _), e.text,
        List.getElem?_set_self (by omega), List.take_of_length_le (by omega), List.take_of_length_le (by
          rw [List.length_append, List.length_singleton]; omega)]
      rfl
    · intro _
      exact List.getElem?_set_self second
  case isFalse full =>
    have long : maxCommandSize ≤ current.length := by
      by_contra short
      exact full ⟨by omega, print⟩
    refine ⟨x, rfl, ⟨size, ?_, ?_, e.ends, printable⟩, rfl⟩
    · rw [List.length_append]
      omega
    · rw [e.text, List.take_append_of_le_length long]

lemma ne_zero_of_isprint (h : isprint c = true) : (c != 0) = true := by
  rw [bne_iff_ne]
  rintro rfl
  exact absurd h (by decide)

lemma Edits.line_eq (e : Edits x current) (typed : x.commandIndex ≠ 0) : x.line = current.take maxCommandSize := by
  obtain ⟨inside, ends⟩ := List.getElem?_eq_some_iff.mp (e.ends typed)
  have front : x.commandBuf = current.take maxCommandSize ++ 0 :: x.commandBuf.drop (x.commandIndex + 1) := by
    rw [← e.text, ← ends, ← List.drop_eq_getElem_cons inside, List.take_append_drop]
  rw [line, front, List.append_assoc, List.takeWhile_append_of_pos]
  · rw [List.cons_append, List.takeWhile_cons_of_neg (by decide), List.append_nil]
  · intro c mem
    exact ne_zero_of_isprint (e.printable c (List.mem_of_mem_take mem))

lemma Edits.line_eq_nil_iff (e : Edits x current) : x.line = [] ↔ x.commandBuf.head? = some 0 := by
  obtain ⟨c, rest, buf⟩ := List.exists_cons_of_length_eq_add_one e.size
  rw [line, buf, List.cons_append, List.head?_cons, some_inj]
  by_cases zero : c = 0
  · rw [List.takeWhile_cons_of_neg (by rw [zero]; decide)]
    exact iff_of_true rfl zero
  · rw [List.takeWhile_cons_of_pos (by rwa [bne_iff_ne])]
    exact iff_of_false (List.cons_ne_nil _ _) zero

lemma Edits.current_eq_nil (e : Edits x current) (first : x.commandIndex = 0) : current = [] := by
  have index := e.index
  rw [maxCommandSize] at index
  rw [← List.length_eq_zero_iff]
  omega

lemma Edits.line_iff (e : Edits x current) : x.line = current.take maxCommandSize ↔
    (x.commandIndex = 0 → x.commandBuf.head? = some 0) := by
  by_cases first : x.commandIndex = 0
  · rw [e.current_eq_nil first, List.take_nil, e.line_eq_nil_iff]
    exact ⟨fun h _ => h, fun h => h first⟩
  · exact iff_of_true (e.line_eq first) fun h => absurd h first

end CommandExecutor

/-! ### The lines of the input -/

/-- The printable characters since the last end of line or escape, and the lines that have ended. -/
structure LineReader where
  current : List UInt8 := []
  lines : List (List UInt8) := []
  deriving DecidableEq, Repr

def LineReader.receive (l : LineReader) (eol c : UInt8) : LineReader :=
  if c = 27 then { l with current := [] }
  else if c = eol then { current := [], lines := l.lines ++ [l.current.take maxCommandSize] }
  else if isprint c then { l with current := l.current ++ [c] }
  else l

/-- A character is received, or the application changes the command handler. -/
inductive CommandEvent (φ : Type) where
  | receive (recvChar : UInt8)
  | handler (commandHandler : CommandHandler φ)

/-- The executor and the reader of the same characters. -/
structure CommandTwin (φ : Type) where
  executor : CommandExecutor φ
  reader : LineReader := {}
  deriving DecidableEq

namespace CommandTwin

def start (commandBuf : Vector UInt8 (maxCommandSize + 1)) (padding : UInt8) (handler : CommandHandler φ) :
    CommandTwin φ where
  executor := { commandBuf := commandBuf.toList, padding := padding, commandHandler := handler }

def step (call : CommandCall φ) (t : CommandTwin φ) : CommandEvent φ → Option (CommandTwin φ)
  | .receive c => (t.executor.executorReceive call c).map fun r =>
    { executor := r.1, reader := t.reader.receive t.executor.commandHandler.currentEOL c }
  | .handler h => some { t with executor := { t.executor with commandHandler := h } }

/-- An end of line that comes before any printable character finds a terminator at the front of `commandBuf`. -/
def Cleared (t : CommandTwin φ) : CommandEvent φ → Prop
  | .receive c => c ≠ 27 → c = t.executor.commandHandler.currentEOL → t.executor.commandIndex = 0 →
    t.executor.commandBuf.head? = some 0
  | .handler _ => True

instance (t : CommandTwin φ) : (e : CommandEvent φ) → Decidable (t.Cleared e)
  | .receive c => inferInstanceAs (Decidable (c ≠ 27 → c = t.executor.commandHandler.currentEOL →
    t.executor.commandIndex = 0 → t.executor.commandBuf.head? = some 0))
  | .handler _ => .isTrue trivial

variable {call : CommandCall φ} {t u : CommandTwin φ}

def SameLines (t : CommandTwin φ) : Prop := t.executor.lines = t.reader.lines

instance (t : CommandTwin φ) : Decidable t.SameLines := inferInstanceAs (Decidable (_ = _))

def Inv (t : CommandTwin φ) : Prop := t.executor.Edits t.reader.current

lemma Inv.receive (inv : t.Inv) (c : UInt8) : ∃ u, step call t (.receive c) = some u ∧ u.Inv ∧
    (t.SameLines → (u.SameLines ↔ t.Cleared (.receive c))) := by
  rw [step, CommandExecutor.executorReceive, Option.map_map]
  by_cases escape : c = 27
  · obtain ⟨y, y_eq, edits, lines⟩ := inv.deleteLine
    rw [if_pos escape, y_eq]
    refine ⟨_, rfl, ?_, fun same => ?_⟩
    · simpa only [Inv, comp, LineReader.receive, if_pos escape] using edits
    · refine iff_of_true ?_ fun h => absurd escape h
      simpa only [SameLines, comp, LineReader.receive, if_pos escape, lines] using same
  by_cases eol : c = t.executor.commandHandler.currentEOL
  · rw [if_neg escape, if_pos eol]
    refine ⟨_, rfl, ?_, fun same => ?_⟩
    · simpa only [Inv, comp, LineReader.receive, if_neg escape, if_pos eol] using inv.endLine
    · have ended : (t.executor.endLine call).lines = t.executor.lines ++ [t.executor.line] :=
        (CommandExecutor.processCommandLine_spec _).2
      simp only [SameLines, comp, LineReader.receive, if_neg escape, if_pos eol, ended]
      rw [show t.executor.lines = t.reader.lines from same, List.append_cancel_left_eq, List.singleton_inj,
        inv.line_iff]
      exact ⟨fun h _ _ => h, fun h => h escape eol⟩
  rw [if_neg escape, if_neg eol]
  have cleared : t.Cleared (.receive c) := fun _ h => absurd h eol
  by_cases print : isprint c = true
  · obtain ⟨y, y_eq, edits, lines⟩ := inv.addChar print
    rw [y_eq]
    refine ⟨_, rfl, ?_, fun same => iff_of_true ?_ cleared⟩
    · simpa only [Inv, comp, LineReader.receive, if_neg escape, if_neg eol, if_pos print] using edits
    · simpa only [SameLines, comp, LineReader.receive, if_neg escape, if_neg eol, if_pos print, lines]
        using same
  · rw [CommandExecutor.addChar, if_neg fun h => print h.2]
    refine ⟨_, rfl, ?_, fun same => iff_of_true ?_ cleared⟩
    · simpa only [Inv, comp, LineReader.receive, if_neg escape, if_neg eol, if_neg print] using inv
    · simpa only [SameLines, comp, LineReader.receive, if_neg escape, if_neg eol, if_neg print]
        using same

lemma Inv.next (inv : t.Inv) (e : CommandEvent φ) : ∃ u, step call t e = some u ∧ u.Inv ∧
    (t.SameLines → (u.SameLines ↔ t.Cleared e)) := by
  cases e with
  | receive c => exact inv.receive c
  | handler h =>
    have inv' : Inv { t with executor := { t.executor with commandHandler := h } } :=
      ⟨inv.size, inv.index, inv.text, inv.ends, inv.printable⟩
    exact ⟨_, rfl, inv', fun same => iff_of_true same trivial⟩

lemma Inv.after (inv : t.Inv) {e : CommandEvent φ} (st : step call t e = some u) :
    u.Inv ∧ (t.SameLines → (u.SameLines ↔ t.Cleared e)) := by
  obtain ⟨v, st', h⟩ := inv.next e
  rw [st] at st'
  cases st'
  exact h

/-- No character is ever stored outside `commandBuf`, and the lines passed to `processCommandLine` are those of the
input exactly if every end of line found the buffer cleared or filled. -/
theorem executorReceive_lines_iff (call : CommandCall φ) (commandBuf : Vector UInt8 (maxCommandSize + 1))
    (padding : UInt8) (handler : CommandHandler φ) {es : List (CommandEvent φ)}
    (r : Run (step call) Always (start commandBuf padding handler) es t) :
    (∀ e, (step call t e).isSome) ∧ ((∀ es' t', es' <+: es →
        Run (step call) Always (start commandBuf padding handler) es' t' → t'.SameLines) ↔
      Run (step call) Cleared (start commandBuf padding handler) es t) := by
  have init : (start commandBuf padding handler).Inv := .first commandBuf.length_toList rfl
  constructor
  · intro e
    have inv : t.Inv := r.invariant init fun inv _ st => (inv.after st).1
    obtain ⟨u, st, -⟩ := @Inv.next _ call _ inv e
    exact isSome_of_eq_some st
  · have same : (start commandBuf padding handler).SameLines := rfl
    apply r.forall_prefix_iff_guarded same
    intro es t e u r _ st
    have both : t.Inv ∧ t.SameLines := by
      refine @Run.invariant _ _ _ _ (fun t => t.Inv ∧ t.SameLines) _ _ _ r ⟨init, same⟩ ?_
      intro t e u h cleared st
      obtain ⟨inv, same⟩ := h.1.after st
      exact ⟨inv, (same h.2).mpr cleared⟩
    exact (both.1.after st).2 both.2

lemma executorReceive_total {x : CommandExecutor φ} {current : List UInt8} (e : x.Edits current) (c : UInt8) :
    ∃ y current', x.executorReceive call c = some (y, 0) ∧ y.Edits current' := by
  obtain ⟨u, st, inv, -⟩ := @Inv.receive _ call { executor := x, reader := { current := current } } e c
  obtain ⟨r, received, rfl⟩ := map_eq_some_iff.mp st
  obtain ⟨y, -, rfl⟩ := map_eq_some_iff.mp received
  exact ⟨y, _, received, inv⟩

lemma executorReceiveAll_snoc {x y z : CommandExecutor φ} {recvData : List UInt8} {c : UInt8}
    (before : x.executorReceiveAll call 0 recvData = some (y, 0)) (last : y.executorReceive call c = some (z, 0)) :
    x.executorReceiveAll call 0 (recvData ++ [c]) = some (z, 0) := by
  induction recvData generalizing x with
  | nil =>
    cases before
    rw [List.nil_append, CommandExecutor.executorReceiveAll, last]
    rfl
  | cons d recvData ih =>
    rw [List.cons_append]
    rw [CommandExecutor.executorReceiveAll] at before ⊢
    obtain ⟨r, received, more⟩ := bind_eq_some_iff.mp before
    obtain ⟨w, -, rfl⟩ := map_eq_some_iff.mp received
    rw [received, bind_some]
    exact ih more

theorem executorReceive_lines_iff_escape : ∃ t : CommandTwin Unit,
    Run (step fun _ _ h => (h, [])) Cleared (start (Vector.replicate _ 0) 0 {})
      [.receive 104, .receive 105, .receive 13, .receive 120, .receive 27, .receive 13] t ∧
    t.executor.lines = [[104, 105], []] ∧
    ∀ es' (t' : CommandTwin Unit),
      es' <+: [.receive 104, .receive 105, .receive 13, .receive 120, .receive 27, .receive 13] →
      Run (step fun _ _ h => (h, [])) Always (start (Vector.replicate _ 0) 0 {}) es' t' → t'.SameLines :=
  exists_run (fun t => t.executor.lines = [[104, 105], []]) (by decide)
    fun _ run lines => ⟨lines, (executorReceive_lines_iff _ _ _ _ run.always).2.mpr run⟩

/-- An empty line executes the command before it once more. -/
theorem executorReceive_repeats_line :
    ¬ ∀ (φ : Type) (call : CommandCall φ) commandBuf padding handler es t,
    Run (step call) Always (start commandBuf padding handler) es t → t.SameLines := by
  intro all
  exact not_forall_run [.receive 97, .receive 13, .receive 13] (by decide)
    (all Unit (fun _ _ h => (h, [])) (Vector.replicate _ 0) 0 {})

end CommandTwin

end Sming.Services
