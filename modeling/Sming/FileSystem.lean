import Sming.Lib.FirstOccurrence
import Sming.Lib.Run

/-!
# Files

Embedding of `fileSetContent` and `fileGetContent` (`Sming/SmingCore/FileSystem.cpp`) and of the operations of an open
`FileStream` (`Sming/SmingCore/Data/Stream/FileStream.cpp`). SPIFFS keeps the bytes it is given: a file is a list of
bytes under a name, and reads and writes happen at the cursor. Names and contents that go through a C string end at
their first NUL.

A `FileStream` caches the size of the file and the position of the cursor. `write` moves the position, but the size
stays what it was when the file was opened.
-/

namespace Sming
open Lib List

/-! ### Whole files -/

abbrev Files := List UInt8 → Option (List UInt8)

namespace Files

/-- The text that `c_str()` gives to a reader of C strings. -/
def cString (s : List UInt8) : List UInt8 := before 0 s

variable (fs : Files)

def put (name : List UInt8) (file : Option (List UInt8)) : Files :=
  fun n => if n = name then file else fs n

/-- The name of an existing file is reported; an empty one is taken for none. -/
def fileExist (name : List UInt8) : Bool := (fs name).isSome && name != []

/-- Open with `eFO_CreateNewAlways`: an existing file is deleted, and the flag `eFO_Truncate` taken away
(C++ `fileOpen`). -/
def fileOpenNew (name : List UInt8) : Files :=
  let fs := if fs.fileExist name then fs.put name none else fs
  if (fs name).isSome then fs else fs.put name (some [])

def write (name data : List UInt8) : Files :=
  fs.put name ((fs name).map fun old => data ++ old.drop data.length)

def fileSetContent (fileName content : List UInt8) : Files :=
  (fs.fileOpenNew (cString fileName)).write (cString fileName) (cString content)

def fileGetContent (fileName : List UInt8) : List UInt8 := (fs (cString fileName)).getD []

/-- The answer and what is stored in a buffer of `bufSize` bytes (C++ `fileGetContent` with a buffer). -/
def fileGetContentBuffer (fileName : List UInt8) (bufSize : Nat) : Nat × List UInt8 :=
  let file := fs.fileGetContent fileName
  if bufSize = 0 then (0, [])
  else if file.length = 0 ∨ bufSize ≤ file.length then (0, [0])
  else (file.length, file ++ [0])

def RoundTrip (fileName content : List UInt8) : Prop :=
  (fs.fileSetContent fileName content).fileGetContent fileName = content ∧
    ∀ bufSize, content.length < bufSize →
      (fs.fileSetContent fileName content).fileGetContentBuffer fileName bufSize = (content.length, content ++ [0])

def kept (fileName : List UInt8) : List UInt8 :=
  if cString fileName = [] then (fs []).getD [] else []

lemma fileOpenNew_self (fileName : List UInt8) :
    fs.fileOpenNew (cString fileName) (cString fileName) = some (fs.kept fileName) := by
  rw [fileOpenNew, fileExist, kept]
  by_cases empty : cString fileName = []
  · rw [empty]
    cases old : fs [] with
    | none => simp [put, old]
    | some file => simp [old]
  · cases old : fs (cString fileName) with
    | none => simp [put, old, empty]
    | some file => simp [put, empty]

lemma fileGetContent_set (fileName content : List UInt8) :
    (fs.fileSetContent fileName content).fileGetContent fileName =
      cString content ++ (fs.kept fileName).drop (cString content).length := by
  rw [fileGetContent, fileSetContent, write, put, if_pos rfl, fileOpenNew_self]
  rfl

/-- A content comes back exactly if it has no NUL or, for the empty name, the old file goes on from there as it does.
-/
theorem roundTrip_iff_kept (fs : Files) (fileName content : List UInt8) :
    RoundTrip fs fileName content ↔
      if cString fileName = [] then
        ((fs []).getD []).drop (cString content).length = content.drop (cString content).length
      else 0 ∉ content := by
  have cut : cString content ++ content.drop (cString content).length = content :=
    prefix_iff_eq_append.mp (before_isPrefix 0 content)
  have back : (fs.fileSetContent fileName content).fileGetContent fileName = content ↔
      (fs.kept fileName).drop (cString content).length = content.drop (cString content).length := by
    rw [fileGetContent_set]
    constructor
    · exact fun same => append_cancel_left (same.trans cut.symm)
    · intro same
      rw [same, cut]
  have buffer (same : (fs.fileSetContent fileName content).fileGetContent fileName = content) (bufSize : Nat)
      (fits : content.length < bufSize) :
      (fs.fileSetContent fileName content).fileGetContentBuffer fileName bufSize =
        (content.length, content ++ [0]) := by
    rw [fileGetContentBuffer, same, if_neg (by omega)]
    split
    case isTrue none =>
      obtain rfl := List.length_eq_zero_iff.mp (none.resolve_right (by omega))
      rfl
    case isFalse => rfl
  have whole : RoundTrip fs fileName content ↔
      (fs.kept fileName).drop (cString content).length = content.drop (cString content).length := by
    rw [← back]
    exact ⟨fun h => h.1, fun same => ⟨same, buffer same⟩⟩
  rw [whole, kept]
  split
  case isTrue => rfl
  case isFalse =>
    rw [drop_nil, eq_comm, drop_eq_nil_iff, ← before_eq_self_iff]
    constructor
    · exact fun long => (before_isPrefix 0 content).eq_of_length_le long
    · exact fun same => Nat.le_of_eq (congrArg List.length same).symm

/-- A content with a NUL is cut there. -/
theorem roundTrip_nul : ¬ ∀ fs fileName content, RoundTrip fs fileName content := by
  intro all
  exact absurd (all (fun _ => none) [97] [1, 0, 2]).1 (by decide)

end Files

/-! ### Streams -/

/-- What `SPIFFS_lseek` does in a file of a given length: the position it reaches, which is its answer, or `none` where
it refuses to move. -/
structure Lseek where
  land : Nat → Int → Option Nat
  inside {len p : Nat} (le : p ≤ len) : land len p = some p
  le_length {len p : Nat} {target : Int} (landed : land len target = some p) : p ≤ len

/-- An open file with its cursor, and what the stream keeps of it. -/
structure FileStream where
  file : List UInt8 := []
  cursor : Nat := 0
  pos : Nat := 0
  size : Nat := 0
  deriving DecidableEq

namespace FileStream

/-- The operations; a write is told how many bytes SPIFFS takes, or `none` for an error. -/
inductive Operation where
  | write (buffer : List UInt8) (taken : Option Nat)
  | readMemoryBlock (bufSize : Nat)
  | seek (len : Int)

def write (s : FileStream) (buffer : List UInt8) (taken : Option Nat) : FileStream :=
  let data := (taken.map buffer.take).getD []
  { s with
    file := s.file ++ data
    cursor := s.file.length + data.length
    pos := s.file.length + data.length }

def readMemoryBlock (k : Lseek) (s : FileStream) (bufSize : Nat) : List UInt8 × FileStream :=
  if bufSize = 0 ∨ s.size ≤ s.pos then ([], s)
  else
    let data := (s.file.drop s.cursor).take (min (s.size - s.pos) bufSize)
    (data, { s with cursor := (k.land s.file.length s.pos).getD (s.cursor + data.length) })

def seek (k : Lseek) (s : FileStream) (len : Int) : FileStream :=
  match k.land s.file.length (s.cursor + len) with
  | none => s
  | some p => { s with cursor := p, pos := p }

def available (s : FileStream) : Int := s.size - s.pos

def step (k : Lseek) (s : FileStream) : Operation → Option FileStream
  | .write buffer taken => some (s.write buffer taken)
  | .readMemoryBlock bufSize => some (s.readMemoryBlock k bufSize).2
  | .seek len => some (s.seek k len)

/-- The stream knows its file. -/
structure Agrees (s : FileStream) : Prop where
  size : s.size = s.file.length
  pos : s.pos = s.cursor
  le : s.pos ≤ s.size

/-- A write that adds nothing to the file, or another operation. -/
def Idle (_ : FileStream) : Operation → Prop
  | .write buffer taken => (taken.map buffer.take).getD [] = []
  | _ => True

variable {k : Lseek} {s t : FileStream}

lemma Agrees.readMemoryBlock (h : s.Agrees) (bufSize : Nat) :
    (s.readMemoryBlock k bufSize).2 = s ∧ (s.readMemoryBlock k bufSize).1 = (s.file.drop s.cursor).take bufSize := by
  obtain ⟨size, pos, le⟩ := h
  rw [FileStream.readMemoryBlock]
  split
  case isTrue none =>
    refine ⟨rfl, ?_⟩
    rcases none with zero | done
    · rw [zero, take_zero]
    · rw [drop_eq_nil_of_le (by omega), take_nil]
  case isFalse =>
    simp only [k.inside (size ▸ le), Option.getD_some]
    refine ⟨congrArg (fun p => { s with cursor := p }) pos, ?_⟩
    rw [← take_take, take_of_length_le]
    rw [length_take, length_drop]
    omega

lemma agrees_step {e : Operation} (h : s.Agrees) (st : step k s e = some t) : t.Agrees ↔ Idle s e := by
  obtain ⟨size, pos, le⟩ := h
  cases e with
  | write buffer taken =>
    cases st
    rw [Idle, write]
    generalize (taken.map buffer.take).getD [] = data
    constructor
    · rintro ⟨size', -, -⟩
      simp only [List.length_append] at size'
      exact List.length_eq_zero_iff.mp (by omega)
    · rintro rfl
      exact ⟨by simp [size], rfl, by simp [size]⟩
  | readMemoryBlock bufSize =>
    cases st
    rw [(Agrees.readMemoryBlock ⟨size, pos, le⟩ bufSize).1]
    exact ⟨fun _ => trivial, fun _ => ⟨size, pos, le⟩⟩
  | seek len =>
    cases st
    refine ⟨fun _ => trivial, fun _ => ?_⟩
    rw [seek]
    split
    case h_1 => exact ⟨size, pos, le⟩
    case h_2 p landed => exact ⟨size, rfl, size ▸ k.le_length landed⟩

/-- A run from an open stream knows its file after every operation exactly if no write has added anything; then
`available()` counts the unread bytes, and a read gives them. -/
theorem fileStream_agrees_iff {es : List Operation} (opened : s.Agrees) (run : Run (step k) Always s es t) :
    ((∀ es' t', es' <+: es → Run (step k) Always s es' t' → t'.Agrees) ↔ Run (step k) Idle s es t) ∧
      (t.Agrees → t.available = (t.file.drop t.cursor).length ∧
        ∀ bufSize, (t.readMemoryBlock k bufSize).1 = (t.file.drop t.cursor).take bufSize) := by
  constructor
  · apply run.forall_prefix_iff_guarded opened
    intro es t e u guarded _ st
    have h : t.Agrees := guarded.invariant opened fun h idle st => (agrees_step h st).mpr idle
    exact agrees_step h st
  · intro h
    refine ⟨?_, fun bufSize => (h.readMemoryBlock bufSize).2⟩
    obtain ⟨size, pos, le⟩ := h
    rw [available, length_drop]
    omega

/-- Positions outside of the file are refused. -/
def refusing : Lseek where
  land len target := if 0 ≤ target ∧ target ≤ len then some target.toNat else none
  inside le := by simp [le]
  le_length landed := by
    split at landed
    · cases landed
      omega
    · cases landed

theorem fileStream_agrees_iff_seek : Run (step refusing) Always { file := [1, 2, 3], size := 3 } ([] ++ [.seek 1])
      { file := [1, 2, 3], cursor := 1, pos := 1, size := 3 } ∧
    ({ file := [1, 2, 3], cursor := 1, pos := 1, size := 3 } : FileStream).available = 2 := by
  have run : Run (step refusing) Always { file := [1, 2, 3], size := 3 } ([] ++ [.seek 1])
      { file := [1, 2, 3], cursor := 1, pos := 1, size := 3 } := .snoc .nil trivial rfl
  exact ⟨run, ((fileStream_agrees_iff ⟨rfl, rfl, Nat.zero_le _⟩ run).2 ⟨rfl, rfl, by decide⟩).1⟩

/-- One byte is written to an empty file: the size is still 0, and the position is behind it. -/
theorem write_not_agrees : ¬ ∀ (k : Lseek) s es t, Agrees s → Run (step k) Always s es t → t.Agrees := by
  intro all
  have size := (all refusing {} ([] ++ [.write [1] (some 1)]) _ ⟨rfl, rfl, Nat.le_refl _⟩ (.snoc .nil trivial rfl)).size
  cases size

end FileStream
end Sming
