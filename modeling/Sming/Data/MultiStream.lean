import Sming.Data.DataSourceStream

/-!
# Streams of streams

Embedding of `Sming/SmingCore/Data/Stream/MultiStream.{h,cpp}`: a stream that delivers one stream after
another. A subclass says where the streams come from. `advance` is what a read does before it passes the
call on to the current stream; `Advance` lists its outcomes.
-/

namespace Sming.Data
open List Option

/-- The fields of the base class, and in `own` those of the subclass. -/
structure MultiStream (X σ : Type) where
  stream : Option X := none
  nextStream : Option X := none
  finished : Bool := false
  own : σ

class MultiStream.Subclass (X σ : Type) where
  getNextStream : σ → Option X × σ
  /-- The stream to read when there is no next one; `none` is the answer `false`. -/
  onCompleted : σ → Option X × σ
  /-- What becomes of a next stream: the values of `stream` and `nextStream`. -/
  onNextStream : X → σ → X × Option X × σ

namespace MultiStream

variable {X σ : Type} [IDataSourceStream X]

def seek (m : MultiStream X σ) (len : Int) : MultiStream X σ × Bool :=
  match m.stream with
  | none => (m, false)
  | some x =>
    let r := IDataSourceStream.seek x len
    ({ m with stream := some r.1 }, r.2)

def isFinished (m : MultiStream X σ) : Bool := m.finished && m.stream.all IDataSourceStream.isFinished

def Exhausted (m : MultiStream X σ) : Prop := ∀ x ∈ m.stream, IDataSourceStream.isFinished x = true

lemma isFinished_iff {m : MultiStream X σ} : m.isFinished = true ↔ m.finished = true ∧ m.Exhausted := by
  rw [isFinished, Bool.and_eq_true, Option.all_eq_true]
  rfl

def current (rest : X → List UInt8) (m : MultiStream X σ) : List UInt8 := m.stream.elim [] rest

def remaining (rest : X → List UInt8) (later : σ → List UInt8) (m : MultiStream X σ) : List UInt8 :=
  m.current rest ++ (m.nextStream.elim [] rest ++ later m.own)

/-- The current stream is sound, and it begins with the bytes `held` that were read from it and that may
be passed over. -/
structure Holds (WF : X → Prop) (rest : X → List UInt8) (shown : X → Nat) (m : MultiStream X σ)
    (held : List UInt8) : Prop where
  wf : ∀ x ∈ m.stream, WF x
  held_isPrefix : held <+: m.current rest
  length_le : ∀ x ∈ m.stream, held.length ≤ shown x

variable {WF : X → Prop} {rest : X → List UInt8} {shown : X → Nat} {m : MultiStream X σ}

section
variable (src : IDataSourceStream.Stepwise X WF rest shown)
include src

lemma current_of_exhausted (wf : ∀ x ∈ m.stream, WF x) (done : m.Exhausted) : m.current rest = [] := by
  unfold current
  cases h : m.stream with
  | none => rfl
  | some x => exact (src.finished (wf x h)).mp (done x h)

lemma exhausted_of_current (wf : ∀ x ∈ m.stream, WF x) (done : m.current rest = []) : m.Exhausted := by
  intro x mem
  rw [current, mem_def.mp mem] at done
  exact (src.finished (wf x mem)).mpr done

lemma Holds.seek {held : List UInt8} (h : m.Holds WF rest shown held) {k : Nat} (le : k ≤ held.length) :
    (m.seek k).1.Holds WF rest shown (held.drop k) ∧
      held.take k ++ (m.seek k).1.current rest = m.current rest ∧
      (m.seek k).1 = { m with stream := (m.seek k).1.stream } := by
  obtain ⟨wf, ⟨behind, split⟩, fits⟩ := h
  unfold MultiStream.seek
  cases hs : m.stream with
  | none =>
    rw [current, hs] at split
    obtain ⟨rfl, rfl⟩ := append_eq_nil_iff.mp split
    rw [drop_nil, take_nil]
    exact ⟨⟨wf, nil_prefix, fun x _ => Nat.zero_le _⟩, rfl, rfl⟩
  | some x =>
    obtain ⟨wf', rest', shown'⟩ := src.seek (wf x hs) k (Nat.le_trans le (fits x hs))
    have split : held ++ behind = rest x := by rw [split, current, hs, elim_some]
    have dropped : rest (IDataSourceStream.seek x k).1 = held.drop k ++ behind := by
      rw [rest', ← split, drop_append_of_le_length le]
    refine ⟨⟨?_, ?_, ?_⟩, ?_, rfl⟩
    · rintro _ ⟨⟩
      exact wf'
    · exact ⟨behind, dropped.symm⟩
    · rintro _ ⟨⟩
      have := fits x hs
      rw [length_drop]
      omega
    · change held.take k ++ rest (IDataSourceStream.seek x k).1 = m.stream.elim [] rest
      rw [dropped, ← List.append_assoc, take_append_drop, split, hs, elim_some]

lemma Holds.seek_remaining {held : List UInt8}
    (h : m.Holds WF rest shown held) {k : Nat} (le : k ≤ held.length) (later : σ → List UInt8) :
    held.take k ++ (m.seek k).1.remaining rest later = m.remaining rest later := by
  obtain ⟨-, passed, others⟩ := h.seek src le
  rw [remaining, remaining, ← passed, ← List.append_assoc, others]

end

variable [Subclass X σ]

def advance (m : MultiStream X σ) : MultiStream X σ :=
  let m := if m.stream.any IDataSourceStream.isFinished then { m with stream := none } else m
  let m :=
    if m.stream.isNone ∧ m.nextStream.isSome then { m with stream := m.nextStream, nextStream := none }
    else m
  if m.stream.isNone then
    let r := Subclass.getNextStream (X := X) m.own
    match r.1 with
    | none =>
      let c := Subclass.onCompleted (X := X) r.2
      { stream := c.1, nextStream := none, finished := true, own := c.2 }
    | some next =>
      let c := Subclass.onNextStream next r.2
      { m with stream := some c.1, nextStream := c.2.1, own := c.2.2 }
  else m

def readMemoryBlock (m : MultiStream X σ) (bufSize : Nat) : List UInt8 × MultiStream X σ :=
  let m := m.advance
  match m.stream with
  | none => ([], m)
  | some x =>
    let r := IDataSourceStream.readMemoryBlock x bufSize
    (IDataSourceStream.counted r.1, { m with stream := some r.2 })

inductive Advance (m : MultiStream X σ) : MultiStream X σ → Prop where
  | current {x} :
    m.stream = some x →
    IDataSourceStream.isFinished x = false →
    Advance m m
  | next {x} :
    m.Exhausted →
    m.nextStream = some x →
    Advance m { m with stream := some x, nextStream := none }
  | fetched {x own} :
    m.Exhausted →
    m.nextStream = none →
    Subclass.getNextStream m.own = (some x, own) →
    Advance m { m with
      stream := some (Subclass.onNextStream x own).1
      nextStream := (Subclass.onNextStream x own).2.1
      own := (Subclass.onNextStream x own).2.2 }
  | completed {own} :
    m.Exhausted →
    m.nextStream = none →
    Subclass.getNextStream (X := X) m.own = (none, own) →
    Advance m
      { stream := (Subclass.onCompleted own).1
        nextStream := none
        finished := true
        own := (Subclass.onCompleted (X := X) own).2 }

lemma advance_of_exhausted (done : m.Exhausted) : Advance m m.advance := by
  have dropped : (if m.stream.any IDataSourceStream.isFinished then { m with stream := none } else m) =
      { m with stream := none } := by
    cases h : m.stream with
    | none =>
      rw [any_none, if_neg Bool.false_ne_true, ← h]
    | some x => rw [any_some, if_pos (done x h)]
  simp only [advance, dropped, isNone_none, true_and]
  cases hn : m.nextStream with
  | some y => exact .next done hn
  | none =>
    simp only [isSome_none, Bool.false_eq_true, if_false, isNone_none, if_true]
    cases hg : Subclass.getNextStream (X := X) m.own with
    | mk next own =>
      cases next with
      | none => exact .completed done hn hg
      | some x => exact .fetched done hn hg

lemma advance_spec (m : MultiStream X σ) : Advance m m.advance := by
  by_cases done : m.Exhausted
  · exact advance_of_exhausted done
  · obtain ⟨x, hs, unfinished⟩ : ∃ x, m.stream = some x ∧ IDataSourceStream.isFinished x = false := by
      simpa [Exhausted] using done
    have same : m.advance = m := by simp [advance, hs, unfinished]
    rw [same]
    exact .current hs unfinished

lemma readMemoryBlock_none (h : m.advance.stream = none) (bufSize : Nat) :
    m.readMemoryBlock bufSize = ([], m.advance) := by
  simp only [readMemoryBlock, h]

lemma readMemoryBlock_some {x : X} (h : m.advance.stream = some x) (bufSize : Nat) :
    m.readMemoryBlock bufSize = (IDataSourceStream.counted (IDataSourceStream.readMemoryBlock x bufSize).1,
        { m.advance with stream := some (IDataSourceStream.readMemoryBlock x bufSize).2 }) := by
  simp only [readMemoryBlock, h]

section
variable (src : IDataSourceStream.Stepwise X WF rest shown) (wf : ∀ x ∈ m.advance.stream, WF x) (bufSize : Nat)
include src wf

lemma readMemoryBlock_spec :
    (m.readMemoryBlock bufSize).2.Holds WF rest shown (m.readMemoryBlock bufSize).1 ∧
      (m.readMemoryBlock bufSize).2.current rest = m.advance.current rest ∧ (m.readMemoryBlock bufSize).2 =
        { m.advance with stream := (m.readMemoryBlock bufSize).2.stream } := by
  cases hs : m.advance.stream with
  | none =>
    rw [readMemoryBlock_none hs]
    exact ⟨⟨wf, nil_prefix, fun x _ => Nat.zero_le _⟩, rfl, rfl⟩
  | some x =>
    obtain ⟨seen, wf', rest', fits⟩ := src.read (wf x hs) bufSize
    have counted := IDataSourceStream.counted_isPrefix (IDataSourceStream.readMemoryBlock x bufSize).1
    rw [readMemoryBlock_some hs]
    refine ⟨⟨?_, ?_, ?_⟩, ?_, rfl⟩
    · rintro _ ⟨⟩
      exact wf'
    · change _ <+: rest _
      rw [rest']
      exact counted.trans seen
    · rintro _ ⟨⟩
      exact Nat.le_trans counted.length_le fits
    · rw [current, current, hs]
      exact rest'

lemma readMemoryBlock_remaining (later : σ → List UInt8) :
    (m.readMemoryBlock bufSize).2.remaining rest later = m.advance.remaining rest later := by
  obtain ⟨-, same, others⟩ := readMemoryBlock_spec src wf bufSize
  rw [remaining, remaining, same, others]

end

end MultiStream

end Sming.Data
