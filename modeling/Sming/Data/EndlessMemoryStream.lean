import Sming.Data.DataSourceStream
import Sming.Lib.Run

/-!
# The endless memory stream

Embedding of `Sming/SmingCore/Data/Stream/EndlessMemoryStream.cpp`: a memory stream that is made by the
first write and deleted when a `seek` has moved its cursor to the end. `Traffic` adds what the two sides
know: all bytes that writes accepted, all bytes that were consumed, and of the last read those that
were not consumed yet.

A write to the inner stream rewinds its cursor. So bytes that were consumed come back if the write finds
the inner stream partly consumed, and only then.
-/

namespace Sming.Data
open Sming.Lib List Option MemoryDataStream.WF

structure EndlessMemoryStream where
  stream : Option MemoryDataStream := none
  deriving DecidableEq

namespace EndlessMemoryStream

variable (s : EndlessMemoryStream)

def readMemoryBlock (bufSize : Nat) : List UInt8 :=
  match s.stream with
  | none => []
  | some m => IDataSourceStream.counted (m.readMemoryBlock bufSize)

def seek (len : Int) : EndlessMemoryStream × Bool :=
  match s.stream with
  | none => (s, false)
  | some m =>
    let r := m.seek len
    ({ stream := if r.1.isFinished then none else some r.1 }, r.2)

/-- A write outside of the block has no defined outcome. -/
def write (data : List UInt8) (alloc : Bool) : Option (EndlessMemoryStream × Nat) :=
  ((s.stream.getD {}).write data alloc).map fun r => ({ stream := some r.1 }, r.2)

def unread : List UInt8 := (s.stream.getD {}).unread

def WF : Prop := (s.stream.getD {}).WF

end EndlessMemoryStream

structure Traffic where
  stream : EndlessMemoryStream := {}
  written : List UInt8 := []
  consumed : List UInt8 := []
  /-- The bytes of the last read that were not consumed. -/
  held : List UInt8 := []
  /-- A write went outside of its block. -/
  corrupt : Bool := false
  deriving DecidableEq

namespace Traffic

/-- What the two sides do; `alloc` says whether the heap has the memory a write asks for. -/
inductive Event where
  | write (data : List UInt8) (alloc : Bool)
  | readMemoryBlock (bufSize : Nat)
  | seek (len : Nat)
  deriving DecidableEq

def step (t : Traffic) : Event → Option Traffic
  | .write data alloc =>
    match t.stream.write data alloc with
    | none => some { t with corrupt := true }
    | some r => some { t with stream := r.1, written := t.written ++ data.take r.2 }
  | .readMemoryBlock bufSize => some { t with held := t.stream.readMemoryBlock bufSize }
  | .seek len =>
    if len ≤ t.held.length then
      some { t with
        stream := (t.stream.seek len).1
        consumed := t.consumed ++ t.held.take len
        held := t.held.drop len }
    else none

/-- Every byte accepted was consumed once or is still to be delivered, in the order of the writes. -/
def InOrder (t : Traffic) : Prop := t.corrupt = false ∧ t.consumed ++ t.stream.unread = t.written

/-- A write finds nothing consumed and a block as large as it takes it to be; one that the heap refuses does no harm.
-/
def Untouched (t : Traffic) : Event → Prop
  | .write data alloc =>
    let m := t.stream.stream.getD {}
    if m.Grows data then alloc = false ∨ m.pos = 0 else m.pos = 0 ∧ m.Reaches data
  | _ => True

instance (t : Traffic) (e : Event) : Decidable (t.Untouched e) := by
  cases e <;> unfold Untouched <;> infer_instance

structure Inv (t : Traffic) : Prop where
  wf : t.stream.WF
  order : t.InOrder
  held : t.held <+: t.stream.unread

variable {t u : Traffic} {e : Event}

lemma init_inv : Inv {} where
  wf := new
  order := ⟨rfl, rfl⟩
  held := prefix_rfl

lemma readMemoryBlock_isPrefix (wf : t.stream.WF) (bufSize : Nat) :
    t.stream.readMemoryBlock bufSize <+: t.stream.unread := by
  unfold EndlessMemoryStream.readMemoryBlock EndlessMemoryStream.unread
  cases h : t.stream.stream with
  | none => exact nil_prefix
  | some m =>
    rw [EndlessMemoryStream.WF, h, getD_some] at wf
    have shown : m.readMemoryBlock bufSize <+: m.unread := by
      rw [wf.readMemoryBlock_eq]
      exact take_prefix _ _
    exact (IDataSourceStream.counted_isPrefix _).trans shown

lemma seek_spec (wf : t.stream.WF) {len : Nat} (le : len ≤ t.stream.unread.length) :
    (t.stream.seek len).1.WF ∧ (t.stream.seek len).1.unread = t.stream.unread.drop len := by
  unfold EndlessMemoryStream.WF EndlessMemoryStream.unread EndlessMemoryStream.seek at *
  cases h : t.stream.stream with
  | none =>
    rw [h] at le
    have zero : len = 0 := Nat.le_zero.mp le
    rw [h, zero]
    exact ⟨new, rfl⟩
  | some m =>
    rw [h, getD_some] at wf le
    obtain ⟨wf', rest⟩ := wf.seek le
    simp only [getD_some]
    split
    case isTrue done =>
      refine ⟨new, ?_⟩
      rw [← rest, wf'.isFinished_iff.mp done]
      rfl
    case isFalse => exact ⟨wf', rest⟩

lemma order_of_stored {m : MemoryDataStream} (wf : m.WF) {consumed written : List UInt8}
    (data : List UInt8) (order : consumed ++ m.unread = written) :
    consumed ++ ((m.buf.getD []).take m.size ++ data) = written ++ data ↔ m.pos = 0 := by
  rw [← List.append_assoc, List.append_left_inj, ← order, List.append_right_inj]
  constructor
  · intro same
    have len := congrArg List.length same
    rw [wf.length_unread, length_take, Nat.min_eq_left wf.size_le] at len
    have cursor := wf.cursor
    omega
  · intro zero
    exact (MemoryDataStream.unread_of_pos_eq_zero zero).symm

lemma Inv.stored (inv : Inv t) {data : List UInt8} {alloc : Bool}
    (h : (t.stream.stream.getD {}).Grows data ∧ alloc = true ∨
      ¬ (t.stream.stream.getD {}).Grows data ∧ (t.stream.stream.getD {}).Reaches data)
    (st : step t (.write data alloc) = some u) :
    (u.InOrder ↔ (t.stream.stream.getD {}).pos = 0) ∧ (u.InOrder → Inv u) := by
  obtain ⟨m, stored, wf, content⟩ := write_accepted inv.wf h
  simp only [step, EndlessMemoryStream.write, stored, map_some, take_length] at st
  cases st
  have order : InOrder { t with stream := { stream := some m }, written := t.written ++ data } ↔
      (t.stream.stream.getD {}).pos = 0 := by
    have stored_iff := order_of_stored inv.wf data inv.order.2
    rw [← stored_iff, ← content]
    exact and_iff_right inv.order.1
  refine ⟨order, fun kept => ⟨wf, kept, ?_⟩⟩
  have more : t.stream.unread <+: m.unread := by
    rw [content, ← MemoryDataStream.unread_of_pos_eq_zero (order.mp kept)]
    exact prefix_append _ _
  exact inv.held.trans more

lemma Inv.write (inv : Inv t) {data : List UInt8} {alloc : Bool} (st : step t (.write data alloc) = some u) :
    (u.InOrder ↔ t.Untouched (.write data alloc)) ∧ (u.InOrder → Inv u) := by
  by_cases grows : (t.stream.stream.getD {}).Grows data
  · simp only [Untouched, grows, if_true]
    cases alloc with
    | false =>
      obtain ⟨m, refused, wf, content⟩ := write_refused inv.wf grows
      simp only [step, EndlessMemoryStream.write, refused, map_some, take_zero, append_nil] at st
      cases st
      have kept : Inv { t with stream := { stream := some m } } := by
        refine ⟨wf, ⟨inv.order.1, ?_⟩, ?_⟩
        · exact (congrArg (t.consumed ++ ·) content).trans inv.order.2
        · change t.held <+: m.unread
          rw [content]
          exact inv.held
      exact ⟨iff_of_true kept.order (.inl rfl), fun _ => kept⟩
    | true =>
      obtain ⟨order, kept⟩ := inv.stored (.inl ⟨grows, rfl⟩) st
      exact ⟨by simpa using order, kept⟩
  · simp only [Untouched, grows, if_false]
    by_cases reaches : (t.stream.stream.getD {}).Reaches data
    · obtain ⟨order, kept⟩ := inv.stored (.inr ⟨grows, reaches⟩) st
      exact ⟨by simpa [reaches] using order, kept⟩
    · -- the write went outside of the block
      simp only [step, EndlessMemoryStream.write, MemoryDataStream.write_outside grows reaches, map_none] at st
      cases st
      have bad : ¬ InOrder { t with corrupt := true } := fun order => nomatch order.1
      exact ⟨iff_of_false bad fun both => reaches both.2, fun order => absurd order bad⟩

lemma Inv.step (inv : Inv t) (st : Traffic.step t e = some u) :
    (u.InOrder ↔ t.Untouched e) ∧ (u.InOrder → Inv u) := by
  cases e with
  | write data alloc => exact inv.write st
  | readMemoryBlock bufSize =>
    cases st
    refine ⟨iff_of_true inv.order trivial, fun _ => ⟨inv.wf, inv.order, ?_⟩⟩
    exact readMemoryBlock_isPrefix inv.wf bufSize
  | seek len =>
    simp only [Traffic.step] at st
    split at st
    case isFalse => cases st
    case isTrue le =>
      cases st
      obtain ⟨wf, rest⟩ := seek_spec inv.wf (Nat.le_trans le inv.held.length_le)
      obtain ⟨behind, unread⟩ := inv.held
      have dropped : t.stream.unread.drop len = t.held.drop len ++ behind := by
        rw [← unread, drop_append_of_le_length le]
      have kept : InOrder { t with
          stream := (t.stream.seek len).1
          consumed := t.consumed ++ t.held.take len
          held := t.held.drop len } := by
        refine ⟨inv.order.1, ?_⟩
        rw [rest, dropped, List.append_assoc, ← List.append_assoc (t.held.take len), take_append_drop, unread]
        exact inv.order.2
      refine ⟨iff_of_true kept trivial, fun _ => ⟨wf, kept, ?_⟩⟩
      rw [rest, dropped]
      exact prefix_append _ _

lemma inv_of_run {es : List Event} (r : Run Traffic.step Untouched {} es t) : Inv t := by
  apply r.invariant init_inv
  intro t e u inv ok st
  obtain ⟨iff, keep⟩ := inv.step st
  exact keep (iff.mpr ok)

/-- Along a run every byte is consumed once and in order, exactly if no write finds the inner stream
partly consumed. -/
theorem endlessMemoryStream_inOrder_iff {es : List Event} (r : Run Traffic.step Always {} es t) :
    (∀ es' t', es' <+: es → Run Traffic.step Always {} es' t' → t'.InOrder) ↔
      Run Traffic.step Untouched {} es t := by
  apply r.forall_prefix_iff_guarded
  · exact init_inv.order
  · intro es t e u rg _ st
    exact ((inv_of_run rg).step st).1

theorem endlessMemoryStream_inOrder_alternating :
    ∃ t, exec Traffic.step Always {} [.write [1, 2] true, .readMemoryBlock 5, .seek 2, .write [3] true] =
        some t ∧ t.InOrder := by
  obtain ⟨t, run, guarded⟩ : ∃ t, exec Traffic.step Always {}
        [.write [1, 2] true, .readMemoryBlock 5, .seek 2, .write [3] true] = some t ∧
      exec Traffic.step Untouched {}
        [.write [1, 2] true, .readMemoryBlock 5, .seek 2, .write [3] true] = some t :=
    exists_exec (by decide +kernel)
  exact ⟨t, run, (endlessMemoryStream_inOrder_iff (exec_run run)).mpr (exec_run guarded) _ _
    prefix_rfl (exec_run run)⟩

/-- One of two bytes is consumed when a third is written: the first one is consumed again. -/
theorem endlessMemoryStream_repeats : ¬ ∀ es t, Run Traffic.step Always {} es t → t.consumed <+: t.written :=
  not_forall_run [.write [1, 2] true, .readMemoryBlock 1, .seek 1, .write [3] true, .readMemoryBlock 5,
    .seek 2] (by decide +kernel)

end Traffic

end Sming.Data
