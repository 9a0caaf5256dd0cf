import Sming.Lib.Run

/-!
# The task queue

Embedding of the task queue of `Sming/SmingCore/Platform/System.cpp`. The queue itself is the operating system's; the
class counts the tasks on it before it knows whether they were taken.
-/

namespace Sming.Platform
open Sming.Lib

/-- (C++ `SystemClass`, with the tasks that were posted and not yet started.) -/
structure SystemClass (α : Type) where
  taskCount : UInt8 := 0
  maxTaskCount : UInt8 := 0
  taskQueue : List (α × UInt32) := []

/-- A call of `queueCallback` with the answer of `system_os_post`, or the next task. -/
inductive TaskEvent (α : Type) where
  | queueCallback (callback : Option α) (param : UInt32) (posted : Bool)
  | taskHandler

namespace SystemClass

variable {α : Type} (s : SystemClass α)

def getTaskCount : Nat := s.taskCount.toNat

def queueCallback (callback : Option α) (param : UInt32) (posted : Bool) : Bool × SystemClass α :=
  match callback with
  | none => (false, s)
  | some callback =>
    (posted, {
      taskCount := s.taskCount + 1
      maxTaskCount := if s.taskCount + 1 > s.maxTaskCount then s.taskCount + 1 else s.maxTaskCount
      taskQueue := if posted then s.taskQueue ++ [(callback, param)] else s.taskQueue })

/-- The counter behind the adjustment for an interrupt; `oldCount - 1` is an `int` (C++ `SystemClass::taskHandler`). -/
def countDown (oldCount : UInt8) : UInt8 :=
  if ((oldCount - 1).toNat : Int) ≠ (oldCount.toNat : Int) - 1 then oldCount - 1 - 1 else oldCount - 1

def taskHandler : Option (SystemClass α) :=
  match s.taskQueue with
  | [] => none
  | _ :: taskQueue => some { s with taskCount := countDown s.taskCount, taskQueue }

def step : TaskEvent α → Option (SystemClass α)
  | .queueCallback callback param posted => some (s.queueCallback callback param posted).2
  | .taskHandler => s.taskHandler

/-- Fewer than 256 tasks are pending behind the step. -/
def Pending (e : TaskEvent α) : Prop := ∀ t ∈ s.step e, t.taskQueue.length < 256

instance (s : SystemClass α) (e : TaskEvent α) : Decidable (Pending s e) :=
  inferInstanceAs (Decidable (∀ t ∈ s.step e, t.taskQueue.length < 256))

def Posted : TaskEvent α → Prop
  | .queueCallback (some callback) param posted => Pending s (.queueCallback (some callback) param posted) ∧ posted
  | e => Pending s e

def Counted : Prop := s.getTaskCount = s.taskQueue.length

instance (s : SystemClass α) : Decidable s.Counted := inferInstanceAs (Decidable (_ = _))

variable {s t : SystemClass α} {e : TaskEvent α}

lemma Posted.pending (h : Posted s e) : Pending s e := by
  cases e with
  | queueCallback callback =>
    cases callback with
    | none => exact h
    | some => exact h.1
  | taskHandler => exact h

lemma countDown_of_pos {count : UInt8} (pos : 0 < count.toNat) : (countDown count).toNat = count.toNat - 1 := by
  have bound := count.toNat_lt
  have less : (count - 1).toNat = count.toNat - 1 := by
    rw [UInt8.toNat_sub]
    simp only [UInt8.reduceToNat]
    omega
  rw [countDown, less, if_neg (by omega), less]

lemma counted_step_iff (h : s.Counted) (pending : Pending s e) (st : s.step e = some t) : t.Counted ↔ Posted s e := by
  have below : t.taskQueue.length < 256 := pending t st
  have count : s.taskCount.toNat = s.taskQueue.length := h
  cases e with
  | queueCallback callback param posted =>
    cases st
    cases callback with
    | none => exact iff_of_true h pending
    | some callback =>
      have up : (s.taskCount + 1).toNat = (s.taskQueue.length + 1) % 256 := by
        rw [UInt8.toNat_add, count]
        rfl
      cases posted with
      | true =>
        rw [queueCallback, if_pos rfl, List.length_append, List.length_singleton] at below
        refine iff_of_true ?_ ⟨pending, rfl⟩
        rw [Counted, getTaskCount, queueCallback, up, if_pos rfl, List.length_append, List.length_singleton]
        exact Nat.mod_eq_of_lt below
      | false =>
        refine iff_of_false ?_ fun posted => Bool.false_ne_true posted.2
        rw [Counted, getTaskCount, queueCallback, up]
        change (s.taskQueue.length + 1) % 256 ≠ s.taskQueue.length
        omega
  | taskHandler =>
    rw [step, taskHandler] at st
    split at st <;> cases st
    case h_2 task rest tasks =>
      rw [tasks, List.length_cons] at count
      refine iff_of_true ?_ pending
      rw [Counted, getTaskCount, countDown_of_pos (count ▸ Nat.succ_pos _), count, Nat.add_sub_cancel]

lemma counted_of_run {es} (r : Run step Posted ({} : SystemClass α) es s) : s.Counted := by
  have empty : ({} : SystemClass α).Counted := rfl
  exact r.invariant empty fun h posted st => (counted_step_iff h posted.pending st).mpr posted

/-- The count is right along a run exactly if every task is taken; a refused call leaves it as it is only if there was
no callback. -/
theorem getTaskCount_iff {es} (r : Run step Pending ({} : SystemClass α) es s) :
    ((∀ es' t, es' <+: es → Run step Pending ({} : SystemClass α) es' t → t.getTaskCount = t.taskQueue.length) ↔
      Run step Posted ({} : SystemClass α) es s) ∧
    ∀ (t : SystemClass α) callback param posted, (t.queueCallback callback param posted).1 = false →
      ((t.queueCallback callback param posted).2.getTaskCount = t.getTaskCount ↔ callback = none) := by
  constructor
  · exact r.forall_prefix_iff_guarded (P := Counted) rfl fun r pending st =>
      counted_step_iff (counted_of_run r) pending st
  · intro t callback param posted refused
    cases callback with
    | none => exact iff_of_true rfl rfl
    | some callback =>
      refine iff_of_false ?_ nofun
      have bound := t.taskCount.toNat_lt
      rw [queueCallback, getTaskCount, getTaskCount, UInt8.toNat_add]
      simp only [UInt8.reduceToNat]
      omega

theorem getTaskCount_iff_posted : ∃ es, .taskHandler ∈ es ∧ ∀ es' t, es' <+: es →
    Run step Pending ({} : SystemClass Unit) es' t → t.getTaskCount = t.taskQueue.length :=
  ⟨[.queueCallback (some ()) 0 true, .taskHandler], by simp,
    (getTaskCount_iff (.cons (by decide) rfl (.cons (by decide) rfl .nil))).1.mpr
      (.cons ⟨by decide, rfl⟩ rfl (.cons (by decide : Pending _ _) rfl .nil))⟩

theorem getTaskCount_refused : ¬ ∀ es (t : SystemClass Unit), Run step Pending {} es t →
    t.getTaskCount = t.taskQueue.length := by
  apply not_forall_run (P := Counted) [.queueCallback (some ()) 0 false]
  decide

end SystemClass

end Sming.Platform
