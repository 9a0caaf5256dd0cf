import Sming.Data.MemoryDataStream
import Mathlib.Algebra.Group.Nat.Defs

/-!
# Data source streams

The part of `Sming/SmingCore/Data/Stream/DataSourceStream.h` that the network code calls. A read
leaves the cursor where it is; the caller moves it with `seek` by as much as it used. `Lawful` says
what a reader relies on: `rest s` are the bytes the stream still has to deliver, a read shows a
prefix of them, and a `seek` within what was read drops them.
-/

namespace Sming.Data
open List

/-- The virtual functions of a source stream (C++ `IDataSourceStream`). -/
class IDataSourceStream (S : Type) where
  readMemoryBlock : S → Nat → List UInt8 × S
  seek : S → Int → S × Bool
  isFinished : S → Bool

namespace IDataSourceStream

/-- What the caller of `readMemoryBlock` gets to know of the data: the answer counts in 16 bits. -/
def counted (data : List UInt8) : List UInt8 := data.take (data.length % 2 ^ 16)

lemma counted_isPrefix (data : List UInt8) : counted data <+: data := take_prefix _ _

lemma counted_of_lt {data : List UInt8} (h : data.length < 2 ^ 16) : counted data = data := by
  rw [counted, Nat.mod_eq_of_lt h, take_length]

/-- The contract of a source stream: `rest` is what it still has to deliver while `WF` holds. -/
structure Lawful (S : Type) [IDataSourceStream S] (WF : S → Prop) (rest : S → List UInt8) : Prop where
  read : ∀ {s}, WF s → ∀ n, (readMemoryBlock s n).1 <+: rest s ∧
    WF (readMemoryBlock s n).2 ∧ rest (readMemoryBlock s n).2 = rest s
  seek : ∀ {s}, WF s → ∀ n k, k ≤ (readMemoryBlock s n).1.length →
    WF (seek (readMemoryBlock s n).2 k).1 ∧
      rest (seek (readMemoryBlock s n).2 k).1 = (rest s).drop k
  finished : ∀ {s}, WF s → (isFinished s = true ↔ rest s = [])

/-- A source whose reads are as long as they can be. -/
structure Full (S : Type) [IDataSourceStream S] (WF : S → Prop) (rest : S → List UInt8) : Prop
    extends Lawful S WF rest where
  read_eq : ∀ {s}, WF s → ∀ n, (readMemoryBlock s n).1 = counted ((rest s).take n)

lemma Full.read_of_lt {S : Type} [IDataSourceStream S] {WF : S → Prop} {rest : S → List UInt8} (full : Full S WF rest)
    {s : S} (wf : WF s) {n : Nat} (lt : n < 2 ^ 16) : (readMemoryBlock s n).1 = (rest s).take n := by
  rw [full.read_eq wf, counted_of_lt (Nat.lt_of_le_of_lt (length_take_le _ _) lt)]

/-- A source whose reads are no longer than asked for and whose cursor moves over all it has left. -/
structure Seekable (S : Type) [IDataSourceStream S] (WF : S → Prop) (rest : S → List UInt8) : Prop
    extends Lawful S WF rest where
  read_le : ∀ {s}, WF s → ∀ n, (readMemoryBlock s n).1.length ≤ n
  seek_le : ∀ {s}, WF s → ∀ k, k ≤ (rest s).length →
    WF (IDataSourceStream.seek s k).1 ∧ rest (IDataSourceStream.seek s k).1 = (rest s).drop k

/-- A source that may be passed over in several steps: of its rest, `shown s` bytes may be passed over
without another read. -/
structure Stepwise (S : Type) [IDataSourceStream S] (WF : S → Prop) (rest : S → List UInt8)
    (shown : S → Nat) : Prop where
  read : ∀ {s}, WF s → ∀ n, (readMemoryBlock s n).1 <+: rest s ∧ WF (readMemoryBlock s n).2 ∧
    rest (readMemoryBlock s n).2 = rest s ∧ (readMemoryBlock s n).1.length ≤ shown (readMemoryBlock s n).2
  seek : ∀ {s}, WF s → ∀ k, k ≤ shown s → WF (seek s k).1 ∧ rest (seek s k).1 = (rest s).drop k ∧
    shown s ≤ k + shown (seek s k).1
  finished : ∀ {s}, WF s → (isFinished s = true ↔ rest s = [])

lemma Seekable.stepwise {S : Type} [IDataSourceStream S] {WF : S → Prop} {rest : S → List UInt8}
    (src : Seekable S WF rest) : Stepwise S WF rest fun s => (rest s).length where
  read wf n := by
    obtain ⟨shown, wf', rest'⟩ := src.read wf n
    exact ⟨shown, wf', rest', rest'.symm ▸ shown.length_le⟩
  seek wf k le := by
    obtain ⟨wf', rest'⟩ := src.seek_le wf k le
    refine ⟨wf', rest', ?_⟩
    rw [rest', length_drop]
    omega
  finished := src.finished

end IDataSourceStream

open IDataSourceStream

instance : IDataSourceStream MemoryDataStream where
  readMemoryBlock s n := (counted (s.readMemoryBlock n), s)
  seek s len := s.seek len
  isFinished s := s.isFinished

namespace MemoryDataStream

lemma WF.read_eq {s : MemoryDataStream} (wf : s.WF) (n : Nat) :
    (IDataSourceStream.readMemoryBlock s n).1 = counted (s.unread.take n) :=
  congrArg counted (wf.readMemoryBlock_eq n)

lemma full : Full MemoryDataStream WF unread where
  read {s} wf n := by
    rw [wf.read_eq]
    exact ⟨(counted_isPrefix _).trans (List.take_prefix _ _), wf, rfl⟩
  seek {s} wf n k hk := by
    rw [wf.read_eq] at hk
    exact wf.seek (Nat.le_trans hk ((counted_isPrefix _).trans (List.take_prefix _ _)).length_le)
  finished wf := wf.isFinished_iff
  read_eq wf n := wf.read_eq n

lemma lawful : Lawful MemoryDataStream WF unread := full.toLawful

lemma seekable : Seekable MemoryDataStream WF unread where
  toLawful := lawful
  read_le {s} wf n := by
    rw [wf.read_eq]
    exact Nat.le_trans (counted_isPrefix _).length_le (length_take_le _ _)
  seek_le wf _ le := wf.seek le

end MemoryDataStream

end Sming.Data
