import Sming.Data.CircularBuffer
import Sming.Data.DataSourceStream

/-!
# Stream transformers

Embedding of `Sming/SmingCore/Data/StreamTransformer.cpp`, generic in the source stream `S` and in the encoder with its
state `σ`. The transform callback maps a block to its encoding; the empty block asks for its end. `tempStream` is a
null pointer until the first read, and a function that follows it there answers `none`.

`fill` is the loop of `readMemoryBlock`. A block whose encoding does not fit stays in the source and the encoder goes
back to the state that `saveState` kept. The end of the encoding is written once, in the read that empties the source,
and what does not fit of it is lost.

`Flow` is the same stream as lists, connected by `readMemoryBlock_refines`; everything else is about `Flow`.
-/

namespace Sming.Data

open IDataSourceStream List

/-- The transform callback with the block size that goes with it. -/
structure Transform (σ : Type) where
  blockSize : Nat
  callback : σ → List UInt8 → List UInt8 × σ

def networkSendBufferSize : Nat := 1024

/-- The fields of `StreamTransformer`; `lastState` belongs to the subclass that saves its state. -/
structure StreamTransformer (S σ : Type) where
  sourceStream : S
  tempStream : Option CircularBuffer := none
  state : σ
  lastState : σ
  deriving Repr, DecidableEq

namespace StreamTransformer

variable {S σ : Type}

def saveState (t : StreamTransformer S σ) : StreamTransformer S σ :=
  { t with lastState := t.state }

def restoreState (t : StreamTransformer S σ) : StreamTransformer S σ :=
  { t with state := t.lastState }

variable [IDataSourceStream S] (f : Transform σ)

/-- The do-while loop of `readMemoryBlock`, with the turns that are left. -/
def fill (t : StreamTransformer S σ) (temp : CircularBuffer) (bufSize : Nat) :
    Nat → StreamTransformer S σ × CircularBuffer
  | 0 => (t, temp)
  | i + 1 =>
    let len := if i = 0 then bufSize % f.blockSize else f.blockSize
    let (data, source) := IDataSourceStream.readMemoryBlock t.sourceStream len
    let t := { t with sourceStream := source }
    if data = [] then (t, temp)
    else
      let t := t.saveState
      let r := f.callback t.state data
      let t := { t with state := r.2 }
      if temp.room < r.1.length then (t.restoreState, temp)
      else
        let (temp, written) := temp.write r.1
        if written ≠ r.1.length then (t.restoreState, temp)
        else
          let t := { t with sourceStream := (IDataSourceStream.seek t.sourceStream data.length).1 }
          fill t temp bufSize i

def readMemoryBlock (t : StreamTransformer S σ) (bufSize : Nat) :
    List UInt8 × StreamTransformer S σ :=
  let temp := t.tempStream.getD (.new (networkSendBufferSize + 10))
  if temp.isFinished then
    if IDataSourceStream.isFinished t.sourceStream then ([], { t with tempStream := some temp })
    else
      let (t, temp) := t.fill f temp bufSize (bufSize / f.blockSize + 1)
      if IDataSourceStream.isFinished t.sourceStream then
        let r := f.callback t.state []
        let temp := (temp.write r.1).1
        (temp.readMemoryBlock bufSize, { t with state := r.2, tempStream := some temp })
      else (temp.readMemoryBlock bufSize, { t with tempStream := some temp })
  else (temp.readMemoryBlock bufSize, { t with tempStream := some temp })

def seek (t : StreamTransformer S σ) (len : Nat) : Option (StreamTransformer S σ × Bool) :=
  t.tempStream.map fun temp => ({ t with tempStream := some (temp.seek len).1 }, (temp.seek len).2)

def isFinished (t : StreamTransformer S σ) : Option Bool :=
  if IDataSourceStream.isFinished t.sourceStream then t.tempStream.map CircularBuffer.isFinished
  else some false

end StreamTransformer

/-! ## The stream as lists -/

lemma drop_length_take (l : List UInt8) (n : Nat) : l.drop (l.take n).length = l.drop n := by
  rw [length_take]
  rcases Nat.le_total n l.length with le | le
  · rw [Nat.min_eq_left le]
  · rw [Nat.min_eq_right le, drop_length, drop_eq_nil_of_le le]

namespace Transform

variable {σ : Type} (f : Transform σ)

def blocks : σ → List (List UInt8) → List UInt8 × σ
  | st, [] => ([], st)
  | st, b :: bs =>
    let r := f.callback st b
    let rs := blocks r.2 bs
    (r.1 ++ rs.1, rs.2)

def ending (st : σ) : List UInt8 := (f.callback st []).1

/-- The encoding of all of `data` in at most `i` blocks, each but the last one full. -/
def whole : Nat → σ → List UInt8 → List UInt8 × σ
  | 0, st, _ => ([], st)
  | i + 1, st, data =>
    if data = [] then ([], st)
    else
      let r := f.callback st (data.take f.blockSize)
      let rs := whole i r.2 (data.drop f.blockSize)
      (r.1 ++ rs.1, rs.2)

@[simp]
lemma whole_nil (i : Nat) (st : σ) : f.whole i st [] = ([], st) := by
  cases i with
  | zero => rfl
  | succ i => rw [whole, if_pos rfl]

lemma whole_succ {i : Nat} {st : σ} {data : List UInt8} (some : data ≠ []) :
    f.whole (i + 1) st data = ((f.callback st (data.take f.blockSize)).1 ++
        (f.whole i (f.callback st (data.take f.blockSize)).2 (data.drop f.blockSize)).1,
      (f.whole i (f.callback st (data.take f.blockSize)).2 (data.drop f.blockSize)).2) := by
  rw [whole, if_neg some]

lemma blocks_append (st : σ) (bs cs : List (List UInt8)) :
    f.blocks st (bs ++ cs) =
      ((f.blocks st bs).1 ++ (f.blocks (f.blocks st bs).2 cs).1, (f.blocks (f.blocks st bs).2 cs).2) := by
  induction bs generalizing st with
  | nil => rfl
  | cons b bs ih =>
    rw [cons_append, blocks, ih, blocks]
    simp only [List.append_assoc]

lemma whole_congr {i j : Nat} {st : σ} {data : List UInt8} (hi : data.length ≤ i * f.blockSize)
    (hj : data.length ≤ j * f.blockSize) : f.whole i st data = f.whole j st data := by
  by_cases nil : data = []
  · rw [nil, whole_nil, whole_nil]
  have some : data.length ≠ 0 := mt List.length_eq_zero_iff.mp nil
  induction i generalizing j st data with
  | zero => omega
  | succ i ih =>
    cases j with
    | zero => omega
    | succ j =>
      rw [Nat.succ_mul] at hi hj
      rw [whole_succ f nil, whole_succ f nil]
      by_cases last : data.drop f.blockSize = []
      · rw [last, whole_nil, whole_nil]
      · rw [@ih j _ _ (by rw [length_drop]; omega) (by rw [length_drop]; omega) last
          (mt List.length_eq_zero_iff.mp last)]

end Transform

structure Flow (σ : Type) where
  unread : List UInt8
  content : List UInt8
  state : σ

def tempCapacity : Nat := networkSendBufferSize + 10 - 1

/-- A block is read at once, and its encoding fits into the empty buffer. -/
structure Transform.Small {σ : Type} (f : Transform σ) : Prop where
  block : f.blockSize < 2 ^ 16
  code : ∀ st block, block.length ≤ f.blockSize → (f.callback st block).1.length ≤ tempCapacity

namespace Flow

variable {σ : Type} (f : Transform σ)

def fill (v : Flow σ) (bufSize : Nat) : Nat → Flow σ
  | 0 => v
  | i + 1 =>
    let data := v.unread.take (if i = 0 then bufSize % f.blockSize else f.blockSize)
    let r := f.callback v.state data
    if data = [] ∨ tempCapacity < v.content.length + r.1.length then v
    else fill ⟨v.unread.drop data.length, v.content ++ r.1, r.2⟩ bufSize i

def refill (v : Flow σ) (bufSize : Nat) : Flow σ :=
  if v.content = [] ∧ v.unread ≠ [] then
    let w := v.fill f bufSize (bufSize / f.blockSize + 1)
    if w.unread = [] then
      { w with
        content := w.content ++ (f.ending w.state).take (tempCapacity - w.content.length)
        state := (f.callback w.state []).2 }
    else w
  else v

variable {f}

structure Moved (f : Transform σ) (v w : Flow σ) (bs : List (List UInt8)) : Prop where
  nonempty : ∀ b ∈ bs, b ≠ []
  unread : v.unread = bs.flatten ++ w.unread
  content : w.content = v.content ++ (f.blocks v.state bs).1
  state : w.state = (f.blocks v.state bs).2
  fits : w.content.length ≤ tempCapacity

variable {v : Flow σ}

lemma fill_moved (fits : v.content.length ≤ tempCapacity) (bufSize i : Nat) :
    ∃ bs, Moved f v (v.fill f bufSize i) bs := by
  induction i generalizing v with
  | zero => exact ⟨[], by simp, rfl, (append_nil _).symm, rfl, fits⟩
  | succ i ih =>
    simp only [fill]
    generalize (if i = 0 then bufSize % f.blockSize else f.blockSize) = len
    split
    · exact ⟨[], by simp, rfl, (append_nil _).symm, rfl, fits⟩
    case isFalse h =>
      obtain ⟨some, room⟩ := not_or.mp h
      obtain ⟨bs, nonempty, unread, content, state, fits⟩ :=
        @ih ⟨v.unread.drop (v.unread.take len).length, v.content ++ (f.callback v.state (v.unread.take len)).1,
          (f.callback v.state (v.unread.take len)).2⟩ (by rw [List.length_append]; omega)
      refine ⟨v.unread.take len :: bs, ?_, ?_, ?_, state, fits⟩
      · exact forall_mem_cons.mpr ⟨some, nonempty⟩
      · rw [flatten_cons, List.append_assoc, ← unread, drop_length_take, take_append_drop]
      · rw [content, Transform.blocks, List.append_assoc]

variable {i : Nat}

lemma fill_whole (pos : 0 < f.blockSize) {bufSize : Nat}
    (far : v.unread.length ≤ i * f.blockSize + bufSize % f.blockSize)
    (fits : v.content.length + (f.whole (i + 1) v.state v.unread).1.length ≤ tempCapacity) :
    v.fill f bufSize (i + 1) = ⟨[], v.content ++ (f.whole (i + 1) v.state v.unread).1,
      (f.whole (i + 1) v.state v.unread).2⟩ := by
  have last := Nat.mod_lt bufSize pos
  obtain ⟨unread, content, state⟩ := v
  simp only at far fits ⊢
  induction i generalizing unread content state with
  | zero =>
    by_cases nil : unread = []
    · simp [nil, fill]
    have all : unread.take (bufSize % f.blockSize) = unread := take_of_length_le (by omega)
    have all' : unread.take f.blockSize = unread := take_of_length_le (by omega)
    rw [Transform.whole_succ f nil, all'] at fits ⊢
    simp only [Transform.whole, append_nil] at fits ⊢
    simp only [fill, if_true, all, nil, false_or, Nat.not_lt.mpr fits, if_false, drop_length]
  | succ i ih =>
    by_cases nil : unread = []
    · simp [nil, fill]
    have block : unread.take f.blockSize ≠ [] := by
      intro e
      rcases take_eq_nil_iff.mp e with e | e
      · omega
      · exact nil e
    rw [Transform.whole_succ f nil] at fits ⊢
    rw [List.length_append] at fits
    rw [Nat.succ_mul] at far
    rw [fill]
    simp only [Nat.succ_ne_zero, if_false, block, false_or]
    rw [if_neg (by omega), drop_length_take, ih _ _ _ (by rw [length_drop]; omega)
      (by rw [List.length_append]; omega), List.append_assoc]

lemma unread_ne_nil {content unread : List UInt8} {state : σ} {n : Nat} (room : content.length ≤ tempCapacity)
    (h : ¬ (unread.length ≤ n ∧
      content.length + (f.whole (i + 1) state unread).1.length ≤ tempCapacity)) : unread ≠ [] := by
  rintro rfl
  rw [Transform.whole_nil] at h
  exact h ⟨Nat.zero_le n, room⟩

lemma fill_not_whole (pos : 0 < f.blockSize) {bufSize : Nat} (room : v.content.length ≤ tempCapacity)
    (h : ¬ (v.unread.length ≤ i * f.blockSize + bufSize % f.blockSize ∧
      v.content.length + (f.whole (i + 1) v.state v.unread).1.length ≤ tempCapacity)) :
    (v.fill f bufSize (i + 1)).unread ≠ [] := by
  have last := Nat.mod_lt bufSize pos
  obtain ⟨unread, content, state⟩ := v
  simp only at h room ⊢
  induction i generalizing unread content state with
  | zero =>
    have nil := unread_ne_nil room h
    rw [fill]
    simp only [if_true]
    split
    · exact nil
    case isFalse go =>
      obtain ⟨-, fits⟩ := not_or.mp go
      intro e
      rw [fill, drop_length_take, drop_eq_nil_iff] at e
      apply h
      refine ⟨by omega, ?_⟩
      rw [Transform.whole_succ f nil, take_of_length_le (by omega)]
      rw [take_of_length_le (by omega)] at fits
      simpa [Transform.whole] using Nat.not_lt.mp fits
  | succ i ih =>
    have nil := unread_ne_nil room h
    rw [fill]
    simp only [Nat.succ_ne_zero, if_false]
    split
    · exact nil
    case isFalse go =>
      obtain ⟨-, fits⟩ := not_or.mp go
      rw [drop_length_take]
      apply ih
      · rw [List.length_append]
        omega
      · rintro ⟨far, fits'⟩
        apply h
        rw [Transform.whole_succ f nil, List.length_append, Nat.succ_mul]
        rw [length_drop] at far
        rw [List.length_append] at fits'
        omega

lemma fill_progress (pos : 0 < f.blockSize) (small : f.Small)
    {bufSize : Nat} (h : 0 < bufSize) (empty : v.content = []) (some : v.unread ≠ []) :
    (v.fill f bufSize (bufSize / f.blockSize + 1)).unread.length < v.unread.length := by
  have last := Nat.mod_lt bufSize pos
  have len : 0 < (if bufSize / f.blockSize = 0 then bufSize % f.blockSize else f.blockSize) ∧
      (if bufSize / f.blockSize = 0 then bufSize % f.blockSize else f.blockSize) ≤ f.blockSize := by
    split
    case isTrue e =>
      have split := Nat.div_add_mod bufSize f.blockSize
      rw [e, Nat.mul_zero] at split
      omega
    case isFalse => omega
  simp only [fill]
  generalize (if bufSize / f.blockSize = 0 then bufSize % f.blockSize else f.blockSize) = n at *
  have fits := small.code v.state (v.unread.take n) (Nat.le_trans (length_take_le _ _) len.2)
  have short : 0 < v.unread.length := length_pos_iff.mpr some
  have taken : 0 < (v.unread.take n).length := by
    rw [length_take]
    omega
  rw [if_neg (not_or.mpr ⟨ne_nil_of_length_pos taken, by rw [empty, length_nil]; omega⟩)]
  obtain ⟨bs, -, unread, -⟩ := @fill_moved _ f ⟨v.unread.drop (v.unread.take n).length,
    v.content ++ (f.callback v.state (v.unread.take n)).1, (f.callback v.state (v.unread.take n)).2⟩
    (by rw [empty, nil_append]; exact fits) bufSize (bufSize / f.blockSize)
  have le := congrArg List.length unread
  rw [List.length_append, length_drop] at le
  omega

lemma refill_idle (h : v.content ≠ [] ∨ v.unread = []) (bufSize : Nat) : v.refill f bufSize = v := by
  apply if_neg
  rintro ⟨empty, some⟩
  rcases h with h | h
  · exact h empty
  · exact some h

lemma refill_progress (pos : 0 < f.blockSize) (small : f.Small)
    {bufSize : Nat} (h : 0 < bufSize) (empty : v.content = []) (some : v.unread ≠ []) :
    (v.refill f bufSize).unread.length < v.unread.length := by
  have less := fill_progress pos small h empty some
  rw [refill, if_pos ⟨empty, some⟩]
  simp only
  split
  · exact less
  · exact less

def all (f : Transform σ) (v : Flow σ) : List UInt8 × σ := f.whole v.unread.length v.state v.unread

/-- A read of `bufSize` bytes into the empty buffer gets to the end of the source. -/
def Drains (f : Transform σ) (v : Flow σ) (bufSize : Nat) : Prop :=
  v.unread.length ≤ bufSize ∧ (v.all f).1.length ≤ tempCapacity

lemma fill_iff_drains (pos : 0 < f.blockSize) {bufSize : Nat} (empty : v.content = []) :
    v.Drains f bufSize ∧ v.fill f bufSize (bufSize / f.blockSize + 1) = ⟨[], (v.all f).1, (v.all f).2⟩ ∨
      ¬ v.Drains f bufSize ∧ (v.fill f bufSize (bufSize / f.blockSize + 1)).unread ≠ [] := by
  have split := Nat.div_add_mod' bufSize f.blockSize
  have last := Nat.mod_lt bufSize pos
  have enough : v.unread.length ≤ v.unread.length * f.blockSize := Nat.le_mul_of_pos_right _ pos
  by_cases far : v.unread.length ≤ bufSize
  · have e : f.whole (bufSize / f.blockSize + 1) v.state v.unread = v.all f :=
      f.whole_congr (by rw [Nat.succ_mul]; omega) enough
    by_cases fits : (v.all f).1.length ≤ tempCapacity
    · left
      refine ⟨⟨far, fits⟩, ?_⟩
      rw [fill_whole pos (by omega) (by rw [e, empty, length_nil]; omega), e, empty, nil_append]
    · right
      refine ⟨fun d => fits d.2, fill_not_whole pos (by rw [empty]; exact Nat.zero_le _) ?_⟩
      rw [e, empty, length_nil, Nat.zero_add]
      exact fun d => fits d.2
  · right
    refine ⟨fun d => far d.1, fill_not_whole pos (by rw [empty]; exact Nat.zero_le _) ?_⟩
    omega

lemma refill_drains (pos : 0 < f.blockSize) {bufSize : Nat} (empty : v.content = [])
    (some : v.unread ≠ []) (h : v.Drains f bufSize) :
    (∃ bs, Moved f v ⟨[], (v.all f).1, (v.all f).2⟩ bs) ∧
      v.refill f bufSize = ⟨[], (v.all f).1 ++ (f.ending (v.all f).2).take (tempCapacity - (v.all f).1.length),
        (f.callback (v.all f).2 []).2⟩ := by
  rcases @fill_iff_drains _ f v pos bufSize empty with ⟨-, e⟩ | ⟨not, -⟩
  · constructor
    · rw [← e]
      exact fill_moved (by rw [empty]; exact Nat.zero_le _) _ _
    · rw [refill, if_pos ⟨empty, some⟩, e]
      simp only [if_true]
  · exact absurd h not

lemma refill_not_drains (pos : 0 < f.blockSize) {bufSize : Nat} (empty : v.content = [])
    (some : v.unread ≠ []) (h : ¬ v.Drains f bufSize) :
    (∃ bs, Moved f v (v.refill f bufSize) bs) ∧ (v.refill f bufSize).unread ≠ [] := by
  rcases @fill_iff_drains _ f v pos bufSize empty with ⟨d, -⟩ | ⟨-, left⟩
  · exact absurd d h
  · rw [refill, if_pos ⟨empty, some⟩]
    simp only [left, if_false]
    exact ⟨fill_moved (by rw [empty]; exact Nat.zero_le _) _ _, left⟩

end Flow

/-! ## Refinement -/

section Refinement

variable {S σ : Type} {f : Transform σ} {WF : S → Prop} {rest : S → List UInt8}

structure Sound (WF : S → Prop) (source : S) (temp : CircularBuffer) : Prop where
  source : WF source
  valid : temp.Valid
  size : temp.size = tempCapacity + 1

abbrev StreamTransformer.flow (rest : S → List UInt8) (t : StreamTransformer S σ)
    (temp : CircularBuffer) : Flow σ := ⟨rest t.sourceStream, temp.toList, t.state⟩

namespace Sound

variable {source : S} {temp : CircularBuffer}

lemma room (h : Sound WF source temp) : temp.room = tempCapacity - temp.toList.length := by
  rw [h.valid.room_eq, h.size, Nat.add_sub_cancel]

lemma length_le (h : Sound WF source temp) : temp.toList.length ≤ tempCapacity := by
  have less := h.valid.available_lt
  rw [h.valid.length_toList]
  rw [h.size] at less
  omega

lemma write (h : Sound WF source temp) (data : List UInt8) : Sound WF source (temp.write data).1 :=
  ⟨h.source, (h.valid.write_spec data).1, (h.valid.write_spec data).2.1.trans h.size⟩

lemma write_toList (h : Sound WF source temp) (data : List UInt8) :
    (temp.write data).1.toList = temp.toList ++ data.take (tempCapacity - temp.toList.length) := by
  rw [(h.valid.write_spec data).2.2, h.room]

end Sound

variable [IDataSourceStream S]

lemma StreamTransformer.fill_refines (full : Full S WF rest) (pos : 0 < f.blockSize) (small : f.Small) {bufSize i : Nat}
    {t : StreamTransformer S σ} {temp : CircularBuffer} (h : Sound WF t.sourceStream temp) :
    Sound WF (t.fill f temp bufSize i).1.sourceStream (t.fill f temp bufSize i).2 ∧
      (t.fill f temp bufSize i).1.flow rest (t.fill f temp bufSize i).2 = (t.flow rest temp).fill f bufSize i := by
  induction i generalizing t temp with
  | zero => exact ⟨h, rfl⟩
  | succ i ih =>
    simp only [StreamTransformer.fill, Flow.fill]
    have short : (if i = 0 then bufSize % f.blockSize else f.blockSize) < 2 ^ 16 := by
      split
      · exact Nat.lt_trans (Nat.mod_lt _ pos) small.block
      · exact small.block
    generalize (if i = 0 then bufSize % f.blockSize else f.blockSize) = len at *
    have read := full.read_of_lt h.source short
    obtain ⟨-, wf, same⟩ := full.read h.source len
    have keep := full.seek h.source len _ (Nat.le_refl _)
    generalize IDataSourceStream.readMemoryBlock t.sourceStream len = r at *
    obtain ⟨data, source⟩ := r
    simp only at read wf same keep
    rw [show (t.flow rest temp).unread.take len = data from read.symm]
    by_cases nil : data = []
    · rw [if_pos nil, if_pos (.inl nil)]
      exact ⟨⟨wf, h.valid, h.size⟩, by simp only [flow, same]⟩
    · rw [if_neg nil]
      simp only [saveState, restoreState, flow]
      have room := h.room
      have le := h.length_le
      by_cases long : temp.room < (f.callback t.state data).1.length
      · -- the block stays in the source, the encoder goes back
        simp only [long, if_true]
        rw [if_pos (Or.inr (by omega)), same]
        exact ⟨⟨wf, h.valid, h.size⟩, rfl⟩
      · have fits : (f.callback t.state data).1.length ≤ tempCapacity - temp.toList.length := by omega
        have written : (temp.write (f.callback t.state data).1).2 = (f.callback t.state data).1.length := by
          rw [CircularBuffer.write_snd]
          omega
        simp only [long, written, ne_eq, not_true, if_false]
        rw [if_neg (not_or.mpr ⟨nil, by omega⟩)]
        have sound := h.write (f.callback t.state data).1
        obtain ⟨sound, refines⟩ := @ih { t with
            sourceStream := (IDataSourceStream.seek source data.length).1
            state := (f.callback t.state data).2
            lastState := t.state } _ ⟨keep.1, sound.valid, sound.size⟩
        refine ⟨sound, refines.trans ?_⟩
        simp only [flow, keep.2, h.write_toList, take_of_length_le fits]

lemma StreamTransformer.readMemoryBlock_refines (full : Full S WF rest) (pos : 0 < f.blockSize) (small : f.Small)
    {bufSize : Nat}
    {t : StreamTransformer S σ} {temp : CircularBuffer}
    (same : t.tempStream.getD (.new (networkSendBufferSize + 10)) = temp) (h : Sound WF t.sourceStream temp) :
    ∃ temp', (t.readMemoryBlock f bufSize).2.tempStream = some temp' ∧
      Sound WF (t.readMemoryBlock f bufSize).2.sourceStream temp' ∧
      (t.readMemoryBlock f bufSize).2.flow rest temp' = (t.flow rest temp).refill f bufSize ∧
      (t.readMemoryBlock f bufSize).1 = temp'.toList.take bufSize := by
  have empty := h.valid.isFinished_iff
  have ended := full.finished h.source
  obtain ⟨sound, filled⟩ := @fill_refines _ _ f _ _ _ full pos small bufSize (bufSize / f.blockSize + 1) t temp h
  have ended' := full.finished sound.source
  simp only [readMemoryBlock, same, Flow.refill]
  rw [← filled]
  by_cases nil : temp.toList = []
  · rw [if_pos (empty.mpr nil)]
    by_cases last : rest t.sourceStream = []
    · rw [if_pos (ended.mpr last), if_neg (fun e => e.2 last)]
      exact ⟨temp, rfl, h, rfl, by rw [nil, take_nil]⟩
    · rw [if_neg (mt ended.mp last), if_pos (And.intro nil last)]
      by_cases drained : rest (t.fill f temp bufSize (bufSize / f.blockSize + 1)).1.sourceStream = []
      · rw [if_pos (ended'.mpr drained), if_pos drained]
        refine ⟨_, rfl, sound.write _, ?_, (sound.write _).valid.readMemoryBlock_eq _⟩
        simp only [flow, sound.write_toList, Transform.ending]
      · rw [if_neg (mt ended'.mp drained), if_neg drained]
        exact ⟨_, rfl, sound, rfl, sound.valid.readMemoryBlock_eq _⟩
  · rw [if_neg (mt empty.mp nil), if_neg (fun e => nil e.1)]
    exact ⟨temp, rfl, h, rfl, h.valid.readMemoryBlock_eq _⟩

end Refinement

end Sming.Data
