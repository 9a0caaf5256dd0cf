import Sming.Data.StreamPump
import Sming.Services.Libb64

/-!
# The base64 stream

Embedding of `Sming/SmingCore/Data/Stream/Base64OutputStream.cpp`, the transformer around the encoder of
libb64. It saves the encoder before every block and goes back to it when the block is left in the source, so
the code does not depend on the blocks. The end of the code, up to three characters, is subject to the base
class as every end of an encoding is: what does not fit behind the last block is lost.
-/

namespace Sming.Data

open IDataSourceStream Lib Services List MemoryDataStream

namespace Base64OutputStream

def charsPerLine : Nat := 72

def encode (state : Base64Encodestate) (source : List UInt8) : List UInt8 × Base64Encodestate :=
  if source.length = 0 then (base64EncodeBlockend state, state)
  else base64EncodeBlock source state

def initialState : Base64Encodestate := base64InitEncodestate charsPerLine

/-- (C++ `Base64OutputStream::Base64OutputStream`, with a result buffer of `resultSize` bytes.) -/
def transform (resultSize : UInt32) : Transform Base64Encodestate where
  blockSize := (resultSize / 4).toNat
  callback := encode

def defaultResultSize : UInt32 := 500

lemma after_initialState : initialState.After 0 := ⟨rfl, rfl, rfl⟩

lemma encode_eq {block : List UInt8} (some : block ≠ []) (st : Base64Encodestate) :
    encode st block = base64EncodeBlock block st := if_neg (mt List.length_eq_zero_iff.mp some)

lemma blocks_eq (resultSize : UInt32) {bs : List (List UInt8)} (some : ∀ b ∈ bs, b ≠ []) (st : Base64Encodestate) :
    (transform resultSize).blocks st bs = base64EncodeBlock bs.flatten st := by
  induction bs generalizing st with
  | nil => rfl
  | cons b bs ih =>
    obtain ⟨hb, hbs⟩ := forall_mem_cons.mp some
    rw [Transform.blocks, flatten_cons, base64EncodeBlock_append, ← encode_eq hb, ← ih hbs]
    rfl

lemma whole_eq {i : Nat} {data : List UInt8} (h : data.length ≤ i * 125) (st : Base64Encodestate) :
    (transform defaultResultSize).whole i st data = base64EncodeBlock data st := by
  induction i generalizing st data with
  | zero =>
    obtain rfl : data = [] := List.length_eq_zero_iff.mp (by omega)
    rfl
  | succ i ih =>
    by_cases nil : data = []
    · rw [nil, Transform.whole_nil]
      rfl
    · rw [Transform.whole_succ _ nil]
      change ((encode st (data.take 125)).1 ++ ((transform defaultResultSize).whole i
        (encode st (data.take 125)).2 (data.drop 125)).1, ((transform defaultResultSize).whole i
        (encode st (data.take 125)).2 (data.drop 125)).2) = _
      have block : data.take 125 ≠ [] := by simp [nil]
      rw [ih (by rw [length_drop]; omega), encode_eq block, ← base64EncodeBlock_append, take_append_drop]

def lines (src : List UInt8) : List UInt8 :=
  (base64EncodeBlock src initialState).1 ++
    base64EncodeBlockend (base64EncodeBlock src initialState).2

/-- `out` is the code of `src` whatever the reads were, and without the line breaks its base64 encoding. -/
structure Encodes (src out : List UInt8) : Prop where
  fixed : out = lines src
  rfc : out.filter (· != 10) = Base64.encode src

lemma recognizes (resultSize : UInt32) (src : List UInt8) :
    Pump.Recognizes (transform resultSize) initialState src (Encodes src) where
  whole bs some source := by
    rw [blocks_eq resultSize some, source]
    exact ⟨rfl, base64EncodeBlock_encode rfl src⟩
  cut bs k some source less := by
    rw [blocks_eq resultSize some, source] at less ⊢
    intro e
    have length := congrArg List.length (append_cancel_left e.fixed)
    rw [length_take] at length
    change k < (base64EncodeBlockend _).length at less
    change min k (base64EncodeBlockend _).length = (base64EncodeBlockend _).length at length
    omega

lemma small : (transform defaultResultSize).Small := by
  refine ⟨by decide, fun st block h => ?_⟩
  change block.length ≤ 125 at h
  change (encode st block).1.length ≤ 1033
  have index := st.step.index_le
  by_cases nil : block = []
  · rw [nil]
    change (base64EncodeBlockend st).length ≤ 1033
    rw [base64EncodeBlockend_length, base64EndLength]
    split <;> omega
  · have length := base64EncodeBlock_length_le block st
    rw [encode_eq nil]
    omega

variable {S : Type} {WF : S → Prop} {rest : S → List UInt8}

/-- When a read of a source of `size` bytes fills the intermediate buffer with the code of all that is left, the end
of the code fits behind it. -/
def PaddingFits (rest : S → List UInt8) (size : Nat) (p : Pump S Base64Encodestate) (bufSize : Nat) :
    Prop := p.temp.isFinished = true →
    let left := (rest p.stream.sourceStream).length
    let code := base64Length size - base64Length (size - left)
    ¬ (left ≤ bufSize ∧ code ≤ tempCapacity ∧ tempCapacity < code + base64EndLength size)

lemma fits_iff {p : Pump S Base64Encodestate} {src : List UInt8} {bufSize : Nat}
    (inv : Pump.Inv (transform defaultResultSize) WF rest initialState src p) (more : ¬ p.AtEnd rest) :
    p.Fits (transform defaultResultSize) rest bufSize ↔ PaddingFits rest src.length p bufSize := by
  obtain ⟨sound, bs, k, e⟩ := inv
  unfold Pump.Fits PaddingFits
  rw [sound.valid.isFinished_iff]
  apply imp_congr_right
  intro empty
  by_cases last : rest p.stream.sourceStream = []
  · -- the first read, of a source without content
    have fresh : ¬ p.Started := fun started => more ⟨started, last, empty⟩
    obtain ⟨rfl, -⟩ := e.idle fresh
    obtain ⟨-, state⟩ := e.unended fun h => fresh h.2
    have source : src = [] := e.source.trans last
    rw [if_pos last, state, source, last]
    exact iff_of_true rfl fun h => absurd h.2.2 (by decide)
  · obtain ⟨-, state⟩ := e.unended fun h => last h.1
    rw [blocks_eq _ e.nonempty] at state
    have taken := (after_initialState.block bs.flatten).1
    rw [← state, Nat.zero_add] at taken
    obtain ⟨after, length⟩ := taken.block (rest p.stream.sourceStream)
    have size := congrArg List.length e.source
    rw [List.length_append] at size
    rw [← size] at after length
    have left : src.length - (rest p.stream.sourceStream).length = bs.flatten.length := by
      change src.length = _ + (rest p.stream.sourceStream).length at size
      omega
    have code : (base64EncodeBlock (rest p.stream.sourceStream) p.stream.state).1.length =
        base64Length src.length - base64Length bs.flatten.length := by
      change _ + (base64EncodeBlock (rest p.stream.sourceStream) p.stream.state).1.length = _ at length
      omega
    have all : (p.flow rest).all (transform defaultResultSize) =
        base64EncodeBlock (rest p.stream.sourceStream) p.stream.state := whole_eq (by omega) _
    rw [if_neg last, Flow.Drains, all, code]
    simp only [left]
    change (_ ∧ _) → _ + (base64EncodeBlockend _).length ≤ _ ↔ _
    rw [after.blockend]
    omega

variable [IDataSourceStream S]

/-- For every source and sizes of reads the reader stops, and has then got the base64 encoding of the source exactly
if every read met the condition. -/
theorem base64_stream_encodes_iff (full : Full S WF rest) {source : S} (wf : WF source)
    {sizes : Nat → Nat} (pos : ∀ i, 0 < sizes i) :
    ∃ n p, Run (Pump.pump (transform defaultResultSize)) Always (Pump.start source initialState)
        ((range n).map sizes) p ∧ p.Finished ∧ (Encodes (rest source) p.out ↔
        Run (Pump.pump (transform defaultResultSize)) (PaddingFits rest (rest source).length)
          (Pump.start source initialState) ((range n).map sizes) p) := by
  apply Pump.pump_complete_iff full (by decide) small wf (recognizes _ _) ?_ pos
  intro p b inv more
  exact fits_iff inv more

theorem base64_stream_encodes_iff_foobar :
    ∃ n p, Run (Pump.pump (transform defaultResultSize)) Always
        (Pump.start (holding [102, 111, 111, 98, 97, 114]) initialState)
        ((range n).map fun i => i + 1) p ∧ p.Finished ∧ (Encodes [102, 111, 111, 98, 97, 114] p.out ↔
        Run (Pump.pump (transform defaultResultSize)) (PaddingFits unread 6)
          (Pump.start (holding [102, 111, 111, 98, 97, 114]) initialState) ((range n).map fun i => i + 1) p) :=
  base64_stream_encodes_iff MemoryDataStream.full (.holding [102, 111, 111, 98, 97, 114]) Nat.succ_pos

/-- Of 763 bytes read at once the code lacks its last character. -/
theorem base64_stream_loses_padding :
    ¬ ∀ (source : MemoryDataStream) (sizes : Nat → Nat), source.WF → (∀ i, 0 < sizes i) →
      ∀ n p, Run (Pump.pump (transform defaultResultSize)) Always (Pump.start source initialState)
        ((range n).map sizes) p → p.Finished → Encodes source.unread p.out := by
  intro all
  obtain ⟨p, done, finished, cut⟩ : ∃ p, exec (Pump.pump (transform defaultResultSize)) Always
      (Pump.start (holding (List.replicate 763 0)) initialState) [763, 763] = some p ∧
        p.Finished ∧ p.out.length ≠ (lines (holding (List.replicate 763 0)).unread).length :=
    exists_exec (by decide +kernel)
  have e := all _ (fun _ => 763) (.holding (List.replicate 763 0)) (fun _ => by decide) 2 p
    (exec_run done) finished
  exact cut (congrArg List.length e.fixed)

end Base64OutputStream

end Sming.Data
