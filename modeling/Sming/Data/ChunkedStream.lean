import Sming.Data.StreamPump
import Sming.Lib.ChunkedCoding

/-!
# The chunked stream

Embedding of `Sming/SmingCore/Data/Stream/ChunkedStream.cpp`: the transformer that sends a body of unknown
length as HTTP chunks. The base class asks for the end of the encoding only in the read that empties the
source, so a source that is empty from the start never gets its last chunk; and it does not look at
how much of the last chunk was written, so a buffer that the chunks fill up to its last bytes cuts it off.
-/

namespace Sming.Data

open IDataSourceStream Lib List

namespace ChunkedStream

/-- One block, or the last chunk; the array that the digits go through is taken as large enough. -/
def encode (source : List UInt8) : List UInt8 :=
  if source.length = 0 then
    [48, 13, 10, 13, 10] -- "0\r\n\r\n"
  else
    let chunkSize := Chunked.hex source.length
    chunkSize ++ [13, 10] ++ source ++ [13, 10]

/-- (C++ `ChunkedStream::ChunkedStream`, with a result buffer of `resultSize` bytes.) -/
def transform (resultSize : UInt32) : Transform Unit where
  blockSize := (resultSize - 12).toNat
  callback _ block := (encode block, ())

def defaultResultSize : UInt32 := 512

lemma encode_nil : encode [] = Chunked.lastChunk := rfl

lemma encode_eq {block : List UInt8} (some : block ≠ []) : encode block = Chunked.chunk block :=
  if_neg (mt List.length_eq_zero_iff.mp some)

lemma blocks_eq (resultSize : UInt32) {bs : List (List UInt8)} (some : ∀ b ∈ bs, b ≠ []) :
    ((transform resultSize).blocks () bs).1 = bs.flatMap Chunked.chunk := by
  induction bs with
  | nil => rfl
  | cons b bs ih =>
    obtain ⟨hb, hbs⟩ := forall_mem_cons.mp some
    rw [Transform.blocks, flatMap_cons, ← ih hbs, ← encode_eq hb]
    rfl

/-- `out` is a complete chunked body of `src`: it is read back as `src`, and it is made of nonempty chunks
and one last chunk. -/
structure Transfer (src out : List UInt8) : Prop where
  decodes : Chunked.decode out = some src
  terminated : ∃ chunks : List (List UInt8), (∀ c ∈ chunks, c ≠ []) ∧ chunks.flatten = src ∧
    out = chunks.flatMap Chunked.chunk ++ Chunked.lastChunk

lemma recognizes (resultSize : UInt32) (src : List UInt8) :
    Pump.Recognizes (transform resultSize) () src (Transfer src) where
  whole bs some source := by
    rw [blocks_eq resultSize some]
    refine ⟨?_, bs, some, source, rfl⟩
    rw [← source]
    exact Chunked.decode_chunks some
  cut bs k some source less := by
    rw [blocks_eq resultSize some]
    intro t
    have none := t.decodes
    rw [show ((transform resultSize).ending _).take k = Chunked.lastChunk.take k from rfl,
      Chunked.decode_cut some less] at none
    cases none

lemma length_encode {block : List UInt8} (some : block ≠ []) :
    (encode block).length = block.length + 4 + (Chunked.hex block.length).length := by
  rw [encode_eq some, Chunked.length_chunk]

/-- The length of the chunks of `n` bytes, by default 507 for each full one. -/
def chunksLength (n : Nat) : Nat :=
  507 * (n / 500) + if n % 500 = 0 then 0 else n % 500 + 4 + (Chunked.hex (n % 500)).length

lemma length_whole {i : Nat} {data : List UInt8} (h : data.length ≤ i * 500) :
    ((transform defaultResultSize).whole i () data).1.length = chunksLength data.length := by
  unfold chunksLength
  by_cases nil : data = []
  · rw [nil, Transform.whole_nil]
    rfl
  have some : data.length ≠ 0 := mt List.length_eq_zero_iff.mp nil
  induction i generalizing data with
  | zero => omega
  | succ i ih =>
    rw [Transform.whole_succ _ nil, List.length_append]
    change (encode (data.take 500)).length +
      ((transform defaultResultSize).whole i () (data.drop 500)).1.length = _
    by_cases full : 500 ≤ data.length
    · have size : (data.take 500).length = 500 := by
        rw [length_take]
        omega
      have digits : (Chunked.hex 500).length = 3 := by decide
      rw [length_encode (ne_nil_of_length_pos (by omega)), size, digits]
      by_cases last : data.drop 500 = []
      · have len := drop_eq_nil_iff.mp last
        rw [last, Transform.whole_nil, show data.length = 500 by omega]
        rfl
      · have shorter : (data.drop 500).length = data.length - 500 := length_drop
        rw [ih (by omega) last (mt List.length_eq_zero_iff.mp last), shorter,
          show data.length / 500 = (data.length - 500) / 500 + 1 by omega,
          show data.length % 500 = (data.length - 500) % 500 by omega]
        omega
    · rw [take_of_length_le (by omega), drop_eq_nil_of_le (by omega), Transform.whole_nil,
        length_encode nil, Nat.div_eq_of_lt (by omega), Nat.mod_eq_of_lt (by omega), if_neg some]
      simp

lemma cut_iff (n : Nat) :
    chunksLength n ≤ tempCapacity ∧ tempCapacity < chunksLength n + Chunked.lastChunk.length ↔
      1010 ≤ n ∧ n ≤ 1014 := by
  have less := Nat.mod_lt n (show 0 < 500 by decide)
  have one := @Chunked.length_hex_le_iff (n % 500) 1 (by decide)
  have three := @Chunked.length_hex_le_iff (n % 500) 3 (by decide)
  have pos := Chunked.length_hex_pos (n % 500)
  have split := Nat.div_add_mod n 500
  rw [show tempCapacity = 1033 from rfl, show Chunked.lastChunk.length = 5 from rfl, chunksLength]
  split <;> omega

lemma small : (transform defaultResultSize).Small := by
  refine ⟨by decide, fun st block h => ?_⟩
  change block.length ≤ 500 at h
  change (encode block).length ≤ 1033
  by_cases nil : block = []
  · rw [nil]
    decide
  · have three := (@Chunked.length_hex_le_iff block.length 3 (by decide)).mpr (by omega)
    rw [length_encode nil]
    omega

variable {S : Type}

/-- A read that fills the intermediate buffer finds something, and does not get to its end when it is 1010 to 1014
bytes. -/
def TerminatorFits (rest : S → List UInt8) (p : Pump S Unit) (bufSize : Nat) : Prop :=
  p.temp.isFinished = true →
    rest p.stream.sourceStream ≠ [] ∧
      ¬ (1010 ≤ (rest p.stream.sourceStream).length ∧ (rest p.stream.sourceStream).length ≤ 1014 ∧
        (rest p.stream.sourceStream).length ≤ bufSize)

lemma fits_iff {rest : S → List UInt8} {p : Pump S Unit} (valid : p.temp.Valid) (bufSize : Nat) :
    p.Fits (transform defaultResultSize) rest bufSize ↔ TerminatorFits rest p bufSize := by
  unfold Pump.Fits TerminatorFits
  rw [valid.isFinished_iff]
  apply imp_congr_right
  intro _
  by_cases nil : rest p.stream.sourceStream = []
  · rw [if_pos nil]
    exact iff_of_false (cons_ne_nil _ _) fun h => h.1 nil
  · have cut := cut_iff (rest p.stream.sourceStream).length
    have length : ((p.flow rest).all (transform defaultResultSize)).1.length =
        chunksLength (rest p.stream.sourceStream).length := length_whole (by omega)
    rw [if_neg nil, Flow.Drains, length]
    change _ → _ + Chunked.lastChunk.length ≤ _ ↔ _
    simp only [ne_eq, nil, not_false_eq_true, true_and]
    omega

variable [IDataSourceStream S] {WF : S → Prop} {rest : S → List UInt8}

/-- For every source and sizes of reads the reader stops, and has then got a complete chunked body of the source
exactly if every read met the condition. -/
theorem chunked_stream_transfers_iff (full : Full S WF rest) {source : S} (wf : WF source)
    {sizes : Nat → Nat} (pos : ∀ i, 0 < sizes i) :
    ∃ n p, Run (Pump.pump (transform defaultResultSize)) Always (Pump.start source ())
        ((range n).map sizes) p ∧ p.Finished ∧ (Transfer (rest source) p.out ↔
        Run (Pump.pump (transform defaultResultSize)) (TerminatorFits rest) (Pump.start source ())
          ((range n).map sizes) p) := by
  apply Pump.pump_complete_iff full (by decide) small wf (recognizes _ _) ?_ pos
  intro p b inv _
  exact fits_iff inv.1.valid b

theorem chunked_stream_transfers_iff_greeting :
    ∃ n p, Run (Pump.pump (transform defaultResultSize)) Always
        (Pump.start (MemoryDataStream.holding [72, 105]) ()) ((range n).map fun _ => 4) p ∧
      p.Finished ∧ (Transfer [72, 105] p.out ↔
        Run (Pump.pump (transform defaultResultSize)) (TerminatorFits MemoryDataStream.unread)
          (Pump.start (MemoryDataStream.holding [72, 105]) ()) ((range n).map fun _ => 4) p) :=
  chunked_stream_transfers_iff MemoryDataStream.full (.holding [72, 105]) fun _ => by decide

/-- A reader of a source without content gets nothing, not even the last chunk. -/
theorem chunked_stream_without_terminator :
    ¬ ∀ (source : MemoryDataStream) (sizes : Nat → Nat), source.WF → (∀ i, 0 < sizes i) →
      ∀ n p, Run (Pump.pump (transform defaultResultSize)) Always (Pump.start source ())
        ((range n).map sizes) p → p.Finished → Transfer source.unread p.out := by
  intro all
  obtain ⟨p, done, finished, out⟩ : ∃ p, exec (Pump.pump (transform defaultResultSize)) Always
      (Pump.start ({} : MemoryDataStream) ()) [1] = some p ∧ p.Finished ∧ p.out = [] :=
    exists_exec (by decide +kernel)
  have t := all {} (fun _ => 1) .new (fun _ => by decide) 1 p (exec_run done) finished
  have none := t.decodes
  rw [out] at none
  cases none

end ChunkedStream

end Sming.Data
