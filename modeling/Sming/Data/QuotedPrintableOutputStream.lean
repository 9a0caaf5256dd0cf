import Sming.Data.Base64OutputStream
import Sming.Data.ChunkedStream

/-!
# The quoted-printable stream, and the result buffer of the transformers

Embedding of `Sming/SmingCore/Data/Stream/QuotedPrintableOutputStream.cpp`. It is the third and last
transformer of the framework. Every one of them writes the code of a block to an array of `resultSize` bytes
without looking at the size; `TransformCall` is such a call, and `transform_result_fits_iff` says which
ones stay inside the array. The chunked and the base64 stream do for every size that makes sense.
A quoted-printable block of half the size does not when too many of its bytes are escaped.
-/

namespace Sming.Data

open Services Lib IDataSourceStream List

namespace QuotedPrintableOutputStream

def hex : List UInt8 := [48, 49, 50, 51, 52, 53, 54, 55, 56, 57, 65, 66, 67, 68, 69, 70]

/-- A byte that stands for itself: a blank or a printable character other than `=`. -/
def Literal (byte : UInt8) : Prop := byte = 32 ∨ 33 ≤ byte ∧ byte ≤ 126 ∧ byte ≠ 61

instance (byte : UInt8) : Decidable (Literal byte) := inferInstanceAs (Decidable (_ ∨ _))

def quotedPrintableTransformer (source : List UInt8) : List UInt8 :=
  source.flatMap fun byte =>
    if Literal byte then [byte]
    else [61, hex.getD ((byte >>> 4) &&& 0x0f).toNat 0, hex.getD (byte &&& 0x0f).toNat 0]

/-- (C++ `QuotedPrintableOutputStream::QuotedPrintableOutputStream`, with a result buffer of `resultSize` bytes.) -/
def transform (resultSize : UInt32) : Transform Unit where
  blockSize := (resultSize / 2).toNat
  callback _ block := (quotedPrintableTransformer block, ())

def escapes (source : List UInt8) : Nat := source.countP fun byte => !decide (Literal byte)

lemma length_quotedPrintableTransformer (source : List UInt8) :
    (quotedPrintableTransformer source).length = source.length + 2 * escapes source := by
  unfold quotedPrintableTransformer escapes
  induction source with
  | nil => rfl
  | cons byte source ih =>
    rw [flatMap_cons, List.length_append, ih, countP_cons, length_cons]
    by_cases literal : Literal byte
    · simp only [literal, if_true, List.length_singleton, decide_true, Bool.not_true, Bool.false_eq_true, if_false]
      omega
    · simp only [literal, if_false, length_cons, length_nil, decide_false, Bool.not_false, if_true]
      omega

def defaultResultSize : UInt32 := 512

end QuotedPrintableOutputStream

/-- A call of the transform callback of one of the streams, with its encoder. -/
inductive TransformCall where
  | chunked
  | base64 (state : Base64Encodestate)
  | quotedPrintable
  deriving Repr, DecidableEq

namespace TransformCall

/-- The block size the constructor derives from the size of the result buffer. -/
def blockSize (resultSize : UInt32) : TransformCall → Nat
  | chunked => (ChunkedStream.transform resultSize).blockSize
  | base64 _ => (Base64OutputStream.transform resultSize).blockSize
  | quotedPrintable => (QuotedPrintableOutputStream.transform resultSize).blockSize

def result (resultSize : UInt32) (block : List UInt8) : TransformCall → List UInt8
  | chunked => ((ChunkedStream.transform resultSize).callback () block).1
  | base64 state => ((Base64OutputStream.transform resultSize).callback state block).1
  | quotedPrintable => ((QuotedPrintableOutputStream.transform resultSize).callback () block).1

def Fits (resultSize : UInt32) (block : List UInt8) : TransformCall → Prop
  | chunked => 12 ≤ resultSize.toNat ∨ block.length + 5 ≤ resultSize.toNat
  | base64 state =>
    3 ≤ resultSize.toNat ∨ state.step = .stepA ∨ state.step = .stepC ∧ resultSize.toNat = 2
  | quotedPrintable =>
    block.length + 2 * QuotedPrintableOutputStream.escapes block ≤ resultSize.toNat

variable {resultSize : UInt32} {block : List UInt8}

lemma chunked_fits_iff (h : block.length ≤ chunked.blockSize resultSize) :
    (chunked.result resultSize block).length ≤ resultSize.toNat ↔ chunked.Fits resultSize block := by
  have less := resultSize.toNat_lt
  change (ChunkedStream.encode block).length ≤ _ ↔ 12 ≤ resultSize.toNat ∨ _
  by_cases nil : block = []
  · rw [nil, ChunkedStream.encode_nil]
    change 5 ≤ _ ↔ _ ∨ 5 ≤ _
    omega
  · rw [ChunkedStream.length_encode nil]
    by_cases large : 12 ≤ resultSize.toNat
    · have size : (resultSize - 12).toNat = resultSize.toNat - 12 := UInt32.toNat_sub_of_le _ _ large
      change block.length ≤ (resultSize - 12).toNat at h
      have eight := (@Chunked.length_hex_le_iff block.length 8 (by decide)).mpr (by omega)
      omega
    · have pos := Chunked.length_hex_pos block.length
      have one := @Chunked.length_hex_le_iff block.length 1 (by decide)
      omega

lemma base64_fits_iff {state : Base64Encodestate} (h : block.length ≤ (base64 state).blockSize resultSize) :
    ((base64 state).result resultSize block).length ≤ resultSize.toNat ↔ (base64 state).Fits resultSize block := by
  change block.length ≤ resultSize.toNat / 4 at h
  change (Base64OutputStream.encode state block).1.length ≤ _ ↔ _
  by_cases nil : block = []
  · subst nil
    change (base64EncodeBlockend state).length ≤ _ ↔ _
    rw [base64EncodeBlockend_length]
    cases e : state.step with
    | stepA => exact iff_of_true (Nat.zero_le _) (.inr (.inl e))
    | stepB =>
      change 3 ≤ resultSize.toNat ↔ _
      simp [Fits, e]
    | stepC =>
      change 2 ≤ resultSize.toNat ↔ _
      simp only [Fits, e, reduceCtorEq, false_or, true_and]
      omega
  · have some := length_pos_iff.mpr nil
    have length := base64EncodeBlock_length_le block state
    have index := state.step.index_le
    rw [Base64OutputStream.encode_eq nil]
    exact iff_of_true (by omega) (.inl (by omega))

/-- For every buffer, encoder and block of at most the block size the code stays inside the result buffer exactly
under the condition. -/
theorem transform_result_fits_iff (call : TransformCall) (h : block.length ≤ call.blockSize resultSize) :
    (call.result resultSize block).length ≤ resultSize.toNat ↔ call.Fits resultSize block := by
  cases call with
  | chunked => exact chunked_fits_iff h
  | base64 state => exact base64_fits_iff h
  | quotedPrintable =>
    change (QuotedPrintableOutputStream.quotedPrintableTransformer block).length ≤ _ ↔ _
    rw [QuotedPrintableOutputStream.length_quotedPrintableTransformer]
    exact Iff.rfl

theorem transform_result_fits_iff_letter :
    (quotedPrintable.result 4 [65, 66]).length ≤ 4 ↔ quotedPrintable.Fits 4 [65, 66] :=
  transform_result_fits_iff quotedPrintable (by decide)

/-- A block of `=` is as long as the block size allows and three times as long when it is escaped. -/
theorem transform_result_overrun :
    ¬ ∀ (call : TransformCall) (resultSize : UInt32) (block : List UInt8),
      block.length ≤ call.blockSize resultSize → (call.result resultSize block).length ≤ resultSize.toNat := by
  intro all
  have fits := all quotedPrintable 512 (List.replicate 256 61) (by decide +kernel)
  exact absurd fits (by decide +kernel)

end TransformCall

end Sming.Data
