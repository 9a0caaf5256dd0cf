import Mathlib.Data.Nat.Cast.Basic
import Sming.Lib.Memory
import Sming.Lib.Rfc6455

/-!
# Sending websocket frames

Model of `encodeFrame` and of the array of `send` in `SmingCore/Network/Http/Websocket/WebsocketConnection.cpp`.
`outData` is the memory from the address of the output buffer on, so a store behind the buffer would be seen. The
frame is built in place: the header is cleared, flags and lengths are or-ed in, then key and payload follow.
-/

namespace Sming.Network.Http
open Sming.Lib Rfc6455
open Sming.Lib.Rfc6455 (Frame decode encode)

inductive WsFrameType where
  | text
  | binary
  | close
  | ping
  | pong
  deriving DecidableEq, Repr

/-- An opcode has four bits; this is about the zero that a numeral of `Fin` asks for. -/
instance neZero_opcode : @NeZero Nat Zero.ofOfNat0 16 := ⟨by decide⟩

def WsFrameType.opcode : WsFrameType → Fin 16
  | .text => 0x1
  | .binary => 0x2
  | .close => 0x8
  | .ping => 0x9
  | .pong => 0xA

def WsFrameType.ofOpcode (opcode : Fin 16) : Option WsFrameType :=
  [text, binary, close, ping, pong].find? fun type => type.opcode = opcode

lemma WsFrameType.ofOpcode_opcode (type : WsFrameType) : ofOpcode type.opcode = some type := by
  cases type <;> decide

/-- `outData` and the index `i`. -/
structure FrameBuffer where
  outData : Nat → UInt8
  i : Nat := 0

namespace FrameBuffer

variable (b : FrameBuffer)

/-- `outData[i] |= c`. -/
def or (c : UInt8) : FrameBuffer :=
  { b with outData := Function.update b.outData b.i (b.outData b.i ||| c) }

/-- `i++`. -/
def next : FrameBuffer := { b with i := b.i + 1 }

/-- `outData[i++] = c`. -/
def put (c : UInt8) : FrameBuffer :=
  { outData := Function.update b.outData b.i c, i := b.i + 1 }

/-- `memcpy(&outData[i], inData, inLength)` and `i += inLength`. -/
def copy (inData : List UInt8) : FrameBuffer :=
  { outData := store b.outData b.i inData, i := b.i + inData.length }

/-- The loop over the payload, from index `x` on. -/
def putMasked (b : FrameBuffer) (maskKey : Vector UInt8 4) (x : Nat) : List UInt8 → FrameBuffer
  | [] => b
  | c :: inData => (b.put (c ^^^ maskKey[x % 4])).putMasked maskKey (x + 1) inData

/-- The part of `encodeFrame` that writes the length. -/
def putLength (inLength : Nat) : FrameBuffer :=
  if inLength < 126 then (b.or (UInt8.ofNat inLength)).next
  else
    let b := (b.or 126).next
    let b := b.put (UInt8.ofNat ((inLength >>> 8) &&& 0xFF))
    b.put (UInt8.ofNat (inLength &&& 0xFF))

def putPayload (useMask : Bool) (maskKey : Vector UInt8 4) (inData : List UInt8) : FrameBuffer :=
  if useMask then (maskKey.toList.foldl put b).putMasked maskKey 0 inData else b.copy inData

end FrameBuffer

def headerLength (inLength : Nat) (useMask : Bool) : Nat :=
  (if 125 < inLength then 4 else 2) + if useMask then 4 else 0

def maskKey (random : Vector UInt32 4) : Vector UInt8 4 := random.map UInt32.toUInt8

/-- The number of bytes and the memory afterwards. The sum of the lengths
does not wrap, since the payload is short. -/
def encodeFrame (type : WsFrameType) (inData : List UInt8) (outData : Nat → UInt8) (outLength : Nat)
    (useMask isFin : Bool) (random : Vector UInt32 4) : Nat × (Nat → UInt8) :=
  let inLength := inData.length
  if 0xFFFF < inLength then (0, outData)
  else if outLength < headerLength inLength useMask + inLength then (0, outData)
  else
    let b : FrameBuffer := { outData := store outData 0 (List.replicate (headerLength inLength useMask) 0) }
    let b := if isFin then b.or 0x80 else b
    let b := (b.or (UInt8.ofNat type.opcode)).next
    let b := if useMask then b.or 0x80 else b
    let b := (b.putLength inLength).putPayload useMask (maskKey random) inData
    (b.i, b.outData)

/-- The size of the array that `send` allocates. -/
def bufferLength (length : Nat) : Nat := length + 1 + 4 + 4

/-! ### Building the frame -/

structure At (m : Nat → UInt8) (written left : List UInt8) (b : FrameBuffer) : Prop where
  outData : b.outData = store m 0 (written ++ left)
  i : b.i = written.length

namespace At

variable {m : Nat → UInt8} {written left : List UInt8} {b : FrameBuffer} {x c : UInt8}

section
variable (h : At m written (x :: left) b)
include h

lemma split : b.outData = store (Function.update (store m 0 written) b.i x) (b.i + 1) left := by
  rw [h.outData, store_append, store, h.i]
  simp

lemma update : Function.update b.outData b.i c = store m 0 (written ++ c :: left) := by
  have apart : ∀ i < left.length, b.i ≠ b.i + 1 + (i : Nat) := by
    intro i _
    omega
  rw [h.split, update_store apart, Function.update_idem, store_append, store, h.i]
  simp

lemma read : b.outData b.i = x := by
  rw [h.split, store_of_ne, Function.update_self]
  intro i _
  simp
  omega

lemma or (c : UInt8) : At m written ((x ||| c) :: left) (b.or c) where
  outData := by
    rw [FrameBuffer.or, h.read]
    exact h.update
  i := h.i

lemma next : At m (written ++ [x]) left b.next where
  outData := by
    rw [List.append_assoc]
    exact h.outData
  i := by
    rw [FrameBuffer.next, h.i, List.length_append]
    rfl

lemma put (c : UInt8) : At m (written ++ [c]) left (b.put c) where
  outData := by
    rw [List.append_assoc]
    exact h.update
  i := by
    rw [FrameBuffer.put, h.i, List.length_append]
    rfl

end

lemma copy (h : At m written [] b) (inData : List UInt8) : At m (written ++ inData) [] (b.copy inData) where
  outData := by
    rw [FrameBuffer.copy, h.outData, List.append_nil, List.append_nil, store_append, h.i]
    simp
  i := by rw [FrameBuffer.copy, h.i, List.length_append]

lemma putMasked (h : At m written [] b) (key : Vector UInt8 4) (x : Nat) (inData : List UInt8) :
    At m (written ++ inData.mapIdx fun i c => c ^^^ key[(x + i) % 4]) [] (b.putMasked key x inData) := by
  induction inData generalizing written b x with
  | nil => rwa [List.mapIdx_nil, List.append_nil]
  | cons c inData ih =>
    have rest := ih (h.copy [c ^^^ key[x % 4]]) (x + 1)
    rw [List.mapIdx_cons, List.append_cons]
    simp only [Nat.add_assoc x, Nat.add_comm 1] at rest
    exact rest

lemma putAll {bytes : List UInt8} (h : At m written left b) (length : left.length = bytes.length) :
    At m (written ++ bytes) [] (bytes.foldl FrameBuffer.put b) := by
  induction bytes generalizing written left b with
  | nil =>
    obtain rfl := List.length_eq_zero_iff.mp length
    rwa [List.append_nil]
  | cons c bytes ih =>
    obtain ⟨x, left, rfl⟩ := List.exists_cons_of_length_eq_add_one length
    rw [List.append_cons]
    exact ih (h.put c) (Nat.succ.inj length)

lemma orIf (h : At m written (x :: left) b) (flag : Bool) (c : UInt8) :
    At m written ((x ||| if flag then c else 0) :: left) (if flag then b.or c else b) := by
  cases flag with
  | true => exact h.or c
  | false =>
    rw [if_neg Bool.false_ne_true, if_neg Bool.false_ne_true, UInt8.or_zero]
    exact h

end At

def frame (type : WsFrameType) (inData : List UInt8) (useMask isFin : Bool) (random : Vector UInt32 4) : Frame where
  fin := isFin
  opcode := type.opcode
  maskKey := if useMask then some (maskKey random) else none
  payload := inData

lemma firstByte_eq (isFin : Bool) (type : WsFrameType) :
    (0 ||| if isFin then 0x80 else 0) ||| UInt8.ofNat type.opcode = firstByte isFin type.opcode := by
  cases isFin <;> cases type <;> decide

variable {n : Nat}

lemma secondByte_eq (useMask : Bool) (h : n < 128) :
    (0 ||| if useMask then 0x80 else 0) ||| UInt8.ofNat n = UInt8.ofNat ((if useMask then 128 else 0) + n) := by
  apply UInt8.toNat_inj.mp
  have small : n % 2 ^ 8 = n := Nat.mod_eq_of_lt (by omega)
  cases useMask with
  | false => simp
  | true =>
    have sum : 128 + n = 128 ||| n := Nat.two_pow_add_eq_or_of_lt (i := 7) h 1
    rw [UInt8.toNat_or, UInt8.toNat_ofNat', UInt8.toNat_ofNat', small]
    change 128 ||| n = (128 + n) % 2 ^ 8
    omega

lemma ofNat_and (n : Nat) : UInt8.ofNat (n &&& 0xFF) = UInt8.ofNat n := by
  apply UInt8.toNat_inj.mp
  rw [UInt8.toNat_ofNat', UInt8.toNat_ofNat', show (0xFF : Nat) = 2 ^ 8 - 1 from rfl,
    Nat.and_two_pow_sub_one_eq_mod, Nat.mod_mod]

lemma digits_two (n : Nat) : digits 2 n = [UInt8.ofNat ((n >>> 8) &&& 0xFF), UInt8.ofNat (n &&& 0xFF)] := by
  rw [ofNat_and, ofNat_and, Nat.shiftRight_eq_div_pow]
  rfl

lemma At.putLength {m : Nat → UInt8} {first : UInt8} {left : List UInt8} {b : FrameBuffer}
    (useMask : Bool) (short : ¬ 0xFFFF < n) (h : At m [first] ((0 ||| if useMask then 0x80 else 0) ::
      (List.replicate (extendedLength n).length 0 ++ left)) b) :
    At m (first :: secondByte useMask n :: extendedLength n) left (b.putLength n) := by
  rw [FrameBuffer.putLength, secondByte, shortLength]
  rw [extendedLength] at h ⊢
  by_cases small : n < 126
  · simp only [if_pos small] at h ⊢
    rw [← secondByte_eq useMask (by omega)]
    exact (h.or (UInt8.ofNat n)).next
  · have medium : n < 65536 := by omega
    simp only [if_neg small, if_pos medium, digits_two] at h ⊢
    rw [← secondByte_eq useMask (by decide)]
    exact ((h.or 126).next.put _).put _

variable {useMask : Bool}

lemma At.putPayload {m : Nat → UInt8} {written left : List UInt8} {b : FrameBuffer}
    (h : At m written left b) (key : Vector UInt8 4) (inData : List UInt8)
    (length : left.length = if useMask then 4 else 0) :
    At m (written ++ ((if useMask then some key else none).elim [] Vector.toList ++
      Rfc6455.mask (if useMask then some key else none) inData)) [] (b.putPayload useMask key inData) := by
  rw [FrameBuffer.putPayload]
  cases useMask with
  | true =>
    have keyed := h.putAll (length.trans key.length_toList.symm)
    have masked := keyed.putMasked key 0 inData
    simp only [Nat.zero_add, List.append_assoc] at masked
    exact masked
  | false =>
    obtain rfl := List.length_eq_zero_iff.mp length
    exact h.copy inData

lemma headerLength_eq (short : ¬ 0xFFFF < n) (useMask : Bool) :
    headerLength n useMask = (extendedLength n).length + (if useMask then 4 else 0) + 2 := by
  rw [headerLength, extendedLength]
  by_cases small : n < 126
  · rw [if_pos small, if_neg (by omega : ¬ 125 < n), List.length_nil]
    omega
  · rw [if_neg small, if_pos (by omega : 125 < n), if_pos (by omega : n < 65536), length_digits]
    omega

variable {inData : List UInt8} {type : WsFrameType} {isFin : Bool} {random : Vector UInt32 4}

lemma length_encode_frame (short : ¬ 0xFFFF < inData.length) :
    (encode (frame type inData useMask isFin random)).length =
      headerLength inData.length useMask + inData.length := by
  rw [length_encode, headerLength_eq short, frame]
  cases useMask <;> rfl

lemma encodeFrame_stores (type : WsFrameType) (outData : Nat → UInt8) {outLength : Nat}
    (useMask isFin : Bool) (random : Vector UInt32 4) (short : ¬ 0xFFFF < inData.length)
    (fits : ¬ outLength < headerLength inData.length useMask + inData.length) :
    encodeFrame type inData outData outLength useMask isFin random =
      (headerLength inData.length useMask + inData.length,
        store outData 0 (encode (frame type inData useMask isFin random))) := by
  have start : At outData [] (0 :: 0 :: (List.replicate (extendedLength inData.length).length 0 ++
      List.replicate (if useMask then 4 else 0) 0))
      { outData := store outData 0 (List.replicate (headerLength inData.length useMask) 0) } := by
    refine ⟨?_, rfl⟩
    rw [headerLength_eq short, List.replicate_append_replicate]
    rfl
  have first := ((start.orIf isFin 0x80).or (UInt8.ofNat type.opcode)).next
  rw [firstByte_eq, List.nil_append] at first
  have header := At.putLength useMask short (first.orIf useMask 0x80)
  have whole := header.putPayload (maskKey random) inData (List.length_replicate ..)
  have bytes : encode (frame type inData useMask isFin random) = firstByte isFin type.opcode ::
      secondByte useMask inData.length :: extendedLength inData.length ++
      ((if useMask then some (maskKey random) else none).elim [] Vector.toList ++
        Rfc6455.mask (if useMask then some (maskKey random) else none) inData) := by
    rw [encode, Rfc6455.header, frame]
    cases useMask <;> simp
  rw [← bytes] at whole
  simp only [encodeFrame, if_neg short, if_neg fits]
  rw [whole.i, whole.outData, List.append_nil, length_encode_frame short]

/-- What the bytes of the frame are read as. -/
structure Decodes (type : WsFrameType) (inData : List UInt8) (useMask isFin : Bool) (random : Vector UInt32 4)
    (bytes : List UInt8) (f : Frame) : Prop where
  decoded : decode bytes = some (f, [])
  type : WsFrameType.ofOpcode f.opcode = some type
  fin : f.fin = isFin
  mask : f.maskKey = if useMask then some (maskKey random) else none
  payload : f.payload = inData

lemma decodes_frame (outData : Nat → UInt8) (short : ¬ 0xFFFF < inData.length) :
    Decodes type inData useMask isFin random
      (load (store outData 0 (encode (frame type inData useMask isFin random))) 0
        (headerLength inData.length useMask + inData.length)) (frame type inData useMask isFin random) := by
  refine ⟨?_, type.ofOpcode_opcode, rfl, rfl, rfl⟩
  have small : (frame type inData useMask isFin random).payload.length < 2 ^ 63 := by
    change inData.length < 2 ^ 63
    omega
  have back := decode_encode _ small []
  rw [List.append_nil] at back
  rw [← length_encode_frame short, load_store, back]
  intro i _ j _ same
  simpa using same

lemma headerLength_pos (n : Nat) (useMask : Bool) : 0 < headerLength n useMask := by
  rw [headerLength]
  split <;> omega

lemma headerLength_le (n : Nat) (useMask : Bool) : headerLength n useMask ≤ 8 := by
  rw [headerLength]
  split <;> split <;> decide

/-- The answer is 0 exactly if the payload is too long or does not fit, and nothing is written; otherwise it is the
length of header and payload, nothing behind is written, and the bytes decode to what was given. The array that `send`
allocates is always large enough. -/
theorem encodeFrame_decodes (type : WsFrameType) (inData : List UInt8) (outData : Nat → UInt8) (outLength : Nat)
    (useMask isFin : Bool) (random : Vector UInt32 4) :
    (∃ length memory, encodeFrame type inData outData outLength useMask isFin random = (length, memory) ∧
      (length = 0 ↔ 0xFFFF < inData.length ∨ outLength < headerLength inData.length useMask + inData.length) ∧
      (length = 0 → memory = outData) ∧ (length ≠ 0 → length = headerLength inData.length useMask + inData.length ∧
        (∀ a, length ≤ a → memory a = outData a) ∧
        ∃ f, Decodes type inData useMask isFin random (load memory 0 length) f)) ∧
    headerLength inData.length useMask + inData.length ≤ bufferLength inData.length := by
  constructor
  · by_cases long : 0xFFFF < inData.length
    · exact ⟨0, outData, if_pos long, iff_of_true rfl (.inl long), fun _ => rfl, fun h => absurd rfl h⟩
    by_cases full : outLength < headerLength inData.length useMask + inData.length
    · refine ⟨0, outData, ?_, iff_of_true rfl (.inr full), fun _ => rfl, fun h => absurd rfl h⟩
      simp only [encodeFrame, if_neg long, if_pos full]
    · have pos := headerLength_pos inData.length useMask
      refine ⟨_, _, encodeFrame_stores type outData useMask isFin random long full, ?_, fun h => ?_, fun _ => ?_⟩
      · exact iff_of_false (by omega) (not_or.mpr ⟨long, full⟩)
      · omega
      · refine ⟨rfl, fun a le => ?_, _, decodes_frame outData long⟩
        apply store_of_ne
        intro i less
        rw [length_encode_frame long] at less
        simp only [Nat.cast_id, Nat.zero_add]
        omega
  · have room := headerLength_le inData.length useMask
    rw [bufferLength]
    omega

end Sming.Network.Http
