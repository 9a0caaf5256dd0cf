import Mathlib.Algebra.Group.Nat.Defs
import Mathlib.Data.List.Basic

/-!
# Websocket frames

The base framing of RFC 6455, section 5.2: `encode` writes a frame and `decode` reads one from the front of a
byte sequence. The decoder is strict: reserved bits are zero and a length has its shortest form.
`decode_encode` says that what is written is read back, whatever follows it.
-/

namespace Sming.Lib.Rfc6455

/-- A frame; the key is present exactly if the payload is masked on the wire. -/
structure Frame where
  fin : Bool
  opcode : Fin 16
  maskKey : Option (Vector UInt8 4)
  payload : List UInt8
  deriving DecidableEq, Repr

/-! ### Numbers -/

def number (bs : List UInt8) : Nat := bs.foldl (fun n b => n * 256 + b.toNat) 0

/-- The last `width` digits of a number, in network byte order. -/
def digits : Nat → Nat → List UInt8
  | 0, _ => []
  | width + 1, n => digits width (n / 256) ++ [UInt8.ofNat n]

lemma length_digits (width n : Nat) : (digits width n).length = width := by
  induction width generalizing n with
  | zero => rfl
  | succ width ih => rw [digits, List.length_append, ih, List.length_singleton]

lemma number_digits {width n : Nat} (h : n < 256 ^ width) : number (digits width n) = n := by
  induction width generalizing n with
  | zero => exact (Nat.lt_one_iff.mp h).symm
  | succ width ih =>
    have less : n / 256 < 256 ^ width := by
      rw [Nat.pow_succ] at h
      exact Nat.div_lt_of_lt_mul (by omega)
    have before := ih less
    rw [number] at before
    rw [digits, number, List.foldl_append, before]
    simp only [List.foldl_cons, List.foldl_nil, UInt8.toNat_ofNat']
    omega

/-! ### The header -/

/-- The seven bits of the second byte that tell the length or its width. -/
def shortLength (n : Nat) : Nat := if n < 126 then n else if n < 65536 then 126 else 127

def extendedLength (n : Nat) : List UInt8 :=
  if n < 126 then [] else if n < 65536 then digits 2 n else digits 8 n

/-- Reads the length that belongs to the seven bits. -/
def takeLength (short : Nat) (bs : List UInt8) : Option (Nat × List UInt8) :=
  if short < 126 then some (short, bs)
  else
    let width := if short = 126 then 2 else 8
    let least := if short = 126 then 126 else 65536
    let n := number (bs.take width)
    if bs.length < width ∨ n < least ∨ 2 ^ 63 ≤ n then none else some (n, bs.drop width)

def takeKey (masked : Bool) (bs : List UInt8) : Option (Option (Vector UInt8 4) × List UInt8) :=
  if masked then
    match bs with
    | a :: b :: c :: d :: rest => some (some #v[a, b, c, d], rest)
    | _ => none
  else some (none, bs)

/-- The payload with the key applied; applied twice it is the payload again. -/
def mask (maskKey : Option (Vector UInt8 4)) (payload : List UInt8) : List UInt8 :=
  maskKey.elim payload fun key => payload.mapIdx fun i c => c ^^^ key[i % 4]

def firstByte (fin : Bool) (opcode : Fin 16) : UInt8 := UInt8.ofNat ((if fin then 128 else 0) + opcode)

def secondByte (masked : Bool) (n : Nat) : UInt8 := UInt8.ofNat ((if masked then 128 else 0) + shortLength n)

def header (f : Frame) : List UInt8 :=
  firstByte f.fin f.opcode :: secondByte f.maskKey.isSome f.payload.length ::
    extendedLength f.payload.length ++ f.maskKey.elim [] Vector.toList

def encode (f : Frame) : List UInt8 := header f ++ mask f.maskKey f.payload

def decode : List UInt8 → Option (Frame × List UInt8)
  | first :: second :: rest =>
    if first.toNat % 128 / 16 ≠ 0 then none
    else
      (takeLength (second.toNat % 128) rest).bind fun l =>
      (takeKey (128 ≤ second.toNat) l.2).bind fun k =>
        if k.2.length < l.1 then none
        else
          some (
            { fin := 128 ≤ first.toNat
              opcode := Fin.ofNat 16 first.toNat
              maskKey := k.1
              payload := mask k.1 (k.2.take l.1) },
            k.2.drop l.1)
  | _ => none

/-! ### What is written is read back -/

lemma shortLength_lt (n : Nat) : shortLength n < 128 := by
  rw [shortLength]
  split
  · omega
  · split <;> omega

lemma takeLength_extendedLength {n : Nat} (h : n < 2 ^ 63) (rest : List UInt8) :
    takeLength (shortLength n) (extendedLength n ++ rest) = some (n, rest) := by
  have wide : ∀ width, n < 256 ^ width →
      number ((digits width n ++ rest).take width) = n ∧ (digits width n ++ rest).drop width = rest := by
    intro width less
    rw [List.take_left' (length_digits width n), List.drop_left' (length_digits width n)]
    exact ⟨number_digits less, rfl⟩
  rw [takeLength, shortLength, extendedLength]
  by_cases short : n < 126
  · rw [if_pos short, if_pos short, if_pos short, List.nil_append]
  by_cases medium : n < 65536
  · obtain ⟨value, left⟩ := wide 2 (by omega)
    simp only [if_neg short, if_pos medium, if_neg (show ¬ 126 < 126 by decide), if_true, value, left]
    rw [if_neg]
    rw [List.length_append, length_digits]
    omega
  · obtain ⟨value, left⟩ := wide 8 (by omega)
    simp only [if_neg short, if_neg medium, if_neg (show ¬ 127 < 126 by decide),
      if_neg (show ¬ 127 = 126 by decide), value, left]
    rw [if_neg]
    rw [List.length_append, length_digits]
    omega

lemma takeKey_toList (maskKey : Option (Vector UInt8 4)) (rest : List UInt8) :
    takeKey maskKey.isSome (maskKey.elim [] Vector.toList ++ rest) = some (maskKey, rest) := by
  cases maskKey with
  | none => rfl
  | some key =>
    obtain ⟨⟨bytes⟩, size⟩ := key
    obtain ⟨a, b, c, d, rfl⟩ := List.length_eq_four.mp size
    rfl

lemma length_mask (maskKey : Option (Vector UInt8 4)) (payload : List UInt8) :
    (mask maskKey payload).length = payload.length := by
  cases maskKey with
  | none => rfl
  | some key => exact List.length_mapIdx

lemma length_encode (f : Frame) : (encode f).length =
    (extendedLength f.payload.length).length + (if f.maskKey.isSome then 4 else 0) + 2 + f.payload.length := by
  rw [encode, header, List.length_append, length_mask]
  cases f.maskKey <;> simp

lemma mask_mask (maskKey : Option (Vector UInt8 4)) (payload : List UInt8) :
    mask maskKey (mask maskKey payload) = payload := by
  cases maskKey with
  | none => rfl
  | some key =>
    apply List.ext_getElem
    · rw [length_mask, length_mask]
    · intro i _ _
      simp only [mask, Option.elim_some, List.getElem_mapIdx, UInt8.xor_assoc, UInt8.xor_self, UInt8.xor_zero]

lemma flag_add {flag : Bool} {n : Nat} (h : n < 128) :
    (UInt8.ofNat ((if flag then 128 else 0) + n)).toNat % 128 = n ∧
      decide (128 ≤ (UInt8.ofNat ((if flag then 128 else 0) + n)).toNat) = flag := by
  rw [UInt8.toNat_ofNat']
  cases flag <;> simp <;> omega

lemma decode_encode (f : Frame) (h : f.payload.length < 2 ^ 63) (rest : List UInt8) :
    decode (encode f ++ rest) = some (f, rest) := by
  obtain ⟨opcode, fin⟩ := @flag_add f.fin f.opcode (by omega)
  obtain ⟨short, masked⟩ := @flag_add f.maskKey.isSome _ (shortLength_lt f.payload.length)
  have reserved : ¬ (firstByte f.fin f.opcode).toNat % 128 / 16 ≠ 0 := by
    rw [firstByte, opcode]
    omega
  have code : Fin.ofNat 16 (firstByte f.fin f.opcode).toNat = f.opcode := by
    apply Fin.ext
    rw [firstByte, Fin.val_ofNat]
    omega
  rw [encode, header]
  simp only [List.cons_append, decode]
  rw [if_neg reserved, secondByte, short, masked, List.append_assoc, List.append_assoc,
    takeLength_extendedLength h, Option.bind_some, takeKey_toList, Option.bind_some, if_neg,
    List.take_left' (length_mask _ _), List.drop_left' (length_mask _ _), mask_mask, code, firstByte, fin]
  rw [List.length_append, length_mask]
  omega

end Sming.Lib.Rfc6455
