import Mathlib.Data.List.Basic

/-!
# A monitor of a two-wire bus

What a listener makes of the levels of clock and data: a fall of the data line under a high clock starts a transfer, a
rise ends it, and each rise of the clock between samples a bit. Nine bits are a word: eight of data, the most significant
first, and one that is low if the word was acknowledged.
-/

namespace Sming.Lib.I2c

open List

structure Level where
  scl : Bool
  sda : Bool

abbrev Word := UInt8 × Bool

/-- One turn of `byte = (byte << 1) | bit`. -/
def shiftIn (byte : UInt8) (bit : Bool) : UInt8 := byte <<< 1 ||| bit.toUInt8

def words : List Bool → List Word
  | b7 :: b6 :: b5 :: b4 :: b3 :: b2 :: b1 :: b0 :: nack :: rest =>
    ([b7, b6, b5, b4, b3, b2, b1, b0].foldl shiftIn 0, !nack) :: words rest
  | _ => []

/-- The transfers that have ended, and the bits since the last start. -/
structure Monitor where
  ended : List (List Word) := []
  bits : Option (List Bool) := none

/-- Every transfer, the one under way included. -/
def Monitor.transfers (m : Monitor) : List (List Word) := m.ended ++ (m.bits.map words).toList

def Monitor.observe (m : Monitor) : Level → Level → Monitor
  | ⟨true, true⟩, ⟨true, false⟩ => ⟨m.transfers, some []⟩
  | ⟨true, false⟩, ⟨true, true⟩ => ⟨m.transfers, none⟩
  | ⟨false, _⟩, ⟨true, bit⟩ => ⟨m.ended, m.bits.map (· ++ [bit])⟩
  | _, _ => m

/-- The bits of a word on the data line. -/
def bitsFrom : Nat → UInt8 → List Bool
  | 0, _ => []
  | n + 1, byte => (byte &&& 0x80 != 0) :: bitsFrom n (byte <<< 1)

def Word.bits (w : Word) : List Bool := bitsFrom 8 w.1 ++ [!w.2]

lemma foldl_bitsFrom (byte : UInt8) : (bitsFrom 8 byte).foldl shiftIn 0 = byte := by
  have all : ∀ n : Fin 256, (bitsFrom 8 (UInt8.ofNat n)).foldl shiftIn 0 = UInt8.ofNat n := by decide +kernel
  simpa using all ⟨byte.toNat, byte.toNat_lt⟩

lemma bitsFrom_foldl {l : List Bool} (h : l.length = 8) : bitsFrom 8 (l.foldl shiftIn 0) = l := by
  match l, h with
  | [b7, b6, b5, b4, b3, b2, b1, b0], _ => revert b7 b6 b5 b4 b3 b2 b1 b0; decide +kernel

lemma words_bits (w : Word) (rest : List Bool) : words (Word.bits w ++ rest) = w :: words rest := by
  have byte := foldl_bitsFrom w.1
  simp only [bitsFrom] at byte
  simp only [Word.bits, bitsFrom, cons_append, nil_append, words, byte, Bool.not_not]

lemma words_flatMap (ws : List Word) (rest : List Bool) : words (ws.flatMap Word.bits ++ rest) = ws ++ words rest := by
  induction ws with
  | nil => rfl
  | cons w ws ih => rw [flatMap_cons, append_assoc, words_bits, ih, cons_append]

end Sming.Lib.I2c
