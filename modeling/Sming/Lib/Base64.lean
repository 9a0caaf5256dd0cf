import Mathlib.Data.List.Basic

/-!
# Base64

The encoding of RFC 4648, section 4. Three bytes make a group of 24 bits, which is written as four digits
of 6 bits each; a shorter group at the end is filled up with zero bits, and with `=` in the place of the
digits that have no bits of the data.
-/

namespace Sming.Lib.Base64

def digit (v : Nat) : UInt8 :=
  if v < 26 then UInt8.ofNat (65 + v) -- A to Z
  else if v < 52 then UInt8.ofNat (97 + (v - 26)) -- a to z
  else if v < 62 then UInt8.ofNat (48 + (v - 52)) -- 0 to 9
  else if v = 62 then 43 -- +
  else 47 -- /

def pad : UInt8 := 61

def group (a b c : UInt8) : Nat := a.toNat * 65536 + b.toNat * 256 + c.toNat

def digitAt (w : Nat) (g : Nat) : UInt8 := digit (g / w % 64)

def encode : List UInt8 → List UInt8
  | [] => []
  | [a] => [digitAt 262144 (group a 0 0), digitAt 4096 (group a 0 0), pad, pad]
  | [a, b] => [digitAt 262144 (group a b 0), digitAt 4096 (group a b 0), digitAt 64 (group a b 0), pad]
  | a :: b :: c :: rest =>
    [digitAt 262144 (group a b c), digitAt 4096 (group a b c), digitAt 64 (group a b c),
      digitAt 1 (group a b c)] ++ encode rest

-- "fooba" of RFC 4648, section 10
example : encode [102, 111, 111, 98, 97] = [90, 109, 57, 118, 89, 109, 69, 61] := by decide

end Sming.Lib.Base64
