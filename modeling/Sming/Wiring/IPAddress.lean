import Sming.Wiring.WString

/-!
# IP addresses

Embedding of `IPAddress::fromString` (`Sming/Wiring/IPAddress.cpp`) with the `strtol` that it calls.
-/

namespace Sming.Wiring
open WString String

abbrev IPAddress := Vector UInt8 4

namespace IPAddress

/-- The rest of the loop, from the octet `i` on. -/
def readOctets (address : IPAddress) (i : Nat) : Nat → List Char → IPAddress
  | 0, _ => address
  | n + 1, p =>
    let read := strtol p
    let address := address.setIfInBounds i (UInt8.ofInt read.1)
    match read.2 with
    | '.' :: p => readOctets address (i + 1) n p
    -- missing '.' or end of input string
    | _ => address

def fromString (address : String) : IPAddress := readOctets #v[0, 0, 0, 0] 0 4 address.toList

end IPAddress

/-- A decimal number up to 255. -/
structure Octet where
  text : List Char
  ne_nil : text ≠ []
  isDigit : ∀ c ∈ text, c.isDigit = true
  le : digits text ≤ 255

namespace Octet

variable (o : Octet)

def value : UInt8 := UInt8.ofNat (digits o.text)

lemma not_mem {c : Char} (h : c.isDigit = false) : c ∉ o.text := by
  intro mem
  rw [o.isDigit c mem] at h
  cases h

lemma toNat_value : o.value.toNat = digits o.text := by
  have small := o.le
  rw [value, UInt8.toNat_ofNat', Nat.mod_eq_of_lt (by omega)]

lemma toInt_text : toInt (ofList o.text) = o.value.toNat := by
  have small := o.le
  rw [toInt_digits o.ne_nil o.isDigit (by omega), toNat_value]

lemma strtol_append {rest : List Char} (stop : ∀ c ∈ rest.head?, c.isDigit = false) :
    strtol (o.text ++ rest) = ((o.value.toNat : Int), rest) := by
  have small := o.le
  rw [toNat_value]
  exact @strtol_digits [] o.text rest (List.forall_mem_nil _) o.ne_nil o.isDigit (by omega) stop

end Octet

namespace IPAddress

variable (address : IPAddress) (i n : Nat) (o : Octet)

lemma ofInt_toNat (b : UInt8) : UInt8.ofInt (b.toNat : Int) = b := by
  have small := b.toNat_lt
  rw [UInt8.ofInt, ← UInt8.toNat_inj, UInt8.toNat_ofNat']
  omega

lemma readOctets_dot (rest : List Char) :
    readOctets address i (n + 1) (o.text ++ '.' :: rest) =
      readOctets (address.setIfInBounds i o.value) (i + 1) n rest := by
  rw [readOctets, o.strtol_append (by simp)]
  simp only [ofInt_toNat]

lemma readOctets_last : readOctets address i (n + 1) o.text = address.setIfInBounds i o.value := by
  have read : strtol (o.text ++ []) = ((o.value.toNat : Int), []) := o.strtol_append (by simp)
  rw [List.append_nil] at read
  rw [readOctets, read]
  simp only [ofInt_toNat]

lemma fromString_dotted (a b c d : Octet) :
    fromString (ofList (a.text ++ '.' :: (b.text ++ '.' :: (c.text ++ '.' :: d.text)))) =
      #v[a.value, b.value, c.value, d.value] := by
  rw [fromString, toList_ofList, readOctets_dot, readOctets_dot, readOctets_dot, readOctets_last]
  rfl

end IPAddress

end Sming.Wiring
