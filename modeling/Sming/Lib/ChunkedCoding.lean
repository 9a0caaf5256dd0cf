import Mathlib.Data.Nat.Digits.Lemmas

/-!
# The chunked transfer coding

`chunk` is one chunk with its size in hexadecimal digits, `lastChunk` the chunk of size 0 that ends a
body. `decode` is a reader of the coding as an automaton over the bytes; it accepts a body that ends
with its last chunk and nothing else. Chunk extensions and trailers are not part of it.
-/

namespace Sming.Lib.Chunked
open List

def cr : UInt8 := 13

def lf : UInt8 := 10

def hexDigit (d : Nat) : UInt8 :=
  if d < 10 then UInt8.ofNat (48 + d) else UInt8.ofNat (55 + d)

/-- The value of a hexadecimal digit of either case. -/
def hexValue (c : UInt8) : Option Nat :=
  if 48 ≤ c ∧ c ≤ 57 then some (c.toNat - 48)
  else if 65 ≤ c ∧ c ≤ 70 then some (c.toNat - 55)
  else if 97 ≤ c ∧ c ≤ 102 then some (c.toNat - 87)
  else none

/-- A number in hexadecimal digits, as `%X` prints it. -/
def hex (n : Nat) : List UInt8 :=
  if n = 0 then [hexDigit 0] else (Nat.digits 16 n).reverse.map hexDigit

def chunk (data : List UInt8) : List UInt8 := hex data.length ++ [cr, lf] ++ data ++ [cr, lf]

def lastChunk : List UInt8 := [hexDigit 0, cr, lf, cr, lf]

/-- Where a reader of the coding is. -/
inductive Phase where
  /-- In the size of a chunk, after some digits or none. -/
  | size (digits : Bool) (n : Nat)
  | sizeLf (n : Nat)
  /-- In the data, with `n + 1` bytes to come. -/
  | data (n : Nat)
  | dataCr
  | dataLf
  | lastCr
  | lastLf
  | done
  | error
  deriving Repr, DecidableEq

structure Reader where
  phase : Phase := .size false 0
  out : List UInt8 := []
  deriving Repr, DecidableEq

def Reader.feed (r : Reader) (c : UInt8) : Reader :=
  match r.phase with
  | .size digits n =>
    match hexValue c with
    | some d => { r with phase := .size true (d + 16 * n) }
    | none => { r with phase := if c = cr ∧ digits then .sizeLf n else .error }
  | .sizeLf 0 => { r with phase := if c = lf then .lastCr else .error }
  | .sizeLf (n + 1) => { r with phase := if c = lf then .data n else .error }
  | .data 0 => { r with phase := .dataCr, out := r.out ++ [c] }
  | .data (n + 1) => { r with phase := .data n, out := r.out ++ [c] }
  | .dataCr => { r with phase := if c = cr then .dataLf else .error }
  | .dataLf => { r with phase := if c = lf then .size false 0 else .error }
  | .lastCr => { r with phase := if c = cr then .lastLf else .error }
  | .lastLf => { r with phase := if c = lf then .done else .error }
  | .done => { r with phase := .error }
  | .error => r

/-- The content of a body; nothing may be missing or follow. -/
def decode (body : List UInt8) : Option (List UInt8) :=
  let r := body.foldl Reader.feed {}
  if r.phase = .done then some r.out else none

lemma hexValue_hexDigit : ∀ d < 16, hexValue (hexDigit d) = some d := by decide

lemma feed_digits {ds : List Nat} (small : ∀ d ∈ ds, d < 16) (digits : Bool) (n : Nat) (out : List UInt8) :
    (ds.map hexDigit).foldl Reader.feed ⟨.size digits n, out⟩ =
      ⟨.size (digits || !ds.isEmpty) (ds.foldl (fun n d => d + 16 * n) n), out⟩ := by
  induction ds generalizing digits n with
  | nil => simp
  | cons d ds ih =>
    obtain ⟨hd, hds⟩ := forall_mem_cons.mp small
    rw [map_cons, foldl_cons, Reader.feed]
    simp only [hexValue_hexDigit d hd]
    rw [ih hds]
    simp

variable {n : Nat}

lemma feed_hex (pos : 0 < n) (out : List UInt8) :
    (hex n).foldl Reader.feed ⟨.size false 0, out⟩ = ⟨.size true n, out⟩ := by
  have small : ∀ d ∈ (Nat.digits 16 n).reverse, d < 16 := fun d hd =>
    Nat.digits_lt_base (by decide) (mem_reverse.mp hd)
  have value : (Nat.digits 16 n).reverse.foldl (fun n d => d + 16 * n) 0 = n := by
    rw [foldl_reverse]
    simpa only [Nat.ofDigits_digits, Nat.cast_id] using
      (Nat.ofDigits_eq_foldr (16 : Nat) (Nat.digits 16 n)).symm
  have some : (Nat.digits 16 n).reverse.isEmpty = false := by
    rw [isEmpty_reverse, List.isEmpty_eq_false_iff, Nat.digits_ne_nil_iff_ne_zero]
    omega
  rw [hex, if_neg (by omega), feed_digits small, value, some]
  rfl

lemma feed_data {data : List UInt8} (h : data.length = n + 1) (out : List UInt8) :
    data.foldl Reader.feed ⟨.data n, out⟩ = ⟨.dataCr, out ++ data⟩ := by
  induction data generalizing n out with
  | nil => cases h
  | cons c data ih =>
    rw [foldl_cons, Reader.feed]
    cases n with
    | zero =>
      obtain rfl : data = [] := List.length_eq_zero_iff.mp (Nat.succ.inj h)
      rfl
    | succ n =>
      simp only
      rw [ih (Nat.succ.inj h), List.append_assoc, singleton_append]

lemma feed_chunk {data : List UInt8} (some : data ≠ []) (out : List UInt8) :
    (chunk data).foldl Reader.feed ⟨.size false 0, out⟩ = ⟨.size false 0, out ++ data⟩ := by
  have pos := length_pos_iff.mpr some
  obtain ⟨n, hn⟩ := Nat.exists_eq_add_one.mpr pos
  simp only [chunk, foldl_append, feed_hex pos]
  rw [hn, show [cr, lf].foldl Reader.feed ⟨.size true (n + 1), out⟩ = ⟨.data n, out⟩ from rfl, feed_data hn]
  rfl

variable {chunks : List (List UInt8)}

lemma feed_chunks (some : ∀ c ∈ chunks, c ≠ []) (out : List UInt8) :
    (chunks.flatMap chunk).foldl Reader.feed ⟨.size false 0, out⟩ =
      ⟨.size false 0, out ++ chunks.flatten⟩ := by
  induction chunks generalizing out with
  | nil => simp
  | cons c chunks ih =>
    obtain ⟨hc, hcs⟩ := forall_mem_cons.mp some
    rw [flatMap_cons, foldl_append, feed_chunk hc, ih hcs, flatten_cons, List.append_assoc]

lemma decode_chunks (some : ∀ c ∈ chunks, c ≠ []) :
    decode (chunks.flatMap chunk ++ lastChunk) = .some chunks.flatten := by
  rw [decode, foldl_append, feed_chunks some]
  rfl

lemma decode_cut (some : ∀ c ∈ chunks, c ≠ []) {k : Nat}
    (h : k < lastChunk.length) : decode (chunks.flatMap chunk ++ lastChunk.take k) = none := by
  rw [decode, foldl_append, feed_chunks some]
  apply if_neg
  intro done
  obtain rfl | rfl | rfl | rfl | rfl : k = 0 ∨ k = 1 ∨ k = 2 ∨ k = 3 ∨ k = 4 := by
    change k < 5 at h
    omega
  all_goals cases done

lemma length_hex_le_iff {k : Nat} (pos : 0 < k) : (hex n).length ≤ k ↔ n < 16 ^ k := by
  unfold hex
  split
  case isTrue h =>
    subst h
    exact iff_of_true pos (Nat.pow_pos (by decide))
  case isFalse =>
    rw [List.length_map, length_reverse]
    exact Nat.digits_length_le_iff (by decide) n

lemma length_hex_pos (n : Nat) : 0 < (hex n).length := by
  unfold hex
  split
  · exact Nat.one_pos
  case isFalse h =>
    rw [List.length_map, length_reverse, length_pos_iff]
    exact Nat.digits_ne_nil_iff_ne_zero.mpr h

lemma length_chunk (data : List UInt8) : (chunk data).length = data.length + 4 + (hex data.length).length := by
  simp only [chunk, List.length_append, length_cons, length_nil]
  omega

end Sming.Lib.Chunked
