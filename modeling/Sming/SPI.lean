import Mathlib.Algebra.Ring.Nat
import Sming.Lib.Memory

/-!
# Transfers of the SPI bus

Embedding of `SPIClass::transfer(uint8*, size_t)` (`Sming/SmingCore/SPI.cpp`). The hardware exchanges the bytes of its
registers `SPI_W0` to `SPI_W15` with the device, as many bits as `SPI_USER1` says. With `LSBFIRST` the bytes of a
register leave from the lowest one up, with `MSBFIRST` from bit 31 down (`spi_byte_order`).

The transfer is cut into blocks of 64 bytes. The number of bits of a block has 8 bits and the place in the buffer 16.
-/

namespace Sming
open Lib List

/-- The registers of the SPI block, and what has gone over the wires. -/
structure Spi where
  /-- The bits `SPI_WR_BYTE_ORDER` and `SPI_RD_BYTE_ORDER` of `SPI_USER`. -/
  msbFirst : Bool := false
  user1 : UInt32 := 0
  /-- The bytes of `SPI_W0` to `SPI_W15`. -/
  w : Nat → UInt8 := fun _ => 0
  clocked : Nat := 0
  sent : List UInt8 := []

namespace Spi

/-- The byte of the registers that is exchanged as the byte number `i`. -/
def lane (msbFirst : Bool) (i : Nat) : Nat := if msbFirst then i / 4 * 4 + (3 - i % 4) else i

/-- The number of bits that `SPI_USER1` stands for. -/
def bitLength (user1 : UInt32) : Nat := (user1 >>> 17 &&& 0x1FF).toNat + 1

def transaction (device : Nat → UInt8) (s : Spi) : Spi :=
  let n := bitLength s.user1 / 8
  { s with
    clocked := s.clocked + bitLength s.user1
    sent := s.sent ++ load (fun i => s.w (lane s.msbFirst i)) 0 n
    w := fun r => if lane s.msbFirst r < n then device (s.sent.length + lane s.msbFirst r) else s.w r }

end Spi

structure Transfer where
  memory : Nat → UInt8
  spi : Spi
  bufIndx : UInt16 := 0

namespace Transfer

def bufLength (numberBytes : UInt32) (bufIndx : UInt16) : UInt8 := (min (numberBytes - bufIndx.toUInt32) 64).toUInt8

def user1 (bufLength : UInt8) : UInt32 :=
  let num_bits := bufLength * 8
  ((num_bits.toUInt32 - 1) &&& 0x1FF) <<< 17 ||| ((num_bits.toUInt32 - 1) &&& 0x1FF) <<< 8

def block (device : Nat → UInt8) (numberBytes : UInt32) (t : Transfer) : Transfer :=
  let bufLength := bufLength numberBytes t.bufIndx
  let loaded := { t.spi with
    user1 := user1 bufLength, w := store t.spi.w 0 (load t.memory t.bufIndx.toNat bufLength.toNat) }
  let spi := loaded.transaction device
  { memory := store t.memory t.bufIndx.toNat (load spi.w 0 bufLength.toNat)
    spi := spi
    bufIndx := t.bufIndx + bufLength.toUInt16 }

def rounds (device : Nat → UInt8) (numberBytes : UInt32) : Nat → Transfer → Transfer
  | 0, t => t
  | n + 1, t => rounds device numberBytes n (block device numberBytes t)

def blocks (numberBytes : UInt32) : Nat := ((numberBytes - 1) / 64 + 1).toNat

def transfer (device : Nat → UInt8) (numberBytes : UInt32) (memory : Nat → UInt8) (spi : Spi) : Transfer :=
  rounds device numberBytes (blocks numberBytes) { memory, spi }

/-! ### The length of a block -/

def bits (bufLength : UInt8) : Nat := Spi.bitLength (user1 bufLength)

lemma bits_ofNat : ∀ n < 65, bits (UInt8.ofNat n) = if n % 32 = 0 then 512 else 8 * (n % 32) := by decide

lemma bits_eq {len : UInt8} (le : len.toNat ≤ 64) :
    bits len = if len.toNat % 32 = 0 then 512 else 8 * (len.toNat % 32) := by
  have same : UInt8.ofNat len.toNat = len := UInt8.ofNat_toNat
  rw [← bits_ofNat len.toNat (by omega), same]

lemma bits_eq_iff {len : UInt8} (le : len.toNat ≤ 64) :
    bits len = 8 * len.toNat ↔ len.toNat = 64 ∨ 0 < len.toNat ∧ len.toNat < 32 := by
  rw [bits_eq le]
  split <;> omega

lemma bits_pos {len : UInt8} (le : len.toNat ≤ 64) : 8 ≤ bits len := by
  rw [bits_eq le]
  split <;> omega

lemma toNat_bufLength {n : UInt32} {i : UInt16} (le : i.toNat ≤ n.toNat) :
    (bufLength n i).toNat = min (n.toNat - i.toNat) 64 := by
  have rest : (n - i.toUInt32).toNat = n.toNat - i.toNat := UInt32.toNat_sub_of_le _ _ le
  have small := n.toNat_lt
  rw [bufLength, UInt32.toNat_toUInt8]
  change (if n - i.toUInt32 ≤ 64 then n - i.toUInt32 else 64).toNat % 2 ^ 8 = _
  split_ifs with h
  · have le' := UInt32.le_iff_toNat_le.mp h
    rw [rest] at le' ⊢
    change n.toNat - i.toNat ≤ 64 at le'
    omega
  · have gt := mt UInt32.le_iff_toNat_le.mpr h
    rw [rest] at gt
    change ¬ n.toNat - i.toNat ≤ 64 at gt
    change 64 % 2 ^ 8 = _
    omega

lemma bufLength_le (n : UInt32) (i : UInt16) : (bufLength n i).toNat ≤ 64 := by
  rw [bufLength, UInt32.toNat_toUInt8]
  change (if n - i.toUInt32 ≤ 64 then n - i.toUInt32 else 64).toNat % 2 ^ 8 ≤ 64
  split_ifs with h
  · have le := UInt32.le_iff_toNat_le.mp h
    change (n - i.toUInt32).toNat ≤ 64 at le
    omega
  · decide

lemma store_nat (m : Nat → UInt8) (d : Nat) {xs : List UInt8} {f : Nat → UInt8}
    (bytes : ∀ (i : Nat) (h : i < xs.length), xs[i] = f (d + i)) :
    store m d xs = fun i => if d ≤ i ∧ i < d + xs.length then f i else m i := by
  funext i
  split_ifs with h
  · have place : d + ((i - d : Nat) : Nat) = i := by omega
    have inside : i - d < xs.length := by omega
    have inj : Set.InjOn (fun j : Nat => d + ((j : Nat) : Nat)) (Set.Iio xs.length) := by
      intro x _ y _ same
      exact Nat.add_left_cancel same
    have stored := store_getElem (m := m) inj inside
    change store m d xs (d + (i - d)) = _ at stored
    rwa [bytes _ inside, place] at stored
  · refine store_of_ne fun j inside same => h ?_
    change i = d + j at same
    omega

lemma filled (w m : Nat → UInt8) (d len r : Nat) :
    store w 0 (load m d len) r = if r < len then m (d + r) else w r := by
  rw [store_nat w 0 (f := fun i => m (d + i)), length_load]
  · simp only [Nat.zero_le, true_and, Nat.zero_add]
  · intro i h
    rw [getElem_load, Nat.zero_add]
    rfl

lemma getElem?_load_zero (m : Nat → UInt8) {n i : Nat} (h : i < n) : (load m 0 n)[i]? = some (m i) := by
  have inside : i < (load m 0 n).length := by rwa [length_load]
  rw [getElem?_eq_getElem inside, getElem_load, Nat.zero_add]
  rfl

/-! ### A block -/

section
variable {device m : Nat → UInt8} {n : UInt32} {t : Transfer} {d : Nat}

structure Done (device m : Nat → UInt8) (d : Nat) (t : Transfer) : Prop where
  memory : t.memory = fun i => if i < d then device i else m i
  sent : t.spi.sent = load m 0 d
  clocked : t.spi.clocked = 8 * d
  lsb : t.spi.msbFirst = false
  index : t.bufIndx.toNat = d % 2 ^ 16

section
variable (device : Nat → UInt8) (n : UInt32) (t : Transfer)

lemma block_clocked :
    (block device n t).spi.clocked = t.spi.clocked + bits (bufLength n t.bufIndx) := rfl

lemma block_sent :
    (block device n t).spi.sent = t.spi.sent ++
      load (fun i => store t.spi.w 0 (load t.memory t.bufIndx.toNat (bufLength n t.bufIndx).toNat)
        (Spi.lane t.spi.msbFirst i)) 0 (bits (bufLength n t.bufIndx) / 8) := rfl

lemma block_w :
    (block device n t).spi.w = fun r =>
      if Spi.lane t.spi.msbFirst r < bits (bufLength n t.bufIndx) / 8 then
        device (t.spi.sent.length + Spi.lane t.spi.msbFirst r)
      else store t.spi.w 0 (load t.memory t.bufIndx.toNat (bufLength n t.bufIndx).toNat) r := rfl

end

lemma block_done (done : Done device m d t) (inside : t.bufIndx.toNat = d)
    (right : bits (bufLength n t.bufIndx) = 8 * (bufLength n t.bufIndx).toNat) :
    Done device m (d + (bufLength n t.bufIndx).toNat) (block device n t) := by
  have whole : bits (bufLength n t.bufIndx) / 8 = (bufLength n t.bufIndx).toNat := by omega
  generalize size : (bufLength n t.bufIndx).toNat = len at right whole
  have length : t.spi.sent.length = d := by rw [done.sent, length_load]
  refine ⟨?_, ?_, ?_, done.lsb, ?_⟩
  · change store t.memory t.bufIndx.toNat (load (block device n t).spi.w 0 _) = _
    rw [inside, size, store_nat t.memory d (f := device), length_load, done.memory]
    · funext i
      change (if d ≤ i ∧ i < d + len then device i else if i < d then device i else m i) = _
      split_ifs <;> first | rfl | omega
    · intro i h
      rw [length_load] at h
      rw [getElem_load, block_w]
      change (if Spi.lane t.spi.msbFirst (0 + i) < _ then device (_ + Spi.lane t.spi.msbFirst (0 + i)) else _) = _
      rw [done.lsb, whole, length, Nat.zero_add]
      exact if_pos h
  · have kept : load t.memory d len = load m d len := by
      apply load_congr
      intro i _
      change t.memory (d + i) = m (d + i)
      rw [done.memory]
      exact if_neg (by omega)
    have stored : load (store t.spi.w 0 (load t.memory d len)) 0 len = load t.memory d len := by
      have inj : Set.InjOn (fun j : Nat => 0 + ((j : Nat) : Nat)) (Set.Iio (load t.memory d len).length) := by
        intro x _ y _ same
        exact Nat.add_left_cancel same
      have back := load_store (m := t.spi.w) inj
      rwa [length_load] at back
    have next := load_add m 0 d len
    rw [block_sent, whole, done.lsb, done.sent, inside, size]
    change load m 0 d ++ load (store t.spi.w 0 (load t.memory d len)) 0 len = _
    rw [stored, kept, next]
    change _ = load m 0 d ++ load m (0 + d) len
    rw [Nat.zero_add]
  · rw [block_clocked, done.clocked, right]
    omega
  · change (t.bufIndx + (bufLength n t.bufIndx).toUInt16).toNat = _
    rw [UInt16.toNat_add, UInt8.toNat_toUInt16, inside, size]

end

/-! ### The whole transfer -/

section
variable {device m : Nat → UInt8} {n : UInt32} {t : Transfer} {d k : Nat}

lemma rounds_add (device : Nat → UInt8) (n : UInt32) (j k : Nat) (t : Transfer) :
    rounds device n (j + k) t = rounds device n k (rounds device n j t) := by
  induction j generalizing t with
  | zero => rw [Nat.zero_add, rounds]
  | succ j ih => rw [Nat.add_right_comm, rounds, rounds, ih]

section
variable (device : Nat → UInt8) (n : UInt32) (k : Nat) (t : Transfer)

lemma rounds_succ : rounds device n (k + 1) t = block device n (rounds device n k t) := by
  rw [rounds_add]
  rfl

lemma le_rounds_clocked : t.spi.clocked + 8 * k ≤ (rounds device n k t).spi.clocked := by
  induction k with
  | zero => exact Nat.le_refl _
  | succ k ih =>
    have more := bits_pos (bufLength_le n (rounds device n k t).bufIndx)
    rw [rounds_succ, block_clocked]
    omega

lemma sent_rounds : t.spi.sent <+: (rounds device n k t).spi.sent := by
  induction k with
  | zero => exact prefix_rfl
  | succ k ih =>
    rw [rounds_succ, block_sent]
    exact ih.trans (prefix_append _ _)

end

lemma getElem?_sent_rounds (device : Nat → UInt8) {j : Nat} (before : j < k) :
    (rounds device n k t).spi.sent[(rounds device n j t).spi.sent.length]? =
      some (store (rounds device n j t).spi.w 0 (load (rounds device n j t).memory
        (rounds device n j t).bufIndx.toNat (bufLength n (rounds device n j t).bufIndx).toNat)
        (Spi.lane (rounds device n j t).spi.msbFirst 0)) := by
  obtain ⟨i, rfl⟩ := Nat.exists_eq_add_of_lt before
  have some := bits_pos (bufLength_le n (rounds device n j t).bufIndx)
  obtain ⟨len, size⟩ := Nat.exists_eq_add_of_lt (show 0 < bits (bufLength n (rounds device n j t).bufIndx) / 8 by omega)
  obtain ⟨rest, all⟩ := sent_rounds device n i (block device n (rounds device n j t))
  rw [Nat.add_right_comm, rounds_add, rounds_succ, ← all, block_sent, List.append_assoc,
    getElem?_append_right (Nat.le_refl _), Nat.sub_self, size]
  rfl

lemma rounds_done (start : Done device m 0 t)
    (fits : ∀ j < k, 64 * j < n.toNat ∧ 64 * j < 2 ^ 16 ∧ (64 * (j + 1) ≤ n.toNat ∨ n.toNat < 64 * j + 32)) :
    Done device m (min (64 * k) n.toNat) (rounds device n k t) := by
  induction k with
  | zero => rwa [Nat.mul_zero, Nat.zero_min]
  | succ k ih =>
    obtain ⟨more, low, size⟩ := fits k (Nat.lt_succ_self k)
    have done := ih fun j before => fits j (Nat.lt_succ_of_lt before)
    rw [Nat.min_eq_left (Nat.le_of_lt more)] at done
    have inside : (rounds device n k t).bufIndx.toNat = 64 * k := by rw [done.index, Nat.mod_eq_of_lt low]
    have length := toNat_bufLength (n := n) (i := (rounds device n k t).bufIndx) (by omega)
    have next := block_done (n := n) done inside ((bits_eq_iff (bufLength_le _ _)).mpr (by omega))
    rw [rounds_succ]
    rwa [length, inside, show 64 * k + min (n.toNat - 64 * k) 64 = min (64 * (k + 1)) n.toNat by omega] at next

end

lemma toNat_blocks {n : UInt32} (pos : 0 < n.toNat) : blocks n = (n.toNat - 1) / 64 + 1 := by
  have less : (n - 1).toNat = n.toNat - 1 := UInt32.toNat_sub_of_le _ _ pos
  have small := n.toNat_lt
  rw [blocks, UInt32.toNat_add, UInt32.toNat_div, less]
  change ((n.toNat - 1) / 64 + 1) % 2 ^ 32 = _
  omega

/-! ### What a transfer is for -/

/-- What the buffer and the device exchange: the buffer's bytes have been sent in their order, the device's bytes are
in their place, and nothing else has changed. -/
structure Exchanged (device memory : Nat → UInt8) (numberBytes : Nat) (t : Transfer) : Prop where
  clocked : t.spi.clocked = 8 * numberBytes
  sent : t.spi.sent = load memory 0 numberBytes
  received : ∀ i < numberBytes, t.memory i = device i
  untouched : ∀ i, numberBytes ≤ i → t.memory i = memory i

/-- A transfer of `numberBytes` bytes in this byte order exchanges them, whatever the buffer holds, the device sends and
is left in the registers. -/
def Exchanges (msbFirst : Bool) (numberBytes : UInt32) : Prop :=
  ∀ (device memory w : Nat → UInt8) (user1 : UInt32),
    Exchanged device memory numberBytes.toNat (transfer device numberBytes memory { msbFirst, user1, w })

/-- Bytes leave from the lowest one up, there are some, the place in the buffer does not wrap before the last block, and
the last block is full or shorter than 32 bytes. -/
structure Suits (msbFirst : Bool) (numberBytes : UInt32) : Prop where
  lsb : msbFirst = false
  nonempty : 0 < numberBytes.toNat
  low : numberBytes.toNat ≤ 2 ^ 16
  last : numberBytes.toNat % 64 < 32

section
variable {device memory w : Nat → UInt8} {msbFirst : Bool} {user1 n : UInt32}

lemma start_done (device memory w : Nat → UInt8) (user1 : UInt32) :
    Done device memory 0 { memory, spi := { msbFirst := false, user1, w } } := ⟨rfl, rfl, rfl, rfl, rfl⟩

lemma Done.exchanged {d : Nat} {t : Transfer} (done : Done device memory d t) : Exchanged device memory d t := by
  refine ⟨done.clocked, done.sent, fun i h => ?_, fun i h => ?_⟩
  · rw [done.memory]
    exact if_pos h
  · rw [done.memory]
    exact if_neg (Nat.not_lt.mpr h)

lemma Suits.exchanges (suits : Suits msbFirst n) : Exchanges msbFirst n := by
  intro device memory w user1
  obtain ⟨rfl, nonempty, low, last⟩ := suits
  have count := toNat_blocks nonempty
  have done := rounds_done (n := n) (k := blocks n) (start_done device memory w user1) fun j before => by
    rw [count] at before
    omega
  rw [Nat.min_eq_right (by omega)] at done
  exact done.exchanged

lemma Exchanges.nonempty (ok : Exchanges msbFirst n) : 0 < n.toNat := by
  rcases Nat.eq_zero_or_pos n.toNat with zero | pos
  · have none := (ok (fun _ => 0) (fun _ => 0) (fun _ => 0) 0).clocked
    have many := le_rounds_clocked (fun _ => 0) n (blocks n)
      { memory := fun _ => 0, spi := { msbFirst, user1 := 0, w := fun _ => 0 } }
    have empty : n = 0 := UInt32.toNat_inj.mp zero
    have count : blocks n = 2 ^ 26 := by rw [empty]; rfl
    change (rounds _ n (blocks n) _).spi.clocked = _ at none
    rw [none, zero, count] at many
    contradiction
  · exact pos

lemma Exchanges.lsb (ok : Exchanges msbFirst n) : msbFirst = false := by
  have pos := ok.nonempty
  have count := toNat_blocks pos
  cases msbFirst with
  | false => rfl
  | true =>
    let memory : Nat → UInt8 := fun i => if i = 0 then 1 else 0
    have sent := (ok (fun _ => 0) memory (fun _ => 0) 0).sent
    have first := getElem?_sent_rounds (fun _ => 0) (n := n) (k := blocks n) (j := 0)
      (t := { memory, spi := { msbFirst := true, user1 := 0, w := fun _ => 0 } }) (by omega)
    change (transfer _ n memory _).spi.sent[0]? = some (store (fun _ => 0) 0 (load memory 0 _) 3) at first
    rw [sent, getElem?_load_zero memory pos, filled] at first
    split_ifs at first <;> cases first

lemma Exchanges.low (ok : Exchanges false n) : n.toNat ≤ 2 ^ 16 := by
  have count := toNat_blocks ok.nonempty
  by_contra high
  have done := rounds_done (n := n) (k := 1024) (start_done (fun _ => 1) (fun _ => 0) (fun _ => 0) 0)
    fun j before => by omega
  rw [Nat.min_eq_left (by omega)] at done
  have sent := (ok (fun _ => 1) (fun _ => 0) (fun _ => 0) 0).sent
  have next := getElem?_sent_rounds (fun _ => 1) (n := n) (k := blocks n) (j := 1024)
    (t := { memory := fun _ => 0, spi := { msbFirst := false, user1 := 0, w := fun _ => 0 } }) (by omega)
  change (transfer _ n _ _).spi.sent[_]? = _ at next
  rw [sent, done.sent, length_load, getElem?_load_zero _ (by omega), filled, done.index, done.lsb, done.memory,
    toNat_bufLength (by rw [done.index]; omega), done.index, if_pos] at next
  · cases next
  · change 0 < min (n.toNat - 0) 64
    omega

lemma Exchanges.last (ok : Exchanges false n) : n.toNat % 64 < 32 := by
  have low := ok.low
  have count := toNat_blocks ok.nonempty
  by_contra long
  have done := rounds_done (n := n) (k := n.toNat / 64) (start_done (fun _ => 0) (fun _ => 0) (fun _ => 0) 0)
    fun j before => by omega
  rw [Nat.min_eq_left (by omega)] at done
  have clocked := (ok (fun _ => 0) (fun _ => 0) (fun _ => 0) 0).clocked
  change (rounds _ n (blocks n) _).spi.clocked = _ at clocked
  rw [show blocks n = n.toNat / 64 + 1 by omega, rounds_succ, block_clocked, done.clocked] at clocked
  have inside := done.index
  rw [Nat.mod_eq_of_lt (by omega)] at inside
  have length := toNat_bufLength (n := n) (by rw [inside]; omega)
  generalize (rounds (fun _ => 0) n (n.toNat / 64) _).bufIndx = i at clocked inside length
  have right := (bits_eq_iff (bufLength_le n i)).mp (by omega)
  omega

end

/-- A transfer exchanges its bytes exactly for the lengths and the bit order that suit it. -/
theorem transfer_exchanges_iff (msbFirst : Bool) (numberBytes : UInt32) :
    Exchanges msbFirst numberBytes ↔ Suits msbFirst numberBytes := by
  constructor
  · intro ok
    obtain rfl := ok.lsb
    exact ⟨rfl, ok.nonempty, ok.low, ok.last⟩
  · exact Suits.exchanges

/-- For 32 bytes the length register says 512 bits. -/
theorem half_block_clocked_twice : ¬ ∀ (msbFirst : Bool) (numberBytes : UInt32), Exchanges msbFirst numberBytes := by
  intro all
  have clocked := (all false 32 (fun _ => 0) (fun _ => 0) (fun _ => 0) 0).clocked
  have twice : (transfer (fun _ => 0) 32 (fun _ => 0) { msbFirst := false, user1 := 0, w := fun _ => 0 }).spi.clocked =
      512 := by decide
  rw [twice] at clocked
  exact absurd clocked (by decide)

end Transfer

end Sming
