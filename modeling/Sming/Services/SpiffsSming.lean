import Sming.Lib.Loop
import Sming.System.Flashmem

/-!
# The flash side of SPIFFS

Embedding of the callbacks and of the formatter in `Sming/Services/SpifFS/spiffs_sming.c`. The
callbacks hand the file system's requests to `flashmem`; `spiffs_format_internal` erases the sectors
of the file system one after another and divides by their number to show its progress.

`ok s` says whether erasing sector `s` succeeds; a loop erases no sector twice. The erased sectors are
listed in order.
-/

namespace Sming.Services
open Sming.Lib Sming.System List

def spiffsOk : Int := 0

def spiffsErrInternal : Int := -10050

def apiSpiffsRead (ok : Nat → Bool) (m : Machine) (addr size dst : Word) : Int × Machine :=
  (spiffsOk, (flashmemRead ok m dst addr size).2)

def apiSpiffsWrite (ok : Nat → Bool) (m : Machine) (addr size src : Word) : Int × Machine :=
  (spiffsOk, (flashmemWrite ok m src addr size).2)

/-- The erase loop's variable and the sectors erased so far. -/
structure EraseState where
  sectFirst : Nat
  erased : List Nat

def eraseTurn (ok : Nat → Bool) (sectLast : Nat) (s : EraseState) :
    EraseState ⊕ (Int × List Nat) :=
  if s.sectFirst ≤ sectLast then
    if ok s.sectFirst then .inl { sectFirst := s.sectFirst + 1, erased := s.erased ++ [s.sectFirst] }
    else .inr (spiffsErrInternal, s.erased)
  else .inr (spiffsOk, s.erased)

/-- Erase the range; the size is not looked at. -/
def apiSpiffsErase (ok : Nat → Bool) (fuel : Nat) (addr _size : Word) : Option (Int × List Nat) :=
  let sectFirst := flashmemGetSectorOfAddress addr
  let sectLast := sectFirst
  loop (eraseTurn ok sectLast) fuel { sectFirst, erased := [] }

/-- The fields of the configuration that the formatter reads. -/
structure SpiffsConfig where
  physAddr : Word
  physSize : Word

inductive FormatEnd
  | returned (result : Bool)
  | dividedByZero
  deriving DecidableEq, Repr

/-- The variables of the formatter's loop, the percentages shown and the sectors erased so far. -/
structure FormatState where
  sectFirst : Nat
  cur : Int
  last : Int
  shown : List Int
  erased : List Nat

def formatTurn (ok : Nat → Bool) (sectLast : Nat) (total : Int) (s : FormatState) :
    FormatState ⊕ (FormatEnd × List Nat) :=
  if s.sectFirst ≤ sectLast then
    if ok s.sectFirst then
      let erased := s.erased ++ [s.sectFirst]
      if total = 0 then .inr (.dividedByZero, erased)
      else
        let percent := (s.cur * 100).tdiv total
        .inl
          { sectFirst := s.sectFirst + 1
            cur := s.cur + 1
            last := percent
            shown := if s.last < percent then s.shown ++ [percent] else s.shown
            erased }
    else .inr (.returned false, s.erased)
  else .inr (.returned true, s.erased)

def spiffsFormatInternal (ok : Nat → Bool) (fuel : Nat) (cfg : SpiffsConfig) :
    Option (FormatEnd × List Nat) :=
  if cfg.physAddr = 0 then some (.returned false, [])
  else
    let sectFirst := flashmemGetSectorOfAddress cfg.physAddr
    let sectLast := flashmemGetSectorOfAddress (cfg.physAddr + cfg.physSize)
    let total : Int := sectLast - sectFirst
    loop (formatTurn ok sectLast total) fuel
      { sectFirst, cur := 0, last := -1, shown := [], erased := [] }

/-! ## Formatting -/

/-- The range of `size` bytes from `addr` on meets the sector. -/
def Meets (addr size : Word) (sector : Nat) : Prop :=
  ∃ a, addr.toNat ≤ a ∧ a < addr.toNat + size.toNat ∧ a / sectorSize = sector

section
variable {ok : Nat → Bool} {first last : Nat} {total : Int}

structure FormatProgress (first last : Nat) (s : FormatState) : Prop where
  start : first ≤ s.sectFirst
  stop : s.sectFirst = first ∨ s.sectFirst ≤ last + 1
  erased : ∀ sector, sector ∈ s.erased ↔ first ≤ sector ∧ sector < s.sectFirst

variable {s : FormatState}

lemma formatTurn_go {s' : FormatState} (h : formatTurn ok last total s = .inl s') :
    s.sectFirst ≤ last ∧ total ≠ 0 ∧ s'.sectFirst = s.sectFirst + 1 ∧
      s'.erased = s.erased ++ [s.sectFirst] := by
  unfold formatTurn at h
  split at h
  case isTrue le =>
    split at h
    · simp only at h
      split at h
      case isTrue => cases h
      case isFalse nonzero =>
        cases h
        exact ⟨le, nonzero, rfl, rfl⟩
    · cases h
  case isFalse => cases h

variable {r : FormatEnd × List Nat}

lemma formatTurn_leave (h : formatTurn ok last total s = .inr r) :
    (s.sectFirst ≤ last ∧ ok s.sectFirst = true ∧ total = 0 ∧ r = (.dividedByZero, s.erased ++ [s.sectFirst])) ∨
      (s.sectFirst ≤ last ∧ ok s.sectFirst = false ∧ r = (.returned false, s.erased)) ∨
      (last < s.sectFirst ∧ r = (.returned true, s.erased)) := by
  unfold formatTurn at h
  split at h
  case isTrue le =>
    split at h
    case isTrue erase =>
      simp only at h
      split at h
      case isTrue zero =>
        cases h
        exact Or.inl ⟨le, erase, zero, rfl⟩
      case isFalse => cases h
    case isFalse fail =>
      cases h
      exact Or.inr (Or.inl ⟨le, Bool.eq_false_of_not_eq_true fail, rfl⟩)
  case isFalse gt =>
    cases h
    exact Or.inr (Or.inr ⟨Nat.lt_of_not_le gt, rfl⟩)

lemma FormatProgress.go {s' : FormatState} (p : FormatProgress first last s)
    (h : formatTurn ok last total s = .inl s') : FormatProgress first last s' := by
  obtain ⟨le, -, next, erased⟩ := formatTurn_go h
  obtain ⟨start, stop, mem⟩ := p
  refine ⟨by omega, by omega, ?_⟩
  intro sector
  rw [erased, mem_append, mem_singleton, mem, next]
  omega

lemma format_ends (ok : Nat → Bool) (nonzero : total ≠ 0) (s : FormatState) :
    ∃ r, loop (formatTurn ok last total) (last + 2) s = some r ∧ ∃ b, r.1 = .returned b := by
  apply @loop_total _ _ (formatTurn ok last total) (fun _ => True)
    (fun r => ∃ b, r.1 = .returned b) (fun s => last + 1 - s.sectFirst)
  · intro s s' _ h
    obtain ⟨le, -, next, -⟩ := formatTurn_go h
    exact ⟨trivial, by omega⟩
  · intro s r _ h
    rcases formatTurn_leave h with ⟨-, -, zero, -⟩ | ⟨-, -, rfl⟩ | ⟨-, rfl⟩
    · exact absurd zero nonzero
    · exact ⟨false, rfl⟩
    · exact ⟨true, rfl⟩
  · trivial
  · omega

lemma format_erases (all : ∀ s, ok s = true) (total_eq : total = last - first)
    (init : FormatProgress first last s) {fuel : Nat}
    (h : loop (formatTurn ok last total) fuel s = some r) (sector : Nat) :
    sector ∈ r.2 ↔ first ≤ sector ∧ sector ≤ last := by
  revert sector
  apply @loop_invariant _ _ (formatTurn ok last total) (FormatProgress first last)
    (fun r => ∀ sector, sector ∈ r.2 ↔ first ≤ sector ∧ sector ≤ last) _ _ fuel s r init h
  · intro s s' p h
    exact p.go h
  · intro s r p h sector
    have mem := p.erased sector
    have start := p.start
    have stop := p.stop
    rcases formatTurn_leave h with ⟨le, -, zero, rfl⟩ | ⟨-, fail, -⟩ | ⟨gt, rfl⟩
    · rw [mem_append, mem_singleton, mem]
      omega
    · exact absurd (all _) (by rw [fail]; exact Bool.false_ne_true)
    · rw [mem]
      omega

lemma format_divides (all : ∀ s, ok s = true) (le : s.sectFirst ≤ last)
    {fuel : Nat} (h : loop (formatTurn ok last 0) fuel s = some r) : r.1 = .dividedByZero := by
  apply @loop_invariant _ _ (formatTurn ok last 0) (fun s => s.sectFirst ≤ last)
    (fun r => r.1 = .dividedByZero) _ _ fuel s r le h
  · intro s s' _ h
    exact absurd rfl (formatTurn_go h).2.1
  · intro s r le h
    rcases formatTurn_leave h with ⟨-, -, -, rfl⟩ | ⟨-, fail, -⟩ | ⟨gt, -⟩
    · rfl
    · exact absurd (all _) (by rw [fail]; exact Bool.false_ne_true)
    · exact absurd le (Nat.not_le_of_lt gt)

end

lemma sector_sum (addr size : Word) :
    flashmemGetSectorOfAddress (addr + size) = (addr.toNat + size.toNat) % 2 ^ 32 / sectorSize := by
  rw [flashmemGetSectorOfAddress, BitVec.toNat_add]

variable {addr size : Word}

lemma meets_iff (aligned : addr.toNat % sectorSize = 0) (broken : size.toNat % sectorSize ≠ 0) (sector : Nat) :
    Meets addr size sector ↔ addr.toNat / sectorSize ≤ sector ∧
      sector ≤ (addr.toNat + size.toNat) / sectorSize := by
  unfold Meets
  simp only [sectorSize] at *
  constructor
  · intro meets
    obtain ⟨a, lower, upper, e⟩ := meets
    omega
  · intro range
    exact ⟨sector * 4096, by omega, by omega, by omega⟩

lemma range_of_meets (aligned : addr.toNat % sectorSize = 0)
    (differ : flashmemGetSectorOfAddress addr ≠ flashmemGetSectorOfAddress (addr + size))
    (sectors : ∀ s, (flashmemGetSectorOfAddress addr ≤ s ∧ s ≤ flashmemGetSectorOfAddress (addr + size)) ↔
      Meets addr size s) :
    sectorSize ≤ size.toNat ∧ size.toNat % sectorSize ≠ 0 ∧ addr.toNat + size.toNat < 2 ^ 32 := by
  rw [sector_sum] at differ
  simp only [sector_sum] at sectors
  unfold flashmemGetSectorOfAddress at differ sectors
  have small := size.isLt
  simp only [sectorSize] at *
  -- the first address lies in an erased sector, so the sum did not wrap
  have some : 0 < size.toNat := by
    by_contra none
    have zero : size.toNat = 0 := by omega
    rw [zero, Nat.add_zero, Nat.mod_eq_of_lt addr.isLt] at differ
    exact differ rfl
  have first := (sectors (addr.toNat / 4096)).mpr ⟨addr.toNat, Nat.le_refl _, by omega, rfl⟩
  have fits : addr.toNat + size.toNat < 2 ^ 32 := by omega
  simp only [Nat.mod_eq_of_lt fits] at differ sectors first
  -- the last erased sector holds an address of the range
  obtain ⟨a, lower, upper, e⟩ := (sectors ((addr.toNat + size.toNat) / 4096)).mp
    ⟨first.2, Nat.le_refl _⟩
  simp only [sectorSize] at e
  refine ⟨by omega, by omega, fits⟩

/-- The formatter ends without dividing by zero and erases exactly the sectors of the file system if and only if the
size is more than a sector, not a whole number of them, and the range stays in the address space. -/
theorem spiffs_format_exact_iff (cfg : SpiffsConfig)
    (aligned : cfg.physAddr.toNat % sectorSize = 0) (nonzero : cfg.physAddr ≠ 0) :
    ((∀ ok, ∃ fuel b erased, spiffsFormatInternal ok fuel cfg = some (.returned b, erased)) ∧
      ∀ ok, (∀ s, ok s = true) → ∀ fuel e erased, spiffsFormatInternal ok fuel cfg = some (e, erased) →
        ∀ s, s ∈ erased ↔ Meets cfg.physAddr cfg.physSize s) ↔
    sectorSize ≤ cfg.physSize.toNat ∧ cfg.physSize.toNat % sectorSize ≠ 0 ∧
      cfg.physAddr.toNat + cfg.physSize.toNat < 2 ^ 32 := by
  have init : FormatProgress (flashmemGetSectorOfAddress cfg.physAddr)
      (flashmemGetSectorOfAddress (cfg.physAddr + cfg.physSize))
      { sectFirst := flashmemGetSectorOfAddress cfg.physAddr, cur := 0, last := -1, shown := []
        erased := [] } := by
    refine ⟨Nat.le_refl _, Or.inl rfl, ?_⟩
    intro sector
    simp
  constructor
  · intro ⟨ends, sectors⟩
    obtain ⟨fuel, b, erased, e⟩ := ends fun _ => true
    have meets := sectors (fun _ => true) (fun _ => rfl) fuel _ _ e
    rw [spiffsFormatInternal, if_neg nonzero] at e
    simp only at e
    apply range_of_meets aligned
    · intro same
      rw [same, Int.sub_self] at e
      cases format_divides (fun _ => rfl) (by exact Nat.le_refl _) e
    · intro s
      rw [← meets s, format_erases (fun _ => rfl) rfl init e s]
  · intro ⟨large, broken, fits⟩
    have sum := sector_sum cfg.physAddr cfg.physSize
    rw [Nat.mod_eq_of_lt fits] at sum
    constructor
    · intro ok
      have differ : (flashmemGetSectorOfAddress (cfg.physAddr + cfg.physSize) : Int) -
          flashmemGetSectorOfAddress cfg.physAddr ≠ 0 := by
        rw [sum]
        simp only [flashmemGetSectorOfAddress, sectorSize] at *
        omega
      obtain ⟨⟨_, erased⟩, e, b, rfl⟩ := @format_ends
        (flashmemGetSectorOfAddress (cfg.physAddr + cfg.physSize)) _ ok differ
        { sectFirst := flashmemGetSectorOfAddress cfg.physAddr, cur := 0, last := -1, shown := []
          erased := [] }
      refine ⟨flashmemGetSectorOfAddress (cfg.physAddr + cfg.physSize) + 2, b, erased, ?_⟩
      rw [spiffsFormatInternal, if_neg nonzero]
      exact e
    · intro ok all fuel r erased e s
      rw [spiffsFormatInternal, if_neg nonzero] at e
      rw [format_erases all rfl init e s, meets_iff aligned broken, sum]
      rfl

theorem spiffs_format_exact_sector_and_byte :
    (0x100000 : Word).toNat % sectorSize = 0 ∧ (0x100000 : Word) ≠ 0 ∧
      ∀ ok, ∃ fuel b erased, spiffsFormatInternal ok fuel ⟨0x100000, 0x1001⟩ =
        some (.returned b, erased) := by
  refine ⟨by decide, by decide, ?_⟩
  exact ((spiffs_format_exact_iff ⟨0x100000, 0x1001⟩ (by decide) (by decide)).mpr (by decide)).1

/-- A file system of two sectors: the formatter erases the sector behind it as well. -/
theorem spiffs_format_erases_next_sector :
    ¬ ∀ cfg : SpiffsConfig, cfg.physAddr.toNat % sectorSize = 0 → cfg.physAddr ≠ 0 →
      (∀ ok, ∃ fuel b erased, spiffsFormatInternal ok fuel cfg = some (.returned b, erased)) ∧
      ∀ ok, (∀ s, ok s = true) → ∀ fuel e erased,
        spiffsFormatInternal ok fuel cfg = some (e, erased) →
        ∀ s, s ∈ erased ↔ Meets cfg.physAddr cfg.physSize s := by
  intro all
  have sectors := (all ⟨0x1000, 0x2000⟩ (by decide) (by decide)).2
  have third := (sectors (fun _ => true) (fun _ => rfl) 4 (.returned true) [1, 2, 3] (by decide) 3).mp
    (by decide)
  obtain ⟨a, -, upper, e⟩ := third
  have upper' : a < 0x3000 := upper
  simp only [sectorSize] at e
  omega

/-! ## The callbacks -/

lemma apiSpiffsErase_eq (ok : Nat → Bool) (fuel : Nat) (addr size : Word) :
    apiSpiffsErase ok (fuel + 2) addr size =
      some (if ok (flashmemGetSectorOfAddress addr) then
        (spiffsOk, [flashmemGetSectorOfAddress addr]) else (spiffsErrInternal, [])) := by
  have past : ¬ flashmemGetSectorOfAddress addr + 1 ≤ flashmemGetSectorOfAddress addr :=
    Nat.not_succ_le_self _
  rw [apiSpiffsErase]
  simp only [loop, eraseTurn, Nat.le_refl, if_true]
  by_cases erase : ok (flashmemGetSectorOfAddress addr) = true
  · simp [erase, past]
  · simp [erase]

lemma apiSpiffsErase_ok {ok : Nat → Bool} {fuel : Nat} {erased : List Nat}
    (h : apiSpiffsErase ok fuel addr size = some (spiffsOk, erased)) :
    ok (flashmemGetSectorOfAddress addr) = true ∧ erased = [flashmemGetSectorOfAddress addr] := by
  by_cases erase : ok (flashmemGetSectorOfAddress addr) = true
  · cases fuel with
    | zero => cases h
    | succ fuel =>
      cases fuel with
      | zero => simp [apiSpiffsErase, loop, eraseTurn, erase] at h
      | succ fuel =>
        rw [apiSpiffsErase_eq, if_pos erase] at h
        cases h
        exact ⟨erase, rfl⟩
  · cases fuel with
    | zero => cases h
    | succ fuel => simp [apiSpiffsErase, loop, eraseTurn, erase, spiffsErrInternal, spiffsOk] at h

lemma apiSpiffsErase_iff (ok : Nat → Bool) (addr size : Word) :
    (∀ fuel erased, apiSpiffsErase ok fuel addr size = some (spiffsOk, erased) →
      ∀ s, Meets addr size s → s ∈ erased) ↔
    ok (flashmemGetSectorOfAddress addr) = false ∨
      addr.toNat % sectorSize + size.toNat ≤ sectorSize := by
  constructor
  · intro finished
    by_cases erase : ok (flashmemGetSectorOfAddress addr) = true
    · right
      by_contra beyond
      -- the first address of the next sector belongs to the range
      have done := finished 2 [flashmemGetSectorOfAddress addr] (by
        rw [apiSpiffsErase_eq ok 0, if_pos erase])
      have next := done (flashmemGetSectorOfAddress addr + 1) (by
        refine ⟨(flashmemGetSectorOfAddress addr + 1) * sectorSize, ?_, ?_, ?_⟩
        all_goals
          simp only [flashmemGetSectorOfAddress, sectorSize] at *
          omega)
      rw [mem_singleton] at next
      omega
    · exact Or.inl (Bool.eq_false_of_not_eq_true erase)
  · intro cond fuel erased h s meets
    obtain ⟨erase, rfl⟩ := apiSpiffsErase_ok h
    obtain ⟨a, lower, upper, e⟩ := meets
    rw [mem_singleton]
    rcases cond with fail | inside
    · rw [erase] at fail
      cases fail
    · simp only [flashmemGetSectorOfAddress, sectorSize] at *
      omega

/-- Each callback reports `SPIFFS_OK` only for a request carried out, exactly if: reading and writing, the request is
empty or no SPI flash call fails; erasing, the call fails or the range stays in its first sector. -/
theorem spiffs_hal_ok_iff (ok : Nat → Bool) (addr size buf : Word) :
    ((∀ ram flash, (apiSpiffsRead ok ⟨ram, flash, 0⟩ addr size buf).1 = spiffsOk →
        Moved .read buf addr size.toNat ⟨ram, flash, 0⟩ (apiSpiffsRead ok ⟨ram, flash, 0⟩ addr size buf).2) ↔
      size.toNat = 0 ∨ ∀ i < transferCalls .read buf addr size, ok i = true) ∧
    ((∀ ram flash, (apiSpiffsWrite ok ⟨ram, flash, 0⟩ addr size buf).1 = spiffsOk →
        Moved .write buf addr size.toNat ⟨ram, flash, 0⟩ (apiSpiffsWrite ok ⟨ram, flash, 0⟩ addr size buf).2) ↔
      size.toNat = 0 ∨ ∀ i < transferCalls .write buf addr size, ok i = true) ∧
    ((∀ fuel erased, apiSpiffsErase ok fuel addr size = some (spiffsOk, erased) →
        ∀ s, Meets addr size s → s ∈ erased) ↔ ok (flashmemGetSectorOfAddress addr) = false ∨
        addr.toNat % sectorSize + size.toNat ≤ sectorSize) := by
  refine ⟨?_, ?_, apiSpiffsErase_iff ok addr size⟩
  · rw [← transfer_complete_iff ok .read buf addr size]
    exact ⟨fun reported ram flash => reported ram flash rfl, fun moved ram flash _ => moved ram flash⟩
  · rw [← transfer_complete_iff ok .write buf addr size]
    exact ⟨fun reported ram flash => reported ram flash rfl, fun moved ram flash _ => moved ram flash⟩

/-- Erasing two sectors erases one of them and reports `SPIFFS_OK`; a failed read and a failed write
are reported as `SPIFFS_OK` as well. -/
theorem spiffs_hal_ok_unfinished :
    (¬ ∀ (ok : Nat → Bool) (addr size buf : Word) (ram flash : Word → UInt8),
      (apiSpiffsRead ok ⟨ram, flash, 0⟩ addr size buf).1 = spiffsOk → Moved .read buf addr size.toNat ⟨ram, flash, 0⟩
          (apiSpiffsRead ok ⟨ram, flash, 0⟩ addr size buf).2) ∧
    (¬ ∀ (ok : Nat → Bool) (addr size buf : Word) (ram flash : Word → UInt8),
      (apiSpiffsWrite ok ⟨ram, flash, 0⟩ addr size buf).1 = spiffsOk →
        Moved .write buf addr size.toNat ⟨ram, flash, 0⟩ (apiSpiffsWrite ok ⟨ram, flash, 0⟩ addr size buf).2) ∧
    ¬ ∀ (ok : Nat → Bool) (addr size : Word) (fuel : Nat) (erased : List Nat),
      apiSpiffsErase ok fuel addr size = some (spiffsOk, erased) →
        ∀ s, Meets addr size s → s ∈ erased := by
  refine ⟨?_, ?_, ?_⟩
  · intro all
    have byte := congrFun (all (fun _ => false) 0 4 0 (fun _ => 0) (fun _ => 1) rfl).target 0
    revert byte
    decide
  · intro all
    have byte := congrFun (all (fun _ => false) 0 4 0 (fun _ => 1) (fun _ => 0) rfl).target 0
    revert byte
    decide
  · intro all
    have second := all (fun _ => true) 0 0x2000 2 [0] (by decide) 1 ⟨0x1000, by decide, by decide, rfl⟩
    revert second
    decide

end Sming.Services
