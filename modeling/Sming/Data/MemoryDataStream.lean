import Mathlib.Data.List.Basic

/-!
# The memory stream

Embedding of `Sming/SmingCore/Data/Stream/MemoryDataStream.cpp`. The block behind `buf` is a list of
the bytes that were really allocated, so that a `memcpy` outside of it can be told from one inside:
such a write has no defined outcome, and `write` then answers `none`. `pos` is kept as the offset
`pos - buf`. Whether `malloc` and `realloc` succeed is an input of `write`.

Two things of the source matter to every user of the class. Each successful `write` moves the read
cursor back to the start of the buffer (`pos = buf`). And `capacity` is set before `realloc` is
known to have succeeded, so after a failure it promises more room than the block has.
-/

namespace Sming.Data
open List Option

/-- The fields of `MemoryDataStream`; `buf` is null or a block of allocated bytes. -/
structure MemoryDataStream where
  buf : Option (List UInt8) := none
  pos : Nat := 0
  size : Nat := 0
  capacity : Nat := 0
  deriving Repr, DecidableEq

namespace MemoryDataStream

/-- `realloc` to `n` bytes: the old bytes stay, new ones hold anything (here 0). -/
def realloc (block : List UInt8) (n : Nat) : List UInt8 :=
  (block ++ List.replicate (n - block.length) 0).take n

variable (s : MemoryDataStream)

/-- Copy `data` and a terminator to offset `cur` of the block, if the block reaches that far. -/
def store (block data : List UInt8) : Option (MemoryDataStream × Nat) :=
  if s.size + data.length + 1 ≤ block.length then
    some ({ s with
      buf := some (block.take s.size ++ data ++ [0] ++ block.drop (s.size + data.length + 1))
      pos := 0
      size := s.size + data.length }, data.length)
  else none

/-- Append bytes; the answer is the number stored. -/
def write (data : List UInt8) (alloc : Bool) : Option (MemoryDataStream × Nat) :=
  match s.buf with
  | none =>
    if alloc then
      some ({ s with buf := some (data ++ [0]), pos := 0, size := s.size + data.length },
        data.length)
    else some (s, 0)
  | some block =>
    let required := s.size + data.length + 1
    if s.capacity < required then
      let capacity := if required < 256 then required + 128 else required + 64
      if alloc then store { s with capacity := capacity } (realloc block capacity) data
      else
        -- `capacity` keeps the new value although the block did not grow
        some ({ s with capacity := capacity }, 0)
    else store s block data

/-- Copy at most `bufSize` bytes from the cursor on. -/
def readMemoryBlock (bufSize : Nat) : List UInt8 :=
  ((s.buf.getD []).drop s.pos).take (min (s.size - s.pos) bufSize)

def seek (len : Int) : MemoryDataStream × Bool :=
  if len < 0 then (s, false) else ({ s with pos := s.pos + len.toNat }, true)

def isFinished : Bool := s.size == s.pos

def unread : List UInt8 := ((s.buf.getD []).take s.size).drop s.pos

/-- The shape of a stream: the bytes counted by `size` and a terminator are inside the block, and
the cursor is not past the end. -/
structure WF (s : MemoryDataStream) : Prop where
  null : s.buf = none → s.size = 0
  room : ∀ block, s.buf = some block → s.size < block.length
  cursor : s.pos ≤ s.size

instance (s : MemoryDataStream) : Decidable s.WF :=
  decidable_of_iff
    ((s.buf = none → s.size = 0) ∧ (∀ block ∈ s.buf, s.size < block.length) ∧ s.pos ≤ s.size)
    ⟨fun ⟨null, room, cursor⟩ => ⟨null, room, cursor⟩, fun ⟨null, room, cursor⟩ => ⟨null, room, cursor⟩⟩

def Sound : Prop := ∀ block, s.buf = some block → s.capacity ≤ block.length

instance (s : MemoryDataStream) : Decidable s.Sound :=
  match h : s.buf with
  | none => isTrue fun block e => by rw [h] at e; cases e
  | some block =>
    if hc : s.capacity ≤ block.length then isTrue fun b e => by rw [h] at e; cases e; exact hc
    else isFalse fun hs => hc (hs block h)

lemma WF.new : WF {} where
  null _ := rfl
  room _ h := by cases h
  cursor := Nat.le_refl _

def holding (content : List UInt8) : MemoryDataStream :=
  { buf := some (content ++ [0]), size := content.length }

lemma WF.holding (content : List UInt8) : (holding content).WF where
  null h := by cases h
  room block h := by
    cases h
    simp [MemoryDataStream.holding]
  cursor := Nat.zero_le _

variable {s : MemoryDataStream}

lemma WF.size_le (wf : s.WF) : s.size ≤ (s.buf.getD []).length := by
  cases h : s.buf with
  | none => simp [wf.null h]
  | some block => exact Nat.le_of_lt (wf.room block h)

lemma WF.length_unread (wf : s.WF) : s.unread.length = s.size - s.pos := by
  have := wf.size_le
  simp [unread, Nat.min_eq_left this]

lemma WF.readMemoryBlock_eq (wf : s.WF) (n : Nat) : s.readMemoryBlock n = s.unread.take n := by
  have := wf.size_le
  rw [readMemoryBlock, unread, drop_take, take_take, Nat.min_comm]

lemma WF.seek (wf : s.WF) {n : Nat} (h : n ≤ s.unread.length) :
    (s.seek n).1.WF ∧ (s.seek n).1.unread = s.unread.drop n := by
  rw [wf.length_unread] at h
  have e : (s.seek n).1 = { s with pos := s.pos + n } := by
    rw [MemoryDataStream.seek, if_neg (by omega), Int.toNat_natCast]
  rw [e]
  refine ⟨⟨wf.null, wf.room, ?_⟩, ?_⟩
  · have := wf.cursor
    simp only
    omega
  · simp [unread, Nat.add_comm]

lemma WF.isFinished_iff (wf : s.WF) : s.isFinished = true ↔ s.unread = [] := by
  have := wf.cursor
  rw [← List.length_eq_zero_iff, wf.length_unread, isFinished, beq_iff_eq]
  omega

lemma length_realloc (block : List UInt8) (n : Nat) : (realloc block n).length = n := by
  simp only [realloc, length_take, List.length_append, List.length_replicate]
  omega

lemma take_realloc {block : List UInt8} {n m : Nat} (hm : m ≤ block.length) (hn : m ≤ n) :
    (realloc block n).take m = block.take m := by
  rw [realloc, take_take, Nat.min_eq_left hn, take_append_of_le_length hm]

lemma store_spec (s : MemoryDataStream) (block data : List UInt8) (fits : s.size + data.length + 1 ≤ block.length) :
    ∃ t, store s block data = some (t, data.length) ∧ t.WF ∧
      t.unread = block.take s.size ++ data := by
  refine ⟨_, if_pos fits, ⟨nofun, ?_, Nat.zero_le _⟩, ?_⟩
  · intro b e
    cases e
    simp only [List.length_append, length_take, length_drop, length_cons, length_nil]
    omega
  · have len : (block.take s.size ++ data).length = s.size + data.length := by
      rw [List.length_append, length_take]
      omega
    simp only [unread, getD_some, drop_zero, List.append_assoc]
    rw [← List.append_assoc, take_append_of_le_length (by omega), ← len, take_length]

/-- The write asks for memory: there is no block yet, or `capacity` does not cover the data. -/
def Grows (s : MemoryDataStream) (data : List UInt8) : Prop :=
  s.buf = none ∨ s.capacity < s.size + data.length + 1

def Reaches (s : MemoryDataStream) (data : List UInt8) : Prop :=
  s.size + data.length + 1 ≤ (s.buf.getD []).length

instance (s : MemoryDataStream) (data : List UInt8) : Decidable (s.Grows data) :=
  inferInstanceAs (Decidable (_ ∨ _))

instance (s : MemoryDataStream) (data : List UInt8) : Decidable (s.Reaches data) :=
  inferInstanceAs (Decidable (_ ≤ _))

variable {data : List UInt8}

lemma WF.write_refused (wf : s.WF) (grows : s.Grows data) :
    ∃ t, s.write data false = some (t, 0) ∧ t.WF ∧ t.unread = s.unread := by
  unfold MemoryDataStream.write
  cases hb : s.buf with
  | none => exact ⟨s, rfl, wf, rfl⟩
  | some block =>
    have grow : s.capacity < s.size + data.length + 1 := grows.resolve_left (by simp [hb])
    simp only [grow, if_true]
    -- the block is the old one, but `capacity` is already the new one
    refine ⟨_, rfl, ⟨nofun, ?_, wf.cursor⟩, by rw [unread, unread, hb]⟩
    intro b e
    exact wf.room b (hb.trans e)

lemma WF.write_accepted (wf : s.WF) {alloc : Bool}
    (h : s.Grows data ∧ alloc = true ∨ ¬ s.Grows data ∧ s.Reaches data) :
    ∃ t, s.write data alloc = some (t, data.length) ∧ t.WF ∧
      t.unread = (s.buf.getD []).take s.size ++ data := by
  unfold MemoryDataStream.write
  cases hb : s.buf with
  | none =>
    have hs := wf.null hb
    have got : alloc = true := by
      rcases h with ⟨-, got⟩ | ⟨no, -⟩
      · exact got
      · exact absurd (.inl hb) no
    simp only [got, if_true]
    refine ⟨_, rfl, ⟨nofun, ?_, Nat.zero_le _⟩, ?_⟩
    · intro b e
      cases e
      simp [hs]
    · simp [unread, hs]
  | some block =>
    have hr := wf.room block hb
    simp only [getD_some]
    rcases h with ⟨grows, got⟩ | ⟨no, reaches⟩
    · have grow : s.capacity < s.size + data.length + 1 := grows.resolve_left (by simp [hb])
      simp only [grow, got, if_true]
      generalize hc : (if s.size + data.length + 1 < 256 then s.size + data.length + 1 + 128
        else s.size + data.length + 1 + 64) = capacity
      have le : s.size + data.length + 1 ≤ capacity := by
        rw [← hc]
        split <;> omega
      obtain ⟨t, e, wft, ht⟩ := store_spec { s with capacity := capacity }
        (realloc block capacity) data (by rw [length_realloc]; exact le)
      refine ⟨t, e, wft, ?_⟩
      rw [ht, take_realloc (Nat.le_of_lt hr) (by omega)]
    · have stay : ¬ s.capacity < s.size + data.length + 1 := fun grow => no (.inr grow)
      simp only [stay, if_false]
      rw [Reaches, hb] at reaches
      obtain ⟨t, e, wft, ht⟩ := store_spec s block data reaches
      exact ⟨t, e, wft, ht⟩

lemma write_outside {alloc : Bool} (no : ¬ s.Grows data)
    (outside : ¬ s.Reaches data) : s.write data alloc = none := by
  unfold MemoryDataStream.write
  cases hb : s.buf with
  | none => exact absurd (.inl hb) no
  | some block =>
    have stay : ¬ s.capacity < s.size + data.length + 1 := fun grow => no (.inr grow)
    rw [Reaches, hb] at outside
    simp only [stay, if_false]
    exact if_neg outside

lemma WF.of_write (wf : s.WF) {alloc : Bool} {t : MemoryDataStream} {n : Nat} (h : s.write data alloc = some (t, n)) :
    t.WF := by
  by_cases grows : s.Grows data
  · cases alloc with
    | false =>
      obtain ⟨u, e, wfu, -⟩ := wf.write_refused grows
      cases h.symm.trans e
      exact wfu
    | true =>
      obtain ⟨u, e, wfu, -⟩ := wf.write_accepted (.inl ⟨grows, rfl⟩)
      cases h.symm.trans e
      exact wfu
  · by_cases reaches : s.Reaches data
    · obtain ⟨u, e, wfu, -⟩ := wf.write_accepted (.inr ⟨grows, reaches⟩)
      cases h.symm.trans e
      exact wfu
    · cases h.symm.trans (write_outside grows reaches)

lemma WF.write_spec (wf : s.WF) (sound : s.Sound) (data : List UInt8) (alloc : Bool) :
    ∃ t n, s.write data alloc = some (t, n) ∧ t.WF ∧
      ((n = data.length ∧ t.unread = (s.buf.getD []).take s.size ++ data) ∨ (n = 0 ∧ t.unread = s.unread)) := by
  by_cases grows : s.Grows data
  · cases alloc with
    | false =>
      obtain ⟨t, e, wft, ht⟩ := wf.write_refused grows
      exact ⟨t, 0, e, wft, .inr ⟨rfl, ht⟩⟩
    | true =>
      obtain ⟨t, e, wft, ht⟩ := wf.write_accepted (.inl ⟨grows, rfl⟩)
      exact ⟨t, _, e, wft, .inl ⟨rfl, ht⟩⟩
  · -- here the block has to be as large as `capacity` says
    have reaches : s.Reaches data := by
      obtain ⟨has, room⟩ := not_or.mp grows
      obtain ⟨block, hb⟩ := ne_none_iff_exists'.mp has
      rw [Reaches, hb]
      exact Nat.le_trans (Nat.le_of_not_lt room) (sound block hb)
    obtain ⟨t, e, wft, ht⟩ := wf.write_accepted (.inr ⟨grows, reaches⟩)
    exact ⟨t, _, e, wft, .inl ⟨rfl, ht⟩⟩

lemma write_stored (room : s.capacity ≤ (s.buf.getD []).length) (data : List UInt8) :
    ∃ t, s.write data true = some (t, data.length) ∧ t.capacity ≤ (t.buf.getD []).length := by
  have stored {u : MemoryDataStream} {block : List UInt8}
      (fits : u.size + data.length + 1 ≤ block.length) (room : u.capacity ≤ block.length) :
      ∃ t, store u block data = some (t, data.length) ∧ t.capacity ≤ (t.buf.getD []).length := by
    refine ⟨_, if_pos fits, ?_⟩
    simp only [getD_some, List.length_append, length_take, length_drop, length_cons, length_nil]
    omega
  rw [write]
  cases hb : s.buf with
  | none =>
    rw [hb] at room
    exact ⟨_, rfl, Nat.le_trans room (Nat.zero_le _)⟩
  | some block =>
    rw [hb] at room
    simp only
    split
    case isTrue grow =>
      apply stored
      · rw [length_realloc]
        show s.size + data.length + 1 ≤ _
        split <;> omega
      · exact Nat.le_of_eq (length_realloc block _).symm
    case isFalse noGrow =>
      apply stored
      · exact Nat.le_trans (Nat.not_lt.mp noGrow) room
      · exact room

lemma unread_of_pos_eq_zero (h : s.pos = 0) : s.unread = (s.buf.getD []).take s.size := by
  simp [unread, h]

end MemoryDataStream

end Sming.Data
