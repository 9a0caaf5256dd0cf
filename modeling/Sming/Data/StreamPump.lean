import Sming.Data.StreamTransformer
import Sming.Lib.Run

/-!
# Reading a stream transformer to its end

`pump` is a reader that calls `readMemoryBlock` and `seek` by what it got until `isFinished`. `Round` says
what one such round does and `Encoded` is its invariant: the reader and the intermediate buffer hold the
encoding of some blocks of the source, and once the source is empty also the beginning of the end of
the encoding.
-/

namespace Sming.Data

open IDataSourceStream Lib List Option

structure Pump (S σ : Type) where
  stream : StreamTransformer S σ
  out : List UInt8 := []
  deriving Repr, DecidableEq

namespace Pump

variable {S σ : Type}

def start (source : S) (state : σ) : Pump S σ :=
  { stream := { sourceStream := source, state := state, lastState := state } }

variable [IDataSourceStream S]

def Finished (p : Pump S σ) : Prop := p.stream.isFinished = some true

instance (p : Pump S σ) : Decidable p.Finished := inferInstanceAs (Decidable (_ = _))

def pump (f : Transform σ) (p : Pump S σ) (bufSize : Nat) : Option (Pump S σ) :=
  if bufSize = 0 ∨ p.Finished then none
  else
    let (data, stream) := p.stream.readMemoryBlock f bufSize
    (stream.seek data.length).map fun r => ⟨r.1, p.out ++ data⟩

end Pump

/-! ## One round -/

namespace Pump

variable {S σ : Type} {f : Transform σ} {WF : S → Prop} {rest : S → List UInt8}

/-- The intermediate buffer, or the one the first read makes. -/
def temp (p : Pump S σ) : CircularBuffer := p.stream.tempStream.getD (.new (networkSendBufferSize + 10))

def Started (p : Pump S σ) : Prop := p.stream.tempStream.isSome

abbrev flow (rest : S → List UInt8) (p : Pump S σ) : Flow σ := p.stream.flow rest p.temp

def AtEnd (rest : S → List UInt8) (p : Pump S σ) : Prop :=
  p.Started ∧ (p.flow rest).unread = [] ∧ (p.flow rest).content = []

structure Round (f : Transform σ) (rest : S → List UInt8) (p : Pump S σ) (bufSize : Nat)
    (q : Pump S σ) : Prop where
  started : q.Started
  unread : (q.flow rest).unread = ((p.flow rest).refill f bufSize).unread
  state : (q.flow rest).state = ((p.flow rest).refill f bufSize).state
  content : (q.flow rest).content = ((p.flow rest).refill f bufSize).content.drop bufSize
  bytes : q.out ++ (q.flow rest).content = p.out ++ ((p.flow rest).refill f bufSize).content

/-- Reader and buffer have the encoding of some blocks of the source; it has ended after the first read that leaves
nothing there, with `k` bytes of its end present. -/
structure Encoded (f : Transform σ) (rest : S → List UInt8) (init : σ) (src : List UInt8)
    (p : Pump S σ) (bs : List (List UInt8)) (k : Nat) : Prop where
  nonempty : ∀ b ∈ bs, b ≠ []
  source : src = bs.flatten ++ (p.flow rest).unread
  bytes : p.out ++ (p.flow rest).content = (f.blocks init bs).1 ++ (f.ending (f.blocks init bs).2).take k
  unended : ¬ ((p.flow rest).unread = [] ∧ p.Started) →
    k = 0 ∧ (p.flow rest).state = (f.blocks init bs).2
  idle : ¬ p.Started → bs = [] ∧ (p.flow rest).content = []

/-- `Good` tells the whole encoding of `src` from one that lacks bytes at its end. -/
structure Recognizes (f : Transform σ) (init : σ) (src : List UInt8) (Good : List UInt8 → Prop) :
    Prop where
  whole : ∀ bs, (∀ b ∈ bs, b ≠ []) → bs.flatten = src →
    Good ((f.blocks init bs).1 ++ f.ending (f.blocks init bs).2)
  cut : ∀ bs k, (∀ b ∈ bs, b ≠ []) → bs.flatten = src → k < (f.ending (f.blocks init bs).2).length →
    ¬ Good ((f.blocks init bs).1 ++ (f.ending (f.blocks init bs).2).take k)

/-- The end of the encoding fits behind what a read of `bufSize` bytes puts into the empty buffer. -/
def Fits (f : Transform σ) (rest : S → List UInt8) (p : Pump S σ) (bufSize : Nat) : Prop :=
  (p.flow rest).content = [] →
    if (p.flow rest).unread = [] then f.ending (p.flow rest).state = []
    else (p.flow rest).Drains f bufSize →
      ((p.flow rest).all f).1.length + (f.ending ((p.flow rest).all f).2).length ≤ tempCapacity

def Complete (rest : S → List UInt8) (Good : List UInt8 → Prop) (p : Pump S σ) : Prop :=
  (p.flow rest).unread = [] → p.Started → Good (p.out ++ (p.flow rest).content)

lemma Recognizes.iff {init : σ} {src : List UInt8} {Good : List UInt8 → Prop}
    (g : Recognizes f init src Good) {bs : List (List UInt8)} (nonempty : ∀ b ∈ bs, b ≠ [])
    (source : bs.flatten = src) (k : Nat) :
    Good ((f.blocks init bs).1 ++ (f.ending (f.blocks init bs).2).take k) ↔
      (f.ending (f.blocks init bs).2).length ≤ k := by
  constructor
  · intro good
    exact Nat.not_lt.mp fun less => g.cut bs k nonempty source less good
  · intro le
    rw [take_of_length_le le]
    exact g.whole bs nonempty source

variable {p : Pump S σ} {bs : List (List UInt8)} {k : Nat} {init : σ} {src : List UInt8}
  {bufSize : Nat} {Good : List UInt8 → Prop}

lemma Encoded.complete_iff (e : Encoded f rest init src p bs k) (g : Recognizes f init src Good)
    (last : (p.flow rest).unread = []) (started : p.Started) :
    p.Complete rest Good ↔ (f.ending (f.blocks init bs).2).length ≤ k := by
  have source : bs.flatten = src := by rw [e.source, last, append_nil]
  rw [← g.iff e.nonempty source k, ← e.bytes]
  exact ⟨fun c => c last started, fun good _ _ => good⟩

section Round

variable {q : Pump S σ}

lemma Encoded.idle_round (e : Encoded f rest init src p bs k) (r : Round f rest p bufSize q)
    (h : (p.flow rest).content ≠ [] ∨ (p.flow rest).unread = []) : Encoded f rest init src q bs k := by
  obtain ⟨started, unread, state, -, bytes⟩ := r
  rw [Flow.refill_idle h] at unread state bytes
  refine ⟨e.nonempty, ?_, bytes.trans e.bytes, ?_, absurd started⟩
  · rw [unread]
    exact e.source
  · rw [unread, state]
    exact fun h => e.unended fun h' => h ⟨h'.1, started⟩

lemma Encoded.refill_round (e : Encoded f rest init src p bs k) (r : Round f rest p bufSize q)
    (empty : (p.flow rest).content = []) (some : (p.flow rest).unread ≠ [])
    {w : Flow σ} {cs : List (List UInt8)} (moved : Flow.Moved f (p.flow rest) w cs) {j : Nat}
    (refilled : (p.flow rest).refill f bufSize = w ∧ w.unread ≠ [] ∧ j = 0 ∨
      ((p.flow rest).refill f bufSize).unread = [] ∧ w.unread = [] ∧
        ((p.flow rest).refill f bufSize).content = w.content ++ (f.ending w.state).take j) :
    Encoded f rest init src q (bs ++ cs) j ∧ w.state = (f.blocks init (bs ++ cs)).2 := by
  obtain ⟨rfl, state⟩ := e.unended fun h => some h.1
  have bytes := e.bytes
  rw [empty, append_nil, take_zero, append_nil] at bytes
  have after : w.state = (f.blocks init (bs ++ cs)).2 := by
    rw [f.blocks_append, moved.state, state]
  have taken : (f.blocks init (bs ++ cs)).1 = p.out ++ w.content := by
    rw [f.blocks_append, moved.content, empty, nil_append, state, bytes]
  refine ⟨⟨?_, ?_, ?_, ?_, absurd r.started⟩, after⟩
  · intro b hb
    rcases mem_append.mp hb with hb | hb
    · exact e.nonempty b hb
    · exact moved.nonempty b hb
  · rw [r.unread, flatten_append, List.append_assoc, e.source, moved.unread]
    rcases refilled with ⟨same, -⟩ | ⟨last, last', -⟩
    · rw [same]
    · rw [last, last']
  · rw [r.bytes, ← after, taken, List.append_assoc]
    rcases refilled with ⟨same, -, rfl⟩ | ⟨-, -, content⟩
    · rw [same, take_zero, append_nil]
    · rw [content]
  · intro open'
    rw [r.unread] at open'
    rcases refilled with ⟨same, -, rfl⟩ | ⟨last, -⟩
    · refine ⟨rfl, ?_⟩
      rw [r.state, same, after]
    · exact absurd ⟨last, r.started⟩ open'

lemma Encoded.round (e : Encoded f rest init src p bs k) (g : Recognizes f init src Good)
    (pos : 0 < f.blockSize) (r : Round f rest p bufSize q) (more : ¬ p.AtEnd rest) :
    (∃ bs k, Encoded f rest init src q bs k) ∧
      (q.Complete rest Good ↔ p.Complete rest Good ∧ p.Fits f rest bufSize) := by
  by_cases empty : (p.flow rest).content = []
  case neg =>
    -- the buffer is not empty: bytes move to the reader
    have was : p.Started := not_imp_comm.mp e.idle fun h => empty h.2
    refine ⟨⟨_, _, e.idle_round r (.inl empty)⟩, ?_⟩
    have same : q.Complete rest Good ↔ p.Complete rest Good := by
      unfold Complete
      rw [r.bytes, r.unread, Flow.refill_idle (.inl empty)]
      exact ⟨fun c last _ => c last r.started, fun c last _ => c last was⟩
    have fits : p.Fits f rest bufSize := fun h => absurd h empty
    rw [same, and_iff_left fits]
  by_cases last : (p.flow rest).unread = []
  case pos =>
    -- the first read, of a source without content
    have fresh : ¬ p.Started := fun started => more ⟨started, last, empty⟩
    obtain ⟨rfl, state⟩ := e.unended fun h => fresh h.2
    have e' := e.idle_round r (.inr last)
    refine ⟨⟨_, _, e'⟩, ?_⟩
    rw [e'.complete_iff g (by rw [r.unread, Flow.refill_idle (.inr last)]; exact last) r.started,
      Nat.le_zero, List.length_eq_zero_iff, ← state]
    unfold Fits
    rw [if_pos last]
    exact ⟨fun h => ⟨fun _ started => absurd started fresh, fun _ => h⟩, fun h => h.2 empty⟩
  have trivially : p.Complete rest Good := fun h => absurd h last
  unfold Fits
  rw [if_neg last, and_iff_right trivially]
  by_cases d : (p.flow rest).Drains f bufSize
  case pos =>
    obtain ⟨⟨cs, moved⟩, refilled⟩ := Flow.refill_drains pos empty last d
    obtain ⟨e', after⟩ := e.refill_round r empty last moved (.inr (by rw [refilled]; exact ⟨rfl, rfl, rfl⟩))
    refine ⟨⟨_, _, e'⟩, ?_⟩
    rw [e'.complete_iff g (by rw [r.unread, refilled]) r.started, ← after]
    have fits := d.2
    simp only
    constructor
    · intro h _ _
      omega
    · intro h
      have := h empty d
      omega
  case neg =>
    obtain ⟨⟨cs, moved⟩, left⟩ := Flow.refill_not_drains pos empty last d
    obtain ⟨e', -⟩ := e.refill_round r empty last moved (.inl ⟨rfl, left, rfl⟩)
    refine ⟨⟨_, _, e'⟩, ?_⟩
    constructor
    · exact fun _ _ h => absurd h d
    · intro _ h
      rw [r.unread] at h
      exact absurd h left

end Round

/-! ## Whole runs -/

def work (rest : S → List UInt8) (p : Pump S σ) : Nat :=
  (p.flow rest).unread.length * (tempCapacity + 1) + (p.flow rest).content.length +
    if p.stream.tempStream.isSome then 0 else 1

lemma Round.work_lt {q : Pump S σ} (r : Round f rest p bufSize q) (pos : 0 < f.blockSize)
    (small : f.Small) (h : 0 < bufSize) (fits : (q.flow rest).content.length ≤ tempCapacity)
    (more : ¬ p.AtEnd rest) : q.work rest < p.work rest := by
  have started : q.stream.tempStream.isSome := r.started
  unfold work
  rw [if_pos started]
  by_cases idle : (p.flow rest).content ≠ [] ∨ (p.flow rest).unread = []
  · rw [r.unread, r.content, Flow.refill_idle idle, length_drop]
    by_cases empty : (p.flow rest).content = []
    · have fresh : ¬ p.stream.tempStream.isSome := fun started =>
        more ⟨started, idle.resolve_left (not_not_intro empty), empty⟩
      rw [if_neg fresh]
      omega
    · have := length_pos_iff.mpr empty
      omega
  · obtain ⟨empty, some⟩ := not_or.mp idle
    have less := Flow.refill_progress pos small h (not_not.mp empty) some
    rw [← r.unread] at less
    have := Nat.mul_le_mul_right (tempCapacity + 1) less
    rw [Nat.succ_mul] at this
    omega

def Inv (f : Transform σ) (WF : S → Prop) (rest : S → List UInt8) (init : σ) (src : List UInt8)
    (p : Pump S σ) : Prop := Sound WF p.stream.sourceStream p.temp ∧ ∃ bs k, Encoded f rest init src p bs k

lemma Inv.start {source : S} (wf : WF source) (f : Transform σ) (init : σ) :
    Inv f WF rest init (rest source) (Pump.start source init) := by
  refine ⟨⟨wf, CircularBuffer.new_valid (by decide), ?_⟩, [], 0, ?_⟩
  · exact List.length_replicate
  · exact ⟨by simp, rfl, rfl, fun _ => ⟨rfl, rfl⟩, fun _ => ⟨rfl, rfl⟩⟩

variable [IDataSourceStream S]

lemma finished_iff (full : Full S WF rest) {p : Pump S σ} (h : Sound WF p.stream.sourceStream p.temp) :
    p.Finished ↔ p.AtEnd rest := by
  have ended := full.finished h.source
  have empty := h.valid.isFinished_iff
  unfold Finished AtEnd Started StreamTransformer.isFinished
  unfold temp at empty
  cases e : p.stream.tempStream with
  | none => simp
  | some temp =>
    rw [e, getD_some] at empty
    by_cases last : rest p.stream.sourceStream = []
    · simp [Pump.temp, e, last, ended, empty]
    · simp [last, ended]

lemma pump_refines (full : Full S WF rest) (block : 0 < f.blockSize) (small : f.Small) {p : Pump S σ} {bufSize : Nat}
    (h : Sound WF p.stream.sourceStream p.temp) (pos : 0 < bufSize) (more : ¬ p.Finished) :
    ∃ q, p.pump f bufSize = some q ∧ Sound WF q.stream.sourceStream q.temp ∧ Round f rest p bufSize q := by
  obtain ⟨temp, isSome, sound, refilled, shown⟩ :=
    @StreamTransformer.readMemoryBlock_refines _ _ f _ _ _ full block small bufSize p.stream p.temp rfl h
  have le : (p.stream.readMemoryBlock f bufSize).1.length ≤ temp.toList.length := by
    rw [shown]
    exact length_take_le' _ _
  obtain ⟨valid, dropped, size⟩ := sound.valid.seek le
  rw [pump, if_neg (not_or.mpr ⟨by omega, more⟩)]
  simp only [StreamTransformer.seek, isSome, map_some]
  refine ⟨_, rfl, ⟨sound.source, valid, size.trans sound.size⟩, rfl, ?_, ?_, ?_, ?_⟩
  · rw [← refilled]
  · rw [← refilled]
  · rw [← refilled]
    simp only [Pump.temp, getD_some, dropped]
    rw [shown, drop_length_take]
  · rw [← refilled]
    simp only [Pump.temp, getD_some, dropped]
    rw [shown, drop_length_take, List.append_assoc, take_append_drop]

lemma pump_enabled {q : Pump S σ} (h : p.pump f bufSize = some q) : 0 < bufSize ∧ ¬ p.Finished := by
  unfold pump at h
  split at h
  case isTrue => cases h
  case isFalse stop =>
    obtain ⟨zero, more⟩ := not_or.mp stop
    exact ⟨Nat.pos_of_ne_zero zero, more⟩

lemma Inv.pump (full : Full S WF rest) (inv : Inv f WF rest init src p) (pos : 0 < f.blockSize)
    (small : f.Small) (g : Recognizes f init src Good) (h : 0 < bufSize) (more : ¬ p.Finished) :
    ∃ q, p.pump f bufSize = some q ∧ Inv f WF rest init src q ∧ q.work rest < p.work rest ∧
      (q.Complete rest Good ↔ p.Complete rest Good ∧ p.Fits f rest bufSize) := by
  obtain ⟨sound, bs, k, e⟩ := inv
  obtain ⟨q, done, sound', r⟩ := @pump_refines _ _ f _ _ _ full pos small p bufSize sound h more
  rw [finished_iff full sound] at more
  obtain ⟨e', complete⟩ := e.round g pos r more
  exact ⟨q, done, ⟨sound', e'⟩, r.work_lt pos small h sound'.length_le more, complete⟩

/-- For all sizes of reads the reader stops, with the whole encoding exactly if its end always fitted (`ok` says the
same). -/
theorem pump_complete_iff (full : Full S WF rest) (pos : 0 < f.blockSize)
    (small : f.Small) {source : S} (wf : WF source) (g : Recognizes f init (rest source) Good)
    {ok : Pump S σ → Nat → Prop} (guard : ∀ {p b}, Inv f WF rest init (rest source) p →
      ¬ p.AtEnd rest → (p.Fits f rest b ↔ ok p b)) {sizes : Nat → Nat} (h : ∀ i, 0 < sizes i) :
    ∃ n p, Run (pump f) Always (start source init) ((range n).map sizes) p ∧ p.Finished ∧
      (Good p.out ↔ Run (pump f) ok (start source init) ((range n).map sizes) p) := by
  obtain ⟨n, p, r, inv, finished⟩ : ∃ n p,
      Run (pump f) Always (start source init) ((range n).map sizes) p ∧
        Inv f WF rest init (rest source) p ∧ p.Finished := by
    apply Run.reaches sizes (work rest) (Inv.start wf f init)
    intro t i inv more
    obtain ⟨u, done, inv', less, -⟩ := inv.pump full pos small g (h i) more
    exact ⟨u, trivial, done, inv', less⟩
  have keep : ∀ {t b u}, Inv f WF rest init (rest source) t → t.pump f b = some u →
      Inv f WF rest init (rest source) u ∧
        (u.Complete rest Good ↔ t.Complete rest Good ∧ ok t b) := by
    intro t b u inv st
    obtain ⟨some, more⟩ := pump_enabled st
    obtain ⟨u', done, inv', -, complete⟩ := inv.pump full pos small g some more
    obtain rfl : u' = u := Option.some.inj (done.symm.trans st)
    rw [finished_iff full inv.1] at more
    rw [← guard inv more]
    exact ⟨inv', complete⟩
  refine ⟨n, p, r, finished, ?_⟩
  obtain ⟨started, last, empty⟩ := (finished_iff full inv.1).mp finished
  have got : Good p.out ↔ p.Complete rest Good := by
    rw [← append_nil p.out, ← empty]
    exact ⟨fun good _ _ => good, fun c => c last started⟩
  rw [got]
  apply @Run.iff_guarded _ _ (pump f) ok Always (Complete rest Good) _ _ _ r
  · exact fun _ fresh => absurd fresh Bool.false_ne_true
  · intro es t e u r _ st
    exact (keep (r.invariant (Inv.start wf f init) fun inv _ st => (keep inv st).1) st).2

end Pump

end Sming.Data
