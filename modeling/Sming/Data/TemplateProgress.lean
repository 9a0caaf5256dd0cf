import Mathlib.Data.List.Infix
import Sming.Data.TemplateExpansion

/-!
# Reading a template to its end

A reader that moves by all it got, with buffers of one size. `Turn` says what one round does to the part of the template
that is still unread. A round that hands over nothing and stays where it is comes from an opening brace near the end
of the template that begins no tag (`Dangling`): the stream holds it back as the beginning of a name, and nothing
follows. Or it comes from an answer whose 16 bits do not count the whole block: a reader with larger blocks never gets
below 65536 bytes of template.
-/

namespace Sming.Data
open IDataSourceStream Wiring Lib List Option

namespace TemplateStream

variable {S : Type}

/-- The template ends with an opening brace and at most 14 bytes that do not make it a tag. -/
def Dangling (text : List UInt8) : Prop :=
  ∃ before tail, text = before ++ opening :: tail ∧ tail.length < 15 ∧ opening ∉ tail ∧
    ∀ name, Plain name → ¬ tag name <+: opening :: tail

/-- The size of the buffer: enough for a tag and for every value. A value is a `String`, which has 16 bits for its
length. -/
structure Enough (vars : TemplateVariables) (bufSize : Nat) : Prop where
  tags : templateMaxVarNameLen + 2 ≤ bufSize
  values : ∀ v ∈ vars.entries, v.2.length ≤ bufSize
  strings : ∀ v ∈ vars.entries, v.2.length < 2 ^ 16

/-- What a read of the template counts. -/
def block (bufSize : Nat) (text : List UInt8) : List UInt8 := counted (text.take bufSize)

/-- Every answer counts its block, for the template and for what is left of it later. -/
def Counts (bufSize : Nat) (text : List UInt8) : Prop := bufSize < 2 ^ 16 ∨ text.length < 2 ^ 16

structure Ready (WF : S → Prop) (rest : S → List UInt8) (vars : TemplateVariables)
    (t : TemplateStream S) : Prop where
  wf : WF t.stream
  vars_eq : t.templateData = vars
  notFound : t.state ≠ .found
  startVar : t.state = .startVar → Plain t.varName ∧ t.skipBlockSize = t.varName.length + 2 ∧
    tag t.varName <+: rest t.stream
  sendingVar : t.state = .sendingVar → t.value.length ≤ t.varDataPos

/-- What a round does to the unread template: it goes on to the next tag, or over text without one, or over the
tag it has come to. -/
inductive Turn (rest : S → List UInt8) (bufSize : Nat) (t u : TemplateStream S) : Prop where
  | found {cur} :
    t.state ≠ .startVar →
    u.state = .startVar →
    rest u.stream = (rest t.stream).drop cur →
    Turn rest bufSize t u
  | text {lastFound} :
    t.state ≠ .startVar →
    Passed (block bufSize (rest t.stream)) (block bufSize (rest t.stream)).length lastFound →
    rest u.stream = (rest t.stream).drop (trim (block bufSize (rest t.stream)) lastFound).length →
    Turn rest bufSize t u
  | past :
    t.state = .startVar →
    rest u.stream = (rest t.stream).drop (t.varName.length + 2) →
    Turn rest bufSize t u

variable {WF : S → Prop} {rest : S → List UInt8} {vars : TemplateVariables} {t u : TemplateStream S}
  {bufSize : Nat}

/-! ## Progress -/

variable {text : List UInt8}

lemma block_isPrefix (bufSize : Nat) (text : List UInt8) : block bufSize text <+: text :=
  (counted_isPrefix _).trans (List.take_prefix _ _)

lemma Counts.block_eq (counts : Counts bufSize text) : block bufSize text = text.take bufSize := by
  refine counted_of_lt ?_
  rw [length_take]
  rcases counts with few | short
  · exact Nat.lt_of_le_of_lt (Nat.min_le_left _ _) few
  · exact Nat.lt_of_le_of_lt (Nat.min_le_right _ _) short

lemma Counts.of_suffix {text' : List UInt8} (suffix : text <:+ text') (counts : Counts bufSize text') :
    Counts bufSize text := counts.imp_right (Nat.lt_of_le_of_lt suffix.length_le)

lemma Dangling.of_suffix {text' : List UInt8} (suffix : text <:+ text') (d : Dangling text) : Dangling text' := by
  obtain ⟨front, rfl⟩ := suffix
  obtain ⟨before, tail, rfl, rest⟩ := d
  exact ⟨front ++ before, tail, by rw [List.append_assoc], rest⟩

lemma dangling_of_trim {lastFound : Option Nat} (ne : text ≠ []) (size : templateMaxVarNameLen + 2 ≤ bufSize)
    (counts : Counts bufSize text) (passed : Passed (block bufSize text) (block bufSize text).length lastFound)
    (none : trim (block bufSize text) lastFound = []) : Dangling text := by
  rw [counts.block_eq] at passed none
  unfold templateMaxVarNameLen at size
  cases text with
  | nil => exact absurd rfl ne
  | cons c tail =>
    have some_ : (c :: tail).take bufSize ≠ [] := by
      rw [Ne, take_eq_nil_iff]
      rintro (zero | empty)
      · omega
      · cases empty
    cases lastFound with
    | none => exact absurd none some_
    | some l =>
      have isOpening := passed.isOpening l rfl
      have inside := (List.getElem?_eq_some_iff.mp isOpening).1
      unfold trim templateMaxVarNameLen at none
      simp only at none
      split at none
      case isFalse => exact absurd none some_
      case isTrue short =>
        obtain rfl : l = 0 := by
          rcases take_eq_nil_iff.mp none with zero | empty
          · exact zero
          · exact absurd empty some_
        -- so the read has shown all of the template
        have all : (c :: tail).take bufSize = c :: tail := by
          apply take_of_length_le
          rw [length_take] at short
          omega
        rw [all] at passed isOpening short
        obtain rfl : c = opening := Option.some.inj isOpening
        refine ⟨[], tail, rfl, ?_, ?_, passed.noTag 0 (by simp)⟩
        · rw [length_cons] at short
          omega
        · intro mem
          obtain ⟨i, at_⟩ := mem_iff_getElem?.mp mem
          have inside := (List.getElem?_eq_some_iff.mp at_).1
          obtain ⟨l, e, le⟩ := passed.last (i + 1) (by rw [length_cons]; omega) at_
          cases e
          omega

def work (rest : S → List UInt8) (t : TemplateStream S) : Nat :=
  2 * (rest t.stream).length + if t.state = .startVar then 0 else 1

section
variable (turn : Turn rest bufSize t u) (size : templateMaxVarNameLen + 2 ≤ bufSize) (ne : rest t.stream ≠ [])
  (safe : ¬ Dangling (rest t.stream)) (counts : Counts bufSize (rest t.stream))
include turn size ne safe counts

lemma Turn.progress :
    (rest u.stream).length < (rest t.stream).length ∨
      t.state ≠ .startVar ∧ u.state = .startVar ∧ (rest u.stream).length ≤ (rest t.stream).length := by
  have pos := length_pos_iff.mpr ne
  cases turn with
  | found h h' moved =>
    refine .inr ⟨h, h', ?_⟩
    rw [moved, length_drop]
    omega
  | text _ passed moved =>
    left
    have some_ := length_pos_iff.mpr fun none => safe (dangling_of_trim ne size counts passed none)
    rw [moved, length_drop]
    omega
  | past _ moved =>
    left
    rw [moved, length_drop]
    omega

lemma Turn.work_lt : work rest u < work rest t := by
  unfold work
  rcases turn.progress size ne safe counts with less | ⟨notStart, start, le⟩
  · split <;> split <;> omega
  · rw [if_pos start, if_neg notStart]
    omega

end

lemma Turn.suffix (turn : Turn rest bufSize t u) : rest u.stream <:+ rest t.stream := by
  cases turn with
  | found _ _ moved => exact moved ▸ drop_suffix _ _
  | text _ _ moved => exact moved ▸ drop_suffix _ _
  | past _ moved => exact moved ▸ drop_suffix _ _

/-! ## All rounds -/

lemma Ready.of_wait (wf : WF t.stream) (vars_eq : t.templateData = vars) (state : t.state = .wait) :
    Ready WF rest vars t where
  wf := wf
  vars_eq := vars_eq
  notFound := state.trans_ne (by decide)
  startVar h := absurd h (state.trans_ne (by decide))
  sendingVar h := absurd h (state.trans_ne (by decide))

variable {source : S}

lemma ready_start (wf : WF source) : Ready WF rest vars { stream := source, templateData := vars } :=
  .of_wait wf rfl rfl

structure Underway (WF : S → Prop) (rest : S → List UInt8) (vars : TemplateVariables)
    (text : List UInt8) (t : TemplateStream S) : Prop extends Ready WF rest vars t where
  suffix : rest t.stream <:+ text

variable [IDataSourceStream S]

def pump (bufSize : Nat) (t : TemplateStream S) (_ : Unit) : Option (TemplateStream S) :=
  if t.isFinished then none
  else (t.readMemoryBlock bufSize).map fun a => (a.2.seek a.1.length).1

/-- A round that looks for the next tag. -/
lemma Ready.search (full : Full S WF rest) (bufSize : Nat) (wf : WF t.stream) (vars_eq : t.templateData = vars)
    (state : t.state = .wait) :
    Ready WF rest vars ((t.readTemplate bufSize).2.seek (t.readTemplate bufSize).1.length).1 ∧
      Turn rest bufSize t ((t.readTemplate bufSize).2.seek (t.readTemplate bufSize).1.length).1 := by
  have shown := full.read_eq wf bufSize
  have read := t.readsTemplate bufSize
  have moves (k : Nat) (le : k ≤ (t.shown bufSize).length) := full.seek wf bufSize k le
  unfold TemplateStream.shown at moves
  have notStart : t.state ≠ .startVar := state.trans_ne (by decide)
  generalize t.readTemplate bufSize = r at read ⊢
  cases read with
  | @var cur name plain at_ _ =>
    have inside := (List.getElem?_eq_some_iff.mp (getElem?_of_tag at_)).1
    have len : ((IDataSourceStream.readMemoryBlock t.stream bufSize).1.take cur).length = cur := by
      rw [length_take, Nat.min_eq_left (Nat.le_of_lt inside)]
    have at_block : tag name <+: (block bufSize (rest t.stream)).drop cur := by
      rw [shown] at at_
      exact at_
    obtain ⟨wf', moved⟩ := moves cur (Nat.le_of_lt inside)
    simp only [len]
    -- the move ends at the tag
    have seek : (TemplateStream.seek { t with
          stream := (IDataSourceStream.readMemoryBlock t.stream bufSize).2
          varName := name
          skipBlockSize := name.length + 2
          varWaitSize := cur
          state := if cur = 0 then .startVar else .found } cur).1 =
        { t with
          stream := (IDataSourceStream.seek (IDataSourceStream.readMemoryBlock t.stream bufSize).2 cur).1
          varName := name
          skipBlockSize := name.length + 2
          varWaitSize := 0
          state := .startVar } := by
      by_cases zero : cur = 0
      · simp [TemplateStream.seek, zero]
      · simp [TemplateStream.seek, zero]
    rw [seek]
    have here : tag name <+: rest (IDataSourceStream.seek
        (IDataSourceStream.readMemoryBlock t.stream bufSize).2 cur).1 := by
      rw [moved]
      exact at_block.trans ((block_isPrefix _ _).drop cur)
    refine ⟨⟨wf', vars_eq, ?_, fun _ => ⟨plain, rfl, here⟩, fun h => by cases h⟩, .found notStart rfl moved⟩
    intro h
    cases h
  | @plain lastFound passed =>
    have pre := trim_isPrefix (IDataSourceStream.readMemoryBlock t.stream bufSize).1 lastFound
    obtain ⟨wf', moved⟩ := moves _ pre.length_le
    simp only [TemplateStream.seek, state]
    rw [shown] at passed
    refine ⟨.of_wait wf' vars_eq rfl, .text notStart passed ?_⟩
    rw [block, ← shown]
    exact moved

lemma Ready.unread_ne_nil (law : Seekable S WF rest) (ready : Ready WF rest vars t)
    (unfinished : t.isFinished = false) : rest t.stream ≠ [] := by
  intro empty
  rw [TemplateStream.isFinished, (law.finished ready.wf).mpr empty] at unfinished
  cases unfinished

section
variable (full : Full S WF rest) (law : Seekable S WF rest) (enough : Enough vars bufSize)
include full law enough

/-- Every round ends, in one of the ways of `Turn`. -/
lemma Ready.round (ready : Ready WF rest vars t) (unfinished : t.isFinished = false) :
    ∃ u, pump bufSize t () = some u ∧ Ready WF rest vars u ∧ Turn rest bufSize t u := by
  have pos : bufSize ≠ 0 := by
    have := enough.tags
    omega
  unfold pump
  rw [unfinished, if_neg (by decide), TemplateStream.readMemoryBlock, if_neg pos]
  cases state : t.state with
  | wait =>
    obtain ⟨ready', turn⟩ := Ready.search full bufSize ready.wf ready.vars_eq state
    exact ⟨_, rfl, ready', turn⟩
  | found => exact absurd state ready.notFound
  | sendingVar =>
    simp only [Nat.not_lt_of_le (ready.sendingVar state), if_false, map_some]
    obtain ⟨ready', turn⟩ := Ready.search (t := { t with state := .wait }) full bufSize ready.wf
      ready.vars_eq rfl
    refine ⟨_, rfl, ready', ?_⟩
    have notStart : t.state ≠ .startVar := state.trans_ne (by decide)
    cases turn with
    | found _ state' moved => exact .found notStart state' moved
    | text _ passed moved => exact .text notStart passed moved
    | past h => cases h
  | startVar =>
    obtain ⟨plain, skip, at_⟩ := ready.startVar state
    have le : t.varName.length + 2 ≤ (rest t.stream).length := by
      rw [← length_tag]
      exact at_.length_le
    by_cases contains : t.templateData.contains t.varName = true
    · obtain ⟨v, mem⟩ := HashMap.contains_iff_exists.mp contains
      have value : t.value = v := HashMap.value_of_mem mem
      have fits : t.value.length ≤ bufSize := by
        rw [value]
        exact enough.values _ (ready.vars_eq ▸ mem)
      have all : counted t.value = t.value := by
        refine counted_of_lt ?_
        rw [value]
        exact enough.strings _ (ready.vars_eq ▸ mem)
      obtain ⟨wf', moved⟩ := law.seek_le ready.wf _ le
      simp only [contains, if_true, Nat.not_lt_of_le fits, if_false, map_some, all,
        TemplateStream.seek, skip, Nat.zero_add]
      refine ⟨_, rfl, ⟨wf', ready.vars_eq, ?_, fun h => (by cases h), fun _ => Nat.le_refl _⟩, .past state moved⟩
      intro h
      cases h
    · have few : min bufSize t.skipBlockSize < 2 ^ 16 := by
        have short := plain.short
        unfold templateMaxVarNameLen at short
        omega
      have shown := full.read_of_lt ready.wf few
      have len : (IDataSourceStream.readMemoryBlock t.stream (min bufSize t.skipBlockSize)).1.length =
          t.varName.length + 2 := by
        have short := plain.short
        have tags := enough.tags
        rw [shown, skip, length_take]
        omega
      obtain ⟨wf', moved⟩ := full.seek ready.wf (min bufSize t.skipBlockSize) _ (Nat.le_of_eq len.symm)
      simp only [contains, Bool.false_eq_true, if_false, map_some, TemplateStream.seek, len]
      exact ⟨_, rfl, .of_wait wf' ready.vars_eq rfl, .past state moved⟩

lemma Ready.pump (ready : Ready WF rest vars t) (st : TemplateStream.pump bufSize t () = some u) :
    Ready WF rest vars u ∧ Turn rest bufSize t u := by
  have unfinished : t.isFinished = false := by
    by_contra finished
    rw [TemplateStream.pump, if_pos ((Bool.not_eq_false _).mp finished)] at st
    cases st
  obtain ⟨u', st', ready', turn⟩ := ready.round full law enough unfinished
  rw [st] at st'
  cases st'
  exact ⟨ready', turn⟩

lemma Underway.step (h : Underway WF rest vars text t) (st : TemplateStream.pump bufSize t () = some u) :
    Underway WF rest vars text u := by
  obtain ⟨ready, turn⟩ := h.toReady.pump full law enough st
  exact ⟨ready, turn.suffix.trans h.suffix⟩

lemma underway_of_run (wf : WF source) {es : List Unit}
    (run : Run (TemplateStream.pump bufSize) Always { stream := source, templateData := vars } es t) :
    Underway WF rest vars (rest source) t :=
  run.invariant ⟨ready_start wf, suffix_rfl⟩ fun h _ st => h.step full law enough st

lemma Ready.shorter (ready : Ready WF rest vars t) (unfinished : t.isFinished = false)
    (safe : ¬ Dangling (rest t.stream)) (counts : Counts bufSize (rest t.stream)) :
    ∃ es u, es.length ≤ 2 ∧ Run (TemplateStream.pump bufSize) Always t es u ∧
      (rest u.stream).length < (rest t.stream).length := by
  obtain ⟨u, st, ready', turn⟩ := ready.round full law enough unfinished
  have one : Run (TemplateStream.pump bufSize) Always t ([] ++ [()]) u := .snoc .nil trivial st
  have ne := ready.unread_ne_nil law unfinished
  rcases turn.progress enough.tags ne safe counts with less | ⟨-, start, le⟩
  · exact ⟨_, u, by simp, one, less⟩
  · -- the stream has come to a tag, which the next round goes past
    obtain ⟨-, -, at_⟩ := ready'.startVar start
    have unfinished' : u.isFinished = false := by
      by_contra finished
      have empty := (law.finished ready'.wf).mp ((Bool.not_eq_false _).mp finished)
      rw [empty] at at_
      exact absurd (prefix_nil.mp at_) (by simp [tag])
    obtain ⟨v, st', -, turn'⟩ := ready'.round full law enough unfinished'
    refine ⟨_, v, by simp, .snoc one trivial st', ?_⟩
    have safe' : ¬ Dangling (rest u.stream) := fun d => safe (d.of_suffix turn.suffix)
    rcases turn'.progress enough.tags (ready'.unread_ne_nil law unfinished') safe' (counts.of_suffix turn.suffix) with
      less | ⟨notStart, -⟩
    · exact Nat.lt_of_lt_of_le less le
    · exact absurd start notStart

end

end TemplateStream

end Sming.Data
