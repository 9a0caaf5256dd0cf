import Sming.Data.TemplateStream
import Sming.Lib.FirstOccurrence
import Sming.Lib.Run

/-!
# What a template stream delivers

`expand` is the template with every tag of a known variable replaced by the value. A reader of a `TemplateStream` reads
into buffers of any sizes and moves by any part of what it got. `Sparing` is the condition under which it gets the
expansion: no tag is missed, which names of 16 bytes and names with blanks are and those of 15 bytes can be, and the
value of a tag at the end of the template is taken at once, because the stream is finished as soon as the template is.
-/

namespace Sming.Data
open IDataSourceStream Wiring Lib List

namespace TemplateStream

/-! ## The expansion -/

/-- The name of a tag whose opening brace stands right before `rest`: all up to the next closing brace. -/
def tagName (rest : List UInt8) : Option (List UInt8) :=
  let name := rest.takeWhile (· != closing)
  if name.length < rest.length ∧ name.length ≤ templateMaxVarNameLen then some name else none

def expandFrom (vars : TemplateVariables) : Nat → List UInt8 → List UInt8
  | _, [] => []
  | skip + 1, _ :: rest => expandFrom vars skip rest
  | 0, c :: rest =>
    match tagName rest with
    | none => c :: expandFrom vars 0 rest
    | some name =>
      if c = opening ∧ vars.contains name then vars.value name [] ++ expandFrom vars (name.length + 1) rest
      else c :: expandFrom vars 0 rest

/-- The text with the tags of known variables replaced by the values and all else as it is. -/
def expand (vars : TemplateVariables) (text : List UInt8) : List UInt8 := expandFrom vars 0 text

structure Known (vars : TemplateVariables) (name text : List UInt8) : Prop where
  at_ : tag name <+: text
  chars : closing ∉ name
  length_le : name.length ≤ templateMaxVarNameLen
  contains : vars.contains name = true

variable {name : List UInt8}

lemma tagName_eq_some {rest : List UInt8} :
    tagName rest = some name ↔
      closing ∉ name ∧ name.length ≤ templateMaxVarNameLen ∧ name ++ [closing] <+: rest := by
  have cut : tagName rest = if (before closing rest).length < rest.length ∧
      (before closing rest).length ≤ templateMaxVarNameLen then some (before closing rest) else none := rfl
  rw [cut, Option.ite_none_right_eq_some]
  constructor
  · rintro ⟨⟨inside, short⟩, ⟨⟩⟩
    have mem : closing ∈ rest := by
      by_contra absent
      rw [before_of_not_mem absent] at inside
      exact Nat.lt_irrefl _ inside
    obtain ⟨tail, split⟩ := exists_before_append mem
    refine ⟨not_mem_before _ _, short, tail, ?_⟩
    rw [List.append_assoc]
    exact split.symm
  · rintro ⟨chars, short, tail, rfl⟩
    rw [List.append_assoc, singleton_append, before_append_cons chars]
    simp [short]

lemma expandFrom_eq (vars : TemplateVariables) (skip : Nat) (text : List UInt8) :
    expandFrom vars skip text = expand vars (text.drop skip) := by
  induction text generalizing skip with
  | nil =>
    rw [drop_nil]
    cases skip <;> rfl
  | cons c rest ih =>
    cases skip with
    | zero => rfl
    | succ skip => exact ih skip

lemma Known.expand_eq {vars : TemplateVariables} {text : List UInt8} (known : Known vars name text) :
    expand vars text = vars.value name [] ++ expand vars (text.drop (name.length + 2)) := by
  obtain ⟨tail, rfl⟩ := known.at_
  have isTag : tagName (name ++ [closing] ++ tail) = some name :=
    tagName_eq_some.mpr ⟨known.chars, known.length_le, prefix_append _ _⟩
  rw [expand, tag, cons_append, expandFrom, isTag]
  simp only [known.contains, and_self, if_true]
  rw [expandFrom_eq, drop_succ_cons]

lemma expand_cons {vars : TemplateVariables} {c : UInt8} {rest : List UInt8}
    (none : ∀ name, ¬ Known vars name (c :: rest)) : expand vars (c :: rest) = c :: expand vars rest := by
  rw [expand, expandFrom]
  split
  · rfl
  case h_2 name h =>
    obtain ⟨chars, short, pre⟩ := tagName_eq_some.mp h
    rw [if_neg]
    · rfl
    · rintro ⟨rfl, contains⟩
      exact none name ⟨cons_prefix_cons.mpr ⟨rfl, pre⟩, chars, short, contains⟩

lemma expand_copy {vars : TemplateVariables} {k : Nat} {text : List UInt8} (le : k ≤ text.length)
    (none : ∀ o < k, ∀ name, ¬ Known vars name (text.drop o)) :
    expand vars text = text.take k ++ expand vars (text.drop k) := by
  induction k generalizing text with
  | zero => rfl
  | succ k ih =>
    cases text with
    | nil => exact absurd le (by simp)
    | cons c rest =>
      rw [expand_cons (none 0 (Nat.zero_lt_succ k)), take_succ_cons, drop_succ_cons, cons_append]
      congr 1
      apply ih (Nat.le_of_succ_le_succ le)
      intro o lt
      exact none (o + 1) (Nat.succ_lt_succ lt)

/-! ## What one read and one move do while the stream looks for tags -/

variable {S : Type} {WF : S → Prop} {rest : S → List UInt8} {t : TemplateStream S}

structure Placed (WF : S → Prop) (rest : S → List UInt8) (t : TemplateStream S) : Prop where
  wf : WF t.stream
  found : t.state = .found → Plain t.varName ∧ t.skipBlockSize = t.varName.length + 2 ∧
    tag t.varName <+: (rest t.stream).drop t.varWaitSize
  startVar : t.state = .startVar → Plain t.varName ∧ t.skipBlockSize = t.varName.length + 2 ∧
    tag t.varName <+: rest t.stream

lemma Placed.of_ne (wf : WF t.stream) (notFound : t.state ≠ .found) (notStart : t.state ≠ .startVar) :
    Placed WF rest t := ⟨wf, fun h => absurd h notFound, fun h => absurd h notStart⟩

lemma Placed.of_wait (wf : WF t.stream) (state : t.state = .wait) : Placed WF rest t :=
  .of_ne wf (state.trans_ne (by decide)) (state.trans_ne (by decide))

def Searching (t : TemplateStream S) : Prop :=
  t.state = .wait ∨ t.state = .found ∨ t.state = .sendingVar ∧ t.value.length ≤ t.varDataPos

lemma seek_found_state (left : Nat) : (if left = 0 then TemplateExpandState.startVar else .found) ≠ .sendingVar := by
  split <;> decide

variable {len : Nat}

lemma Placed.seek_found {stream : S} {cur : Nat} (plain : Plain name)
    (at_ : tag name <+: (rest t.stream).drop cur) (le : len ≤ cur) (wf : WF stream)
    (moved : rest stream = (rest t.stream).drop len) :
    Placed WF rest { t with
      stream := stream
      varName := name
      skipBlockSize := name.length + 2
      varWaitSize := cur - len
      state := if cur - len = 0 then .startVar else .found } where
  wf := wf
  found _ := by
    refine ⟨plain, rfl, ?_⟩
    change tag name <+: (rest stream).drop (cur - len)
    rw [moved, drop_drop, Nat.add_sub_of_le le]
    exact at_
  startVar h := by
    refine ⟨plain, rfl, ?_⟩
    change tag name <+: rest stream
    simp only at h
    split at h
    case isTrue zero =>
      obtain rfl : len = cur := by omega
      rw [moved]
      exact at_
    case isFalse => cases h

structure Moved (WF : S → Prop) (rest : S → List UInt8) (t : TemplateStream S) (data : List UInt8)
    (len : Nat) (u : TemplateStream S) : Prop where
  placed : Placed WF rest u
  vars : u.templateData = t.templateData
  state : u.state ≠ .sendingVar
  text : data.take len = (rest t.stream).take len
  moved : rest u.stream = (rest t.stream).drop len
  noTag : ∀ o < len, ∀ name, ¬ Known t.templateData name ((rest t.stream).drop o)

lemma take_of_shown {data d text : List UInt8} (shown : data <+: text) (pre : d <+: data)
    (le : len ≤ d.length) : d.take len = text.take len := by
  obtain ⟨tail, rfl⟩ := pre.trans shown
  rw [take_append_of_le_length le]

lemma Known.unique {vars : TemplateVariables} {name' text : List UInt8} (known : Known vars name' text)
    (plain : Plain name) (at_ : tag name <+: text) : name' = name := by
  obtain ⟨tail, rfl⟩ := at_
  have isTag : tagName (name ++ [closing] ++ tail) = some name := by
    refine tagName_eq_some.mpr ⟨fun mem => (plain.chars _ mem).2.1 rfl, ?_, prefix_append _ _⟩
    exact Nat.le_of_lt plain.short
  have isTag' : tagName (name ++ [closing] ++ tail) = some name' := by
    refine tagName_eq_some.mpr ⟨known.chars, known.length_le, ?_⟩
    exact (cons_prefix_cons.mp known.at_).2
  rw [isTag] at isTag'
  exact (Option.some.inj isTag').symm

variable [IDataSourceStream S]

def shown (t : TemplateStream S) (bufSize : Nat) : List UInt8 :=
  (IDataSourceStream.readMemoryBlock t.stream bufSize).1

/-- The tag of a variable that a move by `len` passes is one that the search takes for a tag, and the read
did not end right before its closing brace. -/
def NoTagMissed (rest : S → List UInt8) (t : TemplateStream S) (bufSize len : Nat) : Prop :=
  ∀ o < len, ∀ name, Known t.templateData name ((rest t.stream).drop o) →
    Plain name ∧ ¬ (name.length = 15 ∧ (t.shown bufSize).length = o + 16)

/-- The same for the tag that was found before the read. -/
def FoundNotMissed (t : TemplateStream S) (bufSize len : Nat) : Prop :=
  t.state = .found → t.varName.length = 15 → (t.shown bufSize).length = t.varWaitSize + 16 →
    len ≤ t.varWaitSize

variable {bufSize : Nat}

lemma seek_shown (law : Seekable S WF rest) (wf : WF t.stream) (le : len ≤ (t.shown bufSize).length) :
    WF (IDataSourceStream.seek (IDataSourceStream.readMemoryBlock t.stream bufSize).2 len).1 ∧
      rest (IDataSourceStream.seek (IDataSourceStream.readMemoryBlock t.stream bufSize).2 len).1 =
        (rest t.stream).drop len := law.seek wf bufSize len le

lemma Placed.unknown (law : Seekable S WF rest) (p : Placed WF rest t) (state : t.state = .startVar)
    (unknown : t.templateData.contains t.varName = false)
    (le : len ≤ (t.shown (min bufSize t.skipBlockSize)).length) :
    Moved WF rest t (t.shown (min bufSize t.skipBlockSize)) len
      (TemplateStream.seek { t with
        stream := (IDataSourceStream.readMemoryBlock t.stream (min bufSize t.skipBlockSize)).2
        state := .wait } len).1 := by
  obtain ⟨plain, skip, at_⟩ := p.startVar state
  have shown := (law.read p.wf (min bufSize t.skipBlockSize)).1
  have le_skip : len ≤ t.varName.length + 2 := by
    have := law.read_le p.wf (min bufSize t.skipBlockSize)
    rw [← skip]
    exact Nat.le_trans le (Nat.le_trans this (Nat.min_le_right _ _))
  obtain ⟨wf, moved⟩ := seek_shown law p.wf le
  refine ⟨.of_wait wf rfl, rfl, Eq.trans_ne rfl (by decide : TemplateExpandState.wait ≠ .sendingVar),
    take_of_shown shown prefix_rfl le, moved, ?_⟩
  intro o lt name known
  cases o with
  | zero =>
    have contains := known.contains
    rw [drop_zero] at known
    rw [known.unique plain at_, unknown] at contains
    cases contains
  | succ o =>
    rw [← drop_zero (l := rest t.stream)] at at_
    exact plain.no_opening at_ (Nat.zero_lt_succ o) (by omega) (getElem?_of_tag known.at_)

lemma Placed.search (law : Seekable S WF rest) (p : Placed WF rest t) (state : t.state = .wait ∨ t.state = .found)
    (le : len ≤ (t.readTemplate bufSize).1.length) (noTag : NoTagMissed rest t bufSize len)
    (found : FoundNotMissed t bufSize len) :
    Moved WF rest t (t.readTemplate bufSize).1 len ((t.readTemplate bufSize).2.seek len).1 := by
  have shown := (law.read p.wf bufSize).1
  have read := t.readsTemplate bufSize
  generalize t.readTemplate bufSize = r at le read ⊢
  cases read with
  | @var cur name plain at_ first =>
    have at_text : tag name <+: (rest t.stream).drop cur := by
      obtain ⟨tail, e⟩ := shown
      have inside := (List.getElem?_eq_some_iff.mp (getElem?_of_tag at_)).1
      rw [← e, drop_append_of_le_length (Nat.le_of_lt inside)]
      exact at_.trans (prefix_append _ _)
    have le_cur : len ≤ cur := Nat.le_trans le (length_take_le _ _)
    have le_data := Nat.le_trans le (length_take_le' _ _)
    obtain ⟨wf, moved⟩ := seek_shown law p.wf le_data
    have same := take_of_shown shown (List.take_prefix _ _) le
    have none : ∀ o < len, ∀ name', ¬ Known t.templateData name' ((rest t.stream).drop o) := by
      intro o lt name' known
      exact first_of_shown shown at_ first (noTag o lt name' known).1 (Nat.lt_of_lt_of_le lt le_cur)
        known.at_
    have placed := Placed.seek_found (t := t) plain at_text le_cur wf moved
    by_cases zero : cur = 0
    · obtain rfl : len = 0 := by omega
      subst zero
      exact ⟨placed, rfl, seek_found_state 0, same, moved, none⟩
    · simp only [TemplateStream.seek, zero, if_false, Nat.not_lt_of_le le_cur]
      exact ⟨placed, rfl, seek_found_state (cur - len), same, moved, none⟩
  | @plain lastFound passed =>
    have pre := trim_isPrefix (IDataSourceStream.readMemoryBlock t.stream bufSize).1 lastFound
    have le_data := Nat.le_trans le pre.length_le
    obtain ⟨wf, moved⟩ := seek_shown law p.wf le_data
    have same := take_of_shown shown pre le
    have none : ∀ o < len, ∀ name, ¬ Known t.templateData name ((rest t.stream).drop o) := by
      intro o lt name known
      obtain ⟨plain, uncut⟩ := noTag o lt name known
      exact uncut (passed.cut shown plain known.at_ (Nat.lt_of_lt_of_le lt le))
    rcases state with wait | isFound
    · simp only [TemplateStream.seek, wait]
      exact ⟨.of_wait wf rfl, rfl, Eq.trans_ne rfl (by decide : TemplateExpandState.wait ≠ .sendingVar),
        same, moved, none⟩
    · obtain ⟨plain, skip, at_⟩ := p.found isFound
      have le_wait : len ≤ t.varWaitSize := by
        by_contra beyond
        have lt := Nat.lt_of_not_le beyond
        obtain ⟨long, ends⟩ := passed.cut shown plain at_ (Nat.lt_of_lt_of_le lt le)
        exact beyond (found isFound long ends)
      have placed := Placed.seek_found (t := t) plain at_ le_wait wf moved
      simp only [TemplateStream.seek, isFound, Nat.not_lt_of_le le_wait, if_false]
      rw [← skip] at placed
      exact ⟨placed, rfl, seek_found_state (t.varWaitSize - len), same, moved, none⟩

lemma readTemplate_isPrefix (law : Seekable S WF rest) (wf : WF t.stream) :
    (t.readTemplate bufSize).1 <+: rest t.stream := by
  have shown := (law.read wf bufSize).1
  have read := t.readsTemplate bufSize
  generalize t.readTemplate bufSize = r at read ⊢
  cases read with
  | var => exact (List.take_prefix _ _).trans shown
  | plain => exact (trim_isPrefix _ _).trans shown

end TemplateStream

/-! ## A reader -/

open TemplateStream

structure TemplateReader (S : Type) where
  stream : TemplateStream S
  consumed : List UInt8 := []
  deriving DecidableEq

namespace TemplateReader

/-- A read into a buffer of `bufSize` bytes and the move by `len` that follows it. -/
structure Round where
  bufSize : Nat
  len : Nat
  deriving DecidableEq

variable {S : Type}

def start (source : S) (vars : TemplateVariables) : TemplateReader S :=
  { stream := { stream := source, templateData := vars } }

def Roomy (vars : TemplateVariables) (bufSize : Nat) : Prop :=
  templateMaxVarNameLen + 2 < bufSize ∧ ∀ v ∈ vars.entries, v.2.length ≤ bufSize

instance (vars : TemplateVariables) (bufSize : Nat) : Decidable (Roomy vars bufSize) :=
  inferInstanceAs (Decidable (_ ∧ _))

def pending (rest : S → List UInt8) (t : TemplateStream S) : List UInt8 :=
  (if t.state = .sendingVar then t.value.drop t.varDataPos else []) ++
    expand t.templateData (rest t.stream)

structure Inv (WF : S → Prop) (rest : S → List UInt8) (vars : TemplateVariables) (text : List UInt8)
    (r : TemplateReader S) : Prop where
  placed : Placed WF rest r.stream
  vars_eq : r.stream.templateData = vars
  due : r.consumed ++ pending rest r.stream = expand vars text
  sending : r.stream.state = .sendingVar →
    r.stream.templateData.contains r.stream.varName = true ∧
      (rest r.stream.stream = [] → r.stream.value.length ≤ r.stream.varDataPos)

variable {WF : S → Prop} {rest : S → List UInt8} {vars : TemplateVariables} {text : List UInt8}
  {r u : TemplateReader S} {e : Round}

lemma start_inv {source : S} (wf : WF source) :
    Inv WF rest vars (rest source) (start source vars) where
  placed := .of_wait wf rfl
  vars_eq := rfl
  due := rfl
  sending h := by cases h

lemma Inv.moved (inv : Inv WF rest vars text r) (state : pending rest r.stream =
      expand r.stream.templateData (rest r.stream.stream)) {t u : TemplateStream S} {data : List UInt8}
    {len : Nat} (same : t.templateData = r.stream.templateData ∧ t.stream = r.stream.stream)
    (le : len ≤ data.length) (le_text : data.length ≤ (rest t.stream).length) (m : Moved WF rest t data len u) :
    Inv WF rest vars text { stream := u, consumed := r.consumed ++ data.take len } where
  placed := m.placed
  vars_eq := by
    change u.templateData = vars
    rw [m.vars, same.1, inv.vars_eq]
  due := by
    change r.consumed ++ data.take len ++ pending rest u = expand vars text
    have copied := expand_copy (Nat.le_trans le le_text) m.noTag
    rw [← inv.due, state, ← same.1, ← same.2, copied, pending, if_neg m.state, nil_append, m.vars,
      m.moved, m.text, List.append_assoc]
  sending h := absurd h m.state

lemma Roomy.ne_zero {bufSize : Nat} (roomy : Roomy vars bufSize) : bufSize ≠ 0 := by
  have := roomy.1
  omega

lemma Roomy.value_le {t : TemplateStream S} {bufSize : Nat} (roomy : Roomy t.templateData bufSize)
    (contains : t.templateData.contains t.varName = true) : t.value.length ≤ bufSize := by
  obtain ⟨v, mem⟩ := HashMap.contains_iff_exists.mp contains
  rw [TemplateStream.value, HashMap.value_of_mem mem]
  exact roomy.2 _ mem

variable [IDataSourceStream S]

def step (r : TemplateReader S) (e : Round) : Option (TemplateReader S) :=
  if r.stream.isFinished then none
  else
    (r.stream.readMemoryBlock e.bufSize).bind fun a =>
      if e.len ≤ a.1.length then
        some { stream := (a.2.seek e.len).1, consumed := r.consumed ++ a.1.take e.len }
      else none

structure Sparing (rest : S → List UInt8) (r : TemplateReader S) (e : Round) : Prop where
  roomy : Roomy r.stream.templateData e.bufSize
  noTag : r.stream.Searching → NoTagMissed rest r.stream e.bufSize e.len
  found : FoundNotMissed r.stream e.bufSize e.len
  /-- The value of a tag that ends the template is consumed at once. -/
  ending : r.stream.state = .startVar → r.stream.templateData.contains r.stream.varName →
    (rest r.stream.stream).length = r.stream.skipBlockSize → e.len = r.stream.value.length

lemma step_inv (st : step r e = some u) :
    r.stream.isFinished = false ∧ ∃ a, r.stream.readMemoryBlock e.bufSize = some a ∧
      e.len ≤ a.1.length ∧
      u = { stream := (a.2.seek e.len).1, consumed := r.consumed ++ a.1.take e.len } := by
  unfold step at st
  split at st
  case isTrue => cases st
  case isFalse unfinished =>
    obtain ⟨a, read, st⟩ := Option.bind_eq_some_iff.mp st
    split at st
    case isFalse => cases st
    case isTrue le =>
      cases st
      exact ⟨Bool.eq_false_iff.mpr unfinished, a, read, le, rfl⟩

lemma Inv.search (law : Seekable S WF rest) (inv : Inv WF rest vars text r) {t : TemplateStream S}
    (same : t.templateData = r.stream.templateData ∧ t.stream = r.stream.stream)
    (state : t.state = .wait ∨ t.state = .found) (placed : Placed WF rest t)
    (due : pending rest r.stream = expand r.stream.templateData (rest r.stream.stream))
    (noTag : NoTagMissed rest t e.bufSize e.len) (found : FoundNotMissed t e.bufSize e.len)
    (le : e.len ≤ (t.readTemplate e.bufSize).1.length) :
    Inv WF rest vars text
      { stream := ((t.readTemplate e.bufSize).2.seek e.len).1
        consumed := r.consumed ++ (t.readTemplate e.bufSize).1.take e.len } := by
  have m := placed.search law state le noTag found
  refine inv.moved due same le ?_ m
  exact (readTemplate_isPrefix law placed.wf).length_le

lemma Inv.value {t : TemplateStream S} {consumed : List UInt8} (len : Nat) (wf : WF t.stream)
    (state : t.state = .sendingVar) (vars_eq : t.templateData = vars)
    (contains : t.templateData.contains t.varName = true) (le : len ≤ (counted (t.value.drop t.varDataPos)).length)
    (due : consumed ++ (t.value.drop t.varDataPos ++ expand vars (rest t.stream)) = expand vars text)
    (ending : rest t.stream = [] → t.value.length ≤ t.varDataPos + len) :
    Inv WF rest vars text
      { stream := (t.seek len).1
        consumed := consumed ++ (counted (t.value.drop t.varDataPos)).take len } := by
  have text' := take_of_shown (counted_isPrefix _) prefix_rfl le
  have seek : (t.seek len).1 = { t with varDataPos := t.varDataPos + len } := by
    rw [TemplateStream.seek]
    simp only [state]
  rw [text', seek]
  refine ⟨?_, vars_eq, ?_, fun _ => ⟨contains, ending⟩⟩
  · exact .of_ne wf (state.trans_ne (by decide)) (state.trans_ne (by decide))
  · have split : (t.value.drop t.varDataPos).take len ++ t.value.drop (t.varDataPos + len) =
        t.value.drop t.varDataPos := by
      rw [← drop_drop, take_append_drop]
    have later : pending rest { t with varDataPos := t.varDataPos + len } =
        t.value.drop (t.varDataPos + len) ++ expand vars (rest t.stream) := by
      rw [← vars_eq]
      exact congrArg (· ++ _) (if_pos state)
    change consumed ++ _ ++ pending rest _ = _
    rw [later, List.append_assoc, ← List.append_assoc (List.take _ _), split]
    exact due

lemma Inv.known (law : Seekable S WF rest) (inv : Inv WF rest vars text r) (state : r.stream.state = .startVar)
    (contains : r.stream.templateData.contains r.stream.varName = true) (le : e.len ≤ (counted r.stream.value).length)
    (ending : (rest r.stream.stream).length = r.stream.skipBlockSize → e.len = r.stream.value.length) :
    Inv WF rest vars text
      { stream := (TemplateStream.seek { r.stream with
          stream := (IDataSourceStream.seek r.stream.stream r.stream.skipBlockSize).1
          varDataPos := 0
          state := .sendingVar } e.len).1
        consumed := r.consumed ++ (counted r.stream.value).take e.len } := by
  obtain ⟨plain, skip, at_⟩ := inv.placed.startVar state
  have known : Known r.stream.templateData r.stream.varName (rest r.stream.stream) :=
    ⟨at_, fun mem => (plain.chars _ mem).2.1 rfl, Nat.le_of_lt plain.short, contains⟩
  have le_text : r.stream.skipBlockSize ≤ (rest r.stream.stream).length := by
    rw [skip, ← length_tag]
    exact at_.length_le
  obtain ⟨wf, moved⟩ := law.seek_le inv.placed.wf _ le_text
  refine Inv.value e.len wf rfl inv.vars_eq contains le ?_ ?_
  · rw [← inv.due, pending, if_neg (state.trans_ne (by decide)), known.expand_eq, nil_append, ← skip,
      ← moved, inv.vars_eq]
    rw [TemplateStream.value, inv.vars_eq]
    rfl
  · -- the template ends with this tag
    intro none
    change rest (IDataSourceStream.seek _ _).1 = [] at none
    rw [moved, drop_eq_nil_iff] at none
    rw [Nat.zero_add, ending (Nat.le_antisymm none le_text)]
    exact Nat.le_refl _

lemma Inv.step (law : Seekable S WF rest) (inv : Inv WF rest vars text r) (ok : Sparing rest r e)
    (st : TemplateReader.step r e = some u) : Inv WF rest vars text u := by
  obtain ⟨unfinished, a, read, le, rfl⟩ := step_inv st
  have due (h : r.stream.state ≠ .sendingVar) :
      pending rest r.stream = expand r.stream.templateData (rest r.stream.stream) := by
    rw [pending, if_neg h, nil_append]
  rw [TemplateStream.readMemoryBlock, if_neg ok.roomy.ne_zero] at read
  cases state : r.stream.state with
  | wait =>
    simp only [state] at read
    obtain rfl := Option.some.inj read
    exact inv.search law ⟨rfl, rfl⟩ (.inl state) inv.placed (due (state.trans_ne (by decide)))
      (ok.noTag (.inl state)) ok.found le
  | found =>
    simp only [state] at read
    obtain rfl := Option.some.inj read
    exact inv.search law ⟨rfl, rfl⟩ (.inr state) inv.placed (due (state.trans_ne (by decide)))
      (ok.noTag (.inr (.inl state))) ok.found le
  | sendingVar =>
    simp only [state] at read
    obtain ⟨contains, -⟩ := inv.sending state
    have due' := inv.due
    rw [pending, if_pos state, inv.vars_eq] at due'
    split at read
    case isTrue inside =>
      split at read
      case isTrue => cases read
      case isFalse =>
        obtain rfl := Option.some.inj read
        refine Inv.value e.len inv.placed.wf state inv.vars_eq contains le due' fun empty => ?_
        rw [TemplateStream.isFinished, (law.finished inv.placed.wf).mpr empty] at unfinished
        cases unfinished
    case isFalse done =>
      -- the value is done and the stream goes on with the template
      obtain rfl := Option.some.inj read
      have done' := Nat.le_of_not_lt done
      refine inv.search law ⟨rfl, rfl⟩ (.inl rfl) (.of_wait inv.placed.wf rfl) ?_
        (ok.noTag (.inr (.inr ⟨state, done'⟩))) (fun h => by cases h) le
      rw [pending, if_pos state, drop_eq_nil_of_le done', nil_append]
  | startVar =>
    simp only [state] at read
    split at read
    case isTrue contains =>
      rw [if_neg (Nat.not_lt_of_le (ok.roomy.value_le contains))] at read
      obtain rfl := Option.some.inj read
      exact inv.known law state contains le (ok.ending state contains)
    case isFalse unknown =>
      obtain rfl := Option.some.inj read
      have m := inv.placed.unknown law state (Bool.eq_false_iff.mpr unknown) le
      refine inv.moved (due (state.trans_ne (by decide))) ⟨rfl, rfl⟩ le ?_ m
      exact (law.read inv.placed.wf _).1.length_le

lemma inv_of_run (law : Seekable S WF rest) {source : S} (wf : WF source) {es : List Round}
    (run : Run TemplateReader.step (Sparing rest) (start source vars) es r) : Inv WF rest vars (rest source) r :=
  run.invariant (start_inv wf) fun inv ok st => inv.step law ok st

/-- What the reader consumes is the expansion of the template, all of it once the stream is finished; and every
read stays within its buffer. -/
theorem templateStream_expands (law : Seekable S WF rest) {source : S} (wf : WF source)
    {vars : TemplateVariables} {es : List Round}
    (run : Run TemplateReader.step (Sparing rest) (start source vars) es r) :
    r.consumed <+: expand vars (rest source) ∧ (r.stream.isFinished = true → r.consumed = expand vars (rest source)) ∧
      ∀ bufSize, Roomy vars bufSize → r.stream.readMemoryBlock bufSize ≠ none := by
  have inv := inv_of_run law wf run
  refine ⟨⟨_, inv.due⟩, fun finished => ?_, fun bufSize roomy overflow => ?_⟩
  · have empty := (law.finished inv.placed.wf).mp finished
    rw [← inv.due, pending, empty]
    split
    case isTrue sending =>
      rw [drop_eq_nil_of_le ((inv.sending sending).2 empty)]
      exact (append_nil _).symm
    case isFalse => exact (append_nil _).symm
  · rw [TemplateStream.readMemoryBlock, if_neg roomy.ne_zero] at overflow
    cases state : r.stream.state with
    | sendingVar =>
      simp only [state] at overflow
      rw [← inv.vars_eq] at roomy
      have fits := roomy.value_le (inv.sending state).1
      split at overflow
      · rw [if_neg (by omega)] at overflow
        cases overflow
      · cases overflow
    | wait => simp [state] at overflow
    | found => simp [state] at overflow
    | startVar =>
      simp only [state] at overflow
      split at overflow
      · split at overflow <;> cases overflow
      · cases overflow

/-- A condition that is easier to check: all names are plain and have fewer than 15 bytes. -/
structure Short (rest : S → List UInt8) (r : TemplateReader S) (e : Round) : Prop where
  roomy : Roomy r.stream.templateData e.bufSize
  names : ∀ v ∈ r.stream.templateData.entries, NameChars v.1 ∧ v.1.length < 15
  found : r.stream.state = .found → r.stream.varName.length ≠ 15
  ending : r.stream.state = .startVar → r.stream.templateData.contains r.stream.varName →
    (rest r.stream.stream).length = r.stream.skipBlockSize → e.len = r.stream.value.length

instance (rest : S → List UInt8) (r : TemplateReader S) (e : Round) : Decidable (Short rest r e) :=
  decidable_of_iff (_ ∧ _ ∧ _ ∧ _)
    ⟨fun h => ⟨h.1, h.2.1, h.2.2.1, h.2.2.2⟩, fun h => ⟨h.roomy, h.names, h.found, h.ending⟩⟩

lemma Short.sparing (h : Short rest r e) : Sparing rest r e where
  roomy := h.roomy
  noTag _ o _ name known := by
    obtain ⟨v, mem⟩ := HashMap.contains_iff_exists.mp known.contains
    obtain ⟨chars, short⟩ := h.names _ mem
    refine ⟨⟨chars, Nat.lt_of_lt_of_le short (by decide)⟩, fun long => ?_⟩
    exact Nat.ne_of_lt short long.1
  found state long := absurd long (h.found state)
  ending := h.ending

theorem templateStream_expands_pieces :
    ∃ r, Run TemplateReader.step (Sparing MemoryDataStream.unread)
        (start (.holding [65, 0x7b, 120, 0x7d, 0x7b, 121, 0x7d]) { entries := [([120], [49, 50])], nodup := by simp })
        [⟨20, 1⟩, ⟨20, 1⟩, ⟨30, 1⟩, ⟨20, 0⟩, ⟨20, 2⟩, ⟨20, 1⟩] r ∧
      r.stream.isFinished = true ∧
      r.consumed = expand { entries := [([120], [49, 50])], nodup := by simp }
        [65, 0x7b, 120, 0x7d, 0x7b, 121, 0x7d] := by
  obtain ⟨r, run, finished⟩ : ∃ r, exec TemplateReader.step (Short MemoryDataStream.unread)
        (start (.holding [65, 0x7b, 120, 0x7d, 0x7b, 121, 0x7d]) { entries := [([120], [49, 50])], nodup := by simp })
        [⟨20, 1⟩, ⟨20, 1⟩, ⟨30, 1⟩, ⟨20, 0⟩, ⟨20, 2⟩, ⟨20, 1⟩] = some r ∧ r.stream.isFinished = true := by
    apply exists_exec
    decide +kernel
  have run' := (exec_run run).mono fun _ _ => Short.sparing
  exact ⟨r, run', finished, (templateStream_expands MemoryDataStream.seekable (.holding _) run').2.1 finished⟩

/-- A name with as many bytes as `templateMaxVarNameLen` allows is not replaced. -/
theorem templateStream_misses_long_name :
    ¬ ∀ (text : List UInt8) (vars : TemplateVariables), (∀ v ∈ vars.entries, v.1.length ≤ templateMaxVarNameLen) →
      ∀ es r, Run TemplateReader.step (fun r e => Roomy r.stream.templateData e.bufSize)
        (start (MemoryDataStream.holding text) vars) es r →
      r.stream.isFinished = true → r.consumed = expand vars text := by
  intro all
  have missed : ¬ ∀ es r, Run TemplateReader.step (fun r e => Roomy r.stream.templateData e.bufSize)
      (start (MemoryDataStream.holding (tag (List.replicate 16 120)))
        { entries := [(List.replicate 16 120, [49])], nodup := by simp }) es r →
      r.stream.isFinished = true →
        r.consumed = expand { entries := [(List.replicate 16 120, [49])], nodup := by simp }
          (tag (List.replicate 16 120)) := not_forall_run [⟨20, 18⟩] (by decide +kernel)
  exact missed (all _ _ (by decide))

end TemplateReader

end Sming.Data
