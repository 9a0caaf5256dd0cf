import Sming.Data.DataSourceStream
import Sming.Wiring.WHashMap

/-!
# The template stream

Embedding of `Sming/SmingCore/Data/Stream/TemplateStream.cpp`: a source that replaces the tags of a
template by the values of variables. A tag is a name between braces. The stream looks for tags in what one read of
the template shows (`search`); a tag that was found is answered by the reads that follow, and the
caller's `seek` moves the stream from state to state.
-/

namespace Sming.Data
open IDataSourceStream Wiring List

def templateMaxVarNameLen : Nat := 16

abbrev TemplateVariables := HashMap (List UInt8) (List UInt8)

inductive TemplateExpandState where
  | wait | found | startVar | sendingVar
  deriving Repr, DecidableEq

/-- The fields of `TemplateStream`; the stream it reads is never null. -/
structure TemplateStream (S : Type) where
  stream : S
  templateData : TemplateVariables
  state : TemplateExpandState := .wait
  varName : List UInt8 := []
  skipBlockSize : Nat := 0
  varDataPos : Nat := 0
  varWaitSize : Nat := 0
  deriving DecidableEq

namespace TemplateStream

def opening : UInt8 := 0x7b

def closing : UInt8 := 0x7d

def isspace (c : UInt8) : Bool := c == 32 || (9 ≤ c && c ≤ 13)

/-- The loop over `p` behind an opening brace: where it ends, as the distance `p - cur`, and whether it ends
at a closing brace. -/
def scanName : List UInt8 → Nat → Nat × Bool
  | [], i => (i, false)
  | c :: rest, i =>
    if isspace c then (i, false)
    else if templateMaxVarNameLen < i then (i, false)
    else if c = opening then (i, false)
    else if c = closing then (i, true)
    else scanName rest (i + 1)

/-- What a search ends with: the opening brace of a tag and the distance of the closing one, or the last opening brace
if there is no tag. -/
inductive Search where
  | var (cur len : Nat)
  | plain (lastFound : Option Nat)
  deriving DecidableEq

/-- The loop over `cur`, for the data from `pos` on. -/
def search : Nat → Nat → List UInt8 → Option Nat → Search
  | 0, _, _, lastFound => .plain lastFound
  | fuel + 1, pos, data, lastFound =>
    match data.findIdx? (· == opening) with
    | none => .plain lastFound
    | some i =>
      let r := scanName (data.drop (i + 1)) 1
      if r.2 then .var (pos + i) r.1
      else search fuel (pos + i + r.1) (data.drop (i + r.1)) (some (pos + i))

/-- Text without a tag is cut at an opening brace near its end: it can be an incomplete name, which is not to be
split. -/
def trim (data : List UInt8) : Option Nat → List UInt8
  | none => data
  | some newlen => if data.length < newlen + templateMaxVarNameLen then data.take newlen else data

variable {S : Type}

def value (t : TemplateStream S) : List UInt8 := t.templateData.value t.varName []

variable [IDataSourceStream S]

/-- The part of `readMemoryBlock` that looks for a tag. -/
def readTemplate (t : TemplateStream S) (bufSize : Nat) : List UInt8 × TemplateStream S :=
  let r := readMemoryBlock t.stream bufSize
  match search r.1.length 0 r.1 none with
  | .var cur len =>
    (r.1.take cur, { t with
      stream := r.2
      varName := (r.1.drop (cur + 1)).take (len - 1)
      skipBlockSize := len + 1
      varWaitSize := cur
      state := if cur = 0 then .startVar else .found })
  | .plain lastFound => (trim r.1 lastFound, { t with stream := r.2 })

/-- What the caller gets; the rest of a value is copied without regard to the size of the buffer, which has
no defined outcome if it is too small. -/
def readMemoryBlock (t : TemplateStream S) (bufSize : Nat) :
    Option (List UInt8 × TemplateStream S) :=
  if bufSize = 0 then some ([], t)
  else
    match t.state with
    | .startVar =>
      if t.templateData.contains t.varName then
        if bufSize < t.value.length then some ([], t)
        else
          some (counted t.value, { t with
            stream := (IDataSourceStream.seek t.stream t.skipBlockSize).1
            varDataPos := 0
            state := .sendingVar })
      else
        let r := IDataSourceStream.readMemoryBlock t.stream (min bufSize t.skipBlockSize)
        some (r.1, { t with stream := r.2, state := .wait })
    | .sendingVar =>
      if t.varDataPos < t.value.length then
        if bufSize < t.value.length - t.varDataPos then none
        else some (counted (t.value.drop t.varDataPos), t)
      else some (readTemplate { t with state := .wait } bufSize)
    | .wait => some (t.readTemplate bufSize)
    | .found => some (t.readTemplate bufSize)

def seek (t : TemplateStream S) (len : Nat) : TemplateStream S × Bool :=
  let r := IDataSourceStream.seek t.stream len
  match t.state with
  | .found =>
    if t.varWaitSize < len then (t, false)
    else
      ({ t with
        stream := r.1
        varWaitSize := t.varWaitSize - len
        state := if t.varWaitSize - len = 0 then .startVar else .found }, r.2)
  | .sendingVar => ({ t with varDataPos := t.varDataPos + len }, false)
  | .wait => ({ t with stream := r.1 }, r.2)
  | .startVar => ({ t with stream := r.1 }, r.2)

def isFinished (t : TemplateStream S) : Bool := IDataSourceStream.isFinished t.stream

/-! ## Tags -/

def tag (name : List UInt8) : List UInt8 := opening :: (name ++ [closing])

/-- No blanks and no braces. -/
def NameChars (name : List UInt8) : Prop := ∀ b ∈ name, b ≠ opening ∧ b ≠ closing ∧ isspace b = false

instance (name : List UInt8) : Decidable (NameChars name) := inferInstanceAs (Decidable (∀ b ∈ name, _))

/-- A name that the search takes for one. -/
structure Plain (name : List UInt8) : Prop where
  chars : NameChars name
  short : name.length < templateMaxVarNameLen

lemma length_tag (name : List UInt8) : (tag name).length = name.length + 2 := by
  simp [tag]

variable {name l : List UInt8} {o : Nat}

lemma getElem?_of_tag (h : tag name <+: l.drop o) : l[o]? = some opening := by
  obtain ⟨rest, e⟩ := h
  have first : (l.drop o)[0]? = some opening := by
    rw [← e]
    rfl
  simpa using first

variable {i : Nat}

lemma getElem?_in_tag (h : tag name <+: l.drop o) (lt : o < i)
    (le : i ≤ o + name.length + 1) : ∃ b ∈ name ++ [closing], l[i]? = some b := by
  obtain ⟨rest, e⟩ := h
  obtain ⟨j, rfl⟩ := Nat.exists_eq_add_of_lt lt
  have inside : j < (name ++ [closing]).length := by
    rw [List.length_append, List.length_singleton]
    omega
  refine ⟨(name ++ [closing])[j], getElem_mem inside, ?_⟩
  have at_ : (l.drop o)[j + 1]? = some (name ++ [closing])[j] := by
    rw [← e, tag, cons_append, getElem?_cons_succ, getElem?_append_left inside, getElem?_eq_getElem inside]
  rw [← at_, getElem?_drop]
  rfl

lemma Plain.no_opening (plain : Plain name) (h : tag name <+: l.drop o) (lt : o < i) (le : i ≤ o + name.length + 1) :
    l[i]? ≠ some opening := by
  obtain ⟨b, mem, at_⟩ := getElem?_in_tag h lt le
  rw [at_]
  intro e
  obtain rfl := Option.some.inj e
  rcases mem_append.mp mem with inName | last
  · exact (plain.chars _ inName).1 rfl
  · exact absurd (mem_singleton.mp last) (by decide)

/-! ## The search for a tag -/

variable {rest : List UInt8} {j : Nat}

lemma scanName_closed (h : scanName rest i = (j, true)) :
    ∃ name, NameChars name ∧ name ++ [closing] <+: rest ∧ j = i + name.length ∧
      j ≤ templateMaxVarNameLen := by
  induction rest generalizing i with
  | nil => cases h
  | cons c rest ih =>
    rw [scanName] at h
    split at h
    case isTrue => cases h
    case isFalse noSpace =>
      split at h
      case isTrue => cases h
      case isFalse short =>
        split at h
        case isTrue => cases h
        case isFalse noOpening =>
          split at h
          case isTrue ends =>
            cases h
            refine ⟨[], forall_mem_nil _, ?_, rfl, Nat.le_of_not_lt short⟩
            rw [ends]
            exact ⟨rest, rfl⟩
          case isFalse noClosing =>
            obtain ⟨name, chars, ⟨tail, e⟩, len, le⟩ := ih h
            refine ⟨c :: name, ?_, ⟨tail, congrArg (c :: ·) e⟩, ?_, le⟩
            · intro b mem
              rcases mem_cons.mp mem with rfl | mem
              · exact ⟨noOpening, noClosing, Bool.eq_false_iff.mpr noSpace⟩
              · exact chars b mem
            · rw [len, length_cons]
              omega

lemma NameChars.head {c : UInt8} (chars : NameChars name)
    (pre : name ++ [closing] <+: c :: rest) : c ≠ opening ∧ isspace c = false := by
  cases name with
  | nil =>
    obtain rfl := (cons_prefix_cons.mp pre).1
    decide
  | cons b name =>
    obtain rfl := (cons_prefix_cons.mp pre).1
    exact ⟨(chars b (by simp)).1, (chars b (by simp)).2.2⟩

lemma scanName_open (h : scanName rest i = (j, false)) :
    i ≤ j ∧ (∀ k, k < j - i → rest[k]? ≠ some opening) ∧
      ∀ name, NameChars name → i + name.length ≤ templateMaxVarNameLen →
        ¬ name ++ [closing] <+: rest := by
  induction rest generalizing i with
  | nil =>
    cases h
    refine ⟨Nat.le_refl _, fun k lt => by omega, ?_⟩
    intro name _ _ pre
    exact absurd (prefix_nil.mp pre) (by simp)
  | cons c rest ih =>
    rw [scanName] at h
    split at h
    case isTrue space =>
      cases h
      refine ⟨Nat.le_refl _, fun k lt => by omega, fun name chars _ pre => ?_⟩
      rw [(chars.head pre).2] at space
      cases space
    case isFalse noSpace =>
      split at h
      case isTrue long =>
        cases h
        exact ⟨Nat.le_refl _, fun k lt => by omega, fun name _ le _ => by omega⟩
      case isFalse short =>
        split at h
        case isTrue opens =>
          cases h
          exact ⟨Nat.le_refl _, fun k lt => by omega, fun name chars _ pre => (chars.head pre).1 opens⟩
        case isFalse noOpening =>
          split at h
          case isTrue => cases h
          case isFalse noClosing =>
            obtain ⟨le, passed, none⟩ := ih h
            refine ⟨by omega, ?_, ?_⟩
            · intro k lt
              cases k with
              | zero =>
                intro e
                exact noOpening (Option.some.inj e)
              | succ k => exact passed k (by omega)
            · intro name chars short pre
              cases name with
              | nil => exact noClosing (cons_prefix_cons.mp pre).1.symm
              | cons b name =>
                have pre' := (cons_prefix_cons.mp pre).2
                refine none name (fun b mem => chars b (mem_cons_of_mem _ mem)) ?_ pre'
                rw [length_cons] at short
                omega

/-- No tag begins before `pos`, and `lastFound` is the last opening brace before `pos`. -/
structure Passed (data : List UInt8) (pos : Nat) (lastFound : Option Nat) : Prop where
  noTag : ∀ o < pos, ∀ name, Plain name → ¬ tag name <+: data.drop o
  last : ∀ o < pos, data[o]? = some opening → ∃ l, lastFound = some l ∧ o ≤ l
  isOpening : ∀ l, lastFound = some l → data[l]? = some opening

inductive Searched (data : List UInt8) : Search → Prop where
  | var {cur name} :
    Plain name →
    tag name <+: data.drop cur →
    (∀ o < cur, ∀ name', Plain name' → ¬ tag name' <+: data.drop o) →
    Searched data (.var cur (name.length + 1))
  | plain {lastFound} :
    Passed data data.length lastFound →
    Searched data (.plain lastFound)

variable {data : List UInt8}

lemma Passed.extend {pos pos' : Nat} {lastFound : Option Nat}
    (p : Passed data pos lastFound) (none : ∀ o, pos ≤ o → o < pos' → data[o]? ≠ some opening) :
    Passed data pos' lastFound where
  noTag o lt name plain pre := by
    rcases Nat.lt_or_ge o pos with before | behind
    · exact p.noTag o before name plain pre
    · exact none o behind lt (getElem?_of_tag pre)
  last o lt at_ := by
    rcases Nat.lt_or_ge o pos with before | behind
    · exact p.last o before at_
    · exact absurd at_ (none o behind lt)
  isOpening := p.isOpening

lemma Passed.skip {cur : Nat} {lastFound : Option Nat}
    (p : Passed data cur lastFound) (at_ : data[cur]? = some opening)
    (h : scanName (data.drop (cur + 1)) 1 = (j, false)) : Passed data (cur + j) (some cur) := by
  obtain ⟨le, passed, none⟩ := scanName_open h
  have here : Passed data (cur + 1) (some cur) := by
    refine ⟨?_, ?_, ?_⟩
    · intro o lt name plain pre
      rcases Nat.lt_or_ge o cur with before | behind
      · exact p.noTag o before name plain pre
      · obtain rfl : o = cur := by omega
        refine none name plain.chars ?_ ?_
        · have short := plain.short
          omega
        · obtain ⟨tail, e⟩ := pre
          refine ⟨tail, ?_⟩
          rw [← drop_drop, ← e]
          simp [tag]
    · intro o lt _
      exact ⟨cur, rfl, by omega⟩
    · intro l e
      cases e
      exact at_
  apply here.extend
  intro o le' lt e
  refine passed (o - (cur + 1)) (by omega) ?_
  rw [getElem?_drop, ← e]
  congr 1
  omega

lemma search_spec (fuel : Nat) {pos : Nat} {lastFound : Option Nat}
    (enough : data.length ≤ pos + fuel) (p : Passed data pos lastFound) :
    Searched data (search fuel pos (data.drop pos) lastFound) := by
  induction fuel generalizing pos lastFound with
  | zero =>
    refine .plain (p.extend fun o le lt => ?_)
    omega
  | succ fuel ih =>
    rw [search]
    cases found : (data.drop pos).findIdx? (· == opening) with
    | none =>
      refine .plain (p.extend fun o le _ at_ => ?_)
      rw [findIdx?_eq_none_iff] at found
      have mem : opening ∈ data.drop pos := by
        rw [← Nat.add_sub_of_le le, ← getElem?_drop] at at_
        exact mem_of_getElem? at_
      exact absurd (found _ mem) (by decide)
    | some i =>
      obtain ⟨lt, isOpening, first⟩ := findIdx?_eq_some_iff_getElem.mp found
      have at_ : data[pos + i]? = some opening := by
        rw [← getElem?_drop, getElem?_eq_getElem lt]
        exact congrArg some (beq_iff_eq.mp isOpening)
      have here : Passed data (pos + i) lastFound := by
        apply p.extend
        intro o le lt' e
        rw [← Nat.add_sub_of_le le, ← getElem?_drop] at e
        obtain ⟨inside, e⟩ := List.getElem?_eq_some_iff.mp e
        exact first (o - pos) (by omega) (beq_iff_eq.mpr e)
      have drop : (data.drop pos).drop (i + 1) = data.drop (pos + i + 1) := by
        rw [drop_drop, Nat.add_assoc]
      simp only [drop]
      cases scan : scanName (data.drop (pos + i + 1)) 1 with
      | mk j closed =>
        cases closed with
        | true =>
          obtain ⟨name, chars, ⟨tail, e⟩, rfl, short⟩ := scanName_closed scan
          rw [if_pos rfl, Nat.add_comm 1]
          refine .var ⟨chars, by omega⟩ ⟨tail, ?_⟩ here.noTag
          rw [drop_eq_getElem?_toList_append, at_]
          simp [tag, ← e]
        | false =>
          have behind := here.skip at_ scan
          have le := (scanName_open scan).1
          simp only [Bool.false_eq_true, if_false]
          rw [drop_drop, ← Nat.add_assoc]
          exact ih (by omega) behind

lemma searched (data : List UInt8) : Searched data (search data.length 0 data none) := by
  apply search_spec data.length (Nat.le_add_left _ _)
  refine ⟨fun o lt => absurd lt (Nat.not_lt_zero o), fun o lt => absurd lt (Nat.not_lt_zero o), ?_⟩
  intro l h
  cases h

inductive ReadsTemplate (t : TemplateStream S) (data : List UInt8) (stream : S) :
    List UInt8 × TemplateStream S → Prop where
  | var {cur name} :
    Plain name →
    tag name <+: data.drop cur →
    (∀ o < cur, ∀ name', Plain name' → ¬ tag name' <+: data.drop o) →
    ReadsTemplate t data stream (data.take cur, { t with
      stream := stream
      varName := name
      skipBlockSize := name.length + 2
      varWaitSize := cur
      state := if cur = 0 then .startVar else .found })
  | plain {lastFound} :
    Passed data data.length lastFound →
    ReadsTemplate t data stream (trim data lastFound, { t with stream := stream })

lemma readsTemplate (t : TemplateStream S) (bufSize : Nat) :
    ReadsTemplate t (IDataSourceStream.readMemoryBlock t.stream bufSize).1
      (IDataSourceStream.readMemoryBlock t.stream bufSize).2 (t.readTemplate bufSize) := by
  unfold readTemplate
  generalize IDataSourceStream.readMemoryBlock t.stream bufSize = r
  have h := searched r.1
  simp only
  generalize search r.1.length 0 r.1 none = found at h ⊢
  cases h with
  | @var cur name plain at_ first =>
    have name_eq : (r.1.drop (cur + 1)).take name.length = name := by
      obtain ⟨tail, e⟩ := at_
      rw [← drop_drop, ← e]
      simp [tag]
    simp only [Nat.add_sub_cancel, name_eq]
    exact .var plain at_ first
  | plain passed => exact .plain passed

/-! ## Where a tag can be missed -/

lemma trim_isPrefix (data : List UInt8) (lastFound : Option Nat) : trim data lastFound <+: data := by
  unfold trim
  split
  · exact prefix_rfl
  · split
    · exact take_prefix _ _
    · exact prefix_rfl

variable {text : List UInt8}

lemma tag_in_data (shown : data <+: text) (at_ : tag name <+: text.drop o) (le : o + name.length + 2 ≤ data.length) :
    tag name <+: data.drop o := by
  obtain ⟨rest, rfl⟩ := shown
  rw [drop_append_of_le_length (by omega)] at at_
  apply prefix_of_prefix_length_le at_ (prefix_append _ _)
  rw [length_tag, length_drop]
  omega

lemma getElem?_of_shown (shown : data <+: text) (lt : o < data.length) : data[o]? = text[o]? := by
  obtain ⟨rest, rfl⟩ := shown
  rw [getElem?_append_left lt]

lemma Passed.cut {lastFound : Option Nat}
    (p : Passed data data.length lastFound) (shown : data <+: text) (plain : Plain name)
    (at_ : tag name <+: text.drop o) (lt : o < (trim data lastFound).length) :
    name.length = 15 ∧ data.length = o + 16 := by
  have inside : o < data.length := Nat.lt_of_lt_of_le lt (trim_isPrefix data lastFound).length_le
  have opens : data[o]? = some opening := by
    rw [getElem?_of_shown shown inside]
    exact getElem?_of_tag at_
  have cut : data.length < o + name.length + 2 := by
    refine Nat.lt_of_not_le fun le => ?_
    exact p.noTag o inside name plain (tag_in_data shown at_ le)
  obtain ⟨l, rfl, le⟩ := p.last o inside opens
  have isOpening := p.isOpening l rfl
  -- behind the opening brace the data show only bytes of the name
  obtain rfl : l = o := by
    by_contra ne
    have lt' : l < data.length := (List.getElem?_eq_some_iff.mp isOpening).1
    rw [getElem?_of_shown shown lt'] at isOpening
    exact plain.no_opening at_ (by omega) (by omega) isOpening
  have short := plain.short
  unfold trim at lt
  unfold templateMaxVarNameLen at *
  simp only at lt
  split at lt
  · rw [length_take] at lt
    omega
  · omega

lemma first_of_shown {name' : List UInt8} {cur : Nat} (shown : data <+: text) (found : tag name' <+: data.drop cur)
    (first : ∀ o < cur, ∀ name', Plain name' → ¬ tag name' <+: data.drop o) (plain : Plain name)
    (lt : o < cur) : ¬ tag name <+: text.drop o := by
  intro at_
  have isOpening := getElem?_of_tag found
  have inside : cur < data.length := (List.getElem?_eq_some_iff.mp isOpening).1
  refine first o lt name plain (tag_in_data shown at_ ?_)
  by_contra long
  rw [getElem?_of_shown shown inside] at isOpening
  exact plain.no_opening at_ lt (by omega) isOpening

end TemplateStream

end Sming.Data
