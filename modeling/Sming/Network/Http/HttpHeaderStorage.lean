import Sming.Data.CStringArray
import Sming.Network.Http.HttpHeaders
import Sming.Wiring.HashMapSlots

/-!
# Header fields by name

Embedding of the part of `Sming/SmingCore/Network/Http/HttpHeaders.h` that works with names: a name is
looked for in the table and then among the custom names, ignoring the case, and a new one is added to
the custom names. The names stay there when their fields are removed.

The specification is a map over names that are compared ignoring the case. `Storage.Holds` relates it to the tags
and the custom names, `httpHeaders_refines_iff` says when a family of headers, with fields copied
from one to the other, behaves like the maps.
-/

namespace Sming.Network.Http
open Sming.Lib Sming.Wiring Sming.Wiring.WString Sming.Data List Option Function

/-- The tags of `HTTP_HEADER_FIELDNAME_MAP` in their order. -/
def HttpHeaderFieldName.table : List HttpHeaderFieldName :=
  [.accessControlAllowOrigin, .authorization, .cc, .connection, .contentDisposition, .contentEncoding,
    .contentLength, .contentType, .contentTransferEncoding, .cacheControl, .date, .etag, .from', .host,
    .ifMatch, .ifModifiedSince, .lastModified, .location, .secWebsocketAccept, .secWebsocketVersion,
    .secWebsocketKey, .secWebsocketProtocol, .server, .setCookie, .subject, .to, .transferEncoding,
    .upgrade, .userAgent, .wwwAuthenticate]

/-! ### Names -/

structure FieldName where
  text : String
  nonempty : text ≠ ""
  free : '\x00' ∉ text.toList

namespace FieldName

def folded (n : FieldName) : List Char := n.text.toList.map Char.toLower

instance : BEq FieldName := ⟨fun a b => a.folded == b.folded⟩

lemma beq_iff {a b : FieldName} : (a == b) = true ↔ a.folded = b.folded := by
  show (a.folded == b.folded) = true ↔ _
  exact beq_iff_eq

instance : EquivBEq FieldName where
  rfl := beq_iff.mpr rfl
  symm h := beq_iff.mpr (beq_iff.mp h).symm
  trans h h' := beq_iff.mpr ((beq_iff.mp h).trans (beq_iff.mp h'))

lemma strcasecmp_eq (a b : FieldName) : strcasecmp a.text.toList b.text.toList = (a == b) := by
  rw [strcasecmp, before_of_not_mem a.free, before_of_not_mem b.free]
  rfl

lemma equalsIgnoreCase_eq (a b : FieldName) : equalsIgnoreCase a.text b.text = (a == b) := by
  rw [equalsIgnoreCase, strcasecmp_eq]
  cases same : a == b with
  | false => exact Bool.and_false _
  | true =>
    have lengths := congrArg List.length (beq_iff.mp same)
    rw [folded, folded, List.length_map, List.length_map] at lengths
    rw [Bool.and_true, beq_iff_eq]
    exact lengths

end FieldName

namespace HttpHeaders

/-- (C++ `HttpHeaders`, with the buffer of the custom names.) -/
structure Storage where
  fields : HashMap HttpHeaderFieldName String := {}
  customFieldNames : CStringArray := {}

namespace Storage

/-- (C++ `HttpHeaders::toString(HttpHeaderFieldName)`.) -/
def nameString (st : Storage) : HttpHeaderFieldName → String
  | .custom index => String.ofList ((st.customFieldNames.getValue index).getD [])
  | name => HttpHeaders.nameString {} name

def findCustomFieldName (st : Storage) (name : String) : Option HttpHeaderFieldName :=
  (st.customFieldNames.indexOf name.toList).map .custom

/-- The tag of a name; `none` is `HTTP_HEADER_UNKNOWN`. -/
def fromString (st : Storage) (name : String) : Option HttpHeaderFieldName :=
  match HttpHeaderFieldName.table.find? fun field => equalsIgnoreCase name (HttpHeaders.nameString {} field) with
  | some field => some field
  | none => st.findCustomFieldName name

/-- `headers[field] = f(headers[field])`. -/
def updateField (st : Storage) (field : HttpHeaderFieldName) (f : String → String) : Option Storage :=
  (st.fields.update field "" f).map fun fields => { st with fields }

/-- `headers[name] = f(headers[name])`, which makes an unknown name a custom one. -/
def update (st : Storage) (name : String) (f : String → String) : Option Storage :=
  match st.fromString name with
  | some field => st.updateField field f
  | none =>
    { st with customFieldNames := st.customFieldNames.add name.toList }.updateField
      (.custom st.customFieldNames.count) f

def clear (_ : Storage) : Storage := {}

/-- The lines of all fields (C++ `HttpHeaders::operator[](unsigned)`). -/
def lines (st : Storage) : List String :=
  st.fields.entries.map fun (name, value) => st.nameString name ++ ": " ++ value ++ "\r\n"

end Storage

end HttpHeaders

/-! ### Standard names -/

lemma standard_nonempty : ∀ field ∈ HttpHeaderFieldName.table, HttpHeaders.nameString {} field ≠ "" := by
  decide +kernel

lemma standard_free : ∀ field ∈ HttpHeaderFieldName.table,
    '\x00' ∉ (HttpHeaders.nameString {} field).toList := by
  decide +kernel

def standard (field : HttpHeaderFieldName) (h : field ∈ HttpHeaderFieldName.table) : FieldName where
  text := HttpHeaders.nameString {} field
  nonempty := standard_nonempty field h
  free := standard_free field h

lemma standard_distinct : (HttpHeaderFieldName.table.map fun field =>
    (HttpHeaders.nameString {} field).toList.map Char.toLower).Nodup := by
  decide +kernel

lemma standard_inj {f g : HttpHeaderFieldName} {hf : f ∈ HttpHeaderFieldName.table}
    {hg : g ∈ HttpHeaderFieldName.table} (same : (standard f hf == standard g hg) = true) : f = g :=
  inj_on_of_nodup_map standard_distinct hf hg (FieldName.beq_iff.mp same)

/-- A field is addressed by its name or by a tag of the table. -/
inductive FieldRef where
  | name (n : FieldName)
  | tag (field : HttpHeaderFieldName) (h : field ∈ HttpHeaderFieldName.table)

def FieldRef.key : FieldRef → FieldName
  | .name n => n
  | .tag field h => standard field h

namespace HttpHeaders.Storage

def field (st : Storage) : FieldRef → Option HttpHeaderFieldName
  | .name n => st.fromString n.text
  | .tag field _ => some field

def contains (st : Storage) (r : FieldRef) : Bool := (st.field r).any st.fields.contains

/-- (C++ `HttpHeaders::operator[]` of `const` headers.) -/
def value (st : Storage) (r : FieldRef) : String :=
  match st.field r with
  | some field => st.fields.value field ""
  | none => ""

def remove (st : Storage) (r : FieldRef) : Storage :=
  match st.field r with
  | some field => { st with fields := st.fields.remove field }
  | none => st

def modify (st : Storage) (r : FieldRef) (f : String → String) : Option Storage :=
  match r with
  | .name n => st.update n.text f
  | .tag field _ => st.updateField field f

end HttpHeaders.Storage

/-! ### Tags and names -/

/-- The tag stands for the name, with the custom names `names`. -/
inductive Denotes (names : List FieldName) : HttpHeaderFieldName → FieldName → Prop where
  | standard {field key} (h : field ∈ HttpHeaderFieldName.table) :
    (standard field h == key) = true →
    Denotes names field key
  | custom {index n key} :
    names[index]? = some n →
    (n == key) = true →
    Denotes names (.custom index) key

/-- The custom names: no two of them are the same, and none is in the table. -/
structure Custom (names : List FieldName) : Prop where
  distinct : names.Pairwise fun a b => (a == b) = false
  other : ∀ n ∈ names, ∀ field (h : field ∈ HttpHeaderFieldName.table), (standard field h == n) = false

variable {names : List FieldName} {tag : HttpHeaderFieldName} {key key' : FieldName}

lemma custom_not_mem_table (index : Nat) : HttpHeaderFieldName.custom index ∉ HttpHeaderFieldName.table := by
  simp [HttpHeaderFieldName.table]

lemma Denotes.congr (d : Denotes names tag key) (same : (key == key') = true) : Denotes names tag key' := by
  cases d with
  | standard h e => exact .standard h (BEq.trans e same)
  | custom h e => exact .custom h (BEq.trans e same)

lemma Denotes.append (d : Denotes names tag key) (n : FieldName) : Denotes (names ++ [n]) tag key := by
  cases d with
  | standard h e => exact .standard h e
  | @custom index n' _ h e =>
    refine .custom ?_ e
    obtain ⟨lt, found⟩ := List.getElem?_eq_some_iff.mp h
    rw [getElem?_append_left lt, h]

lemma Denotes.found (custom : Custom names) (d : Denotes names tag key) :
    OrderedMap.Found (Denotes names) tag key := by
  intro tag' key' d'
  rw [Bool.eq_iff_iff, beq_iff_eq]
  cases d with
  | standard h e =>
    cases d' with
    | standard h' e' =>
      constructor
      · rintro rfl
        exact BEq.trans (BEq.symm e) e'
      · intro same
        exact standard_inj (BEq.trans (BEq.trans e same) (BEq.symm e'))
    | @custom index n _ h' e' =>
      have away := custom.other n (mem_of_getElem? h') _ h
      constructor
      · rintro rfl
        exact absurd h (custom_not_mem_table index)
      · intro same
        rw [BEq.trans (BEq.trans e same) (BEq.symm e')] at away
        cases away
  | @custom index n _ h e =>
    cases d' with
    | standard h' e' =>
      have away := custom.other n (mem_of_getElem? h) _ h'
      constructor
      · rintro rfl
        exact absurd h' (custom_not_mem_table index)
      · intro same
        rw [BEq.trans e' (BEq.symm (BEq.trans e same))] at away
        cases away
    | @custom index' n' _ h' e' =>
      rw [HttpHeaderFieldName.custom.injEq]
      constructor
      · rintro rfl
        rw [h] at h'
        cases h'
        exact BEq.trans (BEq.symm e) e'
      · intro same
        have equal : (n == n') = true := BEq.trans (BEq.trans e same) (BEq.symm e')
        obtain ⟨lt, rfl⟩ := List.getElem?_eq_some_iff.mp h
        obtain ⟨lt', rfl⟩ := List.getElem?_eq_some_iff.mp h'
        have apart := pairwise_iff_getElem.mp custom.distinct
        rcases Nat.lt_trichotomy index index' with less | rfl | greater
        · rw [apart index index' lt lt' less] at equal
          cases equal
        · rfl
        · rw [BEq.comm, apart index' index lt' lt greater] at equal
          cases equal

namespace HttpHeaders.Storage

structure Holds (st : Storage) (names : List FieldName) (m : OrderedMap FieldName String) : Prop where
  array : st.customFieldNames.Holds (names.map fun n => n.text.toList)
  custom : Custom names
  fields : OrderedMap.Related (Denotes names) st.fields.toOrdered m
  small : m.count < 2 ^ 16

variable {st : Storage} {m : OrderedMap FieldName String}

/-- What a change leads to: the map `m`, unless it has 65536 entries. -/
inductive Becomes : Option Storage → OrderedMap FieldName String → Prop where
  | some {st : Storage} {names : List FieldName} {m : OrderedMap FieldName String} :
    Holds st names m →
    Becomes (some st) m
  | full {m : OrderedMap FieldName String} :
    2 ^ 16 ≤ m.count →
    Becomes none m

lemma holds_empty : Holds {} [] {} where
  array := .empty
  custom := ⟨.nil, fun _ h => (by cases h)⟩
  fields := .nil
  small := by decide

namespace Holds

section
variable (h : st.Holds names m)
include h

lemma fromString (n : FieldName) :
    (∃ field, st.fromString n.text = some field ∧ Denotes names field n) ∨
      st.fromString n.text = none ∧ ∀ field, ¬ Denotes names field n := by
  have search : ∀ field (hf : field ∈ HttpHeaderFieldName.table),
      equalsIgnoreCase n.text (HttpHeaders.nameString {} field) = (n == standard field hf) := fun field hf =>
    n.equalsIgnoreCase_eq (standard field hf)
  rw [Storage.fromString]
  cases found : HttpHeaderFieldName.table.find? fun field =>
      equalsIgnoreCase n.text (HttpHeaders.nameString {} field) with
  | some field =>
    have hf := mem_of_find?_eq_some found
    have same := find?_some found
    rw [search field hf] at same
    exact .inl ⟨field, rfl, .standard hf (BEq.symm same)⟩
  | none =>
    have table : ∀ field (hf : field ∈ HttpHeaderFieldName.table), (n == standard field hf) ≠ true := by
      intro field hf
      rw [← search field hf]
      exact find?_eq_none.mp found field hf
    have custom : st.findCustomFieldName n.text = (names.findIdx? (n == ·)).map .custom := by
      have tests : strcasecmp n.text.toList ∘ (fun n' : FieldName => n'.text.toList) = (n == ·) :=
        funext fun n' => n.strcasecmp_eq n'
      rw [findCustomFieldName, h.array.indexOf, findIdx?_map, tests]
    dsimp only
    rw [custom]
    cases place : names.findIdx? (n == ·) with
    | some index =>
      obtain ⟨lt, same, -⟩ := findIdx?_eq_some_iff_getElem.mp place
      exact .inl ⟨.custom index, rfl, .custom (getElem?_eq_getElem lt) (BEq.symm same)⟩
    | none =>
      refine .inr ⟨rfl, ?_⟩
      intro field d
      cases d with
      | standard hf e => exact table field hf (BEq.symm e)
      | @custom index n' _ hn e =>
        have absent := findIdx?_eq_none_iff.mp place n' (mem_of_getElem? hn)
        rw [BEq.symm e] at absent
        cases absent

lemma field (r : FieldRef) :
    (∃ field, st.field r = some field ∧ Denotes names field r.key) ∨
      st.field r = none ∧ ∀ field, ¬ Denotes names field r.key := by
  cases r with
  | name n => exact h.fromString n
  | tag field hf => exact .inl ⟨field, rfl, .standard hf BEq.rfl⟩

lemma not_contains (unknown : ∀ field, ¬ Denotes names field key) : m.contains key = false := by
  rw [← Bool.not_eq_true, OrderedMap.contains_iff]
  rintro ⟨e, mem, same⟩
  obtain ⟨i, there⟩ := getElem?_of_mem mem
  obtain ⟨tag, -, d⟩ := h.fields.getElem? there
  exact unknown tag (d.congr (BEq.symm same))

lemma contains (r : FieldRef) : st.contains r = m.contains r.key := by
  rw [Storage.contains]
  obtain ⟨field, found, d⟩ | ⟨missing, unknown⟩ := h.field r
  · rw [found, ← h.fields.contains (d.found h.custom), HashMap.toOrdered_contains]
    rfl
  · rw [missing, h.not_contains unknown]
    rfl

lemma value (r : FieldRef) : st.value r = (m.lookup r.key).getD "" := by
  rw [Storage.value]
  obtain ⟨field, found, d⟩ | ⟨missing, unknown⟩ := h.field r
  · rw [found, ← h.fields.lookup (d.found h.custom), HashMap.toOrdered_lookup]
  · have absent := h.not_contains unknown
    rw [OrderedMap.contains_eq_isSome, isSome_eq_false_iff, isNone_iff_eq_none] at absent
    rw [missing, OrderedMap.lookup_eq, absent]
    rfl

lemma remove (r : FieldRef) : (st.remove r).Holds names (m.erase r.key) := by
  have small : (m.erase r.key).count < 2 ^ 16 := Nat.lt_of_le_of_lt (length_filter_le ..) h.small
  rw [Storage.remove]
  obtain ⟨field, found, d⟩ | ⟨missing, unknown⟩ := h.field r
  · rw [found]
    refine ⟨h.array, h.custom, ?_, small⟩
    show OrderedMap.Related _ (st.fields.remove field).toOrdered _
    rw [HashMap.toOrdered_remove]
    exact h.fields.erase (d.found h.custom)
  · have absent := h.not_contains unknown
    rw [OrderedMap.contains_eq_isSome, isSome_eq_false_iff, isNone_iff_eq_none] at absent
    have same : m.erase r.key = m := OrderedMap.ext (OrderedMap.erase_of_none absent)
    rw [missing, same]
    exact h

lemma updateField (d : Denotes names tag key) (f : String → String) :
    Becomes (st.updateField tag f) (m.set key (f ((m.lookup key).getD ""))) := by
  have there := h.fields.contains (d.found h.custom)
  have value := h.fields.lookup (d.found h.custom)
  rw [HashMap.toOrdered_contains] at there
  have read : st.fields.value tag "" = (m.lookup key).getD "" := by
    rw [← HashMap.toOrdered_lookup, value]
  have count : st.fields.count = m.count := h.fields.count
  have room : (m.contains key = true ∨ m.count + 1 < 2 ^ 16) ↔
      (m.set key (f ((m.lookup key).getD ""))).count < 2 ^ 16 := by
    rw [OrderedMap.count_set]
    cases m.contains key with
    | true => exact ⟨fun _ => h.small, fun _ => .inl rfl⟩
    | false => exact ⟨fun h => h.resolve_left Bool.false_ne_true, .inr⟩
  rw [Storage.updateField, HashMap.update, there, count, read]
  split
  case isTrue fits =>
    refine @Becomes.some _ names _ ⟨h.array, h.custom, ?_, room.mp fits⟩
    show OrderedMap.Related _ (st.fields.set tag _).toOrdered _
    rw [HashMap.toOrdered_set]
    exact h.fields.set (d.found h.custom) d _
  case isFalse full => exact .full (Nat.le_of_not_lt fun fits => full (room.mpr fits))

lemma addName {n : FieldName} (unknown : ∀ tag, ¬ Denotes names tag n) :
    Holds { st with customFieldNames := st.customFieldNames.add n.text.toList } (names ++ [n]) m where
  array := by
    rw [map_append]
    exact h.array.add (fun e => n.nonempty (String.toList_eq_nil_iff.mp e)) n.free
  custom := by
    refine ⟨pairwise_append.mpr ⟨h.custom.distinct, pairwise_singleton .., ?_⟩, ?_⟩
    · intro a mem b last
      obtain rfl := mem_singleton.mp last
      rw [← Bool.not_eq_true]
      intro same
      obtain ⟨i, hi⟩ := getElem?_of_mem mem
      exact unknown _ (.custom hi same)
    · intro n' mem tag ht
      rcases mem_append.mp mem with old | last
      · exact h.custom.other n' old tag ht
      · obtain rfl := mem_singleton.mp last
        rw [← Bool.not_eq_true]
        exact fun same => unknown _ (.standard ht same)
  fields := h.fields.mono fun _ _ d => d.append n
  small := h.small

lemma update {n : FieldName} (same : (n == key) = true) (f : String → String) :
    Becomes (st.update n.text f) (m.set key (f ((m.lookup key).getD ""))) := by
  rw [Storage.update]
  obtain ⟨tag, found, d⟩ | ⟨missing, unknown⟩ := h.fromString n
  · rw [found]
    exact h.updateField (d.congr same) f
  · have d : Denotes (names ++ [n]) (.custom st.customFieldNames.count) n := by
      refine .custom ?_ BEq.rfl
      rw [h.array.count, List.length_map, getElem?_concat_length]
    rw [missing]
    exact (h.addName unknown).updateField (d.congr same) f

lemma modify (r : FieldRef) (f : String → String) :
    Becomes (st.modify r f) (m.set r.key (f ((m.lookup r.key).getD ""))) := by
  cases r with
  | name n => exact h.update BEq.rfl f
  | tag tag ht => exact h.updateField (.standard ht BEq.rfl) f

lemma update_update (n : FieldName) (f g : String → String) :
    ((st.update n.text f).bind fun st' => st'.update n.text g) = st.update n.text (g ∘ f) := by
  have twice : ∀ (st : Storage) (tag : HttpHeaderFieldName), st.fromString n.text = some tag →
      ((st.updateField tag f).bind fun st' => st'.update n.text g) = st.updateField tag (g ∘ f) := by
    intro st tag found
    rw [Storage.updateField, Storage.updateField, ← HashMap.update_update]
    cases st.fields.update tag "" f with
    | none => rfl
    | some fields =>
      have found' : Storage.fromString { st with fields } n.text = some tag := found
      rw [map_some, bind_some, bind_some, Storage.update, found']
      rfl
  obtain ⟨tag, found, -⟩ | ⟨missing, unknown⟩ := h.fromString n
  · rw [Storage.update, Storage.update, found]
    exact twice st tag found
  · have d : Denotes (names ++ [n]) (.custom st.customFieldNames.count) n := by
      refine .custom ?_ BEq.rfl
      rw [h.array.count, List.length_map, getElem?_concat_length]
    rw [Storage.update, Storage.update, missing]
    apply twice
    obtain ⟨tag, found, d'⟩ | ⟨-, unknown'⟩ := (h.addName unknown).fromString n
    · have same := d.found (h.addName unknown).custom tag n d'
      rw [BEq.rfl (a := n), beq_iff_eq] at same
      rw [found, ← same]
    · exact absurd d (unknown' _)

lemma nameString (d : Denotes names tag key) : ∃ n : FieldName, st.nameString tag = n.text ∧ (n == key) = true := by
  cases d with
  | standard ht same =>
    refine ⟨standard tag ht, ?_, same⟩
    cases tag with
    | custom index => exact absurd ht (custom_not_mem_table index)
    | _ => rfl
  | @custom index n _ hn same =>
    refine ⟨n, ?_, same⟩
    rw [Storage.nameString, h.array.getValue, getElem?_map, hn, map_some, getD_some, String.ofList_toList]

end

end Holds

end HttpHeaders.Storage

/-! ### Families of headers -/

open HttpHeaders (Storage)

/-- What may be called; the objects are named by `ι`. -/
inductive HeaderCall (ι : Type) where
  | lookup (i : ι) (r : FieldRef)
  | set (i : ι) (r : FieldRef) (value : String)
  | remove (i : ι) (r : FieldRef)
  | setMultiple (i j : ι)
  | assign (i j : ι)
  | clear (i : ι)

section

variable {ι : Type} [DecidableEq ι]

/-- A round of the loop of `setMultiple`. The headers `i` and `j` may be the same object. -/
def setField (i j : ι) (sts : ι → Storage) (idx : Nat) : Option (ι → Storage) :=
  match (sts j).fields.entries[idx]? with
  | some (name, value) =>
    ((sts i).update ((sts j).nameString name) fun _ => value).map fun st => Function.update sts i st
  | none => none

def setMultiple (sts : ι → Storage) (i j : ι) : Option (ι → Storage) :=
  (range (sts j).fields.count).foldlM (setField i j) sts

/-- A call on the objects; `none` is the creation of the 65536th field of an object. -/
def headerStep (sts : ι → Storage) : HeaderCall ι → Option (ι → Storage)
  | .lookup i r => ((sts i).modify r id).map fun st => Function.update sts i st
  | .set i r value => ((sts i).modify r fun _ => value).map fun st => Function.update sts i st
  | .remove i r => some (Function.update sts i ((sts i).remove r))
  | .setMultiple i j => setMultiple sts i j
  | .assign i j => setMultiple (Function.update sts i (sts i).clear) i j
  | .clear i => some (Function.update sts i (sts i).clear)

def mapStep (ms : ι → OrderedMap FieldName String) : HeaderCall ι → ι → OrderedMap FieldName String
  | .lookup i r => Function.update ms i ((ms i).touch r.key "")
  | .set i r value => Function.update ms i ((ms i).set r.key value)
  | .remove i r => Function.update ms i ((ms i).erase r.key)
  | .setMultiple i j => Function.update ms i ((ms i).setAll (ms j).entries)
  | .assign i j => Function.update ms i (ms j)
  | .clear i => Function.update ms i {}

/-- The headers answer what the map says: the number of fields, which are there, their values, and the lines
in the order in which the names were entered, in some spelling. -/
structure HttpHeaders.Storage.Shows (st : Storage) (m : OrderedMap FieldName String) : Prop where
  count : st.fields.count = m.count
  contains : ∀ r, st.contains r = m.contains r.key
  value : ∀ r, st.value r = (m.lookup r.key).getD ""
  lines : List.Forall₂ (fun line e => ∃ n : FieldName, (n == e.1) = true ∧
    line = n.text ++ ": " ++ e.2 ++ "\r\n") st.lines m.entries

structure Headers (ι : Type) where
  objects : Option (ι → Storage)
  maps : ι → OrderedMap FieldName String

namespace Headers

def new : Headers ι where
  objects := some fun _ => {}
  maps := fun _ => {}

def step (t : Headers ι) (call : HeaderCall ι) : Option (Headers ι) :=
  some { objects := t.objects.bind (headerStep · call), maps := mapStep t.maps call }

def Agrees (t : Headers ι) : Prop := ∃ sts, t.objects = some sts ∧ ∀ i, (sts i).Shows (t.maps i)

/-- No object gets 65536 fields, and headers are assigned to themselves only if they are empty. -/
def Kept (t : Headers ι) (call : HeaderCall ι) : Prop :=
  (∀ i, (mapStep t.maps call i).count < 2 ^ 16) ∧ ∀ i, call = .assign i i → (t.maps i).count = 0

end Headers

/-! ### Calls -/

def Represent (sts : ι → Storage) (ms : ι → OrderedMap FieldName String) : Prop :=
  ∀ i, ∃ names, (sts i).Holds names (ms i)

/-- What a call leads to: the maps `ms`, unless one of them has 65536 entries. -/
inductive Become : Option (ι → Storage) → (ι → OrderedMap FieldName String) → Prop where
  | some {sts ms} :
    Represent sts ms →
    Become (some sts) ms
  | full {ms} (i : ι) :
    2 ^ 16 ≤ (ms i).count →
    Become none ms

variable {sts : ι → Storage} {ms : ι → OrderedMap FieldName String} {i j : ι}

omit [DecidableEq ι] in
lemma Represent.small (h : Represent sts ms) (i : ι) : (ms i).count < 2 ^ 16 := by
  obtain ⟨_, hi⟩ := h i
  exact hi.small

lemma Represent.update (h : Represent sts ms) (i : ι) {st : Option Storage} {m : OrderedMap FieldName String}
    (b : Storage.Becomes st m) : Become (st.map fun st => Function.update sts i st) (Function.update ms i m) := by
  cases b with
  | @some st names m hm =>
    refine .some fun k => ?_
    dsimp only
    by_cases same : k = i
    · subst same
      rw [update_self, update_self]
      exact ⟨names, hm⟩
    · rw [update_of_ne same, update_of_ne same]
      exact h k
  | full many => exact .full i (by rwa [update_self])

lemma Represent.setField (h : Represent sts ms) {idx : Nat} {e : FieldName × String}
    (there : (ms j).entries[idx]? = some e) :
    Become (setField i j sts idx) (Function.update ms i ((ms i).set e.1 e.2)) := by
  obtain ⟨names, hj⟩ := h j
  obtain ⟨names', hi⟩ := h i
  obtain ⟨tag, read, d⟩ := hj.fields.getElem? there
  obtain ⟨n, text, same⟩ := hj.nameString d
  have read' : (sts j).fields.entries[idx]? = some (tag, e.2) := read
  rw [Http.setField, read']
  dsimp only
  rw [text]
  exact h.update i (hi.update same fun _ => e.2)

lemma Represent.setFields (h : Represent sts ms) (i j : ι) {k : Nat} (le : k ≤ (ms j).count) :
    Become ((range k).foldlM (Http.setField i j) sts)
      (Function.update ms i ((ms i).setAll ((ms j).entries.take k))) := by
  induction k with
  | zero =>
    have same : Function.update ms i ((ms i).setAll ((ms j).entries.take 0)) = ms := update_eq_self i ms
    rw [same]
    exact .some h
  | succ k ih =>
    have lt : k < (ms j).entries.length := le
    have next : (ms i).setAll ((ms j).entries.take (k + 1)) =
        ((ms i).setAll ((ms j).entries.take k)).set ((ms j).entries[k]).1 ((ms j).entries[k]).2 := by
      rw [take_succ_eq_append_getElem lt, OrderedMap.setAll_concat]
    have start := ih (Nat.le_of_succ_le le)
    rw [range_succ, foldlM_append]
    generalize (range k).foldlM (Http.setField i j) sts = rounds at start
    cases start with
    | full i' many =>
      refine .full i' (Nat.le_trans many ?_)
      by_cases same : i' = i
      · subst same
        rw [update_self, update_self, next, OrderedMap.count_set]
        split
        · exact Nat.le_refl _
        · exact Nat.le_succ _
      · rw [update_of_ne same, update_of_ne same]
    | @some sts' _ h' =>
      -- the fields that are read do not change, not even if they are copied to themselves
      have source : Function.update ms i ((ms i).setAll ((ms j).entries.take k)) j = ms j := by
        by_cases same : j = i
        · subst same
          rw [update_self]
          exact OrderedMap.setAll_of_subset fun e mem => mem_of_mem_take mem
        · exact update_of_ne same ..
      have round := h'.setField (i := i) (by rw [source]; exact getElem?_eq_getElem lt)
      rw [update_idem, update_self, ← next] at round
      have last : [k].foldlM (Http.setField i j) sts' = Http.setField i j sts' k := bind_fun_some _
      show Become ([k].foldlM (Http.setField i j) sts') _
      rw [last]
      exact round

lemma Represent.setMultiple (h : Represent sts ms) (i j : ι) :
    Become (Http.setMultiple sts i j) (Function.update ms i ((ms i).setAll (ms j).entries)) := by
  obtain ⟨names, hj⟩ := h j
  have count : (sts j).fields.count = (ms j).count := hj.fields.count
  have rounds := h.setFields i j (Nat.le_refl (ms j).count)
  rw [OrderedMap.count, take_length] at rounds
  rw [Http.setMultiple, count]
  exact rounds

lemma Represent.clear (h : Represent sts ms) (i : ι) :
    Represent (Function.update sts i (sts i).clear) (Function.update ms i {}) := by
  have cleared := h.update i (.some Storage.holds_empty)
  cases cleared with
  | some cleared => exact cleared

lemma Represent.step (h : Represent sts ms) {call : HeaderCall ι}
    (other : ∀ i, call = .assign i i → (ms i).count = 0) : Become (headerStep sts call) (mapStep ms call) := by
  cases call with
  | lookup i r =>
    obtain ⟨names, hi⟩ := h i
    have changed := hi.modify r id
    rw [id_eq, OrderedMap.set_lookup] at changed
    exact h.update i changed
  | set i r value =>
    obtain ⟨names, hi⟩ := h i
    exact h.update i (hi.modify r fun _ => value)
  | remove i r =>
    obtain ⟨names, hi⟩ := h i
    exact h.update i (.some (hi.remove r))
  | setMultiple i j => exact h.setMultiple i j
  | assign i j =>
    have copied := (h.clear i).setMultiple i j
    rw [update_idem, update_self] at copied
    have source : Function.update ms i {} j = ms j := by
      by_cases same : j = i
      · subst same
        rw [update_self]
        exact OrderedMap.ext (eq_nil_of_length_eq_zero (other j rfl)).symm
      · exact update_of_ne same ..
    rw [source, OrderedMap.setAll_empty] at copied
    exact copied
  | clear i => exact .some (h.clear i)

lemma headerStep_assign_self (sts : ι → Storage) (i : ι) :
    ∃ sts', headerStep sts (.assign i i) = some sts' ∧ (sts' i).fields.count = 0 := by
  refine ⟨Function.update sts i (sts i).clear, ?_, ?_⟩
  · rw [headerStep, Http.setMultiple, update_self]
    rfl
  · rw [update_self]
    rfl

lemma HttpHeaders.Storage.Holds.shows {st : Storage} {m : OrderedMap FieldName String} (h : st.Holds names m) :
    st.Shows m where
  count := h.fields.count
  contains := h.contains
  value := h.value
  lines := by
    rw [Storage.lines, forall₂_map_left_iff]
    refine List.Forall₂.imp ?_ h.fields
    rintro ⟨tag, value⟩ e ⟨d, rfl⟩
    obtain ⟨n, text, same⟩ := h.nameString d
    refine ⟨n, same, ?_⟩
    dsimp only at text ⊢
    rw [text]

namespace Headers

def Holds (t : Headers ι) : Prop := ∃ sts, t.objects = some sts ∧ Represent sts t.maps

variable {t u : Headers ι} {call : HeaderCall ι}

omit [DecidableEq ι] in
lemma holds_new : (new : Headers ι).Holds := ⟨_, rfl, fun _ => ⟨[], Storage.holds_empty⟩⟩

omit [DecidableEq ι] in
lemma Holds.agrees (h : t.Holds) : t.Agrees := by
  obtain ⟨sts, e, rep⟩ := h
  refine ⟨sts, e, fun i => ?_⟩
  obtain ⟨names, hi⟩ := rep i
  exact hi.shows

lemma Holds.step (h : t.Holds) (kept : t.Kept call) (st : t.step call = some u) : u.Holds := by
  obtain ⟨sts, e, rep⟩ := h
  cases st
  have result := rep.step kept.2
  dsimp only [Holds]
  rw [e, bind_some]
  generalize headerStep sts call = after at result
  cases result with
  | some rep' => exact ⟨_, rfl, rep'⟩
  | full i many => exact absurd (kept.1 i) (Nat.not_lt.mpr many)

lemma Holds.agrees_iff_kept (h : t.Holds) (st : t.step call = some u) : u.Agrees ↔ t.Kept call := by
  refine ⟨?_, fun kept => (h.step kept st).agrees⟩
  rintro ⟨sts', e', shows⟩
  obtain ⟨sts, e, rep⟩ := h
  cases st
  dsimp only at e' shows
  rw [e, bind_some] at e'
  have other : ∀ i, call = .assign i i → (t.maps i).count = 0 := by
    rintro i rfl
    obtain ⟨sts'', e'', count⟩ := headerStep_assign_self sts i
    rw [e'] at e''
    cases e''
    have listed := (shows i).count
    rw [count, mapStep, update_self] at listed
    exact listed.symm
  have result := rep.step other
  rw [e'] at result
  cases result with
  | some rep' => exact ⟨rep'.small, other⟩

lemma Holds.run {calls : List (HeaderCall ι)} (h : t.Holds) (r : Run Headers.step Kept t calls u) : u.Holds :=
  r.invariant h fun ht kept st => ht.step kept st

end Headers

/-- Headers behave like maps over names without case, through every sequence of calls on any objects, exactly as long
as none gets 65536 fields and none with fields is assigned to itself. -/
theorem httpHeaders_refines_iff {calls : List (HeaderCall ι)} {t : Headers ι}
    (r : Run Headers.step Always .new calls t) :
    (∀ calls' t', calls' <+: calls → Run Headers.step Always .new calls' t' → t'.Agrees) ↔
      Run Headers.step Headers.Kept .new calls t := by
  have start : (Headers.new : Headers ι).Holds := Headers.holds_new
  apply r.forall_prefix_iff_guarded start.agrees
  intro calls t call u rk _ st
  exact (start.run rk).agrees_iff_kept st

end

theorem httpHeaders_refines_iff_again :
    let n : FieldName := ⟨"X-A", by decide +kernel, by decide +kernel⟩
    let n' : FieldName := ⟨"x-a", by decide +kernel, by decide +kernel⟩
    ∃ t : Headers Unit,
      Run Headers.step Headers.Kept .new
        [.set () (.name n) "1", .remove () (.name n'), .set () (.name n') "2"] t ∧
      t.Agrees ∧ (t.maps ()).lookup n = some "2" := by
  intro n n'
  have set : ∀ (t : Headers Unit) (r : FieldRef) (v : String), (t.maps ()).count = 0 → t.Kept (.set () r v) := by
    intro t r v empty
    refine ⟨fun i => ?_, fun i h => (by cases h)⟩
    rw [mapStep, update_self, OrderedMap.count_set, empty]
    split <;> decide
  have r : Run Headers.step Headers.Kept (.new : Headers Unit)
      [.set () (.name n) "1", .remove () (.name n'), .set () (.name n') "2"] _ := .cons (set _ _ _ rfl) rfl
      (.cons ⟨fun i => (by cases i; decide +kernel), fun i h => (by cases h)⟩ rfl
        (.cons (set _ _ _ (by decide +kernel)) rfl .nil))
  exact ⟨_, r, (httpHeaders_refines_iff r.always).mpr r _ _ prefix_rfl r.always, by decide +kernel⟩

/-- Headers with one field that are assigned to themselves. -/
theorem httpHeaders_assign_self_loses :
    ¬ ∀ (calls : List (HeaderCall Unit)) (t : Headers Unit),
      Run Headers.step Always .new calls t → t.Agrees := by
  intro all
  let start : Unit → Storage := fun _ => {}
  let set : HeaderCall Unit := .set () (.tag .host (by decide)) "a"
  obtain ⟨sts, e, shows⟩ := all [set, .assign () ()] _ (.cons trivial rfl (.cons trivial rfl .nil))
  obtain ⟨sts₁, first⟩ : ∃ sts₁, headerStep start set = some sts₁ := ⟨_, rfl⟩
  obtain ⟨sts₂, second, empty⟩ := headerStep_assign_self sts₁ ()
  have last : (headerStep start set).bind (headerStep · (.assign () ())) = some sts := e
  rw [first, bind_some, second] at last
  cases last
  have count := (shows ()).count
  rw [empty] at count
  exact absurd count (by decide +kernel)

end Sming.Network.Http
