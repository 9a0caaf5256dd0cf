import Sming.Network.Http.HttpHeaderStorage

/-!
# Incoming header fields

Embedding of the callbacks of `Sming/SmingCore/Network/Http/HttpConnectionBase.cpp` that collect the header
fields of a message. The parser hands out the name and the value of a field in pieces; whether the last piece
belonged to a value is kept in `lastWasValue`.

A field is one assignment, however it was cut (`callbacks_field`), so that the headers of a message are
those of its fields, assigned one after the other to empty headers.
-/

namespace Sming.Network.Http
open Sming.Wiring List
open HttpHeaders (Storage)

/-- The fields of a connection that its header callbacks use. -/
structure HttpConnectionBase where
  lastWasValue : Bool := true
  lastData : String := ""
  currentField : String := ""
  incomingHeaders : Storage := {}

inductive ParserCallback where
  | messageBegin
  | headerField (piece : String)
  | headerValue (piece : String)
  | headersComplete
  | messageComplete

namespace HttpConnectionBase

variable (c : HttpConnectionBase)

def resetHeaders : HttpConnectionBase :=
  { c with lastWasValue := true, lastData := "", currentField := "", incomingHeaders := c.incomingHeaders.clear }

/-- (C++ `staticOnHeaderField`.) -/
def onHeaderField (piece : String) : HttpConnectionBase :=
  -- a new field starts behind a value
  let c := if c.lastWasValue then { c with lastData := "", lastWasValue := false } else c
  { c with lastData := c.lastData ++ piece }

/-- `incomingHeaders[currentField] = f(incomingHeaders[currentField])`. -/
def updateHeader (f : String → String) : Option HttpConnectionBase :=
  (c.incomingHeaders.update c.currentField f).map fun incomingHeaders => { c with incomingHeaders }

/-- (C++ `staticOnHeaderValue`.) -/
def onHeaderValue (piece : String) : Option HttpConnectionBase :=
  let begun := if c.lastWasValue then some c else
    { c with currentField := c.lastData, lastWasValue := true }.updateHeader fun _ => ""
  begun.bind (·.updateHeader (· ++ piece))

/-- The state after a callback; `none` is a 65536th field. The headers of a message are handed to
`onHeadersComplete` before they are reset. -/
def callback : ParserCallback → Option HttpConnectionBase
  | .messageBegin => some c.resetHeaders
  | .headerField piece => some (c.onHeaderField piece)
  | .headerValue piece => c.onHeaderValue piece
  | .headersComplete => some c.resetHeaders
  | .messageComplete => some c.resetHeaders

/-- The headers that `onHeadersComplete` gets at the end of the headers of a message. -/
def passedHeaders (callbacks : List ParserCallback) : Option Storage :=
  ((.messageBegin :: callbacks).foldlM callback c).map incomingHeaders

end HttpConnectionBase

structure CutField where
  name : FieldName
  value : String
  namePieces : List String
  valuePieces : List String
  named : namePieces ≠ []
  valued : valuePieces ≠ []
  joinName : String.join namePieces = name.text
  joinValue : String.join valuePieces = value

namespace CutField

def callbacks (f : CutField) : List ParserCallback :=
  f.namePieces.map .headerField ++ f.valuePieces.map .headerValue

def whole (f : CutField) : CutField where
  name := f.name
  value := f.value
  namePieces := [f.name.text]
  valuePieces := [f.value]
  named := cons_ne_nil _ _
  valued := cons_ne_nil _ _
  joinName := String.empty_append
  joinValue := String.empty_append

end CutField

def headersOf (fields : List CutField) : Option Storage :=
  fields.foldlM (fun headers f => headers.update f.name.text fun _ => f.value) {}

namespace HttpConnectionBase

variable {st st' : Storage} {names : List FieldName} {m : Lib.OrderedMap FieldName String} {data field : String}

lemma callbacks_name_rest (pieces : List String) :
    (pieces.map .headerField).foldlM callback ⟨false, data, field, st⟩ =
      some ⟨false, pieces.foldl (· ++ ·) data, field, st⟩ := by
  induction pieces generalizing data with
  | nil => rfl
  | cons piece pieces ih =>
    rw [map_cons, foldlM_cons]
    exact ih

lemma callbacks_name {pieces : List String} (ne : pieces ≠ []) :
    (pieces.map .headerField).foldlM callback ⟨true, data, field, st⟩ =
      some ⟨false, String.join pieces, field, st⟩ := by
  obtain ⟨piece, pieces, rfl⟩ := exists_cons_of_ne_nil ne
  rw [map_cons, foldlM_cons]
  exact callbacks_name_rest pieces

lemma exists_update {name : String} {f : String → String} (e : st.update name f = some st')
    (g : String → String) : ∃ st'', st.update name g = some st'' := by
  have fields : ∀ (st st' : Storage) (tag : HttpHeaderFieldName), st.updateField tag f = some st' →
      ∃ st'', st.updateField tag g = some st'' := by
    intro st st' tag e
    rw [Storage.updateField, HashMap.update] at e ⊢
    split at e
    case isTrue room =>
      rw [if_pos room]
      exact ⟨_, rfl⟩
    case isFalse => cases e
  rw [Storage.update] at e ⊢
  cases found : st.fromString name with
  | some tag =>
    rw [found] at e
    exact fields st st' tag e
  | none =>
    rw [found] at e
    exact fields _ st' _ e

lemma callbacks_value_rest (h : st.Holds names m) (n : FieldName) {f : String → String}
    (begun : st.update n.text f = some st') (pieces : List String) :
    (pieces.map .headerValue).foldlM callback ⟨true, data, n.text, st'⟩ =
      (st.update n.text fun v => pieces.foldl (· ++ ·) (f v)).map fun headers => ⟨true, data, n.text, headers⟩ := by
  induction pieces generalizing f st' with
  | nil =>
    show _ = (st.update n.text f).map _
    rw [begun]
    rfl
  | cons piece pieces ih =>
    have next := h.update_update n f (· ++ piece)
    obtain ⟨st'', e⟩ := exists_update begun ((· ++ piece) ∘ f)
    rw [begun, Option.bind_some, e] at next
    have step : callback ⟨true, data, n.text, st'⟩ (.headerValue piece) = some ⟨true, data, n.text, st''⟩ := by
      show (st'.update n.text fun v => v ++ piece).map _ = _
      rw [next]
      rfl
    rw [map_cons, foldlM_cons, step]
    exact ih e

lemma callbacks_value (h : st.Holds names m) (n : FieldName) {pieces : List String} (ne : pieces ≠ []) :
    (pieces.map .headerValue).foldlM callback ⟨false, n.text, field, st⟩ =
      (st.update n.text fun _ => String.join pieces).map fun headers => ⟨true, n.text, n.text, headers⟩ := by
  obtain ⟨piece, pieces, rfl⟩ := exists_cons_of_ne_nil ne
  have first : callback ⟨false, n.text, field, st⟩ (.headerValue piece) =
      (st.update n.text fun _ => "" ++ piece).map fun headers => ⟨true, n.text, n.text, headers⟩ := by
    rw [show (fun _ : String => "" ++ piece) = (· ++ piece) ∘ fun _ => "" from rfl, ← h.update_update]
    show ((st.update n.text fun _ => "").map _).bind _ = _
    cases st.update n.text fun _ => "" with
    | none => rfl
    | some st' => rfl
  rw [map_cons, foldlM_cons, first]
  cases begun : st.update n.text fun _ => "" ++ piece with
  | none =>
    have full : (st.update n.text fun _ => String.join (piece :: pieces)) = none := by
      rw [Option.eq_none_iff_forall_ne_some]
      intro st' e
      obtain ⟨st'', e'⟩ := exists_update e fun _ => "" ++ piece
      rw [begun] at e'
      cases e'
    rw [full]
    rfl
  | some st' => exact callbacks_value_rest h n begun pieces

lemma callbacks_field (h : st.Holds names m) (f : CutField) :
    f.callbacks.foldlM callback ⟨true, data, field, st⟩ =
      (st.update f.name.text fun _ => f.value).map fun headers => ⟨true, f.name.text, f.name.text, headers⟩ := by
  rw [CutField.callbacks, foldlM_append, callbacks_name f.named, f.joinName]
  show (f.valuePieces.map .headerValue).foldlM callback _ = _
  rw [callbacks_value h f.name f.valued, f.joinValue]

lemma callbacks_fields (h : st.Holds names m) (fields : List CutField) :
    ((fields.flatMap CutField.callbacks).foldlM callback ⟨true, data, field, st⟩).map incomingHeaders =
      fields.foldlM (fun headers f => headers.update f.name.text fun _ => f.value) st := by
  induction fields generalizing st names m data field with
  | nil => rfl
  | cons f fields ih =>
    have result := h.update (n := f.name) BEq.rfl fun _ => f.value
    rw [flatMap_cons, foldlM_append, callbacks_field h f, foldlM_cons]
    generalize st.update f.name.text (fun _ => f.value) = after at result
    cases result with
    | full => rfl
    | some h' => exact ih h'

/-- The headers of a message are those of its fields, whatever came before it and however the parser cut the
names and values. -/
theorem passedHeaders_eq (c c' : HttpConnectionBase) (fields : List CutField) :
    c.passedHeaders (fields.flatMap CutField.callbacks) = headersOf fields ∧
      c.passedHeaders (fields.flatMap CutField.callbacks) =
        c'.passedHeaders (fields.flatMap fun f => f.whole.callbacks) := by
  have all : ∀ (c : HttpConnectionBase) (fields : List CutField),
      c.passedHeaders (fields.flatMap CutField.callbacks) = headersOf fields := fun c fields =>
    callbacks_fields Storage.holds_empty fields
  refine ⟨all c fields, ?_⟩
  have whole : (fields.flatMap fun f => f.whole.callbacks) = (fields.map CutField.whole).flatMap CutField.callbacks :=
    (flatMap_map ..).symm
  rw [whole, all, all, headersOf, headersOf, foldlM_map]
  rfl

end HttpConnectionBase

end Sming.Network.Http
