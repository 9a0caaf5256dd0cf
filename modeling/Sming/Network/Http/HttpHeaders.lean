import Sming.Wiring.WHashMap
import Sming.Wiring.WString

/-!
# Header fields

Embedding of `Sming/SmingCore/Network/Http/HttpHeaders.cpp`: a hash map from field names to values.
The names of the table are constructors; a name that is not in the table stands in
`customFieldNames`, and the map knows it by its place there.
-/

namespace Sming.Network.Http
open Sming.Wiring

inductive HttpHeaderFieldName where
  | accessControlAllowOrigin | authorization | cc | connection | contentDisposition
  | contentEncoding | contentLength | contentType | contentTransferEncoding | cacheControl | date
  | etag | from' | host | ifMatch | ifModifiedSince | lastModified | location | secWebsocketAccept
  | secWebsocketVersion | secWebsocketKey | secWebsocketProtocol | server | setCookie | subject | to
  | transferEncoding | upgrade | userAgent | wwwAuthenticate
  | custom (index : Nat)
  deriving Repr, DecidableEq

structure HttpHeaders where
  fields : HashMap HttpHeaderFieldName String := {}
  customFieldNames : List String := []
  deriving DecidableEq

namespace HttpHeaders

variable (h : HttpHeaders)

/-- (C++ `HttpHeaders::toString(HttpHeaderFieldName)`.) -/
def nameString : HttpHeaderFieldName → String
  | .accessControlAllowOrigin => "Access-Control-Allow-Origin"
  | .authorization => "Authorization"
  | .cc => "Cc"
  | .connection => "Connection"
  | .contentDisposition => "Content-Disposition"
  | .contentEncoding => "Content-Encoding"
  | .contentLength => "Content-Length"
  | .contentType => "Content-Type"
  | .contentTransferEncoding => "Content-Transfer-Encoding"
  | .cacheControl => "Cache-Control"
  | .date => "Date"
  | .etag => "ETag"
  | .from' => "From"
  | .host => "Host"
  | .ifMatch => "If-Match"
  | .ifModifiedSince => "If-Modified-Since"
  | .lastModified => "Last-Modified"
  | .location => "Location"
  | .secWebsocketAccept => "Sec-WebSocket-Accept"
  | .secWebsocketVersion => "Sec-WebSocket-Version"
  | .secWebsocketKey => "Sec-WebSocket-Key"
  | .secWebsocketProtocol => "Sec-WebSocket-Protocol"
  | .server => "Server"
  | .setCookie => "Set-Cookie"
  | .subject => "Subject"
  | .to => "To"
  | .transferEncoding => "Transfer-Encoding"
  | .upgrade => "Upgrade"
  | .userAgent => "User-Agent"
  | .wwwAuthenticate => "WWW-Authenticate"
  | .custom index => h.customFieldNames.getD index ""

/-- The lines of all fields in their order (C++ `HttpHeaders::operator[](unsigned)`). -/
def lines : List String :=
  h.fields.entries.map fun (name, value) => h.nameString name ++ ": " ++ value ++ "\r\n"

/-- The value of a field, the empty text if there is none. -/
def value (name : HttpHeaderFieldName) : String := h.fields.value name ""

def contains (name : HttpHeaderFieldName) : Bool := h.fields.contains name

def set (name : HttpHeaderFieldName) (value : String) : HttpHeaders :=
  { h with fields := h.fields.set name value }

/-- Reading through the index operator of headers that are not `const` enters the name. -/
def touch (name : HttpHeaderFieldName) : HttpHeaders :=
  { h with fields := h.fields.touch name "" }

def remove (name : HttpHeaderFieldName) : HttpHeaders :=
  { h with fields := h.fields.remove name }

/-- Assign a field of other headers under its name; a custom name is looked for ignoring the case. -/
def setField (h headers : HttpHeaders) : HttpHeaderFieldName × String → HttpHeaders
  | (.custom index, value) =>
    let name := headers.nameString (.custom index)
    match h.customFieldNames.findIdx? fun known => WString.equalsIgnoreCase name known with
    | some found => h.set (.custom found) value
    | none =>
      { h with customFieldNames := h.customFieldNames ++ [name] }.set
        (.custom h.customFieldNames.length) value
  | (name, value) => h.set name value

def setMultiple (h headers : HttpHeaders) : HttpHeaders :=
  headers.fields.entries.foldl (setField · headers) h

def Has (name : HttpHeaderFieldName) (value : String) : Prop :=
  (name, value) ∈ h.fields.entries

def Equiv (h h' : HttpHeaders) : Prop :=
  h.customFieldNames = h'.customFieldNames ∧ ∀ name value, h.Has name value ↔ h'.Has name value

variable {h : HttpHeaders} {name n : HttpHeaderFieldName} {value v : String}

@[simp] lemma has_set : (h.set name value).Has n v ↔ if n = name then v = value else h.Has n v :=
  HashMap.mem_set

@[simp] lemma has_touch : (h.touch name).Has n v ↔ h.Has n v ∨ (h.contains name = false ∧ n = name ∧ v = "") :=
  HashMap.mem_touch

@[simp] lemma has_remove : (h.remove name).Has n v ↔ n ≠ name ∧ h.Has n v := HashMap.mem_remove

@[simp] lemma contains_set : (h.set name value).contains n = (decide (n = name) || h.contains n) :=
  HashMap.contains_set

@[simp] lemma contains_remove : (h.remove name).contains n = (decide (n ≠ name) && h.contains n) :=
  HashMap.contains_remove

@[simp] lemma value_set : (h.set name value).value n = if n = name then value else h.value n :=
  HashMap.value_set

lemma contains_iff : h.contains name = true ↔ ∃ value, h.Has name value := HashMap.contains_iff_exists

lemma Equiv.value_eq {h' : HttpHeaders} (e : h.Equiv h') (name : HttpHeaderFieldName) :
    h.fields.value name "" = h'.fields.value name "" := by
  cases hc : h.contains name with
  | true =>
    obtain ⟨v, hv⟩ := contains_iff.mp hc
    rw [HashMap.value_of_mem hv, HashMap.value_of_mem ((e.2 _ _).mp hv)]
  | false =>
    have hc' : h'.contains name = false := by
      rw [← Bool.not_eq_true, contains_iff] at hc ⊢
      rintro ⟨v, hv⟩
      exact hc ⟨v, (e.2 _ _).mpr hv⟩
    rw [HashMap.value_of_not_contains hc, HashMap.value_of_not_contains hc']

end HttpHeaders

end Sming.Network.Http
