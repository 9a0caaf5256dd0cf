import Sming.Network.Http.HttpRequest

/-!
# What frames a response

Embedding of `Sming/SmingCore/Network/Http/HttpResponse.cpp` as far as a resource attaches a body with
it, and of `sendResponseHeaders` and the start of `sendResponseBody` of
`Sming/SmingCore/Network/Http/HttpServerConnection.cpp`.

The header fields of the application stay, except that a stream which knows its size sets
`Content-Length`. So it is up to the application that a stream without a size is chunked or closes the
connection, and that nothing else is said about the length.
-/

namespace Sming.Network.Http
open Sming.Wiring List Option HttpHeaderFieldName

/-- The values of C++ `StreamType` that make a difference here. -/
inductive StreamType where
  | memory
  | file
  | other
  deriving Repr, DecidableEq

/-- The stream of a response: its `id()` and type, what it delivers, and whether `available()` tells
the size. -/
structure ResponseStream where
  id : String := ""
  streamType : StreamType := .other
  content : List UInt8
  known : Bool
  deriving Repr, DecidableEq

/-- (C++ `available()`), `none` for -1. -/
def ResponseStream.available (s : ResponseStream) : Option Nat :=
  if s.known then some s.content.length else none

/-- (C++ `HttpResponse`), as `onMessageBegin` leaves it. -/
structure HttpResponse where
  code : Int := 200
  headers : HttpHeaders := {}
  stream : Option ResponseStream := none
  deriving DecidableEq

namespace HttpResponse

def setHeader (r : HttpResponse) (name : HttpHeaderFieldName) (value : String) : HttpResponse :=
  { r with headers := r.headers.set name value }

def sendString (r : HttpResponse) (text : String) : HttpResponse :=
  let stored :=
    match r.stream with
    | some stream => if stream.streamType = .memory then stream.content else []
    | none => []
  { r with
    stream := some { streamType := .memory, content := stored ++ bytes text, known := true } }

/-- Attach a stream; a stream that is there is deleted. -/
def sendDataStream (r : HttpResponse) (stream : ResponseStream) (contentType : Option String) :
    HttpResponse :=
  let r :=
    match contentType with
    | some type => r.setHeader .contentType type
    | none => r
  { r with stream := some stream }

/-- Attach a template, chunked if it does not know its size. -/
def sendTemplate (r : HttpResponse) (template : ResponseStream) (name : String) (isValid : Bool) :
    HttpResponse × Bool :=
  if isValid = false then ({ r with code := 404, stream := none }, false)
  else
    let r := { r with stream := some template }
    let r :=
      if r.headers.contains .contentType = false ∧ contentTypeOf name ≠ "" then
        r.setHeader .contentType (contentTypeOf name)
      else r
    if r.headers.contains .transferEncoding = false ∧ template.available = none then
      (r.setHeader .transferEncoding "chunked", true)
    else (r, true)

end HttpResponse

/-- What the server reads of the request when it answers. -/
structure ServedRequest where
  method : HttpMethod := .get
  headers : HttpHeaders := {}
  deriving DecidableEq

namespace HttpResponse

variable (r : HttpResponse)

/-- Name the stream in `ETag` unless the application did. -/
def tagged : HttpResponse :=
  match r.stream with
  | some stream =>
    if r.headers.contains .etag = false ∧ stream.id ≠ "" then r.setHeader .etag ("\"" ++ stream.id ++ "\"")
    else r
  | none => r

/-- The client has this very resource. -/
def isUnmodified (request : ServedRequest) : Bool :=
  request.headers.contains .ifMatch && r.headers.contains .etag &&
    request.headers.value .ifMatch == r.headers.value .etag &&
    (request.method == .get || request.method == .head)

/-- Answer `304` without a body if the client has this very resource. -/
def matched (request : ServedRequest) : HttpResponse :=
  if r.isUnmodified request then { code := 304, headers := r.headers.set .contentLength "0", stream := none }
  else r

def lengthHeaders : HttpHeaders :=
  match r.stream with
  | some stream =>
    match stream.available with
    | some n => r.headers.set .contentLength (toString n)
    | none => r.headers
  | none =>
    if r.headers.contains .contentLength then r.headers else r.headers.set .contentLength "0"

def connectionHeaders (headers : HttpHeaders) (request : ServedRequest) : HttpHeaders :=
  if headers.contains .connection then headers
  else if request.headers.value .connection = "close" then headers.set .connection "close"
  else headers.set .connection "keep-alive"

/-- The response after its header block has been written (C++ `sendResponseHeaders`, with
`HTTP_SERVER_EXPOSE_NAME` and without `HTTP_SERVER_EXPOSE_DATE`, the defaults). -/
def sendResponseHeaders (request : ServedRequest) : HttpResponse :=
  let r := r.tagged.matched request
  { r with headers := (connectionHeaders r.lengthHeaders request).set .server "HttpServer/Sming" }

def headerBlock : List String :=
  ("HTTP/1.1 " ++ toString r.code ++ " " ++ httpGetStatusText r.code ++ "\r\n") ::
    r.headers.lines ++ ["\r\n"]

/-- The body behind the header block (C++ `sendResponseBody` in `eHCS_StartBody`). A chunking stream whose source is
finished from the start delivers nothing, not even the last chunk. -/
def sentBody (request : ServedRequest) : Body :=
  if request.method = .head then {}
  else
    match r.stream with
    | none => {}
    | some stream =>
      { chunked := r.headers.value .transferEncoding == "chunked" && !stream.content.isEmpty
        content := stream.content }

/-- The server closes the connection behind the response (C++ `eHCS_Sent`). -/
def closes : Bool := r.headers.value .connection == "close"

end HttpResponse

/-! ### The rules of HTTP/1.1 -/

def isBlank (c : Char) : Bool := c == ' ' || c == '\t'

/-- A field value without the blanks around it. -/
def trimmed (cs : List Char) : List Char := ((cs.dropWhile isBlank).reverse.dropWhile isBlank).reverse

/-- A value of `Transfer-Encoding` whose last coding is `chunked`; the letter case does not matter. -/
def saysChunked (value : String) : Bool :=
  (trimmed (value.toList.reverse.takeWhile (· != ',')).reverse).map Char.toLower == "chunked".toList

/-- The number a value of `Content-Length` stands for. -/
def decimal (value : String) : Option Nat :=
  let digits := trimmed value.toList
  if digits ≠ [] ∧ digits.all Char.isDigit then some (Nat.ofDigitChars 10 digits 0) else none

/-- A response to the method, with the status code, has no body whatever its header fields say. -/
def bodyless (method : HttpMethod) (code : Int) : Bool :=
  method == .head || (method == .connect && 200 ≤ code && code < 300) ||
    (100 ≤ code && code < 200) || code == 204 || code == 304

/-- A client can tell where the response ends: no body where none is expected, else `Content-Length` counts it, it is
chunked, or it ends with the connection. -/
def SelfDelimiting (method : HttpMethod) (r : HttpResponse) (body : Body) : Prop :=
  if bodyless method r.code then body = {}
  else if saysChunked (r.headers.value .transferEncoding) then
    r.headers.contains .contentLength = false ∧ body.chunked = true
  else if r.headers.contains .contentLength then
    decimal (r.headers.value .contentLength) = some body.content.length ∧ body.chunked = false
  else r.closes = true ∧ body.chunked = false

instance (method : HttpMethod) (r : HttpResponse) (body : Body) :
    Decidable (SelfDelimiting method r body) := inferInstanceAs (Decidable (ite _ _ _))

lemma trimmed_of_isDigit {cs : List Char} (digits : ∀ c ∈ cs, c.isDigit = true) : trimmed cs = cs := by
  have skip : ∀ l : List Char, (∀ c ∈ l, c.isDigit = true) → l.dropWhile isBlank = l := by
    intro l digits
    cases l with
    | nil => rfl
    | cons c l =>
      apply dropWhile_cons_of_neg
      intro blank
      have digit := digits c mem_cons_self
      rw [isBlank, Bool.or_eq_true, beq_iff_eq, beq_iff_eq] at blank
      obtain rfl | rfl := blank
      · exact absurd digit (by decide)
      · exact absurd digit (by decide)
  rw [trimmed, skip cs digits, skip cs.reverse, reverse_reverse]
  intro c mem
  exact digits c (mem_reverse.mp mem)

lemma decimal_toString (n : Nat) : decimal (toString n) = some n := by
  have digits : ∀ c ∈ Nat.toDigits 10 n, c.isDigit = true := by
    intro c mem
    exact Nat.isDigit_of_mem_toDigits (by decide) (by decide) mem
  rw [decimal, Nat.toString_eq_repr, Nat.toList_repr, trimmed_of_isDigit digits, if_pos]
  · rw [Nat.ofDigitChars_toDigits (by decide) (by decide)]
  · exact ⟨Nat.toDigits_ne_nil, List.all_eq_true.mpr digits⟩

namespace HttpResponse

lemma tagged_eq (r : HttpResponse) : r.tagged.code = r.code ∧ r.tagged.stream = r.stream ∧
    ∀ name ≠ .etag, r.tagged.headers.contains name = r.headers.contains name ∧
      r.tagged.headers.value name = r.headers.value name := by
  rw [tagged]
  split
  · split
    · refine ⟨rfl, rfl, fun name ne => ?_⟩
      simp [setHeader, ne]
    · exact ⟨rfl, rfl, fun _ _ => ⟨rfl, rfl⟩⟩
  · exact ⟨rfl, rfl, fun _ _ => ⟨rfl, rfl⟩⟩

variable {request : ServedRequest}

lemma connectionHeaders_eq {headers : HttpHeaders} {name} (ne : name ≠ .connection) :
    (connectionHeaders headers request).contains name = headers.contains name ∧
      (connectionHeaders headers request).value name = headers.value name := by
  rw [connectionHeaders]
  repeat' split
  all_goals simp [ne]

variable {r : HttpResponse}

lemma lengthHeaders_eq {name} (ne : name ≠ .contentLength) :
    r.lengthHeaders.contains name = r.headers.contains name ∧
      r.lengthHeaders.value name = r.headers.value name := by
  rw [lengthHeaders]
  repeat' split
  all_goals simp [ne]

/-- The connection is to be closed: the application says so, or the client and not the application. -/
def wantsClose (r : HttpResponse) (request : ServedRequest) : Bool :=
  if r.headers.contains .connection then r.headers.value .connection == "close"
  else request.headers.value .connection == "close"

section
variable (modified : r.tagged.isUnmodified request = false)
include modified

lemma sendResponseHeaders_eq :
    (r.sendResponseHeaders request).code = r.code ∧ (r.sendResponseHeaders request).stream = r.stream ∧
      (r.sendResponseHeaders request).headers.value .transferEncoding =
        r.headers.value .transferEncoding ∧ (r.sendResponseHeaders request).closes = r.wantsClose request := by
  obtain ⟨code, stream, headers⟩ := r.tagged_eq
  rw [sendResponseHeaders, matched, modified, if_neg Bool.false_ne_true]
  refine ⟨code, stream, ?_, ?_⟩
  · simp only [HttpHeaders.value_set, if_neg (show transferEncoding ≠ .server by decide)]
    rw [(connectionHeaders_eq (by decide)).2, (lengthHeaders_eq (by decide)).2, (headers _ (by decide)).2]
  · obtain ⟨has, val⟩ := headers .connection (by decide)
    obtain ⟨has', val'⟩ := @lengthHeaders_eq r.tagged .connection (by decide)
    rw [closes, wantsClose]
    simp only [HttpHeaders.value_set, if_neg (show connection ≠ .server by decide)]
    rw [connectionHeaders, has', has]
    repeat' split
    all_goals simp_all

lemma sendResponseHeaders_contentLength :
    (r.sendResponseHeaders request).headers.contains .contentLength =
        (r.stream.elim true ResponseStream.known || r.headers.contains .contentLength) ∧
      (r.sendResponseHeaders request).headers.value .contentLength =
        match r.stream with
        | some stream =>
          if stream.known then toString stream.content.length else r.headers.value .contentLength
        | none =>
          if r.headers.contains .contentLength then r.headers.value .contentLength else "0" := by
  obtain ⟨-, stream, headers⟩ := r.tagged_eq
  obtain ⟨has, val⟩ := headers .contentLength (by decide)
  rw [sendResponseHeaders, matched, modified, if_neg Bool.false_ne_true]
  simp only [HttpHeaders.value_set, HttpHeaders.contains_set, if_neg (show contentLength ≠ .server by decide),
    decide_eq_false (show contentLength ≠ .server by decide), Bool.false_or]
  rw [(connectionHeaders_eq (by decide)).1, (connectionHeaders_eq (by decide)).2, lengthHeaders, stream]
  cases r.stream with
  | none =>
    simp only [has]
    split <;> simp_all
  | some s =>
    simp only [ResponseStream.available, elim_some]
    cases s.known <;> simp [has, val]

/-- No body where none may be; a coding or a length only where it is right; a stream without a size either chunked by
the server or closed with the connection. -/
def Framed (r : HttpResponse) (request : ServedRequest) : Prop :=
  if bodyless request.method r.code then request.method = .head ∨ ∀ stream ∈ r.stream, stream.content = []
  else
    match r.stream with
    | none =>
      saysChunked (r.headers.value .transferEncoding) = false ∧
        (r.headers.contains .contentLength = true →
          decimal (r.headers.value .contentLength) = some 0)
    | some stream =>
      if stream.known then saysChunked (r.headers.value .transferEncoding) = false
      else if saysChunked (r.headers.value .transferEncoding) then
        r.headers.contains .contentLength = false ∧
          r.headers.value .transferEncoding = "chunked" ∧ stream.content ≠ []
      else if r.headers.contains .contentLength then
        decimal (r.headers.value .contentLength) = some stream.content.length
      else r.wantsClose request = true

lemma selfDelimiting_of_bodyless (none : bodyless request.method r.code = true) :
    SelfDelimiting request.method (r.sendResponseHeaders request) ((r.sendResponseHeaders request).sentBody request) ↔
      request.method = .head ∨ ∀ stream ∈ r.stream, stream.content = [] := by
  obtain ⟨code, stream, coding, -⟩ := sendResponseHeaders_eq modified
  rw [SelfDelimiting, code, if_pos none, sentBody, stream, coding]
  split
  case isTrue head => exact ⟨fun _ => .inl head, fun _ => rfl⟩
  case isFalse body =>
    cases r.stream with
    | none => exact ⟨fun _ => .inr nofun, fun _ => rfl⟩
    | some s =>
      simp only [Body.mk.injEq]
      constructor
      · rintro ⟨-, empty⟩
        exact .inr fun t mem => by cases mem; exact empty
      · rintro (head | empty)
        · exact absurd head body
        · rw [empty s rfl]
          exact ⟨Bool.and_false _, rfl⟩

end

lemma saysChunked_chunked : saysChunked "chunked" = true := by decide +kernel

section
variable (modified : r.tagged.isUnmodified request = false) (some : bodyless request.method r.code = false)
include modified some

lemma selfDelimiting_of_stream {s : ResponseStream} (hs : r.stream = .some s) :
    SelfDelimiting request.method (r.sendResponseHeaders request)
        ((r.sendResponseHeaders request).sentBody request) ↔ r.Framed request := by
  obtain ⟨code, stream, coding, close⟩ := sendResponseHeaders_eq modified
  obtain ⟨has, length⟩ := sendResponseHeaders_contentLength modified
  have body : request.method ≠ .head := by
    intro head
    rw [bodyless, head] at some
    exact absurd some (by simp)
  rw [SelfDelimiting, Framed, code, some, has, length, coding, close, sentBody, stream, coding, hs, if_neg body]
  simp only [Bool.false_eq_true, if_false, elim_some]
  by_cases chunked : saysChunked (r.headers.value .transferEncoding) = true
  · rw [if_pos chunked, if_pos chunked]
    by_cases known : s.known = true
    · -- the stream counts its bytes although they are said to be chunked
      simp [known, chunked]
    · simp [known]
  · have plain : (r.headers.value .transferEncoding == "chunked") = false := by
      rw [beq_eq_false_iff_ne]
      intro e
      rw [e] at chunked
      exact chunked saysChunked_chunked
    rw [if_neg chunked, if_neg chunked, plain, Bool.false_and]
    by_cases known : s.known = true
    · have count : decimal s.content.length.repr = .some s.content.length := decimal_toString _
      simp [known, chunked, count]
    · simp [known]

lemma selfDelimiting_of_none (hs : r.stream = none) :
    SelfDelimiting request.method (r.sendResponseHeaders request)
        ((r.sendResponseHeaders request).sentBody request) ↔ r.Framed request := by
  obtain ⟨code, stream, coding, -⟩ := sendResponseHeaders_eq modified
  obtain ⟨has, length⟩ := sendResponseHeaders_contentLength modified
  have empty : (r.sendResponseHeaders request).sentBody request = {} := by
    rw [sentBody, stream, hs]
    simp
  rw [SelfDelimiting, Framed, code, some, has, length, coding, hs, empty]
  simp only [Bool.false_eq_true, if_false, elim_none, Bool.true_or]
  by_cases chunked : saysChunked (r.headers.value .transferEncoding) = true
  · simp [chunked]
  · by_cases given : r.headers.contains .contentLength = true
    · simp [chunked, given]
    · simp [chunked, given, show decimal "0" = Option.some 0 from decimal_toString 0]

end

/-- A response is self-delimiting if and only if it is answered with `304` because the client has the
resource, or the application kept to `Framed`. -/
theorem selfDelimiting_iff (r : HttpResponse) (request : ServedRequest) :
    SelfDelimiting request.method (r.sendResponseHeaders request) ((r.sendResponseHeaders request).sentBody request) ↔
      r.tagged.isUnmodified request = true ∨ r.Framed request := by
  cases unmodified : r.tagged.isUnmodified request with
  | true =>
    refine ⟨fun _ => .inl rfl, fun _ => ?_⟩
    rw [SelfDelimiting, sendResponseHeaders, matched, if_pos unmodified, sentBody]
    simp [bodyless]
  | false =>
    rw [or_iff_right Bool.false_ne_true]
    cases none : bodyless request.method r.code with
    | true => rw [selfDelimiting_of_bodyless unmodified none, Framed, if_pos none]
    | false =>
      cases hs : r.stream with
      | none => exact selfDelimiting_of_none unmodified none hs
      | some s => exact selfDelimiting_of_stream unmodified none hs

lemma sendTemplate_eq (r : HttpResponse) (template name) :
    (r.sendTemplate template name true).1.code = r.code ∧
      (r.sendTemplate template name true).1.stream = .some template := by
  simp only [sendTemplate, Bool.true_eq_false, if_false]
  split <;> split <;> exact ⟨rfl, rfl⟩

section
variable {template : ResponseStream} {name : String} (length : r.headers.contains .contentLength = false)
  (coding : r.headers.contains .transferEncoding = false) (body : bodyless request.method r.code = false)
include length coding body

lemma framed_sendTemplate :
    (r.sendTemplate template name true).1.Framed request ↔ template.known = true ∨ template.content ≠ [] := by
  have plain : saysChunked (r.headers.value .transferEncoding) = false := by
    rw [HttpHeaders.value, HashMap.value_of_not_contains coding]
    decide +kernel
  rw [sendTemplate, if_neg Bool.noConfusion]
  by_cases typed : r.headers.contains .contentType = false ∧ contentTypeOf name ≠ ""
  all_goals
    cases known : template.known <;>
      simp [Framed, setHeader, ResponseStream.available, body, typed, known, coding, plain, length,
        saysChunked_chunked]

/-- A template has an end: it knows its size or the builder chunks it, which fails for an empty one only. -/
theorem template_selfDelimiting_iff
    (modified : (r.sendTemplate template name true).1.tagged.isUnmodified request = false) :
    let sent := (r.sendTemplate template name true).1.sendResponseHeaders request
    SelfDelimiting request.method sent (sent.sentBody request) ↔ template.known = true ∨ template.content ≠ [] := by
  obtain ⟨code, stream⟩ := r.sendTemplate_eq template name
  rw [← framed_sendTemplate length coding body]
  exact selfDelimiting_of_stream modified (code ▸ body) stream

end

theorem template_selfDelimiting_iff_page :
    let sent := (sendTemplate {} ⟨"", .other, [104], false⟩ "" true).1.sendResponseHeaders {}
    SelfDelimiting .get sent (sent.sentBody {}) :=
  (@template_selfDelimiting_iff {} {} ⟨"", .other, [104], false⟩ "" rfl rfl rfl (by decide +kernel)).mpr
    (.inr (by decide))

/-- A stream of unknown size on a connection that is kept has no end. -/
theorem unsized_stream_undelimited :
    ¬ ∀ (r : HttpResponse) (request : ServedRequest),
      SelfDelimiting request.method (r.sendResponseHeaders request)
        ((r.sendResponseHeaders request).sentBody request) := by
  intro h
  have framed := h (sendDataStream {} { content := [104], known := false } (some "text/plain")) {}
  revert framed
  decide +kernel

end HttpResponse

end Sming.Network.Http
