import Sming.Network.Http.HttpCommon
import Sming.Network.Http.HttpHeaders
import Sming.Network.URL
import Sming.System.StringUtil

/-!
# Sending a request

Embedding of what `sendRequestHeaders`, `sendRequestBody` and `multipartProducer` of
`Sming/SmingCore/Network/Http/HttpConnection.cpp` do to an `HttpRequest`, with the streams that carry
its body. All of them change the request: `sendRequestHeaders` enters header fields and installs a
body stream, the start of the body moves that stream away and, by looking for `Transfer-Encoding`
through the index operator, enters an empty field of that name, and each part of a multipart body is
removed from the form. The answer of the authentication adapter to a response is that of `HttpRequestAuth.cpp`.
-/

namespace Sming.Network.Http
open Sming.System Sming.Wiring

/-! ### Bodies -/

def bytes (s : String) : List UInt8 := s.toList.map fun c => UInt8.ofNat c.toNat

/-- A stream of the application; `known` says whether `available()` tells the size. -/
structure SourceStream where
  name : String := ""
  content : List UInt8
  known : Bool
  deriving Repr, DecidableEq

def mustEscape (c : Char) : Bool :=
  c ∈ ['\r', '\n', '+', '~', '!', '#', '$', '%', '^', '&', '(', ')', '\x7b', '\x7d', '[', ']', '=', ':',
    ',', ';', '?', '\'', '"', '\\']

def uriEscape (s : String) : String :=
  String.ofList (s.toList.flatMap fun c =>
    if mustEscape c then ['%', hexchar (c.toUInt8 >>> 4), hexchar (c.toUInt8 &&& 0x0f)]
    else if c = ' ' then ['+']
    else [c])

def urlencode (params : HashMap String String) : String :=
  "&".intercalate (params.entries.map fun (name, value) => uriEscape name ++ "=" ++ uriEscape value)

/-- (C++ `ContentType::fromFullFileName`); the empty text where the source answers a null string. -/
def contentTypeOf (fileName : String) : String :=
  match (fileName.toList.reverse.takeWhile (· != '.')).reverse, fileName.toList.contains '.' with
  | _, false => ""
  | extension, true =>
    let extension := String.ofList extension
    if extension.toLower = "htm" then "text/html"
    else
      match extension with
      | "html" => "text/html"
      | "txt" => "text/plain"
      | "js" => "text/javascript"
      | "css" => "text/css"
      | "xml" => "text/xml"
      | "json" => "application/json"
      | "jpg" => "image/jpeg"
      | "git" => "image/gif"
      | "png" => "image/png"
      | "svg" => "image/svg+xml"
      | "ico" => "image/x-icon"
      | "gzip" => "application/x-gzip"
      | "zip" => "application/zip"
      | "" => "application/octet-stream"
      | _ => ""

structure HttpPartResult where
  headers : HttpHeaders
  stream : SourceStream

/-- The bytes of a part (C++ `MultipartStream::onNextStream`). -/
def HttpPartResult.content (part : HttpPartResult) (boundary : String) : List UInt8 :=
  let headers :=
    if part.headers.contains .contentLength = false ∧ part.stream.known = true then
      part.headers.set .contentLength (toString part.stream.content.length)
    else part.headers
  bytes ("\r\n--" ++ boundary ++ "\r\n" ++ String.join headers.lines ++ "\r\n") ++ part.stream.content

def filePart (name : String) (file : SourceStream) : HttpPartResult where
  headers :=
    (({} : HttpHeaders).set .contentDisposition
      ("form-data; name=\"" ++ name ++ "\"; filename=\"" ++ file.name ++ "\"")).set .contentType
      (contentTypeOf file.name)
  stream := file

def paramPart (name value : String) : HttpPartResult where
  headers := ({} : HttpHeaders).set .contentDisposition ("form-data; name=\"" ++ name ++ "\"")
  stream := { content := bytes value, known := true }

inductive BodyStream where
  | source (s : SourceStream)
  | urlencoded (params : HashMap String String)
  | multipart (boundary : String)
  deriving DecidableEq

/-- The adapters of the library (C++ `AuthAdapter`). -/
inductive AuthAdapter where
  | basic
  | digest (username : String)
  deriving Repr, DecidableEq

structure HttpRequest where
  uri : URL := {}
  method : HttpMethod := .get
  headers : HttpHeaders := {}
  postParams : HashMap String String := {}
  retries : Int := 0
  bodyStream : Option BodyStream := none
  files : HashMap String SourceStream := {}
  auth : Option AuthAdapter := none
  deriving DecidableEq

namespace HttpRequest

def parts (r : HttpRequest) : List HttpPartResult :=
  (r.files.entries.map fun (name, file) => filePart name file) ++
    r.postParams.entries.map fun (name, value) => paramPart name value

/-- Make a part and remove it from the form, files first. -/
def multipartProducer (r : HttpRequest) : Option HttpPartResult × HttpRequest :=
  match r.files.entries with
  | (name, file) :: _ => (some (filePart name file), { r with files := r.files.remove name })
  | [] =>
    match r.postParams.entries with
    | (name, value) :: _ =>
      (some (paramPart name value), { r with postParams := r.postParams.remove name })
    | [] => (none, r)

/-- A copy (C++ `HttpRequest::clone`); the form, the streams, `retries` and the adapter are not copied. -/
def clone (r : HttpRequest) : HttpRequest := { uri := r.uri, method := r.method, headers := r.headers }

/-- The answer to a response (C++ `AuthAdapter::setResponse`), given the value of its field `WWW-Authenticate` if it has
one. -/
def setResponse (r : HttpRequest) (code : Nat) (wwwAuthenticate : Option String) : HttpRequest :=
  match r.auth with
  | some (.digest username) =>
    if code = 401 ∧ (wwwAuthenticate.bind (WString.indexOfText · "Digest")).isSome then
      { r with
        headers := r.headers.set .authorization ("Digest username=\"" ++ username ++ "\"")
        retries := 1 }
    else r
  | some .basic | none => r

def produce : Nat → HttpRequest → HttpRequest
  | 0, r => r
  | n + 1, r => produce n r.multipartProducer.2

end HttpRequest

/-- The bytes of a multipart stream (C++ `MultipartStream`). -/
def multipartContent (boundary : String) (parts : List HttpPartResult) : List UInt8 :=
  parts.flatMap (HttpPartResult.content · boundary) ++ bytes ("\r\n--" ++ boundary ++ "--\r\n")

namespace BodyStream

def content (r : HttpRequest) : BodyStream → List UInt8
  | source s => s.content
  | urlencoded params => bytes (urlencode params)
  | multipart boundary => multipartContent boundary r.parts

/-- (C++ `available()`), `none` for -1. -/
def available : BodyStream → Option Nat
  | source s => if s.known then some s.content.length else none
  | urlencoded params => some (bytes (urlencode params)).length
  | multipart _ => none

lemma length_content {r : HttpRequest} {stream : BodyStream} {n : Nat}
    (h : stream.available = some n) : (stream.content r).length = n := by
  cases stream with
  | source s =>
    rw [available] at h
    split at h
    · exact Option.some.inj h
    · cases h
  | urlencoded params => exact Option.some.inj h
  | multipart boundary => cases h

end BodyStream

/-! ### One transmission -/

structure Body where
  chunked : Bool := false
  content : List UInt8 := []
  deriving Repr, DecidableEq

namespace HttpRequest

variable (r : HttpRequest)

def requestLine : String := r.method.str ++ " " ++ r.uri.getPathWithQuery ++ " HTTP/1.1\r\n"

/-- The content type and the stream of a form, if the request has one. -/
def form (boundary : String) : Option (String × BodyStream) :=
  if 0 < r.files.count then some ("multipart/form-data; boundary=" ++ boundary, .multipart boundary)
  else if 0 < r.postParams.count then some ("application/x-www-form-urlencoded", .urlencoded r.postParams)
  else none

def sentStream (boundary : String) : Option BodyStream :=
  match r.form boundary with
  | some (_, stream) => some stream
  | none => r.bodyStream

/-- The value of `Content-Length` for a body; `none` if its size is not known. -/
def lengthField : Option BodyStream → Option String
  | none => some "0"
  | some stream => stream.available.map toString

def hostHeaders : HttpHeaders :=
  if r.headers.contains .host then r.headers else r.headers.set .host r.uri.host

def typeHeaders (h : HttpHeaders) : Option (String × BodyStream) → HttpHeaders
  | some (type, _) => h.set .contentType type
  | none => h

/-- Say where the body ends, for headers that have a `Content-Length` of 0. -/
def frameHeaders (h : HttpHeaders) (stream : Option BodyStream) : HttpHeaders :=
  let h :=
    match stream with
    | none => h
    | some stream =>
      match stream.available with
      | some n => h.set .contentLength (toString n)
      | none => h.remove .contentLength
  if h.contains .contentLength then h else h.set .transferEncoding "chunked"

def sentHeaders (boundary : String) : HttpHeaders :=
  frameHeaders (typeHeaders (r.hostHeaders.set .contentLength "0") (r.form boundary))
    (r.sentStream boundary)

def sendRequestHeaders (boundary : String) : HttpRequest :=
  { r with headers := r.sentHeaders boundary, bodyStream := r.sentStream boundary }

/-- The start of the body (C++ `HttpConnection::sendRequestBody` in the state `eHCS_StartBody`). -/
def startBody : HttpRequest :=
  match r.bodyStream with
  | none => r
  | some _ => { r with headers := r.headers.touch .transferEncoding, bodyStream := none }

def sentBody : Body :=
  match r.bodyStream with
  | none => {}
  | some stream =>
    { chunked := r.headers.fields.value .transferEncoding "" == "chunked"
      content := stream.content r }

end HttpRequest

structure Transmission where
  requestLine : String
  headers : HttpHeaders
  body : Body

def Transmission.Equiv (t t' : Transmission) : Prop :=
  t.requestLine = t'.requestLine ∧ t.headers.Equiv t'.headers ∧ t.body = t'.body

namespace HttpRequest

def transmit (r : HttpRequest) (boundary : String) : Transmission where
  requestLine := r.requestLine
  headers := r.sentHeaders boundary
  body := (r.sendRequestHeaders boundary).sentBody

end HttpRequest

end Sming.Network.Http
