import Sming.Network.TcpConnection
import Sming.Network.Http.HttpConnection
import Sming.Network.Http.HttpResponse

/-!
# Sending the responses

Embedding of the sending side of `Sming/SmingCore/Network/Http/HttpServerConnection.cpp`: the state machine of
`onReadyToSendData`, and the parser callbacks that reset and start it. A connection has one `response` and one
`stream`, so a request that begins while a response is on its way takes them over.

A segment of the input is a series of parser callbacks, each of which may be followed by events of the send buffer.
Memory does not run out. What the `ChunkedStream` over a body delivers is given with the event that sends the response.

`emitted` are the bytes handed to `tcp_write`, `responses` the complete responses in the order of their requests, and
`building` is what the resource has built for the request being received.
-/

namespace Sming.Network.Http
open Sming.Data Sming.Lib List Option

/-! ### Streams -/

/-- What the `stream` of the server may be: a `MemoryDataStream` with its cursor, a `FileStream`, or
another source; of these two what they have left. -/
inductive OutStream where
  | memory (content : List UInt8) (pos : Nat)
  | file (rest : List UInt8)
  | source (rest : List UInt8)
  deriving Repr, DecidableEq

namespace OutStream

def rest : OutStream → List UInt8
  | memory content pos => content.drop pos
  | file rest | source rest => rest

def isFinished (s : OutStream) : Bool := s.rest.isEmpty

/-- A store rewinds a memory stream; it moves the cursor of a file behind its end, whether the file can
be written or not; the others refuse it. -/
def write : OutStream → List UInt8 → OutStream
  | memory content _, data => memory (content ++ data) 0
  | file _, _ => file []
  | source rest, _ => source rest

def seek : OutStream → Nat → OutStream
  | memory content pos, n => memory content (pos + n)
  | file rest, n => file (rest.drop n)
  | source rest, n => source (rest.drop n)

lemma rest_seek (s : OutStream) (n : Nat) : (s.seek n).rest = s.rest.drop n := by
  cases s with
  | memory content pos => exact drop_drop.symm
  | file rest | source rest => rfl

end OutStream

instance : IDataSourceStream OutStream where
  readMemoryBlock s n := (IDataSourceStream.counted (s.rest.take n), s)
  seek s len := if len < 0 then (s, false) else (s.seek len.toNat, true)
  isFinished s := s.isFinished

lemma OutStream.lawful : IDataSourceStream.Lawful OutStream (fun _ => True) OutStream.rest where
  read _ n := ⟨(IDataSourceStream.counted_isPrefix _).trans (List.take_prefix n _), trivial, rfl⟩
  seek {s} _ n k _ := by
    refine ⟨trivial, ?_⟩
    show (if (k : Int) < 0 then (s, false) else (s.seek (k : Int).toNat, true)).1.rest = s.rest.drop k
    rw [if_neg (Int.not_lt.mpr (Int.natCast_nonneg k))]
    exact s.rest_seek k
  finished _ := List.isEmpty_iff

/-! ### The connection -/

/-- The fields of `HttpServerConnection` that its sending side uses, and what went in and out. -/
structure HttpServerOutput where
  state : HttpConnectionState := .ready
  stream : Option OutStream := none
  response : HttpResponse := {}
  request : ServedRequest := {}
  encoding : List UInt8 := []
  emitted : List UInt8 := []
  responses : List (List UInt8) := []
  building : Option HttpResponse := none

namespace HttpServerOutput

variable (c : HttpServerOutput)

/-- Store a text for sending; the length is taken as a `uint16_t`. -/
def sendString (text : String) : HttpServerOutput :=
  let data := bytes text
  { c with
    stream := some ((c.stream.getD (.memory [] 0)).write (data.take (data.length % 2 ^ 16))) }

def sendResponseHeaders : HttpServerOutput :=
  let response := c.response.sendResponseHeaders c.request
  response.headerBlock.foldl sendString { c with response }

def bodyStream (response : HttpResponse) (stream : ResponseStream) (encoding : List UInt8) : OutStream :=
  if response.headers.value .transferEncoding = "chunked" then .source encoding
  else
    match stream.streamType with
    | .memory => .memory stream.content 0
    | .file => .file stream.content
    | .other => .source stream.content

def sendResponseBody : HttpServerOutput × Bool :=
  if c.state = .startBody then
    let c := { c with state := .sendingBody }
    if c.request.method = .head then ({ c with response := { c.response with stream := none } }, true)
    else
      match c.response.stream with
      | none => (c, true)
      | some stream =>
        ({ c with
          stream := some (bodyStream c.response stream c.encoding)
          response := { c.response with stream := none } }, false)
  else
    match c.stream with
    | none => (c, true)
    | some stream => (c, !(c.response.stream.isNone && !stream.isFinished))

/-- (C++ `eHCS_Sent`), with `HttpResponse::reset`. -/
def sent : HttpServerOutput :=
  { c with state := .ready, response := { code := 0 } }

/-- (C++ `eHCS_StartBody` and `eHCS_SendingBody`.) -/
def passBody : HttpServerOutput :=
  if c.sendResponseBody.2 then sent { c.sendResponseBody.1 with stream := none } else c.sendResponseBody.1

/-- (C++ `eHCS_SendingHeaders`.) -/
def passHeaders : HttpServerOutput :=
  if c.stream.any fun stream => !stream.isFinished then c else passBody { c with state := .startBody }

/-- Push the stream and free it once it is finished. -/
def pushAsyncPart (lwip : Lwip) : HttpServerOutput :=
  match c.stream with
  | none => c
  | some stream =>
    let (handed, stream, _) := TcpConnection.writeStream true stream lwip
    { c with
      emitted := c.emitted ++ handed
      stream := if stream.isFinished then none else some stream }

def pass : HttpServerOutput :=
  match c.state with
  | .startSending => passHeaders { c.sendResponseHeaders with state := .sendingHeaders }
  | .sendingHeaders => c.passHeaders
  | .startBody | .sendingBody => c.passBody
  | .sent => c.sent
  | .ready => c

def onReadyToSendData (lwip : Lwip) : HttpServerOutput := c.pass.pushAsyncPart lwip

def send (lwip : Lwip) : HttpServerOutput :=
  onReadyToSendData { c with state := .startSending } lwip

/-- The page for a request that the parser refuses (C++ `HttpServerConnection::sendError`). -/
def errorPage (message : String) (response : HttpResponse) : HttpResponse :=
  let html := "<H2 color='#444'>" ++ message ++ "</H2>"
  let response := { response with code := 400 }.setHeader .contentType "text/html"
  let response := (response.setHeader .contentLength (toString html.length)).setHeader .connection "close"
  response.sendString html

/-! ### Runs -/

def bodyBytes (response : HttpResponse) (request : ServedRequest) (encoding : List UInt8) : List UInt8 :=
  if request.method = .head then []
  else response.stream.elim [] fun stream => (bodyStream response stream encoding).rest

def headerBytes (response : HttpResponse) : List UInt8 := (response.headerBlock.map bytes).flatten

/-- The complete response: status line, headers and whole body. -/
def complete (response : HttpResponse) (request : ServedRequest) (encoding : List UInt8) : List UInt8 :=
  headerBytes (response.sendResponseHeaders request) ++
    bodyBytes (response.sendResponseHeaders request) request encoding

inductive Event where
  | messageBegin (method : HttpMethod)
  | headersComplete (headers : HttpHeaders)
  | resource (edit : HttpResponse → HttpResponse)
  | messageComplete (edit : HttpResponse → HttpResponse) (encoding : List UInt8) (lwip : Lwip)
  | httpError (message : String) (encoding : List UInt8) (lwip : Lwip)
  | ready (lwip : Lwip)

/-- The response is handed to `send`; `built` is what the resource has built. -/
def answer (edit : HttpResponse → HttpResponse) (built : HttpResponse)
    (encoding : List UInt8) (lwip : Lwip) : HttpServerOutput :=
  send { c with
    response := edit c.response
    encoding := encoding
    responses := c.responses ++ [complete (edit built) c.request encoding]
    building := none } lwip

def step : Event → Option HttpServerOutput
  | .messageBegin method =>
    match c.building with
    | some _ => none
    | none =>
      some { c with response := {}, request := { c.request with method }, building := some {} }
  | .headersComplete headers =>
    -- the request object is reused: fields of earlier requests stay unless they are received again
    c.building.map fun _ =>
      { c with request := { c.request with headers := c.request.headers.setMultiple headers } }
  | .resource edit =>
    c.building.map fun built => { c with response := edit c.response, building := some (edit built) }
  | .messageComplete edit encoding lwip =>
    c.building.map fun built => c.answer edit built encoding lwip
  | .httpError message encoding lwip =>
    some (c.answer (errorPage message) (c.building.getD {}) encoding lwip)
  | .ready lwip => some (c.onReadyToSendData lwip)

/-- The bytes that are still to come of the responses that were handed to `send`. While a request is
being received, `response` belongs to it. -/
def outstanding : List UInt8 :=
  c.stream.elim [] OutStream.rest ++
    if c.state = .sendingHeaders ∧ c.building = none then bodyBytes c.response c.request c.encoding
    else []

/-- No text of the header block is longer than a `uint16_t` can count. -/
def ShortTexts (response : HttpResponse) (request : ServedRequest) : Prop :=
  ∀ text ∈ (response.sendResponseHeaders request).headerBlock, (bytes text).length < 2 ^ 16

instance (response : HttpResponse) (request : ServedRequest) : Decidable (ShortTexts response request) :=
  decidableBAll _ _

/-- A request begins when nothing is left of the responses before it, and while it is being received
the send buffer is not reported ready for them. -/
def Orderly : Event → Prop
  | .messageBegin _ => c.outstanding = []
  | .headersComplete _ => True
  | .resource _ => True
  | .messageComplete edit _ _ => ShortTexts (edit c.response) c.request
  | .httpError message _ _ =>
    (c.building = none → c.state = .ready) ∧ ShortTexts (errorPage message c.response) c.request
  | .ready _ => c.building ≠ none → c.state = .ready

instance (c : HttpServerOutput) : (e : Event) → Decidable (c.Orderly e)
  | .messageBegin _ => inferInstanceAs (Decidable (c.outstanding = []))
  | .headersComplete _ => .isTrue trivial
  | .resource _ => .isTrue trivial
  | .messageComplete edit _ _ => inferInstanceAs (Decidable (ShortTexts (edit c.response) c.request))
  | .httpError message _ _ =>
    inferInstanceAs (Decidable ((c.building = none → c.state = .ready) ∧
      ShortTexts (errorPage message c.response) c.request))
  | .ready _ => inferInstanceAs (Decidable (c.building ≠ none → c.state = .ready))

lemma pushAsyncPart_spec (lwip : Lwip) :
    ∃ handed stream, c.pushAsyncPart lwip = { c with emitted := c.emitted ++ handed, stream := stream } ∧
      handed ++ stream.elim [] OutStream.rest = c.stream.elim [] OutStream.rest ∧
      ∀ s ∈ stream, s.rest ≠ [] := by
  rw [pushAsyncPart]
  cases hs : c.stream with
  | none =>
    refine ⟨[], none, ?_, rfl, nofun⟩
    show c = { c with emitted := c.emitted ++ [], stream := none }
    rw [append_nil, ← hs]
  | some stream =>
    obtain ⟨-, left⟩ := @TcpConnection.writeStream_spec _ _ _ _ OutStream.lawful true stream trivial lwip
    simp only
    generalize TcpConnection.writeStream true stream lwip = r at left ⊢
    obtain ⟨handed, stream', lwip'⟩ := r
    refine ⟨handed, _, rfl, ?_, ?_⟩
    · simp only [elim_some, left]
      split
      case isTrue fin => rw [List.isEmpty_iff.mp fin]; rfl
      case isFalse => rfl
    · intro s mem
      split at mem
      · cases mem
      case isFalse more =>
        cases mem
        exact fun empty => more (List.isEmpty_iff.mpr empty)

variable {c : HttpServerOutput}

lemma foldl_sendString {texts : List String} {content : List UInt8}
    (hs : c.stream = some (.memory content 0)) (short : ∀ text ∈ texts, (bytes text).length < 2 ^ 16) :
    texts.foldl sendString c = { c with stream := some (.memory (content ++ (texts.map bytes).flatten) 0) } := by
  induction texts generalizing c content with
  | nil => rw [map_nil, flatten_nil, append_nil, ← hs]; rfl
  | cons text texts ih =>
    have one : c.sendString text = { c with stream := some (.memory (content ++ bytes text) 0) } := by
      rw [sendString, hs]
      simp only [Nat.mod_eq_of_lt (short text mem_cons_self), take_length]
      rfl
    rw [foldl_cons, one, ih rfl fun t mem => short t (mem_cons_of_mem _ mem)]
    rw [map_cons, flatten_cons, List.append_assoc]

lemma send_eq (none : c.stream = none) (short : ShortTexts c.response c.request) (lwip : Lwip) :
    c.send lwip = pushAsyncPart { c with
      state := .sendingHeaders
      response := c.response.sendResponseHeaders c.request
      stream := some (.memory (headerBytes (c.response.sendResponseHeaders c.request)) 0) } lwip := by
  have block : sendResponseHeaders { c with state := .startSending } = { c with
      state := .startSending
      response := c.response.sendResponseHeaders c.request
      stream := some (.memory (headerBytes (c.response.sendResponseHeaders c.request)) 0) } := by
    rw [sendResponseHeaders, headerBytes]
    rw [ShortTexts] at short
    generalize c.response.sendResponseHeaders c.request = sent at short ⊢
    -- the status line makes the stream, the other texts find it
    have first := short _ mem_cons_self
    rw [HttpResponse.headerBlock, cons_append, foldl_cons, foldl_sendString]
    · rfl
    · rw [sendString, none]
      simp only [Nat.mod_eq_of_lt first, take_length]
      rfl
    · exact fun text mem => short text (mem_cons_of_mem _ mem)
  have unsent : (headerBytes (c.response.sendResponseHeaders c.request)).isEmpty = false := by
    rw [headerBytes, HttpResponse.headerBlock]
    simp [bytes]
  rw [send, onReadyToSendData, pass]
  simp only
  rw [block, passHeaders]
  simp only [any_some, OutStream.isFinished, OutStream.rest, drop_zero, unsent]
  rfl

/-- What is emitted and what is outstanding make up the responses; the other fields say where the
outstanding bytes are. -/
structure Balanced (c : HttpServerOutput) : Prop where
  law : c.emitted ++ c.outstanding = c.responses.flatten
  phase : c.state = .ready ∨ c.state = .sendingHeaders ∨ c.state = .sendingBody
  idle : c.state = .ready → c.stream = none
  fresh : ∀ built ∈ c.building, c.stream = none ∧ c.response = built
  moved : c.building = none → c.state = .sendingBody → c.response.stream = none
  clear : c.building = none → c.state = .ready → c.response.headers = {} ∧ c.response.stream = none

structure Conserves (c : HttpServerOutput) : Prop extends Balanced c where
  live : ∀ s ∈ c.stream, s.rest ≠ []

lemma stream_eq_none {stream : Option OutStream} (live : ∀ s ∈ stream, s.rest ≠ [])
    (empty : stream.elim [] OutStream.rest = []) : stream = none := by
  cases stream with
  | none => rfl
  | some s => exact absurd empty (live s rfl)

lemma Balanced.push (b : c.Balanced) (lwip : Lwip) : (c.pushAsyncPart lwip).Conserves := by
  obtain ⟨handed, stream, e, left, live⟩ := c.pushAsyncPart_spec lwip
  have none : c.stream = none → stream = none := by
    intro h
    rw [h, elim_none, append_eq_nil_iff] at left
    exact stream_eq_none live left.2
  rw [e]
  refine ⟨⟨?_, b.phase, fun h => none (b.idle h), ?_, b.moved, b.clear⟩, live⟩
  · have law := b.law
    rw [outstanding, ← left, List.append_assoc, ← List.append_assoc] at law
    exact law
  · intro built mem
    exact ⟨none (b.fresh built mem).1, (b.fresh built mem).2⟩

lemma Balanced.emitted_eq (b : c.Balanced)
    (h : c.building ≠ none ∨ c.state = .ready) : c.stream = none ∧ c.emitted = c.responses.flatten := by
  have empty : c.stream = none ∧ c.outstanding = [] := by
    rcases h with building | ready
    · obtain ⟨built, e⟩ := ne_none_iff_exists'.mp building
      have none := (b.fresh built e).1
      refine ⟨none, ?_⟩
      rw [outstanding, none, e]
      simp
    · have none := b.idle ready
      refine ⟨none, ?_⟩
      rw [outstanding, none, ready]
      simp
  have law := b.law
  rw [empty.2, append_nil] at law
  exact ⟨empty.1, law⟩

lemma Balanced.answer {edit : HttpResponse → HttpResponse} {built : HttpResponse}
    (b : c.Balanced) (h : c.building ≠ none ∨ c.state = .ready) (same : edit c.response = edit built)
    (short : ShortTexts (edit c.response) c.request) (encoding : List UInt8) (lwip : Lwip) :
    (c.answer edit built encoding lwip).Conserves := by
  obtain ⟨none, law⟩ := b.emitted_eq h
  rw [HttpServerOutput.answer, @send_eq { c with
    response := edit c.response
    encoding := encoding
    responses := c.responses ++ [complete (edit built) c.request encoding]
    building := Option.none } none short]
  apply Balanced.push
  refine ⟨?_, .inr (.inl rfl), nofun, nofun, nofun, nofun⟩
  rw [outstanding, same]
  simp [law, complete, OutStream.rest]

lemma balanced_sent (h : c.building = none)
    (law : c.emitted = c.responses.flatten) : (sent { c with stream := none }).Balanced := by
  refine ⟨?_, .inl rfl, fun _ => rfl, ?_, nofun, fun _ _ => ⟨rfl, rfl⟩⟩
  · simp [outstanding, sent, law]
  · intro built mem
    cases h.symm.trans mem

lemma Conserves.not_finished (h : c.Conserves) {stream : OutStream}
    (hs : c.stream = some stream) : stream.isFinished = false := by
  rw [OutStream.isFinished]
  exact List.isEmpty_eq_false_iff.mpr (h.live stream hs)

lemma Conserves.passHeaders (h : c.Conserves) (building : c.building = none)
    (state : c.state = .sendingHeaders) : c.passHeaders.Balanced := by
  rw [HttpServerOutput.passHeaders]
  cases hs : c.stream with
  | some stream =>
    rw [if_pos (by rw [any_some, h.not_finished hs]; rfl)]
    exact h.toBalanced
  | none =>
    have law := h.law
    rw [outstanding, hs, if_pos ⟨state, building⟩, elim_none, nil_append, bodyBytes] at law
    rw [if_neg (by simp), passBody, sendResponseBody, if_pos rfl]
    by_cases head : c.request.method = .head
    · rw [if_pos head, append_nil] at law
      rw [if_pos head, if_pos rfl]
      exact @balanced_sent { c with state := _, response := _, stream := _ } building law
    · rw [if_neg head] at law
      rw [if_neg head]
      cases body : c.response.stream with
      | none =>
        rw [body, elim_none, append_nil] at law
        exact @balanced_sent { c with state := _, stream := _ } building law
      | some stream =>
        rw [body, elim_some] at law
        refine ⟨?_, .inr (.inr rfl), nofun, ?_, fun _ _ => rfl, nofun⟩
        · simp [outstanding, law]
        · intro built mem
          cases building.symm.trans mem

lemma Conserves.passBody (h : c.Conserves) (building : c.building = none)
    (state : c.state = .sendingBody) : c.passBody.Balanced := by
  have started : c.state ≠ .startBody := by rw [state]; nofun
  have out : ¬(c.state = .sendingHeaders ∧ c.building = none) := by rw [state]; nofun
  rw [HttpServerOutput.passBody]
  cases hs : c.stream with
  | none =>
    have done : c.sendResponseBody = (c, true) := by rw [sendResponseBody, if_neg started, hs]
    have law := h.law
    rw [outstanding, hs, if_neg out, elim_none, append_nil, append_nil] at law
    rw [done]
    exact balanced_sent building law
  | some stream =>
    have more : c.sendResponseBody = (c, false) := by
      rw [sendResponseBody, if_neg started, hs]
      simp only [h.moved building state, h.not_finished hs]
      rfl
    rw [more]
    exact h.toBalanced

lemma Conserves.pass (h : c.Conserves) (quiet : c.building ≠ none → c.state = .ready) : c.pass.Balanced := by
  have building : c.state ≠ .ready → c.building = none := fun busy => by_contra fun b => busy (quiet b)
  rw [HttpServerOutput.pass]
  rcases h.phase with state | state | state
  · rw [state]
    exact h.toBalanced
  · have none := building (by rw [state]; nofun)
    rw [state]
    exact h.passHeaders none state
  · have none := building (by rw [state]; nofun)
    rw [state]
    exact h.passBody none state

lemma Conserves.step {c' : HttpServerOutput} {e : Event} (h : c.Conserves) (orderly : c.Orderly e)
    (next : c.step e = some c') : c'.Conserves := by
  cases e with
  | messageBegin method =>
    rw [HttpServerOutput.step] at next
    cases building : c.building with
    | some _ => rw [building] at next; cases next
    | none =>
      rw [building] at next
      cases next
      have empty : c.outstanding = [] := orderly
      have law := h.law
      rw [empty, append_nil] at law
      have none := stream_eq_none h.live (append_eq_nil_iff.mp empty).1
      refine ⟨⟨?_, h.phase, h.idle, ?_, fun e => (by cases e), fun e => (by cases e)⟩, h.live⟩
      · simp [outstanding, none, law]
      · intro built mem
        cases mem
        exact ⟨none, rfl⟩
  | headersComplete headers =>
    obtain ⟨built, building, rfl⟩ := map_eq_some_iff.mp next
    refine ⟨⟨?_, h.phase, h.idle, h.fresh, h.moved, h.clear⟩, h.live⟩
    have law := h.law
    rw [outstanding, building] at law
    simpa [outstanding, building] using law
  | resource edit =>
    obtain ⟨built, building, rfl⟩ := map_eq_some_iff.mp next
    obtain ⟨none, same⟩ := h.fresh built building
    have law := (h.emitted_eq (.inl (by rw [building]; exact some_ne_none _))).2
    refine ⟨⟨?_, h.phase, h.idle, ?_, fun e => (by cases e), fun e => (by cases e)⟩, h.live⟩
    · simp [outstanding, none, law]
    · intro built' mem
      cases mem
      exact ⟨none, congrArg edit same⟩
  | messageComplete edit encoding lwip =>
    obtain ⟨built, building, rfl⟩ := map_eq_some_iff.mp next
    have same := congrArg edit (h.fresh built building).2
    exact h.answer (.inl (by rw [building]; exact some_ne_none _)) same orderly encoding lwip
  | httpError message encoding lwip =>
    cases next
    obtain ⟨idle, short⟩ := orderly
    cases building : c.building with
    | some built =>
      have same := congrArg (errorPage message) (h.fresh built building).2
      exact h.answer (.inl (by rw [building]; exact some_ne_none _)) same short encoding lwip
    | none =>
      -- the error page sets the code, and the rest of the response is empty
      obtain ⟨headers, stream⟩ := h.clear building (idle building)
      refine h.answer (.inr (idle building)) ?_ short encoding lwip
      rw [errorPage, errorPage, headers, stream]
      rfl
  | ready lwip =>
    cases next
    exact (h.pass orderly).push lwip

/-- The bytes on the wire are those of the complete responses, one response behind the other, and a
connection that has nothing more to send has sent them all. -/
def InOrder (c : HttpServerOutput) : Prop :=
  c.emitted <+: c.responses.flatten ∧ (c.state = .ready → c.emitted = c.responses.flatten)

instance (c : HttpServerOutput) : Decidable c.InOrder := inferInstanceAs (Decidable (_ ∧ (_ → _)))

lemma conserves_init : ({} : HttpServerOutput).Conserves :=
  ⟨⟨rfl, .inl rfl, fun _ => rfl, nofun, nofun, fun _ _ => ⟨rfl, rfl⟩⟩, nofun⟩

/-- When requests begin after the responses before them are out, the responses follow one another, and what is not on
the wire is still held. -/
theorem inOrder_of_orderly {es : List Event} {c : HttpServerOutput}
    (run : Run step Orderly {} es c) : c.InOrder ∧ c.emitted ++ c.outstanding = c.responses.flatten := by
  have h : c.Conserves := run.invariant conserves_init fun h ok next => h.step ok next
  refine ⟨⟨⟨c.outstanding, h.law⟩, ?_⟩, h.law⟩
  intro ready
  exact (h.emitted_eq (.inr ready)).2

def roomy : Lwip := { sndbuf := [1460, 1460, 1460, 1460, 1460, 1460], sndqueuelen := [0] }

/-- The callbacks for a request that is answered with a text. -/
def exchange (text : String) : List Event :=
  [.messageBegin .get, .headersComplete {}, .messageComplete (HttpResponse.sendString · text) [] roomy]

theorem inOrder_of_orderly_two : ∃ c, Run step Orderly {}
    (exchange "first" ++ [.ready roomy, .ready roomy] ++ exchange "second" ++ [.ready roomy, .ready roomy]) c ∧
      c.responses.length = 2 ∧ c.state = .ready ∧
      c.InOrder ∧ c.emitted ++ c.outstanding = c.responses.flatten :=
  exists_run (fun c => c.responses.length = 2 ∧ c.state = .ready) (by decide +kernel)
    fun _ run done => ⟨done.1, done.2, inOrder_of_orderly run⟩

/-- Two requests in one segment: the second deletes the body of the first response. -/
theorem pipelined_body_dropped : ¬ ∀ es c, Run step Always {} es c → c.InOrder :=
  not_forall_run (exchange "first" ++ exchange "second") (by decide +kernel)

end HttpServerOutput

end Sming.Network.Http
