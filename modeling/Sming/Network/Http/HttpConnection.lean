import Sming.Network.Http.HttpRequest
import Sming.Wiring.FIFO

/-!
# The HTTP client connection

Embedding of `Sming/SmingCore/Network/Http/HttpConnection.cpp`, with the parser callbacks of `HttpConnectionBase.cpp`
and the queueing of `HttpClient::send`. A request pointer is the place of the object in `requests`, which also keeps
deleted objects; `deleted` lists all `delete` calls. `misread` remembers that a request was read after it was deleted;
what the object held last is read then.

What the environment decides is part of the events: how much of the headers the memory can take, how much a body stream
has, how much lwIP takes, what the delegates answer. `stream` is the number of bytes that the stream of the `TcpClient`
still has to send.

The last six fields are history. Four are about the present TCP connection: the requests whose headers were written on
it, the number of complete final responses, the parts of final responses that arrived, and what the delegates of which
request were told. `starts` says of every started request which others were waiting for a response then.
-/

namespace Sming.Network.Http
open Sming.Wiring Sming.Lib List

/-- (C++ `HttpRequest*`.) -/
abbrev RequestId := Nat

def httpRequestPoolSize : Nat := 20

abbrev RequestQueue := ObjectQueue RequestId httpRequestPoolSize

def RequestQueue.new : RequestQueue := ObjectQueue.new (by decide) (by decide) 0

inductive HttpConnectionState where
  | ready
  | startSending
  | sendingHeaders
  | startBody
  | sendingBody
  | sent
  deriving Repr, DecidableEq

/-- What the parser expects: a message, the end of its headers, or the end of the message with the given status. A
callback that answers with an error stops it for good. -/
inductive ParserPhase where
  | idle
  | headers
  | body (code : Nat)
  | stopped
  deriving Repr, DecidableEq

/-- The informational responses that come before the final one. -/
def isInterim (code : Nat) : Bool := 100 ≤ code && code < 200

inductive Part where
  | headers
  | body
  | completed
  deriving Repr, DecidableEq

structure Delivery where
  part : Part
  response : Nat
  request : RequestId
  deriving Repr, DecidableEq

structure HttpConnection where
  requests : List HttpRequest := []
  deleted : List RequestId := []
  waitingQueue : RequestQueue := .new
  executionQueue : RequestQueue := .new
  incomingRequest : Option RequestId := none
  outgoingRequest : Option RequestId := none
  state : HttpConnectionState := .ready
  stream : Option Nat := none
  parser : ParserPhase := .idle
  connected : Bool := false
  sent : List RequestId := []
  finals : Nat := 0
  received : List (Part × Nat) := []
  deliveries : List Delivery := []
  starts : List (RequestId × List RequestId) := []
  misread : Bool := false

/-- What the environment decides in one pass through the `switch`: how many bytes of the headers are
stored, the boundary of a multipart body, and how many bytes the body stream has. -/
structure Pass where
  stored : Nat := 0
  boundary : String := ""
  body : Nat := 0
  deriving Repr, DecidableEq

/-- What the environment decides in `onReadyToSendData`; `taken` bytes go to lwIP at the end. -/
structure Sending where
  passes : List Pass := []
  taken : Nat := 0
  deriving Repr, DecidableEq

namespace HttpConnection

def request (c : HttpConnection) (id : RequestId) : HttpRequest := c.requests.getD id {}

def update (c : HttpConnection) (id : RequestId) (f : HttpRequest → HttpRequest) : HttpConnection :=
  { c with requests := c.requests.modify id f }

/-- The pointers are followed. -/
def read (c : HttpConnection) (ids : List RequestId) : HttpConnection :=
  { c with misread := c.misread || ids.any (· ∈ c.deleted) }

end HttpConnection

/-- Requests that may be pipelined. -/
def HttpRequest.pipelinable (r : HttpRequest) : Bool := r.method == .get || r.method == .head

namespace HttpConnection

/-! ### Sending -/

variable (c : HttpConnection)

def canStart (id : RequestId) : Bool :=
  c.executionQueue.count == 0 ||
    ((c.request id).pipelinable && c.outgoingRequest.all fun out => (c.request out).pipelinable)

/-- The requests whose methods `canStart` looks at. -/
def compared (id : RequestId) : List RequestId :=
  if c.executionQueue.count == 0 then []
  else if (c.request id).pipelinable then id :: c.outgoingRequest.toList
  else [id]

/-- Move a request to the execution queue and write its headers. -/
def startRequest (id : RequestId) (p : Pass) : HttpConnection :=
  { (c.read [id]).update id (HttpRequest.sendRequestHeaders · p.boundary) with
    waitingQueue := c.waitingQueue.dequeue.2
    executionQueue := (c.executionQueue.enqueue id).1
    outgoingRequest := some id
    stream := some p.stored
    state := .sendingHeaders
    sent := c.sent ++ [id]
    starts := c.starts ++ [(id, c.executionQueue.toList)] }

def sendRequestBody (p : Pass) : HttpConnection × Bool :=
  match c.outgoingRequest with
  | none => (c, true)
  | some out =>
    if c.state = .startBody then
      if (c.request out).bodyStream = none then ({ c.read [out] with state := .sendingBody }, true)
      else
        ({ (c.read [out]).update out HttpRequest.startBody with
            state := .sendingBody
            stream := some p.body }, false)
    else
      match c.stream with
      | none => (c, true)
      | some n => (c.read [out], !((c.request out).bodyStream.isNone && n != 0))

/-- The cases `eHCS_StartBody` and `eHCS_SendingBody`; the answer says whether to start over. -/
def passBody (p : Pass) : HttpConnection × Bool :=
  let (c, done) := c.sendRequestBody p
  if done then ({ c with state := .ready, stream := none }, true) else (c, false)

def passHeaders (p : Pass) : HttpConnection × Bool :=
  if c.stream.any (· != 0) then (c, false) else passBody { c with state := .startBody } p

def pass (p : Pass) : HttpConnection × Bool :=
  match c.state with
  | .ready =>
    match c.waitingQueue.peek with
    | none => ({ c with outgoingRequest := none }, false)
    | some id =>
      if c.canStart id && (c.executionQueue.enqueue id).2 then
        ((c.read (c.compared id)).startRequest id p).passHeaders p
      else (c.read (c.compared id), false)
  | .sendingHeaders => c.passHeaders p
  | .startBody | .sendingBody => c.passBody p
  | .startSending | .sent => (c, false)

/-- The passes up to the one that does not `goto REENTER`; `none` if the fuel does not last. -/
def sendLoop : Nat → List Pass → HttpConnection → Option HttpConnection
  | 0, _, _ => none
  | fuel + 1, passes, c =>
    match c.pass (passes.headD {}) with
    | (c, false) => some c
    | (c, true) => sendLoop fuel passes.tail c

/-- The push at the end (C++ `TcpClient::pushAsyncPart`). -/
def push (taken : Nat) : HttpConnection :=
  match c.stream with
  | none => c
  | some n => { c with stream := if n ≤ taken then none else some (n - taken) }

/-- (C++ `HttpConnection::onReadyToSendData`); a pass that starts over has taken a request from the
waiting queue, but for the first one. -/
def onReadyToSendData (env : Sending) : HttpConnection :=
  ((sendLoop (c.waitingQueue.count + 2) env.passes c).getD c).push env.taken

/-! ### Receiving -/

def reset : HttpConnection :=
  { c with deleted := c.deleted ++ c.incomingRequest.toList, incomingRequest := none }

/-- (C++ `staticOnMessageBegin`, `HttpConnection::onMessageBegin`.) -/
def onMessageBegin : HttpConnection :=
  let c := c.reset
  { c with
    incomingRequest := c.executionQueue.dequeue.1
    executionQueue := c.executionQueue.dequeue.2
    parser := if c.executionQueue.dequeue.1 = none then .stopped else .headers }

def deliver (part : Part) (code : Nat) : HttpConnection :=
  { c with
    received := if isInterim code then c.received else c.received ++ [(part, c.finals)]
    deliveries :=
      if isInterim code then c.deliveries
      else c.deliveries ++ c.incomingRequest.toList.map fun id => ⟨part, c.finals, id⟩ }

/-- (C++ `HttpConnection::onHeadersComplete`); without a request the parser is told to skip the
body. -/
def onHeadersComplete (code : Nat) (refused : Bool) (wwwAuthenticate : Option String) : HttpConnection :=
  match c.incomingRequest with
  | none => { c.deliver .headers code with parser := .body code }
  | some id =>
    { ((c.read [id]).update id (HttpRequest.setResponse · code wwwAuthenticate)).deliver .headers code with
      parser := if refused then .stopped else .body code }

def onBody (code : Nat) (refused : Bool) : HttpConnection :=
  { (c.read c.incomingRequest.toList).deliver .body code with
    parser := if refused || c.incomingRequest.isNone then .stopped else .body code }

def complete (code : Nat) : HttpConnection :=
  { c.deliver .completed code with
    finals := if isInterim code then c.finals else c.finals + 1 }

/-- A request that is to be repeated goes to the end of the execution queue. `incomingRequest` still
points to it, so the `reset` that follows deletes it. -/
def retry (id : RequestId) : HttpConnection :=
  let c := c.update id fun r => { r with retries := r.retries - 1 }
  reset { c with
    executionQueue := (c.executionQueue.enqueue id).1
    parser := if (c.executionQueue.enqueue id).2 then .idle else .stopped }

def finish (id : RequestId) (hasError : Bool) (env : Sending) : HttpConnection :=
  let c := { c with
    deleted := c.deleted ++ [id]
    incomingRequest := none
    parser := if hasError then .stopped else .idle }
  if c.executionQueue.count = 0 then reset (c.onReadyToSendData env) else reset c

/-- (C++ `staticOnMessageComplete`, `HttpConnection::onMessageComplete`.) -/
def onMessageComplete (code : Nat) (hasError : Bool) (env : Sending) : HttpConnection :=
  let c := c.complete code
  match c.incomingRequest with
  | none => { c with parser := .stopped }
  | some id =>
    let c := c.read [id]
    if (c.request id).retries > 0 then c.retry id else c.finish id hasError env

/-- A part of a final response that comes when a callback has stopped the parser. -/
def ignore (part : Part) : HttpConnection :=
  { c with
    received := c.received ++ [(part, c.finals)]
    finals := if part = .completed then c.finals + 1 else c.finals }

/-! ### Losing the connection -/

/-- The loop of `cleanup`; the bound is read again in every round. -/
def requeue : Nat → Nat → RequestQueue → RequestQueue → RequestQueue × RequestQueue
  | 0, _, waiting, execution => (waiting, execution)
  | rounds + 1, i, waiting, execution =>
    if i < execution.count then
      match execution.dequeue with
      | (some id, execution) => requeue rounds (i + 1) (waiting.enqueue id).1 execution
      | (none, execution) => requeue rounds (i + 1) waiting execution
    else (waiting, execution)

/-- (C++ `HttpConnection::cleanup`); every round takes an element, so there are no more rounds than
elements. -/
def cleanup : HttpConnection :=
  let c := c.reset
  let queues := requeue c.executionQueue.count 0 c.waitingQueue c.executionQueue
  { c with waitingQueue := queues.1, executionQueue := queues.2 }

lemma take_take_append {α : Type} (n : Nat) (l m : List α) : (l.take n ++ m).take n = (l ++ m).take n := by
  rw [take_append, take_append, take_take, Nat.min_self, length_take]
  congr 2
  omega

lemma requeue_toList {rounds i : Nat} {waiting execution : RequestQueue} (fuel : execution.toList.length ≤ rounds) :
    (requeue rounds i waiting execution).1.toList =
        (waiting.toList ++ execution.toList.take ((execution.toList.length - i + 1) / 2)).take
          httpRequestPoolSize ∧ (requeue rounds i waiting execution).2.toList =
        execution.toList.drop ((execution.toList.length - i + 1) / 2) := by
  induction rounds generalizing i waiting execution with
  | zero =>
    have nil := eq_nil_of_length_eq_zero (Nat.le_zero.mp fuel)
    simp [requeue, nil, take_of_length_le waiting.length_le]
  | succ rounds ih =>
    rw [requeue, ObjectQueue.count_eq]
    split
    case isFalse stop =>
      have half : (execution.toList.length - i + 1) / 2 = 0 := by omega
      simp [half, take_of_length_le waiting.length_le]
    case isTrue more =>
      -- the request goes to the end of the waiting queue, if that has room
      have head := execution.dequeue_fst
      have tail := execution.dequeue_toList
      generalize execution.dequeue = answer at head tail
      obtain ⟨first, rest⟩ := answer
      cases he : execution.toList with
      | nil =>
        rw [he] at more
        exact absurd more (Nat.not_lt_zero _)
      | cons id ids =>
        rw [he] at head tail more fuel
        simp only [head?_cons, tail_cons] at head tail
        subst head
        have shorter : rest.toList.length ≤ rounds := by
          rw [tail]
          exact Nat.le_of_succ_le_succ fuel
        obtain ⟨w, x⟩ := @ih (i + 1) (waiting.enqueue id).1 rest shorter
        have half : ((id :: ids).length - i + 1) / 2 = (ids.length - (i + 1) + 1) / 2 + 1 := by
          rw [length_cons] at more ⊢
          omega
        simp only
        rw [w, x, tail, half, ObjectQueue.enqueue_toList_take, take_take_append, List.append_assoc]
        exact ⟨rfl, rfl⟩

lemma cleanup_toList :
    c.cleanup.waitingQueue.toList = (c.waitingQueue.toList ++
        c.executionQueue.toList.take ((c.executionQueue.toList.length + 1) / 2)).take
          httpRequestPoolSize ∧
      c.cleanup.executionQueue.toList =
        c.executionQueue.toList.drop ((c.executionQueue.toList.length + 1) / 2) := by
  rw [cleanup]
  exact requeue_toList (Nat.le_of_eq (ObjectQueue.count_eq _).symm)

lemma concat_eq_cons_iff {α : Type} {a : α} {l : List α} : l ++ [a] = a :: l ↔ ∀ b ∈ l, b = a := by
  induction l with
  | nil => simp
  | cons b l ih =>
    rw [cons_append, List.cons.injEq, forall_mem_cons]
    constructor
    · rintro ⟨rfl, e⟩
      exact ⟨rfl, ih.mp e⟩
    · rintro ⟨rfl, h⟩
      exact ⟨rfl, ih.mpr h⟩

/-- With room in the waiting queue, `cleanup` puts the executing requests in front of it only if there is none, or one
and no other waits. -/
theorem cleanup_restores_iff {c : HttpConnection}
    (room : c.waitingQueue.toList.length + c.executionQueue.toList.length ≤ httpRequestPoolSize) :
    (c.cleanup.waitingQueue.toList = c.executionQueue.toList ++ c.waitingQueue.toList ∧
        c.cleanup.executionQueue.toList = []) ↔
      c.executionQueue.toList = [] ∨
        ∃ id, c.executionQueue.toList = [id] ∧ ∀ other ∈ c.waitingQueue.toList, other = id := by
  obtain ⟨w, x⟩ := c.cleanup_toList
  rw [w, x]
  generalize c.executionQueue.toList = execution at room
  generalize c.waitingQueue.toList = waiting at room
  cases execution with
  | nil =>
    refine iff_of_true ⟨?_, rfl⟩ (.inl rfl)
    rw [take_nil, append_nil]
    exact take_of_length_le room
  | cons id rest =>
    cases rest with
    | nil =>
      have all : (waiting ++ [id]).take httpRequestPoolSize = waiting ++ [id] := by
        apply take_of_length_le
        rw [List.length_append]
        exact room
      have half : ([id].length + 1) / 2 = 1 := by simp
      rw [half, take_succ_cons, take_zero, all, singleton_append, concat_eq_cons_iff]
      simp
    | cons id' rest =>
      -- the second of two or more requests stays behind
      refine iff_of_false ?_ ?_
      · rintro ⟨-, left⟩
        have := congrArg List.length left
        rw [length_drop] at this
        simp only [length_cons, length_nil] at this
        omega
      · rintro (none | ⟨_, one, -⟩)
        · cases none
        · cases one

def executing (ids : List RequestId) : HttpConnection where
  executionQueue := ids.foldl (fun q id => (q.enqueue id).1) .new

theorem cleanup_restores_iff_single :
    (executing [0]).cleanup.waitingQueue.toList =
        (executing [0]).executionQueue.toList ++ (executing [0]).waitingQueue.toList ∧
      (executing [0]).cleanup.executionQueue.toList = [] :=
  (cleanup_restores_iff (by decide)).mpr (.inr ⟨0, by decide, by decide⟩)

/-- Of two executing requests the second one stays in the execution queue. -/
theorem cleanup_leaves_second :
    ¬ ∀ c : HttpConnection,
      c.waitingQueue.toList.length + c.executionQueue.toList.length ≤ httpRequestPoolSize →
      c.cleanup.waitingQueue.toList = c.executionQueue.toList ++ c.waitingQueue.toList ∧
        c.cleanup.executionQueue.toList = [] := by
  intro h
  obtain ⟨-, left⟩ := h (executing [0, 1]) (by decide)
  exact absurd left (by decide)

/-- (C++ `HttpConnectionBase::onError`, `TcpClient::onError`.) -/
def onError : HttpConnection :=
  { c.cleanup with stream := none, connected := false }

def close : HttpConnection :=
  { c with stream := none, connected := false }

/-- The destructor, and a new connection on the same waiting queue (C++ `HttpClient::send`). -/
def renew : HttpConnection :=
  { c.cleanup with
    executionQueue := .new
    outgoingRequest := none
    state := .ready
    stream := none
    parser := .idle
    connected := false }

def send (request : HttpRequest) : HttpConnection :=
  let id := c.requests.length
  let c := { c with requests := c.requests ++ [request] }
  if (c.waitingQueue.enqueue id).2 then { c with waitingQueue := (c.waitingQueue.enqueue id).1 }
  else { c with deleted := c.deleted ++ [id] }

def onConnected (env : Sending) : HttpConnection :=
  onReadyToSendData
    { c with connected := true, sent := [], finals := 0, received := [], deliveries := [] } env

inductive Event where
  | send (request : HttpRequest)
  | connected (env : Sending)
  | ready (env : Sending)
  | messageBegin
  | headersComplete (code : Nat) (refused : Bool) (wwwAuthenticate : Option String := none)
  | body (refused : Bool)
  | messageComplete (hasError : Bool) (env : Sending)
  | unread (part : Part)
  | error
  | close
  | renew

def step : Event → Option HttpConnection
  | .send request => some (c.send request)
  | .connected env => if c.connected then none else some (c.onConnected env)
  | .ready env => if c.connected then some (c.onReadyToSendData env) else none
  | .messageBegin =>
    if c.connected then
      match c.parser with
      | .idle => some c.onMessageBegin
      | _ => none
    else none
  | .headersComplete code refused wwwAuthenticate =>
    if c.connected then
      match c.parser with
      | .headers => some (c.onHeadersComplete code refused wwwAuthenticate)
      | _ => none
    else none
  | .body refused =>
    if c.connected then
      match c.parser with
      | .body code => some (c.onBody code refused)
      | _ => none
    else none
  | .messageComplete hasError env =>
    if c.connected then
      match c.parser with
      | .body code => some (c.onMessageComplete code hasError env)
      | _ => none
    else none
  | .unread part =>
    if c.connected then
      match c.parser with
      | .stopped => some (c.ignore part)
      | _ => none
    else none
  | .error => some c.onError
  | .close => some c.close
  | .renew => some c.renew

end HttpConnection

end Sming.Network.Http
