import Mathlib.Logic.Relation
import Sming.Network.TcpClient

/-!
# The end of a connection

How a `TcpClient` (`Sming/SmingCore/Network/TcpClient.cpp` over `TcpConnection.cpp`), or an `HttpConnection`
(`Http/HttpConnection.cpp`) on top of it, comes to its end: `close` and `onError` put it into a final state and call
the `completed` delegate through `onFinished`. `bound` says that the callbacks of lwIP reach the object.

A callback of lwIP that receives data is cut into the events it consists of: the delegates that get the data, for an
`HttpConnection` also the end of each response, and at last the report that there is room to send. Every delegate may
call `close`; from the `completed` delegate it finds a final state and does nothing more. What a delegate sends is a
`send` event of its own before.
-/

namespace Sming.Network
open Sming.Data Sming.Lib Option TcpClient

inductive ClientKind where
  | tcpClient
  | httpConnection
  deriving Repr, DecidableEq

/-- `eTCS_Successful` and `eTCS_Failed`. -/
def TcpClientState.isFinal (s : TcpClientState) : Bool := s == .successful || s == .failed

/-- A call of the `completed` delegate: what it is told, whether `close` made it, and the bytes accepted by
`send` and acknowledged through `onSent` until then. -/
structure Completion where
  success : Bool
  byClose : Bool
  accepted : Nat
  acknowledged : Nat
  deriving Repr, DecidableEq

/-- What happens to the output of a client: a call of `send`, with the bytes that wait afterwards and, if it was accepted,
whether it asks for the close; lwIP is offered the output and takes some of it; the connection ends. -/
inductive OutputEvent where
  | sent (waiting : Nat) (forceCloseAfterSent : Option Bool)
  | taken (len : Nat)
  | finished
  deriving Repr, DecidableEq

/-- A client, and its history since the last `connect`: the calls of `completed`, the final state it first
came to, and the bytes. What happened to the output is kept for all connections. -/
structure TcpLifecycle where
  client : TcpClient := {}
  bound : Bool := false
  completed : List Completion := []
  ended : Option TcpClientState := none
  accepted : Nat := 0
  acknowledged : Nat := 0
  output : List OutputEvent := []
  deriving Repr, DecidableEq

namespace TcpLifecycle

/-- A client as it is constructed, by the application or for a connection that a server accepted. -/
def new (accepted : Bool) : TcpLifecycle :=
  if accepted then { client := { state := .connected }, bound := true } else {}

/-! ### The functions of the client -/

section

variable (l : TcpLifecycle)

def onFinished (byClose : Bool) : TcpLifecycle :=
  { l with
    client := l.client.onFinished
    completed := l.completed ++
      [⟨l.client.state == .successful, byClose, l.accepted, l.acknowledged⟩]
    ended := l.ended.or (some l.client.state)
    output := l.output ++ [.finished] }

/-- (C++ `TcpClient::close` with `TcpConnection::close`.) -/
def close : TcpLifecycle :=
  if l.client.state.isFinal then { l with bound := false }
  else
    let state := if l.client.asyncTotalSent = l.client.asyncTotalLen then .successful else .failed
    { onFinished { l with client := { l.client with state := state } } true with bound := false }

def delegate (closes : Bool) : TcpLifecycle := if closes then l.close else l

/-- (C++ `TcpClient::onError`), after `tcp` was set to null. -/
def onError : TcpLifecycle :=
  onFinished { l with client := { l.client with state := .failed }, bound := false } false

def send (data : List UInt8) (forceCloseAfterSent alloc : Bool) : Option TcpLifecycle :=
  (l.client.send data forceCloseAfterSent alloc).map fun (client, ok) =>
    { l with
      client := client
      accepted := l.accepted + if ok then data.length % 2 ^ 16 else 0
      output := l.output ++ if l.client.isProcessing then
        [.sent client.pending.length (if ok then some forceCloseAfterSent else none)] else [] }

/-- (C++ `TcpClient::pushAsyncPart`.) -/
def push (lwip : Lwip) : TcpLifecycle :=
  { l with
    client := (l.client.onReadyToSendData lwip).1
    output := l.output ++ [.taken (l.client.onReadyToSendData lwip).2.length] }

/-- (C++ `TcpClient::onReadyToSendData`); pushing a stream without a `tcp` has no defined outcome. -/
def onReadyToSendData (lwip : Lwip) (closes : Bool) : Option TcpLifecycle :=
  let l := l.delegate closes
  if l.bound || l.client.stream.isNone then some (l.push lwip) else none

/-- The check of `onReceive`, `onSent` and `onPoll` before they report room to send. -/
def reportRoom (lwip : Lwip) (closes : Bool) : Option TcpLifecycle :=
  let (available, lwip) := TcpConnection.getAvailableWriteSize (l.bound && l.client.canSend) lwip
  if 0 < available then l.onReadyToSendData lwip closes else some l

/-- (C++ `TcpClient::onConnected` with `TcpConnection::onConnected`.) -/
def onConnected (ok : Bool) (lwip : Lwip) (closes : Bool) : Option TcpLifecycle :=
  if ok then
    onReadyToSendData { l with client := { l.client with state := .connected, canSend := true } } lwip closes
  else some (close { l.onError with client := { l.onError.client with canSend := true } })

def onSent (len : UInt16) (lwip : Lwip) (closes : Bool) : Option TcpLifecycle :=
  let closing := l.client.stream.isNone && l.client.asyncCloseAfterSent
  let l := { l with
    client := { l.client with asyncTotalSent := l.client.asyncTotalSent + Int16.ofNat len.toNat }
    acknowledged := l.acknowledged + len.toNat }
  (l.reportRoom lwip closes).map fun l => l.delegate closing

def onPoll (timeOut : Bool) (lwip : Lwip) (closes : Bool) : Option TcpLifecycle :=
  if timeOut then some l.close else l.reportRoom lwip closes

/-- (C++ `TcpClient::connect` with `TcpConnection::connect`); a new `tcp` may send, unless the connection
has to wait for the answer about a name. -/
def connect (byName : Bool) : TcpLifecycle :=
  if l.client.isProcessing then l
  else
    { client := { l.client.connect with canSend := !byName && (!l.bound || l.client.canSend) }
      bound := true
      output := l.output }

/-- (C++ `HttpConnection::connect`); `active` says that lwIP still lists the `tcp` of the object. -/
def httpConnect (byName active : Bool) (lwip : Lwip) (closes : Bool) : Option TcpLifecycle :=
  if l.client.isProcessing then some l
  else if l.client.state ≠ .ready ∧ l.bound = true ∧ active = true then
    onConnected { l with completed := [], ended := none } true lwip closes
  else some (l.connect byName)

/-- The end of a response: the delegate of the request, and if no
other request is being executed, `onConnected` once more. -/
def onMessageComplete (closes idle : Bool) (lwip : Lwip) (readyCloses : Bool) : Option TcpLifecycle :=
  if idle then (l.delegate closes).onConnected true lwip readyCloses else some (l.delegate closes)

end

/-! ### Runs -/

inductive Event where
  | connect (byName active : Bool) (lwip : Lwip) (closes : Bool)
  | send (data : List UInt8) (forceCloseAfterSent alloc : Bool)
  | close
  | onConnected (ok : Bool) (lwip : Lwip) (closes : Bool)
  | delegate (closes : Bool)
  | sendRequestBody (body : Option MemoryDataStream)
  | onMessageComplete (closes idle : Bool) (lwip : Lwip) (readyCloses : Bool)
  | onReceived (lwip : Lwip) (closes : Bool)
  | onDisconnected
  | onSent (len : UInt16) (lwip : Lwip) (closes : Bool)
  | onPoll (timeOut : Bool) (lwip : Lwip) (closes : Bool)
  | onError
  deriving Repr, DecidableEq

/-- One event; `none` if it has no defined outcome or does not exist for this kind of object. Of the body
`HttpConnection::sendRequestBody` puts in place of the stream only the progress matters. -/
def step (kind : ClientKind) (l : TcpLifecycle) : Event → Option TcpLifecycle
  | .connect byName active lwip closes =>
    match kind with
    | .tcpClient => some (l.connect byName)
    | .httpConnection => l.httpConnect byName active lwip closes
  | .send data forceCloseAfterSent alloc => l.send data forceCloseAfterSent alloc
  | .close => some l.close
  | .onConnected ok lwip closes => if l.bound then l.onConnected ok lwip closes else some l
  | .delegate closes => some (l.delegate closes)
  | .sendRequestBody body =>
    match kind with
    | .tcpClient => none
    | .httpConnection => some { l with client := { l.client with stream := body } }
  | .onMessageComplete closes idle lwip readyCloses =>
    match kind with
    | .tcpClient => none
    | .httpConnection => l.onMessageComplete closes idle lwip readyCloses
  | .onReceived lwip closes => l.reportRoom lwip closes
  | .onDisconnected => some (if l.bound then l.close else l)
  | .onSent len lwip closes => if l.bound then l.onSent len lwip closes else some l
  | .onPoll timeOut lwip closes => if l.bound then l.onPoll timeOut lwip closes else some l
  | .onError => some (if l.bound then l.onError else l)

/-- No response of an `HttpConnection` ends the execution of all requests after the object was closed, by
its own delegate or before. -/
def Lively (kind : ClientKind) (l : TcpLifecycle) : Event → Prop
  | .onMessageComplete closes idle _ _ =>
    kind = .httpConnection → idle = true → closes = false ∧ l.client.state.isFinal = false
  | _ => True

/-! ### The moves a step consists of -/

/-- The moves of a client. lwIP makes some of them, which it can as long as the client is bound. -/
inductive Move (kind : ClientKind) : TcpLifecycle → TcpLifecycle → Prop where
  | prepare {l} (canSend) :
    Move kind l { l with client := { l.client with canSend := canSend } }
  | body {l} (stream) :
    kind = .httpConnection →
    Move kind l { l with client := { l.client with stream := stream } }
  | push {l} (lwip) :
    Move kind l (l.push lwip)
  | send {l data force alloc m} :
    l.send data force alloc = some m →
    Move kind l m
  | close {l} :
    Move kind l l.close
  | fail {l} :
    l.bound = true →
    Move kind l l.onError
  | acknowledge {l} (len : UInt16) :
    l.bound = true →
    Move kind l { l with
      client := { l.client with asyncTotalSent := l.client.asyncTotalSent + Int16.ofNat len.toNat }
      acknowledged := l.acknowledged + len.toNat }
  | connected {l} :
    l.bound = true ∨ l.client.state.isFinal = false →
    Move kind l { l with client := { l.client with state := .connected } }
  | reuse {l} :
    l.client.isProcessing = false →
    l.bound = true →
    Move kind l { l with completed := [], ended := none }
  | connect {l} (byName) :
    l.client.isProcessing = false →
    Move kind l (l.connect byName)

abbrev Moves (kind : ClientKind) := Relation.ReflTransGen (Move kind)

variable {kind : ClientKind}

lemma Moves.invariant {Inv : TcpLifecycle → Prop} {l m} (h : Moves kind l m) (init : Inv l)
    (keep : ∀ {l m}, Inv l → Move kind l m → Inv m) : Inv m := by
  induction h with
  | refl => exact init
  | tail _ move ih => exact keep ih move

lemma delegate_moves (l : TcpLifecycle) (closes : Bool) : Moves kind l (l.delegate closes) := by
  rw [delegate]
  split
  · exact .single .close
  · exact .refl

variable {l m : TcpLifecycle}

lemma push_eq (l : TcpLifecycle) (lwip : Lwip) :
    ∃ stream output, l.push lwip = { l with client := { l.client with stream := stream }, output := output } := by
  obtain ⟨stream, pushed⟩ := l.client.pushAsyncPart_eq lwip
  refine ⟨stream, (l.push lwip).output, ?_⟩
  rw [push, TcpClient.onReadyToSendData, pushed]

lemma onReadyToSendData_moves {lwip closes} (h : l.onReadyToSendData lwip closes = some m) : Moves kind l m := by
  rw [onReadyToSendData] at h
  apply (l.delegate_moves closes).trans
  generalize l.delegate closes = d at h
  split at h
  · cases h
    exact .single (.push lwip)
  · cases h

lemma reportRoom_moves {lwip closes} (h : l.reportRoom lwip closes = some m) : Moves kind l m := by
  rw [reportRoom] at h
  simp only at h
  split at h
  · exact onReadyToSendData_moves h
  · cases h
    exact .refl

lemma onConnected_moves {ok lwip closes} (live : l.bound = true ∨ ok = true ∧ l.client.state.isFinal = false)
    (h : l.onConnected ok lwip closes = some m) : Moves kind l m := by
  rw [onConnected] at h
  split at h
  · have up : Moves kind l { l with client := { l.client with state := .connected, canSend := true } } :=
      .tail (.single (.connected (live.imp_right And.right))) (.prepare true)
    exact up.trans (onReadyToSendData_moves h)
  case isFalse failed =>
    cases h
    have bound : l.bound = true := live.resolve_right fun h => failed h.1
    have down : Moves kind l { l.onError with client := { l.onError.client with canSend := true } } :=
      .tail (.single (.fail bound)) (.prepare true)
    exact down.tail .close

lemma onSent_moves {len lwip closes} (bound : l.bound = true)
    (h : l.onSent len lwip closes = some m) : Moves kind l m := by
  rw [onSent] at h
  simp only [map_eq_some_iff] at h
  obtain ⟨d, room, rfl⟩ := h
  exact ((Relation.ReflTransGen.single (.acknowledge len bound)).trans (reportRoom_moves room)).trans
    (d.delegate_moves _)

lemma onPoll_moves {timeOut lwip closes} (h : l.onPoll timeOut lwip closes = some m) : Moves kind l m := by
  rw [onPoll] at h
  split at h
  · cases h
    exact .single .close
  · exact reportRoom_moves h

lemma connect_moves (l : TcpLifecycle) (byName : Bool) : Moves kind l (l.connect byName) := by
  cases idle : l.client.isProcessing with
  | false => exact .single (.connect byName idle)
  | true =>
    rw [connect, if_pos idle]

lemma httpConnect_moves {byName active lwip closes}
    (h : l.httpConnect byName active lwip closes = some m) : Moves kind l m := by
  rw [httpConnect] at h
  split at h
  · cases h
    exact .refl
  case isFalse idle =>
    split at h
    case isTrue alive =>
      have again : Moves kind l { l with completed := [], ended := none } :=
        .single (.reuse (Bool.not_eq_true _ ▸ idle) alive.2.1)
      exact again.trans (onConnected_moves (.inl alive.2.1) h)
    case isFalse =>
      cases h
      exact l.connect_moves byName

lemma onMessageComplete_moves {closes idle lwip readyCloses}
    (live : idle = true → closes = false ∧ l.client.state.isFinal = false)
    (h : l.onMessageComplete closes idle lwip readyCloses = some m) : Moves kind l m := by
  rw [onMessageComplete] at h
  split at h
  case isTrue last =>
    obtain ⟨rfl, running⟩ := live last
    exact onConnected_moves (.inr ⟨rfl, running⟩) h
  case isFalse =>
    cases h
    exact l.delegate_moves closes

variable {e : Event} {state : TcpClientState}

lemma step_moves (live : l.Lively kind e) (h : l.step kind e = some m) : Moves kind l m := by
  -- what a step does when the client is bound, it does not do otherwise
  have guarded {f : Option TcpLifecycle} (h : (if l.bound = true then f else some l) = some m)
      (moves : l.bound = true → f = some m → Moves kind l m) : Moves kind l m := by
    split at h
    case isTrue bound => exact moves bound h
    case isFalse =>
      cases h
      exact .refl
  cases e with
  | connect byName active lwip closes =>
    cases kind with
    | tcpClient =>
      cases h
      exact l.connect_moves byName
    | httpConnection => exact httpConnect_moves h
  | send data force alloc =>
    exact .single (.send h)
  | close =>
    cases h
    exact .single .close
  | onConnected ok lwip closes =>
    exact guarded h fun bound h => onConnected_moves (.inl bound) h
  | delegate closes =>
    cases h
    exact l.delegate_moves closes
  | sendRequestBody body =>
    cases kind with
    | tcpClient => cases h
    | httpConnection =>
      cases h
      exact .single (.body body rfl)
  | onMessageComplete closes idle lwip readyCloses =>
    cases kind with
    | tcpClient => cases h
    | httpConnection => exact onMessageComplete_moves (live rfl) h
  | onReceived lwip closes => exact reportRoom_moves h
  | onDisconnected =>
    cases h
    split
    · exact .single .close
    · exact .refl
  | onSent len lwip closes =>
    exact guarded h fun bound h => onSent_moves bound h
  | onPoll timeOut lwip closes =>
    exact guarded h fun _ h => onPoll_moves h
  | onError =>
    cases h
    split
    case isTrue bound => exact .single (.fail bound)
    case isFalse => exact .refl

/-! ### One end for each connection -/

/-- Between two calls of `connect`, `completed` is called once at most, and the state is the final one first come to.
-/
def EndsOnce (l : TcpLifecycle) : Prop := l.completed.length ≤ 1 ∧ ∀ state ∈ l.ended, l.client.state = state

instance (l : TcpLifecycle) : Decidable l.EndsOnce :=
  inferInstanceAs (Decidable (l.completed.length ≤ 1 ∧ ∀ state ∈ l.ended, l.client.state = state))

/-- Only a client in use is bound, and exactly the clients in a final state have come to an end. -/
structure Once (l : TcpLifecycle) : Prop where
  bound : l.bound = true → l.client.isProcessing = true
  running : l.client.state.isFinal = false → l.completed = [] ∧ l.ended = none
  finished : l.client.state.isFinal = true → l.completed.length = 1 ∧ l.ended = some l.client.state

lemma isFinal_of_isProcessing {c : TcpClient} (h : c.isProcessing = true) : c.state.isFinal = false := by
  cases e : c.state <;> simp_all [isProcessing, TcpClientState.isFinal]

lemma Once.new (accepted : Bool) : (new accepted).Once := by
  cases accepted with
  | false => exact ⟨nofun, fun _ => ⟨rfl, rfl⟩, nofun⟩
  | true => exact ⟨fun _ => rfl, fun _ => ⟨rfl, rfl⟩, nofun⟩

lemma Once.isFinal_of_live (o : l.Once)
    (live : l.bound = true ∨ l.client.state.isFinal = false) : l.client.state.isFinal = false := by
  rcases live with bound | running
  · exact isFinal_of_isProcessing (o.bound bound)
  · exact running

lemma Once.endsOnce (o : l.Once) : l.EndsOnce := by
  rw [EndsOnce]
  cases final : l.client.state.isFinal with
  | false =>
    obtain ⟨none, same⟩ := o.running final
    rw [none, same]
    exact ⟨Nat.zero_le 1, nofun⟩
  | true =>
    obtain ⟨one, same⟩ := o.finished final
    rw [same]
    refine ⟨Nat.le_of_eq one, ?_⟩
    rintro _ ⟨⟩
    rfl

lemma Once.onFinished (o : l.Once) (running : l.client.state.isFinal = false)
    (final : state.isFinal = true) (byClose : Bool) :
    Once { onFinished { l with client := { l.client with state := state } } byClose with bound := false } := by
  obtain ⟨none, same⟩ := o.running running
  refine ⟨nofun, fun h => ?_, fun _ => ⟨?_, ?_⟩⟩
  · cases final.symm.trans h
  · show (l.completed ++ [_]).length = 1
    rw [none]
    rfl
  · show l.ended.or (some state) = some state
    rw [same]
    rfl

lemma Once.close (o : l.Once) : l.close.Once := by
  rw [TcpLifecycle.close]
  split
  · exact ⟨nofun, o.running, o.finished⟩
  case isFalse running =>
    refine o.onFinished (by simpa using running) ?_ true
    split <;> rfl

lemma Once.move (o : l.Once) (h : Move kind l m) : m.Once := by
  cases h with
  | prepare | body | acknowledge => exact ⟨o.bound, o.running, o.finished⟩
  | push lwip =>
    obtain ⟨stream, output, pushed⟩ := l.push_eq lwip
    rw [pushed]
    exact ⟨o.bound, o.running, o.finished⟩
  | send h =>
    obtain ⟨⟨client, ok⟩, sent, rfl⟩ := map_eq_some_iff.mp h
    obtain ⟨state, -⟩ := send_totals sent
    have proc : client.isProcessing = l.client.isProcessing := by
      rw [isProcessing, isProcessing, state]
    refine ⟨?_, ?_, ?_⟩
    · simpa only [proc] using o.bound
    · simpa only [state] using o.running
    · simpa only [state] using o.finished
  | close => exact o.close
  | fail bound => exact o.onFinished (isFinal_of_isProcessing (o.bound bound)) rfl false
  | connected live =>
    exact ⟨fun _ => rfl, fun _ => o.running (o.isFinal_of_live live), fun final => by cases final⟩
  | reuse idle bound => cases idle.symm.trans (o.bound bound)
  | connect byName idle =>
    rw [TcpLifecycle.connect, idle, TcpClient.connect, idle]
    exact ⟨fun _ => rfl, fun _ => ⟨rfl, rfl⟩, fun final => by cases final⟩

lemma Once.moves (o : l.Once) (h : Moves kind l m) : m.Once := h.invariant o fun o move => o.move move

lemma once_of_run {kind accepted es l} (r : Run (step kind) (Lively kind) (new accepted) es l) : l.Once :=
  r.invariant (Once.new accepted) fun o live st => o.moves (step_moves live st)

lemma Once.not_endsOnce (o : l.Once) (final : l.client.state.isFinal = true)
    {lwip closes} (h : l.onConnected true lwip closes = some m) : ¬ m.EndsOnce := by
  obtain ⟨one, same⟩ := o.finished final
  rw [onConnected, if_pos rfl, onReadyToSendData] at h
  split at h
  case isFalse => cases h
  cases h
  obtain ⟨stream, output, pushed⟩ := push_eq (delegate
    { l with client := { l.client with state := .connected, canSend := true } } closes) lwip
  rw [pushed]
  rintro ⟨few, state⟩
  cases closes with
  | false =>
    have connected : TcpClientState.connected = l.client.state := state _ same
    rw [← connected] at final
    cases final
  | true =>
    have two : (l.completed ++ [_]).length ≤ 1 := few
    rw [List.length_append, one] at two
    cases Nat.le_of_succ_le_succ two

lemma close_isFinal (l : TcpLifecycle) : l.close.client.state.isFinal = true := by
  rw [close]
  split
  case isTrue final => exact final
  case isFalse =>
    show (if l.client.asyncTotalSent = l.client.asyncTotalLen then TcpClientState.successful
      else .failed).isFinal = true
    split <;> rfl

lemma Once.endsOnce_step_iff {kind} (o : l.Once) (h : l.step kind e = some m) : m.EndsOnce ↔ l.Lively kind e := by
  refine ⟨fun once => ?_, fun live => (o.moves (step_moves live h)).endsOnce⟩
  cases e with
  | onMessageComplete closes idle lwip readyCloses =>
    rintro rfl rfl
    have late : (l.delegate closes).client.state.isFinal = false := by
      by_contra final
      exact (@Once.moves .httpConnection _ _ o (l.delegate_moves closes)).not_endsOnce (by simpa using final) h once
    cases closes with
    | false => exact ⟨rfl, late⟩
    | true => exact absurd (l.close_isFinal.symm.trans late) nofun
  | _ => trivial

/-- A client of any kind calls `completed` at most once between two calls of `connect` and keeps each final state
until the next, exactly if all steps are lively. -/
theorem completed_once_iff {kind accepted es l} (r : Run (step kind) Always (new accepted) es l) :
    (∀ es' l', es' <+: es → Run (step kind) Always (new accepted) es' l' → l'.EndsOnce) ↔
      Run (step kind) (Lively kind) (new accepted) es l := by
  apply r.forall_prefix_iff_guarded (Once.new accepted).endsOnce
  intro es t e u rg _ st
  exact (once_of_run rg).endsOnce_step_iff st

def answeredRequest (closes : Bool) : List Event :=
  [.connect true false (Session.Room 3) false, .send [71, 69, 84] false true,
    .onConnected true (Session.Room 3) false, .onSent 3 (Session.Room 3) false,
    .onMessageComplete closes true (Session.Room 3) false]

theorem completed_once_iff_answered :
    ∃ l, Run (step .httpConnection) Always (new false) (answeredRequest false ++ [.close]) l ∧
      l.completed = [⟨true, true, 3, 3⟩] ∧ ((∀ es' l', es' <+: answeredRequest false ++ [.close] →
          Run (step .httpConnection) Always (new false) es' l' → l'.EndsOnce) ↔
        Run (step .httpConnection) (Lively .httpConnection) (new false) (answeredRequest false ++ [.close]) l) :=
  exists_run (fun l => l.completed = [⟨true, true, 3, 3⟩]) (by decide +kernel)
    fun _ run completed => ⟨completed, completed_once_iff run⟩

/-- The delegate of the only request closes the connection; the end of the response connects it again, and the next
`close` calls `completed` a second time. -/
theorem closed_connection_completes_again :
    ¬ ∀ kind accepted es l, Run (step kind) Always (new accepted) es l → l.EndsOnce := by
  intro all
  exact not_forall_run (answeredRequest true ++ [.close]) (by decide +kernel) (all .httpConnection false)

lemma lively_tcpClient (l : TcpLifecycle) (e : Event) : l.Lively .tcpClient e := by
  cases e with
  | onMessageComplete =>
    intro kind
    cases kind
  | _ => trivial

lemma lively_run_tcpClient {accepted es l} (r : Run (step .tcpClient) Always (new accepted) es l) :
    Run (step .tcpClient) (Lively .tcpClient) (new accepted) es l := r.mono fun t e _ => t.lively_tcpClient e

/-! ### What `close` reports -/

lemma ofNat_eq_ofNat_iff {a b : Nat} : Int16.ofNat a = Int16.ofNat b ↔ a % 2 ^ 16 = b % 2 ^ 16 := by
  rw [← Int16.toBitVec_inj, Int16.toBitVec_ofNat', Int16.toBitVec_ofNat', ← BitVec.toNat_inj,
    BitVec.toNat_ofNat, BitVec.toNat_ofNat]

/-- The two totals of the client count the bytes modulo `2 ^ 16`, from one connection to its end, and so
`close` compares them. -/
structure Counted (l : TcpLifecycle) : Prop where
  ready : l.client.state = .ready → l.accepted = 0 ∧ l.acknowledged = 0
  running : l.client.state.isFinal = false →
    l.client.asyncTotalLen = Int16.ofNat l.accepted ∧
      l.client.asyncTotalSent = Int16.ofNat l.acknowledged
  finished : l.client.state.isFinal = true → l.client.asyncTotalLen = 0 ∧ l.client.asyncTotalSent = 0
  told : ∀ c ∈ l.completed, c.byClose = true →
    (c.success = true ↔ c.accepted % 2 ^ 16 = c.acknowledged % 2 ^ 16)

lemma Counted.new (accepted : Bool) : (new accepted).Counted := by
  cases accepted with
  | false => exact ⟨fun _ => ⟨rfl, rfl⟩, fun _ => ⟨rfl, rfl⟩, nofun, fun _ mem => by cases mem⟩
  | true => exact ⟨nofun, fun _ => ⟨rfl, rfl⟩, nofun, fun _ mem => by cases mem⟩

lemma Counted.onFinished (k : l.Counted) (final : state.isFinal = true) {byClose : Bool} (told : byClose = true →
      (state = .successful ↔ l.accepted % 2 ^ 16 = l.acknowledged % 2 ^ 16)) :
    Counted { onFinished { l with client := { l.client with state := state } } byClose with
      bound := false } := by
  refine ⟨fun h => ?_, fun h => ?_, fun _ => ⟨rfl, rfl⟩, fun c mem closed => ?_⟩
  · obtain rfl : state = .ready := h
    cases final
  · cases final.symm.trans h
  · rcases List.mem_append.mp mem with old | new
    · exact k.told c old closed
    · obtain rfl := List.mem_singleton.mp new
      show (state == .successful) = true ↔ _
      rw [beq_iff_eq]
      exact told closed

lemma Counted.close (k : l.Counted) : l.close.Counted := by
  rw [TcpLifecycle.close]
  split
  · exact ⟨k.ready, k.running, k.finished, k.told⟩
  case isFalse running =>
    obtain ⟨len, sent⟩ := k.running (by simpa using running)
    apply k.onFinished
    · split <;> rfl
    · intro _
      rw [← ofNat_eq_ofNat_iff, ← len, ← sent, eq_comm]
      split
      case isTrue same => exact ⟨fun _ => same.symm, fun _ => rfl⟩
      case isFalse other => exact ⟨nofun, fun same => absurd same.symm other⟩

lemma Counted.send (k : l.Counted) {data force alloc} (h : l.send data force alloc = some m) : m.Counted := by
  obtain ⟨⟨client, ok⟩, stored, rfl⟩ := map_eq_some_iff.mp h
  obtain ⟨state, sent, len, proc⟩ := send_totals stored
  refine ⟨fun ready => ?_, fun running => ?_, fun final => ?_, k.told⟩
  all_goals simp only [state] at *
  · cases ok with
    | false => exact k.ready ready
    | true =>
      have proc := proc rfl
      rw [isProcessing, ready] at proc
      cases proc
  · obtain ⟨len', sent'⟩ := k.running running
    rw [len, sent, len', sent', Int16.ofNat_add]
    exact ⟨rfl, rfl⟩
  · obtain ⟨len', sent'⟩ := k.finished final
    cases ok with
    | false =>
      rw [len, sent, len', sent']
      exact ⟨rfl, rfl⟩
    | true => cases final.symm.trans (isFinal_of_isProcessing (proc rfl))

lemma Counted.move (k : l.Counted) (o : l.Once) (h : Move kind l m) : m.Counted := by
  cases h with
  | prepare | body => exact ⟨k.ready, k.running, k.finished, k.told⟩
  | push lwip =>
    obtain ⟨stream, output, pushed⟩ := l.push_eq lwip
    rw [pushed]
    exact ⟨k.ready, k.running, k.finished, k.told⟩
  | send h => exact k.send h
  | close => exact k.close
  | fail bound => exact k.onFinished rfl fun byClose => by cases byClose
  | acknowledge len bound =>
    have proc := o.bound bound
    refine ⟨fun ready => ?_, fun running => ?_, fun final => ?_, k.told⟩
    · rw [isProcessing, ready] at proc
      cases proc
    · obtain ⟨total, sent⟩ := k.running running
      refine ⟨total, ?_⟩
      show l.client.asyncTotalSent + _ = _
      rw [sent, Int16.ofNat_add]
    · cases final.symm.trans (isFinal_of_isProcessing proc)
  | connected live =>
    refine ⟨?_, fun _ => k.running (o.isFinal_of_live live), ?_, k.told⟩
    · intro ready
      cases ready
    · intro final
      cases final
  | reuse idle bound => cases idle.symm.trans (o.bound bound)
  | connect byName idle =>
    -- the totals are zero, because nothing was connected yet or because the last connection has ended
    have zero : l.client.asyncTotalLen = 0 ∧ l.client.asyncTotalSent = 0 := by
      cases final : l.client.state.isFinal with
      | true => exact k.finished final
      | false =>
        have ready : l.client.state = .ready := by
          cases e : l.client.state <;> simp_all [isProcessing, TcpClientState.isFinal]
        obtain ⟨len, sent⟩ := k.running final
        obtain ⟨accepted, acknowledged⟩ := k.ready ready
        rw [len, sent, accepted, acknowledged]
        exact ⟨rfl, rfl⟩
    rw [TcpLifecycle.connect, idle, TcpClient.connect, idle]
    refine ⟨?_, fun _ => zero, ?_, ?_⟩
    · intro ready
      cases ready
    · intro final
      cases final
    · intro c mem
      cases mem

lemma Counted.moves (k : l.Counted) (o : l.Once) (h : Moves kind l m) : m.Once ∧ m.Counted := by
  apply @Moves.invariant kind (fun l => l.Once ∧ l.Counted) _ _ h ⟨o, k⟩
  intro l m inv move
  exact ⟨inv.1.move move, inv.2.move inv.1 move⟩

/-- What `completed` hears from `close` agrees with the bytes accepted and acknowledged exactly if they do not differ
by a multiple of `2 ^ 16` other than zero. -/
theorem close_success_iff {accepted es l} (r : Run (step .tcpClient) Always (new accepted) es l) :
    ∀ c ∈ l.completed, c.byClose = true → ((c.success = true ↔ c.accepted = c.acknowledged) ↔
        (c.accepted % 2 ^ 16 = c.acknowledged % 2 ^ 16 → c.accepted = c.acknowledged)) := by
  have init : (new accepted).Once ∧ (new accepted).Counted := ⟨.new accepted, .new accepted⟩
  have inv : l.Once ∧ l.Counted := by
    apply (lively_run_tcpClient r).invariant init
    intro t e u inv live st
    exact inv.2.moves inv.1 (step_moves live st)
  intro c mem closed
  rw [inv.2.told c mem closed]
  constructor
  · exact Iff.mp
  · exact fun exact => ⟨exact, congrArg (· % 2 ^ 16)⟩

theorem close_success_iff_acknowledged :
    ∃ l, Run (step .tcpClient) Always (new false)
        [.connect true false (Session.Room 3) false, .send [1, 2, 3] false true,
          .onConnected true (Session.Room 3) false, .onSent 2 (Session.Room 3) false, .close] l ∧
      l.completed = [⟨false, true, 3, 2⟩] ∧
      ∀ c ∈ l.completed, c.byClose = true → ((c.success = true ↔ c.accepted = c.acknowledged) ↔
          (c.accepted % 2 ^ 16 = c.acknowledged % 2 ^ 16 → c.accepted = c.acknowledged)) :=
  exists_run (fun l => l.completed = [⟨false, true, 3, 2⟩]) (by decide +kernel)
    fun _ run completed => ⟨completed, close_success_iff run⟩

lemma two_sends_run {data : List UInt8} (len : data.length = 32768) :
    ∃ l, Run (step .tcpClient) Always (new true) [.send data false true, .send data false true, .close] l ∧
      l.completed = [⟨true, true, 65536, 0⟩] := by
  have short : data.length < 2 ^ 16 := by rw [len]; decide
  let sent (n : Nat) (stream : MemoryDataStream) (output : List OutputEvent) : TcpLifecycle :=
    { client := { state := .connected, stream := some stream, asyncTotalLen := Int16.ofNat n }
      bound := true
      accepted := n
      output := output }
  obtain ⟨s₁, room, first⟩ := @send_accepted { state := .connected } data rfl short (Nat.le_refl _) false
  obtain ⟨s₂, -, second⟩ := @send_accepted (sent 32768 s₁ []).client data rfl short room false
  have total : (sent 32768 s₁ []).client.asyncTotalLen + Int16.ofNat 32768 = Int16.ofNat 65536 :=
    (Int16.ofNat_add 32768 32768).symm
  rw [len] at first second
  rw [total] at second
  have st₁ : step .tcpClient (new true) (.send data false true) =
      some (sent 32768 s₁ [.sent s₁.unread.length (some false)]) := by
    show (TcpClient.send { state := .connected } data false true).map _ = _
    rw [first, map_some, len]
    rfl
  have st₂ : step .tcpClient (sent 32768 s₁ [.sent s₁.unread.length (some false)]) (.send data false true) =
      some (sent 65536 s₂ [.sent s₁.unread.length (some false), .sent s₂.unread.length (some false)]) := by
    show (TcpClient.send (sent 32768 s₁ []).client data false true).map _ = _
    rw [second, map_some, len]
    show some { sent 65536 s₂ _ with accepted := 32768 + 32768 % 2 ^ 16 } = _
    rfl
  exact ⟨_, .cons trivial st₁ (.cons trivial st₂ (.cons trivial rfl .nil)), rfl⟩

/-- A connection whose 65536 accepted bytes all went without an acknowledgement ends as a success. -/
theorem unacknowledged_bytes_succeed :
    ¬ ∀ accepted es l, Run (step .tcpClient) Always (new accepted) es l →
      ∀ c ∈ l.completed, c.byClose = true → (c.success = true ↔ c.accepted = c.acknowledged) := by
  intro all
  have len : (List.replicate 32768 (0 : UInt8)).length = 32768 := List.length_replicate
  obtain ⟨l, r, completed⟩ := two_sends_run len
  have mem : ⟨true, true, 65536, 0⟩ ∈ l.completed := by
    rw [completed]
    exact List.mem_singleton_self _
  have told := all true _ l r _ mem rfl
  exact absurd (told.mp rfl) (by decide)

end TcpLifecycle

end Sming.Network
