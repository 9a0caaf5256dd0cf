import Sming.Lib.Loop
import Sming.Wiring.FIFO
import Sming.Network.TcpClient
import Sming.Network.MqttMessage
import Sming.Network.Http.HttpRequest

/-!
# The MQTT client

Embedding of the sending side of `Sming/SmingCore/Network/MqttClient.cpp`. The calls of the application put messages,
CONNECT included, into one bounded queue; `onReadyToSendData` takes them out, one at a time, and makes each the stream
of the TCP client.

Memory does not run out, except that a string may not be copied where the argument says so. lwIP calls back as long as
the connection is in use; the `ready` event stands for its polls, acknowledgements and received segments, which reach
`onReadyToSendData` only with `canSend`.

`MqttSession` adds the packets begun and the bytes written on the present TCP connection and on the ones before, the
CONNECT message of the call that opened the present one, and the accepted calls.
-/

namespace Sming.Network
open Sming.Data Sming.Wiring Sming.Lib List Option

inductive MqttClientState where
  | ready
  | sendingData
  deriving Repr, DecidableEq

def mqttRequestPoolSize : Nat := 10

abbrev MqttRequestQueue := ObjectQueue MqttMessage mqttRequestPoolSize

def MqttRequestQueue.new : MqttRequestQueue :=
  ObjectQueue.new (by decide) (by decide) { type := .pingreq, body := .pingreq }

structure MqttClient where
  tcp : TcpClient := {}
  state : MqttClientState := .ready
  requestQueue : MqttRequestQueue := .new
  connectMessage : ConnectMessage := {}
  keepAlive : UInt16 := 60
  pingRepeatTime : UInt32 := 20
  lastMessage : UInt32 := 0
  sequence : UInt32 := 0

/-- Copy the strings of a CONNECT message; `copied` of them get memory. The answer says whether all
did. -/
def ConnectMessage.fill (m : ConnectMessage) (keepAlive : UInt16) (clientName user password : List UInt8)
    (copied : Nat) : ConnectMessage × Bool :=
  if copied < 1 then (m, false) else
  let m := { m with protocolName := [77, 81, 84, 84], keepAlive := keepAlive }
  if copied < 2 then (m, false) else
  let m := { m with clientId := clientName }
  if user = [] then (m, true) else
  let m := { m with usernameFollows := true }
  if copied < 3 then (m, false) else
  let m := { m with username := user }
  if password = [] then (m, true) else
  let m := { m with passwordFollows := true }
  if copied < 4 then (m, false) else
  ({ m with password := password }, true)

variable {m : MqttMessage} {now : UInt32} {packet : Option MqttPacket}

namespace MqttClient

/-! ### The calls of the application -/

variable (c : MqttClient)

def enqueue (m : MqttMessage) : MqttClient × Bool :=
  ({ c with requestQueue := (c.requestQueue.enqueue m).1 }, (c.requestQueue.enqueue m).2)

/-- (C++ `MqttClient::connect`.) That the CONNECT message may find the queue full is not looked at. -/
def connect (url : URL) (clientName : List UInt8) (copied : Nat) : MqttClient × Bool :=
  if url.protocol ≠ "mqtts" ∧ url.protocol ≠ "mqtt" then (c, false)
  else
    let tcp := if c.tcp.state ≠ .ready then c.tcp.close else c.tcp
    let (message, filled) :=
      c.connectMessage.fill c.keepAlive clientName (Http.bytes url.user) (Http.bytes url.password) copied
    let c := { c with tcp := tcp, connectMessage := message }
    if filled then
      ({ (c.enqueue { type := .connect, body := .connect message }).1 with tcp := tcp.connect }, true)
    else (c, false)

/-- A PUBLISH message with the bits of `flags`. -/
def publishMessage (topic : List UInt8) (content : MqttBuffer) (flags : UInt8) : MqttMessage where
  retain := flags.toNat % 2 = 1
  qos := Fin.ofNat 4 (flags.toNat / 2)
  dup := flags.toNat / 8 % 2 = 1
  type := .publish
  body := .publish topic 0 content

/-- (C++ `MqttClient::publish` of a text.) -/
def publish (topic content : List UInt8) (flags : UInt8) (copied : Bool) : MqttClient × Bool :=
  if copied then c.enqueue (publishMessage topic ⟨content.length, .block content⟩ flags) else (c, false)

/-- `MQTT_PUBLISH_STREAM`: the length that marks a pointer to a stream. -/
def mqttPublishStream : Nat := 0

/-- (C++ `MqttClient::publish` of a stream.) -/
def publishStream (topic : List UInt8) (stream : PayloadStream) (flags : UInt8)
    (copied : Bool) : MqttClient × Bool :=
  if stream.available < 1 then (c, false)
  else if copied then c.enqueue (publishMessage topic ⟨mqttPublishStream, .stream stream⟩ flags)
  else (c, false)

def subscribe (topic : List UInt8) (copied : Bool) : MqttClient × Bool :=
  if copied then c.enqueue { type := .subscribe, body := .subscribe 0 [{ name := topic }] } else (c, false)

/-- (C++ `MqttClient::unsubscribe`.) The type is the one of a SUBSCRIBE message. -/
def unsubscribe (topic : List UInt8) (behind : UInt8) (copied : Bool) : MqttClient × Bool :=
  if copied then c.enqueue { type := .subscribe, body := .unsubscribe 0 [{ name := topic, behind }] }
  else (c, false)

/-! ### Sending -/

def streamLength (stream : PayloadStream) : Nat := (stream.available % 2 ^ 32).toNat

/-- The message as the serialiser gets it: a content of length 0 is taken for a stream and asked for its length. No
value where that calls into a block of text, or the serialiser then reads memory the model does not know. -/
def prepare (m : MqttMessage) : Option MqttMessage :=
  match m.type, m.body with
  | .publish, .publish topicName id content =>
    if content.length = mqttPublishStream then
      match content.data with
      | .block _ => none
      | .stream stream =>
        let content := { content with length := streamLength stream }
        if content.readable then some { m with body := .publish topicName id content } else none
    else some m
  | _, _ => some m

def packetStream (bytes : List UInt8) : MemoryDataStream :=
  { buf := some (bytes ++ [0]), size := bytes.length }

/-- Serialise a message into a new stream. The stream is not finished, since no packet is empty. -/
def load (codec : MqttCodec) (c : MqttClient) (m : MqttMessage) (now : UInt32) :
    Option (MqttClient × Option MqttPacket) :=
  (prepare m).map fun m =>
    let (packet, sequence) := codec.packet c.sequence m
    ({ c with
      tcp := { c.tcp with stream := some (packetStream packet.bytes) }
      state := .sendingData
      lastMessage := now
      sequence := sequence }, some packet)

/-- The state `eMCS_Ready`: take the next message, or make a PINGREQ when the last one is long ago. -/
def next (codec : MqttCodec) (c : MqttClient) (now : UInt32) : Option (MqttClient × Option MqttPacket) :=
  match c.requestQueue.dequeue.1 with
  | some m => load codec { c with requestQueue := c.requestQueue.dequeue.2 } m now
  | none =>
    if c.lastMessage ≠ 0 ∧ c.pingRepeatTime * 1000 ≤ now - c.lastMessage then
      load codec c { type := .pingreq, body := .pingreq } now
    else some (c, none)

def pass (codec : MqttCodec) (c : MqttClient) (now : UInt32) : Option (MqttClient × Option MqttPacket) :=
  match c.state with
  | .ready => next codec c now
  | .sendingData =>
    if c.tcp.stream.any fun stream => !stream.isFinished then some ({ c with lastMessage := now }, none)
    else next codec { c with lastMessage := now, state := .ready } now

/-- `connect` gives up at a wrong protocol; otherwise it ends the connection there was and, if the CONNECT message can
be made, opens another. -/
lemma connect_cases (url : URL) (clientName : List UInt8) (copied : Nat) :
    ((url.protocol ≠ "mqtts" ∧ url.protocol ≠ "mqtt") ∧ c.connect url clientName copied = (c, false)) ∨
    ¬ (url.protocol ≠ "mqtts" ∧ url.protocol ≠ "mqtt") ∧
      ∃ m tcp, (tcp = c.tcp ∧ c.tcp.state = .ready ∨ tcp = c.tcp.close) ∧
        (c.connect url clientName copied = ({ c with tcp := tcp, connectMessage := m }, false) ∨
          c.connect url clientName copied =
            ({ c with
              tcp := tcp.connect
              connectMessage := m
              requestQueue := (c.requestQueue.enqueue { type := .connect, body := .connect m }).1 }, true)) := by
  rw [connect]
  split
  case isTrue wrong => exact .inl ⟨wrong, rfl⟩
  case isFalse right =>
    generalize ConnectMessage.fill .. = filled
    obtain ⟨m, ok⟩ := filled
    have tcp : (if c.tcp.state ≠ .ready then c.tcp.close else c.tcp) = c.tcp ∧ c.tcp.state = .ready ∨
        (if c.tcp.state ≠ .ready then c.tcp.close else c.tcp) = c.tcp.close := by
      split
      case isTrue => exact .inr rfl
      case isFalse h => exact .inl ⟨rfl, not_not.mp h⟩
    generalize (if c.tcp.state ≠ .ready then c.tcp.close else c.tcp) = tcp' at tcp ⊢
    cases ok with
    | false => exact .inr ⟨right, m, tcp', tcp, .inl rfl⟩
    | true => exact .inr ⟨right, m, tcp', tcp, .inr rfl⟩

lemma prepare_type {m' : MqttMessage} (h : prepare m = some m') :
    m'.type = m.type ∧ (m.type ≠ .publish → m' = m) := by
  rw [prepare] at h
  split at h
  case h_1 type _ =>
    refine ⟨?_, fun ne => absurd type ne⟩
    split at h
    · split at h
      · cases h
      · simp only at h
        split at h
        · cases h
          rfl
        · cases h
    · cases h
      rfl
  case h_2 =>
    cases h
    exact ⟨rfl, fun _ => rfl⟩

def Free : Prop := c.state = .ready ∨ ∀ stream ∈ c.tcp.stream, stream.isFinished = true

/-- A pass waits for a packet on its way, finds nothing to do, or makes the packet of the first message in the queue,
or of a PINGREQ if there is none. -/
inductive Passed (codec : MqttCodec) (c : MqttClient) : MqttClient → Option MqttPacket → Prop where
  | busy {stream lastMessage} :
    c.state = .sendingData →
    c.tcp.stream = some stream →
    stream.isFinished = false →
    Passed codec c { c with lastMessage } none
  | idle {lastMessage} :
    c.Free →
    c.requestQueue.toList = [] →
    Passed codec c { c with state := .ready, lastMessage } none
  | taken {m m' requestQueue lastMessage} :
    prepare m = some m' →
    c.Free →
    (c.requestQueue.toList = m :: requestQueue.toList ∨
      c.requestQueue.toList = [] ∧ requestQueue.toList = [] ∧ m.type = .pingreq) →
    Passed codec c
      { c with
        tcp := { c.tcp with stream := some (packetStream (codec.packet c.sequence m').1.bytes) }
        state := .sendingData
        requestQueue, lastMessage
        sequence := (codec.packet c.sequence m').2 }
      (some (codec.packet c.sequence m').1)

variable {codec : MqttCodec} {c c' : MqttClient}

lemma next_passed (lastMessage : UInt32) (free : c.Free)
    (h : next codec { c with lastMessage, state := .ready } now = some (c', packet)) : Passed codec c c' packet := by
  rw [next, ObjectQueue.dequeue_fst] at h
  cases hq : c.requestQueue.toList with
  | cons m rest =>
    simp only [hq, head?_cons, load, map_eq_some_iff, Prod.mk.injEq] at h
    obtain ⟨m', prepared, rfl, rfl⟩ := h
    refine .taken prepared free (.inl ?_)
    rw [ObjectQueue.dequeue_toList, hq]
    rfl
  | nil =>
    simp only [hq, head?_nil] at h
    split at h
    case isTrue =>
      simp only [load, map_eq_some_iff, Prod.mk.injEq] at h
      obtain ⟨m', prepared, rfl, rfl⟩ := h
      exact .taken prepared free (.inr ⟨hq, hq, rfl⟩)
    case isFalse =>
      cases h
      exact .idle free hq

lemma pass_passed (h : c.pass codec now = some (c', packet)) : Passed codec c c' packet := by
  rw [pass] at h
  split at h
  case h_1 ready =>
    refine @next_passed now _ _ _ _ c.lastMessage (.inl ready) ?_
    rw [← ready]
    exact h
  case h_2 sending =>
    split at h
    case isTrue more =>
      obtain ⟨stream, hs, unfinished⟩ := Option.any_eq_true .. |>.mp more
      cases h
      exact .busy sending hs (by simpa using unfinished)
    case isFalse done =>
      refine next_passed now (.inr ?_) h
      intro stream hs
      rw [mem_def] at hs
      simpa [hs] using done

lemma Passed.tcp_state (h : Passed codec c c' packet) : c'.tcp.state = c.tcp.state := by
  cases h <;> rfl

inductive Calls (c : MqttClient) : MqttClient × Bool → Prop where
  | refused : Calls c (c, false)
  | queued (m : MqttMessage) : m.type ≠ .connect → m.body.messageId = 0 → Calls c (c.enqueue m)

lemma publish_calls (c : MqttClient) (topic content : List UInt8) (flags : UInt8) (copied : Bool) :
    c.Calls (c.publish topic content flags copied) := by
  rw [publish]
  split
  · exact .queued _ nofun rfl
  · exact .refused

lemma publishStream_calls (c : MqttClient) (topic : List UInt8) (stream : PayloadStream) (flags : UInt8)
    (copied : Bool) : c.Calls (c.publishStream topic stream flags copied) := by
  rw [publishStream]
  split
  · exact .refused
  · split
    · exact .queued _ nofun rfl
    · exact .refused

lemma subscribe_calls (c : MqttClient) (topic : List UInt8) (copied : Bool) : c.Calls (c.subscribe topic copied) := by
  rw [subscribe]
  split
  · exact .queued _ nofun rfl
  · exact .refused

lemma unsubscribe_calls (c : MqttClient) (topic : List UInt8) (behind : UInt8) (copied : Bool) :
    c.Calls (c.unsubscribe topic behind copied) := by
  rw [unsubscribe]
  split
  · exact .queued _ nofun rfl
  · exact .refused

end MqttClient

/-! ### Sessions -/

inductive Operation where
  | publish (topic payload : List UInt8) (qos : Fin 4) (retain : Bool)
  | subscribe (topics : List (List UInt8 × UInt8))
  | unsubscribe (topics : List (List UInt8))
  deriving Repr, DecidableEq

/-- A client with its history. -/
structure MqttSession where
  client : MqttClient := {}
  opening : Option MqttMessage := none
  earlier : List MqttPacket := []
  packets : List MqttPacket := []
  writtenEarlier : List UInt8 := []
  written : List UInt8 := []
  accepted : List Operation := []

namespace MqttSession

inductive Event where
  | connect (url : URL) (clientName : List UInt8) (copied : Nat)
  | publish (topic content : List UInt8) (flags : UInt8) (copied : Bool)
  | publishStream (topic : List UInt8) (stream : PayloadStream) (flags : UInt8) (copied : Bool)
  | subscribe (topic : List UInt8) (copied : Bool)
  | unsubscribe (topic : List UInt8) (behind : UInt8) (copied : Bool)
  | onConnected (ok : Bool) (now : UInt32) (lwip : Lwip)
  | onTcpReceive (now : UInt32)
  | ready (now : UInt32) (lwip : Lwip)
  | close
  | onError
  deriving Repr, DecidableEq

/-- The session after a call that may have been accepted. -/
def answered (s : MqttSession) (operation : Operation) (r : MqttClient × Bool) : MqttSession :=
  { s with client := r.1, accepted := if r.2 then s.accepted ++ [operation] else s.accepted }

def opened (s : MqttSession) : MqttClient × Bool → MqttSession
  | (client, true) =>
    { s with
      client := client
      opening := some { type := .connect, body := .connect client.connectMessage }
      earlier := s.earlier ++ s.packets
      packets := []
      writtenEarlier := s.writtenEarlier ++ s.written
      written := [] }
  | (client, false) => { s with client := client }

def pushed (s : MqttSession) (lwip : Lwip) : MqttSession :=
  let (tcp, handed) := s.client.tcp.onReadyToSendData lwip
  { s with client := { s.client with tcp := tcp }, written := s.written ++ handed }

/-- The client takes the next message and pushes its stream. -/
def onReadyToSendData (codec : MqttCodec) (s : MqttSession) (now : UInt32) (lwip : Lwip) :
    Option MqttSession :=
  (s.client.pass codec now).map fun (client, packet) =>
    pushed { s with client := client, packets := s.packets ++ packet.toList } lwip

/-- One event; `none` if the source has no defined outcome. -/
def step (codec : MqttCodec) (s : MqttSession) : Event → Option MqttSession
  | .connect url clientName copied => some (s.opened (s.client.connect url clientName copied))
  | .publish topic content flags copied =>
    some (s.answered
      (.publish topic content (Fin.ofNat 4 (flags.toNat / 2)) (flags.toNat % 2 = 1))
      (s.client.publish topic content flags copied))
  | .publishStream topic stream flags copied =>
    some (s.answered
      (.publish topic stream.content (Fin.ofNat 4 (flags.toNat / 2)) (flags.toNat % 2 = 1))
      (s.client.publishStream topic stream flags copied))
  | .subscribe topic copied => some (s.answered (.subscribe [(topic, 0)]) (s.client.subscribe topic copied))
  | .unsubscribe topic behind copied =>
    some (s.answered (.unsubscribe [topic]) (s.client.unsubscribe topic behind copied))
  | .onConnected ok now lwip =>
    if s.client.tcp.isProcessing then
      if ok then
        onReadyToSendData codec { s with client := { s.client with
          tcp := { s.client.tcp with state := .connected, canSend := true } } } now lwip
      else
        some { s with client := { s.client with
          tcp := TcpClient.close { s.client.tcp.onError with canSend := true } } }
    else some s
  | .onTcpReceive now => some { s with client := { s.client with lastMessage := now } }
  | .ready now lwip =>
    if s.client.tcp.isProcessing ∧ s.client.tcp.canSend then s.onReadyToSendData codec now lwip else some s
  | .close => some (if s.client.tcp.isProcessing then
      { s with client := { s.client with tcp := s.client.tcp.close } } else s)
  | .onError => some (if s.client.tcp.isProcessing then
      { s with client := { s.client with tcp := s.client.tcp.onError } } else s)

/-! ### What an event can do -/

def Event.isCall : Event → Bool
  | .publish .. | .publishStream .. | .subscribe .. | .unsubscribe .. => true
  | _ => false

/-- The event ends the connection there is. -/
def Event.ends : Event → Bool
  | .connect url .. => url.protocol == "mqtts" || url.protocol == "mqtt"
  | .onConnected ok .. => !ok
  | .close | .onError => true
  | _ => false

variable {codec : MqttCodec} {s t : MqttSession} {e : Event}

lemma step_called (call : e.isCall = true)
    (h : s.step codec e = some t) : ∃ operation r, s.client.Calls r ∧ t = s.answered operation r := by
  cases e with
  | publish => cases h; exact ⟨_, _, s.client.publish_calls .., rfl⟩
  | publishStream => cases h; exact ⟨_, _, s.client.publishStream_calls .., rfl⟩
  | subscribe => cases h; exact ⟨_, _, s.client.subscribe_calls .., rfl⟩
  | unsubscribe => cases h; exact ⟨_, _, s.client.unsubscribe_calls .., rfl⟩
  | _ => cases call

/-- What an event that is no call does: nothing to the connection, end it, end it and open another, or a pass. -/
inductive Moved (codec : MqttCodec) (s : MqttSession) (e : Event) : MqttSession → Prop where
  | kept {lastMessage} : Moved codec s e { s with client := { s.client with lastMessage } }
  | stopped {tcp connectMessage} :
    e.ends = true →
    tcp.isProcessing = false → tcp = s.client.tcp ∨ tcp.stream = none →
    Moved codec s e { s with client := { s.client with tcp, connectMessage } }
  | opened {tcp m url clientName copied} :
    e = .connect url clientName copied → e.ends = true →
    tcp.isProcessing = false → tcp = s.client.tcp ∨ tcp.stream = none →
    Moved codec s e (s.opened
      ({ s.client with
        tcp := tcp.connect
        connectMessage := m
        requestQueue := (s.client.requestQueue.enqueue { type := .connect, body := .connect m }).1 }, true))
  | passed {client : MqttClient} {tcp : TcpClient} {packet : Option MqttPacket} {lwip : Lwip} :
    e.ends = false →
    tcp = s.client.tcp ∨ tcp = { s.client.tcp with state := .connected, canSend := true } →
    tcp.isProcessing = true → s.client.tcp.isProcessing = true →
    MqttClient.Passed codec { s.client with tcp := tcp } client packet →
    Moved codec s e (pushed { s with client := client, packets := s.packets ++ packet.toList } lwip)

lemma moved_connect (s : MqttSession) (url : URL) (clientName : List UInt8)
    (copied : Nat) : Moved codec s (.connect url clientName copied)
      (s.opened (s.client.connect url clientName copied)) := by
  obtain ⟨stopped, close⟩ := s.client.tcp.close_cases
  rcases s.client.connect_cases url clientName copied with ⟨-, e⟩ | ⟨right, m, tcp, before, e⟩
  · rw [e]
    exact .kept
  · have ends : Event.ends (.connect url clientName copied) = true := by
      simpa [Event.ends, ← or_iff_not_imp_left] using right
    have gone : tcp.isProcessing = false ∧ (tcp = s.client.tcp ∨ tcp.stream = none) := by
      rcases before with ⟨rfl, ready⟩ | rfl
      · refine ⟨?_, .inl rfl⟩
        rw [TcpClient.isProcessing, ready]
        rfl
      · exact ⟨stopped, close⟩
    rcases e with e | e
    · rw [e]
      exact .stopped ends gone.1 gone.2
    · rw [e]
      exact .opened rfl ends gone.1 gone.2

lemma moved_onReadyToSendData {tcp : TcpClient}
    {lwip : Lwip} (stays : e.ends = false)
    (same : tcp = s.client.tcp ∨ tcp = { s.client.tcp with state := .connected, canSend := true })
    (processing : s.client.tcp.isProcessing = true)
    (h : onReadyToSendData codec { s with client := { s.client with tcp := tcp } } now lwip = some t) :
    Moved codec s e t := by
  obtain ⟨⟨client, packet⟩, pass, rfl⟩ := map_eq_some_iff.mp h
  refine .passed stays same ?_ processing (MqttClient.pass_passed pass)
  rcases same with rfl | rfl
  · exact processing
  · rfl

/-- What an event that is not a call of the application can do. -/
lemma step_moved (call : e.isCall = false) (h : s.step codec e = some t) : Moved codec s e t := by
  cases e with
  | connect url clientName copied =>
    cases h
    exact s.moved_connect url clientName copied
  | publish | publishStream | subscribe | unsubscribe => cases call
  | onConnected ok now lwip =>
    rw [step] at h
    split at h
    case isTrue processing =>
      cases ok with
      | true => exact moved_onReadyToSendData rfl (.inr rfl) processing h
      | false =>
        cases h
        exact .stopped rfl rfl (.inr rfl)
    case isFalse =>
      cases h
      exact .kept
  | onTcpReceive now =>
    cases h
    exact .kept
  | ready now lwip =>
    rw [step] at h
    split at h
    case isTrue processing => exact moved_onReadyToSendData rfl (.inl rfl) processing.1 h
    case isFalse =>
      cases h
      exact .kept
  | close =>
    cases h
    obtain ⟨stopped, close⟩ := s.client.tcp.close_cases
    split
    case isTrue => exact .stopped rfl stopped close
    case isFalse => exact .kept
  | onError =>
    cases h
    split
    case isTrue => exact .stopped rfl rfl (.inr rfl)
    case isFalse => exact .kept

/-! ### The bytes on the wire -/

/-- The packets begun on this connection, as bytes. -/
def bytes (s : MqttSession) : List UInt8 := (s.packets.map MqttPacket.bytes).flatten

structure Wired (s : MqttSession) : Prop where
  wf : s.client.tcp.StreamWF
  idle : s.client.tcp.isProcessing = false → s.client.tcp.stream = none
  free : s.client.state = .ready → s.client.tcp.stream = none
  active : s.client.tcp.isProcessing = true → s.written ++ s.client.tcp.pending = s.bytes
  sent : s.written <+: s.bytes

structure Settled (s : MqttSession) : Prop extends Wired s where
  live : ∀ stream ∈ s.client.tcp.stream, stream.isFinished = false

lemma Settled.stream_eq_none (h : s.Settled) (free : s.client.Free) : s.client.tcp.stream = none := by
  rcases free with ready | finished
  · exact h.free ready
  · cases hs : s.client.tcp.stream with
    | none => rfl
    | some stream =>
      have done := finished stream hs
      rw [h.live stream hs] at done
      cases done

variable {client : MqttClient}

lemma Wired.stop (w : s.Wired) (stopped : client.tcp.isProcessing = false) (none : client.tcp.stream = none) :
    Settled { s with client := client } where
  wf stream hs := by rw [none] at hs; cases hs
  idle _ := none
  free _ := none
  active h := by rw [stopped] at h; cases h
  sent := w.sent
  live stream hs := by rw [none] at hs; cases hs

lemma Wired.push (w : s.Wired) (processing : s.client.tcp.isProcessing = true)
    (lwip : Lwip) : (s.pushed lwip).Settled := by
  obtain ⟨wf, state, pending⟩ := TcpClient.pushAsyncPart_spec w.wf lwip
  have processing' : (s.client.tcp.pushAsyncPart lwip).1.isProcessing = true := by
    rw [TcpClient.isProcessing, state]
    exact processing
  have none : s.client.tcp.stream = none → (s.client.tcp.pushAsyncPart lwip).1.stream = none := by
    intro e
    rw [TcpClient.pushAsyncPart, e]
    exact e
  have law := w.active processing
  rw [pending, ← List.append_assoc] at law
  rw [pushed, TcpClient.onReadyToSendData]
  refine ⟨⟨wf, ?_, fun h => none (w.free h), fun _ => law, ⟨_, law⟩⟩, s.client.tcp.pushAsyncPart_live lwip⟩
  intro stopped
  rw [processing'] at stopped
  cases stopped

lemma packetStream_spec (bytes : List UInt8) :
    (MqttClient.packetStream bytes).WF ∧ (MqttClient.packetStream bytes).unread = bytes := by
  refine ⟨⟨nofun, ?_, Nat.zero_le _⟩, ?_⟩
  · rintro block ⟨⟩
    simp [MqttClient.packetStream]
  · simp [MqttClient.packetStream, MemoryDataStream.unread]

lemma Settled.pass (h : s.Settled) (processing : s.client.tcp.isProcessing = true)
    (passed : MqttClient.Passed codec s.client client packet) :
    Wired { s with client := client, packets := s.packets ++ packet.toList } := by
  cases passed with
  | busy =>
    rw [toList_none, append_nil]
    exact ⟨h.wf, h.idle, h.free, h.active, h.sent⟩
  | idle free =>
    rw [toList_none, append_nil]
    exact ⟨h.wf, h.idle, fun _ => h.stream_eq_none free, h.active, h.sent⟩
  | @taken m m' queue lastMessage prepared free =>
    generalize codec.packet s.client.sequence m' = made
    obtain ⟨packet, sequence⟩ := made
    obtain ⟨wf, unread⟩ := packetStream_spec packet.bytes
    have law := h.active processing
    rw [TcpClient.pending, h.stream_eq_none free, elim_none, append_nil] at law
    have more (client : MqttClient) : bytes { s with client := client, packets := s.packets ++ [packet] } =
        s.written ++ packet.bytes := by
      rw [bytes, map_append, flatten_append, law]
      simp [bytes]
    refine ⟨?_, ?_, fun none => (by cases none), ?_, ?_⟩
    · rintro stream ⟨⟩
      exact wf
    · intro stopped
      cases processing.symm.trans stopped
    · intro _
      rw [toList_some, more, TcpClient.pending, elim_some, unread]
    · rw [toList_some, more]
      exact prefix_append _ _

lemma Settled.answered (h : s.Settled) {operation : Operation} {r : MqttClient × Bool}
    (call : s.client.Calls r) : (s.answered operation r).Settled := by
  cases call with
  | refused => exact h
  | queued m => exact ⟨⟨h.wf, h.idle, h.free, h.active, h.sent⟩, h.live⟩

lemma Settled.connected (h : s.Settled) {tcp : TcpClient}
    (same : tcp = s.client.tcp ∨ tcp = { s.client.tcp with state := .connected, canSend := true })
    (processing : s.client.tcp.isProcessing = true) : Settled { s with client := { s.client with tcp := tcp } } := by
  have active := h.active processing
  rcases same with rfl | rfl
  · exact h
  · exact ⟨⟨h.wf, nofun, h.free, fun _ => active, h.sent⟩, h.live⟩

lemma Settled.moved (h : s.Settled) (move : Moved codec s e t) : t.Settled := by
  have gone : ∀ {tcp : TcpClient}, tcp.isProcessing = false → tcp = s.client.tcp ∨ tcp.stream = none →
      tcp.stream = none := by
    rintro tcp stopped (rfl | none)
    · exact h.idle stopped
    · exact none
  cases move with
  | kept => exact ⟨⟨h.wf, h.idle, h.free, h.active, h.sent⟩, h.live⟩
  | stopped _ stopped none => exact h.stop stopped (gone stopped none)
  | @opened tcp _ _ _ _ _ _ stopped none =>
    have none := gone stopped none
    have none' : tcp.connect.stream = Option.none := by
      rw [TcpClient.connect, if_neg (by rw [stopped]; exact Bool.false_ne_true)]
      exact none
    refine ⟨⟨?_, fun _ => none', fun _ => none', ?_, prefix_rfl⟩, ?_⟩
    · intro stream hs
      cases none'.symm.trans hs
    · intro _
      show [] ++ tcp.connect.pending = []
      rw [TcpClient.pending, none']
      rfl
    · intro stream hs
      cases none'.symm.trans hs
  | @passed client tcp packet lwip _ same processing processing' passed =>
    apply ((h.connected same processing').pass processing passed).push
    rw [TcpClient.isProcessing, passed.tcp_state]
    exact processing

lemma settled_init : ({} : MqttSession).Settled :=
  ⟨⟨nofun, fun _ => rfl, fun _ => rfl, nofun, prefix_rfl⟩, nofun⟩

lemma Settled.step (h : s.Settled) (next : s.step codec e = some t) : t.Settled := by
  cases call : e.isCall with
  | true =>
    obtain ⟨operation, r, calls, rfl⟩ := step_called call next
    exact h.answered calls
  | false => exact h.moved (step_moved call next)

/-! ### The CONNECT packet -/

/-- The messages start with the CONNECT message that opened the connection and have no other. -/
def Starts (opening : Option MqttMessage) (messages : List MqttMessage) : Prop :=
  ∃ m rest, opening = some m ∧ m.type = .connect ∧ messages = m :: rest ∧ ∀ p ∈ rest, p.type ≠ .connect

lemma Starts.snoc {opening messages} (h : Starts opening messages)
    (other : m.type ≠ .connect) : Starts opening (messages ++ [m]) := by
  obtain ⟨first, rest, e, type, rfl, others⟩ := h
  refine ⟨first, rest ++ [m], e, type, rfl, ?_⟩
  intro p mem
  rcases mem_append.mp mem with mem | mem
  · exact others p mem
  · rw [mem_singleton.mp mem]
    exact other

lemma Starts.left {opening messages queue} (h : Starts opening (messages ++ queue)) (ne : messages ≠ []) :
    Starts opening messages := by
  obtain ⟨first, rest, e, type, split, others⟩ := h
  cases messages with
  | nil => exact absurd rfl ne
  | cons m more =>
    obtain ⟨rfl, rfl⟩ := List.cons.inj split
    exact ⟨m, more, e, type, rfl, fun p mem => others p (mem_append_left _ mem)⟩

lemma Starts.take {opening messages queue} {m' : MqttMessage}
    (h : Starts opening (messages ++ m :: queue)) (prepared : MqttClient.prepare m = some m') :
    Starts opening (messages ++ [m'] ++ queue) := by
  obtain ⟨type', same⟩ := MqttClient.prepare_type prepared
  obtain ⟨first, rest, e, type, split, others⟩ := h
  cases messages with
  | nil =>
    obtain ⟨rfl, rfl⟩ := List.cons.inj split
    have unchanged := same (by rw [type]; nofun)
    rw [unchanged]
    exact ⟨m, queue, e, type, rfl, others⟩
  | cons f more =>
    obtain ⟨rfl, rfl⟩ := List.cons.inj split
    refine ⟨f, more ++ [m'] ++ queue, e, type, rfl, ?_⟩
    intro p mem
    simp only [List.append_assoc, mem_append, mem_singleton] at mem
    rcases mem with mem | rfl | mem
    · exact others p (mem_append_left _ mem)
    · rw [type']
      exact others m (mem_append_right _ mem_cons_self)
    · exact others p (mem_append_right _ (mem_cons_of_mem _ mem))

def messages (s : MqttSession) : List MqttMessage := s.packets.map MqttPacket.message

/-- The CONNECT message stands before all that was and will be taken from the queue. -/
structure Opened (s : MqttSession) : Prop where
  coming : s.client.tcp.isProcessing = true → Starts s.opening (s.messages ++ s.client.requestQueue.toList)
  first : s.packets ≠ [] → Starts s.opening s.messages
  begun : s.client.tcp.state = .connected → s.packets ≠ []

def QueueEmpty (s : MqttSession) : Event → Prop
  | .connect .. => s.client.requestQueue.toList = []
  | _ => True

instance (s : MqttSession) : (e : Event) → Decidable (s.QueueEmpty e)
  | .connect .. => inferInstanceAs (Decidable (s.client.requestQueue.toList = []))
  | .publish .. | .publishStream .. | .subscribe .. | .unsubscribe .. | .onConnected .. | .onTcpReceive ..
  | .ready .. | .close | .onError => .isTrue trivial

lemma Opened.answered (h : s.Opened) {operation : Operation} {r : MqttClient × Bool}
    (call : s.client.Calls r) : (s.answered operation r).Opened := by
  cases call with
  | refused => exact h
  | queued m other =>
    refine ⟨?_, h.first, h.begun⟩
    intro processing
    have starts := h.coming processing
    show Starts s.opening (s.messages ++ (s.client.requestQueue.enqueue m).1.toList)
    rw [ObjectQueue.enqueue_toList]
    split
    · rw [← List.append_assoc]
      exact starts.snoc other
    · exact starts

lemma Opened.pass (settled : s.Settled) (processing : s.client.tcp.isProcessing = true)
    (starts : Starts s.opening (s.messages ++ s.client.requestQueue.toList))
    (passed : MqttClient.Passed codec s.client client packet) :
    s.packets ++ packet.toList ≠ [] ∧
      Starts s.opening ((s.packets ++ packet.toList).map MqttPacket.message ++ client.requestQueue.toList) := by
  cases passed with
  | busy _ hs unfinished =>
    rw [toList_none, append_nil]
    refine ⟨?_, starts⟩
    -- the packet on its way was begun on this connection
    intro none
    have law := settled.active processing
    rw [bytes, none, map_nil, flatten_nil, append_eq_nil_iff, TcpClient.pending, hs] at law
    have finished := (settled.wf _ hs).isFinished_iff.mpr law.2
    rw [unfinished] at finished
    cases finished
  | idle _ empty =>
    rw [toList_none, append_nil]
    refine ⟨?_, starts⟩
    intro none
    obtain ⟨m, rest, -, -, e, -⟩ := starts
    rw [messages, none, empty] at e
    cases e
  | taken prepared _ queue =>
    refine ⟨by simp, ?_⟩
    rw [toList_some, map_append, map_singleton, MqttCodec.packet_message]
    rcases queue with queue | ⟨empty, empty', ping⟩
    · rw [queue] at starts
      exact starts.take prepared
    · rw [empty, append_nil] at starts
      rw [empty', append_nil]
      apply starts.snoc
      rw [(MqttClient.prepare_type prepared).1, ping]
      intro e
      cases e

lemma Opened.moved (settled : s.Settled) (h : s.Opened)
    (empty : s.QueueEmpty e) (move : Moved codec s e t) : t.Opened := by
  cases move with
  | kept => exact ⟨h.coming, h.first, h.begun⟩
  | stopped _ stopped =>
    refine ⟨?_, h.first, ?_⟩
    · intro processing
      cases stopped.symm.trans processing
    · intro connected
      rw [TcpClient.isProcessing, connected] at stopped
      cases stopped
  | @opened tcp m _ _ _ call _ stopped =>
    subst call
    have connecting : tcp.connect.state = .connecting := by
      rw [TcpClient.connect, if_neg (by rw [stopped]; exact Bool.false_ne_true)]
    refine ⟨?_, fun none => absurd rfl none, ?_⟩
    · intro _
      have nil : s.client.requestQueue.toList = [] := empty
      have room : ([] : List MqttMessage).length < mqttRequestPoolSize := by decide
      simp only [MqttSession.opened, ObjectQueue.enqueue_toList, nil, if_pos room]
      exact ⟨_, [], rfl, rfl, rfl, fun _ mem => absurd mem not_mem_nil⟩
    · intro connected
      cases connecting.symm.trans connected
  | @passed client tcp packet lwip _ same processing processing' passed =>
    obtain ⟨ne, starts⟩ := Opened.pass (settled.connected same processing') processing
      (h.coming processing') passed
    refine ⟨fun _ => starts, fun _ => ?_, fun _ => ne⟩
    apply starts.left
    rw [Ne, map_eq_nil_iff]
    exact ne

/-- The first packet on the connection is its CONNECT packet, no other one is a CONNECT packet, and it is
there as soon as the connection is. -/
def FirstIsConnect (s : MqttSession) : Prop :=
  (∀ p ∈ s.packets.head?, some p.message = s.opening ∧ p.message.type = .connect) ∧
    (∀ p ∈ s.packets.tail, p.message.type ≠ .connect) ∧
    (s.client.tcp.state = .connected → s.packets ≠ [])

instance (s : MqttSession) : Decidable s.FirstIsConnect := inferInstanceAs (Decidable (_ ∧ _))

lemma Opened.firstIsConnect (h : s.Opened) : s.FirstIsConnect := by
  cases hp : s.packets with
  | nil =>
    refine ⟨?_, ?_, h.begun⟩
    · intro p mem
      rw [hp] at mem
      cases mem
    · intro p mem
      rw [hp] at mem
      cases mem
  | cons p rest =>
    obtain ⟨m, others, opening, type, e, no⟩ := h.first (by rw [hp]; exact cons_ne_nil _ _)
    rw [messages, hp, map_cons] at e
    obtain ⟨rfl, rfl⟩ := List.cons.inj e
    refine ⟨?_, ?_, h.begun⟩
    · rw [hp]
      rintro q ⟨⟩
      exact ⟨opening.symm, type⟩
    · rw [hp]
      intro q mem
      exact no _ (List.mem_map_of_mem mem)

/-- With an empty queue at every `connect`, every connection starts with CONNECT, and its packets are written one
after the other. -/
theorem firstIsConnect_of_queueEmpty {codec : MqttCodec} {es s}
    (run : Run (step codec) QueueEmpty {} es s) : s.FirstIsConnect ∧ s.written <+: s.bytes := by
  have inv : s.Settled ∧ s.Opened := by
    apply run.invariant
    · exact ⟨settled_init, nofun, fun none => absurd rfl none, nofun⟩
    · rintro t e u ⟨settled, h⟩ empty next
      refine ⟨settled.step next, ?_⟩
      cases call : e.isCall with
      | true =>
        obtain ⟨operation, r, calls, rfl⟩ := step_called call next
        exact h.answered calls
      | false => exact h.moved settled empty (step_moved call next)
  exact ⟨inv.2.firstIsConnect, inv.1.sent⟩

/-- A `connect` to a server without credentials. -/
def connectTo (clientName : List UInt8) : Event := .connect { protocol := "mqtt", host := "broker" } clientName 2

theorem firstIsConnect_of_queueEmpty_twice : ∃ s, Run (step mqttSerialiser) QueueEmpty {}
    [connectTo [99], .onConnected true 5 (Session.Room 100), .publish [97] [98] 0 true,
      .ready 6 (Session.Room 100), .close, connectTo [100], .subscribe [97] true,
      .onConnected true 9 (Session.Room 100), .ready 10 (Session.Room 100)] s ∧
    s.earlier.length = 2 ∧ s.packets.length = 2 ∧ s.FirstIsConnect ∧ s.written <+: s.bytes :=
  exists_run (fun s => s.earlier.length = 2 ∧ s.packets.length = 2) (by decide +kernel)
    fun _ run done => ⟨done.1, done.2, firstIsConnect_of_queueEmpty run⟩

/-- A message published before the connection is opened goes out before the CONNECT packet. -/
theorem publish_before_connect : ¬ ∀ codec es s, Run (step codec) Always {} es s → s.FirstIsConnect := by
  intro all
  exact not_forall_run [.publish [97] [98] 0 true, connectTo [99], .onConnected true 5 (Session.Room 100)]
    (by decide +kernel) (all mqttSerialiser)

/-- In every run the packets go out whole and in their order: written are the first bytes, and while the connection is
in use the stream holds the others. -/
theorem packets_not_interleaved {codec : MqttCodec} {es s} (run : Run (step codec) Always {} es s) :
    s.written <+: s.bytes ∧ (s.client.tcp.isProcessing = true → s.written ++ s.client.tcp.pending = s.bytes) := by
  have settled : s.Settled := run.invariant settled_init fun h _ next => h.step next
  exact ⟨settled.sent, settled.active⟩

theorem packets_not_interleaved_cut : ∃ s, Run (step mqttSerialiser) Always {}
    [.publish [97] [98] 0 true, connectTo [99], .onConnected true 5 (Session.Room 3), .ready 6 (Session.Room 100)] s ∧
    s.packets.length = 1 ∧ s.written <+: s.bytes :=
  exists_run (·.packets.length = 1) (by decide +kernel) fun _ run one => ⟨one, (packets_not_interleaved run).1⟩

end MqttSession

/-! ### The destructor -/

namespace MqttClient

/-- The loop of the destructor between two rounds: the queue, and the arguments `mqtt_message_clear` got. -/
structure Drain where
  requestQueue : MqttRequestQueue
  cleared : List (Option MqttMessage) := []

/-- One round. A message leaves the loop at once; only the null pointer is passed on, which
`mqtt_message_clear` ignores. -/
def drainRound (d : Drain) : Drain ⊕ Drain :=
  match d.requestQueue.dequeue with
  | (some _, q) => .inr { d with requestQueue := q }
  | (none, q) => .inl { requestQueue := q, cleared := d.cleared ++ [none] }

def drain (rounds : Nat) (q : MqttRequestQueue) : Option Drain := loop drainRound rounds { requestQueue := q }

/-- The loop ends, has cleared each message of the queue once and nothing else, and the queue is empty. -/
def Drained (q : MqttRequestQueue) : Prop :=
  ∃ rounds d, drain rounds q = some d ∧ d.cleared.Perm (q.toList.map some) ∧ d.requestQueue.toList = []

variable {d : Drain}

lemma drainRound_empty (empty : d.requestQueue.toList = []) :
    ∃ d', drainRound d = .inl d' ∧ d'.requestQueue.toList = [] := by
  have first := d.requestQueue.dequeue_fst
  have rest := d.requestQueue.dequeue_toList
  rw [drainRound]
  generalize d.requestQueue.dequeue = answer at first rest
  obtain ⟨m, q⟩ := answer
  rw [empty] at first rest
  cases first
  exact ⟨_, rfl, rest⟩

lemma loop_drainRound_empty (rounds : Nat) (empty : d.requestQueue.toList = []) :
    loop drainRound rounds d = none := by
  induction rounds generalizing d with
  | zero => rfl
  | succ rounds ih =>
    obtain ⟨d', next, still⟩ := drainRound_empty empty
    rw [loop, next]
    exact ih still

lemma loop_drainRound_cons (rounds : Nat) {ms : List MqttMessage} (content : d.requestQueue.toList = m :: ms) :
    ∃ d', loop drainRound (rounds + 1) d = some d' ∧ d'.cleared = d.cleared ∧ d'.requestQueue.toList = ms := by
  have first := d.requestQueue.dequeue_fst
  have rest := d.requestQueue.dequeue_toList
  rw [loop, drainRound]
  generalize d.requestQueue.dequeue = answer at first rest
  obtain ⟨m', q⟩ := answer
  rw [content] at first rest
  cases first
  exact ⟨_, rfl, rfl, rest⟩

/-- The loop never does its work: with an empty queue it does not end, otherwise it ends in the first round with the
first message lost and the others still there. -/
theorem drained_never (q : MqttRequestQueue) :
    (q.toList = [] → ∀ rounds, drain rounds q = none) ∧
      (∀ m ms, q.toList = m :: ms → ∀ rounds, ∃ d, drain (rounds + 1) q = some d ∧ d.cleared = [] ∧
        d.requestQueue.toList = ms) ∧
      ¬ Drained q := by
  have stuck : q.toList = [] → ∀ rounds, drain rounds q = none :=
    fun empty rounds => loop_drainRound_empty rounds empty
  have left : ∀ m ms, q.toList = m :: ms → ∀ rounds, ∃ d, drain (rounds + 1) q = some d ∧ d.cleared = [] ∧
      d.requestQueue.toList = ms := fun m ms content rounds => loop_drainRound_cons rounds content
  refine ⟨stuck, left, ?_⟩
  rintro ⟨rounds, d, done, cleared, -⟩
  cases content : q.toList with
  | nil =>
    rw [stuck content] at done
    cases done
  | cons m ms =>
    cases rounds with
    | zero => cases done
    | succ rounds =>
      obtain ⟨d', done', none_cleared, -⟩ := left m ms content rounds
      rw [done'] at done
      cases done
      rw [none_cleared, content] at cleared
      cases cleared.length_eq

/-- A client that never queued a message is destroyed forever. -/
theorem drained_not_empty : ¬ ∀ q, Drained q := by
  intro all
  obtain ⟨rounds, d, done, -⟩ := all .new
  rw [drain, loop_drainRound_empty rounds rfl] at done
  cases done

end MqttClient

end Sming.Network
