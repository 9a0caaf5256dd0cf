import Sming.Network.MqttClient

/-!
# The operations behind the packets

What the packets of an MQTT client ask the server for, against what the application called
(`Sming/SmingCore/Network/MqttClient.cpp`). The codec is taken to write the message structure it is
given, so a packet means what its message does: `MqttMessage.decode`.

`conforms_of_plain` says which calls come out as they went in: not an `unsubscribe`, whose message has the
type of a SUBSCRIBE; not an empty text, whose length marks a stream; not a stream, which is never attached; and no
packet that waits in the stream when the connection ends, since the stream is dropped with it.
-/

namespace Sming.Network
open Sming.Data Sming.Wiring Sming.Lib List Option

namespace MqttMessage

/-- What a packet with this message asks for. A PUBLISH packet must not have both bits of its QoS set,
and no topic may be asked for with a QoS above 2. -/
def decode (m : MqttMessage) : Option Operation :=
  match m.type, m.body with
  | .publish, .publish topicName _ content =>
    if m.qos = 3 then none else some (.publish topicName content.bytes m.qos m.retain)
  | .subscribe, body =>
    if body.topicPairs.all fun topic => topic.2 ≤ 2 then some (.subscribe body.topicPairs) else none
  | .unsubscribe, body => some (.unsubscribe (body.topicPairs.map Prod.fst))
  | _, _ => none

/-- The message comes from a call; CONNECT and PINGREQ do not ask for anything. -/
def isOperation (m : MqttMessage) : Bool := m.type != .connect && m.type != .pingreq

def meaning (m : MqttMessage) : Option Operation := (MqttClient.prepare m).bind decode

end MqttMessage

variable {c : MqttClient}

namespace MqttClient

lemma meaning_publish (topic : List UInt8) {content : List UInt8} {flags : UInt8} (some : content ≠ [])
    (proper : Fin.ofNat 4 (flags.toNat / 2) ≠ 3) :
    (publishMessage topic ⟨content.length, .block content⟩ flags).meaning =
      Option.some (.publish topic content (Fin.ofNat 4 (flags.toNat / 2)) (flags.toNat % 2 = 1)) := by
  have ne : content.length ≠ mqttPublishStream := by
    rwa [mqttPublishStream, Ne, List.length_eq_zero_iff]
  rw [MqttMessage.meaning, prepare, publishMessage]
  simp only [if_neg ne, bind_some, MqttMessage.decode, if_neg proper, MqttBuffer.bytes, take_length]

lemma meaning_subscribe (topic : List UInt8) :
    (MqttMessage.meaning { type := .subscribe, body := .subscribe 0 [{ name := topic }] }) =
      some (.subscribe [(topic, 0)]) := rfl

lemma pass_isSome {codec : MqttCodec} (now : UInt32)
    (h : ∀ m ∈ c.requestQueue.toList, (prepare m).isSome) : (c.pass codec now).isSome := by
  have next : ∀ d : MqttClient, d.requestQueue = c.requestQueue → (d.next codec now).isSome := by
    intro d queue
    rw [next, ObjectQueue.dequeue_fst, queue]
    cases hq : c.requestQueue.toList with
    | nil =>
      simp only [head?_nil]
      split
      · rfl
      · rfl
    | cons m rest =>
      simp only [head?_cons, load, isSome_map]
      exact h m (by rw [hq]; exact mem_cons_self)
  rw [pass]
  split
  · exact next c rfl
  · split
    · rfl
    · exact next _ rfl

end MqttClient

namespace MqttSession

variable (s : MqttSession)

def begun : List MqttMessage := (s.earlier ++ s.packets).map MqttPacket.message

/-- What the packets begun ask for, and after them what those in the queue will. -/
def operations : List (Option Operation) :=
  (s.begun.filter MqttMessage.isOperation).map MqttMessage.decode ++
    (s.client.requestQueue.toList.filter MqttMessage.isOperation).map MqttMessage.meaning

def Asks : Prop := s.operations = s.accepted.map some

def earlierBytes : List UInt8 := (s.earlier.map MqttPacket.bytes).flatten

/-- The bytes written on all connections are those of the packets begun, up to those that wait in the stream. -/
def Carried : Prop :=
  s.writtenEarlier ++ s.written ++ s.client.tcp.pending = s.earlierBytes ++ s.bytes

/-- What is written, and will be written, asks for the accepted operations. -/
def Conforms : Prop := s.Asks ∧ s.Carried

instance (s : MqttSession) : Decidable s.Conforms := inferInstanceAs (Decidable (_ = _ ∧ _ = _))

def Accepts (copied : Bool) : Prop :=
  copied = true ∧ s.client.requestQueue.toList.length < mqttRequestPoolSize

instance (s : MqttSession) (copied : Bool) : Decidable (s.Accepts copied) :=
  inferInstanceAs (Decidable (_ ∧ _))

/-- The accepted calls are subscriptions and publications of a nonempty text with a proper QoS. No connection ends with
bytes in the stream. -/
def Plain : Event → Prop
  | .publish _ content flags copied =>
    s.Accepts copied → content ≠ [] ∧ Fin.ofNat 4 (flags.toNat / 2) ≠ 3
  | .publishStream _ stream _ copied => s.Accepts copied → stream.available < 1
  | .unsubscribe _ _ copied => ¬ s.Accepts copied
  | e => e.ends = true → s.client.tcp.pending = []

instance (s : MqttSession) : (e : Event) → Decidable (s.Plain e)
  | .publish _ _ _ copied => inferInstanceAs (Decidable (s.Accepts copied → _ ∧ _))
  | .publishStream _ _ _ copied => inferInstanceAs (Decidable (s.Accepts copied → _))
  | .unsubscribe _ _ copied => inferInstanceAs (Decidable (¬ s.Accepts copied))
  | .connect .. | .subscribe .. | .onConnected .. | .onTcpReceive .. | .ready .. | .close | .onError =>
    inferInstanceAs (Decidable (_ = true → _ = []))

variable {s : MqttSession} {m : MqttMessage}

lemma operations_enqueue (operation : Operation)
    (call : m.isOperation = true) : (s.answered operation (s.client.enqueue m)).operations =
      if s.client.requestQueue.toList.length < mqttRequestPoolSize then s.operations ++ [m.meaning]
      else s.operations := by
  have queue : (s.answered operation (s.client.enqueue m)).client.requestQueue.toList =
      if s.client.requestQueue.toList.length < mqttRequestPoolSize then s.client.requestQueue.toList ++ [m]
      else s.client.requestQueue.toList := s.client.requestQueue.enqueue_toList m
  rw [operations, queue]
  split
  · rw [filter_append, filter_cons_of_pos call, map_append, ← List.append_assoc]
    rfl
  · rfl

variable {operation : Operation} {packet : Option MqttPacket}

lemma Asks.enqueue (h : s.Asks) (call : m.isOperation = true) (means : s.Accepts true → m.meaning = some operation) :
    (s.answered operation (s.client.enqueue m)).Asks := by
  have accepted : (s.answered operation (s.client.enqueue m)).accepted =
      if s.client.requestQueue.toList.length < mqttRequestPoolSize then s.accepted ++ [operation]
      else s.accepted := by
    simp [answered, MqttClient.enqueue]
  rw [Asks, operations_enqueue operation call, accepted]
  split
  case isTrue room =>
    rw [map_append, h, means ⟨rfl, room⟩]
    rfl
  case isFalse => exact h

variable {codec : MqttCodec} {t : MqttSession} {e : Event}

/-- A plain call asks for what it was made for. -/
lemma Asks.called (h : s.Asks) (plain : s.Plain e) (call : e.isCall = true) (next : s.step codec e = some t) :
    t.Asks := by
  cases e with
  | publish topic content flags copied =>
    cases next
    cases copied with
    | false => exact h
    | true =>
      refine h.enqueue rfl fun accepts => ?_
      obtain ⟨some, proper⟩ := plain accepts
      exact MqttClient.meaning_publish topic some proper
  | publishStream topic stream flags copied =>
    cases next
    rw [MqttClient.publishStream]
    split
    case isTrue => exact h
    case isFalse large =>
      cases copied with
      | false => exact h
      | true => exact h.enqueue rfl fun accepts => absurd (plain accepts) large
  | subscribe topic copied =>
    cases next
    cases copied with
    | false => exact h
    | true => exact h.enqueue rfl fun _ => MqttClient.meaning_subscribe topic
  | unsubscribe topic behind copied =>
    cases next
    cases copied with
    | false => exact h
    | true => exact h.enqueue rfl fun accepts => absurd accepts plain
  | _ => cases call

variable {client : MqttClient}

lemma operations_pass {tcp : TcpClient} (passed : MqttClient.Passed codec { s.client with tcp } client packet) :
    operations { s with client := client, packets := s.packets ++ packet.toList } = s.operations := by
  cases passed with
  | busy | idle =>
    rw [operations, operations, toList_none, begun, append_nil]
    rfl
  | @taken m m' requestQueue _ prepared _ taken =>
    obtain ⟨type, -⟩ := MqttClient.prepare_type prepared
    have kind : m'.isOperation = m.isOperation := by
      rw [MqttMessage.isOperation, MqttMessage.isOperation, type]
    have begun' (client : MqttClient) : begun { s with client := client, packets := s.packets ++
        [(codec.packet s.client.sequence m').1] } = s.begun ++ [m'] := by
      simp [begun, MqttCodec.packet_message]
    rw [operations, operations, toList_some, begun', filter_append, map_append, List.append_assoc]
    rcases taken with taken | ⟨empty, empty', ping⟩
    · rw [taken]
      cases call : m.isOperation with
      | true =>
        rw [filter_cons_of_pos call, filter_cons_of_pos (kind.trans call), map_cons,
          map_cons, MqttMessage.meaning, prepared]
        rfl
      | false =>
        have no : ¬ m.isOperation = true := by rw [call]; nofun
        have no' : ¬ m'.isOperation = true := by rw [kind]; exact no
        rw [filter_cons_of_neg no, filter_cons_of_neg no']
        rfl
    · have no : ¬ m'.isOperation = true := by
        rw [MqttMessage.isOperation, type, ping]
        nofun
      rw [empty, empty', filter_cons_of_neg no]
      rfl

lemma operations_pushed (s : MqttSession) (lwip : Lwip) : (s.pushed lwip).operations = s.operations := rfl

lemma operations_moved (move : Moved codec s e t) : t.operations = s.operations ∧ t.accepted = s.accepted := by
  cases move with
  | kept | stopped => exact ⟨rfl, rfl⟩
  | opened =>
    refine ⟨?_, rfl⟩
    simp only [operations, MqttSession.opened, ObjectQueue.enqueue_toList, begun, append_nil]
    split
    · rw [filter_append, filter_cons_of_neg Bool.false_ne_true, filter_nil, append_nil]
    · rfl
  | passed _ _ _ _ passed =>
    refine ⟨?_, rfl⟩
    rw [operations_pushed]
    exact operations_pass passed

/-! ### The bytes of all connections -/

lemma earlierBytes_opened (s : MqttSession) : (((s.earlier ++ s.packets).map MqttPacket.bytes).flatten) =
    s.earlierBytes ++ s.bytes := by
  rw [map_append, flatten_append]
  rfl

lemma pushed_client (s : MqttSession) (lwip : Lwip) :
    (s.pushed lwip).client = { s.client with tcp := (s.client.tcp.pushAsyncPart lwip).1 } := rfl

lemma pushed_isProcessing (s : MqttSession) (lwip : Lwip) :
    (s.pushed lwip).client.tcp.isProcessing = s.client.tcp.isProcessing := by
  obtain ⟨stream, e⟩ := s.client.tcp.pushAsyncPart_eq lwip
  rw [pushed_client, e]
  rfl

lemma Settled.pending_eq_nil (h : s.Settled) (idle : s.client.tcp.isProcessing = false) : s.client.tcp.pending = [] := by
  rw [TcpClient.pending, h.idle idle]
  rfl

/-- While a connection is in use, the law for all connections is the one for those before. -/
lemma Settled.carried_iff (h : s.Settled) (processing : s.client.tcp.isProcessing = true) :
    s.Carried ↔ s.writtenEarlier = s.earlierBytes := by
  rw [Carried, List.append_assoc, h.active processing, append_left_inj]

/-- The law survives an event that does not end a connection with bytes in the stream. -/
lemma Carried.moved (law : s.Carried) (h : s.Settled) (all : e.ends = true → s.client.tcp.pending = [])
    (move : Moved codec s e t) : t.Carried := by
  have settled := h.moved move
  have whole (ends : e.ends = true) : s.writtenEarlier ++ s.written = s.earlierBytes ++ s.bytes := by
    rwa [Carried, all ends, append_nil] at law
  cases move with
  | kept => exact law
  | stopped ends stopped =>
    rw [Carried, settled.pending_eq_nil stopped, append_nil]
    exact whole ends
  | @opened tcp _ _ _ _ _ ends stopped =>
    have processing : tcp.connect.isProcessing = true := by
      rw [TcpClient.connect, stopped]
      rfl
    rw [settled.carried_iff processing]
    exact (whole ends).trans s.earlierBytes_opened.symm
  | passed stays same processing processing' passed =>
    rw [settled.carried_iff]
    · exact (h.carried_iff processing').mp law
    · rw [pushed_isProcessing, TcpClient.isProcessing, passed.tcp_state]
      exact processing

lemma Conforms.step (conforms : s.Conforms) (h : s.Settled) (plain : s.Plain e) (next : s.step codec e = some t) :
    t.Conforms := by
  cases call : e.isCall with
  | true =>
    refine ⟨conforms.1.called plain call next, ?_⟩
    obtain ⟨operation, r, calls, rfl⟩ := step_called call next
    cases calls <;> exact conforms.2
  | false =>
    have move := step_moved call next
    obtain ⟨operations, accepted⟩ := operations_moved move
    refine ⟨?_, conforms.2.moved h ?_ move⟩
    · rw [Asks, operations, accepted]
      exact conforms.1
    · cases e with
      | publish | publishStream | subscribe | unsubscribe => cases call
      | _ => exact plain

lemma Asks.prepare_isSome (h : s.Asks)
    (mem : m ∈ s.client.requestQueue.toList) : (MqttClient.prepare m).isSome := by
  cases call : m.isOperation with
  | true =>
    have known : m.meaning ∈ s.operations :=
      mem_append_right _ (List.mem_map_of_mem (mem_filter.mpr ⟨mem, call⟩))
    rw [h] at known
    obtain ⟨operation, -, e⟩ := List.mem_map.mp known
    obtain ⟨m', prepared, -⟩ := bind_eq_some_iff.mp e.symm
    rw [prepared]
    rfl
  | false =>
    rw [MqttClient.prepare]
    split
    case h_1 type _ =>
      rw [MqttMessage.isOperation, type] at call
      cases call
    case h_2 => rfl

def packetIds (s : MqttSession) : List UInt16 :=
  ((s.earlier ++ s.packets).filter fun packet => packet.message.carriesId).map MqttPacket.id

/-- The first `n` identifiers that the serialiser gives. -/
def numbers (n : Nat) : List UInt16 := (range n).map fun k => UInt16.ofNat (k + 1)

lemma numbers_succ (n : Nat) : numbers (n + 1) = numbers n ++ [UInt16.ofNat (n + 1)] := by
  rw [numbers, range_succ, map_append]
  rfl

lemma numbers_getElem?_iff {n i : Nat} {x : UInt16} :
    (numbers n)[i]? = some x ↔ i < n ∧ x = UInt16.ofNat (i + 1) := by
  rw [numbers, getElem?_map]
  by_cases lt : i < n
  · rw [getElem?_range lt]
    simp [lt, eq_comm]
  · rw [getElem?_eq_none (by simpa using lt)]
    simp [lt]

/-- No identifier is 0, and none is that of another packet that waits for its acknowledgement. -/
def Identified (acknowledged : Nat → Prop) (ids : List UInt16) : Prop :=
  ∀ (i : Nat) x, ids[i]? = some x → x ≠ 0 ∧ ∀ j, ids[j]? = some x → j ≠ i → acknowledged j

/-- The counter gives 0 at the 65536th packet, before any identifier comes again. -/
lemma numbers_identified_iff (acknowledged : Nat → Prop) (n : Nat) :
    Identified acknowledged (numbers n) ↔ n < 65536 := by
  constructor
  · intro good
    by_contra many
    have zero : (numbers n)[65535]? = some 0 := numbers_getElem?_iff.mpr ⟨Nat.not_lt.mp many, rfl⟩
    exact (good 65535 0 zero).1 rfl
  · intro few i x e
    obtain ⟨lt, rfl⟩ := numbers_getElem?_iff.mp e
    refine ⟨?_, ?_⟩
    · rw [Ne, ← UInt16.toNat_inj, UInt16.toNat_ofNat']
      show ¬ (i + 1) % 65536 = 0
      omega
    · intro j e' ne
      obtain ⟨lt', same⟩ := numbers_getElem?_iff.mp e'
      have same := congrArg UInt16.toNat same
      rw [UInt16.toNat_ofNat', UInt16.toNat_ofNat'] at same
      omega

/-- The messages in the queue leave the identifier to the serialiser, which counts. -/
structure Numbered (s : MqttSession) : Prop where
  queue : ∀ m ∈ s.client.requestQueue.toList, m.carriesId = true → m.body.messageId = 0
  ids : s.packetIds = numbers s.packetIds.length
  sequence : s.client.sequence = UInt32.ofNat s.packetIds.length

lemma Numbered.enqueue (h : s.Numbered) (zero : m.carriesId = true → m.body.messageId = 0) :
    ∀ p ∈ (s.client.requestQueue.enqueue m).1.toList, p.carriesId = true → p.body.messageId = 0 := by
  rw [ObjectQueue.enqueue_toList]
  split
  · intro p mem
    rcases mem_append.mp mem with mem | mem
    · exact h.queue p mem
    · rw [mem_singleton.mp mem]
      exact zero
  · exact h.queue

lemma packet_id (codec : MqttCodec) (n : Nat) (zero : m.carriesId = true → m.body.messageId = 0) :
    (codec.packet (UInt32.ofNat n) m).2 = UInt32.ofNat (if m.carriesId then n + 1 else n) ∧
      (m.carriesId = true → (codec.packet (UInt32.ofNat n) m).1.id = UInt16.ofNat (n + 1)) := by
  have next : UInt32.ofNat n + 1 = UInt32.ofNat (n + 1) := (UInt32.ofNat_add n 1).symm
  rw [MqttCodec.packet]
  split
  case isTrue carries =>
    rw [zero carries, writeId, if_pos rfl, next]
    exact ⟨rfl, fun _ => UInt32.toUInt16_ofNat' _⟩
  case isFalse no => exact ⟨rfl, fun carries => absurd carries no⟩

lemma prepare_id {m' : MqttMessage} (h : MqttClient.prepare m = some m') :
    m'.carriesId = m.carriesId ∧ m'.body.messageId = m.body.messageId := by
  rw [MqttClient.prepare] at h
  split at h
  case h_1 type body =>
    split at h
    · split at h
      · cases h
      · simp only at h
        split at h
        · cases h
          refine ⟨rfl, ?_⟩
          rw [body]
          rfl
        · cases h
    · cases h
      exact ⟨rfl, rfl⟩
  case h_2 =>
    cases h
    exact ⟨rfl, rfl⟩

lemma Numbered.pass (h : s.Numbered) {tcp : TcpClient}
    (passed : MqttClient.Passed codec { s.client with tcp } client packet) :
    Numbered { s with client := client, packets := s.packets ++ packet.toList } := by
  cases passed with
  | busy | idle =>
    rw [toList_none, append_nil]
    exact ⟨h.queue, h.ids, h.sequence⟩
  | @taken m m' requestQueue _ prepared _ taken =>
    obtain ⟨carries, id⟩ := prepare_id prepared
    have zero : m'.carriesId = true → m'.body.messageId = 0 := by
      rw [carries, id]
      rcases taken with taken | ⟨-, -, ping⟩
      · exact h.queue m (by rw [taken]; exact mem_cons_self)
      · rw [MqttMessage.carriesId, ping]
        nofun
    obtain ⟨count, number⟩ := packet_id codec s.packetIds.length zero
    have left : ∀ p ∈ requestQueue.toList, p.carriesId = true → p.body.messageId = 0 := by
      rcases taken with taken | ⟨-, empty, -⟩
      · exact fun p mem => h.queue p (by rw [taken]; exact mem_cons_of_mem _ mem)
      · rw [empty]
        exact fun p mem => absurd mem not_mem_nil
    have ids (client : MqttClient) : packetIds { s with client := client, packets := s.packets ++
        [(codec.packet (UInt32.ofNat s.packetIds.length) m').1] } =
        s.packetIds ++ if m'.carriesId then [UInt16.ofNat (s.packetIds.length + 1)] else [] := by
      rw [packetIds, ← List.append_assoc, filter_append, map_append]
      cases no : m'.carriesId with
      | true =>
        rw [filter_cons_of_pos (by rw [MqttCodec.packet_message, no]), map_cons, number no]
        rfl
      | false =>
        rw [filter_cons_of_neg (by rw [MqttCodec.packet_message, no]; nofun)]
        rfl
    simp only [toList_some, h.sequence]
    cases no : m'.carriesId with
    | true =>
      simp only [no, if_true] at ids count
      refine ⟨left, ?_, ?_⟩
      · rw [ids, List.length_append, List.length_singleton, numbers_succ, ← h.ids]
      · rw [ids, List.length_append, List.length_singleton]
        exact count
    | false =>
      simp only [no, Bool.false_eq_true, if_false, append_nil] at ids count
      refine ⟨left, ?_, ?_⟩
      · rw [ids]
        exact h.ids
      · rw [ids]
        exact count

lemma Numbered.step (h : s.Numbered) (next : s.step codec e = some t) : t.Numbered := by
  cases call : e.isCall with
  | true =>
    obtain ⟨operation, r, calls, rfl⟩ := step_called call next
    cases calls with
    | refused => exact ⟨h.queue, h.ids, h.sequence⟩
    | queued m _ zero => exact ⟨h.enqueue fun _ => zero, h.ids, h.sequence⟩
  | false =>
    have move := step_moved call next
    cases move with
    | kept | stopped => exact ⟨h.queue, h.ids, h.sequence⟩
    | opened =>
      have ids (client : MqttClient) : (s.opened (client, true)).packetIds = s.packetIds := by
        rw [packetIds, MqttSession.opened, append_nil]
        rfl
      refine ⟨h.enqueue fun carries => (by cases carries), ?_, ?_⟩
      · rw [ids]
        exact h.ids
      · rw [ids]
        exact h.sequence
    | passed _ _ _ _ passed =>
      have numbered := h.pass passed
      exact ⟨numbered.queue, numbered.ids, numbered.sequence⟩

lemma numbered_run {es} (run : Run (step codec) Always {} es s) : s.Numbered := by
  apply run.invariant
  · exact ⟨nofun, rfl, rfl⟩
  · exact fun h _ next => h.step next

/-- The messages of a run are queued without an identifier and numbered from 1 on by the serialiser. Whatever the server
has acknowledged, the identifiers are good exactly as long as there are fewer than 65536: the next one is 0. -/
theorem identified_iff {codec : MqttCodec} {es s} (run : Run (step codec) Always {} es s)
    (acknowledged : Nat → Prop) :
    (∀ m ∈ s.client.requestQueue.toList, m.carriesId = true → m.body.messageId = 0) ∧
      s.packetIds = numbers s.packetIds.length ∧
      (Identified acknowledged s.packetIds ↔ s.packetIds.length < 65536) := by
  have h := numbered_run run
  have good := numbers_identified_iff acknowledged s.packetIds.length
  rw [← h.ids] at good
  exact ⟨h.queue, h.ids, good⟩

theorem identified_iff_two : ∃ s, Run (step mqttSerialiser) Always {}
    [connectTo [99], .onConnected true 5 (Session.Room 100), .subscribe [97] true, .publish [97] [98] 2 true,
      .ready 6 (Session.Room 100), .ready 7 (Session.Room 100)] s ∧
    s.packetIds.length = 2 ∧ Identified (fun _ => False) s.packetIds :=
  exists_run (fun s => s.packetIds.length = 2) (by decide +kernel) fun _ run two =>
    ⟨two, (identified_iff run fun _ => False).2.2.mpr (by rw [two]; decide)⟩

/-! ### A session with many subscriptions -/

/-- The connection is there, all packets begun are written, and `queue` waits. -/
def Listening (s : MqttSession) (queue : List MqttMessage) : Prop :=
  s.client.tcp.state = .connected ∧ s.client.tcp.canSend = true ∧ s.client.tcp.stream = none ∧
    s.client.requestQueue.toList = queue

instance (s : MqttSession) (queue) : Decidable (s.Listening queue) := inferInstanceAs (Decidable (_ ∧ _))

def topicMessage : MqttMessage := { type := .subscribe, body := .subscribe 0 [{ name := [97] }] }

lemma topicMessage_length (id : UInt16) : (mqttSerialiser.encode topicMessage id).length = 8 := by
  simp [mqttSerialiser, MqttMessage.writeBody, topicMessage, MqttMessage.idBytes, MqttBody.topicPairs,
    MqttMessage.writeString, MqttMessage.writeLength, MqttMessage.packetSize]

/-- The send buffer has room for the whole packet. -/
lemma push_topic {tcp : TcpClient} (canSend : tcp.canSend = true) (id : UInt16) :
    (TcpClient.pushAsyncPart
      { tcp with stream := some (MqttClient.packetStream (mqttSerialiser.encode topicMessage id)) }
      (Session.Room 100)).1 = { tcp with stream := none } := by
  obtain ⟨wf, unread⟩ := packetStream_spec (mqttSerialiser.encode topicMessage id)
  have written : (TcpConnection.writeStream true
      (MqttClient.packetStream (mqttSerialiser.encode topicMessage id)) (Session.Room 100)).2.1.unread = [] := by
    apply TcpConnection.writeStream_all MemoryDataStream.full wf
    rw [unread, topicMessage_length]
    decide
  have wf' := (TcpConnection.writeStream_spec MemoryDataStream.lawful true wf (Session.Room 100)).1
  rw [TcpClient.pushAsyncPart]
  simp only [canSend]
  rw [if_pos (wf'.isFinished_iff.mpr written)]

lemma Listening.subscribe (h : s.Listening []) : ∃ t, s.step mqttSerialiser (.subscribe [97] true) = some t ∧
    t.Listening [topicMessage] ∧ t.packetIds = s.packetIds := by
  obtain ⟨connected, canSend, none, empty⟩ := h
  refine ⟨_, rfl, ⟨connected, canSend, none, ?_⟩, rfl⟩
  have room : ([] : List MqttMessage).length < mqttRequestPoolSize := by decide
  show (s.client.requestQueue.enqueue topicMessage).1.toList = [topicMessage]
  rw [ObjectQueue.enqueue_toList, empty, if_pos room]
  rfl

lemma Listening.ready (h : s.Listening [topicMessage]) :
    ∃ t, s.step mqttSerialiser (.ready 0 (Session.Room 100)) = some t ∧
      t.Listening [] ∧ t.packetIds.length = s.packetIds.length + 1 := by
  obtain ⟨connected, canSend, none, queue⟩ := h
  have known : ∀ m ∈ s.client.requestQueue.toList, (MqttClient.prepare m).isSome := by
    rw [queue]
    intro m mem
    rw [mem_singleton.mp mem]
    rfl
  obtain ⟨⟨client, packet⟩, pass⟩ :=
    isSome_iff_exists.mp (@MqttClient.pass_isSome _ mqttSerialiser 0 known)
  have processing : s.client.tcp.isProcessing = true ∧ s.client.tcp.canSend = true := by
    rw [TcpClient.isProcessing, connected, canSend]
    exact ⟨rfl, rfl⟩
  refine ⟨pushed { s with client := client, packets := s.packets ++ packet.toList } (Session.Room 100), ?_, ?_⟩
  · rw [step, if_pos processing, onReadyToSendData, pass]
    rfl
  cases MqttClient.pass_passed pass with
  | busy _ some => cases none.symm.trans some
  | idle _ nil => cases queue.symm.trans nil
  | @taken _ _ requestQueue _ prepared _ taken =>
    rw [queue] at taken
    obtain ⟨rfl, left⟩ : _ = topicMessage ∧ requestQueue.toList = [] := by
      rcases taken with taken | ⟨nil, -⟩
      · obtain ⟨same, left⟩ := List.cons.inj taken
        exact ⟨same.symm, left.symm⟩
      · cases nil
    cases prepared
    have pushed := push_topic canSend (writeId s.client.sequence 0).1
    refine ⟨?_, ?_⟩
    · rw [Listening, pushed_client]
      exact ⟨(congrArg _ pushed).trans connected, (congrArg _ pushed).trans canSend, congrArg _ pushed, left⟩
    · show (((s.earlier ++ (s.packets ++ [_])).filter _).map MqttPacket.id).length = _
      rw [← List.append_assoc, filter_append, map_append, List.length_append]
      rfl

lemma exists_run_ids (n : Nat) : ∃ es s, Run (step mqttSerialiser) Always {} es s ∧ s.Listening [] ∧
    s.packetIds.length = n := by
  induction n with
  | zero =>
    refine ⟨[connectTo [99], .onConnected true 5 (Session.Room 100)], ?_⟩
    exact exists_run (fun s => s.Listening [] ∧ s.packetIds.length = 0) (by decide +kernel) fun _ _ h => h
  | succ n ih =>
    obtain ⟨es, s, run, listening, ids⟩ := ih
    obtain ⟨t, called, waiting, same⟩ := listening.subscribe
    obtain ⟨u, ready, listening', more⟩ := waiting.ready
    exact ⟨_, u, (run.snoc trivial called).snoc trivial ready, listening', by rw [more, same, ids]⟩

/-- After 65536 subscriptions a packet with the identifier 0 is on the wire. -/
theorem ids_wrap : ¬ ∀ codec es s acknowledged, Run (step codec) Always {} es s →
    Identified acknowledged s.packetIds := by
  intro all
  obtain ⟨es, s, run, -, ids⟩ := exists_run_ids 65536
  have good := all _ es s (fun _ => False) run
  rw [(numbered_run run).ids, numbers_identified_iff, ids] at good
  exact absurd good (Nat.lt_irrefl _)

end MqttSession

end Sming.Network
