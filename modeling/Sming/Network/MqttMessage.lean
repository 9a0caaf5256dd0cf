import Mathlib.Algebra.Group.Nat.Defs
import Mathlib.Data.List.Basic

/-!
# MQTT messages

Embedding of the outgoing half of `Sming/third-party/mqtt-codec/src/message.h` and `serialiser.c`. An
`mqtt_message_t` is a union: its `type` says how the serialiser reads it, its `body` what was stored
in it, and the two need not agree.

A pointer of a message leads to a block of its own or to a stream object. What lies in memory at a
stream object, or behind a block, is part of the model, because the serialiser may read it.

How a message becomes bytes is a `MqttCodec`; `mqttSerialiser` is the one of the source. The packet
identifier is chosen outside of it, by `writeId`.
-/

namespace Sming.Network

/-- (C++ `mqtt_type_t`), as far as a client sends it. -/
inductive MqttType where
  | connect
  | publish
  | subscribe
  | unsubscribe
  | pingreq
  deriving Repr, DecidableEq

def MqttType.code : MqttType → UInt8
  | connect => 1
  | publish => 3
  | subscribe => 8
  | unsubscribe => 10
  | pingreq => 12

/-- A stream given to `publish`: what it says it has, what it would deliver, and the bytes in memory
from the address of the object on. -/
structure PayloadStream where
  available : Int
  content : List UInt8
  object : List UInt8
  deriving Repr, DecidableEq

inductive MqttData where
  | block (bytes : List UInt8)
  | stream (stream : PayloadStream)
  deriving Repr, DecidableEq

structure MqttBuffer where
  length : Nat
  data : MqttData
  deriving Repr, DecidableEq

structure MqttTopicPair where
  name : List UInt8
  qos : UInt8 := 0
  deriving Repr, DecidableEq

/-- An `mqtt_topic_t`, with the byte that lies where a topic pair has its `qos`: behind the block. -/
structure MqttTopic where
  name : List UInt8
  behind : UInt8
  deriving Repr, DecidableEq

/-- The member `connect` of the union, without the last will. -/
structure ConnectMessage where
  protocolName : List UInt8 := []
  protocolVersion : UInt8 := 4
  usernameFollows : Bool := false
  passwordFollows : Bool := false
  keepAlive : UInt16 := 0
  clientId : List UInt8 := []
  username : List UInt8 := []
  password : List UInt8 := []
  deriving Repr, DecidableEq

inductive MqttBody where
  | connect (message : ConnectMessage)
  | publish (topicName : List UInt8) (messageId : UInt16) (content : MqttBuffer)
  | subscribe (messageId : UInt16) (topics : List MqttTopicPair)
  | unsubscribe (messageId : UInt16) (topics : List MqttTopic)
  | pingreq
  deriving Repr, DecidableEq

/-- A QoS has two bits; this is about the zero that `Fin.ofNat` asks for. -/
instance neZero_qos : @NeZero Nat Zero.ofOfNat0 4 := ⟨by decide⟩

structure MqttMessage where
  retain : Bool := false
  qos : Fin 4 := 0
  dup : Bool := false
  type : MqttType
  body : MqttBody
  deriving Repr, DecidableEq

/-- The bytes that `memcpy` takes from a buffer. -/
def MqttBuffer.bytes (b : MqttBuffer) : List UInt8 :=
  match b.data with
  | .block bytes => bytes.take b.length
  | .stream stream => stream.object.take b.length

def MqttBuffer.readable (b : MqttBuffer) : Bool :=
  match b.data with
  | .block bytes => b.length ≤ bytes.length
  | .stream stream => b.length ≤ stream.object.length

/-- The topics as a SUBSCRIBE packet has them; those of an `unsubscribe` are read with the byte behind
the block. -/
def MqttBody.topicPairs : MqttBody → List (List UInt8 × UInt8)
  | .subscribe _ topics => topics.map fun topic => (topic.name, topic.qos)
  | .unsubscribe _ topics => topics.map fun topic => (topic.name, topic.behind)
  | _ => []

/-- The member `message_id`, where the message has one. -/
def MqttBody.messageId : MqttBody → UInt16
  | .publish _ id _ | .subscribe id _ | .unsubscribe id _ => id
  | _ => 0

namespace MqttMessage

/-- The packet of this message has a packet identifier. -/
def carriesId (m : MqttMessage) : Bool :=
  match m.type with
  | .subscribe | .unsubscribe => true
  | .publish => m.qos != 0
  | _ => false

def writeString (text : List UInt8) : List UInt8 :=
  UInt8.ofNat (text.length / 0xff) :: UInt8.ofNat text.length :: text

/-- The remaining length, seven bits a byte, with at most `rounds` bytes. -/
def writeLength : Nat → Nat → List UInt8
  | 0, _ => []
  | rounds + 1, n => UInt8.ofNat (n % 128) :: if n / 128 = 0 then [] else writeLength rounds (n / 128)

def idBytes (id : UInt16) : List UInt8 := [UInt8.ofNat (id.toNat / 256), UInt8.ofNat id.toNat]

def bit (b : Bool) (place : Nat) : Nat := if b then 2 ^ place else 0

def writeBody (m : MqttMessage) (id : UInt16) : List UInt8 :=
  match m.type, m.body with
  | .connect, .connect c =>
    writeString c.protocolName ++ [c.protocolVersion] ++
      [UInt8.ofNat (bit c.usernameFollows 7 + bit c.passwordFollows 6)] ++ idBytes c.keepAlive ++
      writeString c.clientId ++ (if c.usernameFollows then writeString c.username else []) ++
      if c.passwordFollows then writeString c.password else []
  | .publish, .publish topicName _ content =>
    writeString topicName ++ (if m.qos ≠ 0 then idBytes id else []) ++ content.bytes
  | .subscribe, body =>
    idBytes id ++ (body.topicPairs.map fun (name, qos) => writeString name ++ [qos]).flatten
  | .unsubscribe, body =>
    idBytes id ++ (body.topicPairs.map fun (name, _) => writeString name).flatten
  | _, _ => []

/-- The first byte of the packet; some types have a fixed `qos` there. -/
def firstByte (m : MqttMessage) : UInt8 :=
  let qos := if m.type = .subscribe ∨ m.type = .unsubscribe then 1 else m.qos.val
  UInt8.ofNat (bit m.retain 0 + 2 * qos + bit m.dup 3 + 16 * m.type.code.toNat)

/-- The size of the packet for a body of `length` bytes (C++ `mqtt_serialiser_size`). -/
def packetSize (length : Nat) : Nat :=
  let len := length + 1
  if len ≤ 127 then len + 1 else if len ≤ 16383 then len + 2
  else if len ≤ 2097151 then len + 3 else if len ≤ 268435455 then len + 4 else len

end MqttMessage

/-- A way to turn messages into packets, with the identifier for those that have one. -/
structure MqttCodec where
  encode : MqttMessage → UInt16 → List UInt8
  nonempty : ∀ m id, encode m id ≠ []

/-- (C++ `mqtt_serialiser_write`.) Where `mqtt_serialiser_size` counts more bytes than are written, the
last ones hold anything (here 0). -/
def mqttSerialiser : MqttCodec where
  encode m id :=
    let body := m.writeBody id
    let written := MqttMessage.writeLength 5 body.length ++ body
    m.firstByte :: (written ++ List.replicate (MqttMessage.packetSize body.length - written.length - 1) 0)
  nonempty _ _ := List.cons_ne_nil _ _

/-- The identifier that is written and the new value of `sequence`. -/
def writeId (sequence : UInt32) (id : UInt16) : UInt16 × UInt32 :=
  if id = 0 then ((sequence + 1).toUInt16, sequence + 1) else (id, sequence)

structure MqttPacket where
  message : MqttMessage
  id : UInt16
  bytes : List UInt8
  deriving Repr, DecidableEq

/-- Serialise a message, with the new value of `sequence`. -/
def MqttCodec.packet (codec : MqttCodec) (sequence : UInt32) (m : MqttMessage) : MqttPacket × UInt32 :=
  if m.carriesId then
    let (id, sequence) := writeId sequence m.body.messageId
    (⟨m, id, codec.encode m id⟩, sequence)
  else (⟨m, 0, codec.encode m 0⟩, sequence)

lemma MqttCodec.packet_message (codec : MqttCodec) (sequence : UInt32) (m : MqttMessage) :
    (codec.packet sequence m).1.message = m := by
  rw [MqttCodec.packet]
  split <;> rfl

end Sming.Network
