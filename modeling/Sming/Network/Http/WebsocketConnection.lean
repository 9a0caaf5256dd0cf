import Mathlib.Data.List.Basic

/-!
# Receiving websocket frames

Embedding of the parser callbacks of `Sming/SmingCore/Network/Http/Websocket/WebsocketConnection.cpp`. They come from
`ws_parser`: a data message is one `dataBegin`, the pieces of its frames, and one `dataEnd`; control frames may stand
between its frames. The TCP segments cut the payload of a frame into nonempty pieces; the statements are about all
frames with all such cuts.

Both message handlers are set; what they are called with is in `messages`. The frames that the connection sends on its
own are in `sent`.
-/

namespace Sming.Network.Http
open List

/-- (C++ `WS_FRAME_TEXT`, `WS_FRAME_BINARY`.) -/
inductive DataType where
  | text
  | binary
  deriving Repr, DecidableEq

/-- (C++ `WS_FRAME_CLOSE`, `WS_FRAME_PING`, `WS_FRAME_PONG`.) -/
inductive ControlType where
  | close
  | ping
  | pong
  deriving Repr, DecidableEq

abbrev Piece := { bytes : List UInt8 // bytes ≠ [] }

def payload (pieces : List Piece) : List UInt8 := (pieces.map Subtype.val).flatten

/-- A control frame. The parser refuses one with more than 125 bytes. -/
structure ControlFrame where
  type : ControlType
  pieces : List Piece
  short : (payload pieces).length ≤ 125

/-- A continuation frame with the control frames before it. -/
structure Fragment where
  before : List ControlFrame
  pieces : List Piece

structure WsMessage where
  type : DataType
  first : List Piece
  fragments : List Fragment

inductive WsItem where
  | control (frame : ControlFrame)
  | message (message : WsMessage)

/-- (C++ `ws_parser_callbacks_t`.) -/
inductive WsCallback where
  | dataBegin (type : DataType)
  | dataPayload (data : List UInt8)
  | dataEnd
  | controlBegin (type : ControlType)
  | controlPayload (data : List UInt8)
  | controlEnd
  deriving Repr, DecidableEq

/-! ### The connection -/

/-- The fields of `WebsocketConnection` that the callbacks use, and what they did. -/
structure WebsocketConnection where
  isClientConnection : Bool
  closed : Bool := false
  connection : Bool := true
  activated : Bool := true
  frameType : DataType := .text
  controlType : ControlType := .close
  controlPayload : List UInt8 := []
  messages : List (DataType × List UInt8) := []
  sent : List (ControlType × List UInt8) := []
  deriving Repr, DecidableEq

namespace WebsocketConnection

variable (c : WebsocketConnection)

/-- (C++ `WebsocketConnection::send`); `encodeFrame` refuses a payload of more than 65535 bytes. The frames sent here are
control frames, far shorter than the 16-bit length of `TcpClient::send` allows. -/
def send (type : ControlType) (message : List UInt8) : WebsocketConnection :=
  if !c.connection then c
  else if !c.activated then c
  else if 0xFFFF < message.length then c
  else { c with sent := c.sent ++ [(type, message)] }

def close : WebsocketConnection :=
  if c.closed then { c with connection := false }
  else
    let d := { c with closed := true }
    { (if d.isClientConnection then d.send .close [] else d) with activated := false, connection := false }

/-- (C++ `staticOnDataBegin` to `staticOnControlEnd`.) -/
def on : WsCallback → WebsocketConnection
  | .dataBegin type => { c with frameType := type }
  | .dataPayload data => { c with messages := c.messages ++ [(c.frameType, data)] }
  | .dataEnd => c
  | .controlBegin type =>
    let c := { c with controlType := type, controlPayload := [] }
    if type = .close then c.close else c
  | .controlPayload data => { c with controlPayload := data }
  | .controlEnd => if c.controlType = .ping then c.send .pong c.controlPayload else c

def run (callbacks : List WsCallback) : WebsocketConnection := callbacks.foldl on c

def pongs : List (List UInt8) :=
  (c.sent.filter fun frame => frame.1 = .pong).map Prod.snd

def isOpen : Bool := c.connection && c.activated

lemma run_append (first second : List WsCallback) :
    c.run (first ++ second) = (c.run first).run second := foldl_append

lemma run_cons (callback : WsCallback) (rest : List WsCallback) :
    c.run (callback :: rest) = (c.on callback).run rest := rfl

end WebsocketConnection

/-! ### What the peer sends, as callbacks -/

def ControlFrame.callbacks (f : ControlFrame) : List WsCallback :=
  .controlBegin f.type :: f.pieces.map (fun piece => .controlPayload piece.val) ++ [.controlEnd]

def Fragment.callbacks (f : Fragment) : List WsCallback :=
  (f.before.map ControlFrame.callbacks).flatten ++ f.pieces.map fun piece => .dataPayload piece.val

def WsMessage.callbacks (m : WsMessage) : List WsCallback :=
  .dataBegin m.type :: m.first.map (fun piece => .dataPayload piece.val) ++
    (m.fragments.map Fragment.callbacks).flatten ++ [.dataEnd]

def WsItem.callbacks : WsItem → List WsCallback
  | .control frame => frame.callbacks
  | .message m => m.callbacks

def WsMessage.pieces (m : WsMessage) : List Piece := m.first ++ (m.fragments.map Fragment.pieces).flatten

def WsItem.controls : WsItem → List ControlFrame
  | .control frame => [frame]
  | .message m => (m.fragments.map Fragment.before).flatten

def WsItem.messages : WsItem → List WsMessage
  | .control _ => []
  | .message m => [m]

/-! ### What the callbacks do -/

namespace WebsocketConnection

def kept (pieces : List Piece) : List UInt8 := (pieces.getLast?.map Subtype.val).getD []

def answer (isOpen : Bool) (f : ControlFrame) : List (List UInt8) :=
  if isOpen = true ∧ f.type = .ping then [kept f.pieces] else []

def answers : Bool → List ControlFrame → List (List UInt8)
  | _, [] => []
  | isOpen, f :: rest => answer isOpen f ++ answers (isOpen && f.type != .close) rest

/-- What callbacks did to a connection: the calls of the handlers, the PONG frames, and whether frames can
still be sent. -/
structure Received (c d : WebsocketConnection) (messages : List (DataType × List UInt8))
    (controls : List ControlFrame) : Prop where
  messages : d.messages = c.messages ++ messages
  pongs : d.pongs = c.pongs ++ answers c.isOpen controls
  isOpen : d.isOpen = (c.isOpen && controls.all fun f => f.type != .close)

structure Went (c d : WebsocketConnection) (messages : List (DataType × List UInt8))
    (controls : List ControlFrame) : Prop extends Received c d messages controls where
  frameType : d.frameType = c.frameType

lemma answers_append (isOpen : Bool) (first second : List ControlFrame) :
    answers isOpen (first ++ second) =
      answers isOpen first ++ answers (isOpen && first.all fun f => f.type != .close) second := by
  induction first generalizing isOpen with
  | nil => simp [answers]
  | cons f rest ih =>
    rw [cons_append, answers, answers, ih, List.append_assoc, all_cons, Bool.and_assoc]

variable {c d : WebsocketConnection}

lemma Received.trans {e : WebsocketConnection} {messages messages' controls controls'}
    (h : Received c d messages controls) (h' : Received d e messages' controls') :
    Received c e (messages ++ messages') (controls ++ controls') := by
  refine ⟨?_, ?_, ?_⟩
  · rw [h'.messages, h.messages, List.append_assoc]
  · rw [h'.pongs, h.pongs, h.isOpen, answers_append, List.append_assoc]
  · rw [h'.isOpen, h.isOpen, all_append, Bool.and_assoc]

lemma Went.refl (c : WebsocketConnection) : Went c c [] [] := by
  refine ⟨⟨(append_nil _).symm, (append_nil _).symm, ?_⟩, rfl⟩
  rw [all_nil, Bool.and_true]

lemma Went.trans {e : WebsocketConnection} {messages messages' controls controls'}
    (h : Went c d messages controls) (h' : Went d e messages' controls') :
    Went c e (messages ++ messages') (controls ++ controls') :=
  ⟨h.toReceived.trans h'.toReceived, h'.frameType.trans h.frameType⟩

lemma run_dataPayload (c : WebsocketConnection) (pieces : List Piece) :
    Went c (c.run (pieces.map fun piece => .dataPayload piece.val))
      (pieces.map fun piece => (c.frameType, piece.val)) [] := by
  induction pieces generalizing c with
  | nil => exact Went.refl c
  | cons piece rest ih =>
    have one : Went c (c.on (.dataPayload piece.val)) [(c.frameType, piece.val)] [] := by
      refine ⟨⟨rfl, (append_nil _).symm, ?_⟩, rfl⟩
      rw [all_nil, Bool.and_true]
      rfl
    exact one.trans (ih _)

lemma run_controlPayload (c : WebsocketConnection) (pieces : List Piece) :
    c.run (pieces.map fun piece => .controlPayload piece.val) =
      { c with controlPayload := (pieces.getLast?.map Subtype.val).getD c.controlPayload } := by
  induction pieces generalizing c with
  | nil => rfl
  | cons piece rest ih =>
    rw [map_cons, run_cons, ih, getLast?_cons]
    cases rest.getLast? with
    | none => rfl
    | some last => rfl

lemma send_of_isOpen (h : c.isOpen = true) (type : ControlType)
    {message : List UInt8} (short : message.length ≤ 0xFFFF) :
    c.send type message = { c with sent := c.sent ++ [(type, message)] } := by
  obtain ⟨connection, activated⟩ := (Bool.and_eq_true _ _).mp h
  rw [send, connection, activated, if_neg nofun, if_neg nofun, if_neg (Nat.not_lt.mpr short)]

lemma send_of_not_isOpen (h : c.isOpen = false) (type : ControlType)
    (message : List UInt8) : c.send type message = c := by
  rw [send]
  rcases (Bool.and_eq_false_iff).mp h with connection | activated
  · rw [if_pos (by rw [connection]; rfl)]
  · rw [@if_pos (!c.activated) _ (by rw [activated]; rfl), ite_self]

lemma send_close (c : WebsocketConnection) : (c.send .close []).frameType = c.frameType ∧
    (c.send .close []).controlType = c.controlType ∧ (c.send .close []).messages = c.messages ∧
    (c.send .close []).pongs = c.pongs := by
  cases h : c.isOpen with
  | true =>
    rw [send_of_isOpen h .close (Nat.zero_le _)]
    refine ⟨rfl, rfl, rfl, ?_⟩
    simp [pongs]
  | false =>
    rw [send_of_not_isOpen h]
    exact ⟨rfl, rfl, rfl, rfl⟩

lemma close_spec (c : WebsocketConnection) : c.close.frameType = c.frameType ∧
    c.close.controlType = c.controlType ∧ c.close.messages = c.messages ∧ c.close.pongs = c.pongs ∧
    c.close.isOpen = false := by
  rw [close]
  split
  · exact ⟨rfl, rfl, rfl, rfl, rfl⟩
  · obtain ⟨frameType, controlType, messages, pongs⟩ := send_close { c with closed := true }
    simp only
    split
    · exact ⟨frameType, controlType, messages, pongs, rfl⟩
    · exact ⟨rfl, rfl, rfl, rfl, rfl⟩

lemma length_kept_le (pieces : List Piece) : (kept pieces).length ≤ (payload pieces).length := by
  rw [kept]
  cases h : pieces.getLast? with
  | none => exact Nat.zero_le _
  | some last =>
    obtain ⟨front, rfl⟩ := getLast?_eq_some_iff.mp h
    simp [payload]

lemma run_control_eq {f : ControlFrame}
    (first : c.on (.controlBegin f.type) = d) : c.run f.callbacks = on { d with
      controlPayload := (f.pieces.getLast?.map Subtype.val).getD d.controlPayload } .controlEnd := by
  rw [ControlFrame.callbacks, cons_append, run_cons, run_append, run_controlPayload, first]
  rfl

lemma answers_singleton (isOpen : Bool) (f : ControlFrame) : answers isOpen [f] = answer isOpen f := by
  rw [answers, answers, append_nil]

section
variable (c : WebsocketConnection)

lemma run_control (f : ControlFrame) : Went c (c.run f.callbacks) [] [f] := by
  cases type : f.type with
  | close =>
    obtain ⟨frameType, controlType, messages, pongs, gone⟩ :=
      close_spec { c with controlType := .close, controlPayload := [] }
    have first : c.on (.controlBegin f.type) = close { c with controlType := .close, controlPayload := [] } := by
      rw [type]
      rfl
    generalize close { c with controlType := .close, controlPayload := [] } = d at *
    rw [run_control_eq first, on, if_neg (by rw [controlType]; nofun)]
    refine ⟨⟨?_, ?_, ?_⟩, frameType⟩
    · rw [append_nil]
      exact messages
    · rw [answers_singleton, answer, if_neg (by rw [type]; nofun), append_nil]
      exact pongs
    · have ends : (c.isOpen && [f].all fun f => f.type != .close) = false := by simp [type]
      exact gone.trans ends.symm
  | ping =>
    have first : c.on (.controlBegin f.type) = { c with controlType := .ping, controlPayload := [] } := by
      rw [type]
      rfl
    have short : (kept f.pieces).length ≤ 0xFFFF :=
      Nat.le_trans (length_kept_le f.pieces) (Nat.le_trans f.short (by decide))
    have same : (c.isOpen && [f].all fun f => f.type != .close) = c.isOpen := by simp [type]
    rw [run_control_eq first]
    show Went c (send { c with controlType := .ping, controlPayload := kept f.pieces } .pong (kept f.pieces)) [] [f]
    cases h : c.isOpen with
    | true =>
      rw [@send_of_isOpen { c with controlType := .ping, controlPayload := kept f.pieces } h .pong _ short]
      refine ⟨⟨(append_nil _).symm, ?_, same.symm⟩, rfl⟩
      rw [answers_singleton, answer, if_pos ⟨h, type⟩]
      simp [pongs]
    | false =>
      rw [@send_of_not_isOpen { c with controlType := .ping, controlPayload := kept f.pieces } h]
      refine ⟨⟨(append_nil _).symm, ?_, same.symm⟩, rfl⟩
      rw [answers_singleton, answer, if_neg (by rw [h]; nofun), append_nil]
      rfl
  | pong =>
    have first : c.on (.controlBegin f.type) = { c with controlType := .pong, controlPayload := [] } := by
      rw [type]
      rfl
    rw [run_control_eq first, on, if_neg nofun]
    refine ⟨⟨(append_nil _).symm, ?_, ?_⟩, rfl⟩
    · rw [answers_singleton, answer, if_neg (by rw [type]; nofun), append_nil]
      rfl
    · rw [all_cons, type]
      simp [isOpen]

lemma run_controls (controls : List ControlFrame) :
    Went c (c.run (controls.map ControlFrame.callbacks).flatten) [] controls := by
  induction controls generalizing c with
  | nil => exact Went.refl c
  | cons f rest ih =>
    rw [map_cons, flatten_cons, run_append]
    exact (c.run_control f).trans (ih _)

lemma run_fragments (fragments : List Fragment) :
    Went c (c.run (fragments.map Fragment.callbacks).flatten)
      ((fragments.map Fragment.pieces).flatten.map fun piece => (c.frameType, piece.val))
      (fragments.map Fragment.before).flatten := by
  induction fragments generalizing c with
  | nil => exact Went.refl c
  | cons f rest ih =>
    have controls := c.run_controls f.before
    have data := run_dataPayload (c.run (f.before.map ControlFrame.callbacks).flatten) f.pieces
    rw [controls.frameType] at data
    have fragment := controls.trans data
    rw [nil_append, append_nil, ← run_append, ← Fragment.callbacks] at fragment
    have more := ih (c.run f.callbacks)
    rw [fragment.frameType] at more
    rw [map_cons, map_cons, map_cons, flatten_cons, flatten_cons, flatten_cons, map_append, run_append]
    exact fragment.trans more

def deliveries (m : WsMessage) : List (DataType × List UInt8) := m.pieces.map fun piece => (m.type, piece.val)

lemma run_message (m : WsMessage) :
    Received c (c.run m.callbacks) (deliveries m) (m.fragments.map Fragment.before).flatten := by
  have first := run_dataPayload { c with frameType := m.type } m.first
  have more := run_fragments (run { c with frameType := m.type }
    (m.first.map fun piece => .dataPayload piece.val)) m.fragments
  rw [first.frameType] at more
  have whole := (first.trans more).toReceived
  rw [nil_append, ← run_append, ← map_append] at whole
  rw [WsMessage.callbacks, run_append, deliveries]
  exact ⟨whole.messages, whole.pongs, whole.isOpen⟩

def controls (items : List WsItem) : List ControlFrame := (items.map WsItem.controls).flatten

def wsMessages (items : List WsItem) : List WsMessage := (items.map WsItem.messages).flatten

lemma run_items (items : List WsItem) :
    Received c (c.run (items.map WsItem.callbacks).flatten) ((wsMessages items).map deliveries).flatten
      (controls items) := by
  induction items generalizing c with
  | nil => exact (Went.refl c).toReceived
  | cons item rest ih =>
    have one : Received c (c.run item.callbacks) (item.messages.map deliveries).flatten item.controls := by
      cases item with
      | control frame => exact (c.run_control frame).toReceived
      | message m =>
        rw [WsItem.messages, map_singleton, flatten_singleton]
        exact c.run_message m
    have both := one.trans (ih _)
    rw [← run_append, ← flatten_append, ← map_append] at both
    exact both

end

/-! ### What the application expects -/

lemma deliveries_ne_nil {messages : List WsMessage} {call : DataType × List UInt8}
    (mem : call ∈ (messages.map deliveries).flatten) : call.2 ≠ [] := by
  obtain ⟨calls, mem, call'⟩ := mem_flatten.mp mem
  obtain ⟨m, -, rfl⟩ := List.mem_map.mp mem
  obtain ⟨piece, -, rfl⟩ := List.mem_map.mp call'
  exact piece.property

lemma deliveries_eq_iff (messages : List WsMessage) :
    (messages.map deliveries).flatten = messages.map (fun m => (m.type, payload m.pieces)) ↔
      ∀ m ∈ messages, m.pieces.length = 1 := by
  induction messages with
  | nil => exact ⟨fun _ _ mem => absurd mem not_mem_nil, fun _ => rfl⟩
  | cons m rest ih =>
    rw [map_cons, map_cons, flatten_cons, forall_mem_cons, deliveries]
    match hp : m.pieces with
    | [] =>
      -- the empty message is not delivered, and nothing else that is empty
      constructor
      · intro e
        have mem : (m.type, payload []) ∈ (rest.map deliveries).flatten := by
          rw [map_nil, nil_append] at e
          rw [e]
          exact mem_cons_self
        exact absurd rfl (deliveries_ne_nil mem)
      · rintro ⟨len, -⟩
        cases len
    | [piece] =>
      have whole : payload [piece] = piece.val := append_nil _
      rw [whole, map_singleton, singleton_append, List.cons.injEq, ih]
      simp
    | piece :: piece' :: more =>
      constructor
      · intro e
        have short : piece.val = payload (piece :: piece' :: more) := (Prod.mk.inj (List.cons.inj e).1).2
        have len := congrArg List.length short
        have pos := length_pos_of_ne_nil piece'.property
        simp only [payload, map_cons, flatten_cons, List.length_append] at len
        omega
      · rintro ⟨len, -⟩
        simp at len

def pings (frames : List ControlFrame) : List (List UInt8) :=
  (frames.filter fun f => f.type = .ping).map fun f => payload f.pieces

lemma kept_eq_iff (pieces : List Piece) : kept pieces = payload pieces ↔ pieces.length ≤ 1 := by
  match pieces with
  | [] => simp [kept, payload]
  | [piece] => simp [kept, payload]
  | piece :: piece' :: more =>
    constructor
    · intro e
      -- the first piece is missing
      have len := congrArg List.length e
      have tail := length_kept_le (piece' :: more)
      have pos := length_pos_of_ne_nil piece.property
      rw [kept, getLast?_cons_cons, ← kept] at len
      rw [payload, map_cons, flatten_cons, List.length_append, ← payload] at len
      omega
    · intro len
      simp at len

lemma answers_false (frames : List ControlFrame) : answers false frames = [] := by
  induction frames with
  | nil => rfl
  | cons f rest ih =>
    rw [answers, answer, if_neg (by simp), Bool.false_and, ih]
    rfl

lemma answers_eq_iff (frames : List ControlFrame) :
    answers true frames = pings frames ↔ (∀ f ∈ frames, f.type = .ping → f.pieces.length ≤ 1) ∧
        ∀ f ∈ frames.dropWhile fun f => f.type ≠ .close, f.type ≠ .ping := by
  induction frames with
  | nil => simp [answers, pings]
  | cons f rest ih =>
    rw [answers, answer, pings, forall_mem_cons]
    cases type : f.type with
    | close =>
      have none : pings rest = [] ↔ ∀ g ∈ rest, g.type ≠ .ping := by simp [pings]
      rw [dropWhile_cons_of_neg (by simp [type]), filter_cons_of_neg (by simp [type]),
        if_neg nofun, ← pings, Bool.true_and, forall_mem_cons, type]
      simp only [bne_self_eq_false, answers_false, nil_append, reduceCtorEq, false_imp_iff, true_and,
        ne_eq, not_false_eq_true]
      rw [eq_comm, none]
      exact ⟨fun no => ⟨fun g mem ping => absurd ping (no g mem), no⟩, And.right⟩
    | ping =>
      rw [dropWhile_cons_of_pos (by simp [type]), filter_cons_of_pos (by simp [type]),
        if_pos ⟨rfl, rfl⟩, map_cons, ← pings, singleton_append, List.cons.injEq, kept_eq_iff]
      have still : (true && ControlType.ping != ControlType.close) = true := rfl
      rw [still, ih]
      simp [and_assoc]
    | pong =>
      rw [dropWhile_cons_of_pos (by simp [type]), filter_cons_of_neg (by simp [type]),
        if_neg nofun, ← pings, nil_append]
      have still : (true && ControlType.pong != ControlType.close) = true := rfl
      rw [still, ih]
      simp

def Delivered (isClientConnection : Bool) (items : List WsItem) : Prop :=
  (run { isClientConnection } (items.map WsItem.callbacks).flatten).messages =
      (wsMessages items).map (fun m => (m.type, payload m.pieces)) ∧
    (run { isClientConnection } (items.map WsItem.callbacks).flatten).pongs = pings (controls items)

instance (isClientConnection : Bool) (items : List WsItem) : Decidable (Delivered isClientConnection items) :=
  inferInstanceAs (Decidable (_ ∧ _))

/-- Exactly if every message and every PING reaches the callbacks in one piece, and no PING comes after a
CLOSE frame. -/
theorem delivered_iff (isClientConnection : Bool) (items : List WsItem) :
    Delivered isClientConnection items ↔ (∀ m ∈ wsMessages items, m.pieces.length = 1) ∧
        (∀ f ∈ controls items, f.type = .ping → f.pieces.length ≤ 1) ∧
          ∀ f ∈ (controls items).dropWhile fun f => f.type ≠ .close, f.type ≠ .ping := by
  have received := run_items { isClientConnection } items
  rw [Delivered, received.messages, received.pongs]
  exact and_congr (deliveries_eq_iff _) (answers_eq_iff _)

/-- A text of two bytes that two segments bring is delivered as two messages. -/
theorem split_message_delivered_twice : ¬ ∀ isClientConnection items, Delivered isClientConnection items := by
  intro all
  have cut := all false [.message { type := .text, first := [⟨[104], nofun⟩, ⟨[105], nofun⟩], fragments := [] }]
  revert cut
  decide +kernel

end WebsocketConnection

end Sming.Network.Http
