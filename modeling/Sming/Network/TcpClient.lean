import Sming.Lib.Run
import Sming.Network.TcpConnection

/-!
# The TCP client

Embedding of the sending side of `Sming/SmingCore/Network/TcpClient.cpp`. A client collects the data of its `send`
calls in one `MemoryDataStream` and pushes it into the send buffer of lwIP whenever the connection is ready. A `send`
made inside the `ready` delegate is a `send` event before the `onReadyToSendData` event.

`Session` adds what went in and what came out on the present TCP connection. The stream rewinds its cursor at every
store, so the two agree as long as nothing is sent while a part of the same stream has been taken already (`Orderly`).
-/

namespace Sming.Network
open Sming.Data Sming.Lib List

inductive TcpClientState where
  | ready
  | connecting
  | connected
  | successful
  | failed
  deriving Repr, DecidableEq

/-- The fields of `TcpClient` that its sending side reads. -/
structure TcpClient where
  state : TcpClientState := .ready
  canSend : Bool := true
  stream : Option MemoryDataStream := none
  asyncCloseAfterSent : Bool := false
  asyncTotalSent : Int16 := 0
  asyncTotalLen : Int16 := 0
  deriving Repr, DecidableEq

namespace TcpClient

variable (c : TcpClient)

def isProcessing : Bool := c.state == .connected || c.state == .connecting

/-- Store data for sending. The length arrives as a `uint16_t`; `alloc` says
whether the stream gets the memory it asks for. -/
def send (data : List UInt8) (forceCloseAfterSent alloc : Bool) : Option (TcpClient × Bool) :=
  if c.state ≠ .connecting ∧ c.state ≠ .connected then some (c, false)
  else
    let stream := c.stream.getD {}
    let len := data.length % 2 ^ 16
    match stream.write (data.take len) alloc with
    | none => none
    | some (stream, stored) =>
      if stored ≠ len then some ({ c with stream := some stream }, false)
      else
        some ({ c with
          stream := some stream
          asyncTotalLen := c.asyncTotalLen + Int16.ofNat len
          asyncCloseAfterSent := forceCloseAfterSent }, true)

def sendString (data : List UInt8) (forceCloseAfterSent alloc : Bool) :
    Option (TcpClient × Bool) := c.send data forceCloseAfterSent alloc

/-- Push the stream and free it once it is finished. The list holds
the bytes handed to `tcp_write`. -/
def pushAsyncPart (lwip : Lwip) : TcpClient × List UInt8 :=
  match c.stream with
  | none => (c, [])
  | some stream =>
    let (handed, stream, _) := TcpConnection.writeStream c.canSend stream lwip
    if stream.isFinished then ({ c with stream := none }, handed)
    else ({ c with stream := some stream }, handed)

def onReadyToSendData (lwip : Lwip) : TcpClient × List UInt8 := c.pushAsyncPart lwip

def onFinished : TcpClient :=
  { c with stream := none, asyncTotalSent := 0, asyncTotalLen := 0 }

def close : TcpClient :=
  if c.state ≠ .successful ∧ c.state ≠ .failed then
    onFinished { c with
      state := if c.asyncTotalSent = c.asyncTotalLen then .successful else .failed }
  else c

def onError : TcpClient := onFinished { c with state := .failed }

def connect : TcpClient :=
  if c.isProcessing then c else { c with state := .connecting, canSend := false }

/-- (C++ `TcpClient::onConnected` with `TcpConnection::onConnected`.) -/
def onConnected (ok : Bool) (lwip : Lwip) : TcpClient × List UInt8 :=
  if ok then onReadyToSendData { c with state := .connected, canSend := true } lwip
  else (close { onError c with canSend := true }, [])

/-- (C++ `TcpConnection::onSent`.) -/
def connectionOnSent (lwip : Lwip) : TcpClient × List UInt8 :=
  let (available, lwip) := TcpConnection.getAvailableWriteSize c.canSend lwip
  if 0 < available then c.onReadyToSendData lwip else (c, [])

def onSent (len : UInt16) (lwip : Lwip) : TcpClient × List UInt8 :=
  let closing := c.stream.isNone && c.asyncCloseAfterSent
  let (d, handed) := connectionOnSent
    { c with asyncTotalSent := c.asyncTotalSent + Int16.ofNat len.toNat } lwip
  (if closing then d.close else d, handed)

/-! ### What the operations do to the stream -/

def pending : List UInt8 := c.stream.elim [] MemoryDataStream.unread

def StreamWF : Prop := ∀ stream ∈ c.stream, stream.WF

/-- Nothing of the stream has been taken, and its block is as large as it believes. -/
def Untouched : Prop := ∀ stream ∈ c.stream, stream.pos = 0 ∧ stream.Sound

instance (c : TcpClient) : Decidable c.Untouched := inferInstanceAs (Decidable (∀ stream ∈ c.stream, _))

variable {c : TcpClient}

lemma send_of_not_isProcessing {data force alloc} (h : c.isProcessing = false) :
    c.send data force alloc = some (c, false) := by
  rw [send, if_pos]
  cases hs : c.state <;> simp_all [isProcessing]

lemma not_refused (proc : c.isProcessing = true) : ¬ (c.state ≠ .connecting ∧ c.state ≠ .connected) := by
  cases e : c.state <;> simp_all [isProcessing]

variable {data : List UInt8}

lemma send_spec {force alloc} (wf : c.StreamWF)
    (fresh : c.Untouched) (proc : c.isProcessing = true) (short : data.length < 2 ^ 16) :
    ∃ d ok, c.send data force alloc = some (d, ok) ∧ d.StreamWF ∧ d.isProcessing = true ∧
      d.pending = c.pending ++ if ok then data else [] := by
  have wf' : (c.stream.getD {}).WF := by
    cases e : c.stream with
    | none => exact MemoryDataStream.WF.new
    | some stream => exact wf stream e
  have sound : (c.stream.getD {}).Sound := by
    cases e : c.stream with
    | none => exact nofun
    | some stream => exact (fresh stream e).2
  have whole : ((c.stream.getD {}).buf.getD []).take (c.stream.getD {}).size = c.pending := by
    rw [pending]
    cases e : c.stream with
    | none => rfl
    | some stream => exact (MemoryDataStream.unread_of_pos_eq_zero (fresh stream e).1).symm
  have unread : (c.stream.getD {}).unread = c.pending := by
    rw [pending]
    cases e : c.stream <;> rfl
  obtain ⟨t, n, e, wft, stored⟩ := wf'.write_spec sound data alloc
  rw [send, if_neg (not_refused proc)]
  simp only [Nat.mod_eq_of_lt short, take_length, e]
  rw [whole, unread] at stored
  split
  case isTrue ne =>
    -- nothing was stored
    obtain ⟨rfl, -⟩ | ⟨rfl, same⟩ := stored
    · exact absurd rfl ne
    · refine ⟨_, _, rfl, ?_, proc, ?_⟩
      · rintro _ ⟨⟩
        exact wft
      · simpa [pending] using same
  case isFalse eq =>
    refine ⟨_, _, rfl, ?_, proc, ?_⟩
    · rintro _ ⟨⟩
      exact wft
    · obtain ⟨-, app⟩ | ⟨rfl, same⟩ := stored
      · exact app
      · have nil : data = [] := eq_nil_of_length_eq_zero (not_not.mp eq).symm
        simpa [pending, nil] using same

lemma send_accepted (proc : c.isProcessing = true) (short : data.length < 2 ^ 16)
    (room : (c.stream.getD {}).capacity ≤ ((c.stream.getD {}).buf.getD []).length) (force : Bool) :
    ∃ stream : MemoryDataStream, stream.capacity ≤ (stream.buf.getD []).length ∧
      c.send data force true = some ({ c with
        stream := some stream
        asyncTotalLen := c.asyncTotalLen + Int16.ofNat data.length
        asyncCloseAfterSent := force }, true) := by
  obtain ⟨stream, stored, room'⟩ := MemoryDataStream.write_stored room data
  refine ⟨stream, room', ?_⟩
  rw [send, if_neg (not_refused proc)]
  simp only [Nat.mod_eq_of_lt short, take_length, stored]
  rw [if_neg (not_not_intro rfl)]

lemma pushAsyncPart_spec (wf : c.StreamWF) (lwip : Lwip) :
    (c.pushAsyncPart lwip).1.StreamWF ∧ (c.pushAsyncPart lwip).1.state = c.state ∧
      c.pending = (c.pushAsyncPart lwip).2 ++ (c.pushAsyncPart lwip).1.pending := by
  rw [pushAsyncPart]
  cases hs : c.stream with
  | none => exact ⟨wf, rfl, by simp [pending, hs]⟩
  | some stream =>
    obtain ⟨wf', left⟩ := TcpConnection.writeStream_spec MemoryDataStream.lawful c.canSend (wf stream hs) lwip
    simp only [pending, hs, Option.elim_some]
    generalize TcpConnection.writeStream c.canSend stream lwip = r at wf' left ⊢
    obtain ⟨handed, stream', lwip'⟩ := r
    simp only at wf' left ⊢
    split
    case isTrue fin =>
      have empty : stream'.unread = [] := wf'.isFinished_iff.mp fin
      exact ⟨nofun, rfl, by rw [left, empty]; rfl⟩
    case isFalse =>
      refine ⟨?_, rfl, left⟩
      rintro _ ⟨⟩
      exact wf'

lemma pushAsyncPart_eq (c : TcpClient) (lwip : Lwip) :
    ∃ stream, (c.pushAsyncPart lwip).1 = { c with stream := stream } := by
  rw [pushAsyncPart]
  split
  · exact ⟨c.stream, rfl⟩
  · simp only
    split
    · exact ⟨none, rfl⟩
    · exact ⟨some _, rfl⟩

lemma pushAsyncPart_live (c : TcpClient) (lwip : Lwip) :
    ∀ stream ∈ (c.pushAsyncPart lwip).1.stream, stream.isFinished = false := by
  intro stream mem
  rw [pushAsyncPart] at mem
  cases hs : c.stream with
  | none =>
    simp only [hs] at mem
    cases mem
  | some s =>
    simp only [hs] at mem
    split at mem
    · cases mem
    case isFalse more =>
      cases mem
      simpa using more

lemma send_totals {d : TcpClient} {force alloc ok} (h : c.send data force alloc = some (d, ok)) :
    d.state = c.state ∧ d.asyncTotalSent = c.asyncTotalSent ∧
      d.asyncTotalLen = c.asyncTotalLen + Int16.ofNat (if ok then data.length % 2 ^ 16 else 0) ∧
      (ok = true → c.isProcessing = true) := by
  cases proc : c.isProcessing with
  | false =>
    rw [send_of_not_isProcessing proc] at h
    cases h
    exact ⟨rfl, rfl, (Int16.add_zero _).symm, nofun⟩
  | true =>
    rw [send] at h
    split at h
    case isTrue refused => exact absurd refused (not_refused proc)
    case isFalse =>
      simp only at h
      split at h
      · cases h
      · split at h
        · cases h
          exact ⟨rfl, rfl, (Int16.add_zero _).symm, nofun⟩
        · cases h
          exact ⟨rfl, rfl, rfl, fun _ => rfl⟩

lemma send_stream {d : TcpClient} {force alloc ok} (wf : c.StreamWF) (proc : c.isProcessing = true)
    (h : c.send data force alloc = some (d, ok)) :
    ∃ stream, d.stream = some stream ∧ stream.WF ∧ d.asyncCloseAfterSent = if ok then force else c.asyncCloseAfterSent := by
  have wf' : (c.stream.getD {}).WF := by
    cases e : c.stream with
    | none => exact MemoryDataStream.WF.new
    | some stream => exact wf stream e
  rw [send, if_neg (not_refused proc)] at h
  simp only at h
  split at h
  · cases h
  case h_2 stream stored written =>
    split at h
    · cases h
      exact ⟨stream, rfl, wf'.of_write written, rfl⟩
    · cases h
      exact ⟨stream, rfl, wf'.of_write written, rfl⟩

lemma close_cases (c : TcpClient) : c.close.isProcessing = false ∧ (c.close = c ∨ c.close.stream = none) := by
  rw [close]
  split
  · refine ⟨?_, .inr rfl⟩
    simp only [onFinished, isProcessing]
    split <;> rfl
  · refine ⟨?_, .inl rfl⟩
    cases hs : c.state <;> simp_all [isProcessing]

end TcpClient

/-! ### Sessions -/

/-- A client with the bytes of its accepted `send` calls and the bytes handed to `tcp_write`, both
counted from the last `connect` on. -/
structure Session where
  client : TcpClient := {}
  accepted : List UInt8 := []
  written : List UInt8 := []
  deriving Repr, DecidableEq

namespace Session

inductive Event where
  | connect
  | send (data : List UInt8) (forceCloseAfterSent alloc : Bool)
  | sendString (data : List UInt8) (forceCloseAfterSent alloc : Bool)
  | onConnected (ok : Bool) (lwip : Lwip)
  | onReadyToSendData (lwip : Lwip)
  | onSent (len : UInt16) (lwip : Lwip)
  | close
  | onError
  deriving Repr, DecidableEq

def answered (s : Session) (data : List UInt8) : TcpClient × Bool → Session
  | (client, true) => { s with client := client, accepted := s.accepted ++ data }
  | (client, false) => { s with client := client }

def pushed (s : Session) (r : TcpClient × List UInt8) : Session :=
  { s with client := r.1, written := s.written ++ r.2 }

/-- One event; `none` when the stream writes outside its block. After a `close` lwIP no longer has
the client as its argument, so no callback tells it that it is connected. -/
def step (s : Session) : Event → Option Session
  | .connect =>
    if s.client.isProcessing then some s else some { client := s.client.connect }
  | .send data forceCloseAfterSent alloc =>
    (s.client.send data forceCloseAfterSent alloc).map (s.answered data)
  | .sendString data forceCloseAfterSent alloc =>
    (s.client.sendString data forceCloseAfterSent alloc).map (s.answered data)
  | .onConnected ok lwip =>
    if s.client.isProcessing then some (s.pushed (s.client.onConnected ok lwip)) else some s
  | .onReadyToSendData lwip => some (s.pushed (s.client.onReadyToSendData lwip))
  | .onSent len lwip => some (s.pushed (s.client.onSent len lwip))
  | .close => some { s with client := s.client.close }
  | .onError => some { s with client := s.client.onError }

/-- No `send` comes while a part of the stream it would be stored in has been taken already, or
after that stream failed to grow, and no data is longer than a `uint16_t` can count. -/
def Orderly (s : Session) : Event → Prop
  | .send data _ _ | .sendString data _ _ =>
    s.client.isProcessing = true → s.client.Untouched ∧ data.length < 2 ^ 16
  | _ => True

instance (s : Session) (e : Event) : Decidable (s.Orderly e) := by
  cases e <;> unfold Orderly <;> infer_instance

/-- While the client is in use, the accepted bytes are those written and those pending, in this
order; later on nothing is pending. -/
structure Balanced (s : Session) : Prop where
  wf : s.client.StreamWF
  active : s.client.isProcessing = true → s.accepted = s.written ++ s.client.pending
  idle : s.client.isProcessing = false → s.client.stream = none ∧ s.written <+: s.accepted

variable {s : Session}

lemma Balanced.isPrefix (b : s.Balanced) : s.written <+: s.accepted := by
  cases h : s.client.isProcessing with
  | true => exact ⟨_, (b.active h).symm⟩
  | false => exact (b.idle h).2

lemma Balanced.give_up (b : s.Balanced) {c : TcpClient} (h : c.stream = none)
    (stopped : c.isProcessing = false) : Balanced { s with client := c } where
  wf stream e := by rw [h] at e; cases e
  active e := by rw [stopped] at e; cases e
  idle _ := ⟨h, b.isPrefix⟩

lemma Balanced.close (b : s.Balanced) : Balanced { s with client := s.client.close } := by
  obtain ⟨stopped, same | none⟩ := s.client.close_cases
  · rw [same] at stopped ⊢
    exact b
  · exact b.give_up none stopped

lemma Balanced.push {c : TcpClient} (b : Balanced { s with client := c })
    (lwip : Lwip) : (s.pushed (c.onReadyToSendData lwip)).Balanced := by
  obtain ⟨wf, state, pending⟩ := TcpClient.pushAsyncPart_spec b.wf lwip
  have proc : (c.pushAsyncPart lwip).1.isProcessing = c.isProcessing := by
    rw [TcpClient.isProcessing, TcpClient.isProcessing, state]
  rw [TcpClient.onReadyToSendData]
  refine ⟨wf, fun h => ?_, fun h => ?_⟩
  · rw [pushed, List.append_assoc, ← pending]
    exact b.active (proc.symm.trans h)
  · -- a client that is not in use has no stream left to push
    obtain ⟨none, pre⟩ := b.idle (proc.symm.trans h)
    have nil : c.pushAsyncPart lwip = (c, []) := by rw [TcpClient.pushAsyncPart, none]
    rw [pushed, nil, append_nil]
    exact ⟨none, pre⟩

lemma Balanced.onConnected (b : s.Balanced) (h : s.client.isProcessing = true)
    (success : Bool) (lwip : Lwip) : (s.pushed (s.client.onConnected success lwip)).Balanced := by
  rw [TcpClient.onConnected]
  split
  · apply Balanced.push
    exact ⟨b.wf, fun _ => b.active h, nofun⟩
  · rw [pushed, append_nil]
    exact b.give_up rfl rfl

lemma Balanced.onSent (b : s.Balanced) (len : UInt16) (lwip : Lwip) :
    (s.pushed (s.client.onSent len lwip)).Balanced := by
  rw [TcpClient.onSent]
  have b' : Balanced { s with client := { s.client with
      asyncTotalSent := s.client.asyncTotalSent + Int16.ofNat len.toNat } } := ⟨b.wf, b.active, b.idle⟩
  generalize { s.client with
      asyncTotalSent := s.client.asyncTotalSent + Int16.ofNat len.toNat } = c at b'
  have sent : (s.pushed (c.connectionOnSent lwip)).Balanced := by
    rw [TcpClient.connectionOnSent]
    simp only
    split
    · exact b'.push _
    · rw [pushed, append_nil]
      exact b'
  simp only
  split
  · exact sent.close
  · exact sent

lemma Balanced.send (b : s.Balanced) {data force alloc}
    (ok : s.client.isProcessing = true → s.client.Untouched ∧ data.length < 2 ^ 16) :
    ∃ t, (s.client.send data force alloc).map (s.answered data) = some t ∧ t.Balanced := by
  cases h : s.client.isProcessing with
  | false =>
    rw [TcpClient.send_of_not_isProcessing h]
    exact ⟨_, rfl, b⟩
  | true =>
    obtain ⟨fresh, short⟩ := ok h
    obtain ⟨d, stored, e, wf, proc, pending⟩ :=
      @TcpClient.send_spec s.client data force alloc b.wf fresh h short
    rw [e]
    refine ⟨_, rfl, ?_⟩
    cases stored with
    | true =>
      refine ⟨wf, fun _ => ?_, fun h' => ?_⟩
      · show s.accepted ++ data = s.written ++ d.pending
        rw [pending, b.active h, List.append_assoc]
        rfl
      · exact absurd (proc.symm.trans h') nofun
    | false =>
      refine ⟨wf, fun _ => ?_, fun h' => ?_⟩
      · show s.accepted = s.written ++ d.pending
        rw [pending, b.active h]
        simp
      · exact absurd (proc.symm.trans h') nofun

lemma Balanced.step {e : Event} (b : s.Balanced) (ok : s.Orderly e) : ∃ t, s.step e = some t ∧ t.Balanced := by
  cases e with
  | connect =>
    rw [Session.step]
    cases h : s.client.isProcessing with
    | true => exact ⟨s, rfl, b⟩
    | false =>
      obtain ⟨none, -⟩ := b.idle h
      refine ⟨_, rfl, ?_⟩
      rw [TcpClient.connect, h]
      refine ⟨?_, fun _ => ?_, nofun⟩
      · intro stream e
        exact absurd (none.symm.trans e) nofun
      · simp [TcpClient.pending, none]
  | send data force alloc => exact b.send ok
  | sendString data force alloc => exact b.send ok
  | onConnected success lwip =>
    rw [Session.step]
    cases h : s.client.isProcessing with
    | false => exact ⟨s, rfl, b⟩
    | true => exact ⟨_, rfl, b.onConnected h success lwip⟩
  | onReadyToSendData lwip => exact ⟨_, rfl, b.push lwip⟩
  | onSent len lwip => exact ⟨_, rfl, b.onSent len lwip⟩
  | close => exact ⟨_, rfl, b.close⟩
  | onError => exact ⟨_, rfl, b.give_up rfl rfl⟩

/-- At every moment of an orderly run the bytes handed to `tcp_write` are the first ones of the accepted data, and no
write leaves a block. -/
theorem written_isPrefix_accepted {es s} (r : Run step Orderly {} es s) :
    s.written <+: s.accepted ∧ ∀ e, s.Orderly e → (s.step e).isSome := by
  have b : s.Balanced := by
    apply r.invariant
    · exact ⟨nofun, nofun, fun _ => ⟨rfl, prefix_rfl⟩⟩
    · intro t e u b ok st
      obtain ⟨x, st', b'⟩ := b.step ok
      rw [st] at st'
      cases st'
      exact b'
  refine ⟨b.isPrefix, fun e ok => ?_⟩
  obtain ⟨t, st, -⟩ := b.step ok
  rw [st]
  rfl

def Room (n : UInt16) : Lwip := { sndbuf := [n, n], sndqueuelen := [0] }

theorem written_isPrefix_accepted_two_sends :
    ∃ s, Run step Orderly {} [.connect, .send [1, 2, 3] false true, .onConnected true (Room 3),
        .sendString [4] false true, .onReadyToSendData (Room 8)] s ∧
      s.written = [1, 2, 3, 4] ∧ s.written <+: s.accepted := by
  have r := exec_run (show exec step Orderly {} [.connect, .send [1, 2, 3] false true, .onConnected true (Room 3),
      .sendString [4] false true, .onReadyToSendData (Room 8)] =
    some { client := { state := .connected, asyncTotalLen := 4 }
           accepted := [1, 2, 3, 4], written := [1, 2, 3, 4] } from by decide +kernel)
  exact ⟨_, r, rfl, (written_isPrefix_accepted r).1⟩

/-- A second `send` after a partial write makes the client send the first byte again. -/
theorem overlapping_send_repeats : ¬ ∀ es s, Run step Always {} es s → s.written <+: s.accepted := by
  intro h
  have r := exec_run (show exec step Always {}
    [.connect, .send [1, 2, 3] false true, .onConnected true (Room 1), .send [4] false true,
      .onReadyToSendData (Room 8)] =
    some { client := { state := .connected, asyncTotalLen := 4 }
           accepted := [1, 2, 3, 4], written := [1, 1, 2, 3, 4] } from by decide +kernel)
  exact absurd (h _ _ r) (by decide)

end Session

end Sming.Network
