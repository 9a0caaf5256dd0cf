import Sming.Lib.Run

/-!
# The SSL handshake of a TCP client

Embedding of the lwIP callbacks of `Sming/SmingCore/Network/TcpConnection.cpp`, compiled with
`ENABLE_SSL`, and of what `TcpClient.cpp` does in them. What lwIP, axTLS and the delegates answer is
part of the events: whether `axl_append` finds a place, whether the handshake is done, what
`axl_ssl_read` returns, which peer the handshake was made with. How much of the stream is written is
left out (see `TcpClient.lean`); `wrote` says that `write(stream)` got to it.

`checked` and `log` are history: the peer that `onSslConnected` has accepted on this connection, and
what happened, each with the value of `checked` at that moment.

The handshake may be done in three places and only one of them asks the validators.
-/

namespace Sming.Network
open Sming.Lib List Option

/-- A `tcp_pcb` whose callbacks lead to the client: `tcp_connect` was called, or is done. -/
inductive Link where
  | opening
  | established
  deriving Repr, DecidableEq

inductive SslAction where
  | connected
  | received
  | wrote
  deriving Repr, DecidableEq

inductive SslRead where
  | closeNotify
  | failed
  | nothing
  | bytes
  deriving Repr, DecidableEq

/-- Whether lwIP has room for data, and whether the stream has data. -/
structure Wakeup where
  writable : Bool := true
  data : Bool := true
  deriving Repr, DecidableEq

/-- The fields of `TcpConnection` and `TcpClient` that the handshake depends on. -/
structure SslClient (Peer : Type) where
  sslValidators : List (Peer → Bool)
  isProcessing : Bool := false
  tcp : Option Link := none
  useSsl : Bool := false
  ssl : Bool := false
  sslConnected : Bool := false
  canSend : Bool := true
  checked : Option Peer := none
  log : List (SslAction × Option Peer) := []

namespace SslClient

variable {Peer : Type} (c : SslClient Peer)

def record (action : SslAction) : SslClient Peer :=
  { c with log := c.log ++ [(action, c.checked)] }

/-- (C++ `TcpClient::onReadyToSendData`, `pushAsyncPart`, `TcpConnection::write`.) -/
def onReadyToSendData (w : Wakeup) : SslClient Peer :=
  if w.data && !(c.ssl && !c.sslConnected) then c.record .wrote else c

/-- (C++ `TcpConnection::getAvailableWriteSize`.) -/
def canWrite (w : Wakeup) : Bool := c.canSend && c.tcp.isSome && w.writable

def closeSsl : SslClient Peer :=
  if c.ssl then { c with ssl := false, sslConnected := false, checked := none } else c

/-- (C++ `TcpClient::close`, `TcpConnection::close`.) -/
def close : SslClient Peer :=
  { c.closeSsl with isProcessing := false, tcp := none }

/-- (C++ `TcpClient::onError`, `TcpConnection::onError`.) -/
def onError : SslClient Peer :=
  { c.closeSsl with isProcessing := false }

/-- (C++ `TcpClient::connect`, `TcpConnection::connect`, `initialize`); only the variant that takes the
name of a host makes the sender wait for the connection. -/
def connect (byName useSsl : Bool) : SslClient Peer :=
  if c.isProcessing then c
  else
    { c with
      isProcessing := true
      tcp := some (c.tcp.getD .opening)
      useSsl := useSsl
      canSend := !byName && (c.canSend || c.tcp.isNone) }

/-- (C++ `TcpClient::onConnected`, `TcpConnection::onConnected`.) -/
def onConnected (ok : Bool) (w : Wakeup) : SslClient Peer :=
  if ok then ({ c with isProcessing := true, canSend := true }.record .connected).onReadyToSendData w
  else close { c.onError with canSend := true }

def onSslConnected (peer : Peer) : Bool :=
  c.sslValidators.length == 0 || c.sslValidators.any fun validator => validator peer

/-- A pbuf with data; `accepted` is the answer of the delegate. -/
def onReceive (accepted : Bool) (w : Wakeup) : SslClient Peer :=
  let c := c.record .received
  if accepted && c.canWrite w then c.onReadyToSendData w else c

/-- (C++ `TcpConnection::staticOnConnected`); `found` says that `axl_append` found a place and `done`
that `ssl_client_new` has done the handshake. -/
def staticOnConnected (ok found done : Bool) (w : Wakeup) : SslClient Peer :=
  if c.useSsl && ok then
    if found then
      let c := { c with ssl := true }
      if done then c.onConnected ok w else c
    else c
  else c.onConnected ok w

/-- The part of `staticOnReceive` that is about SSL; `none` when `onReceive` is to be called. -/
def sslReceive (read : SslRead) (done : Bool) (peer : Peer) (w : Wakeup) : Option (SslClient Peer) :=
  if c.ssl then
    match read with
    | .closeNotify => some c
    | .failed => some c.close
    | .nothing =>
      if !c.sslConnected && done then
        let c := { c with sslConnected := true }
        if c.onSslConnected peer then some ({ c with checked := some peer }.onConnected true w)
        else some c.close
      else some c
    | .bytes => none
  else none

def staticOnReceive (read : SslRead) (done : Bool) (peer : Peer)
    (accepted : Bool) (w : Wakeup) : SslClient Peer :=
  (c.sslReceive read done peer w).getD (c.onReceive accepted w)

/-- (C++ `TcpClient::onSent`, `TcpConnection::onSent`); `last` says that the connection is to be closed
after what was sent. -/
def onSent (last : Bool) (w : Wakeup) : SslClient Peer :=
  let c := if c.canWrite w then c.onReadyToSendData w else c
  if last then c.close else c

def onPoll (timeout : Bool) (w : Wakeup) : SslClient Peer :=
  if timeout then c.close else if c.canWrite w then c.onReadyToSendData w else c

inductive Event (Peer : Type) where
  | connect (byName : Bool)
  | connected (ok found done : Bool) (w : Wakeup)
  | receive (read : SslRead) (done : Bool) (peer : Peer) (accepted : Bool) (w : Wakeup)
  | receiveNull
  | receiveError
  | sent (last : Bool) (w : Wakeup)
  | poll (timeout : Bool) (w : Wakeup)
  | error
  | close

/-- One event; `none` when lwIP does not call back in the state. -/
def step : Event Peer → Option (SslClient Peer)
  | .connect byName => some (c.connect byName true)
  | .connected ok found done w =>
    if c.tcp = some .opening then some ({ c with tcp := some .established }.staticOnConnected ok found done w)
    else none
  | .receive read done peer accepted w =>
    if c.tcp = some .established then some (c.staticOnReceive read done peer accepted w) else none
  | .receiveNull => if c.tcp = some .established then some c.close else none
  | .receiveError =>
    if c.tcp = some .established then some { c.onError with tcp := none } else none
  | .sent last w => if c.tcp = some .established then some (c.onSent last w) else none
  | .poll timeout w => if c.tcp.isSome then some (c.onPoll timeout w) else none
  | .error => if c.tcp.isSome then some { c.onError with tcp := none } else none
  | .close => some c.close

def Trusted : Prop :=
  ∀ entry ∈ c.log,
    (entry.2.any fun peer => c.sslValidators.any fun validator => validator peer) = true

instance (c : SslClient Peer) : Decidable c.Trusted := inferInstanceAs (Decidable (∀ entry ∈ c.log, _ = _))

/-- `ssl_client_new` leaves the handshake undone, no data is received before `sslConnected` is set,
and no callback finds data to send before there is an SSL object. -/
def awaited : Event Peer → Bool
  | .connected ok found done _ => !(ok && found && done)
  | .receive read _ _ _ _ => c.ssl && (read != .bytes || c.sslConnected)
  | .sent _ w => !(c.canWrite w && w.data) || c.ssl
  | .poll timeout w => timeout || !(c.canWrite w && w.data) || c.ssl
  | .connect _ | .receiveNull | .receiveError | .error | .close => true

structure Sound (c : SslClient Peer) : Prop where
  validators : c.sslValidators ≠ []
  accepted : ∀ peer ∈ c.checked, (c.sslValidators.any fun validator => validator peer) = true
  secured : c.sslConnected = c.checked.isSome
  session : c.sslConnected = true → c.ssl = true
  encrypted : c.tcp.isSome = true → c.useSsl = true
  opened : c.ssl = true → c.tcp = some .established

section
variable {c : SslClient Peer} {w : Wakeup}

lemma Sound.record (s : c.Sound) (action : SslAction) :
    (c.record action).Trusted ↔ c.Trusted ∧ c.sslConnected = true := by
  have last : (c.checked.any fun peer => c.sslValidators.any fun validator => validator peer) =
      c.sslConnected := by
    rw [s.secured]
    cases h : c.checked with
    | none => rfl
    | some peer => exact s.accepted peer h
  simp only [Trusted, SslClient.record, forall_mem_append, forall_mem_singleton, last]

lemma record_frame (action : SslAction) : c.record action = { c with log := (c.record action).log } := rfl

lemma onReadyToSendData_frame : c.onReadyToSendData w = { c with log := (c.onReadyToSendData w).log } := by
  rw [onReadyToSendData]
  split <;> rfl

section
variable (s : c.Sound)
include s

lemma Sound.frame (log : List (SslAction × Option Peer)) : Sound { c with log := log } :=
  ⟨s.validators, s.accepted, s.secured, s.session, s.encrypted, s.opened⟩

lemma Sound.onReadyToSendData : (c.onReadyToSendData w).Trusted ↔ c.Trusted ∧ (w.data = true → c.ssl = true) := by
  rw [SslClient.onReadyToSendData]
  cases w.data with
  | false => simp
  | true =>
    cases on : c.sslConnected with
    | true =>
      have ssl := s.session on
      simp [s.record, on, ssl]
    | false =>
      cases c.ssl <;> simp [s.record, on]

lemma Sound.closeSsl : c.closeSsl = { c with ssl := false, sslConnected := false, checked := none } := by
  cases c with
  | mk validators processing tcp useSsl ssl sslConnected canSend checked log =>
    cases ssl with
    | true => rfl
    | false =>
      have off : sslConnected = false := Bool.eq_false_iff.mpr fun on => nomatch s.session on
      have unchecked : checked = none :=
        isSome_eq_false_iff.mp (s.secured.symm.trans off) |> isNone_iff_eq_none.mp
      subst off unchecked
      rfl

lemma Sound.close : c.close.Sound ∧ (c.close.Trusted ↔ c.Trusted) := by
  rw [SslClient.close, s.closeSsl]
  exact ⟨⟨s.validators, nofun, rfl, nofun, nofun, nofun⟩, Iff.rfl⟩

lemma Sound.refused : (c.onConnected false w).Sound ∧ ((c.onConnected false w).Trusted ↔ c.Trusted) := by
  have failed : Sound { c.onError with canSend := true } := by
    rw [onError, s.closeSsl]
    exact ⟨s.validators, nofun, rfl, nofun, s.encrypted, nofun⟩
  obtain ⟨sound, trusted⟩ := failed.close
  refine ⟨sound, trusted.trans ?_⟩
  rw [onError, s.closeSsl]
  rfl

lemma Sound.onConnected :
    (c.onConnected true w).Sound ∧ ((c.onConnected true w).Trusted ↔ c.Trusted ∧ c.sslConnected = true) := by
  have frame : Sound { c with isProcessing := true, canSend := true } :=
    ⟨s.validators, s.accepted, s.secured, s.session, s.encrypted, s.opened⟩
  have recorded := frame.frame ({ c with isProcessing := true, canSend := true }.record .connected).log
  rw [← record_frame] at recorded
  rw [SslClient.onConnected, if_pos rfl]
  constructor
  · rw [onReadyToSendData_frame]
    exact recorded.frame _
  · rw [recorded.onReadyToSendData, frame.record]
    exact and_iff_left_of_imp fun h _ => s.session h.2

lemma Sound.onReceive (accepted : Bool) :
    (c.onReceive accepted w).Sound ∧ ((c.onReceive accepted w).Trusted ↔ c.Trusted ∧ c.sslConnected = true) := by
  have recorded := s.frame (c.record .received).log
  rw [← record_frame] at recorded
  rw [SslClient.onReceive]
  split
  · constructor
    · rw [onReadyToSendData_frame]
      exact recorded.frame _
    · rw [recorded.onReadyToSendData, s.record]
      exact and_iff_left_of_imp fun h _ => s.session h.2
  · exact ⟨recorded, s.record .received⟩

lemma Sound.checked {peer : Peer} (ssl : c.ssl = true) (accept : c.onSslConnected peer = true) :
    Sound { c with sslConnected := true, checked := some peer } := by
  refine ⟨s.validators, ?_, rfl, fun _ => ssl, s.encrypted, s.opened⟩
  rintro _ ⟨⟩
  rw [onSslConnected, Bool.or_eq_true, beq_iff_eq, List.length_eq_zero_iff] at accept
  exact accept.resolve_left s.validators

lemma Sound.staticOnReceive (read : SslRead) (done : Bool) (peer : Peer) (accepted : Bool) :
    (c.staticOnReceive read done peer accepted w).Sound ∧ ((c.staticOnReceive read done peer accepted w).Trusted ↔
        c.Trusted ∧ (c.ssl && (read != .bytes || c.sslConnected)) = true) := by
  rw [SslClient.staticOnReceive]
  unfold sslReceive
  by_cases ssl : c.ssl = true
  case neg =>
    -- without SSL object the data is delivered as it is
    obtain ⟨sound, trusted⟩ := @Sound.onReceive _ c w s accepted
    have off : c.sslConnected ≠ true := mt s.session ssl
    rw [Bool.not_eq_true] at ssl
    rw [if_neg (ssl ▸ Bool.false_ne_true), ssl]
    exact ⟨sound, trusted.trans (and_congr_right fun _ => iff_of_false off Bool.false_ne_true)⟩
  case pos =>
    rw [if_pos ssl, show (c.ssl && (read != .bytes || c.sslConnected)) =
      (read != .bytes || c.sslConnected) by rw [ssl, Bool.true_and]]
    cases read with
    | closeNotify => exact ⟨s, (and_iff_left rfl).symm⟩
    | failed => exact ⟨s.close.1, s.close.2.trans (and_iff_left rfl).symm⟩
    | bytes => exact s.onReceive accepted
    | nothing =>
      rw [show (SslRead.nothing != .bytes || c.sslConnected) = true from rfl, and_iff_left rfl]
      simp only
      split
      · split
        case isTrue accept =>
          obtain ⟨sound, trusted⟩ := @Sound.onConnected _ _ w (s.checked ssl accept)
          exact ⟨sound, trusted.trans (and_iff_left rfl)⟩
        case isFalse =>
          -- `sslConnected` was set before the validators were asked, but `close` takes it back
          have same : ({ c with sslConnected := true } : SslClient Peer).close = c.close := by
            simp [SslClient.close, SslClient.closeSsl, ssl]
          rw [getD_some, same]
          exact s.close
      · exact ⟨s, Iff.rfl⟩

/-- The handshake that `ssl_client_new` has done is not shown to the validators. -/
lemma Sound.staticOnConnected (opening : c.tcp = some .opening) (ok found done : Bool) :
    ({ c with tcp := some .established }.staticOnConnected ok found done w).Sound ∧
      (({ c with tcp := some .established }.staticOnConnected ok found done w).Trusted ↔
        c.Trusted ∧ (!(ok && found && done)) = true) := by
  have closed : c.ssl = false := Bool.eq_false_iff.mpr fun ssl => nomatch (s.opened ssl).symm.trans opening
  have off : c.sslConnected = false :=
    Bool.eq_false_iff.mpr fun on => nomatch (s.session on).symm.trans closed
  have useSsl : c.useSsl = true := s.encrypted (by rw [opening]; rfl)
  have frame : Sound { c with tcp := some .established } :=
    ⟨s.validators, s.accepted, s.secured, s.session, fun _ => useSsl, fun _ => rfl⟩
  unfold SslClient.staticOnConnected
  cases ok with
  | false =>
    rw [Bool.and_false, if_neg Bool.false_ne_true]
    exact ⟨frame.refused.1, frame.refused.2.trans (and_iff_left rfl).symm⟩
  | true =>
    have started : Sound { c with tcp := some .established, ssl := true } :=
      ⟨s.validators, s.accepted, s.secured, fun _ => rfl, fun _ => useSsl, fun _ => rfl⟩
    rw [if_pos (Bool.and_eq_true_iff.mpr ⟨useSsl, rfl⟩)]
    cases found with
    | false => exact ⟨frame, (and_iff_left rfl).symm⟩
    | true =>
      cases done with
      | false => exact ⟨started, (and_iff_left rfl).symm⟩
      | true =>
        obtain ⟨sound, trusted⟩ := @Sound.onConnected _ _ w started
        refine ⟨sound, trusted.trans (and_congr_right fun _ => ?_)⟩
        exact iff_of_false (Bool.eq_false_iff.mp off) Bool.false_ne_true

lemma Sound.wake :
    (if c.canWrite w then c.onReadyToSendData w else c).Sound ∧
      ((if c.canWrite w then c.onReadyToSendData w else c).Trusted ↔
        c.Trusted ∧ (!(c.canWrite w && w.data) || c.ssl) = true) := by
  cases c.canWrite w with
  | false => exact ⟨s, (and_iff_left rfl).symm⟩
  | true =>
    rw [if_pos rfl]
    constructor
    · rw [onReadyToSendData_frame]
      exact s.frame _
    · rw [s.onReadyToSendData]
      cases w.data <;> simp

lemma Sound.step {d : SslClient Peer} {e : Event Peer} (st : c.step e = some d) :
    d.Sound ∧ (d.Trusted ↔ c.Trusted ∧ c.awaited e = true) := by
  have closed : c.close.Sound ∧ (c.close.Trusted ↔ c.Trusted ∧ true = true) :=
    ⟨s.close.1, s.close.2.trans (and_iff_left rfl).symm⟩
  cases e with
  | connect byName =>
    cases st
    rw [connect]
    split
    · exact ⟨s, (and_iff_left rfl).symm⟩
    · refine ⟨⟨s.validators, s.accepted, s.secured, s.session, fun _ => rfl, ?_⟩, (and_iff_left rfl).symm⟩
      intro ssl
      rw [s.opened ssl]
      rfl
  | connected ok found done w =>
    obtain ⟨opening, st⟩ := ite_none_right_eq_some.mp st
    cases st
    exact s.staticOnConnected opening ok found done
  | receive read done peer accepted w =>
    obtain ⟨-, st⟩ := ite_none_right_eq_some.mp st
    cases st
    exact s.staticOnReceive read done peer accepted
  | receiveNull | receiveError | error =>
    obtain ⟨-, st⟩ := ite_none_right_eq_some.mp st
    cases st
    exact closed
  | sent last w =>
    obtain ⟨-, st⟩ := ite_none_right_eq_some.mp st
    cases st
    obtain ⟨sound, trusted⟩ := @Sound.wake _ c w s
    rw [onSent]
    cases last with
    | true => exact ⟨sound.close.1, sound.close.2.trans trusted⟩
    | false => exact ⟨sound, trusted⟩
  | poll timeout w =>
    obtain ⟨-, st⟩ := ite_none_right_eq_some.mp st
    cases st
    rw [onPoll]
    cases timeout with
    | true => exact closed
    | false => exact s.wake
  | close =>
    cases st
    exact closed

end

end

/-- Nothing is received or sent before a validator has accepted the peer exactly if the handshake is
awaited in every step. -/
theorem trusted_iff_awaited {validators : List (Peer → Bool)} (nonempty : validators ≠ [])
    {es : List (Event Peer)} {c : SslClient Peer} (run : Run step Always { sslValidators := validators } es c) :
    c.Trusted ↔ Run step (fun c e => c.awaited e = true) { sslValidators := validators } es c := by
  refine run.iff_guarded nofun ?_
  intro es t e u run _ st
  have sound : t.Sound := by
    refine run.invariant ⟨nonempty, nofun, rfl, nofun, nofun, nofun⟩ ?_
    intro t e u s _ st
    exact (s.step st).1
  exact (sound.step st).2

/-- The handshake takes two segments, and the peer is accepted. -/
def handshake : List (Event Bool) :=
  [.connect true, .connected true true false {}, .receive .nothing false true true {},
    .receive .nothing true true true {}, .receive .bytes true true true {}]

theorem trusted_iff_awaited_handshake :
    ∃ c, exec step (fun c e => c.awaited e = true) { sslValidators := [id] } handshake = some c ∧
      c.log = [(.connected, some true), (.wrote, some true), (.received, some true),
        (.wrote, some true)] ∧ c.Trusted := by
  obtain ⟨c, done, log⟩ : ∃ c, exec step (fun c e => c.awaited e = true) { sslValidators := [id] }
      handshake = some c ∧ c.log = [(.connected, some true), (.wrote, some true),
        (.received, some true), (.wrote, some true)] := exists_exec (by decide)
  have run := exec_run done
  exact ⟨c, done, log, (trusted_iff_awaited (cons_ne_nil _ _) run.always).mpr run⟩

/-- Data that comes in one segment with the end of the handshake is delivered although no validator
accepts the peer. -/
theorem data_before_validation :
    ¬ ∀ validators : List (Bool → Bool), validators ≠ [] →
      ∀ es c, Run step Always { sslValidators := validators } es c → c.Trusted := by
  intro h
  refine not_forall_run [.connect true, .connected true true false {},
    .receive .bytes true false true {}] ?_ (h [id] (cons_ne_nil _ _))
  decide

end SslClient

end Sming.Network
