import Sming.Network.SmtpClient
import Sming.Lib.Trace

/-!
# When the SMTP client answers a challenge

The response to a CRAM-MD5 challenge is made of the user name and the password. It is meant for the state
`eSMTP_SendAuthResponse`, but the `default` label of `onReadyToSendData` falls through into that case: an
event in a state that waits for a reply sends it as well. The TCP client fires such an event as soon as it is
connected, when the SMTP client waits for the greeting. So the response goes out on the first connection, unasked
for, and only a client that never gets a connection keeps it to itself (`smtpClient_response_iff`).

`onReceive` ends with another such event if lwIP has room.
-/

namespace Sming.Network
open Sming.Lib Sming.Network.Http SmtpParser List

/-- What happens to a client. `ready` is a poll or an acknowledgement, for which lwIP has room; `room` says so for
received buffers. -/
inductive SmtpEvent where
  | connect (url : URL)
  | onConnected (ok sentAll : Bool)
  | ready (sentAll : Bool)
  | receive (bufs : List (UInt8 × List UInt8)) (handled room sentAll : Bool)
  | send (mail : MailMessage)
  | quit
  | close
  deriving DecidableEq

/-- A client, and whether every event in a state that waits for a reply left it as it was. -/
structure SmtpSession where
  client : SmtpClient := {}
  quiet : Bool := true

namespace SmtpSession
open SmtpClient

/-! ### What is sent, and when -/

/-- A challenge was asked for and received on the present connection. -/
def Challenged (log : List Entry) : Prop :=
  ∃ early late, log = early ++ late ∧ .connected ∉ late ∧
    List.Sublist [.sent .sendAuth .authCramMd5, .reply .requestingAuthChallenge 334] late

/-- A response is sent in its state and after a challenge. -/
def Due (before : List Entry) (e : Entry) : Prop :=
  ∀ state token, e = .sent state (.authResponse token) → state = .sendAuthResponse ∧ Challenged before

/-- The event did nothing, or the state was not one that waits for a reply. -/
def stays (c c' : SmtpClient) : Bool :=
  (successCode c.state).isNone || decide (c'.state = c.state ∧ c'.log = c.log)

/-- (C++ `onReadyToSendData`) with a look at what it did. -/
def onReadyToSendData (k : Codec) (s : SmtpSession) (sentAll : Bool) : SmtpSession :=
  let c := s.client.onReadyToSendData k sentAll
  { client := c, quiet := s.quiet && stays s.client c }

/-- (C++ `TcpConnection::onConnected`.) -/
def onConnected (k : Codec) (s : SmtpSession) (ok sentAll : Bool) : SmtpSession :=
  if ok then onReadyToSendData k { s with client := { s.client with connection := .connected } } sentAll
  else { s with client := { s.client with connection := .failed } }

/-- (C++ `SmtpClient::onReceive` with `TcpConnection::onReceive`.) -/
def onReceive (k : Codec) (s : SmtpSession) (bufs : List (UInt8 × List UInt8)) (handled room sentAll : Bool) :
    Except Fault SmtpSession :=
  (s.client.onReceive k bufs handled).map fun r =>
    let s := { s with client := r.1 }
    if r.2 && room then s.onReadyToSendData k sentAll else s

/-- One event. lwIP calls back on a connection only, and buffers that the parser leaves are not a step. -/
def step (k : Codec) (s : SmtpSession) : SmtpEvent → Option SmtpSession
  | .connect url => some { s with client := s.client.connect url }
  | .onConnected ok sentAll =>
    if s.client.connection = .connecting then some (s.onConnected k ok sentAll) else none
  | .ready sentAll => if s.client.connection = .connected then some (s.onReadyToSendData k sentAll) else none
  | .receive bufs handled room sentAll =>
    if s.client.connection = .connected then (s.onReceive k bufs handled room sentAll).toOption else none
  | .send mail => some { s with client := (s.client.send mail).1 }
  | .quit => some { s with client := s.client.quit }
  | .close => some { s with client := s.client.close }

/-- Responses are sent where they are due, and nothing is done in a state that waits for a reply. -/
def Good (s : SmtpSession) : Prop := s.quiet = true ∧ Justified Due s.client.log

/-! ### Before the first connection -/

/-- The client was never connected: it waits for a greeting, or for the answer to a `QUIT`. -/
structure Unconnected (s : SmtpSession) : Prop where
  connection : s.client.connection ≠ .connected
  state : s.client.state = .banner ∨ s.client.state = .quitting
  due : Justified Due s.client.log

variable {k : Codec} {s t : SmtpSession} {e : SmtpEvent}

lemma unconnected_init : Unconnected {} where
  connection := nofun
  state := .inl rfl
  due := justified_nil

/-- An entry that is no response is due. -/
lemma justified_record {log : List Entry} {entry : Entry} (due : Justified Due log)
    (other : ∀ state token, entry ≠ .sent state (.authResponse token)) : Justified Due (log ++ [entry]) :=
  justified_concat.mpr ⟨due, fun state token e => absurd e (other state token)⟩

/-- The first event of a new connection answers a challenge that nobody sent. -/
lemma onReadyToSendData_waiting (waiting : s.client.state = .banner ∨ s.client.state = .quitting) (sentAll : Bool) :
    (s.onReadyToSendData k sentAll).quiet = false := by
  have answers : s.client.dispatch k = s.client.sendAuthResponse k := by
    rw [dispatch]
    rcases waiting with state | state
    · rw [state]
    · rw [state]
  have state' : (s.client.onReadyToSendData k sentAll).state = .sendingAuth := by
    rw [SmtpClient.onReadyToSendData, answers]
    rfl
  rw [onReadyToSendData, stays, state']
  rcases waiting with state | state
  · simp [state, successCode]
  · simp [state, successCode]

lemma Unconnected.quit (h : s.Unconnected) : Unconnected { s with client := s.client.quit } := by
  have log : s.client.quit.log = s.client.log ∨ s.client.quit.log = s.client.log ++ [.sent s.client.state .quit] := by
    rw [SmtpClient.quit]
    split
    · exact .inr rfl
    · exact .inl rfl
  have connection : s.client.quit.connection = s.client.connection := by
    rw [SmtpClient.quit]
    split <;> rfl
  refine ⟨?_, .inr rfl, ?_⟩
  · rw [connection]
    exact h.connection
  · rcases log with log | log
    · rw [log]
      exact h.due
    · rw [log]
      exact justified_record h.due (by rintro _ _ ⟨⟩)

/-- A step leaves the client unconnected unless it is the event that says so; that one is noticed. -/
lemma Unconnected.step (h : s.Unconnected) (next : step k s e = some t) :
    (t.quiet = s.quiet ∧ t.Unconnected ∧ ∀ sentAll, e ≠ .onConnected true sentAll) ∨
      t.quiet = false ∧ ∃ sentAll, e = .onConnected true sentAll := by
  cases e with
  | connect url =>
    cases next
    exact .inl ⟨rfl, ⟨nofun, h.state, justified_record h.due nofun⟩, nofun⟩
  | onConnected ok sentAll =>
    simp only [SmtpSession.step, Option.ite_none_right_eq_some, Option.some.injEq] at next
    obtain ⟨-, rfl⟩ := next
    cases ok with
    | false => exact .inl ⟨rfl, ⟨nofun, h.state, h.due⟩, nofun⟩
    | true =>
      refine .inr ⟨?_, sentAll, rfl⟩
      exact onReadyToSendData_waiting (s := { s with client := { s.client with connection := .connected } })
        h.state sentAll
  | ready sentAll =>
    rw [SmtpSession.step, if_neg h.connection] at next
    cases next
  | receive bufs handled room sentAll =>
    rw [SmtpSession.step, if_neg h.connection] at next
    cases next
  | send mail =>
    cases next
    exact .inl ⟨rfl, ⟨h.connection, h.state, h.due⟩, nofun⟩
  | quit =>
    cases next
    exact .inl ⟨rfl, h.quit, nofun⟩
  | close =>
    cases next
    exact .inl ⟨rfl, ⟨nofun, h.state, justified_record h.due nofun⟩, nofun⟩

/-- What went wrong once stays so. -/
lemma step_quiet (next : step k s e = some t) (quiet : t.quiet = true) : s.quiet = true := by
  have event : ∀ (s' : SmtpSession) (sentAll : Bool), (s'.onReadyToSendData k sentAll).quiet = true →
      s'.quiet = true := fun s' sentAll h => (Bool.and_eq_true_iff.mp h).1
  cases e with
  | connect | send | quit | close =>
    cases next
    exact quiet
  | onConnected ok sentAll =>
    simp only [SmtpSession.step, Option.ite_none_right_eq_some, Option.some.injEq] at next
    obtain ⟨-, rfl⟩ := next
    cases ok with
    | false => exact quiet
    | true => exact event { s with client := { s.client with connection := .connected } } sentAll quiet
  | ready sentAll =>
    simp only [SmtpSession.step, Option.ite_none_right_eq_some, Option.some.injEq] at next
    obtain ⟨-, rfl⟩ := next
    exact event s sentAll quiet
  | receive bufs handled room sentAll =>
    simp only [SmtpSession.step, Option.ite_none_right_eq_some, onReceive] at next
    obtain ⟨-, next⟩ := next
    cases parsed : s.client.onReceive k bufs handled with
    | error fault =>
      rw [parsed] at next
      cases next
    | ok r =>
      rw [parsed] at next
      cases next
      simp only at quiet
      split at quiet
      · exact event { s with client := r.1 } sentAll quiet
      · exact quiet

lemma quiet_iff {es : List SmtpEvent} (run : Run (step k) Always {} es s) :
    (s.quiet = true → s.Unconnected) ∧ (s.quiet = true ↔ ∀ sentAll, .onConnected true sentAll ∉ es) := by
  induction run with
  | nil => exact ⟨fun _ => unconnected_init, fun _ _ => not_mem_nil, fun _ => rfl⟩
  | @snoc es s e t run _ next ih =>
    obtain ⟨before, iff⟩ := ih
    cases quiet : s.quiet with
    | false =>
      have loud : t.quiet ≠ true := fun h => by rw [step_quiet next h] at quiet; cases quiet
      refine ⟨fun h => absurd h loud, fun h => absurd h loud, fun none => ?_⟩
      have same := iff.mpr fun sentAll mem => none sentAll (mem_append_left _ mem)
      rw [quiet] at same
      cases same
    | true =>
      rcases (before quiet).step next with ⟨same, unconnected, other⟩ | ⟨loud, sentAll, rfl⟩
      · refine ⟨fun _ => unconnected, fun _ sentAll mem => ?_, fun _ => same.trans quiet⟩
        rcases mem_append.mp mem with mem | mem
        · exact iff.mp quiet sentAll mem
        · exact other sentAll (mem_singleton.mp mem).symm
      · refine ⟨fun h => ?_, fun h => ?_, fun none => absurd (mem_concat_self ..) (none sentAll)⟩
        · rw [loud] at h
          cases h
        · rw [loud] at h
          cases h

/-- The responses of a run are sent where they are due, and the waiting states keep still, exactly if the client never
gets a connection. -/
theorem smtpClient_response_iff (k : Codec) {es : List SmtpEvent} {s : SmtpSession}
    (run : Run (step k) Always {} es s) : Good s ↔ ∀ sentAll, .onConnected true sentAll ∉ es := by
  obtain ⟨unconnected, iff⟩ := quiet_iff run
  rw [Good, ← iff]
  exact ⟨And.left, fun quiet => ⟨quiet, (unconnected quiet).due⟩⟩

theorem smtpClient_response_offline : ∃ s, Run (step default) Always {}
    [.send {}, .connect { user := "user", password := "secret" }, .onConnected false true] s ∧
    s.client.log = [.connected] ∧ Good s :=
  exists_run (fun s => s.client.log = [.connected]) (by decide) fun _ run log =>
    ⟨log, (smtpClient_response_iff default run).mpr (by simp)⟩

/-- The event on a new connection, before the greeting of the server. -/
theorem smtpClient_response_unasked :
    ¬ (∀ es s, Run (step default) Always {} es s → s.quiet = true) ∧
    ¬ (∀ es s, Run (step default) Always {} es s → Justified Due s.client.log) := by
  obtain ⟨s, run, noisy, log⟩ : ∃ s, exec (step default) Always {} [.connect {}, .onConnected true true] = some s ∧
      s.quiet = false ∧ s.client.log = [.connected, .sent .banner (.authResponse [])] := ⟨_, rfl, rfl, rfl⟩
  refine ⟨fun all => ?_, fun all => ?_⟩
  · have quiet := all _ s (exec_run run)
    rw [noisy] at quiet
    cases quiet
  · have due := all _ s (exec_run run)
    rw [log] at due
    obtain ⟨state, -⟩ := due [.connected] _ [] rfl .banner [] rfl
    cases state

end SmtpSession

end Sming.Network
