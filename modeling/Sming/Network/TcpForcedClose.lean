import Sming.Network.TcpLifecycle

/-!
# The close after the last data

`TcpClient::send` may ask for the connection to be closed once its data is sent. `TcpClient::onSent` does so when the
output stream is gone, which `pushAsyncPart` drops as soon as lwIP has taken its last byte, acknowledged or not. The
test is made before the `ready` delegate is called, so what the delegate sends is not waited for either.

The model is that of a `TcpClient` in `TcpLifecycle`, except that the calls of `send` made by the `ready` delegate
inside `onSent` are part of that event. Each close that `onSent` makes is noted with the bytes accepted and
acknowledged until then and with what `completed` is told.

`outputOf` reads from the history of the output how much of it waits for lwIP and whether the last accepted call asked
for the close; `Tracks` is that the client goes by the same. The close is clean if the first acknowledgement after the
end of the output is one of everything.
-/

namespace Sming.Network
open Sming.Data Sming.Lib Option

structure SendCall where
  data : List UInt8
  forceCloseAfterSent : Bool
  alloc : Bool
  deriving Repr, DecidableEq

/-- A close made by `onSent`. -/
structure ForcedClose where
  success : Bool
  accepted : Nat
  acknowledged : Nat
  deriving Repr, DecidableEq

/-- A client and the closes that its `onSent` made. -/
structure TcpForcedClose where
  life : TcpLifecycle
  forced : List ForcedClose := []
  deriving Repr, DecidableEq

namespace TcpForcedClose

/-- A client as it is constructed, by the application or for a connection that a server accepted. -/
def new (accepted : Bool) : TcpForcedClose := { life := .new accepted }

def sends : TcpLifecycle → List SendCall → Option TcpLifecycle
  | l, [] => some l
  | l, call :: calls => (l.send call.data call.forceCloseAfterSent call.alloc).bind fun l => sends l calls

/-- lwIP has room for data, so that the `ready` delegate is called. -/
def HasRoom (l : TcpLifecycle) (lwip : Lwip) : Prop :=
  0 < (TcpConnection.getAvailableWriteSize (l.bound && l.client.canSend) lwip).1

instance (l : TcpLifecycle) (lwip : Lwip) : Decidable (HasRoom l lwip) := inferInstanceAs (Decidable (_ < _))

/-- (C++ `TcpConnection::onSent`); `calls` and `closes` say what the `ready` delegate does. -/
def connectionOnSent (l : TcpLifecycle) (calls : List SendCall) (lwip : Lwip) (closes : Bool) :
    Option TcpLifecycle :=
  if HasRoom l lwip then
    (sends l calls).bind fun m => m.onReadyToSendData
      (TcpConnection.getAvailableWriteSize (l.bound && l.client.canSend) lwip).2 closes
  else some l

def forceClose (p : TcpForcedClose) (l : TcpLifecycle) : TcpForcedClose :=
  { life := l.close
    forced := p.forced ++ if l.client.state.isFinal then []
      else [⟨l.close.client.state == .successful, l.accepted, l.acknowledged⟩] }

def closing (l : TcpLifecycle) : Bool := l.client.stream.isNone && l.client.asyncCloseAfterSent

def acknowledge (l : TcpLifecycle) (len : UInt16) : TcpLifecycle :=
  { l with
    client := { l.client with asyncTotalSent := l.client.asyncTotalSent + Int16.ofNat len.toNat }
    acknowledged := l.acknowledged + len.toNat }

def onSent (p : TcpForcedClose) (len : UInt16) (calls : List SendCall) (lwip : Lwip) (closes : Bool) :
    Option TcpForcedClose :=
  (connectionOnSent (acknowledge p.life len) calls lwip closes).map fun l =>
    if closing p.life then p.forceClose l else { p with life := l }

inductive Event where
  | other (e : TcpLifecycle.Event)
  | onSent (len : UInt16) (calls : List SendCall) (lwip : Lwip) (closes : Bool)
  deriving Repr, DecidableEq

/-- The event that stands for itself here. -/
def isOnSent : TcpLifecycle.Event → Bool
  | .onSent .. => true
  | _ => false

/-- One event; `none` if it has no defined outcome. -/
def step (p : TcpForcedClose) : Event → Option TcpForcedClose
  | .other e =>
    if isOnSent e then none else (p.life.step .tcpClient e).map fun l => { p with life := l }
  | .onSent len calls lwip closes =>
    if p.life.bound then p.onSent len calls lwip closes else some p

/-- What waits in the output, unless all of it has been taken since the last call of `send`, and whether the last
accepted call asked for the close. -/
structure Output where
  waiting : Option Nat := none
  forced : Bool := false
  deriving Repr, DecidableEq

def Output.next (o : Output) : OutputEvent → Output
  | .sent waiting force => ⟨some waiting, force.getD o.forced⟩
  | .taken len => { o with waiting := o.waiting.bind fun waiting => if waiting ≤ len then none else some (waiting - len) }
  | .finished => { o with waiting := none }

def outputOf (history : List OutputEvent) : Output := history.foldl Output.next {}

/-- lwIP has taken the whole output, and the last accepted `send` has asked for the close. -/
def Due (history : List OutputEvent) : Prop :=
  (outputOf history).waiting = none ∧ (outputOf history).forced = true

/-- When the close is due, the next `onSent` acknowledges all accepted bytes, and the `ready` delegate adds none. -/
def Settles (p : TcpForcedClose) : Event → Prop
  | .other _ => True
  | .onSent len calls _ _ =>
    p.life.bound = true → Due p.life.output → p.life.accepted = p.life.acknowledged + len.toNat ∧ calls = []

instance (p : TcpForcedClose) : (e : Event) → Decidable (p.Settles e)
  | .other _ => .isTrue trivial
  | .onSent _ _ _ _ => inferInstanceAs (Decidable (_ = true → _ ∧ _ → _ ∧ _))

def Clean (p : TcpForcedClose) : Prop := ∀ f ∈ p.forced, f.accepted = f.acknowledged ∧ f.success = true

instance (p : TcpForcedClose) : Decidable p.Clean := inferInstanceAs (Decidable (∀ f ∈ p.forced, _))

/-! ### What the calls do -/

variable {l m : TcpLifecycle} {calls : List SendCall}

lemma sends_moves (h : sends l calls = some m) : TcpLifecycle.Moves .tcpClient l m := by
  induction calls generalizing l with
  | nil =>
    cases h
    exact .refl
  | cons call calls ih =>
    obtain ⟨d, sent, h⟩ := bind_eq_some_iff.mp h
    exact .head (.send sent) (ih h)

variable {lwip : Lwip} {closes : Bool}

/-- The counters are kept, also if the delegate closes the connection. -/
lemma onReadyToSendData_counts (h : l.onReadyToSendData lwip closes = some m) :
    m.accepted = l.accepted ∧ m.acknowledged = l.acknowledged := by
  rw [TcpLifecycle.onReadyToSendData] at h
  split at h
  case isTrue =>
    cases h
    obtain ⟨stream, output, pushed⟩ := (l.delegate closes).push_eq lwip
    rw [pushed]
    cases closes with
    | false => exact ⟨rfl, rfl⟩
    | true =>
      simp only [TcpLifecycle.delegate, if_true, TcpLifecycle.close]
      split <;> exact ⟨rfl, rfl⟩
  case isFalse => cases h

lemma connectionOnSent_moves (h : connectionOnSent l calls lwip closes = some m) : TcpLifecycle.Moves .tcpClient l m := by
  rw [connectionOnSent] at h
  split at h
  case isTrue =>
    obtain ⟨d, sent, h⟩ := bind_eq_some_iff.mp h
    exact (sends_moves sent).trans (TcpLifecycle.onReadyToSendData_moves h)
  case isFalse =>
    cases h
    exact .refl

lemma connectionOnSent_counts (h : connectionOnSent l [] lwip closes = some m) :
    m.accepted = l.accepted ∧ m.acknowledged = l.acknowledged := by
  rw [connectionOnSent] at h
  split at h
  case isTrue => exact onReadyToSendData_counts h
  case isFalse =>
    cases h
    exact ⟨rfl, rfl⟩

/-! ### The history of the output -/

lemma outputOf_concat (history : List OutputEvent) (e : OutputEvent) :
    outputOf (history ++ [e]) = (outputOf history).next e := by
  rw [outputOf, List.foldl_append]
  rfl

/-- The stream holds what waits according to the history, and the client remembers the wish for the close. -/
structure Tracks (l : TcpLifecycle) : Prop where
  wf : l.client.StreamWF
  waiting : (outputOf l.output).waiting = l.client.stream.map (·.unread.length)
  forced : (outputOf l.output).forced = l.client.asyncCloseAfterSent

lemma Tracks.closing_iff (h : Tracks l) : closing l = true ↔ Due l.output := by
  rw [closing, Bool.and_eq_true, isNone_iff_eq_none, Due, h.waiting, map_eq_none_iff, h.forced]

lemma Tracks.finished (h : Tracks l) (stream : m.client.stream = none)
    (flag : m.client.asyncCloseAfterSent = l.client.asyncCloseAfterSent) (output : m.output = l.output ++ [.finished]) :
    Tracks m where
  wf t mem := by
    rw [stream] at mem
    cases mem
  waiting := by
    rw [output, outputOf_concat, stream]
    rfl
  forced := by
    rw [output, outputOf_concat, flag]
    exact h.forced

lemma Tracks.close (h : Tracks l) : Tracks l.close := by
  rw [TcpLifecycle.close]
  split
  · exact ⟨h.wf, h.waiting, h.forced⟩
  · exact h.finished rfl rfl rfl

lemma Tracks.send (h : Tracks l) {data force alloc} (sent : l.send data force alloc = some m) : Tracks m := by
  obtain ⟨⟨client, ok⟩, stored, rfl⟩ := map_eq_some_iff.mp sent
  cases proc : l.client.isProcessing with
  | false =>
    rw [TcpClient.send_of_not_isProcessing proc] at stored
    cases stored
    refine ⟨h.wf, ?_, ?_⟩
    · simpa using h.waiting
    · simpa using h.forced
  | true =>
    obtain ⟨stream, some, wf, flag⟩ := TcpClient.send_stream h.wf proc stored
    refine ⟨?_, ?_, ?_⟩
    · intro t mem
      cases some.symm.trans mem
      exact wf
    · simp only [if_true, outputOf_concat, Output.next, TcpClient.pending, some, map_some, elim_some]
    · simp only [if_true, outputOf_concat, Output.next, flag, h.forced]
      cases ok <;> rfl

/-- The output counts what `pushAsyncPart` takes. -/
lemma Tracks.push (h : Tracks l) (lwip : Lwip) : Tracks (l.push lwip) := by
  obtain ⟨wf, -, left⟩ := TcpClient.pushAsyncPart_spec h.wf lwip
  have live := l.client.pushAsyncPart_live lwip
  obtain ⟨stream, pushed⟩ := l.client.pushAsyncPart_eq lwip
  have length := congrArg List.length left
  rw [List.length_append] at length
  refine ⟨wf, ?_, ?_⟩
  · show (outputOf (l.output ++ [.taken (l.client.pushAsyncPart lwip).2.length])).waiting =
      (l.client.pushAsyncPart lwip).1.stream.map _
    rw [outputOf_concat, Output.next, h.waiting]
    cases old : l.client.stream with
    | none =>
      have nothing : l.client.pushAsyncPart lwip = (l.client, []) := by
        rw [TcpClient.pushAsyncPart, old]
      rw [nothing, old]
      rfl
    | some s =>
      rw [TcpClient.pending, old, TcpClient.pending, elim_some] at length
      rw [map_some, bind_some]
      cases new : (l.client.pushAsyncPart lwip).1.stream with
      | none =>
        rw [new] at length
        exact if_pos (Nat.le_of_eq length)
      | some t =>
        -- a stream that is kept has something left
        have more : t.unread.length ≠ 0 := by
          intro empty
          have finished := (wf t new).isFinished_iff.mpr (List.eq_nil_of_length_eq_zero empty)
          rw [live t new] at finished
          cases finished
        rw [new, elim_some] at length
        rw [if_neg (by omega), map_some, length, Nat.add_sub_cancel_left]
  · show (outputOf (l.output ++ [_])).forced = (l.client.pushAsyncPart lwip).1.asyncCloseAfterSent
    rw [outputOf_concat, pushed]
    exact h.forced

lemma Tracks.move (h : Tracks l) (move : TcpLifecycle.Move .tcpClient l m) : Tracks m := by
  cases move with
  | prepare | acknowledge | connected | reuse => exact ⟨h.wf, h.waiting, h.forced⟩
  | body _ kind => cases kind
  | push lwip => exact h.push lwip
  | send sent => exact h.send sent
  | close => exact h.close
  | fail => exact h.finished rfl rfl rfl
  | connect byName idle =>
    rw [TcpLifecycle.connect, idle, TcpClient.connect, idle]
    exact ⟨h.wf, h.waiting, h.forced⟩

/-! ### Runs -/

variable {p q : TcpForcedClose}

lemma onSent_moves {len : UInt16} (bound : p.life.bound = true)
    (h : p.onSent len calls lwip closes = some q) : TcpLifecycle.Moves .tcpClient p.life q.life := by
  obtain ⟨m, sent, rfl⟩ := map_eq_some_iff.mp h
  have moved : TcpLifecycle.Moves .tcpClient p.life m := .head (.acknowledge len bound) (connectionOnSent_moves sent)
  split
  · exact moved.tail .close
  · exact moved

lemma close_successful (k : l.Counted) (running : l.client.state.isFinal = false)
    (all : l.accepted = l.acknowledged) : l.close.client.state = .successful := by
  obtain ⟨len, sent⟩ := k.running running
  have same : l.client.asyncTotalSent = l.client.asyncTotalLen := by rw [len, sent, all]
  rw [TcpLifecycle.close, running]
  exact if_pos same

lemma Clean.forceClose (clean : p.Clean) (k : l.Counted) (all : l.accepted = l.acknowledged) :
    (p.forceClose l).Clean := by
  refine List.forall_mem_append.mpr ⟨clean, ?_⟩
  cases final : l.client.state.isFinal with
  | true => exact List.forall_mem_nil _
  | false =>
    refine List.forall_mem_singleton.mpr ⟨all, ?_⟩
    rw [close_successful k final all]
    rfl

lemma Clean.onSent {len : UInt16} (clean : p.Clean) (o : p.life.Once) (k : p.life.Counted) (tracks : Tracks p.life)
    (bound : p.life.bound = true) (settles : p.Settles (.onSent len calls lwip closes))
    (h : p.onSent len calls lwip closes = some q) : q.Clean := by
  obtain ⟨m, sent, rfl⟩ := map_eq_some_iff.mp h
  have moved : TcpLifecycle.Moves .tcpClient p.life m := .head (.acknowledge len bound) (connectionOnSent_moves sent)
  obtain ⟨-, k'⟩ := k.moves o moved
  split
  case isTrue due =>
    obtain ⟨all, rfl⟩ := settles bound (tracks.closing_iff.mp due)
    obtain ⟨accepted, acknowledged⟩ := connectionOnSent_counts sent
    exact clean.forceClose k' (accepted.trans (all.trans acknowledged.symm))
  case isFalse => exact clean

lemma step_other {e : TcpLifecycle.Event} (h : p.step (.other e) = some q) :
    ∃ m, p.life.step .tcpClient e = some m ∧ q = { p with life := m } := by
  rw [step] at h
  split at h
  · cases h
  · obtain ⟨m, st, rfl⟩ := map_eq_some_iff.mp h
    exact ⟨m, st, rfl⟩

lemma step_moves {e : Event} (h : p.step e = some q) : TcpLifecycle.Moves .tcpClient p.life q.life := by
  cases e with
  | other e =>
    obtain ⟨m, st, rfl⟩ := step_other h
    exact TcpLifecycle.step_moves (p.life.lively_tcpClient e) st
  | onSent len calls lwip closes =>
    rw [step] at h
    split at h
    case isTrue bound => exact onSent_moves bound h
    case isFalse =>
      cases h
      exact .refl

lemma Clean.step {e : Event} (clean : p.Clean) (o : p.life.Once) (k : p.life.Counted) (tracks : Tracks p.life)
    (settles : p.Settles e) (h : p.step e = some q) : q.Clean := by
  cases e with
  | other e =>
    obtain ⟨m, -, rfl⟩ := step_other h
    exact clean
  | onSent len calls lwip closes =>
    rw [TcpForcedClose.step] at h
    split at h
    case isTrue bound => exact clean.onSent o k tracks bound settles h
    case isFalse =>
      cases h
      exact clean

structure Inv (p : TcpForcedClose) : Prop where
  once : p.life.Once
  counted : p.life.Counted
  tracks : Tracks p.life
  clean : p.Clean

lemma Inv.step {e : Event} (inv : p.Inv) (settles : p.Settles e) (h : p.step e = some q) : q.Inv := by
  have moves := step_moves h
  obtain ⟨once, counted⟩ := inv.counted.moves inv.once moves
  have tracks := moves.invariant inv.tracks fun tracks move => tracks.move move
  exact ⟨once, counted, tracks, inv.clean.step inv.once inv.counted inv.tracks settles h⟩

/-- However its data is taken by lwIP and acknowledged, every close that `onSent` makes in a run finds all accepted
bytes acknowledged and is reported as a success, if the first acknowledgement after the end of a forced output is always
one of everything. -/
theorem forced_close_clean {accepted es p} (r : Run step Settles (new accepted) es p) : p.Clean := by
  have inv : p.Inv := by
    apply r.invariant
    · refine ⟨.new accepted, .new accepted, ?_, List.forall_mem_nil _⟩
      cases accepted <;> exact ⟨nofun, rfl, rfl⟩
    · exact fun inv settles st => inv.step settles st
  exact inv.clean

def threeBytes (len : UInt16) : List Event :=
  [.other (.connect true false (Session.Room 3) false), .other (.send [1, 2, 3] true true),
    .other (.onConnected true (Session.Room 3) false), .onSent len [] (Session.Room 3) false]

theorem forced_close_clean_acknowledged :
    ∃ p, exec step Settles (new false) (threeBytes 3) = some p ∧ p.forced = [⟨true, 3, 3⟩] ∧ p.Clean := by
  obtain ⟨p, done, forced⟩ : ∃ p, exec step Settles (new false) (threeBytes 3) = some p ∧ p.forced = [⟨true, 3, 3⟩] :=
    exists_exec (by decide +kernel)
  exact ⟨p, done, forced, forced_close_clean (exec_run done)⟩

/-- The acknowledgement of the first of three bytes closes the connection as a failure. -/
theorem forced_close_cuts_data : ¬ ∀ accepted es p, Run step Always (new accepted) es p → p.Clean := by
  intro all
  exact not_forall_run (threeBytes 1) (by decide +kernel) (all false)

end TcpForcedClose

end Sming.Network
