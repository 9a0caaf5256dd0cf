import Sming.Network.Http.HttpRequest

/-!
# From HTTP to websockets

Embedding of `HttpConnectionBase::onTcpReceive`, of the two ways in which a websocket takes over the receive delegate
(`WebsocketClient::verifyKey` on a client, the upgrade callback of `WebsocketResource` on a server) and of the loop of
`TcpClient::onReceive` that feeds the delegate.

The HTTP parser is given by what its loop does with one byte: the flag `upgrade` is set with the last byte of the
header block and stays until the message is complete, and a complete message with the flag set ends the loop right
behind its last byte. The caller does not look at what follows in the segment.
-/

namespace Sming.Network.Http
open List

/-- The parts of `http_parser` that `onTcpReceive` sees: the loop body of `http_parser_execute`, the
field `upgrade`, whether the message has been completed, and whether an `http_errno` is set. -/
structure UpgradeParser (P : Type) where
  step : P → UInt8 → P
  upgrade : P → Bool
  complete : P → Bool
  failed : P → Bool

variable {frames : List UInt8} {buffers : List (List UInt8)}

namespace UpgradeParser
variable {P : Type} (m : UpgradeParser P)

def run (p : P) (data : List UInt8) : P := data.foldl m.step p

/-- The parser after a segment, and the number of bytes taken from it (C `http_parser_execute`). -/
def execute : P → List UInt8 → P × Nat
  | p, [] => (p, 0)
  | p, b :: data =>
    let q := m.step p b
    if m.failed q then (q, 0)
    else if m.upgrade q && m.complete q then
      -- the rest of the segment is in a different protocol
      (q, 1)
    else ((execute q data).1, (execute q data).2 + 1)

/-- `head ++ body` is an upgrade message for a parser in the state `p`, and `head` is its header
block. -/
structure IsUpgrade (p : P) (head body : List UInt8) : Prop where
  nonempty : head ≠ []
  before : ∀ k < head.length, m.upgrade (m.run p (head.take k)) = false ∧
    m.failed (m.run p (head.take k)) = false
  behind : ∀ k ≤ body.length, m.upgrade (m.run p (head ++ body.take k)) = true ∧
    m.failed (m.run p (head ++ body.take k)) = false ∧
    m.complete (m.run p (head ++ body.take k)) = decide (k = body.length)

variable {m}

lemma run_append (p : P) (a b : List UInt8) : m.run p (a ++ b) = m.run (m.run p a) b := foldl_append

section
variable {p : P} {data : List UInt8} (h : ∀ k, 0 < k → k ≤ data.length →
  m.failed (m.run p (data.take k)) = false ∧
    (m.upgrade (m.run p (data.take k)) && m.complete (m.run p (data.take k))) = false)
include h

lemma execute_of_open : m.execute p data = (m.run p data, data.length) := by
  induction data generalizing p with
  | nil => rfl
  | cons b data ih =>
    obtain ⟨alive, more⟩ := h 1 Nat.one_pos (by simp)
    have rest : m.execute (m.step p b) data = (m.run (m.step p b) data, data.length) := by
      apply ih
      intro k _ le
      exact h (k + 1) (Nat.succ_pos k) (Nat.succ_le_succ le)
    rw [execute]
    simp only [take_succ_cons, take_zero, run, foldl_cons, foldl_nil] at alive more
    rw [alive, more, rest]
    rfl

lemma execute_of_complete {rest : List UInt8} {last : UInt8} (alive : m.failed (m.run p (data ++ [last])) = false)
    (done : (m.upgrade (m.run p (data ++ [last])) && m.complete (m.run p (data ++ [last]))) = true) :
    (m.execute p (data ++ last :: rest)).1 = m.run p (data ++ [last]) := by
  induction data generalizing p with
  | nil =>
    simp only [nil_append, run, foldl_cons, foldl_nil] at alive done
    rw [nil_append, execute, alive, done]
    rfl
  | cons b data ih =>
    obtain ⟨alive', more⟩ := h 1 Nat.one_pos (by simp)
    simp only [take_succ_cons, take_zero, run, foldl_cons, foldl_nil] at alive' more
    rw [cons_append, execute, alive', more]
    apply ih
    · intro k _ le
      exact h (k + 1) (Nat.succ_pos k) (Nat.succ_le_succ le)
    · exact alive
    · exact done

end

namespace IsUpgrade
variable {p : P} {head body rest : List UInt8}

lemma shift {part : List UInt8} (msg : m.IsUpgrade p (part ++ rest) body) (ne : rest ≠ []) :
    m.IsUpgrade (m.run p part) rest body where
  nonempty := ne
  before k lt := by
    have h := msg.before (part.length + k) (by simpa using lt)
    rwa [take_length_add_append, run_append] at h
  behind k le := by
    have h := msg.behind k le
    rwa [List.append_assoc, run_append] at h

lemma execute_inside {part : List UInt8} (msg : m.IsUpgrade p (part ++ rest) body) (ne : rest ≠ []) :
    m.execute p part = (m.run p part, part.length) ∧ m.upgrade (m.run p part) = false ∧
      m.failed (m.run p part) = false := by
  have short : ∀ k ≤ part.length, m.upgrade (m.run p (part.take k)) = false ∧
      m.failed (m.run p (part.take k)) = false := by
    intro k le
    have pos := length_pos_iff.mpr ne
    have h := msg.before k (by rw [List.length_append]; omega)
    rwa [take_append_of_le_length le] at h
  obtain ⟨clear, alive⟩ := short part.length (Nat.le_refl _)
  rw [take_length] at clear alive
  refine ⟨?_, clear, alive⟩
  apply execute_of_open
  intro k _ le
  obtain ⟨clear, alive⟩ := short k le
  exact ⟨alive, by rw [clear]; rfl⟩

lemma openAt (msg : m.IsUpgrade p head body) {k : Nat} (lt : k < (head ++ body).length) :
    m.failed (m.run p ((head ++ body).take k)) = false ∧ (m.upgrade (m.run p ((head ++ body).take k)) &&
        m.complete (m.run p ((head ++ body).take k))) = false := by
  rcases Nat.lt_or_ge k head.length with inside | outside
  · obtain ⟨clear, alive⟩ := msg.before k inside
    rw [take_append_of_le_length (Nat.le_of_lt inside)]
    exact ⟨alive, by rw [clear]; rfl⟩
  · rw [List.length_append] at lt
    obtain ⟨-, alive, complete⟩ := msg.behind (k - head.length) (by omega)
    rw [take_append, take_of_length_le outside]
    refine ⟨alive, ?_⟩
    rw [complete, decide_eq_false (by omega), Bool.and_false]

lemma execute_behind {data : List UInt8} (msg : m.IsUpgrade p head body)
    (cut : data ++ rest = head ++ body ++ frames) (long : head.length ≤ data.length) :
    m.upgrade (m.execute p data).1 = true ∧ m.failed (m.execute p data).1 = false := by
  rcases Nat.lt_or_ge data.length (head ++ body).length with inside | outside
  · -- the segment ends inside the body
    have part : data = (head ++ body).take data.length := by
      have h := congrArg (List.take data.length) cut
      rwa [take_left, take_append_of_le_length (Nat.le_of_lt inside)] at h
    have all : m.execute p data = (m.run p data, data.length) := by
      apply execute_of_open
      intro k _ le
      have h := msg.openAt (Nat.lt_of_le_of_lt le inside)
      rwa [← Nat.min_eq_left le, ← take_take, ← part] at h
    rw [List.length_append] at inside
    obtain ⟨flag, alive, -⟩ := msg.behind (data.length - head.length) (by omega)
    rw [all, part, take_append, take_of_length_le long]
    exact ⟨flag, alive⟩
  · -- the segment has the last byte of the message
    obtain ⟨init, last, whole⟩ := (head ++ body).eq_nil_or_concat'.resolve_left
      (by simp [msg.nonempty])
    obtain ⟨more, rfl⟩ : ∃ more, data = init ++ last :: more := by
      have h := congrArg (List.take (head ++ body).length) cut
      rw [take_append_of_le_length outside, take_left, whole] at h
      refine ⟨data.drop (head ++ body).length, ?_⟩
      conv_lhs => rw [← take_append_drop (head ++ body).length data]
      rw [whole, h, List.append_assoc]
      rfl
    obtain ⟨flag, alive, complete⟩ := msg.behind body.length (Nat.le_refl _)
    rw [take_length, whole] at flag alive complete
    rw [execute_of_complete _ alive (by rw [flag, complete, decide_eq_true rfl]; rfl)]
    · exact ⟨flag, alive⟩
    · intro k _ le
      have h := msg.openAt (k := k) (by rw [whole, List.length_append]; exact Nat.lt_succ_of_le le)
      rwa [whole, take_append_of_le_length le] at h

end IsUpgrade

end UpgradeParser

/-- The side on which a connection is upgraded. -/
inductive Role where
  | server
  | client
  deriving Repr, DecidableEq

/-- A connection that may be upgraded. `activated` says that the receive delegate is `processFrame`;
`received` are the bytes that came there; `aborted` says that `onReceive` answered `ERR_ABRT`. -/
structure UpgradeConnection (P : Type) where
  role : Role
  parser : P
  activated : Bool := false
  received : List UInt8 := []
  aborted : Bool := false

namespace UpgradeConnection
variable {P : Type} (m : UpgradeParser P) (wsOk : List UInt8 → Bool)

/-- (C++ `HttpConnectionBase::onTcpReceive`.) A client takes over in the callback for complete headers,
which comes with the flag; a server when `onProtocolUpgrade` calls the upgrade callback. -/
def onTcpReceive (c : UpgradeConnection P) (data : List UInt8) : UpgradeConnection P × Bool :=
  let (parser, parsedBytes) := m.execute c.parser data
  let c := { c with parser, activated := c.role == .client && m.upgrade parser }
  if m.failed parser then (c, false)
  else if m.upgrade parser then ({ c with activated := true }, true)
  else (c, parsedBytes == data.length)

/-- (C++ `WebsocketConnection::processFrame`.) What `ws_parser_execute` answers is given as a function
of all the bytes it has seen. -/
def processFrame (c : UpgradeConnection P) (data : List UInt8) : UpgradeConnection P × Bool :=
  ({ c with received := c.received ++ data }, wsOk (c.received ++ data))

def receive (c : UpgradeConnection P) (data : List UInt8) : UpgradeConnection P × Bool :=
  if c.activated then c.processFrame wsOk data else c.onTcpReceive m data

/-- The buffers of one TCP segment; the loop ends at an empty one. -/
def onReceive : UpgradeConnection P → List (List UInt8) → UpgradeConnection P
  | c, [] => c
  | c, data :: rest =>
    if data = [] then c
    else if (c.receive m wsOk data).2 then onReceive (c.receive m wsOk data).1 rest
    else { (c.receive m wsOk data).1 with aborted := true }

/-- All segments; after `ERR_ABRT` the connection gets no more. -/
def receiveAll : UpgradeConnection P → List (List (List UInt8)) → UpgradeConnection P
  | c, [] => c
  | c, segment :: segments =>
    if (c.onReceive m wsOk segment).aborted then c.onReceive m wsOk segment
    else receiveAll (c.onReceive m wsOk segment) segments

variable {m wsOk}

lemma receive_aborted (c : UpgradeConnection P) (data : List UInt8) :
    (c.receive m wsOk data).1.aborted = c.aborted := by
  rw [receive]
  split
  · rfl
  · rw [onTcpReceive]
    simp only
    repeat' split
    all_goals rfl

variable {c : UpgradeConnection P} {data : List UInt8}

lemma onReceive_cons {rest : List (List UInt8)} (full : [] ∉ data :: rest) :
    c.onReceive m wsOk (data :: rest) =
      if (c.receive m wsOk data).2 then (c.receive m wsOk data).1.onReceive m wsOk rest
      else { (c.receive m wsOk data).1 with aborted := true } := by
  rw [onReceive, if_neg]
  rintro rfl
  exact full mem_cons_self

lemma onReceive_append {a : List (List UInt8)} (b : List (List UInt8)) (alive : c.aborted = false) (full : [] ∉ a) :
    c.onReceive m wsOk (a ++ b) = if (c.onReceive m wsOk a).aborted then c.onReceive m wsOk a
      else (c.onReceive m wsOk a).onReceive m wsOk b := by
  induction a generalizing c with
  | nil => rw [nil_append, onReceive, alive]; rfl
  | cons data rest ih =>
    rw [onReceive_cons full, cons_append, onReceive, if_neg (ne_of_not_mem_cons full).symm]
    cases (c.receive m wsOk data).2 with
    | true =>
      apply ih
      · rw [receive_aborted, alive]
      · exact not_mem_of_not_mem_cons full
    | false => rfl

lemma receiveAll_eq {segments : List (List (List UInt8))}
    (alive : c.aborted = false) (full : ∀ segment ∈ segments, [] ∉ segment) :
    c.receiveAll m wsOk segments = c.onReceive m wsOk segments.flatten := by
  induction segments generalizing c with
  | nil => rfl
  | cons segment segments ih =>
    rw [flatten_cons, onReceive_append _ alive (full segment mem_cons_self), receiveAll]
    split
    · rfl
    case isFalse h =>
      apply ih
      · exact Bool.not_eq_true _ ▸ h
      · exact fun s hs => full s (mem_cons_of_mem _ hs)

lemma received_of_activated (active : c.activated = true) (full : [] ∉ buffers) :
    (c.onReceive m wsOk buffers).received = c.received ++ buffers.flatten ∨
      ∃ part, part <+: buffers.flatten ∧ (c.onReceive m wsOk buffers).received = c.received ++ part ∧
        wsOk (c.received ++ part) = false := by
  induction buffers generalizing c with
  | nil => exact .inl (append_nil _).symm
  | cons data rest ih =>
    rw [onReceive_cons full, receive, if_pos active, processFrame, flatten_cons]
    simp only
    split
    case isTrue =>
      rcases @ih { c with received := c.received ++ data } active (not_mem_of_not_mem_cons full)
        with all | ⟨part, pre, e, stop⟩
      · rw [all, List.append_assoc]
        exact .inl rfl
      · refine .inr ⟨data ++ part, (prefix_append_right_inj data).mpr pre, ?_, ?_⟩
        · rw [e, List.append_assoc]
        · rwa [List.append_assoc] at stop
    case isFalse stop =>
      exact .inr ⟨data, prefix_append _ _, rfl, Bool.not_eq_true _ ▸ stop⟩

lemma receive_inside {rest body : List UInt8}
    (idle : c.activated = false) (msg : m.IsUpgrade c.parser (data ++ rest) body) (ne : rest ≠ []) :
    c.receive m wsOk data = ({ c with parser := m.run c.parser data }, true) := by
  obtain ⟨all, clear, alive⟩ := msg.execute_inside ne
  rw [receive, idle, if_neg Bool.false_ne_true, onTcpReceive, all]
  simp [clear, alive]

lemma receive_behind {rest head body : List UInt8} (idle : c.activated = false) (msg : m.IsUpgrade c.parser head body)
    (cut : data ++ rest = head ++ body ++ frames) (long : head.length ≤ data.length) :
    ∃ d, c.receive m wsOk data = (d, true) ∧ d.activated = true ∧ d.received = c.received := by
  obtain ⟨flag, alive⟩ := msg.execute_behind cut long
  rw [receive, idle, if_neg Bool.false_ne_true, onTcpReceive]
  simp only [flag, alive]
  exact ⟨_, rfl, rfl, rfl⟩

end UpgradeConnection

/-- A buffer ends where the message ends, and none that is before it ends behind the header block. -/
def Aligned (head body : List UInt8) (buffers : List (List UInt8)) : Prop :=
  ∃ n, (buffers.take n).flatten = head ++ body ∧
    ∀ k < n, (buffers.take k).flatten.length < head.length

lemma aligned_cons_inside {data todo body : List UInt8} {rest : List (List UInt8)} (ne : data ≠ []) :
    Aligned (data ++ todo) body (data :: rest) ↔ Aligned todo body rest := by
  constructor
  · rintro ⟨n, e, short⟩
    cases n with
    | zero =>
      rw [take_zero, flatten_nil, List.append_assoc] at e
      exact absurd (append_eq_nil_iff.mp e.symm).1 ne
    | succ n =>
      refine ⟨n, ?_, ?_⟩
      · rwa [take_succ_cons, flatten_cons, List.append_assoc, append_cancel_left_eq] at e
      · intro k lt
        simpa using short (k + 1) (Nat.succ_lt_succ lt)
  · rintro ⟨n, e, short⟩
    refine ⟨n + 1, ?_, ?_⟩
    · rw [take_succ_cons, flatten_cons, e, List.append_assoc]
    · intro k lt
      cases k with
      | zero =>
        have pos := length_pos_iff.mpr ne
        rw [take_zero, flatten_nil, length_nil, List.length_append]
        omega
      | succ k => simpa using short k (Nat.lt_of_succ_lt_succ lt)

lemma aligned_cons_behind {data head body : List UInt8} {rest : List (List UInt8)}
    (ne : head ≠ []) (cut : data ++ rest.flatten = head ++ body ++ frames) (long : head.length ≤ data.length) :
    Aligned head body (data :: rest) ↔ rest.flatten = frames := by
  constructor
  · rintro ⟨n, e, short⟩
    match n with
    | 0 =>
      exact absurd (append_eq_nil_iff.mp e.symm).1 ne
    | 1 =>
      have front : data = head ++ body := by simpa using e
      rwa [front, append_cancel_left_eq] at cut
    | n + 2 =>
      have h := short 1 (by omega)
      simp at h
      omega
  · intro left
    rw [left, append_cancel_right_eq] at cut
    refine ⟨1, ?_, ?_⟩
    · simpa using cut
    · intro k lt
      obtain rfl := Nat.lt_one_iff.mp lt
      simpa using length_pos_iff.mpr ne

namespace UpgradeConnection
variable {P : Type} {m : UpgradeParser P} {wsOk : List UInt8 → Bool}

lemma received_eq_iff_of_activated {d : UpgradeConnection P} (active : d.activated = true) (none : d.received = [])
    (valid : ∀ part, part <+: frames → wsOk part = true) (full : [] ∉ buffers) :
    (d.onReceive m wsOk buffers).received = frames ↔ buffers.flatten = frames := by
  rcases @received_of_activated buffers _ m wsOk _ active full with all | ⟨part, pre, cutAt, stop⟩
  · rw [all, none, nil_append]
  · rw [none, nil_append] at cutAt stop
    have refused : ¬ part <+: frames := by
      intro pre
      rw [valid part pre] at stop
      cases stop
    rw [cutAt]
    constructor
    · rintro rfl
      exact absurd prefix_rfl refused
    · rintro rfl
      exact absurd pre refused

lemma received_eq_iff_aligned {c : UpgradeConnection P} {head body : List UInt8}
    (idle : c.activated = false) (none : c.received = [])
    (msg : m.IsUpgrade c.parser head body) (valid : ∀ part, part <+: frames → wsOk part = true)
    (full : [] ∉ buffers) (cut : buffers.flatten = head ++ body ++ frames) :
    (c.onReceive m wsOk buffers).received = frames ↔ Aligned head body buffers := by
  induction buffers generalizing c head with
  | nil =>
    have e : head = [] := by
      rw [flatten_nil, List.append_assoc] at cut
      exact (append_eq_nil_iff.mp cut.symm).1
    exact absurd e msg.nonempty
  | cons data rest ih =>
    have more : [] ∉ rest := not_mem_of_not_mem_cons full
    rw [flatten_cons] at cut
    rw [onReceive_cons full]
    rcases Nat.lt_or_ge data.length head.length with inside | long
    · -- the header block goes on behind this buffer
      obtain ⟨todo, rfl⟩ : data <+: head := by
        have first : data <+: data ++ rest.flatten := prefix_append _ _
        refine prefix_of_prefix_length_le first ?_ (Nat.le_of_lt inside)
        rw [cut, List.append_assoc]
        exact prefix_append _ _
      have ne : todo ≠ [] := by
        rintro rfl
        simp at inside
      rw [receive_inside idle msg ne, if_pos rfl, aligned_cons_inside (ne_of_not_mem_cons full).symm]
      rw [List.append_assoc, List.append_assoc, append_cancel_left_eq] at cut
      apply @ih { c with parser := m.run c.parser data } _ idle none (msg.shift ne) more
      rw [cut, List.append_assoc]
    · -- the websocket gets what comes after this buffer
      obtain ⟨d, e, active, same⟩ := @receive_behind _ _ m wsOk _ _ _ _ _ idle msg cut long
      rw [e, if_pos rfl, aligned_cons_behind msg.nonempty cut long]
      exact received_eq_iff_of_activated active (same.trans none) valid more

/-- The websocket gets exactly the bytes behind the upgrade message if and only if a buffer ends with
the message and none ends earlier behind its header block. -/
theorem received_eq_frames_iff (role : Role) {p : P} {head body frames : List UInt8}
    {segments : List (List (List UInt8))} (msg : m.IsUpgrade p head body)
    (valid : ∀ part, part <+: frames → wsOk part = true) (full : ∀ segment ∈ segments, [] ∉ segment)
    (cut : segments.flatten.flatten = head ++ body ++ frames) :
    (receiveAll m wsOk { role, parser := p } segments).received = frames ↔
      Aligned head body segments.flatten := by
  rw [receiveAll_eq rfl full]
  apply received_eq_iff_aligned rfl rfl msg valid _ cut
  intro empty
  obtain ⟨segment, mem, empty⟩ := mem_flatten.mp empty
  exact full segment mem empty

end UpgradeConnection

/-- As much of the HTTP parser as an upgrade request without a body needs: how far the empty line that
ends the header block has been read. -/
def blankLine : UpgradeParser Nat where
  step n b :=
    if b = 13 then if n = 2 then 3 else 1
    else if b = 10 then if n = 1 then 2 else if n = 3 then 4 else 0
    else 0
  upgrade n := n == 4
  complete n := n == 4
  failed _ := false

def upgradeRequest : List UInt8 := bytes "GET / HTTP/1.1\r\nConnection: Upgrade\r\nUpgrade: websocket\r\n\r\n"

def textFrame : List UInt8 := [0x81, 1, 104]

lemma isUpgrade_upgradeRequest : blankLine.IsUpgrade 0 upgradeRequest [] :=
  ⟨by decide, by decide +kernel, by decide +kernel⟩

namespace UpgradeConnection

theorem received_eq_frames_iff_two_segments :
    (receiveAll blankLine (fun _ => true) { role := .server, parser := 0 }
        [[upgradeRequest.take 20], [upgradeRequest.drop 20], [textFrame]]).received = textFrame ∧
      Aligned upgradeRequest [] [[upgradeRequest.take 20], [upgradeRequest.drop 20], [textFrame]].flatten := by
  have aligned : Aligned upgradeRequest []
      [[upgradeRequest.take 20], [upgradeRequest.drop 20], [textFrame]].flatten :=
    ⟨2, by decide +kernel, by decide +kernel⟩
  refine ⟨?_, aligned⟩
  apply (received_eq_frames_iff .server isUpgrade_upgradeRequest _ _ _).mpr aligned
  · exact fun _ _ => rfl
  · decide +kernel
  · decide +kernel

/-- A frame in the segment of the request does not reach the websocket. -/
theorem frame_behind_request_lost :
    ¬ ∀ (P : Type) (m : UpgradeParser P) (wsOk : List UInt8 → Bool) (role : Role) (p : P)
      (head body frames : List UInt8) (segments : List (List (List UInt8))),
      m.IsUpgrade p head body → (∀ part, part <+: frames → wsOk part = true) →
      (∀ segment ∈ segments, [] ∉ segment) → segments.flatten.flatten = head ++ body ++ frames →
      (receiveAll m wsOk { role, parser := p } segments).received = frames := by
  intro h
  have all := h Nat blankLine (fun _ => true) .server 0 upgradeRequest [] textFrame
    [[upgradeRequest ++ textFrame]] isUpgrade_upgradeRequest (fun _ _ => rfl) (by decide +kernel)
    (by decide +kernel)
  exact absurd all (by decide +kernel)

end UpgradeConnection

end Sming.Network.Http
