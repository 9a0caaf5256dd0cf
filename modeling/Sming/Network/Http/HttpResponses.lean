import Sming.Network.Http.HttpExchange

/-!
# Which request a response is delivered to

HTTP/1.1 answers the requests of a connection in the order they were sent, with one final response
each. The execution queue is to be what was sent and not yet answered. Three things break that: an
interim response takes a request from the queue as a final one does, a request that is put back for a
retry is in the queue without having been sent again, and a new TCP connection starts with what
`cleanup` left in the queue, and with the parser where the old one left it. Besides, what comes after a
callback has answered with an error is delivered to nobody.
-/

namespace Sming.Network.Http
open Sming.Lib List

namespace Exchange

def Phase (k : Exchange) (begun : List RequestId) : ParserPhase → Prop
  | .idle => begun.length = k.finals
  | .headers => begun.length = k.finals + 1 ∧ begun.getLast? = k.incoming
  | .body code =>
    begun.length = k.finals + 1 ∧ begun.getLast? = k.incoming ∧ isInterim code = false
  | .stopped => True

/-- Every part of a final response was delivered, and to the request it answers; the requests that
were sent are those whose responses have begun and those in the execution queue. -/
structure Matched (k : Exchange) : Prop where
  delivered : k.deliveries.map (fun d => (d.part, d.response)) = k.received
  owners : ∀ d ∈ k.deliveries, k.sent[d.response]? = some d.request
  aligned : k.connected = true → ∃ begun, k.sent = begun ++ k.execution ∧ k.Phase begun k.parser

/-- Only final responses come, to requests that are not to be repeated, none of them when the parser
has stopped, and a new TCP connection starts with nothing left over. -/
def Clean (k : Exchange) : HttpConnection.Event → Prop
  | .connected _ => k.execution = [] ∧ k.parser = .idle
  | .headersComplete code _ _ => isInterim code = false
  | .messageComplete _ _ => ∀ id ∈ k.incoming, (k.ticket id).retries ≤ 0
  | .unread _ => False
  | _ => True

section
variable {k k' : Exchange}

lemma Phase.next {begun : List RequestId} {p q : ParserPhase} (next : p = .stopped ∨ p = q)
    (phase : k.Phase begun q) : k.Phase begun p := by
  obtain rfl | rfl := next
  · trivial
  · exact phase

lemma Sends.matched (sends : k.Sends k') (m : k.Matched) : k'.Matched := by
  induction sends with
  | refl => exact m
  | tail _ st ih =>
    cases st with
    | idle => exact ⟨ih.delivered, ih.owners, ih.aligned⟩
    | @start id rest head may =>
      refine ⟨ih.delivered, ?_, ?_⟩
      · intro d mem
        have sent := ih.owners d mem
        rw [getElem?_append_left (List.getElem?_eq_some_iff.mp sent).1]
        exact sent
      · intro on
        obtain ⟨begun, sent, phase⟩ := ih.aligned on
        refine ⟨begun, ?_, phase⟩
        rw [sent, List.append_assoc]

lemma getElem?_of_getLast? {begun rest : List RequestId} {n : Nat} {id : RequestId}
    (length : begun.length = n + 1) (last : begun.getLast? = some id) : (begun ++ rest)[n]? = some id := by
  rw [getLast?_eq_getElem?, length] at last
  rw [getElem?_append_left (by omega)]
  exact last

lemma Matched.deliver (m : k.Matched) {begun : List RequestId} {part : Part} {code : Nat}
    (sent : k.sent = begun ++ k.execution) (length : begun.length = k.finals + 1)
    (last : begun.getLast? = k.incoming) (final : isInterim code = false) :
    ((k.deliver part code).deliveries.map (fun d => (d.part, d.response)) = (k.deliver part code).received) ∧
      ∀ d ∈ (k.deliver part code).deliveries, k.sent[d.response]? = some d.request := by
  obtain ⟨id, isLast⟩ : ∃ id, begun.getLast? = some id := by
    cases begun with
    | nil => cases length
    | cons first more => exact ⟨_, getLast?_cons⟩
  have owner : k.incoming = some id := last.symm.trans isLast
  simp only [Exchange.deliver, final, Bool.false_eq_true, if_false, owner, Option.toList_some,
    map_append, map_cons, map_nil, m.delivered, true_and]
  intro d mem
  obtain old | new := mem_append.mp mem
  · exact m.owners d old
  · rw [mem_singleton.mp new, sent]
    exact getElem?_of_getLast? length isLast

lemma Matched.complete (m : k.Matched) {code : Nat} (on : k.connected = true) (body : k.parser = .body code) :
    ((k.complete code).deliveries.map (fun d => (d.part, d.response)) = (k.complete code).received) ∧
      (∀ d ∈ (k.complete code).deliveries, k.sent[d.response]? = some d.request) ∧
      ∃ begun, k.sent = begun ++ k.execution ∧ begun.length = (k.complete code).finals := by
  obtain ⟨begun, sent, phase⟩ := m.aligned on
  rw [body] at phase
  obtain ⟨length, last, final⟩ := phase
  obtain ⟨delivered, owners⟩ := @Matched.deliver k m begun .completed code sent length last final
  refine ⟨delivered, owners, begun, sent, ?_⟩
  simp only [Exchange.complete, final, Bool.false_eq_true, if_false]
  exact length

/-- One move; the cases are those of `Exchange.Move`. -/
lemma Matched.move {prompt : Prop} {e : HttpConnection.Event} (m : k.Matched) (clean : k.Clean e)
    (move : Move prompt k e k') : k'.Matched := by
  cases move with
  | queued | refused => exact ⟨m.delivered, m.owners, m.aligned⟩
  | connected sends =>
    obtain ⟨empty, idle⟩ := clean
    refine Sends.matched sends ⟨rfl, nofun, fun _ => ⟨[], ?_, ?_⟩⟩
    · exact empty.symm
    · rw [idle]
      rfl
  | ready _ sends => exact Sends.matched sends m
  | unexpected on =>
    refine ⟨m.delivered, m.owners, fun on => ?_⟩
    obtain ⟨begun, sent, -⟩ := m.aligned on
    exact ⟨begun, sent, trivial⟩
  | @begin id rest on idle head =>
    refine ⟨m.delivered, m.owners, fun _ => ?_⟩
    obtain ⟨begun, sent, phase⟩ := m.aligned on
    rw [idle] at phase
    rw [head] at sent
    -- the head of the execution queue is the oldest request without a response
    refine ⟨begun ++ [id], ?_, ?_, getLast?_concat⟩
    · rw [List.append_assoc]
      exact sent
    · rw [List.length_append, phase]
      rfl
  | @headers code _ _ _ on headers next | @challenged _ code _ _ _ on headers _ _ next =>
    obtain ⟨begun, sent, phase⟩ := m.aligned on
    rw [headers] at phase
    obtain ⟨length, last⟩ := phase
    obtain ⟨delivered, owners⟩ := @Matched.deliver k m begun .headers code sent length last clean
    exact ⟨delivered, owners, fun _ => ⟨begun, sent, Phase.next next ⟨length, last, clean⟩⟩⟩
  | @body code refused parser on body next =>
    obtain ⟨begun, sent, phase⟩ := m.aligned on
    rw [body] at phase
    obtain ⟨length, last, final⟩ := phase
    obtain ⟨delivered, owners⟩ := @Matched.deliver k m begun .body code sent length last final
    exact ⟨delivered, owners, fun _ => ⟨begun, sent, Phase.next next ⟨length, last, final⟩⟩⟩
  | @unowned code _ _ on body =>
    obtain ⟨delivered, owners, begun, sent, -⟩ := m.complete on body
    exact ⟨delivered, owners, fun _ => ⟨begun, sent, trivial⟩⟩
  | retried _ _ owner more => exact absurd more (Int.not_lt.mpr (clean _ owner))
  | @answered id code _ _ parser on body _ _ _ next =>
    obtain ⟨delivered, owners, begun, sent, length⟩ := m.complete on body
    exact ⟨delivered, owners, fun _ => ⟨begun, sent, Phase.next next length⟩⟩
  | @drained id code _ _ parser _ on body _ _ _ next sends _ =>
    obtain ⟨delivered, owners, begun, sent, length⟩ := m.complete on body
    exact Sends.matched sends ⟨delivered, owners, fun _ => ⟨begun, sent, Phase.next next length⟩⟩
  | unread => exact clean.elim
  | error | close | renew => exact ⟨m.delivered, m.owners, nofun⟩

end

end Exchange

namespace HttpConnection

/-- Every part of a final response was delivered to the request that was sent in its place, and the
requests that wait for a response are the ones behind. -/
def Answers (c : HttpConnection) : Prop :=
  c.deliveries.map (fun d => (d.part, d.response)) = c.received ∧
    (∀ d ∈ c.deliveries, c.sent[d.response]? = some d.request) ∧
    (c.connected = true → c.parser = .idle → c.executionQueue.toList = c.sent.drop c.finals)

instance (c : HttpConnection) : Decidable c.Answers := inferInstanceAs (Decidable (_ ∧ _ ∧ (_ → _ → _)))

/-- The condition of `Clean` in a state of the connection. -/
def Clean (c : HttpConnection) (e : Event) : Prop := c.exchange.Clean e

instance (c : HttpConnection) : (e : Event) → Decidable (c.Clean e)
  | .connected _ => inferInstanceAs (Decidable (_ ∧ _))
  | .headersComplete _ _ _ => inferInstanceAs (Decidable (_ = _))
  | .messageComplete _ _ => inferInstanceAs (Decidable (∀ id ∈ c.incomingRequest, _))
  | .unread _ => .isFalse id
  | .send _ | .ready _ | .messageBegin | .body _ | .error | .close | .renew => .isTrue trivial

def firstAnswered : List Event :=
  [.send {}, .send {}, .connected { passes := [{ stored := 64 }], taken := 64 },
    .ready { passes := [{}, { stored := 64 }], taken := 64 }, .messageBegin,
    .headersComplete 200 false, .body false, .messageComplete false {}]

end HttpConnection

end Sming.Network.Http
