import Sming.Network.Http.HttpConnection

/-!
# What a connection does with its requests

The abstract model of `HttpConnection`. The queues are lists, a request is a ticket that says whether
it may be pipelined, how often it is to be repeated and whether it uses digest authentication, and how
its bytes are sent is left out. A `Move` is what one event does to that picture; `step_move` says that every step of the connection is
a move, and all results about runs of the connection are proved from the moves.
-/

namespace Sming.Network.Http
open Sming.Wiring Sming.Lib List Option ObjectQueue

structure Ticket where
  pipelinable : Bool
  retries : Int
  digest : Bool
  deriving Repr, DecidableEq

/-- A request that a response can make one that is to be repeated. -/
def HttpRequest.digest (r : HttpRequest) : Bool := r.auth matches some (.digest _)

def HttpRequest.ticket (r : HttpRequest) : Ticket := ⟨r.pipelinable, r.retries, r.digest⟩

lemma HttpRequest.ticket_startBody (r : HttpRequest) : r.startBody.ticket = r.ticket := by
  rw [startBody]
  split <;> rfl

lemma HttpRequest.ticket_setResponse (r : HttpRequest) (code : Nat) (value : Option String) :
    (r.setResponse code value).ticket = r.ticket ∨
      r.digest = true ∧ (r.setResponse code value).ticket = { r.ticket with retries := 1 } := by
  rw [setResponse]
  split
  case h_1 username auth =>
    split
    · refine .inr ⟨?_, rfl⟩
      rw [digest, auth]
    · exact .inl rfl
  case h_2 => exact .inl rfl
  case h_3 => exact .inl rfl

/-- Requests are numbered as they are made; `born` is the next number. -/
structure Exchange where
  born : Nat
  ticket : RequestId → Ticket
  deleted : List RequestId
  waiting : List RequestId
  execution : List RequestId
  incoming : Option RequestId
  outgoing : Option RequestId
  parser : ParserPhase
  connected : Bool
  sent : List RequestId
  finals : Nat
  received : List (Part × Nat)
  deliveries : List Delivery
  starts : List (RequestId × List RequestId)

namespace Exchange

inductive SendStep (k : Exchange) : Exchange → Prop where
  | idle :
    k.waiting = [] →
    SendStep k { k with outgoing := none }
  | start {id rest} :
    k.waiting = id :: rest →
    (k.execution ≠ [] →
      (k.ticket id).pipelinable ∧ ∀ out ∈ k.outgoing, (k.ticket out).pipelinable) →
    SendStep k { k with
      waiting := rest
      execution := k.execution ++ [id]
      outgoing := some id
      sent := k.sent ++ [id]
      starts := k.starts ++ [(id, k.execution)] }

abbrev Sends : Exchange → Exchange → Prop := Relation.ReflTransGen SendStep

variable (k : Exchange)

def reset : Exchange :=
  { k with deleted := k.deleted ++ k.incoming.toList, incoming := none }

lemma reset_of_none {k : Exchange} (none : k.incoming = none) : k.reset = k := by
  cases k
  cases none
  simp [reset]

structure SameResponses (k k' : Exchange) : Prop where
  born : k'.born = k.born
  ticket : k'.ticket = k.ticket
  deleted : k'.deleted = k.deleted
  incoming : k'.incoming = k.incoming
  parser : k'.parser = k.parser

lemma Sends.frame {k k' : Exchange} (sends : k.Sends k') : k.SameResponses k' := by
  induction sends with
  | refl => exact ⟨rfl, rfl, rfl, rfl, rfl⟩
  | tail _ st ih =>
    obtain ⟨born, ticket, deleted, incoming, parser⟩ := ih
    cases st with
    | idle => exact ⟨born, ticket, deleted, incoming, parser⟩
    | start => exact ⟨born, ticket, deleted, incoming, parser⟩

def deliver (part : Part) (code : Nat) : Exchange :=
  { k with
    received := if isInterim code then k.received else k.received ++ [(part, k.finals)]
    deliveries :=
      if isInterim code then k.deliveries
      else k.deliveries ++ k.incoming.toList.map fun id => ⟨part, k.finals, id⟩ }

def complete (code : Nat) : Exchange :=
  { k.deliver .completed code with
    finals := if isInterim code then k.finals else k.finals + 1 }

/-- Digest authentication makes a request one that is to be repeated. -/
def challenge (id : RequestId) : Exchange :=
  { k with ticket := Function.update k.ticket id { k.ticket id with retries := 1 } }

def ignore (part : Part) : Exchange :=
  { k with
    received := k.received ++ [(part, k.finals)]
    finals := if part = .completed then k.finals + 1 else k.finals }

def retry (id : RequestId) : Exchange :=
  reset { k with
    ticket := Function.update k.ticket id
      { k.ticket id with retries := (k.ticket id).retries - 1 }
    execution :=
      if k.execution.length < httpRequestPoolSize then k.execution ++ [id] else k.execution
    parser := if k.execution.length < httpRequestPoolSize then .idle else .stopped }

def finish (id : RequestId) (parser : ParserPhase) : Exchange :=
  { k with deleted := k.deleted ++ [id], incoming := none, parser := parser }

/-- About the half of the executing requests goes behind the waiting ones. -/
def cleanup : Exchange :=
  let half := (k.execution.length + 1) / 2
  { k.reset with
    waiting := (k.waiting ++ k.execution.take half).take httpRequestPoolSize
    execution := k.execution.drop half }

/-- What an event can do. `prompt` says that a call of `onReadyToSendData` looks into the waiting queue
and not at the outgoing request. -/
inductive Move (prompt : Prop) (k : Exchange) : HttpConnection.Event → Exchange → Prop where
  | queued {r} :
    Move prompt k (.send r) { k with
      born := k.born + 1
      ticket := Function.update k.ticket k.born r.ticket
      waiting := k.waiting ++ [k.born] }
  | refused {r} :
    Move prompt k (.send r) { k with
      born := k.born + 1
      ticket := Function.update k.ticket k.born r.ticket
      deleted := k.deleted ++ [k.born] }
  | connected {env k'} :
    Sends { k with connected := true, sent := [], finals := 0, received := [], deliveries := [] } k' →
    Move prompt k (.connected env) k'
  | ready {env k'} :
    k.connected →
    Sends k k' →
    Move prompt k (.ready env) k'
  | unexpected :
    k.connected → k.parser = .idle →
    k.execution = [] →
    Move prompt k .messageBegin { k.reset with parser := .stopped }
  | begin {id rest} :
    k.connected → k.parser = .idle →
    k.execution = id :: rest →
    Move prompt k .messageBegin { k.reset with
      execution := rest
      incoming := some id
      parser := .headers }
  | headers {code refused value parser} :
    k.connected → k.parser = .headers →
    parser = .stopped ∨ parser = .body code →
    Move prompt k (.headersComplete code refused value) { k.deliver .headers code with parser := parser }
  | challenged {id code refused value parser} :
    k.connected → k.parser = .headers →
    k.incoming = some id →
    (k.ticket id).digest = true →
    parser = .stopped ∨ parser = .body code →
    Move prompt k (.headersComplete code refused value)
      { (k.deliver .headers code).challenge id with parser := parser }
  | body {code refused parser} :
    k.connected → k.parser = .body code →
    parser = .stopped ∨ parser = .body code →
    (refused = true → parser = .stopped) →
    Move prompt k (.body refused) { k.deliver .body code with parser := parser }
  | unowned {code hasError env} :
    k.connected → k.parser = .body code →
    k.incoming = none →
    Move prompt k (.messageComplete hasError env) { k.complete code with parser := .stopped }
  | retried {id code hasError env} :
    k.connected → k.parser = .body code →
    k.incoming = some id →
    0 < (k.ticket id).retries →
    Move prompt k (.messageComplete hasError env) ((k.complete code).retry id)
  | answered {id code hasError env parser} :
    k.connected → k.parser = .body code →
    k.incoming = some id →
    (k.ticket id).retries ≤ 0 →
    k.execution ≠ [] →
    parser = .stopped ∨ parser = .idle →
    Move prompt k (.messageComplete hasError env) ((k.complete code).finish id parser)
  | drained {id code hasError env parser k'} :
    k.connected → k.parser = .body code →
    k.incoming = some id →
    (k.ticket id).retries ≤ 0 →
    k.execution = [] →
    parser = .stopped ∨ parser = .idle →
    Sends ((k.complete code).finish id parser) k' →
    (prompt → Relation.TransGen SendStep ((k.complete code).finish id parser) k') →
    Move prompt k (.messageComplete hasError env) k'
  | unread {part} :
    k.connected → k.parser = .stopped →
    Move prompt k (.unread part) (k.ignore part)
  | error :
    Move prompt k .error { k.cleanup with connected := false }
  | close :
    Move prompt k .close { k with connected := false }
  | renew :
    Move prompt k .renew { k.cleanup with
      execution := []
      outgoing := none
      parser := .idle
      connected := false }

end Exchange

namespace HttpConnection

/-- The abstract view of a connection. -/
def exchange (c : HttpConnection) : Exchange where
  born := c.requests.length
  ticket id := (c.request id).ticket
  deleted := c.deleted
  waiting := c.waitingQueue.toList
  execution := c.executionQueue.toList
  incoming := c.incomingRequest
  outgoing := c.outgoingRequest
  parser := c.parser
  connected := c.connected
  sent := c.sent
  finals := c.finals
  received := c.received
  deliveries := c.deliveries
  starts := c.starts

/-! ### Sending -/

variable {c : HttpConnection} {id : RequestId} {p : Pass}

/-- A change of a request is a change of its ticket. -/
lemma exchange_updated {f : HttpRequest → HttpRequest} (known : id < c.requests.length) :
    (c.update id f).exchange =
      { c.exchange with ticket := Function.update c.exchange.ticket id (f (c.request id)).ticket } := by
  have tickets : (fun x => ((c.update id f).request x).ticket) =
      Function.update c.exchange.ticket id (f (c.request id)).ticket := by
    funext x
    simp only [request, update, exchange, Function.update_apply, getD_eq_getElem?_getD, getElem?_modify]
    by_cases h : x = id
    · subst h
      rw [getElem?_eq_getElem known]
      simp
    · simp [h, Ne.symm h]
  have born : (c.update id f).requests.length = c.requests.length := length_modify ..
  rw [← tickets]
  simp only [exchange, born]
  rfl

/-- A change that keeps the ticket is not seen. -/
lemma exchange_update {f : HttpRequest → HttpRequest}
    (keep : (f (c.request id)).ticket = (c.request id).ticket) : (c.update id f).exchange = c.exchange := by
  by_cases known : id < c.requests.length
  · rw [exchange_updated known, keep]
    simp only [exchange, Function.update_eq_self]
  · rw [update, modify_eq_self (Nat.le_of_not_lt known)]

/-- The body of a request goes out unseen. -/
lemma exchange_sendRequestBody (c : HttpConnection) (p : Pass) : (c.sendRequestBody p).1.exchange = c.exchange := by
  rw [sendRequestBody]
  split
  case h_1 => rfl
  case h_2 out _ =>
    by_cases start : c.state = .startBody
    · by_cases body : (c.request out).bodyStream = none
      · simp only [if_pos start, if_pos body]
        rfl
      · simp only [if_pos start, if_neg body]
        exact @exchange_update (c.read [out]) out _ (HttpRequest.ticket_startBody _)
    · simp only [if_neg start]
      cases c.stream <;> rfl

lemma exchange_passBody (c : HttpConnection) (p : Pass) : (c.passBody p).1.exchange = c.exchange := by
  have body := c.exchange_sendRequestBody p
  rw [passBody]
  generalize c.sendRequestBody p = answer at body
  obtain ⟨d, done⟩ := answer
  cases done with
  | false => exact body
  | true => exact body

lemma exchange_passHeaders (c : HttpConnection) (p : Pass) : (c.passHeaders p).1.exchange = c.exchange := by
  rw [passHeaders]
  split
  · rfl
  · exact exchange_passBody { c with state := .startBody } p

/-- A pass that starts over has sent its request. -/
lemma passBody_again (again : (c.passBody p).2 = true) : (c.passBody p).1.state = .ready := by
  rw [passBody] at again ⊢
  generalize c.sendRequestBody p = answer at again
  obtain ⟨d, done⟩ := answer
  cases done with
  | false => cases again
  | true => rfl

lemma passHeaders_again (again : (c.passHeaders p).2 = true) : (c.passHeaders p).1.state = .ready := by
  rw [passHeaders] at again ⊢
  split at again
  · cases again
  case isFalse finished =>
    rw [if_neg finished]
    exact passBody_again again

/-- The first waiting request becomes the last executing one. -/
lemma exchange_startRequest {rest : List RequestId} (p : Pass) (head : c.waitingQueue.toList = id :: rest)
    (room : c.executionQueue.toList.length < httpRequestPoolSize) :
    (c.startRequest id p).exchange = { c.exchange with
      waiting := rest
      execution := c.executionQueue.toList ++ [id]
      outgoing := some id
      sent := c.sent ++ [id]
      starts := c.starts ++ [(id, c.executionQueue.toList)] } := by
  have same : ((c.read [id]).update id (HttpRequest.sendRequestHeaders · p.boundary)).exchange = c.exchange :=
    @exchange_update (c.read [id]) id _ rfl
  rw [← same]
  simp only [exchange, startRequest, dequeue_toList, enqueue_toList, head, if_pos room, tail_cons]
  rfl

/-- A pass in `eHCS_Ready` starts a request or finds none to start; if another one is executed, it can also leave
the waiting one where it is. -/
lemma pass_ready (ready : c.state = .ready) :
    (Exchange.SendStep c.exchange (c.pass p).1.exchange ∧ ((c.pass p).2 = true →
          (c.pass p).1.waitingQueue.toList.length < c.waitingQueue.toList.length)) ∨
      ((c.pass p).1.exchange = c.exchange ∧ (c.pass p).2 = false ∧ c.executionQueue.toList ≠ []) := by
  simp only [pass, ready, peek_eq]
  cases head : c.waitingQueue.toList with
  | nil => exact .inl ⟨.idle head, nofun⟩
  | cons id rest =>
    simp only [head?_cons, enqueue_ok]
    by_cases start : (c.canStart id && decide (c.executionQueue.toList.length < httpRequestPoolSize))
    · rw [if_pos start]
      rw [Bool.and_eq_true, decide_eq_true_eq] at start
      obtain ⟨may, room⟩ := start
      have started := @exchange_startRequest (c.read (c.compared id)) id rest p head room
      have passed := ((c.read (c.compared id)).startRequest id p).exchange_passHeaders p
      rw [started] at passed
      left
      constructor
      · rw [passed]
        apply Exchange.SendStep.start head
        intro busy
        rw [canStart, count_eq, Bool.or_eq_true, beq_iff_eq, List.length_eq_zero_iff] at may
        have pipeline := may.resolve_left busy
        rw [Bool.and_eq_true, Option.all_eq_true] at pipeline
        exact pipeline
      · intro _
        have shorter : (((c.read (c.compared id)).startRequest id p).passHeaders p).1.waitingQueue.toList = rest :=
          congrArg Exchange.waiting passed
        rw [shorter]
        exact Nat.lt_succ_self _
    · rw [if_neg start]
      refine .inr ⟨rfl, rfl, ?_⟩
      intro empty
      apply start
      rw [canStart, count_eq, empty]
      rfl

/-- In the other states a pass goes on with the request it has. -/
lemma exchange_pass (busy : c.state ≠ .ready) : (c.pass p).1.exchange = c.exchange := by
  rw [pass]
  cases h : c.state with
  | ready => exact absurd h busy
  | sendingHeaders => exact c.exchange_passHeaders p
  | startBody => exact c.exchange_passBody p
  | sendingBody => exact c.exchange_passBody p
  | startSending => rfl
  | sent => rfl

lemma pass_again (again : (c.pass p).2 = true) : (c.pass p).1.state = .ready := by
  unfold pass at again ⊢
  split at again
  case h_1 =>
    split at again
    case h_1 => cases again
    case h_2 =>
      split at again
      case isTrue start =>
        rw [if_pos start]
        exact passHeaders_again again
      case isFalse => cases again
  case h_2 => exact passHeaders_again again
  case h_3 => exact passBody_again again
  case h_4 => exact passBody_again again
  case h_5 => cases again
  case h_6 => cases again

def rounds (c : HttpConnection) : Nat := c.waitingQueue.toList.length + if c.state = .ready then 1 else 2

/-- The loop ends, by induction on the rounds that are left: every pass that starts over leaves fewer of them. -/
lemma sendLoop_sends {fuel : Nat} {passes : List Pass} (enough : c.rounds ≤ fuel) :
    ∃ d, sendLoop fuel passes c = some d ∧ Exchange.Sends c.exchange d.exchange ∧
      (c.state = .ready → c.executionQueue.toList = [] →
        Relation.TransGen Exchange.SendStep c.exchange d.exchange) := by
  induction fuel generalizing passes c with
  | zero =>
    rw [rounds] at enough
    split at enough <;> omega
  | succ fuel ih =>
    have ready := @pass_ready c (passes.headD {})
    have busy := @exchange_pass c (passes.headD {})
    have restart := @pass_again c (passes.headD {})
    rw [sendLoop]
    generalize c.pass (passes.headD {}) = answer at ready busy restart
    obtain ⟨d, again⟩ := answer
    simp only at ready busy restart
    cases again with
    | false =>
      refine ⟨d, rfl, ?_⟩
      by_cases h : c.state = .ready
      · obtain ⟨sent, -⟩ | ⟨same, -, blocked⟩ := ready h
        · exact ⟨.single sent, fun _ _ => .single sent⟩
        · rw [same]
          exact ⟨.refl, fun _ empty => absurd empty blocked⟩
      · rw [busy h]
        exact ⟨.refl, fun prompt => absurd prompt h⟩
    | true =>
      -- a pass that starts over ends in `eHCS_Ready`, with a request fewer to wait for if it began there
      have restart := restart rfl
      by_cases h : c.state = .ready
      · obtain ⟨sent, shorter⟩ | ⟨-, stop, -⟩ := ready h
        · have left : d.rounds ≤ fuel := by
            simp only [rounds, restart, h, if_true] at enough ⊢
            have := shorter rfl
            omega
          obtain ⟨e, run, sends, -⟩ := @ih d passes.tail left
          exact ⟨e, run, .head sent sends, fun _ _ => .head' sent sends⟩
        · cases stop
      · have same := busy h
        have left : d.rounds ≤ fuel := by
          have queue : d.waitingQueue.toList = c.waitingQueue.toList := congrArg Exchange.waiting same
          simp only [rounds, restart, h, queue, if_true, if_false] at enough ⊢
          omega
        obtain ⟨e, run, sends, -⟩ := @ih d passes.tail left
        rw [same] at sends
        exact ⟨e, run, sends, fun prompt => absurd prompt h⟩

lemma exchange_push (c : HttpConnection) (taken : Nat) : (c.push taken).exchange = c.exchange := by
  unfold push
  split <;> rfl

/-- The call starts waiting requests, at least one if it is made in `eHCS_Ready` with nothing executed. -/
lemma onReadyToSendData_sends (c : HttpConnection) (env : Sending) :
    Exchange.Sends c.exchange (c.onReadyToSendData env).exchange ∧ (c.state = .ready → c.executionQueue.toList = [] →
        Relation.TransGen Exchange.SendStep c.exchange (c.onReadyToSendData env).exchange) := by
  have enough : c.rounds ≤ c.waitingQueue.count + 2 := by
    rw [rounds, count_eq]
    split <;> omega
  obtain ⟨d, run, sends⟩ := @sendLoop_sends c _ env.passes enough
  rw [onReadyToSendData, exchange_push, run]
  exact sends

/-! ### The other events -/

lemma exchange_reset (c : HttpConnection) : c.reset.exchange = c.exchange.reset := rfl

lemma exchange_cleanup (c : HttpConnection) : c.cleanup.exchange = c.exchange.cleanup := by
  obtain ⟨waiting, execution⟩ := c.cleanup_toList
  simp only [exchange, waiting, execution]
  rfl

/-- A request that was made gets the next number. -/
lemma ticket_append {r : HttpRequest} :
    (fun id => (({ c with requests := c.requests ++ [r] } : HttpConnection).request id).ticket) =
      Function.update c.exchange.ticket c.exchange.born r.ticket := by
  funext id
  simp only [request, exchange, Function.update_apply, getD_eq_getElem?_getD]
  obtain before | here | behind := Nat.lt_trichotomy id c.requests.length
  · rw [getElem?_append_left before, if_neg (Nat.ne_of_lt before)]
  · rw [here, getElem?_concat_length, if_pos rfl]
    rfl
  · rw [if_neg (Nat.ne_of_gt behind), getElem?_eq_none (Nat.le_of_lt behind), getElem?_eq_none]
    rw [List.length_append]
    exact behind

/-- A request that differs from the default one was made. -/
lemma known_of_request {P : HttpRequest → Prop} (h : P (c.request id)) (default : ¬ P {}) : id < c.requests.length := by
  by_contra unknown
  apply default
  rwa [request, getD_eq_getElem?_getD, getElem?_eq_none (Nat.le_of_not_lt unknown)] at h

/-- A request is queued, or refused when the queue is full. -/
lemma send_move (c : HttpConnection) (r : HttpRequest) :
    Exchange.Move (c.state = .ready) c.exchange (.send r) (c.send r).exchange := by
  have tickets := @ticket_append c r
  have born : (c.requests ++ [r]).length = c.requests.length + 1 := List.length_append
  rw [send]
  simp only [enqueue_ok, decide_eq_true_eq]
  split
  case isTrue room =>
    have queued := @Exchange.Move.queued (c.state = .ready) c.exchange r
    rw [← tickets] at queued
    simp only [exchange, enqueue_toList, if_pos room, born] at queued ⊢
    exact queued
  case isFalse =>
    have refused := @Exchange.Move.refused (c.state = .ready) c.exchange r
    rw [← tickets] at refused
    simp only [exchange, born] at refused ⊢
    exact refused

/-- A response goes to the request that was executed first. -/
lemma onMessageBegin_move (on : c.connected) (idle : c.parser = .idle) :
    Exchange.Move (c.state = .ready) c.exchange .messageBegin c.onMessageBegin.exchange := by
  have unexpected := @Exchange.Move.unexpected (c.state = .ready) c.exchange on idle
  simp only [onMessageBegin, exchange, dequeue_fst, dequeue_toList, reset, Exchange.reset] at unexpected ⊢
  cases h : c.executionQueue.toList with
  | nil =>
    rw [h] at unexpected
    exact unexpected rfl
  | cons id rest => exact .begin on idle rfl

lemma exchange_headers (c : HttpConnection) (code : Nat) (parser : ParserPhase) :
    exchange { c.deliver .headers code with parser := parser } =
      { c.exchange.deliver .headers code with parser := parser } := rfl

/-- The headers are delivered; digest authentication can make the request one that is to be repeated. -/
lemma onHeadersComplete_move {code : Nat} {refused : Bool} {value : Option String}
    (on : c.connected) (headers : c.parser = .headers) :
    Exchange.Move (c.state = .ready) c.exchange (.headersComplete code refused value)
      (c.onHeadersComplete code refused value).exchange := by
  rw [onHeadersComplete]
  split
  case h_1 => exact .headers on headers (.inr rfl)
  case h_2 id owner =>
    have next := ite_eq_or_eq (refused = true) ParserPhase.stopped (.body code)
    obtain same | ⟨digest, retries⟩ := (c.request id).ticket_setResponse code value
    · have kept := @exchange_update (c.read [id]) id (HttpRequest.setResponse · code value) same
      rw [exchange_headers, kept]
      exact .headers on headers next
    · have known := @known_of_request c id (fun r => r.digest = true) digest (by decide)
      have updated := @exchange_updated (c.read [id]) id (HttpRequest.setResponse · code value) known
      rw [exchange_headers, updated, show ((c.read [id]).request id) = c.request id from rfl, retries]
      exact .challenged on headers owner digest next

/-- A repeated request goes to the end of the executing ones. -/
lemma exchange_retry (more : 0 < (c.request id).retries) : (c.retry id).exchange = c.exchange.retry id := by
  have known := @known_of_request c id (fun r => 0 < r.retries) more (by decide)
  have retried : (c.retry id).exchange = Exchange.reset
      { (c.update id fun r => { r with retries := r.retries - 1 }).exchange with
        execution := (c.executionQueue.enqueue id).1.toList
        parser := if (c.executionQueue.enqueue id).2 then .idle else .stopped } := rfl
  rw [retried, exchange_updated known, enqueue_toList, enqueue_ok]
  simp only [decide_eq_true_eq]
  rfl

/-- The end of a request; the last one makes the client look for others. -/
lemma finish_sends (c : HttpConnection) (id : RequestId) (hasError : Bool) (env : Sending) :
    (c.exchange.execution ≠ [] → (c.finish id hasError env).exchange =
        c.exchange.finish id (if hasError then .stopped else .idle)) ∧ (c.exchange.execution = [] →
        Exchange.Sends (c.exchange.finish id (if hasError then .stopped else .idle))
            (c.finish id hasError env).exchange ∧ (c.state = .ready → Relation.TransGen Exchange.SendStep
            (c.exchange.finish id (if hasError then .stopped else .idle)) (c.finish id hasError env).exchange)) := by
  have sends := onReadyToSendData_sends { c with
    deleted := c.deleted ++ [id]
    incomingRequest := none
    parser := if hasError then .stopped else .idle } env
  rw [finish]
  simp only [count_eq, List.length_eq_zero_iff]
  split
  case isTrue last =>
    -- `incomingRequest` is null by now, so the `reset` behind the callback does nothing
    have same := Exchange.reset_of_none (Exchange.Sends.frame sends.1).incoming
    rw [exchange_reset, same]
    exact ⟨fun more => absurd last more, fun _ => ⟨sends.1, fun prompt => sends.2 prompt last⟩⟩
  case isFalse more =>
    exact ⟨fun _ => @Exchange.reset_of_none (c.exchange.finish id _) rfl, fun last => absurd last more⟩

/-- A complete response is nobody's, leads to a repetition or ends its request. -/
lemma onMessageComplete_move {code : Nat} {hasError : Bool} {env : Sending}
    (on : c.connected) (body : c.parser = .body code) :
    Exchange.Move (c.state = .ready) c.exchange (.messageComplete hasError env)
      (c.onMessageComplete code hasError env).exchange := by
  have completed (id : RequestId) : ((c.complete code).read [id]).exchange = c.exchange.complete code := rfl
  simp only [onMessageComplete]
  split
  case h_1 owner => exact @Exchange.Move.unowned _ c.exchange code hasError env on body owner
  case h_2 id owner =>
    split
    case isTrue more =>
      rw [exchange_retry more, completed]
      exact .retried on body owner more
    case isFalse done =>
      have parser := ite_eq_or_eq (hasError = true) ParserPhase.stopped .idle
      obtain ⟨more, last⟩ := ((c.complete code).read [id]).finish_sends id hasError env
      rw [completed] at more last
      by_cases h : c.exchange.execution = []
      · obtain ⟨sends, first⟩ := last h
        exact .drained on body owner (Int.not_lt.mp done) h parser sends first
      · rw [more h]
        exact .answered on body owner (Int.not_lt.mp done) h parser

/-- Every event of a connection is a move of the abstract one. -/
theorem step_move {d : HttpConnection} {e : Event} (st : c.step e = some d) :
    Exchange.Move (c.state = .ready) c.exchange e d.exchange := by
  cases e with
  | send r =>
    cases st
    exact c.send_move r
  | connected env =>
    rw [step] at st
    split at st
    · cases st
    · cases st
      exact .connected (onReadyToSendData_sends
        { c with connected := true, sent := [], finals := 0, received := [], deliveries := [] } env).1
  | ready env =>
    rw [step] at st
    split at st
    case isTrue on =>
      cases st
      exact .ready on (c.onReadyToSendData_sends env).1
    case isFalse => cases st
  | messageBegin =>
    obtain ⟨on, st⟩ := ite_none_right_eq_some.mp st
    split at st
    case h_1 idle =>
      cases st
      exact onMessageBegin_move on idle
    case h_2 => cases st
  | headersComplete code refused value =>
    obtain ⟨on, st⟩ := ite_none_right_eq_some.mp st
    split at st
    case h_1 headers =>
      cases st
      exact onHeadersComplete_move on headers
    case h_2 => cases st
  | body refused =>
    obtain ⟨on, st⟩ := ite_none_right_eq_some.mp st
    split at st
    case h_1 code body =>
      cases st
      refine .body on body (ite_eq_or_eq ..) ?_
      rintro rfl
      rfl
    case h_2 => cases st
  | messageComplete hasError env =>
    obtain ⟨on, st⟩ := ite_none_right_eq_some.mp st
    split at st
    case h_1 code body =>
      cases st
      exact onMessageComplete_move on body
    case h_2 => cases st
  | unread part =>
    obtain ⟨on, st⟩ := ite_none_right_eq_some.mp st
    split at st
    case h_1 stopped =>
      cases st
      exact .unread on stopped
    case h_2 => cases st
  | error =>
    cases st
    have move := @Exchange.Move.error (c.state = .ready) c.exchange
    rw [← exchange_cleanup] at move
    exact move
  | close =>
    cases st
    exact .close
  | renew =>
    cases st
    have move := @Exchange.Move.renew (c.state = .ready) c.exchange
    rw [← exchange_cleanup] at move
    exact move

end HttpConnection

end Sming.Network.Http
