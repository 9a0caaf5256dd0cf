import Sming.Network.Http.HttpExchange

/-!
# Which requests are started while others wait for a response

`onReadyToSendData` holds a request back behind one that is not `GET` or `HEAD` only if that one is
still the `outgoingRequest`. A call with an empty waiting queue sets `outgoingRequest` to null, and a
request that is put back for a retry need not be the outgoing one, so the execution queue may hold
such a request that nothing accounts for.
-/

namespace Sming.Network.Http
open Sming.Lib List

/-- The events in which requests that are executing may be in the way of new ones. -/
def HttpConnection.Event.looksForRequests : HttpConnection.Event → Bool
  | .connected _ | .ready _ => true
  | _ => false

namespace Exchange

/-- A `GET` or `HEAD` that is next finds only such requests in the execution queue, unless the
outgoing request holds it back. -/
def HoldsBack (k : Exchange) : Prop :=
  ∀ id ∈ k.waiting.head?, (k.ticket id).pipelinable = true →
    (∀ busy ∈ k.execution, (k.ticket busy).pipelinable = true) ∨
      ∃ out ∈ k.outgoing, (k.ticket out).pipelinable = false

instance (k : Exchange) : Decidable k.HoldsBack :=
  inferInstanceAs (Decidable (∀ id ∈ k.waiting.head?, _ → _ ∨ ∃ out ∈ k.outgoing, _))

/-- Only requests that may be pipelined were waiting for a response when a request was started. The
numbers are known, so that a later request cannot take one of them. -/
structure Pipelined (k : Exchange) : Prop where
  waiting : ∀ id ∈ k.waiting, id < k.born
  execution : ∀ id ∈ k.execution, id < k.born
  incoming : ∀ id ∈ k.incoming, id < k.born
  starts : ∀ start ∈ k.starts, ∀ id ∈ start.2, id < k.born ∧ (k.ticket id).pipelinable = true

variable {k : Exchange}

lemma HoldsBack.execution {id : RequestId} {rest : List RequestId} (h : k.HoldsBack) (head : k.waiting = id :: rest)
    (may : k.execution ≠ [] → (k.ticket id).pipelinable ∧ ∀ out ∈ k.outgoing, (k.ticket out).pipelinable) :
    ∀ busy ∈ k.execution, (k.ticket busy).pipelinable = true := by
  intro busy mem
  obtain ⟨first, outgoing⟩ := may (ne_nil_of_mem mem)
  obtain all | ⟨out, isOut, blocks⟩ := h id (by rw [head]; rfl) first
  · exact all busy mem
  · have := outgoing out isOut
    rw [blocks] at this
    cases this

variable {k' : Exchange}

lemma HoldsBack.sendStep (h : k.HoldsBack) (st : SendStep k k') : k'.HoldsBack := by
  cases st with
  | idle none =>
    intro id mem
    rw [none] at mem
    cases mem
  | @start id rest head may =>
    intro next _ _
    cases first : (k.ticket id).pipelinable with
    | false => exact .inr ⟨id, rfl, first⟩
    | true =>
      left
      intro busy mem
      obtain old | new := mem_append.mp mem
      · exact h.execution head may busy old
      · rw [mem_singleton.mp new]
        exact first

lemma Pipelined.sendStep (p : k.Pipelined) (h : k.HoldsBack) (st : SendStep k k') : k'.Pipelined := by
  cases st with
  | idle => exact ⟨p.waiting, p.execution, p.incoming, p.starts⟩
  | @start id rest head may =>
    have waiting := p.waiting
    rw [head, forall_mem_cons] at waiting
    refine ⟨waiting.2, ?_, p.incoming, ?_⟩
    · exact forall_mem_append.mpr ⟨p.execution, forall_mem_singleton.mpr waiting.1⟩
    · refine forall_mem_append.mpr ⟨p.starts, forall_mem_singleton.mpr ?_⟩
      intro busy mem
      exact ⟨p.execution busy mem, h.execution head may busy mem⟩

lemma Sends.pipelined (sends : k.Sends k') (p : k.Pipelined) (h : k.HoldsBack) : k'.Pipelined := by
  have both : k'.Pipelined ∧ k'.HoldsBack := by
    induction sends with
    | refl => exact ⟨p, h⟩
    | tail _ st ih => exact ⟨ih.1.sendStep ih.2 st, ih.2.sendStep st⟩
  exact both.1

lemma Pipelined.born (p : k.Pipelined) (t : Ticket) {start : RequestId × List RequestId}
    (mem : start ∈ k.starts) (id : RequestId) (busy : id ∈ start.2) :
    id < k.born + 1 ∧ (Function.update k.ticket k.born t id).pipelinable = true := by
  obtain ⟨known, may⟩ := p.starts start mem id busy
  rw [Function.update_of_ne (Nat.ne_of_lt known)]
  exact ⟨Nat.lt_succ_of_lt known, may⟩

lemma Pipelined.retries {id : RequestId} (p : k.Pipelined) (n : Int) : ∀ start ∈ k.starts, ∀ x ∈ start.2,
    x < k.born ∧ (Function.update k.ticket id { k.ticket id with retries := n } x).pipelinable = true := by
  intro start mem x busy
  obtain ⟨lt, may⟩ := p.starts start mem x busy
  refine ⟨lt, ?_⟩
  rw [Function.update_apply]
  split
  case isTrue same => exact same ▸ may
  case isFalse => exact may

lemma Pipelined.retry {id : RequestId} (p : k.Pipelined) (known : id < k.born) : (k.retry id).Pipelined := by
  refine ⟨p.waiting, ?_, nofun, ?_⟩
  · intro x mem
    simp only [Exchange.retry, reset] at mem
    split at mem
    · obtain old | new := mem_append.mp mem
      · exact p.execution x old
      · exact mem_singleton.mp new ▸ known
    · exact p.execution x mem
  · exact p.retries _

lemma Pipelined.cleanup (p : k.Pipelined) : k.cleanup.Pipelined := by
  refine ⟨?_, ?_, nofun, p.starts⟩
  · intro id mem
    obtain old | back := mem_append.mp (mem_of_mem_take mem)
    · exact p.waiting id old
    · exact p.execution id (mem_of_mem_take back)
  · intro id mem
    exact p.execution id (mem_of_mem_drop mem)

lemma Pipelined.move {prompt : Prop} {e : HttpConnection.Event} (p : k.Pipelined)
    (back : e.looksForRequests = true → k.HoldsBack) (m : Move prompt k e k') : k'.Pipelined := by
  have grow {l : List RequestId} (h : ∀ id ∈ l, id < k.born) : ∀ id ∈ l, id < k.born + 1 :=
    fun id mem => Nat.lt_succ_of_lt (h id mem)
  have incoming : ∀ id ∈ k.incoming, id < k.born + 1 := fun id mem => Nat.lt_succ_of_lt (p.incoming id mem)
  cases m with
  | @queued r =>
    refine ⟨?_, grow p.execution, incoming, fun _ mem => p.born r.ticket mem⟩
    exact forall_mem_append.mpr
      ⟨grow p.waiting, forall_mem_singleton.mpr (Nat.lt_succ_self _)⟩
  | @refused r => exact ⟨grow p.waiting, grow p.execution, incoming, fun _ mem => p.born r.ticket mem⟩
  | connected sends =>
    exact Sends.pipelined sends ⟨p.waiting, p.execution, p.incoming, p.starts⟩ (back rfl)
  | ready _ sends => exact Sends.pipelined sends p (back rfl)
  | unexpected => exact ⟨p.waiting, p.execution, nofun, p.starts⟩
  | @begin id rest _ _ head =>
    have execution := p.execution
    rw [head, forall_mem_cons] at execution
    refine ⟨p.waiting, execution.2, ?_, p.starts⟩
    rintro _ ⟨⟩
    exact execution.1
  | headers | body | unowned | unread | close => exact ⟨p.waiting, p.execution, p.incoming, p.starts⟩
  | challenged => exact ⟨p.waiting, p.execution, p.incoming, p.retries 1⟩
  | retried _ _ owner =>
    exact Pipelined.retry ⟨p.waiting, p.execution, p.incoming, p.starts⟩ (p.incoming _ owner)
  | answered => exact ⟨p.waiting, p.execution, nofun, p.starts⟩
  | drained _ _ _ _ empty _ sends =>
    refine Sends.pipelined sends ⟨p.waiting, p.execution, nofun, p.starts⟩ ?_
    -- nobody has to be held back when no request is executing
    intro _ _ _
    left
    intro busy mem
    have none : busy ∈ k.execution := mem
    rw [empty] at none
    cases none
  | error => exact ⟨p.cleanup.waiting, p.cleanup.execution, p.cleanup.incoming, p.cleanup.starts⟩
  | renew => exact ⟨p.cleanup.waiting, nofun, p.cleanup.incoming, p.cleanup.starts⟩

end Exchange

namespace HttpConnection

def HeldBack (c : HttpConnection) (e : Event) : Prop := e.looksForRequests = true → c.exchange.HoldsBack

instance (c : HttpConnection) (e : Event) : Decidable (c.HeldBack e) := inferInstanceAs (Decidable (_ → _))

/-- No request is started while one other than `GET` or `HEAD` waits for its response. -/
theorem starts_pipelinable {es : List Event} {c : HttpConnection} (run : Run step HeldBack {} es c) :
    ∀ start ∈ c.starts, ∀ busy ∈ start.2, (c.request busy).pipelinable = true := by
  have inv : c.exchange.Pipelined := by
    refine @Run.invariant _ _ step HeldBack (fun c => c.exchange.Pipelined) _ _ _ run ?_ ?_
    · exact ⟨nofun, nofun, nofun, nofun⟩
    · intro c e d p back st
      exact p.move back (step_move st)
  intro start mem busy h
  exact (inv.starts start mem busy h).2

def postThenGet : List Event :=
  [.send { method := .post }, .send { method := .get },
    .connected { passes := [{ stored := 64 }], taken := 64 }, .ready {}, .messageBegin,
    .headersComplete 200 false, .messageComplete false { passes := [{ stored := 64 }], taken := 64 }]

theorem starts_pipelinable_post_then_get :
    ∃ c, exec step HeldBack {} postThenGet = some c ∧ c.starts = [(0, []), (1, [])] ∧
      ∀ start ∈ c.starts, ∀ busy ∈ start.2, (c.request busy).pipelinable = true := by
  obtain ⟨c, done, starts⟩ : ∃ c, exec step HeldBack {} postThenGet = some c ∧
      c.starts = [(0, []), (1, [])] := exists_exec (by decide +kernel)
  exact ⟨c, done, starts, starts_pipelinable (exec_run done)⟩

/-- A call of `onReadyToSendData` with nothing to send makes the connection forget that a `POST` is
not answered yet, and the next `GET` is started. -/
theorem get_started_behind_post :
    ¬ ∀ es c, Run step Always {} es c →
      ∀ start ∈ c.starts, ∀ busy ∈ start.2, (c.request busy).pipelinable = true := not_forall_run
    [.send { method := .post }, .connected { passes := [{ stored := 64 }], taken := 64 }, .ready {},
      .send { method := .get }, .ready { passes := [{ stored := 64 }], taken := 64 }]
    (by decide +kernel)

end HttpConnection

end Sming.Network.Http
