import Sming.Network.Http.HttpExchange

/-!
# Who owns the requests

A request is owned by one of the two queues or by `incomingRequest`, until it is deleted;
`outgoingRequest` only points to one of them. A response that is complete deletes its request, so
`outgoingRequest` is left behind if it is the same one and `onReadyToSendData` does not choose another
before it looks at it; and `reset` deletes a request that was put back for a retry.
-/

namespace Sming.Network.Http
open Sming.Lib List Option

def HttpConnection.Event.resets : HttpConnection.Event → Bool
  | .messageBegin | .messageComplete _ _ | .error | .renew => true
  | .send _ | .connected _ | .ready _ | .headersComplete _ _ _ | .body _ | .unread _ | .close => false

namespace Exchange

def owned (k : Exchange) : List RequestId := k.waiting ++ k.execution ++ k.incoming.toList ++ k.deleted

structure Owned (k : Exchange) : Prop where
  distinct : k.owned.Nodup
  known : ∀ id ∈ k.owned, id < k.born
  idle : k.parser = .idle → k.incoming = none

/-- `outgoingRequest` is not deleted; it is the last one that was started. -/
structure Live (k : Exchange) (out : RequestId) : Prop where
  known : out < k.born
  alive : out ∉ k.deleted
  last : k.execution = [] ∨ k.execution.getLast? = some out

section
variable {k k' : Exchange}

/-- Requests may change hands or be lost, but not be owned once more. -/
lemma Owned.of_count (o : k.Owned) (born : k'.born = k.born) (count : ∀ id, k'.owned.count id ≤ k.owned.count id)
    (idle : k'.parser = .idle → k'.incoming = none) : k'.Owned := by
  refine ⟨?_, ?_, idle⟩
  · rw [nodup_iff_count_le_one]
    intro id
    exact (count id).trans (nodup_iff_count_le_one.mp o.distinct id)
  · intro id mem
    rw [born]
    apply o.known
    exact count_pos_iff.mp (Nat.lt_of_lt_of_le (count_pos_iff.mpr mem) (count id))

variable {id : RequestId}

lemma Owned.alive (o : k.Owned) (mem : id ∈ k.waiting ++ k.execution ++ k.incoming.toList) : id ∉ k.deleted := by
  have distinct := o.distinct
  rw [owned, nodup_append'] at distinct
  exact distinct.2.2 mem

lemma Owned.sendStep (o : k.Owned) (st : SendStep k k') : k'.Owned := by
  cases st with
  | idle => exact ⟨o.distinct, o.known, o.idle⟩
  | start head =>
    refine o.of_count rfl (fun x => ?_) o.idle
    simp only [owned, head, count_append, count_cons, count_nil]
    omega

lemma Owned.sendStep_live (o : k.Owned) (st : SendStep k k') : ∀ out ∈ k'.outgoing, k'.Live out := by
  cases st with
  | idle => exact nofun
  | @start id rest head =>
    have mem : id ∈ k.waiting := by
      rw [head]
      exact mem_cons_self
    rintro _ ⟨⟩
    refine ⟨o.known id ?_, o.alive ?_, .inr ?_⟩
    · simp [owned, mem]
    · simp [mem]
    · simp

lemma Sends.owned (sends : k.Sends k') (o : k.Owned) : k'.Owned := by
  induction sends with
  | refl => exact o
  | tail _ st ih => exact ih.sendStep st

lemma Sends.live (sends : k.Sends k') (o : k.Owned) (live : ∀ out ∈ k.outgoing, k.Live out) :
    ∀ out ∈ k'.outgoing, k'.Live out := by
  cases sends with
  | refl => exact live
  | tail sends st => exact (Sends.owned sends o).sendStep_live st

lemma Owned.of_born (o : k.Owned) (born : k'.born = k.born + 1)
    (count : ∀ id, k'.owned.count id = k.owned.count id + [k.born].count id)
    (idle : k'.parser = .idle → k'.incoming = none) : k'.Owned := by
  have new : k.born ∉ k.owned := fun mem => Nat.lt_irrefl _ (o.known _ mem)
  have perm : k'.owned.Perm (k.owned ++ [k.born]) := by
    rw [perm_iff_count]
    intro id
    rw [count, count_append]
  refine ⟨?_, ?_, idle⟩
  · rw [perm.nodup_iff, nodup_append']
    exact ⟨o.distinct, nodup_singleton _, by simpa using new⟩
  · intro id mem
    rw [born]
    obtain old | this := mem_append.mp (perm.mem_iff.mp mem)
    · exact Nat.lt_succ_of_lt (o.known id old)
    · exact mem_singleton.mp this ▸ Nat.lt_succ_self _

lemma Live.of_born {out : RequestId} (l : k.Live out) (born : k'.born = k.born + 1)
    (deleted : ∀ id ∈ k'.deleted, id ∈ k.deleted ∨ id = k.born)
    (execution : k'.execution = k.execution) : k'.Live out := by
  refine ⟨born ▸ Nat.lt_succ_of_lt l.known, ?_, execution ▸ l.last⟩
  intro mem
  obtain old | new := deleted out mem
  · exact l.alive old
  · exact Nat.ne_of_lt l.known new

lemma Owned.reset (o : k.Owned) : k.reset.Owned := by
  refine o.of_count rfl (fun id => ?_) fun _ => rfl
  simp only [owned, Exchange.reset, toList_none, count_append, count_nil]
  omega

lemma Owned.finish (o : k.Owned) {parser : ParserPhase}
    (owner : k.incoming = some id) : (k.finish id parser).Owned := by
  refine o.of_count rfl (fun x => ?_) fun _ => rfl
  simp only [owned, Exchange.finish, owner, toList_none, toList_some, count_append, count_nil]
  omega

lemma Owned.cleanup (o : k.Owned) : k.cleanup.Owned := by
  refine o.of_count rfl (fun id => ?_) fun _ => rfl
  have halves := congrArg (List.count id)
    (take_append_drop ((k.execution.length + 1) / 2) k.execution)
  have waiting := (take_sublist httpRequestPoolSize
    (k.waiting ++ k.execution.take ((k.execution.length + 1) / 2))).count_le id
  simp only [owned, Exchange.cleanup, Exchange.reset, toList_none, count_append, count_nil] at halves waiting ⊢
  omega

/-- A request whose response is complete is not to be repeated, nothing is left to do for it if it is the
outgoing one, and a connection is not lost while the response to the outgoing request is coming in. -/
def Settled (prompt : Prop) (k : Exchange) : HttpConnection.Event → Prop
  | .messageComplete _ _ =>
    ∀ id ∈ k.incoming, (k.ticket id).retries ≤ 0 ∧ (k.outgoing = some id → prompt)
  | .error => ∀ id ∈ k.incoming, k.outgoing ≠ some id
  | _ => True

lemma Owned.frame (o : k.Owned) (same : (k'.born, k'.owned) = (k.born, k.owned))
    (idle : k'.parser = .idle → k'.incoming = none) : k'.Owned := by
  obtain ⟨born, owned⟩ := Prod.mk.inj same
  refine ⟨owned ▸ o.distinct, ?_, idle⟩
  rw [owned, born]
  exact o.known

lemma Owned.begin (o : k.Owned) {rest : List RequestId} (head : k.execution = id :: rest) :
    Owned { k.reset with execution := rest, incoming := some id, parser := .headers } := by
  refine o.of_count rfl (fun x => ?_) nofun
  simp only [owned, Exchange.reset, head, toList_some, count_append, count_cons, count_nil]
  omega

lemma Owned.move {prompt : Prop} {e : HttpConnection.Event} (o : k.Owned) (m : Move prompt k e k')
    (once : ∀ hasError env, e = .messageComplete hasError env →
      ∀ id ∈ k.incoming, (k.ticket id).retries ≤ 0) : k'.Owned := by
  have completed (code : Nat) : (k.complete code).Owned := o.frame rfl o.idle
  cases m with
  | queued | refused =>
    refine o.of_born rfl (fun id => ?_) o.idle
    simp only [owned, count_append]
    omega
  | connected sends => exact Sends.owned sends (o.frame rfl o.idle)
  | ready _ sends => exact Sends.owned sends o
  | unexpected => exact o.reset.frame rfl nofun
  | begin _ _ head => exact o.begin head
  | headers _ _ next | challenged _ _ _ _ next | body _ _ next =>
    refine o.frame rfl fun idle => ?_
    obtain h | h := next <;> cases h.symm.trans idle
  | unowned => exact o.frame rfl nofun
  | unread => exact o.frame rfl o.idle
  | retried _ _ owner more => exact absurd more (Int.not_lt.mpr (once _ _ rfl _ owner))
  | answered _ _ owner => exact (completed _).finish owner
  | drained _ _ owner _ _ _ sends => exact Sends.owned sends ((completed _).finish owner)
  | error => exact o.cleanup.frame rfl fun _ => rfl
  | close => exact o.frame rfl o.idle
  | renew =>
    refine o.cleanup.of_count rfl (fun id => ?_) fun _ => rfl
    simp only [owned, count_append, count_nil]
    omega

/-! ### The outgoing request -/

section
variable {out : RequestId}

lemma Live.frame (l : k.Live out) (same : (k'.born, k'.deleted, k'.execution) = (k.born, k.deleted, k.execution)) :
    k'.Live out := by
  simp only [Prod.mk.injEq] at same
  obtain ⟨born, deleted, execution⟩ := same
  exact ⟨born ▸ l.known, deleted ▸ l.alive, execution ▸ l.last⟩

lemma Owned.reset_deleted (o : k.Owned) (idle : k.parser = .idle) : k.reset.deleted = k.deleted := by
  rw [Exchange.reset, o.idle idle]
  exact append_nil _

lemma Live.tail (l : k.Live out) {rest : List RequestId}
    (head : k.execution = id :: rest) : rest = [] ∨ rest.getLast? = some out := by
  cases rest with
  | nil => exact .inl rfl
  | cons next rest =>
    right
    have last := l.last.resolve_left (by rw [head]; nofun)
    rwa [head, getLast?_cons_cons] at last

lemma Live.ne (l : k.Live out) (o : k.Owned) (busy : k.execution ≠ []) : k.incoming ≠ some out := by
  intro owner
  have last := l.last.resolve_left busy
  have distinct := o.distinct
  rw [owned, nodup_append', nodup_append'] at distinct
  refine distinct.1.2.2 (mem_append_right _ (mem_of_getLast? last)) ?_
  rw [owner]
  exact mem_singleton_self out

lemma Live.finish (l : k.Live out) {parser : ParserPhase} (other : out ≠ id) : (k.finish id parser).Live out := by
  refine ⟨l.known, ?_, l.last⟩
  intro gone
  obtain old | new := mem_append.mp gone
  · exact l.alive old
  · exact other (mem_singleton.mp new)

lemma Live.cleanup (l : k.Live out) (other : k.incoming ≠ some out) : k.cleanup.Live out := by
  refine ⟨l.known, ?_, ?_⟩
  · intro gone
    obtain old | new := mem_append.mp gone
    · exact l.alive old
    · exact other (mem_toList.mp new)
  · simp only [Exchange.cleanup, drop_eq_nil_iff, getLast?_drop]
    by_cases half : k.execution.length ≤ (k.execution.length + 1) / 2
    · exact .inl half
    · rw [if_neg half]
      refine .inr (l.last.resolve_left ?_)
      intro none
      rw [none] at half
      exact half (by decide)

end

/-- The outgoing request outlives every move. -/
lemma Live.move {prompt : Prop} {e : HttpConnection.Event} (o : k.Owned)
    (live : ∀ out ∈ k.outgoing, k.Live out) (settled : k.Settled prompt e) (m : Move prompt k e k') :
    ∀ out ∈ k'.outgoing, k'.Live out := by
  have completed (code : Nat) : (k.complete code).Owned := o.frame rfl o.idle
  cases m with
  | queued => exact fun out mem => (live out mem).of_born rfl (fun _ => .inl) rfl
  | refused =>
    intro out mem
    refine (live out mem).of_born rfl (fun id mem => ?_) rfl
    rwa [mem_append, mem_singleton] at mem
  | connected sends =>
    exact Sends.live sends (o.frame rfl o.idle) fun out mem => (live out mem).frame rfl
  | ready _ sends => exact Sends.live sends o live
  | unexpected _ idle =>
    intro out mem
    have l := live out mem
    exact ⟨l.known, o.reset_deleted idle ▸ l.alive, l.last⟩
  | begin _ idle head =>
    intro out mem
    have l := live out mem
    exact ⟨l.known, o.reset_deleted idle ▸ l.alive, l.tail head⟩
  | headers | challenged | body | unowned | unread | close => exact fun out mem => (live out mem).frame rfl
  | retried _ _ owner more => exact absurd more (Int.not_lt.mpr (settled _ owner).1)
  | @answered id code _ _ _ _ _ owner _ busy =>
    -- others are executing, and the outgoing request is the last of them
    intro out mem
    have l : (k.complete code).Live out := (live out mem).frame rfl
    apply l.finish
    rintro rfl
    exact (live out mem).ne o busy owner
  | @drained id code _ _ parser _ _ _ owner _ _ _ sends first =>
    have finished := @Owned.finish _ id (completed code) parser owner
    by_cases same : k.outgoing = some id
    · -- the deleted request is replaced by the first one that is sent
      obtain ⟨x, more, last⟩ := Relation.TransGen.tail'_iff.mp (first ((settled id owner).2 same))
      exact (Sends.owned more finished).sendStep_live last
    · refine Sends.live sends finished fun out mem => ?_
      have l : (k.complete code).Live out := (live out mem).frame rfl
      apply l.finish
      rintro rfl
      exact same mem
  | error =>
    intro out mem
    exact ((live out mem).cleanup fun owner => settled out owner mem).frame rfl
  | renew => exact nofun

/-! ### Requests that are done with -/

/-- No request is to be repeated, now or because of a response. -/
def Once (k : Exchange) : Prop := ∀ id, (k.ticket id).retries ≤ 0 ∧ (k.ticket id).digest = false

lemma Once.update (o : k.Once) {t : Ticket} (once : t.retries ≤ 0 ∧ t.digest = false) (id : RequestId) :
    (Function.update k.ticket k.born t id).retries ≤ 0 ∧ (Function.update k.ticket k.born t id).digest = false := by
  rw [Function.update_apply]
  split
  · exact once
  · exact o id

lemma Once.move {prompt : Prop} {e : HttpConnection.Event} (o : k.Once)
    (once : ∀ r, e = .send r → r.retries ≤ 0 ∧ r.digest = false) (m : Move prompt k e k') : k'.Once := by
  cases m with
  | queued | refused => exact o.update (once _ rfl)
  | connected sends | ready _ sends => exact fun id => (Sends.frame sends).ticket ▸ o id
  | retried _ _ _ more => exact absurd more (Int.not_lt.mpr (o _).1)
  | challenged _ _ _ digest => cases (o _).2.symm.trans digest
  | drained _ _ _ _ _ _ sends => exact fun id => (Sends.frame sends).ticket ▸ o id
  | unexpected | begin | headers | body | unowned | answered | unread | error | close | renew => exact o

/-- The request gets no more calls: it is deleted, or the parser has stopped in its response. -/
def Over (k : Exchange) (id : RequestId) : Prop :=
  id ∈ k.deleted ∨ (k.parser = .stopped ∧ k.incoming = some id)

lemma Owned.not_over (o : k.Owned) {code : Nat} (body : k.parser = .body code)
    (owner : k.incoming = some id) : ¬ k.Over id := by
  rintro (gone | ⟨stopped, -⟩)
  · refine o.alive ?_ gone
    rw [owner]
    exact mem_append_right _ (mem_singleton_self id)
  · cases stopped.symm.trans body

section
variable {prompt : Prop} {e : HttpConnection.Event}

lemma Move.deleted_subset (m : Move prompt k e k') : k.deleted ⊆ k'.deleted := by
  cases m with
  | connected sends | ready _ sends => exact (Sends.frame sends).deleted ▸ List.Subset.refl _
  | drained _ _ _ _ _ _ sends =>
    exact (Sends.frame sends).deleted ▸ subset_append_left _ _
  | refused | unexpected | begin | retried | answered | error | renew =>
    exact subset_append_left _ _
  | queued | headers | challenged | body | unowned | unread | close => exact List.Subset.refl _

lemma Move.born_le (m : Move prompt k e k') : k.born ≤ k'.born := by
  cases m with
  | connected sends | ready _ sends | drained _ _ _ _ _ _ sends =>
    exact Nat.le_of_eq (Sends.frame sends).born.symm
  | queued | refused => exact Nat.le_succ _
  | unexpected | begin | headers | challenged | body | unowned | retried | answered | unread | error | close
  | renew => exact Nat.le_refl _

lemma Move.born_lt {r : HttpRequest} (m : Move prompt k (.send r) k') : k.born < k'.born := by
  cases m with
  | queued | refused => exact Nat.lt_succ_self _

lemma Move.incoming (m : Move prompt k e k') (keep : e.resets = false) : k'.incoming = k.incoming := by
  cases m with
  | connected sends | ready _ sends => exact (Sends.frame sends).incoming
  | queued | refused | headers | challenged | body | unread | close => rfl
  | unexpected | begin | unowned | retried | answered | drained | error | renew => cases keep

lemma Move.stopped (m : Move prompt k (.body true) k') : k'.parser = .stopped := by
  cases m with
  | body _ _ _ stop => exact stop rfl

lemma Move.reset (m : Move prompt k e k') (reset : e.resets = true) : ∀ id ∈ k.incoming, id ∈ k'.deleted := by
  intro id mem
  have last : id ∈ k.deleted ++ k.incoming.toList := mem_append_right _ (mem_toList.mpr mem)
  cases m with
  | queued | refused | connected | ready | headers | challenged | body | unread | close => cases reset
  | unexpected | begin | retried | error | renew => exact last
  | unowned _ _ none => cases none.symm.trans mem
  | answered _ _ owner =>
    cases owner.symm.trans mem
    exact mem_append_right _ (mem_singleton_self id)
  | drained _ _ owner _ _ _ sends =>
    cases owner.symm.trans mem
    rw [(Sends.frame sends).deleted]
    exact mem_append_right _ (mem_singleton_self id)

lemma Over.move (isOver : k.Over id) (m : Move prompt k e k') : k'.Over id := by
  obtain gone | ⟨stopped, owner⟩ := isOver
  · exact .inl (m.deleted_subset gone)
  · cases resets : e.resets with
    | true => exact .inl (m.reset resets id owner)
    | false =>
      refine .inr ⟨?_, (m.incoming resets).trans owner⟩
      cases m with
      | connected sends | ready _ sends => exact (Sends.frame sends).parser.trans stopped
      | queued | refused | unread | close => exact stopped
      | headers _ phase | challenged _ phase | body _ phase => cases stopped.symm.trans phase
      | unexpected | begin | unowned | retried | answered | drained | error | renew => cases resets

end

end

end Exchange

namespace HttpConnection

/-! ### Reading requests -/

section
variable {c : HttpConnection} {p : Pass}

lemma misread_read {ids : List RequestId} (alive : ∀ id ∈ ids, id ∉ c.deleted) : (c.read ids).misread = c.misread := by
  have none : ids.any (· ∈ c.deleted) = false := by
    rw [List.any_eq_false]
    intro id mem
    rw [decide_eq_true_eq]
    exact alive id mem
  rw [read, none, Bool.or_false]

lemma misread_sendRequestBody (alive : ∀ out ∈ c.outgoingRequest, out ∉ c.deleted) :
    (c.sendRequestBody p).1.misread = c.misread := by
  rw [sendRequestBody]
  split
  case h_1 => rfl
  case h_2 out h =>
    have same := @misread_read c [out] (forall_mem_singleton.mpr (alive out h))
    split
    · split
      · exact same
      · exact same
    · split
      · rfl
      · exact same

lemma misread_passBody (alive : ∀ out ∈ c.outgoingRequest, out ∉ c.deleted) :
    (c.passBody p).1.misread = c.misread := by
  have same := @misread_sendRequestBody c p alive
  rw [passBody]
  generalize c.sendRequestBody p = answer at same
  obtain ⟨d, done⟩ := answer
  cases done with
  | false => exact same
  | true => exact same

lemma misread_passHeaders (alive : ∀ out ∈ c.outgoingRequest, out ∉ c.deleted) :
    (c.passHeaders p).1.misread = c.misread := by
  rw [passHeaders]
  split
  · rfl
  · exact @misread_passBody { c with state := .startBody } p alive

/-- The requests that `onReadyToSendData` may read are not deleted; a connection that is ready and waits for no
response does not look at the outgoing one. -/
structure Readable (c : HttpConnection) : Prop where
  waiting : ∀ id ∈ c.waitingQueue.toList, id ∉ c.deleted
  outgoing : (c.state = .ready ∧ c.executionQueue.toList = []) ∨ ∀ out ∈ c.outgoingRequest, out ∉ c.deleted

lemma Readable.compared (r : c.Readable) {id : RequestId} (mem : id ∈ c.waitingQueue.toList) :
    ∀ x ∈ c.compared id, x ∉ c.deleted := by
  have first := r.waiting id mem
  rw [HttpConnection.compared, Wiring.ObjectQueue.count_eq]
  split
  · exact nofun
  case isFalse busy =>
    have outgoing := r.outgoing.resolve_left fun idle => busy (by rw [idle.2]; rfl)
    split
    · rw [forall_mem_cons]
      exact ⟨first, fun out mem => outgoing out (mem_toList.mp mem)⟩
    · exact forall_mem_singleton.mpr first

lemma Readable.misread_pass (r : c.Readable) : (c.pass p).1.misread = c.misread := by
  rw [pass]
  split
  case h_1 ready =>
    rw [Wiring.ObjectQueue.peek_eq]
    split
    case h_1 => rfl
    case h_2 id head =>
      have mem : id ∈ c.waitingQueue.toList := mem_of_head? head
      have same := misread_read (r.compared mem)
      split
      case isTrue =>
        have alive : id ∉ (c.read (c.compared id)).deleted := r.waiting id mem
        rw [misread_passHeaders]
        · exact (misread_read (forall_mem_singleton.mpr alive)).trans same
        · rintro _ ⟨⟩
          exact alive
      case isFalse => exact same
  case h_2 sending =>
    exact misread_passHeaders (r.outgoing.resolve_left fun idle => by cases sending.symm.trans idle.1)
  case h_3 start => exact misread_passBody (r.outgoing.resolve_left fun idle => by cases start.symm.trans idle.1)
  case h_4 sending => exact misread_passBody (r.outgoing.resolve_left fun idle => by cases sending.symm.trans idle.1)
  case h_5 => rfl
  case h_6 => rfl

lemma Readable.of_exchange {d : HttpConnection} (r : c.Readable) (same : d.exchange = c.exchange)
    (outgoing : ∀ out ∈ c.outgoingRequest, out ∉ c.deleted) : d.Readable := by
  have waiting : d.waitingQueue.toList = c.waitingQueue.toList := congrArg Exchange.waiting same
  have deleted : d.deleted = c.deleted := congrArg Exchange.deleted same
  have out : d.outgoingRequest = c.outgoingRequest := congrArg Exchange.outgoing same
  constructor
  · rw [waiting, deleted]
    exact r.waiting
  · rw [out, deleted]
    exact .inr outgoing

lemma Readable.of_sendStep {d : HttpConnection} (r : c.Readable)
    (st : Exchange.SendStep c.exchange d.exchange) : d.Readable := by
  have deleted : d.deleted = c.deleted := (Exchange.Sends.frame (.single st)).deleted
  generalize same : d.exchange = k at st
  have waiting : d.waitingQueue.toList = k.waiting := congrArg Exchange.waiting same
  have out : d.outgoingRequest = k.outgoing := congrArg Exchange.outgoing same
  cases st with
  | idle =>
    constructor
    · rw [waiting, deleted]
      exact r.waiting
    · rw [out]
      exact .inr nofun
  | @start id rest head =>
    have all : ∀ x ∈ id :: rest, x ∉ c.deleted := head ▸ r.waiting
    rw [forall_mem_cons] at all
    constructor
    · rw [waiting, deleted]
      exact all.2
    · rw [out, deleted]
      right
      rintro _ ⟨⟩
      exact all.1

lemma Readable.pass (r : c.Readable) : (c.pass p).1.Readable := by
  by_cases ready : c.state = .ready
  · obtain ⟨st, -⟩ | ⟨same, -, busy⟩ := @pass_ready c p ready
    · exact r.of_sendStep st
    · exact r.of_exchange same (r.outgoing.resolve_left fun idle => busy idle.2)
  · exact r.of_exchange (exchange_pass ready) (r.outgoing.resolve_left fun idle => ready idle.1)

lemma Readable.sendLoop {fuel : Nat} {passes : List Pass} {d : HttpConnection} (r : c.Readable)
    (run : sendLoop fuel passes c = some d) : d.misread = c.misread := by
  induction fuel generalizing passes c with
  | zero => cases run
  | succ fuel ih =>
    have same := @Readable.misread_pass c (passes.headD {}) r
    have next := @Readable.pass c (passes.headD {}) r
    rw [HttpConnection.sendLoop] at run
    generalize c.pass (passes.headD {}) = answer at same next run
    obtain ⟨e, again⟩ := answer
    cases again with
    | false =>
      cases run
      exact same
    | true => exact (ih next run).trans same

lemma Readable.onReadyToSendData (r : c.Readable) (env : Sending) :
    (c.onReadyToSendData env).misread = c.misread := by
  have push (d : HttpConnection) : (d.push env.taken).misread = d.misread := by
    unfold HttpConnection.push
    split <;> rfl
  rw [HttpConnection.onReadyToSendData, push]
  cases run : HttpConnection.sendLoop (c.waitingQueue.count + 2) env.passes c with
  | none => rfl
  | some d => exact r.sendLoop run

end

def Settled (c : HttpConnection) (e : Event) : Prop := c.exchange.Settled (c.state = .ready) e

instance (c : HttpConnection) : (e : Event) → Decidable (c.Settled e)
  | .messageComplete _ _ => inferInstanceAs (Decidable (∀ id ∈ c.incomingRequest, _ ∧ (_ → _)))
  | .error => inferInstanceAs (Decidable (∀ id ∈ c.incomingRequest, _ ≠ _))
  | .send _ | .connected _ | .ready _ | .messageBegin | .headersComplete _ _ _ | .body _ | .unread _
  | .close | .renew => .isTrue trivial

structure Safe (c : HttpConnection) : Prop where
  owned : c.exchange.Owned
  live : ∀ out ∈ c.outgoingRequest, c.exchange.Live out
  sound : c.misread = false

section
variable {c : HttpConnection}

lemma Safe.readable (s : c.Safe) : c.Readable := by
  refine ⟨fun id mem => ?_, .inr fun out mem => (s.live out mem).alive⟩
  exact s.owned.alive (mem_append_left _ (mem_append_left _ mem))

lemma Safe.incoming (s : c.Safe) : ∀ id ∈ c.incomingRequest.toList, id ∉ c.deleted :=
  fun _ mem => s.owned.alive (mem_append_right _ mem)

lemma Safe.finish (s : c.Safe) {id : RequestId} {code : Nat} {hasError : Bool} {env : Sending}
    (owner : c.incomingRequest = some id) (ready : c.outgoingRequest = some id → c.state = .ready) :
    (((c.complete code).read [id]).finish id hasError env).misread = false := by
  have read : ((c.complete code).read [id]).misread = false := by
    refine (misread_read (forall_mem_singleton.mpr (s.incoming id ?_))).trans s.sound
    rw [owner]
    exact mem_singleton_self id
  rw [HttpConnection.finish]
  simp only
  split
  case isTrue last =>
    rw [Wiring.ObjectQueue.count_eq, List.length_eq_zero_iff] at last
    refine (Readable.onReadyToSendData ⟨?_, ?_⟩ env).trans read
    · -- a waiting request is not the one that was answered
      have finished := @Exchange.Owned.finish _ id s.owned (if hasError then .stopped else .idle) owner
      intro x mem
      exact finished.alive (mem_append_left _ (mem_append_left _ mem))
    · by_cases same : c.outgoingRequest = some id
      · exact .inl ⟨ready same, last⟩
      · right
        intro out mem gone
        obtain old | new := mem_append.mp gone
        · exact (s.live out mem).alive old
        · exact same (mem_singleton.mp new ▸ mem)
  case isFalse => exact read

/-- No event reads a deleted request. -/
lemma Safe.misread {e : Event} {d : HttpConnection} (s : c.Safe) (settled : c.Settled e)
    (st : c.step e = some d) : d.misread = false := by
  cases e with
  | send r =>
    cases st
    rw [send]
    split <;> exact s.sound
  | connected env =>
    rw [step] at st
    split at st
    · cases st
    · cases st
      rw [onConnected, Readable.onReadyToSendData]
      · exact s.sound
      · exact ⟨s.readable.waiting, s.readable.outgoing⟩
  | ready env =>
    obtain ⟨-, st⟩ := ite_none_right_eq_some.mp st
    cases st
    exact (s.readable.onReadyToSendData env).trans s.sound
  | messageBegin =>
    obtain ⟨-, st⟩ := ite_none_right_eq_some.mp st
    split at st
    · cases st
      exact s.sound
    · cases st
  | headersComplete code refused value =>
    obtain ⟨-, st⟩ := ite_none_right_eq_some.mp st
    split at st
    · cases st
      rw [onHeadersComplete]
      split
      case h_1 => exact s.sound
      case h_2 id owner =>
        refine (misread_read (forall_mem_singleton.mpr (s.incoming id ?_))).trans s.sound
        rw [owner]
        exact mem_singleton_self id
    · cases st
  | body refused =>
    obtain ⟨-, st⟩ := ite_none_right_eq_some.mp st
    split at st
    · cases st
      exact (misread_read s.incoming).trans s.sound
    · cases st
  | messageComplete hasError env =>
    obtain ⟨-, st⟩ := ite_none_right_eq_some.mp st
    split at st
    · cases st
      simp only [onMessageComplete]
      split
      case h_1 => exact s.sound
      case h_2 id owner =>
        obtain ⟨once, ready⟩ := settled id owner
        split
        case isTrue more => exact absurd more (Int.not_lt.mpr once)
        case isFalse => exact s.finish owner ready
    · cases st
  | unread part =>
    obtain ⟨-, st⟩ := ite_none_right_eq_some.mp st
    split at st
    · cases st
      exact s.sound
    · cases st
  | error | close | renew =>
    cases st
    exact s.sound

end

/-- Every pointer of the connection leads to a request that is not deleted, none is deleted twice, and no deleted one
was read. -/
theorem pointers_not_deleted {es : List Event} {c : HttpConnection} (run : Run step Settled {} es c) :
    (∀ id, id ∈ c.waitingQueue.toList ∨ id ∈ c.executionQueue.toList ∨
        c.incomingRequest = some id ∨ c.outgoingRequest = some id → id ∉ c.deleted) ∧
      c.deleted.Nodup ∧ c.misread = false := by
  have safe : c.Safe := by
    refine @Run.invariant _ _ step Settled Safe _ _ _ run ?_ ?_
    · exact ⟨⟨nodup_nil, nofun, fun _ => rfl⟩, nofun, rfl⟩
    · intro c e d safe settled st
      have move := step_move st
      refine ⟨safe.owned.move move ?_, Exchange.Live.move safe.owned safe.live settled move, safe.misread settled st⟩
      rintro hasError env rfl id mem
      exact (settled id mem).1
  obtain ⟨owned, live, sound⟩ := safe
  refine ⟨?_, (nodup_append'.mp owned.distinct).2.1, sound⟩
  · rintro id (waiting | execution | incoming | outgoing)
    · exact owned.alive (mem_append_left _ (mem_append_left _ waiting))
    · exact owned.alive (mem_append_left _ (mem_append_right _ execution))
    · exact owned.alive (mem_append_right _ (mem_toList.mpr incoming))
    · exact (live id outgoing).alive

/-- Of two requests one is answered, and the connection is lost before the other one is. -/
def answeredThenLost : List Event :=
  [.send {}, .send {}, .connected { passes := [{ stored := 64 }], taken := 64 },
    .ready { passes := [{}, { stored := 64 }], taken := 64 }, .messageBegin,
    .headersComplete 200 false, .body false, .messageComplete false {}, .error]

theorem pointers_not_deleted_answered_then_lost :
    ∃ c, exec step Settled {} answeredThenLost = some c ∧ c.deleted = [0] ∧
      c.waitingQueue.toList = [1] ∧ (∀ id, id ∈ c.waitingQueue.toList ∨ id ∈ c.executionQueue.toList ∨
          c.incomingRequest = some id ∨ c.outgoingRequest = some id → id ∉ c.deleted) ∧
        c.deleted.Nodup ∧ c.misread = false := by
  obtain ⟨c, done, deleted, waiting⟩ : ∃ c, exec step Settled {} answeredThenLost = some c ∧
      c.deleted = [0] ∧ c.waitingQueue.toList = [1] := exists_exec (by decide +kernel)
  exact ⟨c, done, deleted, waiting, pointers_not_deleted (exec_run done)⟩

/-- A request that is put back for a retry is deleted all the same. -/
theorem retried_request_deleted :
    ¬ ∀ es c, Run step Always {} es c → (∀ id, id ∈ c.waitingQueue.toList ∨ id ∈ c.executionQueue.toList ∨
          c.incomingRequest = some id ∨ c.outgoingRequest = some id → id ∉ c.deleted) ∧
        c.deleted.Nodup := by
  intro h
  obtain ⟨c, done, waiting, deleted⟩ : ∃ c, exec step Always {} [.send { retries := 1 },
      .connected { passes := [{ stored := 64 }], taken := 64 }, .ready {}, .messageBegin,
      .headersComplete 200 false, .messageComplete false {}] = some c ∧
      0 ∈ c.executionQueue.toList ∧ 0 ∈ c.deleted := exists_exec (by decide +kernel)
  exact (h _ _ (exec_run done)).1 0 (.inr (.inl waiting)) deleted

end HttpConnection

end Sming.Network.Http
