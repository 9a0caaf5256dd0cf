import Sming.Network.RbootHttpUpdate

/-!
# When the streams of an update are closed

The stream of an item is closed when its request or its response is destroyed, and `reset()` does
that after the delegate of the request was called. So `rboot_write_end` has not been called for the
last item when its delegate selects the new ROM. The proof needs to know that the stream was not
closed earlier: a request whose stream is closed gets no more calls.
-/

namespace Sming.Network
open Sming.Lib Sming.Network.Http List Option Function

namespace Ota

def Sent (o : Ota) (item : Nat) (key : String) (id : RequestId) : Prop :=
  ∃ r, o.owner key id = some r ∧ r.item = item

structure Tracked (o : Ota) : Prop where
  once : ∀ key, (o.pool key).exchange.Once
  owned : ∀ key, (o.pool key).exchange.Owned
  known : ∀ {key id r}, o.owner key id = some r → id < (o.pool key).exchange.born
  fresh : ∀ {key id r}, o.owner key id = some r → r.item < o.next
  unique : ∀ {item key id key' id'},
    o.Sent item key id → o.Sent item key' id' → key = key' ∧ id = id'
  ended : ∀ {item}, .writeEnd item ∈ o.log →
    ∃ key id, o.Sent item key id ∧ (o.pool key).exchange.Over id

def ledger (o : Ota) : (String → HttpConnection) × (String → RequestId → Option OtaRequest) × Nat :=
  (o.pool, o.owner, o.next)

def holders (o : Ota) :
    (String → HttpConnection) × (String → RequestId → Option OtaRequest) × (String → Option Nat) :=
  (o.pool, o.owner, o.response)

def Responding (o : Ota) : Prop :=
  ∀ key item, o.response key = some item →
    ∃ id, o.Sent item key id ∧ (o.pool key).incomingRequest = some id

section
variable {o : Ota} {key : String} {prompt : Prop} {e : HttpConnection.Event}

lemma Tracked.connection (t : o.Tracked) {d : HttpConnection}
    (once : ∀ r, e = .send r → r.retries ≤ 0 ∧ r.digest = false)
    (m : Exchange.Move prompt (o.pool key).exchange e d.exchange) :
    Tracked { o with pool := update o.pool key d } := by
  -- what holds of all connections holds of all again if it holds of the one that has changed
  have pool {P : String → HttpConnection → Prop} (all : ∀ k, P k (o.pool k)) (new : P key d) :
      ∀ k, P k (update o.pool key d k) := by
    intro k
    rw [update_apply]
    split
    case isTrue h => exact h ▸ new
    case isFalse => exact all k
  refine ⟨?_, ?_, ?_, t.fresh, t.unique, ?_⟩
  · exact @pool (fun _ c => c.exchange.Once) t.once ((t.once key).move once m)
  · exact @pool (fun _ c => c.exchange.Owned) t.owned
      ((t.owned key).move m fun _ _ _ id _ => (t.once key id).1)
  · intro k id r h
    exact @pool (fun k c => o.owner k id = some r → id < c.exchange.born) (fun _ => t.known)
      (fun h => Nat.lt_of_lt_of_le (t.known h) m.born_le) k h
  · intro item mem
    obtain ⟨k, id, sent, isOver⟩ := t.ended mem
    refine ⟨k, id, sent, ?_⟩
    exact @pool (fun k c => (o.pool k).exchange.Over id → c.exchange.Over id) (fun _ same => same)
      (fun isOver => isOver.move m) k isOver

lemma Tracked.frame (t : o.Tracked) {u : Ota} (same : u.ledger = o.ledger)
    (log : ∀ {item}, .writeEnd item ∈ u.log → .writeEnd item ∈ o.log ∨
      ∃ key id, o.Sent item key id ∧ (o.pool key).exchange.Over id) : u.Tracked := by
  simp only [ledger, Prod.mk.injEq] at same
  obtain ⟨pool, owner, next⟩ := same
  have sent {item key id} : u.Sent item key id ↔ o.Sent item key id := by rw [Sent, Sent, owner]
  refine ⟨pool ▸ t.once, pool ▸ t.owned, ?_, ?_, ?_, ?_⟩
  · rw [owner, pool]
    exact t.known
  · rw [owner, next]
    exact t.fresh
  · simp only [sent]
    exact t.unique
  · intro item mem
    simp only [sent, pool]
    exact (log mem).elim t.ended id

variable {item : Nat}

lemma mem_log_concat {log : List OtaAction} {item' : Nat}
    (mem : .writeEnd item' ∈ log ++ [.writeEnd item]) : .writeEnd item' ∈ log ∨ item' = item := by
  obtain old | new := mem_append.mp mem
  · exact .inl old
  · cases mem_singleton.mp new
    exact .inr rfl

lemma Tracked.destroyRequest (t : o.Tracked) {id : RequestId} (gone : id ∈ (o.pool key).deleted) :
    (o.destroyRequest key id).Tracked := by
  rw [Ota.destroyRequest]
  split
  · exact t
  case h_2 r owner =>
    split
    · refine t.frame rfl fun mem => ?_
      obtain old | rfl := mem_log_concat mem
      · exact .inl old
      · exact .inr ⟨key, id, ⟨r, owner, rfl⟩, .inl gone⟩
    · exact t

lemma Tracked.resetResponse (t : o.Tracked) (isOver : ∀ item, o.response key = some item →
      ∃ id, o.Sent item key id ∧ (o.pool key).exchange.Over id) : (o.resetResponse key).Tracked := by
  rw [Ota.resetResponse]
  split
  · exact t
  case h_2 item h =>
    refine t.frame rfl fun mem => ?_
    obtain old | rfl := mem_log_concat mem
    · exact .inl old
    · exact .inr ⟨key, isOver _ h⟩

lemma writeEnd_not_mem_entries {e : Event} : .writeEnd item ∉ o.entries e := by
  unfold entries
  split
  · split
    · exact nofun
    · simp
    · split <;> simp
  · exact nofun

lemma Tracked.called (t : o.Tracked) {e' : HttpConnection.Event}
    {d : HttpConnection} (once : ∀ r, e' = .send r → r.retries ≤ 0 ∧ r.digest = false)
    (m : Exchange.Move prompt (o.pool key).exchange e' d.exchange) (answers : List (Nat × Nat)) :
    Tracked { o.callDelegate key e with pool := update o.pool key d, answers := answers } := by
  obtain ⟨items, -, called⟩ := o.callDelegate_eq key e
  rw [called]
  refine (t.connection once m).frame rfl ?_
  intro item mem
  exact .inl ((mem_append.mp mem).resolve_right writeEnd_not_mem_entries)

lemma destroyRequest_frame (o : Ota) (key : String) (id : RequestId) :
    (o.destroyRequest key id).holders = o.holders := by
  rw [Ota.destroyRequest]
  split
  · rfl
  · split <;> rfl

lemma Tracked.destroyRequests (t : o.Tracked) {ids : List RequestId} (gone : ∀ id ∈ ids, id ∈ (o.pool key).deleted) :
    (ids.foldl (fun o id => o.destroyRequest key id) o).Tracked ∧
      (ids.foldl (fun o id => o.destroyRequest key id) o).holders = o.holders := by
  induction ids generalizing o with
  | nil => exact ⟨t, rfl⟩
  | cons id ids ih =>
    rw [forall_mem_cons] at gone
    have frame := destroyRequest_frame o key id
    have pool : (o.destroyRequest key id).pool = o.pool := congrArg (·.1) frame
    obtain ⟨tracked, same⟩ := ih (t.destroyRequest gone.1) (pool ▸ gone.2)
    exact ⟨tracked, same.trans frame⟩

lemma resetResponse_frame (o : Ota) (key : String) :
    (o.resetResponse key).holders = (o.pool, o.owner, update o.response key none) := by
  rw [Ota.resetResponse]
  split
  case h_1 none =>
    rw [update_eq_self_iff.mpr none.symm]
    rfl
  case h_2 => rfl

section
variable {d : HttpConnection} {u : Ota}

lemma Responding.kept (r : o.Responding) (incoming : d.incomingRequest = (o.pool key).incomingRequest)
    (same : u.holders = (update o.pool key d, o.owner, o.response)) : u.Responding := by
  simp only [holders, Prod.mk.injEq] at same
  obtain ⟨pool, owner, response⟩ := same
  intro k item h
  rw [response] at h
  obtain ⟨id, sent, mine⟩ := r k item h
  refine ⟨id, by rw [Sent, owner]; exact sent, ?_⟩
  rw [pool, update_apply]
  split
  case isTrue same =>
    subst same
    exact incoming.trans mine
  case isFalse => exact mine

lemma Responding.done (r : o.Responding) (same : u.holders =
      (update o.pool key d, o.owner, update o.response key none)) : u.Responding := by
  simp only [holders, Prod.mk.injEq] at same
  obtain ⟨pool, owner, response⟩ := same
  intro k item h
  rw [response, update_apply] at h
  split at h
  case isTrue => cases h
  case isFalse other =>
    obtain ⟨id, sent, mine⟩ := r k item h
    refine ⟨id, by rw [Sent, owner]; exact sent, ?_⟩
    rw [pool, update_of_ne other]
    exact mine

lemma Responding.close (r : o.Responding) (t : u.Tracked)
    (same : u.holders = (update o.pool key d, o.owner, o.response))
    (isOver : ∀ id ∈ (o.pool key).incomingRequest, d.exchange.Over id) :
    (u.resetResponse key).Tracked ∧ (u.resetResponse key).Responding := by
  have frame := resetResponse_frame u key
  have parts := same
  simp only [holders, Prod.mk.injEq] at parts
  obtain ⟨pool, owner, response⟩ := parts
  constructor
  · apply t.resetResponse
    intro item h
    rw [response] at h
    obtain ⟨id, sent, mine⟩ := r key item h
    refine ⟨id, by rw [Sent, owner]; exact sent, ?_⟩
    rw [pool, update_self]
    exact isOver id mine
  · rw [pool, owner, response] at frame
    exact r.done frame

end

lemma Tracked.reset {u : Ota} {d : HttpConnection} (t : u.Tracked) (r : o.Responding)
    (same : u.holders = (update o.pool key d, o.owner, o.response))
    (m : Exchange.Move prompt (o.pool key).exchange e d.exchange) (resets : e.resets = true)
    {ids : List RequestId} (gone : ∀ id ∈ ids, id ∈ d.deleted) :
    ((ids.foldl (fun o id => o.destroyRequest key id) u).resetResponse key).Tracked ∧
      ((ids.foldl (fun o id => o.destroyRequest key id) u).resetResponse key).Responding := by
  have pool : u.pool = update o.pool key d := congrArg Prod.fst same
  have mine : u.pool key = d := by rw [pool, update_self]
  obtain ⟨tracked, frame⟩ := t.destroyRequests (mine.symm ▸ gone)
  exact r.close tracked (frame.trans same) fun id mem => .inl (m.reset resets id mem)

lemma takeStream_frame (o : Ota) (key : String) (incoming : Option RequestId) :
    (o.takeStream key incoming).ledger = o.ledger ∧ (o.takeStream key incoming).log = o.log := by
  rw [takeStream]
  split
  · exact ⟨rfl, rfl⟩
  · split <;> exact ⟨rfl, rfl⟩

lemma Responding.takeStream (r : o.Responding) {incoming : Option RequestId}
    (mine : (o.pool key).incomingRequest = incoming) : (o.takeStream key incoming).Responding := by
  rw [Ota.takeStream]
  split
  · exact r
  case h_2 req h =>
    obtain ⟨id, now, owner⟩ := bind_eq_some_iff.mp h
    split
    · intro k item taken
      simp only [update_apply] at taken
      split at taken
      case isTrue same =>
        cases taken
        subst same
        exact ⟨id, ⟨req, owner, rfl⟩, mine.trans now⟩
      case isFalse => exact r k item taken
    · exact r

/-- The streams stay with their requests while the connection makes a step. -/
lemma Tracked.http (t : o.Tracked) (r : o.Responding) {u : Ota}
    (once : ∀ r, e = .send r → r.retries ≤ 0 ∧ r.digest = false) (st : o.http key e = some u) :
    u.Tracked ∧ u.Responding := by
  obtain ⟨d, stepped, rfl⟩ := map_eq_some_iff.mp st
  have m := HttpConnection.step_move stepped
  generalize answered : (o.answers ++ (o.answered key e).toList.map fun (a : OtaRequest × Nat) => (a.1.item, a.2)) =
    answers
  have called : Tracked { o.callDelegate key e with pool := update o.pool key d, answers := answers } := by
    refine t.called ?_ m answers
    intro req h
    cases e with
    | send => exact once req h
    | messageComplete => cases h
    | connected | ready | messageBegin | headersComplete | body | unread | error | close | renew => cases h
  have same : holders { o.callDelegate key e with pool := update o.pool key d, answers := answers } =
      (update o.pool key d, o.owner, o.response) := by
    obtain ⟨items, -, eq⟩ := o.callDelegate_eq key e
    rw [eq]
    rfl
  have kept (keep : (o.answer key e).resets = false) :
      Responding { o.callDelegate key e with pool := update o.pool key d, answers := answers } :=
    r.kept (m.incoming keep) same
  have gone : ∀ id ∈ d.deleted.drop (o.pool key).deleted.length, id ∈ d.deleted := fun id => mem_of_mem_drop
  cases e with
  | send | connected | ready | unread | close => exact ⟨called, kept rfl⟩
  | messageBegin | messageComplete | error | renew => exact called.reset r same m rfl gone
  | headersComplete code refused value =>
    cases refused with
    | true => exact ⟨called, kept rfl⟩
    | false =>
      obtain ⟨frame, log⟩ := takeStream_frame
        { o.callDelegate key (.headersComplete code false value) with
          pool := update o.pool key d
          answers := answers } key (o.pool key).incomingRequest
      refine ⟨called.frame frame fun mem => .inl (log ▸ mem), ?_⟩
      apply (kept rfl).takeStream
      simp only [update_self]
      exact m.incoming rfl
  | body refused =>
    cases refused with
    | false => exact ⟨called, kept rfl⟩
    | true =>
      -- the request is not deleted yet, but the parser has stopped in its response
      refine r.close called same fun id mem => .inr ⟨?_, (m.incoming rfl).trans mem⟩
      exact m.stopped

section
variable {id : RequestId} {r : OtaRequest}

lemma Sent.register {k : String} {i : RequestId} (sent : o.Sent item k i)
    (new : o.owner key id = none) : (o.register key id r).Sent item k i := by
  obtain ⟨r', owner, rfl⟩ := sent
  refine ⟨r', ?_, rfl⟩
  rw [register_owner, if_neg]
  · exact owner
  · rintro ⟨rfl, rfl⟩
    cases owner.symm.trans new

lemma Sent.of_register {k : String} {i : RequestId} (sent : (o.register key id r).Sent item k i) :
    (k = key ∧ i = id ∧ item = r.item) ∨ o.Sent item k i := by
  obtain ⟨r', owner, rfl⟩ := sent
  rw [register_owner] at owner
  split at owner
  case isTrue same =>
    cases owner
    exact .inl ⟨same.1, same.2, rfl⟩
  case isFalse => exact .inr ⟨r', owner, rfl⟩

lemma Tracked.register (t : o.Tracked) (new : o.owner key id = none)
    (known : id < (o.pool key).exchange.born) (item : r.item = o.next) : (o.register key id r).Tracked := by
  have old {item key id} (sent : o.Sent item key id) : item < o.next := by
    obtain ⟨r', owner, rfl⟩ := sent
    exact t.fresh owner
  refine ⟨t.once, t.owned, ?_, ?_, ?_, ?_⟩
  · intro k i r' owner
    rw [register_owner] at owner
    split at owner
    case isTrue same =>
      obtain ⟨rfl, rfl⟩ := same
      exact known
    case isFalse => exact t.known owner
  · intro k i r' owner
    rw [register_owner] at owner
    split at owner
    · cases owner
      exact item ▸ Nat.lt_succ_self _
    · exact Nat.lt_succ_of_lt (t.fresh owner)
  · intro it k i k' i' sent sent'
    obtain ⟨rfl, rfl, same⟩ | before := sent.of_register <;>
      obtain ⟨rfl, rfl, same'⟩ | before' := sent'.of_register
    · exact ⟨rfl, rfl⟩
    · exact absurd (old before') (by omega)
    · exact absurd (old before) (by omega)
    · exact t.unique before before'
  · intro it mem
    obtain ⟨k, i, sent, isOver⟩ := t.ended mem
    exact ⟨k, i, sent.register new, isOver⟩

lemma Responding.register (resp : o.Responding) (new : o.owner key id = none) : (o.register key id r).Responding := by
  intro k item h
  obtain ⟨i, sent, mine⟩ := resp k item h
  exact ⟨i, sent.register new, mine⟩

end

lemma Responding.destroyRequest (r : o.Responding) (id : RequestId) : (o.destroyRequest key id).Responding := by
  have frame := destroyRequest_frame o key id
  simp only [holders, Prod.mk.injEq] at frame
  obtain ⟨pool, owner, response⟩ := frame
  intro k item h
  rw [response] at h
  rw [pool]
  simp only [Sent, owner]
  exact r k item h

lemma Tracked.sendItem (t : o.Tracked) (r : o.Responding) (connected : Bool) :
    (o.sendItem connected).Tracked ∧ (o.sendItem connected).Responding := by
  rw [Ota.sendItem]
  split
  · exact ⟨t.frame rfl .inl, r⟩
  case h_2 url _ =>
    generalize getCacheKey url = key
    simp only
    have m := (o.pool key).send_move { o.baseRequest.clone with uri := url, method := .get }
    generalize (o.pool key).send _ = d at m
    -- a copy of the base request is not to be repeated, whatever that one says
    have connection := t.connection (by rintro _ ⟨⟩; exact ⟨Int.le_refl _, rfl⟩) m
    have responding : Responding { o with pool := update o.pool key d } := r.kept (m.incoming rfl) rfl
    -- the number of the new request is one that no item has yet
    have new : o.owner key (o.pool key).requests.length = none := by
      cases owner : o.owner key (o.pool key).requests.length with
      | none => rfl
      | some r' => exact absurd (t.known owner) (Nat.lt_irrefl _)
    have mine : update o.pool key d key = d := update_self ..
    have known : (o.pool key).requests.length < (update o.pool key d key).exchange.born := by
      rw [mine]
      exact m.born_lt
    have registered := @Tracked.register _ key (o.pool key).requests.length
      ⟨o.next, o.next + 1 == o.items.length⟩ connection new known rfl
    have responding := @Responding.register _ key (o.pool key).requests.length
      ⟨o.next, o.next + 1 == o.items.length⟩ responding new
    split
    case isTrue gone =>
      -- the waiting queue was full, and the request is deleted with its stream
      rw [← mine] at gone
      exact ⟨(registered.destroyRequest gone).frame rfl .inl, responding.destroyRequest _⟩
    case isFalse => exact ⟨registered.frame rfl .inl, responding⟩

end

/-- No request is to be repeated, now or because a response asks for digest authentication. -/
def Unrepeated (_ : Ota) : Event → Prop
  | .http _ (.send r) => r.retries ≤ 0 ∧ r.digest = false
  | _ => True

variable {e : Event}

lemma Tracked.step {o u : Ota} (t : o.Tracked) (r : o.Responding)
    (once : o.Unrepeated e) (st : o.step e = some u) : u.Tracked ∧ u.Responding := by
  cases e with
  | switchToRom slot =>
    cases st
    exact ⟨t.frame rfl .inl, r⟩
  | sendItem connected =>
    obtain ⟨-, st⟩ := ite_none_right_eq_some.mp st
    cases st
    exact t.sendItem r connected
  | http key e =>
    refine t.http r ?_ st
    rintro req rfl
    exact once

def Unswitched (o : Ota) (e : Event) : Prop := o.switching e = none

instance (o : Ota) (e : Event) : Decidable (o.Unswitched e) := inferInstanceAs (Decidable (_ = none))

lemma Tracked.open_at_switch {o : Ota} {r : OtaRequest} (t : o.Tracked) (numbered : o.Numbered)
    (switch : o.switching e = some r) : r.item + 1 = o.size ∧ .writeEnd r.item ∉ o.log := by
  obtain ⟨key, ev, code, -, answered, last, -⟩ := (switching_iff numbered).mp switch
  obtain ⟨id, body, incoming, owner⟩ := answered_inv answered
  refine ⟨last, fun mem => ?_⟩
  obtain ⟨key', id', sent, isOver⟩ := t.ended mem
  obtain ⟨rfl, rfl⟩ := t.unique sent ⟨r, owner, rfl⟩
  exact (t.owned _).not_over body incoming isOver

variable {items : List URL} {base : HttpRequest}

lemma not_sent_start {key : String} {id : RequestId} {r : OtaRequest} : (start items base).owner key id ≠ some r := by
  intro owner
  cases owner

lemma Tracked.start : (start items base).Tracked ∧ (start items base).Responding := by
  have once : Exchange.Once (HttpConnection.exchange {}) := by
    intro id
    simp [HttpConnection.exchange, HttpConnection.request, HttpRequest.ticket, HttpRequest.digest]
  have owned : Exchange.Owned (HttpConnection.exchange {}) :=
    ⟨nodup_nil, fun _ mem => absurd mem not_mem_nil, fun _ => rfl⟩
  constructor
  · refine ⟨fun _ => once, fun _ => owned, ?_, ?_, ?_, ?_⟩
    · exact fun owner => absurd owner not_sent_start
    · exact fun owner => absurd owner not_sent_start
    · rintro item key id key' id' ⟨r, owner, -⟩
      exact absurd owner not_sent_start
    · exact fun mem => absurd mem not_mem_nil
  · intro key item h
    cases h

lemma Tracked.run {es : List Event} {o : Ota}
    (run : Run Ota.step Unrepeated (Ota.start items base) es o) : o.Tracked := by
  refine (@Run.invariant _ _ Ota.step Unrepeated (fun o => o.Tracked ∧ o.Responding) _ _ _ run Tracked.start ?_).1
  rintro t e u ⟨tracked, responding⟩ once st
  exact tracked.step responding once st

/-- `rboot_write_end` was called for every item before the ROM is selected in every run that selects none and, if no
request is to be repeated, in no other. -/
theorem writeEnd_before_switch_iff {items : List URL} {base : HttpRequest} {es : List Event} {o : Ota} :
    (Run step Unswitched (start items base) es o → ∀ item < o.size, PrecededBy IsSwitch (· = .writeEnd item) o.log) ∧
    (Run step Unrepeated (start items base) es o →
      (∀ item < o.size, PrecededBy IsSwitch (· = .writeEnd item) o.log) →
        Run step Unswitched (start items base) es o) := by
  refine ⟨fun run => ?_, fun run => ?_⟩
  · refine @Run.invariant _ _ step Unswitched
      (fun o => ∀ item < o.size, PrecededBy IsSwitch (· = .writeEnd item) o.log) _ _ _ run
      (fun _ _ => precededBy_nil) ?_
    intro t e u h none st item lt
    rw [(step_stepped st).size] at lt
    rw [precededBy_step st, show t.switching e = Option.none from none]
    exact ⟨h item lt, nofun⟩
  · refine (@Run.iff_guarded _ _ step Unswitched Unrepeated
      (fun o => ∀ item < o.size, PrecededBy IsSwitch (· = .writeEnd item) o.log) _ _ _ run
      (fun _ _ => precededBy_nil) ?_).mp
    intro es t e u run _ st
    have tracked := Tracked.run run
    simp only [(step_stepped st).size, precededBy_step st, Unswitched]
    constructor
    · intro h
      refine ⟨fun item lt => (h item lt).1, ?_⟩
      cases switch : t.switching e with
      | none => rfl
      | some r =>
        -- the stream of the last item itself is still open
        obtain ⟨last, isOpen⟩ := tracked.open_at_switch (numbered_of_run run) switch
        obtain ⟨b, mem, rfl⟩ := (h r.item (by omega)).2 r switch
        obtain old | new := mem_append.mp mem
        · exact absurd old isOpen
        · cases mem_singleton.mp new
    · rintro ⟨h, none⟩ item lt
      rw [none]
      exact ⟨h item lt, nofun⟩

theorem writeEnd_before_switch_iff_no_rom :
    ∃ o, exec step Unswitched (start [{ host := "a", port := some 80 }, { host := "a", port := some 80 }]
          {}) bothItems.tail = some o ∧
      o.log = [.success 0, .writeEnd 0, .success 1, .writeEnd 1] ∧
      ∀ item < o.size, PrecededBy IsSwitch (· = .writeEnd item) o.log := by
  obtain ⟨o, done, log⟩ : ∃ o, exec step Unswitched (start [{ host := "a", port := some 80 },
      { host := "a", port := some 80 }] {}) bothItems.tail = some o ∧
      o.log = [.success 0, .writeEnd 0, .success 1, .writeEnd 1] := exists_exec (by decide +kernel)
  exact ⟨o, done, log, writeEnd_before_switch_iff.1 (exec_run done)⟩

/-- The only item of an update is there, and the new ROM is selected before its stream is closed. -/
theorem switch_before_writeEnd :
    ¬ ∀ items base es o, Run step Always (start items base) es o →
      ∀ item < o.size, PrecededBy IsSwitch (· = .writeEnd item) o.log := by
  intro h
  obtain ⟨o, done, some, log⟩ : ∃ o, exec step Always (start [{ host := "a", port := some 80 }] {})
      ([.switchToRom 1, .sendItem true, .http "a:80" (.connected { passes := [{ stored := 64 }], taken := 64 }),
        .http "a:80" (.ready {})] ++ exchange "a:80") = some o ∧
      0 < o.size ∧ o.log = [.success 0] ++ .setCurrentRom 1 :: [.writeEnd 0] :=
    exists_exec (by decide +kernel)
  have all := h _ _ _ _ (exec_run done) 0 some _ _ _ log trivial
  obtain ⟨b, mem, rfl⟩ := all
  cases mem_singleton.mp mem

end Ota

end Sming.Network
