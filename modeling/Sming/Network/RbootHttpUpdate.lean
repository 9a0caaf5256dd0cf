import Sming.Lib.Trace
import Sming.Network.Http.HttpOwnership

/-!
# Firmware updates over HTTP

Embedding of `Sming/SmingCore/Network/rBootHttpUpdate.cpp` on top of the pool of connections of
`HttpClient.cpp`. The runs start with the call of `start()`; its loop sends one request in each
`sendItem` event. Everything else comes from the connections: `http key e` is the event `e` of the
connection to the host `key`, which may also carry requests of others.

The stream of an item belongs to its request until the headers of the response are complete, then to
the response, and its destructor calls `rboot_write_end`. `log` is the history of the update, and `answers` that of
the responses: the items whose requests were answered completely, and the status codes.
-/

namespace Sming.Network
open Sming.Lib Sming.Network.Http List

def noRomSwitch : UInt8 := 0xff

inductive OtaAction where
  | success (item : Nat)
  | failure (item : Nat)
  | writeEnd (item : Nat)
  | setCurrentRom (slot : UInt8)
  deriving Repr, DecidableEq

/-- The request of an item; `last` says that its delegate is `updateComplete`. -/
structure OtaRequest where
  item : Nat
  last : Bool
  deriving Repr, DecidableEq

def getCacheKey (url : URL) : String := url.host ++ ":" ++ toString (url.port.getD 0)

/-- The update, the connections of `HttpClient`, and who holds the streams of the items: `unread` are the items whose
requests do, `response` is the item of a connection's response stream. `size` items were added. -/
structure Ota where
  size : Nat
  items : List URL
  baseRequest : HttpRequest := {}
  next : Nat := 0
  sending : Bool := true
  romSlot : UInt8 := noRomSwitch
  pool : String → HttpConnection := fun _ => {}
  owner : String → RequestId → Option OtaRequest := fun _ _ => none
  unread : List Nat := []
  response : String → Option Nat := fun _ => none
  log : List OtaAction := []
  answers : List (Nat × Nat) := []

/-- The status codes of success (C++ `HttpConnection::onMessageComplete`). -/
def isSuccess (code : Nat) : Bool := 200 ≤ code && code ≤ 399

namespace Ota

/-- `start()` is called on the given items. -/
def start (items : List URL) (baseRequest : HttpRequest) : Ota where
  size := items.length
  items := items
  baseRequest := baseRequest

variable (o : Ota)

def record (action : OtaAction) : Ota := { o with log := o.log ++ [action] }

/-! ### The streams -/

def destroyRequest (key : String) (id : RequestId) : Ota :=
  match o.owner key id with
  | none => o
  | some r =>
    if r.item ∈ o.unread then { o.record (.writeEnd r.item) with unread := o.unread.erase r.item }
    else o

/-- (C++ `HttpResponse::reset`.) -/
def resetResponse (key : String) : Ota :=
  match o.response key with
  | none => o
  | some item =>
    { o.record (.writeEnd item) with response := Function.update o.response key none }

/-- The response takes over the stream of its request (C++ `HttpConnection::onHeadersComplete`). -/
def takeStream (key : String) (incoming : Option RequestId) : Ota :=
  match incoming.bind (o.owner key) with
  | none => o
  | some r =>
    if r.item ∈ o.unread then
      { o with
        unread := o.unread.erase r.item
        response := Function.update o.response key (some r.item) }
    else o

def moveStreams (key : String) (c d : HttpConnection) : HttpConnection.Event → Ota
  | .headersComplete _ refused _ => if refused then o else o.takeStream key c.incomingRequest
  | .body refused => if refused then o.resetResponse key else o
  | .messageBegin | .messageComplete _ _ | .error | .renew =>
    ((d.deleted.drop c.deleted.length).foldl (fun o id => o.destroyRequest key id) o).resetResponse
      key
  | .send _ | .connected _ | .ready _ | .unread _ | .close => o

/-! ### The delegates -/

def applyUpdate : Ota :=
  if o.romSlot = noRomSwitch then { o with items := [] }
  else record { o with items := [] } (.setCurrentRom o.romSlot)

/-- (C++ `itemComplete`, `updateComplete` and `updateFailed`.) -/
def requestComplete (r : OtaRequest) (success : Bool) : Ota :=
  if success then
    let o := o.record (.success r.item)
    if r.last then o.applyUpdate else o
  else { o.record (.failure r.item) with items := [] }

/-- The request of an item whose response is complete with this event, and the status code. -/
def answered (key : String) : HttpConnection.Event → Option (OtaRequest × Nat)
  | .messageComplete _ _ =>
    match (o.pool key).parser, (o.pool key).incomingRequest.bind (o.owner key) with
    | .body code, some r => some (r, code)
    | _, _ => none
  | _ => none

/-- The call of a delegate that an event leads to, with the argument `success` (C++
`HttpConnection::onMessageComplete`). -/
def delegate (key : String) (e : HttpConnection.Event) : Option (OtaRequest × Bool) :=
  (o.answered key e).map fun a => (a.1, isSuccess a.2)

def callDelegate (key : String) (e : HttpConnection.Event) : Ota :=
  match o.delegate key e with
  | none => o
  | some (r, success) => o.requestComplete r success

/-- The delegates of the update answer with an error if the request failed. -/
def answer (key : String) : HttpConnection.Event → HttpConnection.Event
  | .messageComplete hasError env =>
    .messageComplete (((o.delegate key (.messageComplete hasError env)).map (!·.2)).getD hasError) env
  | e => e

/-! ### Steps -/

def register (key : String) (id : RequestId) (r : OtaRequest) : Ota :=
  { o with
    next := o.next + 1
    owner := Function.update o.owner key (Function.update (o.owner key) id (some r))
    unread := r.item :: o.unread }

/-- One round of the loop of `start()`, and `HttpClient::send`; `connected` is the answer of
`connect()`. -/
def sendItem (connected : Bool) : Ota :=
  match o.items[o.next]? with
  | none => { o with sending := false }
  | some url =>
    let key := getCacheKey url
    let c := o.pool key
    let d := c.send { o.baseRequest.clone with uri := url, method := .get }
    let id := c.requests.length
    let o := { o with pool := Function.update o.pool key d }.register key id
      ⟨o.next, o.next + 1 == o.items.length⟩
    if id ∈ d.deleted then { o.destroyRequest key id with sending := false }
    else { o with sending := connected }

/-- An event of a connection. The delegate is called before anything is destroyed. -/
def http (key : String) (e : HttpConnection.Event) : Option Ota :=
  ((o.pool key).step (o.answer key e)).map fun d =>
    { o.callDelegate key e with
      pool := Function.update o.pool key d
      answers := o.answers ++ (o.answered key e).toList.map fun (a : OtaRequest × Nat) => (a.1.item, a.2)
    }.moveStreams key (o.pool key) d e

inductive Event where
  | switchToRom (slot : UInt8)
  | sendItem (connected : Bool)
  | http (key : String) (e : HttpConnection.Event)

def step : Event → Option Ota
  | .switchToRom slot => some { o with romSlot := slot }
  | .sendItem connected => if o.sending then some (o.sendItem connected) else none
  | .http key e => o.http key e

/-! ### What a step adds to the log -/

/-- The request whose successful completion makes the step select the new ROM. -/
def switching : Event → Option OtaRequest
  | .http key e =>
    match o.delegate key e with
    | some (r, true) => if r.last = true ∧ o.romSlot ≠ noRomSwitch then some r else none
    | _ => none
  | _ => none

def IsSwitch : OtaAction → Prop
  | .setCurrentRom _ => True
  | _ => False

def IsWriteEnd : OtaAction → Prop
  | .writeEnd _ => True
  | _ => False

section
variable {o u : Ota} {key : String}

/-- Streams change hands, and some are closed. -/
def Closes (o u : Ota) : Prop :=
  ∃ unread response ends, (∀ a ∈ ends, IsWriteEnd a) ∧
    u = { o with unread := unread, response := response, log := o.log ++ ends }

lemma Closes.moved (o : Ota) (unread : List Nat) (response : String → Option Nat) :
    o.Closes { o with unread := unread, response := response } := by
  refine ⟨unread, response, [], nofun, ?_⟩
  rw [append_nil]

lemma Closes.refl (o : Ota) : o.Closes o := .moved o o.unread o.response

lemma Closes.single (o : Ota) (item : Nat) (unread : List Nat) (response : String → Option Nat) :
    o.Closes { o.record (.writeEnd item) with unread := unread, response := response } :=
  ⟨unread, response, [.writeEnd item], forall_mem_singleton.mpr trivial, rfl⟩

lemma Closes.trans {t : Ota} (h : o.Closes t) (h' : t.Closes u) : o.Closes u := by
  obtain ⟨_, _, ends, only, rfl⟩ := h
  obtain ⟨unread, response, ends', only', rfl⟩ := h'
  refine ⟨unread, response, ends ++ ends', forall_mem_append.mpr ⟨only, only'⟩, ?_⟩
  rw [List.append_assoc]

section
variable (o : Ota) (key : String)

lemma closes_destroyRequest (id : RequestId) : o.Closes (o.destroyRequest key id) := by
  rw [destroyRequest]
  split
  · exact .refl o
  · split
    · exact .single o _ _ o.response
    · exact .refl o

lemma closes_resetResponse : o.Closes (o.resetResponse key) := by
  rw [resetResponse]
  split
  · exact .refl o
  · exact .single o _ o.unread _

lemma closes_takeStream (incoming : Option RequestId) : o.Closes (o.takeStream key incoming) := by
  rw [takeStream]
  split
  · exact .refl o
  · split
    · exact .moved o _ _
    · exact .refl o

lemma closes_destroyRequests (ids : List RequestId) :
    o.Closes (ids.foldl (fun o id => o.destroyRequest key id) o) := by
  induction ids generalizing o with
  | nil => exact .refl o
  | cons id ids ih => exact (closes_destroyRequest o key id).trans (ih _)

lemma closes_moveStreams (c d : HttpConnection) (e : HttpConnection.Event) : o.Closes (o.moveStreams key c d e) := by
  have reset := (closes_destroyRequests o key (d.deleted.drop c.deleted.length)).trans
    (closes_resetResponse _ key)
  cases e with
  | headersComplete code refused =>
    cases refused with
    | true => exact .refl o
    | false => exact closes_takeStream o key _
  | body refused =>
    cases refused with
    | true => exact closes_resetResponse o key
    | false => exact .refl o
  | messageBegin | messageComplete | error | renew => exact reset
  | send | connected | ready | unread | close => exact .refl o

end

/-- A round of the loop of `start()` finds no more items, or registers the request of the next one. -/
lemma sendItem_eq (o : Ota) (connected : Bool) :
    o.sendItem connected = { o with sending := false } ∨
    ∃ url ∈ o.items[o.next]?, ∃ key d id u sending,
      ({ o with pool := Function.update o.pool key d }.register key id
        ⟨o.next, o.next + 1 == o.items.length⟩).Closes u ∧ o.sendItem connected = { u with sending := sending } := by
  rw [sendItem]
  split
  case h_1 => exact .inl rfl
  case h_2 url next =>
    refine .inr ⟨url, next, getCacheKey url,
      (o.pool (getCacheKey url)).send { o.baseRequest.clone with uri := url, method := .get },
      (o.pool (getCacheKey url)).requests.length, ?_⟩
    simp only
    split
    · exact ⟨_, false, closes_destroyRequest _ _ _, rfl⟩
    · exact ⟨_, connected, .refl _, rfl⟩

def entries (o : Ota) (e : Event) : List OtaAction :=
  match e with
  | .http key e =>
    match o.delegate key e with
    | none => []
    | some (r, false) => [.failure r.item]
    | some (r, true) =>
      .success r.item ::
        if r.last = true ∧ o.romSlot ≠ noRomSwitch then [.setCurrentRom o.romSlot] else []
  | _ => []

/-- The delegates add to the log, and may remove all items. -/
lemma callDelegate_eq (o : Ota) (key : String) (e : HttpConnection.Event) :
    ∃ items, (items = [] ∨ items = o.items) ∧
      o.callDelegate key e = { o with items := items, log := o.log ++ o.entries (.http key e) } := by
  simp only [callDelegate, entries]
  cases o.delegate key e with
  | none => exact ⟨o.items, .inr rfl, by rw [append_nil]⟩
  | some call =>
    obtain ⟨⟨item, last⟩, success⟩ := call
    cases success with
    | false => exact ⟨[], .inl rfl, rfl⟩
    | true =>
      cases last with
      | false => exact ⟨o.items, .inr rfl, rfl⟩
      | true =>
        refine ⟨[], .inl rfl, ?_⟩
        simp only [requestComplete, if_true, applyUpdate, record, true_and]
        by_cases none : o.romSlot = noRomSwitch
        · simp [none]
        · simp [none]

/-- The responses to requests of items that an event completes. -/
def noted (o : Ota) : Event → List (Nat × Nat)
  | .http key e => (o.answered key e).toList.map fun a => (a.1.item, a.2)
  | _ => []

lemma register_owner {id : RequestId} {r : OtaRequest} (k : String) (i : RequestId) :
    (o.register key id r).owner k i = if k = key ∧ i = id then some r else o.owner k i := by
  simp only [register, Function.update_apply]
  by_cases h : k = key
  · subst h
    simp [Function.update_apply]
  · simp [h]

/-- What an event does to the list of items, to the requests that belong to it and to the histories. -/
structure Stepped (o : Ota) (e : Event) (u : Ota) : Prop where
  size : u.size = o.size
  items : u.items = [] ∨ u.items = o.items
  owner : ∀ {key id r}, u.owner key id = some r → o.owner key id = some r ∨
    o.items ≠ [] ∧ r.last = (r.item + 1 == o.items.length)
  answers : u.answers = o.answers ++ o.noted e
  log : ∃ ends, (∀ a ∈ ends, IsWriteEnd a) ∧ u.log = o.log ++ o.entries e ++ ends

lemma step_stepped {e : Event} (st : o.step e = some u) : o.Stepped e u := by
  cases e with
  | switchToRom slot =>
    cases st
    refine ⟨rfl, .inr rfl, .inl, (append_nil _).symm, [], nofun, ?_⟩
    simp [entries]
  | sendItem connected =>
    obtain ⟨-, st⟩ := Option.ite_none_right_eq_some.mp st
    cases st
    obtain none | ⟨url, mem, key, d, id, u, sending, closes, next⟩ := o.sendItem_eq connected
    · rw [none]
      refine ⟨rfl, .inr rfl, .inl, (append_nil _).symm, [], nofun, ?_⟩
      simp [entries]
    · obtain ⟨_, _, ends, only, rfl⟩ := closes
      rw [next]
      refine ⟨rfl, .inr rfl, fun {k i r} owner => ?_, (append_nil _).symm, ends, only, ?_⟩
      · simp only [register_owner] at owner
        split at owner
        · cases owner
          exact .inr ⟨ne_nil_of_mem (mem_of_getElem? mem), rfl⟩
        · exact .inl owner
      · simp [entries, register]
  | http key e =>
    obtain ⟨d, -, rfl⟩ := Option.map_eq_some_iff.mp st
    obtain ⟨items, which, called⟩ := o.callDelegate_eq key e
    obtain ⟨_, _, ends, only, moved⟩ := closes_moveStreams _ key (o.pool key) d e
    rw [moved, called]
    exact ⟨rfl, which, .inl, rfl, ends, only, rfl⟩

lemma IsWriteEnd.not_isSwitch {a : OtaAction} (h : IsWriteEnd a) : ¬ IsSwitch a := by
  cases a with
  | writeEnd => exact id
  | success => cases h
  | failure => cases h
  | setCurrentRom => cases h

lemma precededBy_step {e : Event} {q : OtaAction → Prop} (st : o.step e = some u) :
    PrecededBy IsSwitch q u.log ↔ PrecededBy IsSwitch q o.log ∧
      ∀ r ∈ o.switching e, ∃ b ∈ o.log ++ [.success r.item], q b := by
  obtain ⟨ends, only, log⟩ := (step_stepped st).log
  rw [log, precededBy_append fun a mem => (only a mem).not_isSwitch]
  have quiet : PrecededBy IsSwitch q o.log ↔ PrecededBy IsSwitch q o.log ∧
      ∀ r ∈ (none : Option OtaRequest), ∃ b ∈ o.log ++ [.success r.item], q b := (and_iff_left nofun).symm
  cases e with
  | switchToRom | sendItem => simp [entries, switching]
  | http key e =>
    simp only [entries, switching]
    cases o.delegate key e with
    | none => simp
    | some call =>
      obtain ⟨r, success⟩ := call
      cases success with
      | false => exact (precededBy_append (forall_mem_singleton.mpr id)).trans quiet
      | true =>
        by_cases switch : r.last = true ∧ o.romSlot ≠ noRomSwitch
        · simp only [if_pos switch]
          rw [append_cons, precededBy_concat, precededBy_append (forall_mem_singleton.mpr id)]
          refine and_congr_right fun _ => ⟨?_, fun h _ => h r rfl⟩
          rintro h _ ⟨⟩
          exact h trivial
        · simp only [if_neg switch]
          exact (precededBy_append (forall_mem_singleton.mpr id)).trans quiet

/-! ### The requests and the responses of the items -/

/-- The delegate of the last item belongs to the request of the item that was added last; the items are only removed all
together. -/
structure Numbered (o : Ota) : Prop where
  items : o.items = [] ∨ o.items.length = o.size
  last : ∀ {key id r}, o.owner key id = some r → (r.last = true ↔ r.item + 1 = o.size)

/-- A success is a response with such a status code. -/
def Reported (o : Ota) : Prop := ∀ item, .success item ∈ o.log ↔ ∃ a ∈ o.answers, a.1 = item ∧ isSuccess a.2 = true

lemma Numbered.step {e : Event} (n : o.Numbered) (st : o.step e = some u) : u.Numbered := by
  have stepped := step_stepped st
  constructor
  · rw [stepped.size]
    obtain none | same := stepped.items
    · exact .inl none
    · exact same ▸ n.items
  · intro key id r owner
    rw [stepped.size]
    obtain old | ⟨some, last⟩ := stepped.owner owner
    · exact n.last old
    · rw [last, beq_iff_eq, n.items.resolve_left some]

lemma numbered_of_run {ok : Ota → Event → Prop} {items : List URL} {base : HttpRequest} {es : List Event}
    (run : Run Ota.step ok (start items base) es o) : o.Numbered :=
  run.invariant ⟨.inr rfl, nofun⟩ fun n _ st => n.step st

lemma success_mem_entries {e : Event} {item : Nat} :
    .success item ∈ o.entries e ↔ ∃ a ∈ o.noted e, a.1 = item ∧ isSuccess a.2 = true := by
  cases e with
  | switchToRom | sendItem => simp [entries, noted]
  | http key e =>
    simp only [entries, noted, delegate]
    cases o.answered key e with
    | none => simp
    | some a =>
      obtain ⟨r, code⟩ := a
      cases success : isSuccess code with
      | false => simp [success]
      | true =>
        simp only [Option.map_some, success, mem_cons, OtaAction.success.injEq, Option.toList_some, map_cons, map_nil,
          not_mem_nil, or_false, exists_eq_left, and_true]
        constructor
        · rintro (rfl | other)
          · rfl
          · split at other <;> simp at other
        · rintro rfl
          exact .inl rfl

lemma Reported.step {e : Event} (r : o.Reported) (st : o.step e = some u) : u.Reported := by
  have answers := (step_stepped st).answers
  obtain ⟨ends, only, log⟩ := (step_stepped st).log
  intro item
  have closed : .success item ∉ ends := fun mem => only _ mem
  simp only [log, answers, mem_append, r item, success_mem_entries, or_and_right, exists_or]
  exact ⟨fun h => h.resolve_right closed, .inl⟩

end

/-! ### The new ROM is selected when all items are there -/

/-- The response of success to the last item is complete, with a ROM slot chosen, only after such responses to all
others. -/
def LastComesLast : Event → Prop
  | .http key e =>
    ∀ a ∈ o.answered key e, a.1.item + 1 = o.size → isSuccess a.2 = true → o.romSlot ≠ noRomSwitch →
      ∀ item < o.size, item ≠ a.1.item → ∃ b ∈ o.answers, b.1 = item ∧ isSuccess b.2 = true
  | _ => True

instance (o : Ota) : (e : Event) → Decidable (o.LastComesLast e)
  | .http key e => inferInstanceAs (Decidable (∀ a ∈ o.answered key e, _ → _ → _ → ∀ item < o.size, _ → _))
  | .switchToRom _ | .sendItem _ => .isTrue trivial

lemma answered_inv {o : Ota} {key : String} {e : HttpConnection.Event} {r : OtaRequest} {code : Nat}
    (h : o.answered key e = some (r, code)) :
    ∃ id, (o.pool key).parser = .body code ∧ (o.pool key).incomingRequest = some id ∧ o.owner key id = some r := by
  unfold answered at h
  split at h
  case h_1 =>
    split at h
    case h_1 body owner =>
      cases h
      obtain ⟨id, incoming, owner⟩ := Option.bind_eq_some_iff.mp owner
      exact ⟨id, body, incoming, owner⟩
    case h_2 => cases h
  case h_2 => cases h

lemma switching_iff {o : Ota} {e : Event} (n : o.Numbered) {r : OtaRequest} :
    r ∈ o.switching e ↔ ∃ key ev code, e = .http key ev ∧ (r, code) ∈ o.answered key ev ∧
      r.item + 1 = o.size ∧ isSuccess code = true ∧ o.romSlot ≠ noRomSwitch := by
  cases e with
  | switchToRom | sendItem => simp [switching]
  | http key ev =>
    simp only [switching, delegate, Event.http.injEq, Option.mem_def]
    constructor
    · intro h
      split at h
      case h_1 called =>
        obtain ⟨⟨r', code⟩, answered, same⟩ := Option.map_eq_some_iff.mp called
        obtain ⟨⟨last, rom⟩, here⟩ := Option.ite_none_right_eq_some.mp h
        simp only [Prod.mk.injEq] at same
        obtain ⟨rfl, success⟩ := same
        cases here
        obtain ⟨id, -, -, owner⟩ := answered_inv answered
        exact ⟨key, ev, code, ⟨rfl, rfl⟩, answered, (n.last owner).mp last, success, rom⟩
      case h_2 => cases h
    · rintro ⟨_, _, code, ⟨rfl, rfl⟩, answered, last, success, rom⟩
      obtain ⟨id, -, -, owner⟩ := answered_inv answered
      rw [answered]
      simp only [Option.map_some, success]
      exact if_pos ⟨(n.last owner).mpr last, rom⟩

/-- The new ROM is selected only after the requests of all items have completed with success, exactly
if the last item is the last one that the peers answer with success. -/
theorem switch_after_success_iff {items : List URL} {base : HttpRequest} {es : List Event} {o : Ota}
    (run : Run step Always (start items base) es o) :
    (∀ item < o.size, PrecededBy IsSwitch (· = .success item) o.log) ↔
      Run step LastComesLast (start items base) es o := by
  refine @Run.iff_guarded _ _ step LastComesLast Always
    (fun o => ∀ item < o.size, PrecededBy IsSwitch (· = .success item) o.log) _ _ _ run
    (fun _ _ => precededBy_nil) ?_
  intro es t e u run _ st
  have numbered := numbered_of_run run
  have reported : t.Reported :=
    run.invariant (fun item => iff_of_false not_mem_nil nofun) fun r _ st => Reported.step r st
  simp only [(step_stepped st).size, precededBy_step st]
  constructor
  · intro h
    refine ⟨fun item lt => (h item lt).1, ?_⟩
    cases e with
    | switchToRom | sendItem => trivial
    | http key ev =>
      rintro ⟨r, code⟩ answered last success rom item lt other
      have switch := (switching_iff numbered).mpr ⟨key, ev, code, rfl, answered, last, success, rom⟩
      obtain ⟨b, mem, rfl⟩ := (h item lt).2 r switch
      obtain old | new := mem_append.mp mem
      · exact (reported item).mp old
      · cases mem_singleton.mp new
        exact absurd rfl other
  · rintro ⟨h, comes⟩ item lt
    refine ⟨h item lt, fun r switch => ⟨.success item, ?_, rfl⟩⟩
    obtain ⟨key, ev, code, rfl, answered, last, success, rom⟩ := (switching_iff numbered).mp switch
    by_cases same : item = r.item
    · exact mem_append_right _ (mem_singleton.mpr (congrArg _ same))
    · exact mem_append_left _ ((reported item).mpr (comes (r, code) answered last success rom item lt same))

def exchange (key : String) : List Event :=
  [.http key .messageBegin, .http key (.headersComplete 200 false), .http key (.body false),
    .http key (.messageComplete false {})]

/-- Two items of one host arrive one after the other. -/
def bothItems : List Event :=
  [.switchToRom 1, .sendItem true, .sendItem true,
    .http "a:80" (.connected { passes := [{ stored := 64 }], taken := 64 }),
    .http "a:80" (.ready { passes := [{}, { stored := 64 }], taken := 64 })] ++
    exchange "a:80" ++ exchange "a:80"

theorem switch_after_success_iff_both_items :
    ∃ o, exec step LastComesLast (start [{ host := "a", port := some 80 }, { host := "a", port := some 80 }]
          {}) bothItems = some o ∧
      o.log = [.success 0, .writeEnd 0, .success 1, .setCurrentRom 1, .writeEnd 1] ∧
      ∀ item < o.size, PrecededBy IsSwitch (· = .success item) o.log := by
  obtain ⟨o, done, log⟩ : ∃ o, exec step LastComesLast (start [{ host := "a", port := some 80 },
      { host := "a", port := some 80 }] {}) bothItems = some o ∧
      o.log = [.success 0, .writeEnd 0, .success 1, .setCurrentRom 1, .writeEnd 1] :=
    exists_exec (by decide +kernel)
  have run := exec_run done
  exact ⟨o, done, log, (switch_after_success_iff run.always).mpr run⟩

/-- The last item, from another host, is there before the first one, and the new ROM is selected. -/
theorem switch_before_first_item :
    ¬ ∀ items base es o, Run step Always (start items base) es o →
      ∀ item < o.size, PrecededBy IsSwitch (· = .success item) o.log := by
  intro h
  obtain ⟨o, done, some, log⟩ : ∃ o, exec step Always (start [{ host := "a", port := some 80 },
      { host := "b", port := some 80 }] {})
      ([.switchToRom 1, .sendItem true, .sendItem true,
        .http "b:80" (.connected { passes := [{ stored := 64 }], taken := 64 }),
        .http "b:80" (.ready {})] ++ exchange "b:80") = some o ∧
      0 < o.size ∧ o.log = [.success 1] ++ .setCurrentRom 1 :: [.writeEnd 1] :=
    exists_exec (by decide +kernel)
  have all := h _ _ _ _ (exec_run done) 0 some _ _ _ log trivial
  obtain ⟨b, mem, rfl⟩ := all
  cases mem_singleton.mp mem

end Ota

end Sming.Network
