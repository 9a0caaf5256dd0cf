import Mathlib.Data.List.Count
import Mathlib.Data.List.Perm.Subperm
import Sming.Network.Http.HttpConnection

/-!
# Freeing the pools of the HTTP client

Embedding of `HttpClient::cleanup` (`Sming/SmingCore/Network/HttpClient.cpp`) with the loops that it calls. The
connections of the pool share their waiting queues with the map `queue`, under the same key.

The loop over the pool counts up while the pool shrinks, so it passes over every second connection, and the loop of a
connection over its executing requests does the same. What is passed over is lost when the pool is cleared.
-/

namespace Sming.Wiring.HashMap
open List

variable {K V : Type} [DecidableEq K] {m : HashMap K V}

def keyAt (m : HashMap K V) (idx : Nat) : Option K := m.entries[idx]?.map Prod.fst

omit [DecidableEq K] in
lemma keyAt_none {idx : Nat} (past : m.count ≤ idx) : m.keyAt idx = none := by
  rw [keyAt, getElem?_eq_none past]
  rfl

omit [DecidableEq K] in
lemma keyAt_cons {kept rest : List (K × V)} {e : K × V} (cut : m.entries = kept ++ e :: rest) :
    m.keyAt kept.length = some e.1 := by
  rw [keyAt, cut, getElem?_append_right (Nat.le_refl _), Nat.sub_self]
  rfl

lemma entries_remove {kept rest : List (K × V)} {e : K × V} (cut : m.entries = kept ++ e :: rest) :
    (m.remove e.1).entries = kept ++ rest := by
  have keys := m.nodup
  rw [cut, map_append, map_cons] at keys
  have other : ∀ d ∈ kept, ¬ (d.1 == e.1) = true := by
    intro d mem same
    rw [beq_iff_eq] at same
    exact (nodup_append.mp keys).2.2 d.1 (List.mem_map_of_mem mem) e.1 mem_cons_self same
  change m.entries.eraseP _ = _
  rw [cut, eraseP_append_right _ other, eraseP_cons_of_pos (by simp)]

lemma entries_assign {front back : List (K × V)} {k : K} {v : V} (cut : m.entries = front ++ (k, v) :: back) (w : V) :
    (m.assign k w).entries = front ++ (k, w) :: back := by
  have keys := m.nodup
  rw [cut, map_append, map_cons] at keys
  obtain ⟨-, here, apart⟩ := nodup_append.mp keys
  have same : ∀ l : List (K × V), k ∉ l.map Prod.fst → l.map (fun e => if e.1 = k then (k, w) else e) = l := by
    intro l absent
    conv_rhs => rw [← List.map_id l]
    refine map_congr_left fun e mem => if_neg ?_
    exact ne_of_mem_of_not_mem (List.mem_map_of_mem mem) absent
  change m.entries.map _ = _
  rw [cut, map_append, map_cons, if_pos rfl, same front fun mem => apart k mem k mem_cons_self rfl,
    same back (nodup_cons.mp here).1]

end Sming.Wiring.HashMap

namespace Sming.Network.Http
open Sming.Lib Sming.Wiring List

/-- What a connection of the pool holds (C++ `HttpConnection`). -/
structure PooledConnection where
  executionQueue : RequestQueue := .new
  incomingRequest : Option RequestId := none

/-- The calls of `delete`; a connection is named by its key. -/
inductive Deletion where
  | connection (key : String)
  | request (id : RequestId)
  deriving DecidableEq

structure HttpClient where
  httpConnectionPool : HashMap String PooledConnection := {}
  queue : HashMap String RequestQueue := {}

namespace HttpClient

variable (c : HttpClient)

/-- A connection of the pool with its waiting queue. -/
def connection (key : String) : HttpConnection :=
  let p := c.httpConnectionPool.value key {}
  { waitingQueue := c.queue.value key .new
    executionQueue := p.executionQueue
    incomingRequest := p.incomingRequest }

/-- A round of `freeHttpConnectionPool`: the destructor of the connection is its `cleanup`. -/
def freeConnection (key : String) : HttpClient × List Deletion :=
  let gone := (c.connection key).cleanup
  ({ httpConnectionPool := c.httpConnectionPool.remove key, queue := c.queue.assign key gone.waitingQueue },
    gone.deleted.map .request ++ [.connection key])

/-- The rounds from `i` on; every one of them takes a connection away, so there are no more rounds than connections. -/
def freeConnections (c : HttpClient) (i : Nat) : Nat → HttpClient × List Deletion
  | 0 => (c, [])
  | rounds + 1 =>
    match c.httpConnectionPool.keyAt i with
    | none => (c, [])
    | some key =>
      let freed := c.freeConnection key
      let rest := freeConnections freed.1 (i + 1) rounds
      (rest.1, freed.2 ++ rest.2)

def freeHttpConnectionPool : HttpClient × List Deletion :=
  let freed := c.freeConnections 0 c.httpConnectionPool.count
  ({ freed.1 with httpConnectionPool := {} }, freed.2)

/-- The requests of a queue, until there is none. -/
def drain : Nat → RequestQueue → List RequestId
  | 0, _ => []
  | rounds + 1, q =>
    match q.dequeue with
    | (some id, q) => id :: drain rounds q
    | (none, _) => []

def freeQueues (c : HttpClient) (i : Nat) : Nat → List Deletion
  | 0 => []
  | rounds + 1 =>
    match c.queue.keyAt i with
    | none => []
    | some key =>
      let q := c.queue.value key .new
      (drain q.count q).map .request ++ freeQueues c (i + 1) rounds

def freeRequestQueue : HttpClient × List Deletion := ({ c with queue := {} }, c.freeQueues 0 c.queue.count)

def cleanup : HttpClient × List Deletion :=
  let pool := c.freeHttpConnectionPool
  let queues := pool.1.freeRequestQueue
  (queues.1, pool.2 ++ queues.2)

/-! ### The requests of the queues -/

def waiting : List RequestId := c.queue.entries.flatMap fun e => e.2.toList

lemma drain_eq {rounds : Nat} {q : RequestQueue} (enough : q.toList.length ≤ rounds) : drain rounds q = q.toList := by
  induction rounds generalizing q with
  | zero => exact (eq_nil_of_length_eq_zero (Nat.le_zero.mp enough)).symm
  | succ rounds ih =>
    have first := q.dequeue_fst
    have rest := q.dequeue_toList
    rw [drain]
    generalize q.dequeue = answer at first rest
    obtain ⟨id, q'⟩ := answer
    cases content : q.toList with
    | nil =>
      rw [content] at first
      cases first
      rfl
    | cons x xs =>
      rw [content] at first rest enough
      cases first
      change q'.toList = xs at rest
      have fewer : q'.toList.length ≤ rounds := by
        rw [rest]
        exact Nat.le_of_succ_le_succ enough
      change x :: drain rounds q' = x :: xs
      rw [ih fewer, rest]

lemma freeQueues_eq {kept rest : List (String × RequestQueue)} {rounds : Nat} (cut : c.queue.entries = kept ++ rest)
    (enough : rest.length ≤ rounds) :
    c.freeQueues kept.length rounds = (rest.flatMap fun e => e.2.toList).map .request := by
  induction rest generalizing kept rounds with
  | nil =>
    cases rounds with
    | zero => rfl
    | succ rounds =>
      rw [freeQueues, HashMap.keyAt_none (by rw [HashMap.count, cut, append_nil])]
      rfl
  | cons e rest ih =>
    obtain ⟨key, q⟩ := e
    cases rounds with
    | zero => cases enough
    | succ rounds =>
      have own : c.queue.value key .new = q := HashMap.value_of_mem (by rw [cut]; simp)
      have later := @ih (kept ++ [(key, q)]) rounds (by rw [cut]; simp) (Nat.le_of_succ_le_succ enough)
      rw [List.length_append] at later
      rw [freeQueues, HashMap.keyAt_cons cut]
      change (drain _ (c.queue.value key .new)).map Deletion.request ++ c.freeQueues (kept.length + 1) rounds = _
      rw [own, drain_eq (Nat.le_of_eq (ObjectQueue.count_eq q).symm), flatMap_cons, map_append]
      exact congrArg _ later

lemma freeRequestQueue_log : c.freeRequestQueue.2 = c.waiting.map .request :=
  freeQueues_eq c (nil_append _).symm (Nat.le_refl _)

/-! ### The connections of the pool -/

lemma freeConnection_log (key : String) :
    (c.freeConnection key).2 =
      (c.httpConnectionPool.value key {}).incomingRequest.toList.map .request ++ [.connection key] := rfl

lemma freeConnections_cons {kept rest : List (String × PooledConnection)} {e : String × PooledConnection}
    (cut : c.httpConnectionPool.entries = kept ++ e :: rest) (rounds : Nat) :
    (c.freeConnections kept.length (rounds + 1)).2 =
      (c.freeConnection e.1).2 ++ ((c.freeConnection e.1).1.freeConnections (kept.length + 1) rounds).2 ∧
    (c.freeConnection e.1).1.httpConnectionPool.entries = kept ++ rest := by
  refine ⟨?_, HashMap.entries_remove cut⟩
  rw [freeConnections, HashMap.keyAt_cons cut]

lemma freeConnections_past {i : Nat} (past : c.httpConnectionPool.count ≤ i) (rounds : Nat) :
    c.freeConnections i rounds = (c, []) := by
  cases rounds with
  | zero => rfl
  | succ rounds => rw [freeConnections, HashMap.keyAt_none past]

lemma mem_of_connection_mem {c : HttpClient} {kept rest : List (String × PooledConnection)} {rounds : Nat} {key : String}
    (cut : c.httpConnectionPool.entries = kept ++ rest)
    (mem : .connection key ∈ (c.freeConnections kept.length rounds).2) : key ∈ rest.map Prod.fst := by
  induction rounds generalizing c kept rest with
  | zero => cases mem
  | succ rounds ih =>
    cases rest with
    | nil =>
      rw [freeConnections_past c (by rw [HashMap.count, cut, append_nil])] at mem
      cases mem
    | cons e rest =>
      obtain ⟨log, left⟩ := freeConnections_cons c cut rounds
      rw [log, freeConnection_log, mem_append] at mem
      rcases mem with now | later
      · have same : key = e.1 := by simpa using now
        exact same ▸ mem_cons_self
      · apply mem_cons_of_mem
        cases rest with
        | nil =>
          rw [append_nil] at left
          rw [freeConnections_past _ (by rw [HashMap.count, left]; omega)] at later
          cases later
        | cons skipped rest =>
          rw [← singleton_append, ← List.append_assoc] at left
          apply mem_cons_of_mem
          apply ih left
          rwa [List.length_append]

/-! ### What is to be freed -/

def executing : List RequestId := c.httpConnectionPool.entries.flatMap fun e => e.2.executionQueue.toList

def incoming : List RequestId := c.httpConnectionPool.entries.flatMap fun e => e.2.incomingRequest.toList

/-- Every connection has a waiting queue in the map, and no request is held twice. -/
structure Owned (c : HttpClient) : Prop where
  served : ∀ e ∈ c.httpConnectionPool.entries, c.queue.contains e.1 = true
  distinct : (c.incoming ++ c.executing ++ c.waiting).Nodup

/-- Every connection is deleted once and then every request is, and the maps are empty. The request whose response is
arriving is deleted together with its connection. -/
structure Frees (c : HttpClient) (after : HttpClient × List Deletion) : Prop where
  connections : ∀ e ∈ c.httpConnectionPool.entries, after.2.count (.connection e.1) = 1
  requests : ∀ id ∈ c.incoming ++ c.executing ++ c.waiting, after.2.count (.request id) = 1
  afterwards : ∃ first rest, after.2 = first ++ rest ∧
    (∀ e ∈ c.httpConnectionPool.entries, .connection e.1 ∈ first) ∧
    ∀ id ∈ c.executing ++ c.waiting, .request id ∈ rest
  pool : after.1.httpConnectionPool = {}
  queue : after.1.queue = {}

/-- There is one connection at the most, and one executing request at the most, with room for it in the waiting
queue. -/
structure Few (c : HttpClient) : Prop where
  one : c.httpConnectionPool.count ≤ 1
  room : ∀ e ∈ c.httpConnectionPool.entries, e.2.executionQueue.toList = [] ∨
    e.2.executionQueue.toList.length = 1 ∧ (c.queue.value e.1 .new).toList.length < httpRequestPoolSize

lemma cleanup_log :
    c.cleanup.2 = (c.freeConnections 0 c.httpConnectionPool.count).2 ++
      (c.freeConnections 0 c.httpConnectionPool.count).1.waiting.map .request := by
  have queues := freeRequestQueue_log c.freeHttpConnectionPool.1
  rw [cleanup, queues]
  rfl

lemma not_frees {e skipped : String × PooledConnection} {rest : List (String × PooledConnection)}
    (more : c.httpConnectionPool.entries = e :: skipped :: rest) : ¬ Frees c c.cleanup := by
  intro frees
  have keys := c.httpConnectionPool.nodup
  rw [more, map_cons, map_cons, nodup_cons, nodup_cons] at keys
  have deleted : .connection skipped.1 ∈ c.cleanup.2 := by
    rw [← count_pos_iff, frees.connections skipped (by rw [more]; simp)]
    exact Nat.one_pos
  have cut : c.httpConnectionPool.entries = [] ++ e :: skipped :: rest := more
  obtain ⟨log, left⟩ := freeConnections_cons c cut (rest.length + 1)
  have count : c.httpConnectionPool.count = rest.length + 1 + 1 := congrArg List.length more
  rw [cleanup_log, count] at deleted
  change (c.freeConnections 0 (rest.length + 1 + 1)).2 = _ at log
  rw [log, freeConnection_log] at deleted
  simp only [mem_append, List.mem_map, mem_singleton, Deletion.connection.injEq, reduceCtorEq, and_false,
    exists_false, false_or, or_false] at deleted
  rcases deleted with now | later
  · exact keys.1 (now ▸ mem_cons_self)
  · have passed : (c.freeConnection e.1).1.httpConnectionPool.entries = [skipped] ++ rest := left
    exact keys.2.1 (mem_of_connection_mem passed later)

lemma count_moved_iff {size : Nat} {incoming executing front waiting back : List RequestId}
    (distinct : (incoming ++ executing ++ (front ++ (waiting ++ back))).Nodup) (fits : waiting.length ≤ size) :
    (∀ id ∈ incoming ++ executing ++ (front ++ (waiting ++ back)), (incoming ++ (front ++
        ((waiting ++ executing.take ((executing.length + 1) / 2)).take size ++ back))).count id = 1) ↔
    executing = [] ∨ executing.length = 1 ∧ waiting.length < size := by
  generalize moved_eq : (waiting ++ executing.take ((executing.length + 1) / 2)).take size = moved
  have start : moved <+: waiting ++ executing := by
    rw [← moved_eq]
    exact (List.take_prefix _ _).trans ((prefix_append_right_inj _).mpr (List.take_prefix _ _))
  -- what is moved is all that waits and executes, unless it is too short
  have all : (waiting ++ executing).length ≤ moved.length ↔
      executing = [] ∨ executing.length = 1 ∧ waiting.length < size := by
    rw [← moved_eq, ← List.length_eq_zero_iff]
    simp only [length_take, List.length_append]
    omega
  rw [← all]
  constructor
  · intro once
    refine Subperm.length_le (subperm_ext_iff.mpr fun id mem => ?_)
    have held : id ∈ incoming ++ executing ++ (front ++ (waiting ++ back)) := by
      simp only [mem_append] at mem ⊢
      tauto
    have first := count_eq_one_of_mem distinct held
    have again := once id held
    simp only [count_append] at first again ⊢
    omega
  · intro long id held
    rw [start.eq_of_length_le long, ← count_eq_one_of_mem distinct held]
    simp only [count_append]
    omega

/-! ### Pools of one connection -/

section
variable {e : String × PooledConnection} (single : c.httpConnectionPool.entries = [e])
include single

lemma cleanup_single_log :
    c.cleanup.2 = e.2.incomingRequest.toList.map .request ++ [.connection e.1] ++
      (c.freeConnection e.1).1.waiting.map .request := by
  have cut : c.httpConnectionPool.entries = [] ++ e :: [] := single
  have count : c.httpConnectionPool.count = 1 := congrArg List.length single
  have own : c.httpConnectionPool.value e.1 {} = e.2 := HashMap.value_of_mem (by rw [single]; exact mem_cons_self)
  have first : c.freeConnections 0 1 = ((c.freeConnection e.1).1, (c.freeConnection e.1).2 ++ []) := by
    have key : c.httpConnectionPool.keyAt 0 = some e.1 := HashMap.keyAt_cons cut
    rw [freeConnections, key]
    rfl
  rw [cleanup_log, count, first, append_nil, freeConnection_log, own]

lemma exists_moved (served : c.queue.contains e.1 = true) :
    ∃ front back, c.waiting = front ++ ((c.queue.value e.1 .new).toList ++ back) ∧
      (c.freeConnection e.1).1.waiting = front ++ (((c.queue.value e.1 .new).toList ++
        e.2.executionQueue.toList.take ((e.2.executionQueue.toList.length + 1) / 2)).take httpRequestPoolSize ++ back) := by
  obtain ⟨q, mem⟩ := HashMap.contains_iff_exists.mp served
  have own : c.queue.value e.1 .new = q := HashMap.value_of_mem mem
  obtain ⟨front, back, cut⟩ := append_of_mem mem
  have pooled : c.httpConnectionPool.value e.1 {} = e.2 :=
    HashMap.value_of_mem (by rw [single]; exact mem_cons_self)
  have moved := (c.connection e.1).cleanup_toList.1
  refine ⟨front.flatMap fun e => e.2.toList, back.flatMap fun e => e.2.toList, ?_, ?_⟩
  · rw [waiting, cut, flatMap_append, flatMap_cons, own]
  · have entries := HashMap.entries_assign cut (c.connection e.1).cleanup.waitingQueue
    change (c.queue.assign e.1 (c.connection e.1).cleanup.waitingQueue).entries.flatMap _ = _
    rw [entries, flatMap_append, flatMap_cons, moved]
    simp only [connection, pooled]

end

lemma count_request (ids : List RequestId) (id : RequestId) :
    (ids.map Deletion.request).count (.request id) = ids.count id :=
  count_map_of_injective _ _ (fun _ _ => Deletion.request.inj) _

lemma count_connection (ids : List RequestId) (key : String) :
    (ids.map Deletion.request).count (.connection key) = 0 := count_eq_zero_of_not_mem (by simp)

lemma count_single (key : String) (ids ids' : List RequestId) (id : RequestId) :
    (ids.map Deletion.request ++ [Deletion.connection key] ++ ids'.map Deletion.request).count (.request id) =
      (ids ++ ids').count id := by
  rw [count_append, count_append, count_request, count_request, count_append]
  rfl

lemma frees_single_iff (owned : c.Owned) {e : String × PooledConnection}
    (single : c.httpConnectionPool.entries = [e]) : Frees c c.cleanup ↔ Few c := by
  obtain ⟨front, back, waits, moved⟩ := exists_moved c single (owned.served e (by rw [single]; exact mem_cons_self))
  have arriving : c.incoming = e.2.incomingRequest.toList := by rw [incoming, single, flatMap_singleton]
  have running : c.executing = e.2.executionQueue.toList := by rw [executing, single, flatMap_singleton]
  have log := cleanup_single_log c single
  have distinct := owned.distinct
  rw [arriving, running, waits] at distinct
  have counted := count_moved_iff distinct (c.queue.value e.1 .new).length_le
  have requests : (∀ id ∈ c.incoming ++ c.executing ++ c.waiting, c.cleanup.2.count (.request id) = 1) ↔
      e.2.executionQueue.toList = [] ∨
        e.2.executionQueue.toList.length = 1 ∧ (c.queue.value e.1 .new).toList.length < httpRequestPoolSize := by
    rw [← counted, arriving, running, waits, log, moved]
    simp only [count_single]
  constructor
  · intro frees
    refine ⟨by rw [HashMap.count, single]; exact Nat.le_refl 1, ?_⟩
    rw [single]
    exact forall_mem_singleton.mpr (requests.mp frees.requests)
  · intro few
    have once := requests.mpr (few.room e (by rw [single]; exact mem_cons_self))
    have later : ∀ id ∈ c.executing ++ c.waiting,
        Deletion.request id ∈ (c.freeConnection e.1).1.waiting.map .request := by
      intro id mem
      have held : id ∈ c.incoming ++ c.executing ++ c.waiting := by
        rw [List.append_assoc]
        exact mem_append_right _ mem
      have away : id ∉ e.2.incomingRequest.toList := by
        have distinct := owned.distinct
        rw [List.append_assoc, arriving] at distinct
        exact fun other => (nodup_append.mp distinct).2.2 id other id mem rfl
      have count := once id held
      rw [log, count_single] at count
      have found := count_pos_iff.mp (count.symm ▸ Nat.one_pos)
      exact List.mem_map_of_mem ((mem_append.mp found).resolve_left away)
    refine ⟨?_, once, ⟨_, _, log, ?_, later⟩, rfl, rfl⟩
    · rw [single, log]
      simp [count_connection]
    · rw [single]
      simp

lemma frees_empty (owned : c.Owned) (empty : c.httpConnectionPool.entries = []) : Frees c c.cleanup := by
  have count : c.httpConnectionPool.count = 0 := congrArg List.length empty
  have log : c.cleanup.2 = [] ++ c.waiting.map .request := by
    rw [cleanup_log, count]
    rfl
  have arriving : c.incoming = [] := by rw [incoming, empty, flatMap_nil]
  have running : c.executing = [] := by rw [executing, empty, flatMap_nil]
  have distinct := owned.distinct
  rw [arriving, running, nil_append, nil_append] at distinct
  refine ⟨?_, ?_, ⟨[], _, log, ?_, ?_⟩, rfl, rfl⟩
  · rw [empty]
    exact forall_mem_nil _
  · intro id mem
    rw [arriving, running, nil_append, nil_append] at mem
    rw [log, nil_append, count_request]
    exact count_eq_one_of_mem distinct mem
  · rw [empty]
    exact forall_mem_nil _
  · intro id mem
    rw [running, nil_append] at mem
    exact List.mem_map_of_mem mem

/-- Exactly with one connection and one executing request at the most everything is freed once. -/
theorem cleanup_frees_iff {c : HttpClient} (owned : c.Owned) : Frees c c.cleanup ↔ Few c := by
  rcases pool : c.httpConnectionPool.entries with _ | ⟨e, _ | ⟨skipped, rest⟩⟩
  · refine ⟨fun _ => ⟨?_, ?_⟩, fun _ => frees_empty c owned pool⟩
    · rw [HashMap.count, pool]
      exact Nat.zero_le 1
    · rw [pool]
      exact forall_mem_nil _
  · exact frees_single_iff c owned pool
  · refine ⟨fun frees => absurd frees (not_frees c pool), fun few => ?_⟩
    have one := few.one
    rw [HashMap.count, pool, length_cons, length_cons] at one
    omega

def clientOf (requests : List (String × List RequestId × RequestId)) (keys : (requests.map Prod.fst).Nodup) :
    HttpClient where
  httpConnectionPool :=
    { entries := requests.map fun r => (r.1, { executionQueue := r.2.1.foldl (fun q id => (q.enqueue id).1) .new })
      nodup := by simpa [Function.comp_def] using keys }
  queue :=
    { entries := requests.map fun r => (r.1, (RequestQueue.new.enqueue r.2.2).1)
      nodup := by simpa [Function.comp_def] using keys }

theorem cleanup_frees_single :
    (clientOf [("example.com:80", [1], 2)] (by decide)).Owned ∧
    Frees (clientOf [("example.com:80", [1], 2)] (by decide))
      (clientOf [("example.com:80", [1], 2)] (by decide)).cleanup := by
  have owned : (clientOf [("example.com:80", [1], 2)] (by decide)).Owned := ⟨by decide, by decide⟩
  exact ⟨owned, (cleanup_frees_iff owned).mpr ⟨by decide, by decide⟩⟩

/-- Of two connections the second is never deleted. -/
theorem second_connection_lost : ¬ (∀ c : HttpClient, c.Owned → Frees c c.cleanup) := by
  intro all
  have owned : (clientOf [("a:80", [], 1), ("b:80", [], 2)] (by decide)).Owned := ⟨by decide, by decide⟩
  exact not_frees _ rfl (all _ owned)

end HttpClient

end Sming.Network.Http
