import Sming.Lib.Run

/-!
# The life of a TCP server

Embedding of `Sming/SmingCore/Network/TcpServer.cpp`. Clients are numbered as they are accepted, and call back until they
are destroyed. lwIP copies the server and its accept callback into a connection when the SYN arrives (`tcp_listen_input`)
and calls it when the peer acknowledges. `shutdown` closes the listening connection only: the half-open ones keep the
server as their argument, whether it is still there or not.

`deletions` counts the calls of `delete this`, `stale` the callbacks that find the server gone.
-/

namespace Sming.Network

open List Lib

structure TcpServer where
  active : Bool := true
  listening : Bool := true
  halfOpen : Nat := 0
  connections : List Nat := []
  activeClients : UInt16 := 0
  deletions : Nat := 0
  accepted : Nat := 0
  completed : List Nat := []
  destroyed : List Nat := []
  stale : Nat := 0

namespace TcpServer

/-- A SYN arrives; a half-open connection is acknowledged, or lost (a reset, or no acknowledgement in time). -/
inductive Event
  | syn
  | lost
  | onAccept (heap noError appended : Bool)
  | onClientComplete (client : Nat)
  | onClientDestroy (client : Nat)
  | shutdown

/-- (C++ `TcpServer::onAccept`, with `createClient` and `onClient`; `appended` is the answer of `axl_append`. A client
that is deleted here has no delegate for its destruction yet.) -/
def onAccept (s : TcpServer) (heap noError appended : Bool) : TcpServer :=
  if heap && noError && s.active && appended then
    { s with
      connections := s.connections ++ [s.accepted]
      activeClients := s.activeClients + 1
      accepted := s.accepted + 1 }
  else s

def onClientComplete (s : TcpServer) (client : Nat) : TcpServer :=
  { s with activeClients := s.activeClients - 1, completed := s.completed ++ [client] }

/-- (C++ `TcpServer::onClientDestroy`, with `Vector::removeElement`.) -/
def onClientDestroy (s : TcpServer) (client : Nat) : TcpServer :=
  { s with
    connections := s.connections.erase client
    destroyed := s.destroyed ++ [client]
    deletions := if !s.active && (s.connections.erase client).isEmpty then s.deletions + 1 else s.deletions }

def shutdown (s : TcpServer) : TcpServer :=
  { s with
    active := false
    listening := false
    deletions := if s.connections.isEmpty then s.deletions + 1 else s.deletions }

/-- A callback with the server as its argument. -/
def callback (s : TcpServer) (f : TcpServer → TcpServer) : TcpServer :=
  if s.deletions = 0 then f s else { s with stale := s.stale + 1 }

/-- A client completes once; the application has no pointer to a server that is gone. -/
def step (s : TcpServer) : Event → Option TcpServer
  | .syn => if s.listening then some { s with halfOpen := s.halfOpen + 1 } else none
  | .lost => if 0 < s.halfOpen then some { s with halfOpen := s.halfOpen - 1 } else none
  | .onAccept heap noError appended =>
    if 0 < s.halfOpen then
      some (callback { s with halfOpen := s.halfOpen - 1 } (onAccept · heap noError appended))
    else none
  | .onClientComplete i =>
    if i < s.accepted ∧ i ∉ s.completed ++ s.destroyed then some (s.callback (onClientComplete · i)) else none
  | .onClientDestroy i =>
    if i < s.accepted ∧ i ∉ s.destroyed then some (s.callback (onClientDestroy · i)) else none
  | .shutdown => if s.deletions = 0 then some s.shutdown else none

/-- The first `n` clients without those of a list. -/
def without (n : Nat) (l : List Nat) : List Nat := (range n).filter (· ∉ l)

structure Inv (s : TcpServer) : Prop where
  active : s.active = s.listening
  connections : s.connections = without s.accepted s.destroyed
  clients : s.activeClients = UInt16.ofNat (without s.accepted s.completed).length
  deletions : s.deletions = if s.listening = false ∧ s.connections = [] then 1 else 0
  known : ∀ i ∈ s.completed ++ s.destroyed, i < s.accepted
  stale : s.deletions = 0 → s.stale = 0

variable {s t : TcpServer} {n i : Nat} {l : List Nat}

lemma without_snoc : without n (l ++ [i]) = (without n l).erase i := by
  rw [without, without, Nodup.erase_eq_filter (nodup_range.filter _), filter_filter]
  apply filter_congr
  intro x _
  simp [and_comm, bne]
  rfl

lemma without_succ (known : ∀ i ∈ l, i < n) : without (n + 1) l = without n l ++ [n] := by
  have new : n ∉ l := fun mem => Nat.lt_irrefl _ (known _ mem)
  simp [range_succ, filter_append, without, new]

section
variable (h : s.Inv)
include h

lemma Inv.halfOpen (k : Nat) : Inv { s with halfOpen := k } :=
  ⟨h.active, h.connections, h.clients, h.deletions, h.known, h.stale⟩

/-- While a client is there, the server is too. -/
lemma Inv.there (lt : i < s.accepted) (new : i ∉ s.destroyed) : i ∈ s.connections ∧ s.deletions = 0 := by
  have mem : i ∈ s.connections := by simp [h.connections, without, lt, new]
  exact ⟨mem, by simpa [ne_nil_of_mem mem] using h.deletions⟩

lemma Inv.accept (there : s.deletions = 0) (heap noError appended : Bool) :
    (s.onAccept heap noError appended).Inv := by
  unfold onAccept
  split
  case isTrue accepted =>
    refine ⟨h.active, ?_, ?_, ?_, fun i mem => Nat.lt_succ_of_lt (h.known i mem), h.stale⟩
    · simp only [h.connections]
      exact (without_succ fun i mem => h.known i (mem_append_right _ mem)).symm
    · simp only [h.clients]
      rw [without_succ fun i mem => h.known i (mem_append_left _ mem)]
      simp
    · have new : s.connections ++ [s.accepted] ≠ [] := by simp
      rw [if_neg fun gone => new gone.2]
      exact there
  case isFalse => exact h

lemma Inv.complete (lt : i < s.accepted) (new : i ∉ s.completed) : (s.onClientComplete i).Inv := by
  have mem : i ∈ without s.accepted s.completed := by simp [without, lt, new]
  refine ⟨h.active, h.connections, ?_, h.deletions, ?_, h.stale⟩
  · obtain ⟨n, e⟩ := Nat.exists_eq_add_of_lt (length_pos_of_mem mem)
    simp only [onClientComplete, without_snoc, length_erase_of_mem mem, h.clients, e]
    simp
  · simpa [onClientComplete, or_imp, forall_and, lt, and_assoc] using h.known

lemma Inv.destroy (there : s.deletions = 0) (lt : i < s.accepted) : (s.onClientDestroy i).Inv := by
  refine ⟨h.active, ?_, h.clients, ?_, ?_, fun _ => h.stale there⟩
  · simp only [onClientDestroy, without_snoc, h.connections]
  · simp [onClientDestroy, there, h.active]
  · simpa [onClientDestroy, or_imp, forall_and, lt, and_assoc] using h.known

lemma Inv.step {e : Event} (st : s.step e = some t) : t.Inv := by
  cases e with
  | syn =>
    obtain ⟨-, ⟨⟩⟩ := Option.ite_none_right_eq_some.mp st
    exact h.halfOpen _
  | lost =>
    obtain ⟨-, ⟨⟩⟩ := Option.ite_none_right_eq_some.mp st
    exact h.halfOpen _
  | onAccept heap noError appended =>
    obtain ⟨-, ⟨⟩⟩ := Option.ite_none_right_eq_some.mp st
    unfold callback
    split
    case isTrue there => exact (h.halfOpen _).accept there heap noError appended
    case isFalse gone => exact ⟨h.active, h.connections, h.clients, h.deletions, h.known, fun there => absurd there gone⟩
  | onClientComplete i =>
    obtain ⟨live, ⟨⟩⟩ := Option.ite_none_right_eq_some.mp st
    rw [mem_append, not_or] at live
    rw [callback, if_pos (h.there live.1 live.2.2).2]
    exact h.complete live.1 live.2.1
  | onClientDestroy i =>
    obtain ⟨live, ⟨⟩⟩ := Option.ite_none_right_eq_some.mp st
    have there := (h.there live.1 live.2).2
    rw [callback, if_pos there]
    exact h.destroy there live.1
  | shutdown =>
    obtain ⟨there, ⟨⟩⟩ := Option.ite_none_right_eq_some.mp st
    exact ⟨rfl, h.connections, h.clients, by simp [shutdown, there], h.known, fun _ => h.stale there⟩

/-- Nothing happens to a server that is gone and has no half-open connection. -/
lemma Inv.step_gone (gone : s.deletions ≠ 0) (none : s.halfOpen = 0) (e : Event) : s.step e = .none := by
  have down : s.listening = false := by
    by_contra listening
    exact gone (by rw [h.deletions, if_neg fun down => listening down.1])
  cases e with
  | syn => exact if_neg (by simp [down])
  | lost | onAccept => exact if_neg (by simp [none])
  | onClientComplete i => exact if_neg fun live => gone (h.there live.1 fun mem => live.2 (mem_append_right _ mem)).2
  | onClientDestroy i => exact if_neg fun live => gone (h.there live.1 live.2).2
  | shutdown => exact if_neg gone

/-- A server that is gone is never called back exactly if it left no half-open connection. -/
lemma never_called_iff (gone : s.deletions ≠ 0) :
    (∀ later u, Run step Always s later u → u.stale = s.stale) ↔ s.halfOpen = 0 := by
  constructor
  · intro never
    by_contra some
    have ack : s.step (.onAccept true true true) =
        .some { s with halfOpen := s.halfOpen - 1, stale := s.stale + 1 } := by
      rw [TcpServer.step, if_pos (Nat.pos_of_ne_zero some), callback, if_neg gone]
    have same := never _ _ (.snoc .nil trivial ack)
    exact absurd same (Nat.succ_ne_self _)
  · intro none later u run
    have still : u = s := by
      refine @Run.invariant _ _ _ _ (· = s) _ _ _ run rfl fun eq _ st => ?_
      rw [eq, h.step_gone gone none] at st
      cases st
    rw [still]

end

/-- In every run the server is deleted once, when it was shut down and the last client is destroyed, so that no client
finds it gone; it refers to the clients that are not destroyed, and counts those that have not completed. lwIP finds it
gone afterwards unless no connection was half-open then. -/
theorem server_deleted_once {es : List Event} (run : Run step Always {} es s) :
    s.connections = without s.accepted s.destroyed ∧
    s.deletions = (if s.listening = false ∧ without s.accepted s.destroyed = [] then 1 else 0) ∧
    s.activeClients = UInt16.ofNat (without s.accepted s.completed).length ∧
    (s.deletions = 0 → s.stale = 0) ∧
    (s.deletions ≠ 0 → ((∀ later u, Run step Always s later u → u.stale = s.stale) ↔ s.halfOpen = 0)) := by
  have inv : s.Inv := run.invariant ⟨rfl, rfl, rfl, rfl, nofun, fun _ => rfl⟩ fun h _ st => h.step st
  refine ⟨inv.connections, ?_, inv.clients, inv.stale, never_called_iff inv⟩
  rw [← inv.connections]
  exact inv.deletions

/-- Two clients, and a third connection that is half-open when the server goes: its acknowledgement is a callback to
the deleted server. -/
theorem server_deleted_once_two : ∃ s, Run step Always {} [.syn, .onAccept true true true, .syn, .syn,
      .onAccept true true true, .shutdown, .onClientComplete 1, .onClientDestroy 1, .onClientDestroy 0] s ∧
    (s.deletions = 1 ∧ s.halfOpen = 1) ∧ ¬ ∀ later u, Run step Always s later u → u.stale = s.stale :=
  exists_run (fun s => s.deletions = 1 ∧ s.halfOpen = 1) (by decide) fun _ run ⟨gone, half⟩ =>
    ⟨⟨gone, half⟩, fun never => absurd
      (((server_deleted_once run).2.2.2.2 (by rw [gone]; decide)).mp never) (by rw [half]; decide)⟩

end TcpServer

end Sming.Network
