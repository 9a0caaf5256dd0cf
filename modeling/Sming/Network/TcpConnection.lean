import Sming.Data.DataSourceStream

/-!
# Writing to a TCP connection

Embedding of the two `write` functions of `Sming/SmingCore/Network/TcpConnection.cpp` for a
connection without SSL. What `tcp_sndbuf` and `tcp_sndqueuelen` answer is an input: the lists of
`Lwip` are the answers in the order of the calls, and past their end there is no room. `tcp_write`
takes exactly the bytes it is given, so its effect is the list of these bytes.
-/

namespace Sming.Network
open Sming.Data

/-- `NETWORK_SEND_BUFFER_SIZE` of `TcpConnection.h`. -/
def networkSendBufferSize : Nat := 1024

/-- `TCP_SND_QUEUELEN` of `lwipopts.h`: `(4 * TCP_SND_BUF + TCP_MSS - 1) / TCP_MSS`. -/
def tcpSndQueuelen : Nat := 8

/-- The answers of lwIP about its send buffer, in the order in which they are asked for. -/
structure Lwip where
  sndbuf : List UInt16
  sndqueuelen : List UInt16
  deriving Repr, DecidableEq

namespace TcpConnection

/-- The free bytes of the send buffer, 0 unless `canSend`. -/
def getAvailableWriteSize (canSend : Bool) (lwip : Lwip) : Nat × Lwip :=
  if canSend then
    match lwip.sndbuf with
    | [] => (0, lwip)
    | n :: rest => (n.toNat, { lwip with sndbuf := rest })
  else (0, lwip)

/-- Whether the queue of segments has room, `tcp_sndqueuelen(tcp) < TCP_SND_QUEUELEN`. -/
def hasSpace (lwip : Lwip) : Bool × Lwip :=
  match lwip.sndqueuelen with
  | [] => (false, lwip)
  | n :: rest => (decide (n.toNat < tcpSndQueuelen), { lwip with sndqueuelen := rest })

/-- Hand a buffer to `tcp_write`, cut to the free space. The answer is the number of bytes taken, or
-1 when there is no space; the list holds the bytes
handed to `tcp_write`. -/
def write (canSend : Bool) (data : List UInt8) (lwip : Lwip) : Int × List UInt8 × Lwip :=
  let (available, lwip) := getAvailableWriteSize canSend lwip
  if available < data.length then
    if available = 0 then (-1, [], lwip)
    else (available, data.take available, lwip)
  else (data.length, data, lwip)

/-- The inner loop of `write(IDataSourceStream*)`: read a block, write it, seek by what was taken.
The first argument is the number of rounds `pushCount < 25` still allows. -/
def writeBlocks {S : Type} [IDataSourceStream S] (canSend : Bool) :
    Nat → S → Lwip → List UInt8 × S × Lwip
  | 0, stream, lwip => ([], stream, lwip)
  | rounds + 1, stream, lwip =>
    let (free, lwip) := getAvailableWriteSize canSend lwip
    let read := min networkSendBufferSize free
    if read = 0 then ([], stream, lwip)
    else
      let (buffer, stream) := IDataSourceStream.readMemoryBlock stream read
      if buffer = [] then ([], stream, lwip)
      else
        let (written, handed, lwip) := write canSend buffer lwip
        let stream := (IDataSourceStream.seek stream (max written 0)).1
        if written = buffer.length ∧ IDataSourceStream.isFinished stream = false then
          let (more, stream, lwip) := writeBlocks canSend rounds stream lwip
          (handed ++ more, stream, lwip)
        else (handed, stream, lwip)

/-- Push a stream into the send buffer (C++ `TcpConnection::write(IDataSourceStream*)`). The inner
loop ends with `repeat` false, so the outer `do … while(repeat && space)` makes one round. -/
def writeStream {S : Type} [IDataSourceStream S] (canSend : Bool) (stream : S) (lwip : Lwip) :
    List UInt8 × S × Lwip :=
  let (space, lwip) := hasSpace lwip
  if space then
    let (handed, stream, lwip) := writeBlocks canSend 25 stream lwip
    (handed, stream, (hasSpace lwip).2)
  else ([], stream, lwip)

lemma write_spec (canSend : Bool) (data : List UInt8) (lwip : Lwip) :
    ∃ k, k ≤ data.length ∧ max (write canSend data lwip).1 0 = (k : Int) ∧
      (write canSend data lwip).2.1 = data.take k := by
  unfold write
  generalize getAvailableWriteSize canSend lwip = answer
  obtain ⟨available, rest⟩ := answer
  simp only
  split
  case isTrue short =>
    split
    · exact ⟨0, Nat.zero_le _, rfl, rfl⟩
    · exact ⟨available, Nat.le_of_lt short, by simp only; omega, rfl⟩
  case isFalse =>
    exact ⟨data.length, Nat.le_refl _, by simp only; omega, (List.take_length).symm⟩

section
variable {S : Type} [IDataSourceStream S] {WF : S → Prop} {rest : S → List UInt8}

lemma writeBlocks_spec (law : IDataSourceStream.Lawful S WF rest) (canSend : Bool) (rounds : Nat)
    {stream : S} (wf : WF stream) (lwip : Lwip) :
    WF (writeBlocks canSend rounds stream lwip).2.1 ∧
      rest stream = (writeBlocks canSend rounds stream lwip).1 ++
        rest (writeBlocks canSend rounds stream lwip).2.1 := by
  induction rounds generalizing stream lwip with
  | zero => exact ⟨wf, rfl⟩
  | succ rounds ih =>
    rw [writeBlocks]
    generalize getAvailableWriteSize canSend lwip = answer
    obtain ⟨free, lwip⟩ := answer
    simp only
    split
    · exact ⟨wf, rfl⟩
    generalize min networkSendBufferSize free = read
    obtain ⟨pre, wf', same⟩ := law.read wf read
    have hseek := law.seek wf read
    generalize IDataSourceStream.readMemoryBlock stream read = block at pre wf' same hseek
    obtain ⟨buffer, stream'⟩ := block
    simp only at pre wf' same hseek ⊢
    split
    · exact ⟨wf', same.symm⟩
    obtain ⟨k, hk, written, handed⟩ := write_spec canSend buffer lwip
    obtain ⟨wf'', left⟩ := hseek k hk
    -- the bytes taken are the ones the cursor moves over
    have taken : buffer.take k ++ (rest stream).drop k = rest stream := by
      obtain ⟨tail, e⟩ := pre
      rw [← e, List.drop_append_of_le_length hk, ← List.append_assoc, List.take_append_drop]
    rw [written, handed]
    split
    · obtain ⟨wf3, more⟩ := ih wf'' (write canSend buffer lwip).2.2
      refine ⟨wf3, ?_⟩
      simp only
      rw [List.append_assoc, ← more, left, taken]
    · exact ⟨wf'', by rw [left, taken]⟩

lemma writeStream_spec (law : IDataSourceStream.Lawful S WF rest) (canSend : Bool) {stream : S}
    (wf : WF stream) (lwip : Lwip) :
    WF (writeStream canSend stream lwip).2.1 ∧
      rest stream = (writeStream canSend stream lwip).1 ++
        rest (writeStream canSend stream lwip).2.1 := by
  rw [writeStream]
  generalize hasSpace lwip = answer
  obtain ⟨space, lwip⟩ := answer
  cases space with
  | false => exact ⟨wf, rfl⟩
  | true => exact writeBlocks_spec law canSend 25 wf lwip

/-- A stream that fits into the free space is written whole. -/
lemma writeStream_all (full : IDataSourceStream.Full S WF rest) {stream : S} (wf : WF stream) {n : UInt16}
    (fits : (rest stream).length ≤ min networkSendBufferSize n.toNat) :
    rest (writeStream true stream ⟨[n, n], [0]⟩).2.1 = [] := by
  have block := full.read_of_lt (n := min networkSendBufferSize n.toNat) wf
    (Nat.lt_of_le_of_lt (Nat.min_le_left _ _) (by decide))
  rw [List.take_of_length_le fits] at block
  obtain ⟨-, -, same⟩ := full.read wf (min networkSendBufferSize n.toNat)
  obtain ⟨wf', none⟩ := full.seek wf (min networkSendBufferSize n.toNat) (rest stream).length
    (Nat.le_of_eq (by rw [block]))
  rw [List.drop_length] at none
  have finished := (full.finished wf').mpr none
  rw [writeStream, show hasSpace ⟨[n, n], [0]⟩ = (true, ⟨[n, n], []⟩) from rfl]
  simp only [if_true]
  rw [writeBlocks]
  simp only [getAvailableWriteSize, if_true]
  generalize IDataSourceStream.readMemoryBlock stream (min networkSendBufferSize n.toNat) = answer at *
  obtain ⟨buffer, stream'⟩ := answer
  simp only at block same none finished ⊢
  subst block
  by_cases empty : rest stream = []
  · split
    · exact empty
    · exact same.trans empty
  · have ne : ¬ min networkSendBufferSize n.toNat = 0 := by
      intro zero
      rw [zero] at fits
      exact empty (List.eq_nil_of_length_eq_zero (Nat.le_zero.mp fits))
    have whole : ¬ n.toNat < (rest stream).length := Nat.not_lt.mpr (Nat.le_trans fits (Nat.min_le_right _ _))
    simp only [if_neg ne, if_neg empty, write, getAvailableWriteSize, if_true, if_neg whole]
    rw [Int.max_eq_left (Int.natCast_nonneg _), finished]
    exact none

end

end TcpConnection

end Sming.Network
