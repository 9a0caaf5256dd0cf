import Mathlib.Data.List.Basic

/-!
# Domain messages

The message format of RFC 1035, section 4: a header of twelve bytes with the number of entries in each of the
four sections, questions, and resource records. A name is a list of labels, each of them behind its length, up to a zero
byte or to a pointer (4.1.4). A pointer leads to an earlier place of the message behind its header. `decode` reads a
message that fills its datagram; a datagram is well formed if it can be read.
-/

namespace Sming.Lib.Rfc1035
open List Option

abbrev Name := List (List UInt8)

structure Question where
  name : Name
  qtype : Nat
  qclass : Nat
  deriving DecidableEq

structure ResourceRecord where
  name : Name
  type : Nat
  rclass : Nat
  ttl : Nat
  rdata : List UInt8
  deriving DecidableEq

structure Message where
  id : Nat
  /-- A response, not a query. -/
  qr : Bool
  opcode : Nat
  questions : List Question
  answers : List ResourceRecord
  authority : List ResourceRecord
  additional : List ResourceRecord
  deriving DecidableEq

def be16 (a b : UInt8) : Nat := a.toNat * 256 + b.toNat

def be32 (a b c d : UInt8) : Nat := be16 a b * 65536 + be16 c d

/-- A name at `rest`, with at most `left` bytes; pointers lead to places in front of `start`. -/
def name (msg : List UInt8) : Nat → Nat → Nat → List UInt8 → Option (Name × List UInt8)
  | 0, _, _, _ => none
  | _ + 1, _, _, [] => none
  | rounds + 1, left, start, b :: rest =>
    if b = 0 then
      if 1 ≤ left then some ([], rest) else none
    else if b < 64 then
      if b.toNat ≤ rest.length ∧ b.toNat + 1 ≤ left then
        (name msg rounds (left - (b.toNat + 1)) start (rest.drop b.toNat)).map fun r =>
          (rest.take b.toNat :: r.1, r.2)
      else none
    else if 192 ≤ b then
      match rest with
      | [] => none
      | c :: rest =>
        let target := be16 (b - 192) c
        if 12 ≤ target ∧ target < start then
          (name msg rounds left target (msg.drop target)).map fun r => (r.1, rest)
        else none
    else none

/-- A name of at most 255 bytes at the place that `rest` has in the message. -/
def nameAt (msg rest : List UInt8) : Option (Name × List UInt8) :=
  name msg (msg.length + 128) 255 (msg.length - rest.length) rest

def question (msg rest : List UInt8) : Option (Question × List UInt8) :=
  match nameAt msg rest with
  | some (n, t₁ :: t₀ :: c₁ :: c₀ :: rest) => some (⟨n, be16 t₁ t₀, be16 c₁ c₀⟩, rest)
  | _ => none

def resourceRecord (msg rest : List UInt8) : Option (ResourceRecord × List UInt8) :=
  match nameAt msg rest with
  | some (n, t₁ :: t₀ :: c₁ :: c₀ :: x₃ :: x₂ :: x₁ :: x₀ :: l₁ :: l₀ :: rest) =>
    if be16 l₁ l₀ ≤ rest.length then
      some (⟨n, be16 t₁ t₀, be16 c₁ c₀, be32 x₃ x₂ x₁ x₀, rest.take (be16 l₁ l₀)⟩, rest.drop (be16 l₁ l₀))
    else none
  | _ => none

def entries {α : Type} (entry : List UInt8 → Option (α × List UInt8)) :
    Nat → List UInt8 → Option (List α × List UInt8)
  | 0, rest => some ([], rest)
  | n + 1, rest => (entry rest).bind fun r => (entries entry n r.2).map fun rs => (r.1 :: rs.1, rs.2)

/-- The number in the two bytes at `i`. -/
def field (msg : List UInt8) (i : Nat) : Nat := be16 (msg[i]?.getD 0) (msg[i + 1]?.getD 0)

/-- The header and the four sections, with nothing behind them. -/
def decode (msg : List UInt8) : Option Message :=
  if msg.length < 12 then none
  else
    (entries (question msg) (field msg 4) (msg.drop 12)).bind fun q =>
      (entries (resourceRecord msg) (field msg 6) q.2).bind fun a =>
        (entries (resourceRecord msg) (field msg 8) a.2).bind fun n =>
          (entries (resourceRecord msg) (field msg 10) n.2).bind fun r =>
            if r.2 = [] then
              some {
                id := field msg 0
                qr := decide ((msg[2]?.getD 0).toNat / 128 = 1)
                opcode := (msg[2]?.getD 0).toNat / 8 % 16
                questions := q.1
                answers := a.1
                authority := n.1
                additional := r.1 }
            else none

/-! ### Names without pointers -/

def encodeName (n : Name) : List UInt8 := n.flatMap fun label => UInt8.ofNat label.length :: label

lemma encodeName_cons (label : List UInt8) (n : Name) :
    encodeName (label :: n) = UInt8.ofNat label.length :: (label ++ encodeName n) := by
  rw [encodeName, flatMap_cons, cons_append]
  rfl

/-- In front of the first name there is no place for a pointer, so it is there in full, and it reads the same in every
message that has it. -/
lemma name_first {msg : List UInt8} {n : Name} {rounds left : Nat} {bytes rest : List UInt8}
    (h : name msg rounds left 12 bytes = some (n, rest)) :
    (∀ label ∈ n, label ≠ [] ∧ label.length < 256) ∧ bytes = encodeName n ++ 0 :: rest ∧
      ∀ msg' more start tail, name msg' (rounds + more) left start (bytes ++ tail) = some (n, rest ++ tail) := by
  induction rounds generalizing left bytes n with
  | zero => cases h
  | succ rounds ih =>
    cases bytes with
    | nil => cases h
    | cons b bytes =>
      rw [name.eq_def] at h
      simp only at h
      split at h
      case isTrue zero =>
        subst zero
        obtain ⟨fits, same⟩ := ite_none_right_eq_some.mp h
        cases same
        refine ⟨fun label mem => (by cases mem), rfl, fun msg' more start tail => ?_⟩
        rw [Nat.add_right_comm]
        exact if_pos fits
      case isFalse nonzero =>
        split at h
        case isTrue small =>
          obtain ⟨fits, h⟩ := ite_none_right_eq_some.mp h
          obtain ⟨⟨n, _⟩, later, same⟩ := map_eq_some_iff.mp h
          cases same
          obtain ⟨valid, eq, frame⟩ := ih later
          have length : (bytes.take b.toNat).length = b.toNat := by
            rw [length_take]
            exact Nat.min_eq_left fits.1
          refine ⟨forall_mem_cons.mpr ⟨⟨fun empty => ?_, ?_⟩, valid⟩, ?_, fun msg' more start tail => ?_⟩
          · rw [empty] at length
            exact nonzero (UInt8.toNat_inj.mp length.symm)
          · rw [length]
            exact b.toNat_lt
          · rw [encodeName_cons, length, UInt8.ofNat_toNat, cons_append, List.append_assoc, ← eq, take_append_drop]
          · rw [Nat.add_right_comm, cons_append, name.eq_def]
            simp only
            rw [if_neg nonzero, if_pos small, if_pos ⟨by rw [List.length_append]; omega, fits.2⟩,
              drop_append_of_le_length fits.1, take_append_of_le_length fits.1, frame]
            rfl
        case isFalse =>
          obtain ⟨-, h⟩ := ite_none_right_eq_some.mp h
          cases bytes with
          | nil => cases h
          | cons c bytes =>
            simp only at h
            rw [if_neg (by omega)] at h
            cases h

/-! ### Messages -/

section
variable {α : Type} {entry : List UInt8 → Option (α × List UInt8)} {rest : List UInt8}

lemma entries_length {n : Nat} {r} (h : entries entry n rest = some r) : r.1.length = n := by
  induction n generalizing rest r with
  | zero =>
    cases h
    rfl
  | succ n ih =>
    obtain ⟨first, _, more⟩ := bind_eq_some_iff.mp h
    obtain ⟨later, rest, rfl⟩ := map_eq_some_iff.mp more
    exact congrArg (· + 1) (ih rest)

lemma entries_one : entries entry 1 rest = (entry rest).map fun r => ([r.1], r.2) := by
  rw [Option.map_eq_bind]
  rfl

end

/-- What `decode` has read. -/
structure Read (msg : List UInt8) (m : Message) : Prop where
  long : 12 ≤ msg.length
  id : m.id = field msg 0
  qr : m.qr = decide ((msg[2]?.getD 0).toNat / 128 = 1)
  opcode : m.opcode = (msg[2]?.getD 0).toNat / 8 % 16
  questions : m.questions.length = field msg 4
  answers : m.answers.length = field msg 6
  authority : m.authority.length = field msg 8
  additional : m.additional.length = field msg 10
  alone : ∀ q, m.questions = [q] → m.answers = [] → m.authority = [] → m.additional = [] →
    question msg (msg.drop 12) = some (q, [])

section
variable {msg rest : List UInt8} {m : Message} {q : Question}

lemma decode_inv (h : decode msg = some m) : Read msg m := by
  obtain ⟨long, h⟩ := ite_none_left_eq_some.mp h
  obtain ⟨q, questions, h⟩ := bind_eq_some_iff.mp h
  obtain ⟨a, answers, h⟩ := bind_eq_some_iff.mp h
  obtain ⟨u, authority, h⟩ := bind_eq_some_iff.mp h
  obtain ⟨d, additional, h⟩ := bind_eq_some_iff.mp h
  obtain ⟨done, h⟩ := ite_none_right_eq_some.mp h
  cases h
  have qd := entries_length questions
  have an := entries_length answers
  have ns := entries_length authority
  have ar := entries_length additional
  refine ⟨Nat.le_of_not_lt long, rfl, rfl, rfl, qd, an, ns, ar, fun first one noAnswers noAuthority noMore => ?_⟩
  simp only at one noAnswers noAuthority noMore
  rw [← qd, one, length_singleton, entries_one] at questions
  rw [← an, noAnswers] at answers
  rw [← ns, noAuthority] at authority
  rw [← ar, noMore] at additional
  cases answers
  cases authority
  cases additional
  obtain ⟨⟨_, _⟩, read, rfl⟩ := map_eq_some_iff.mp questions
  cases one
  cases done
  exact read

/-- The one question of a message without records, in this message and in every one that goes on behind it. There a
pointer to the first name leads to the name of the question. -/
lemma question_first (long : 12 ≤ msg.length) (h : question msg (msg.drop 12) = some (q, [])) :
    (∃ rest, (∀ label ∈ q.name, label ≠ [] ∧ label.length < 256) ∧ msg.drop 12 = encodeName q.name ++ 0 :: rest) ∧
      ∀ msg' tail, msg'.drop 12 = msg.drop 12 ++ tail → msg'.length = msg.length + tail.length →
        question msg' (msg'.drop 12) = some (q, tail) ∧
          ∀ rest, tail = 0xC0 :: 0x0C :: rest → nameAt msg' tail = some (q.name, rest) := by
  unfold question at h
  split at h
  case h_2 => cases h
  case h_1 n t₁ t₀ c₁ c₀ more read =>
    cases h
    rw [nameAt, length_drop, Nat.sub_sub_self long] at read
    obtain ⟨valid, eq, frame⟩ := name_first read
    refine ⟨⟨_, valid, eq⟩, fun msg' tail whole length => ⟨?_, ?_⟩⟩
    · rw [question, nameAt, length, Nat.add_right_comm, whole, frame]
      rfl
    · rintro rest rfl
      have behind : 12 < msg'.length - (rest.length + 1 + 1) := by
        have some := congrArg List.length eq
        simp only [length_drop, List.length_append, length_cons] at some length
        omega
      have rounds : msg'.length + 128 = msg.length + 128 + (rest.length + 1) + 1 := by
        rw [length, length_cons, length_cons]
        omega
      rw [nameAt, rounds, name, if_neg (by decide), if_neg (by decide), if_pos (by decide)]
      simp only [length_cons]
      rw [if_pos ⟨by decide, behind⟩]
      change (name msg' _ 255 12 (msg'.drop 12)).map _ = _
      rw [whole, frame]
      rfl

end

end Sming.Lib.Rfc1035
