import Mathlib.Data.List.Infix
import Sming.Network.DnsBounds

/-!
# The answers of the DNS server

A datagram is well formed if `Rfc1035.decode` can read it. `Serves` says that the server answers a message exactly
when it is due, and that its answer, read again, repeats the question and has the address and the time to live that were
set.

The code takes every `www.` out of both names, wherever it stands, turns a query with further records down,
and writes the time to live with the lowest byte first.
-/

namespace Sming.Network.DNSServer
open Sming.Lib Sming.Lib.Rfc1035 List Option

/-! ### What the server should do -/

def labelsOf (text : List UInt8) : Name := if text = [] then [] else text.splitOn 46

def www : List UInt8 := [119, 119, 119]

/-- The name in lower case, without its first label if that is `www` and not the only one. -/
def plain (n : Name) : Name :=
  match n.map (List.map tolower) with
  | label :: other :: n => if label = www then other :: n else label :: other :: n
  | n => n

/-- The name is the configured one, up to the case and a `www` in front; `*` stands for all names. -/
def Named (configured : List UInt8) (n : Name) : Prop := configured = [42] ∨ plain (labelsOf configured) = plain n

instance (configured : List UInt8) (n : Name) : Decidable (Named configured n) :=
  inferInstanceAs (Decidable (_ ∨ _))

def Due (s : DNSServer) (m : Message) : Prop :=
  m.qr = false ∧ m.opcode = 0 ∧ ∃ q, m.questions = [q] ∧ Named s.configured q.name

def ip (s : DNSServer) : List UInt8 :=
  [s.resolvedIP.1, s.resolvedIP.2.1, s.resolvedIP.2.2.1, s.resolvedIP.2.2.2]

def RightAnswer (s : DNSServer) (m : Message) (reply : List UInt8) : Prop :=
  ∃ q r, m.questions = [q] ∧ decode reply = some r ∧ r.id = m.id ∧ r.qr = true ∧ r.questions = [q] ∧
    r.answers = [⟨q.name, 1, 1, s.ttl.toNat, s.ip⟩] ∧ r.authority = [] ∧ r.additional = []

def Serves (s : DNSServer) (verbose : Bool) (datagram : List UInt8) (m : Message) : Prop :=
  ((∃ reply, s.onReceive verbose datagram = some (.answer reply)) ↔ s.Due m) ∧
    ∀ reply, s.onReceive verbose datagram = some (.answer reply) → s.RightAnswer m reply

/-! ### Ordinary names -/

/-- The name has no NUL, its labels have no dots, and behind a `www` in front there is no other `www.`. -/
structure Regular (n : Name) : Prop where
  nul : 0 ∉ joined n
  labels : ∀ label ∈ plain n, label ≠ [] ∧ 46 ∉ label
  inner : ¬ www ++ [46] <:+: joined (plain n)

instance (n : Name) : Decidable (Regular n) :=
  decidable_of_iff (_ ∧ _ ∧ _) ⟨fun h => ⟨h.1, h.2.1, h.2.2⟩, fun h => ⟨h.nul, h.labels, h.inner⟩⟩

/-- The server's name is regular, is no more than `*` only if it is that, and its time to live has the same bytes in both
orders. -/
structure Sane (s : DNSServer) : Prop where
  regular : Regular (labelsOf s.configured)
  star : plain (labelsOf s.configured) = [[42]] → s.configured = [42]
  ttl : htonl s.ttl = s.ttl

def Alone (m : Message) : Prop := m.answers = [] ∧ m.authority = [] ∧ m.additional = []

/-- A standard query with one question has no records, and the name it asks for is regular or all the same to the
server. -/
def Ordinary (s : DNSServer) (m : Message) : Prop :=
  m.qr = false → m.opcode = 0 → ∀ q, m.questions = [q] → Alone m ∧ (s.configured = [42] ∨ Regular q.name)

variable {s : DNSServer} {verbose : Bool} {m : Message} {n : Name} {q : Question}

lemma joined_eq_intercalate (n : Name) : joined n = [46].intercalate n := by
  induction n with
  | nil => rfl
  | cons label n ih =>
    cases n with
    | nil => simp [joined, intercalate]
    | cons other n =>
      rw [joined, ih]
      simp [intercalate]

lemma joined_labelsOf (text : List UInt8) : joined (labelsOf text) = text := by
  rw [labelsOf]
  split
  case isTrue none => exact none.symm
  case isFalse => rw [joined_eq_intercalate, intercalate_splitOn]

/-- The text of a name is read back, so that names with the same text are the same. -/
lemma labelsOf_joined (labels : ∀ label ∈ n, label ≠ [] ∧ 46 ∉ label) : labelsOf (joined n) = n := by
  cases n with
  | nil => rfl
  | cons label n =>
    have some : joined (label :: n) ≠ [] := by
      cases n with
      | nil => exact (labels label mem_cons_self).1
      | cons => simp [joined]
    rw [labelsOf, if_neg some, joined_eq_intercalate,
      splitOn_intercalate 46 (fun l mem => (labels l mem).2) (cons_ne_nil _ _)]

lemma map_joined (n : Name) : (joined n).map tolower = joined (n.map (List.map tolower)) := by
  induction n with
  | nil => rfl
  | cons label n ih =>
    cases n with
    | nil => rfl
    | cons other n =>
      rw [joined, map_append, map_cons, ih]
      rfl

lemma removeWww_eq {text : List UInt8} (none : ¬ www ++ [46] <:+: text) : removeWww text = text := by
  induction text with
  | nil => rfl
  | cons c text ih =>
    rw [removeWww, ih fun later => none (later.trans (suffix_cons c text).isInfix)]
    rintro rest rfl rfl
    exact none ⟨[], rest, rfl⟩

/-- The code's form of a regular name is the name without its `www`. -/
lemma Regular.downcaseAndRemoveWwwPrefix (h : Regular n) :
    downcaseAndRemoveWwwPrefix (joined n) = joined (plain n) := by
  have downcased : downcase (joined n) = joined (n.map (List.map tolower)) := by
    rw [downcase, before_of_not_mem h.nul, drop_length, append_nil, map_joined]
  have inner := h.inner
  rw [DNSServer.downcaseAndRemoveWwwPrefix, downcased]
  rw [plain] at inner ⊢
  split at inner
  case h_1 label other rest eq =>
    rw [eq]
    by_cases first : label = www
    · rw [if_pos first] at inner ⊢
      rw [first, joined]
      exact removeWww_eq inner
    · rw [if_neg first] at inner ⊢
      exact removeWww_eq inner
  case h_2 => exact removeWww_eq inner

def Addressed (s : DNSServer) (n : Name) : Prop :=
  s.domainName = [42] ∨ downcaseAndRemoveWwwPrefix (joined n) = s.domainName

lemma Sane.addressed_iff (sane : s.Sane) (name : s.configured = [42] ∨ Regular n) :
    s.Addressed n ↔ Named s.configured n := by
  have configured : s.domainName = joined (plain (labelsOf s.configured)) := by
    rw [domainName, ← sane.regular.downcaseAndRemoveWwwPrefix, joined_labelsOf]
  have read := labelsOf_joined sane.regular.labels
  rw [← configured] at read
  have all : s.domainName = [42] ↔ s.configured = [42] := by
    refine ⟨fun star => sane.star ?_, fun star => ?_⟩
    · rw [← read, star]
      rfl
    · rw [domainName, star]
      rfl
  rw [Addressed, Named, all]
  refine or_congr_right' fun star => ?_
  have regular := name.resolve_left star
  rw [regular.downcaseAndRemoveWwwPrefix]
  constructor
  · intro same
    rw [← read, ← same, labelsOf_joined regular.labels]
  · intro same
    rw [configured, same]

/-! ### The bytes -/

lemma be32_byte (x : UInt32) :
    be32 (byte x.toNat 3) (byte x.toNat 2) (byte x.toNat 1) (byte x.toNat 0) = x.toNat := by
  have small := x.toNat_lt
  generalize x.toNat = n at small
  simp only [be32, be16, byte, UInt8.toNat_ofNat', Nat.reducePow, Nat.div_one] at *
  omega

lemma or_128_div (f : UInt8) : (f ||| 0x80).toNat / 128 = 1 := by
  have all : ∀ n < 256, (n ||| 128) / 128 = 1 := by decide +kernel
  rw [UInt8.toNat_or]
  exact all f.toNat f.toNat_lt

variable {datagram reply : List UInt8} {flags : UInt8}

lemma onReceive_eq_answer_iff (here : datagram[2]? = some flags) :
    s.onReceive verbose datagram = some (.answer reply) ↔ (verbose = true → NameInside datagram) ∧
      s.accepted datagram flags = some true ∧ reply = s.answer datagram flags := by
  have answered : s.reply datagram flags = some (.answer reply) ↔
      s.accepted datagram flags = some true ∧ reply = s.answer datagram flags := by
    rw [DNSServer.reply]
    rcases s.accepted datagram flags with _ | ⟨_ | _⟩
    · simp
    · rw [bind_some, if_neg (by decide)]
      split
      · split <;> simp
      · simp
    · simp [eq_comm]
  rw [onReceive_eq, here, ← answered, ← getDomainNameWithoutWwwPrefix_isSome_iff]
  cases verbose with
  | false => simp
  | true =>
    rw [if_pos rfl]
    cases getDomainNameWithoutWwwPrefix datagram <;> simp

/-- What the server looks at, in terms of the message. -/
lemma onReceive_answers_iff (read : Read datagram m) :
    s.onReceive verbose datagram = some (.answer reply) ↔
      m.qr = false ∧ m.opcode = 0 ∧ (∃ q, m.questions = [q] ∧ Alone m ∧ s.Addressed q.name) ∧
        reply = s.answer datagram (datagram[2]?.getD 0) := by
  have long := read.long
  have here : datagram[2]? = some (datagram[2]?.getD 0) := by
    rw [getElem?_eq_getElem (by omega)]
    rfl
  have query : m.qr = false ↔ QR (datagram[2]?.getD 0) = 0 := by
    have small := (datagram[2]?.getD 0).toNat_lt
    rw [read.qr, decide_eq_false_iff_not, QR]
    omega
  have only : requestIncludesOnlyOneQuestion datagram = some true ↔ m.questions.length = 1 ∧ Alone m := by
    rw [requestIncludesOnlyOneQuestion_iff, ← read.questions, ← read.answers, ← read.authority, ← read.additional]
    simp [Alone, long]
  -- the name of the one question is inside, and the server's form of it is compared
  have addressed {q : Question} (one : m.questions = [q]) (alone : Alone m) :
      NameInside datagram ∧ (s.addressed datagram = some true ↔ s.Addressed q.name) := by
    obtain ⟨⟨rest, countable, name⟩, -⟩ := question_first long (read.alone q one alone.1 alone.2.1 alone.2.2)
    refine ⟨⟨q.name, rest, countable, name⟩, ?_⟩
    rw [DNSServer.addressed, getDomainNameWithoutWwwPrefix_eq countable name, Addressed]
    split
    case isTrue all => simp [all]
    case isFalse own => simp [own]
  rw [onReceive_eq_answer_iff here, accepted_eq_true_iff, query, read.opcode, only]
  constructor
  · rintro ⟨-, ⟨qr, opcode, ⟨one, alone⟩, name⟩, same⟩
    obtain ⟨q, one⟩ := length_eq_one_iff.mp one
    exact ⟨qr, opcode, ⟨q, one, alone, (addressed one alone).2.mp name⟩, same⟩
  · rintro ⟨qr, opcode, ⟨q, one, alone, name⟩, same⟩
    obtain ⟨inside, own⟩ := addressed one alone
    exact ⟨fun _ => inside, ⟨qr, opcode, ⟨by rw [one]; rfl, alone⟩, own.mpr name⟩, same⟩

/-- The answer, read again; its record points to the name of the question. -/
lemma decode_answer (read : Read datagram m) (one : m.questions = [q]) (alone : Alone m) :
    ∃ r, decode (s.answer datagram flags) = some r ∧ r.id = m.id ∧ r.qr = true ∧ r.questions = [q] ∧
      r.answers = [⟨q.name, 1, 1, (htonl s.ttl).toNat, s.ip⟩] ∧ r.authority = [] ∧ r.additional = [] := by
  have long := read.long
  have length : (s.answer datagram flags).length = datagram.length + s.record.length := by simp [answer]
  have drop : (s.answer datagram flags).drop 12 = datagram.drop 12 ++ s.record := by
    rw [answer, drop_append_of_le_length (by simpa using long)]
    simp [drop_set]
  have byte : ∀ i < 12, (s.answer datagram flags)[i]? = (((datagram.set 2 (flags ||| 0x80)).set 6
      (datagram[4]?.getD 0)).set 7 (datagram[5]?.getD 0))[i]? := by
    intro i small
    exact getElem?_append_left (by simp only [length_set]; omega)
  have inside : 2 < datagram.length ∧ 6 < datagram.length ∧ 7 < datagram.length := by omega
  have fields : field (s.answer datagram flags) 0 = field datagram 0 ∧ field (s.answer datagram flags) 4 =
      field datagram 4 ∧ field (s.answer datagram flags) 6 = field datagram 4 ∧ field (s.answer datagram flags) 8 =
      field datagram 8 ∧ field (s.answer datagram flags) 10 = field datagram 10 := by
    simp [field, byte, inside]
  have flag : (s.answer datagram flags)[2]?.getD 0 = flags ||| 0x80 := by simp [byte, inside]
  obtain ⟨-, again⟩ := question_first long (read.alone q one alone.1 alone.2.1 alone.2.2)
  obtain ⟨question, name⟩ := again (s.answer datagram flags) s.record drop length
  have record : resourceRecord (s.answer datagram flags) s.record =
      some (⟨q.name, 1, 1, (htonl s.ttl).toNat, s.ip⟩, []) := by
    have ttl := be32_byte (htonl s.ttl)
    rw [resourceRecord, name _ rfl]
    simp [be16, ttl, ip]
  obtain ⟨id, qd, an, ns, ar⟩ := fields
  rw [decode, if_neg (by omega), qd, an, ns, ar, id, flag, or_128_div, ← read.questions, ← read.authority,
    ← read.additional, ← read.id, one, alone.2.1, alone.2.2, List.length_singleton, entries_one, question, map_some,
    bind_some, entries_one, record]
  exact ⟨_, rfl, rfl, rfl, rfl, rfl, rfl, rfl⟩

/-- A standard query for the address of the name `a`. -/
def queryA : List UInt8 := [0, 7, 1, 0, 0, 1, 0, 0, 0, 0, 0, 0, 1, 97, 0, 0, 1, 0, 1]

/-- The server for `www.A`. -/
def serverA : DNSServer := ⟨[119, 119, 119, 46, 65], (192, 168, 4, 1), 0x3C00003C, .noError⟩

-- the label `awww` loses its last three letters together with the dot
example : downcaseAndRemoveWwwPrefix (joined [[97, 119, 119, 119], [98]]) = [97, 98] ∧
    ¬ Named [97, 98] [[97, 119, 119, 119], [98]] := by decide +kernel

end Sming.Network.DNSServer
