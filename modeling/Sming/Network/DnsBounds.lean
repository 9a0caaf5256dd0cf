import Sming.Network.DNSServer

/-!
# The bytes that the DNS server looks at

The server trusts the datagram: it looks at the fields of the header without asking whether they are there,
and follows the lengths of the labels until it finds a zero byte. `onReceive_isSome_iff` says which datagrams
it reads without leaving them.
-/

namespace Sming.Network.DNSServer
open Sming.Lib Sming.Lib.Rfc1035 List Option

/-- The labels are such as a length byte can announce. -/
def Countable (n : Name) : Prop := ∀ label ∈ n, label ≠ [] ∧ label.length < 256

def NameInside (buffer : List UInt8) : Prop :=
  ∃ n rest, Countable n ∧ buffer.drop 12 = encodeName n ++ 0 :: rest

def joined : Name → List UInt8
  | [] => []
  | [label] => label
  | label :: other :: n => label ++ 46 :: joined (other :: n)

/-! ### The labels -/

variable {label : List UInt8} {n : Name} {rounds : Nat} {a b : Option Bool}

lemma toNat_length (short : label.length < 256) : (UInt8.ofNat label.length).toNat = label.length := by
  rw [UInt8.toNat_ofNat']
  exact Nat.mod_eq_of_lt short

lemma ofNat_length_ne_zero (some : label ≠ []) (short : label.length < 256) : UInt8.ofNat label.length ≠ 0 := by
  intro zero
  have length := toNat_length short
  rw [zero] at length
  exact some (eq_nil_of_length_eq_zero length.symm)

lemma labels_encode (countable : Countable n) (some : n ≠ []) (enough : n.length ≤ rounds)
    (rest : List UInt8) : labels rounds (encodeName n ++ 0 :: rest) = .some (joined n) := by
  induction n generalizing rounds with
  | nil => exact absurd rfl some
  | cons label n ih =>
    obtain ⟨⟨_, short⟩, later⟩ := forall_mem_cons.mp countable
    cases rounds with
    | zero => exact absurd enough (Nat.not_succ_le_zero _)
    | succ rounds =>
      rw [encodeName_cons, cons_append, List.append_assoc, labels, toNat_length short, drop_left, take_left]
      cases n with
      | nil => rfl
      | cons next n =>
        obtain ⟨⟨nonempty, small⟩, -⟩ := forall_mem_cons.mp later
        have read := ih later (cons_ne_nil _ _) (Nat.le_of_succ_le_succ enough)
        rw [encodeName_cons, cons_append] at read ⊢
        simp only [if_neg (ofNat_length_ne_zero nonempty small), read]
        rfl

lemma exists_of_labels {bytes text : List UInt8} (first : bytes.head? ≠ .some 0)
    (h : labels rounds bytes = .some text) : ∃ n rest, Countable n ∧ bytes = encodeName n ++ 0 :: rest := by
  induction rounds generalizing bytes text with
  | zero => cases h
  | succ rounds ih =>
    cases bytes with
    | nil => cases h
    | cons b bytes =>
      have nonzero : b.toNat ≠ 0 := fun zero => first (congrArg some (UInt8.toNat_inj.mp zero))
      rw [labels] at h
      cases left : bytes.drop b.toNat with
      | nil =>
        rw [left] at h
        cases h
      | cons next more =>
        have inside : b.toNat ≤ bytes.length := by
          have length := congrArg List.length left
          rw [length_drop, length_cons] at length
          omega
        have length : (bytes.take b.toNat).length = b.toNat := by
          rw [length_take]
          exact Nat.min_eq_left inside
        have one : ∀ n, Countable n → Countable (bytes.take b.toNat :: n) := by
          intro n countable
          refine forall_mem_cons.mpr ⟨⟨fun empty => ?_, ?_⟩, countable⟩
          · rw [empty] at length
            exact nonzero length.symm
          · rw [length]
            exact b.toNat_lt
        have cut := take_append_drop b.toNat bytes
        rw [left] at h cut
        simp only at h
        split at h
        case isTrue zero =>
          subst zero
          refine ⟨[bytes.take b.toNat], more, one [] fun label mem => (by cases mem), ?_⟩
          rw [encodeName_cons, length, UInt8.ofNat_toNat]
          simpa [encodeName] using cut.symm
        case isFalse nonzero' =>
          obtain ⟨text, read, -⟩ := map_eq_some_iff.mp h
          have start : (next :: more).head? ≠ some 0 := by simpa using nonzero'
          obtain ⟨n, rest, countable, eq⟩ := ih start read
          refine ⟨bytes.take b.toNat :: n, rest, one n countable, ?_⟩
          rw [encodeName_cons, length, UInt8.ofNat_toNat, cons_append, List.append_assoc, ← eq, cut]

lemma length_le_of_countable (countable : Countable n) : n.length ≤ (encodeName n).length := by
  induction n with
  | nil => exact Nat.le_refl _
  | cons label n ih =>
    have rest := ih (forall_mem_cons.mp countable).2
    rw [encodeName_cons, length_cons, length_cons, List.length_append]
    omega

lemma getDomainNameWithoutWwwPrefix_eq {buffer rest : List UInt8} (countable : Countable n)
    (here : buffer.drop 12 = encodeName n ++ 0 :: rest) :
    getDomainNameWithoutWwwPrefix buffer = some (downcaseAndRemoveWwwPrefix (joined n)) := by
  rw [getDomainNameWithoutWwwPrefix, here]
  cases n with
  | nil => rfl
  | cons label n =>
    obtain ⟨⟨nonempty, short⟩, -⟩ := forall_mem_cons.mp countable
    have enough : (label :: n).length ≤ buffer.length := by
      have length := congrArg List.length here
      have fewer := length_le_of_countable countable
      rw [length_drop, List.length_append] at length
      omega
    have read := labels_encode countable (cons_ne_nil _ _) enough rest
    rw [encodeName_cons, cons_append] at read ⊢
    simp only [if_neg (ofNat_length_ne_zero nonempty short), read]
    rfl

lemma getDomainNameWithoutWwwPrefix_isSome_iff (buffer : List UInt8) :
    (getDomainNameWithoutWwwPrefix buffer).isSome ↔ NameInside buffer := by
  constructor
  · intro h
    rw [getDomainNameWithoutWwwPrefix] at h
    cases left : buffer.drop 12 with
    | nil =>
      rw [left] at h
      cases h
    | cons first rest =>
      rw [left] at h
      simp only at h
      split at h
      case isTrue zero =>
        subst zero
        exact ⟨[], rest, fun label mem => (by cases mem), left⟩
      case isFalse nonzero =>
        rw [isSome_map] at h
        obtain ⟨text, read⟩ := isSome_iff_exists.mp h
        have start : (first :: rest).head? ≠ some 0 := by simpa using nonzero
        obtain ⟨n, rest, countable, eq⟩ := exists_of_labels start read
        exact ⟨n, rest, countable, left.trans eq⟩
  · rintro ⟨n, rest, countable, here⟩
    rw [getDomainNameWithoutWwwPrefix_eq countable here]
    rfl

/-! ### The header -/

variable {s : DNSServer} {verbose : Bool} {buffer : List UInt8} {flags : UInt8}

lemma counter_isSome_iff (i : Nat) : (counter buffer i).isSome ↔ i + 1 < buffer.length := by
  rw [counter]
  by_cases inside : i + 1 < buffer.length
  · rw [getElem?_eq_getElem (Nat.lt_of_succ_lt inside), getElem?_eq_getElem inside]
    simpa using inside
  · rw [getElem?_eq_none (Nat.le_of_not_lt inside)]
    cases buffer[i]? <;> simpa using inside

lemma counter_eq {i : Nat} (inside : i + 1 < buffer.length) : counter buffer i = some (field buffer i) := by
  rw [counter, field, getElem?_eq_getElem (Nat.lt_of_succ_lt inside), getElem?_eq_getElem inside]
  rfl

lemma andAlso_isSome_iff : (andAlso a b).isSome ↔ a.isSome ∧ (a = some true → b.isSome) := by
  rcases a with _ | ⟨_ | _⟩ <;> simp [andAlso]

lemma andAlso_eq_true : andAlso a b = some true ↔ a = some true ∧ b = some true := by
  rcases a with _ | ⟨_ | _⟩ <;> simp [andAlso]

lemma requestIncludesOnlyOneQuestion_isSome (long : 12 ≤ buffer.length) :
    (requestIncludesOnlyOneQuestion buffer).isSome := by
  have read : ∀ i ≤ 10, (counter buffer i).isSome := fun i small => (counter_isSome_iff i).mpr (by omega)
  simp [requestIncludesOnlyOneQuestion, andAlso_isSome_iff, read]

lemma requestIncludesOnlyOneQuestion_iff : requestIncludesOnlyOneQuestion buffer = some true ↔
    12 ≤ buffer.length ∧ field buffer 4 = 1 ∧ field buffer 6 = 0 ∧ field buffer 8 = 0 ∧ field buffer 10 = 0 := by
  rw [requestIncludesOnlyOneQuestion, andAlso_eq_true, andAlso_eq_true, andAlso_eq_true]
  by_cases long : 12 ≤ buffer.length
  · rw [counter_eq (by omega), counter_eq (by omega), counter_eq (by omega), counter_eq (by omega)]
    simp [long]
  · have outside : counter buffer 10 = none := by
      rw [← not_isSome_iff_eq_none, counter_isSome_iff]
      omega
    simp [outside, long]

lemma accepted_eq_true_iff : s.accepted buffer flags = some true ↔ QR flags = 0 ∧ OPCode flags = 0 ∧
    requestIncludesOnlyOneQuestion buffer = some true ∧ s.addressed buffer = some true := by
  rw [accepted, andAlso_eq_true, andAlso_eq_true, andAlso_eq_true]
  simp

lemma accepted_isSome_iff : (s.accepted buffer flags).isSome ↔ (QR flags = 0 → OPCode flags = 0 →
    (requestIncludesOnlyOneQuestion buffer).isSome ∧
      (requestIncludesOnlyOneQuestion buffer = some true → (s.addressed buffer).isSome)) := by
  rw [accepted, andAlso_isSome_iff, andAlso_isSome_iff, andAlso_isSome_iff]
  simp

/-- The bytes that are needed, given the first byte of the flags. -/
def Needed (s : DNSServer) (buffer : List UInt8) (flags : UInt8) : Prop :=
  QR flags = 0 → 12 ≤ buffer.length ∧
    (OPCode flags = 0 → requestIncludesOnlyOneQuestion buffer = some true → s.domainName ≠ [42] →
      NameInside buffer)

def reply (s : DNSServer) (buffer : List UInt8) (flags : UInt8) : Option DNSReply :=
  (s.accepted buffer flags).bind fun yes =>
    if yes then some (.answer (s.answer buffer flags))
    else if QR flags = 0 then
      if buffer.length < 12 then none else some (.error (s.errorReply buffer flags))
    else some .nothing

lemma onReceive_eq (s : DNSServer) (verbose : Bool) (buffer : List UInt8) :
    s.onReceive verbose buffer = (if verbose then getDomainNameWithoutWwwPrefix buffer else some []).bind fun _ =>
        buffer[2]?.bind (s.reply buffer) := rfl

lemma addressed_isSome_iff : (s.addressed buffer).isSome ↔ (s.domainName ≠ [42] → NameInside buffer) := by
  rw [addressed]
  split
  case isTrue all => exact ⟨fun _ h => absurd all h, fun _ => rfl⟩
  case isFalse own =>
    rw [isSome_map, getDomainNameWithoutWwwPrefix_isSome_iff]
    exact ⟨fun h _ => h, fun h => h own⟩

lemma reply_isSome_iff : (s.reply buffer flags).isSome ↔ s.Needed buffer flags := by
  have whole : (s.reply buffer flags).isSome ↔ (s.accepted buffer flags).isSome ∧
      (s.accepted buffer flags = some false → QR flags = 0 → 12 ≤ buffer.length) := by
    rw [reply]
    rcases s.accepted buffer flags with _ | ⟨_ | _⟩
    · simp
    · by_cases query : QR flags = 0 <;> by_cases short : buffer.length < 12 <;> simp [query, short, Nat.le_of_not_lt]
    · simp
  rw [whole, accepted_isSome_iff, Needed]
  constructor
  · rintro ⟨inside, rejected⟩ query
    have long : 12 ≤ buffer.length := by
      obtain ⟨yes, answer⟩ := isSome_iff_exists.mp (accepted_isSome_iff.mpr inside)
      cases yes with
      | false => exact rejected answer query
      | true => exact (requestIncludesOnlyOneQuestion_iff.mp (accepted_eq_true_iff.mp answer).2.2.1).1
    exact ⟨long, fun standard only => addressed_isSome_iff.mp ((inside query standard).2 only)⟩
  · intro needed
    refine ⟨fun query standard => ⟨requestIncludesOnlyOneQuestion_isSome (needed query).1, fun only => ?_⟩,
      fun _ query => (needed query).1⟩
    exact addressed_isSome_iff.mpr ((needed query).2 standard only)

/-- `onReceive` ends without leaving the datagram exactly if the flags are there, a query has a whole header, and the
labels end inside whenever they are looked at: for a debug message, or for a standard query with one question when the
server has a name of its own. -/
theorem onReceive_isSome_iff (s : DNSServer) (verbose : Bool) (buffer : List UInt8) :
    (s.onReceive verbose buffer).isSome ↔
      (verbose = true → NameInside buffer) ∧ ∃ flags, buffer[2]? = some flags ∧ s.Needed buffer flags := by
  have rest : (buffer[2]?.bind (s.reply buffer)).isSome ↔
      ∃ flags, buffer[2]? = some flags ∧ s.Needed buffer flags := by
    cases buffer[2]? with
    | none => simp
    | some flags => simpa using reply_isSome_iff
  rw [onReceive_eq, ← rest, ← getDomainNameWithoutWwwPrefix_isSome_iff]
  cases verbose with
  | false => simp
  | true =>
    rw [if_pos rfl]
    cases getDomainNameWithoutWwwPrefix buffer <;> simp

/-- The flags of an empty datagram. -/
theorem onReceive_leaves_datagram :
    ¬ ∀ (s : DNSServer) (verbose : Bool) (buffer : List UInt8), (s.onReceive verbose buffer).isSome := by
  intro all
  exact absurd (all ⟨[42], (1, 2, 3, 4), 60, .noError⟩ false []) (by decide)

-- a query of 17 bytes whose label is announced with 63 bytes
example : (DNSServer.mk [97] (1, 2, 3, 4) 60 .noError).onReceive false
    [0, 0, 0, 0, 0, 1, 0, 0, 0, 0, 0, 0, 63, 97, 0, 0, 1] = none := by decide

end Sming.Network.DNSServer
