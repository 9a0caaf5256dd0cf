import Sming.Lib.Run

/-!
# Pinned fingerprints

Embedding of `Sming/SmingCore/Network/SslValidator.cpp` and of `addSslValidator`, `pinCertificate` and
`onSslConnected` of `TcpClient.cpp`. A fingerprint that is pinned belongs to its validator, which deletes it after the
first comparison and keeps the pointer. The validators stay for the next handshake, so a client can make one handshake
with pinned fingerprints and no more (`handshake_right_iff`).
-/

namespace Sming.Network
open Sming.Lib

inductive SslFingerprintType where
  | certSha1
  | pkSha256
  deriving Repr, DecidableEq

namespace SslFingerprintType

/-- The size of a fingerprint (C `SHA1_SIZE`, `SHA256_SIZE`). -/
def size : SslFingerprintType → Nat
  | certSha1 => 20
  | pkSha256 => 32

end SslFingerprintType

structure Fingerprint where
  type : SslFingerprintType
  hash : Vector UInt8 type.size
  deriving DecidableEq

/-- What axTLS knows of the peer after the handshake; there may be no certificate. -/
structure SslPeer where
  hash : (type : SslFingerprintType) → Option (Vector UInt8 type.size)

namespace SslPeer

/-- `ssl_match_fingerprint(ssl, fp) == 0`. -/
def matchFingerprint (peer : SslPeer) (fp : Vector UInt8 20) : Bool := peer.hash .certSha1 == some fp

/-- `ssl_match_spki_sha256(ssl, hash) == 0`. -/
def matchSpkiSha256 (peer : SslPeer) (hash : Vector UInt8 32) : Bool := peer.hash .pkSha256 == some hash

def Matches (peer : SslPeer) (f : Fingerprint) : Prop := peer.hash f.type = some f.hash

instance (peer : SslPeer) (f : Fingerprint) : Decidable (peer.Matches f) :=
  inferInstanceAs (Decidable (peer.hash f.type = some f.hash))

end SslPeer

inductive PinData (n : Nat) where
  | null
  | buffer (hash : Vector UInt8 n)
  | released
  deriving DecidableEq

/-- The two validators differ in the comparison. `none` is a comparison with a buffer that is released. -/
def sslValidate {n : Nat} (success : Vector UInt8 n → Bool) : PinData n → Option (Bool × PinData n)
  | .null => some (false, .null)
  | .buffer hash => some (success hash, .released)
  | .released => none

def sslValidateCertificateSha1 (ssl : SslPeer) : PinData 20 → Option (Bool × PinData 20) :=
  sslValidate ssl.matchFingerprint

def sslValidatePublicKeySha256 (ssl : SslPeer) : PinData 32 → Option (Bool × PinData 32) :=
  sslValidate ssl.matchSpkiSha256

structure SslValidator where
  type : SslFingerprintType
  data : PinData type.size
  deriving DecidableEq

namespace SslValidator

/-- The callback that `pinCertificate` chooses. -/
def callback (ssl : SslPeer) : (type : SslFingerprintType) → PinData type.size → Option (Bool × PinData type.size)
  | .certSha1 => sslValidateCertificateSha1 ssl
  | .pkSha256 => sslValidatePublicKeySha256 ssl

def call (ssl : SslPeer) (v : SslValidator) : Option (Bool × SslValidator) :=
  (callback ssl v.type v.data).map fun r => (r.1, ⟨v.type, r.2⟩)

def callAll (ssl : SslPeer) : List SslValidator → Option (Bool × List SslValidator)
  | [] => some (false, [])
  | v :: vs => do
    let (success, v) ← v.call ssl
    if success then return (true, v :: vs)
    else
      let (success, vs) ← callAll ssl vs
      return (success, v :: vs)

/-! ### One handshake -/

def fingerprint : SslValidator → Option Fingerprint
  | ⟨type, .buffer hash⟩ => some ⟨type, hash⟩
  | _ => none

inductive Blocked : List SslValidator → Prop where
  | released {type vs} :
    Blocked (⟨type, .released⟩ :: vs)
  | null {type vs} :
    Blocked vs →
    Blocked (⟨type, .null⟩ :: vs)

variable {ssl : SslPeer} {type : SslFingerprintType} {vs : List SslValidator}

lemma callback_eq (ssl : SslPeer) (type : SslFingerprintType) :
    callback ssl type = sslValidate fun hash => ssl.hash type == some hash := by
  cases type <;> rfl

lemma call_null : call ssl ⟨type, .null⟩ = some (false, ⟨type, .null⟩) := by
  rw [call, callback_eq]
  rfl

lemma call_buffer (hash : Vector UInt8 type.size) :
    call ssl ⟨type, .buffer hash⟩ = some (decide (ssl.Matches ⟨type, hash⟩), ⟨type, .released⟩) := by
  have same : (ssl.hash type == some hash) = decide (ssl.Matches ⟨type, hash⟩) := by
    rw [Bool.eq_iff_iff, beq_iff_eq, decide_eq_true_eq]
    rfl
  rw [call, callback_eq, ← same]
  rfl

lemma call_released : call ssl ⟨type, .released⟩ = none := by
  rw [call, callback_eq]
  rfl

lemma Blocked.callAll (h : Blocked vs) : callAll ssl vs = none := by
  induction h with
  | released =>
    rw [SslValidator.callAll, call_released]
    rfl
  | null _ ih =>
    rw [SslValidator.callAll, call_null, ih]
    rfl

lemma Blocked.append (h : Blocked vs) (more : List SslValidator) : Blocked (vs ++ more) := by
  induction h with
  | released => exact .released
  | null _ ih => exact .null ih

lemma callAll_fresh (ssl : SslPeer) (fresh : ∀ v ∈ vs, v.data ≠ .released) :
    ∃ ws, callAll ssl vs = some (decide (∃ f ∈ vs.filterMap fingerprint, ssl.Matches f), ws) ∧
      (vs.filterMap fingerprint = [] → ws = vs) ∧ (vs.filterMap fingerprint ≠ [] → Blocked ws) := by
  induction vs with
  | nil => exact ⟨[], rfl, fun _ => rfl, fun h => absurd rfl h⟩
  | cons v vs ih =>
    obtain ⟨unused, rest⟩ := List.forall_mem_cons.mp fresh
    obtain ⟨ws, result, same, blocked⟩ := ih rest
    obtain ⟨type, data⟩ := v
    cases data with
    | null =>
      refine ⟨⟨type, .null⟩ :: ws, ?_, fun none => congrArg _ (same none), fun some => .null (blocked some)⟩
      rw [callAll, call_null, result]
      rfl
    | buffer hash =>
      have found : List.filterMap fingerprint (⟨type, .buffer hash⟩ :: vs) =
          ⟨type, hash⟩ :: vs.filterMap fingerprint := rfl
      rw [callAll, call_buffer, found]
      by_cases own : ssl.Matches ⟨type, hash⟩
      · refine ⟨⟨type, .released⟩ :: vs, ?_, nofun, fun _ => .released⟩
        simp [own]
      · refine ⟨⟨type, .released⟩ :: ws, ?_, nofun, fun _ => .released⟩
        simp [own, result]
    | released => exact absurd rfl unused

end SslValidator

/-- The validators of a client (C++ `TcpClient`). -/
structure PinningClient where
  sslValidators : List SslValidator := []
  deriving DecidableEq

namespace PinningClient

def addSslValidator (c : PinningClient) (v : SslValidator) : PinningClient :=
  { c with sslValidators := c.sslValidators ++ [v] }

def pointer {n : Nat} : Option (Vector UInt8 n) → PinData n
  | none => .null
  | some hash => .buffer hash

def pinCertificate (c : PinningClient) (type : SslFingerprintType) (fingerprint : Option (Vector UInt8 type.size)) :
    PinningClient := c.addSslValidator ⟨type, pointer fingerprint⟩

/-- The variant that takes a `SSLFingerprints`, without the ones that are null. -/
def pinCertificates (c : PinningClient) (certSha1 : Option (Vector UInt8 20)) (pkSha256 : Option (Vector UInt8 32)) :
    PinningClient :=
  let c := if certSha1.isSome then c.pinCertificate .certSha1 certSha1 else c
  if pkSha256.isSome then c.pinCertificate .pkSha256 pkSha256 else c

/-- Whether the peer is accepted; `none` is a comparison with a released buffer. -/
def onSslConnected (c : PinningClient) (ssl : SslPeer) : Option (Bool × PinningClient) :=
  (SslValidator.callAll ssl c.sslValidators).map fun r =>
    (c.sslValidators.length == 0 || r.1, { c with sslValidators := r.2 })

/-! ### Runs -/

inductive Event where
  | pinCertificate (type : SslFingerprintType) (fingerprint : Option (Vector UInt8 type.size))
  | pinCertificates (certSha1 : Option (Vector UInt8 20)) (pkSha256 : Option (Vector UInt8 32))
  | handshake (peer : SslPeer)

def step (c : PinningClient) : Event → Option PinningClient
  | .pinCertificate type fingerprint => some (c.pinCertificate type fingerprint)
  | .pinCertificates certSha1 pkSha256 => some (c.pinCertificates certSha1 pkSha256)
  | .handshake peer => (c.onSslConnected peer).map Prod.snd

def Event.pins : Event → List Fingerprint
  | .pinCertificate type fingerprint => fingerprint.toList.map (⟨type, ·⟩)
  | .pinCertificates certSha1 pkSha256 =>
    certSha1.toList.map (⟨.certSha1, ·⟩) ++ pkSha256.toList.map (⟨.pkSha256, ·⟩)
  | .handshake _ => []

def pinned (es : List Event) : List Fingerprint := es.flatMap Event.pins

/-- A handshake now is accepted if and only if the peer has one of the fingerprints pinned so far, and no buffer is
compared that is released. -/
def Right (es : List Event) (c : PinningClient) (peer : SslPeer) : Prop :=
  ∃ d, c.onSslConnected peer = some (decide (∃ f ∈ pinned es, peer.Matches f), d)

/-- A handshake was made when a fingerprint was pinned. -/
def Used (es : List Event) : Prop := ∃ before peer, before ++ [.handshake peer] <+: es ∧ pinned before ≠ []

/-! ### Every run -/

variable {c d : PinningClient} {es : List Event} {e : Event}

lemma pinned_snoc (es : List Event) (e : Event) : pinned (es ++ [e]) = pinned es ++ e.pins := by
  rw [pinned, List.flatMap_append, List.flatMap_singleton]
  rfl

/-- Before the first handshake with pinned fingerprints the validators have them all. Afterwards no handshake gets
through them. -/
inductive Inv (es : List Event) (c : PinningClient) : Prop where
  | fresh :
    ¬ Used es →
    (∀ v ∈ c.sslValidators, v.data ≠ .released) →
    c.sslValidators.filterMap SslValidator.fingerprint = pinned es →
    Inv es c
  | used :
    Used es →
    SslValidator.Blocked c.sslValidators →
    Inv es c

lemma not_used_nil : ¬ Used [] := by
  rintro ⟨before, peer, part, -⟩
  exact absurd (List.prefix_nil.mp part) (by simp)

lemma used_snoc : Used (es ++ [e]) ↔ Used es ∨ (∃ peer, e = .handshake peer) ∧ pinned es ≠ [] := by
  constructor
  · rintro ⟨before, peer, part, some⟩
    rcases List.prefix_concat_iff.mp part with whole | part
    · obtain ⟨rfl, last⟩ := List.append_inj' whole rfl
      exact .inr ⟨⟨peer, (List.singleton_inj.mp last).symm⟩, some⟩
    · exact .inl ⟨before, peer, part, some⟩
  · rintro (⟨before, peer, part, some⟩ | ⟨⟨peer, rfl⟩, some⟩)
    · exact ⟨before, peer, part.trans (List.prefix_append es [e]), some⟩
    · exact ⟨es, peer, List.prefix_rfl, some⟩

lemma step_pins (st : c.step e = some d) (pin : ∀ peer, e ≠ .handshake peer) :
    ∃ vs, d.sslValidators = c.sslValidators ++ vs ∧ (∀ v ∈ vs, v.data ≠ .released) ∧
      vs.filterMap SslValidator.fingerprint = e.pins := by
  cases e with
  | handshake peer => exact absurd rfl (pin peer)
  | pinCertificate type fingerprint =>
    cases st
    cases fingerprint with
    | none => exact ⟨_, rfl, by simp [pointer], rfl⟩
    | some hash => exact ⟨_, rfl, by simp [pointer], rfl⟩
  | pinCertificates certSha1 pkSha256 =>
    cases st
    cases certSha1 with
    | none =>
      cases pkSha256 with
      | none => exact ⟨[], (List.append_nil _).symm, List.forall_mem_nil _, rfl⟩
      | some key => exact ⟨_, rfl, by simp [pointer], rfl⟩
    | some cert =>
      cases pkSha256 with
      | none => exact ⟨_, rfl, by simp [pointer], rfl⟩
      | some key => exact ⟨_, List.append_assoc _ _ _, by simp [pointer], rfl⟩

lemma step_handshake {peer : SslPeer} (st : c.step (.handshake peer) = some d) :
    ∃ success, SslValidator.callAll peer c.sslValidators = some (success, d.sslValidators) := by
  obtain ⟨⟨success, d'⟩, answer, same⟩ := Option.map_eq_some_iff.mp st
  obtain ⟨⟨found, ws⟩, result, made⟩ := Option.map_eq_some_iff.mp answer
  obtain ⟨-, rfl⟩ := Prod.mk.inj made
  cases same
  exact ⟨found, result⟩

lemma inv_step (inv : Inv es c) (st : c.step e = some d) : Inv (es ++ [e]) d := by
  by_cases pin : ∃ peer, e = .handshake peer
  · obtain ⟨peer, rfl⟩ := pin
    obtain ⟨success, called⟩ := step_handshake st
    cases inv with
    | fresh unused fresh pins =>
      obtain ⟨ws, result, same, blocked⟩ := SslValidator.callAll_fresh peer fresh
      obtain ⟨-, rfl⟩ := Prod.mk.inj (Option.some.inj (result.symm.trans called))
      by_cases none : pinned es = []
      · rw [pins] at same
        refine .fresh ?_ ?_ ?_
        · rw [used_snoc]
          rintro (used | ⟨-, some⟩)
          · exact unused used
          · exact some none
        · rwa [same none]
        · rw [same none, pins, pinned_snoc]
          exact (List.append_nil _).symm
      · exact .used (used_snoc.mpr (.inr ⟨⟨peer, rfl⟩, none⟩)) (blocked (by rwa [pins]))
    | used used blocked =>
      rw [blocked.callAll] at called
      cases called
  · obtain ⟨vs, added, fresh', pins'⟩ := step_pins st fun peer eq => pin ⟨peer, eq⟩
    cases inv with
    | fresh unused fresh pins =>
      refine .fresh ?_ ?_ ?_
      · rw [used_snoc]
        rintro (used | ⟨handshake, -⟩)
        · exact unused used
        · exact pin handshake
      · rw [added]
        exact List.forall_mem_append.mpr ⟨fresh, fresh'⟩
      · rw [added, List.filterMap_append, pins, pins', pinned_snoc]
    | used used blocked =>
      refine .used (used_snoc.mpr (.inl used)) ?_
      rw [added]
      exact blocked.append vs

lemma inv_of_run (run : Run step Always {} es c) : Inv es c := by
  induction run with
  | nil => exact .fresh not_used_nil (List.forall_mem_nil _) rfl
  | snoc _ _ st ih => exact inv_step ih st

/-- Exactly the first handshake with pinned fingerprints is right. -/
theorem handshake_right_iff {es : List Event} {c : PinningClient} (run : Run step Always {} es c)
    (some : pinned es ≠ []) (peer : SslPeer) : Right es c peer ↔ ¬ Used es := by
  cases inv_of_run run with
  | fresh unused fresh pins =>
    obtain ⟨ws, result, -⟩ := SslValidator.callAll_fresh peer fresh
    refine iff_of_true ⟨{ c with sslValidators := ws }, ?_⟩ unused
    have validators : (c.sslValidators.length == 0) = false := by
      rw [beq_eq_false_iff_ne, Ne, List.length_eq_zero_iff]
      intro none
      rw [none] at pins
      exact some pins.symm
    rw [onSslConnected, result, validators, pins]
    rfl
  | used used blocked =>
    refine iff_of_false ?_ (not_not_intro used)
    rintro ⟨d, answer⟩
    rw [onSslConnected, blocked.callAll] at answer
    cases answer

def certified (hash : Vector UInt8 20) : SslPeer where
  hash
    | .certSha1 => some hash
    | .pkSha256 => none

theorem first_handshake_right :
    Run step Always {} [.pinCertificate .certSha1 (some (.replicate 20 7))]
      ⟨[⟨.certSha1, .buffer (.replicate 20 7)⟩]⟩ ∧
    pinned [.pinCertificate .certSha1 (some (.replicate 20 7))] ≠ [] ∧
    Right [.pinCertificate .certSha1 (some (.replicate 20 7))] ⟨[⟨.certSha1, .buffer (.replicate 20 7)⟩]⟩
      (certified (.replicate 20 7)) := by
  have run : Run step Always {} [.pinCertificate .certSha1 (some (.replicate 20 7))]
      ⟨[⟨.certSha1, .buffer (.replicate 20 7)⟩]⟩ := .snoc .nil trivial rfl
  have some : pinned [.pinCertificate .certSha1 (some (.replicate 20 7))] ≠ [] := List.cons_ne_nil _ _
  refine ⟨run, some, (handshake_right_iff run some _).mpr fun used => ?_⟩
  have used : Used ([] ++ [.pinCertificate .certSha1 (Option.some (.replicate 20 7))]) := used
  rcases used_snoc.mp used with before | ⟨⟨peer, handshake⟩, -⟩
  · exact not_used_nil before
  · cases handshake

/-- The second handshake compares with a released buffer. -/
theorem second_handshake_not_right :
    ¬ (∀ (es : List Event) (c : PinningClient), Run step Always {} es c → pinned es ≠ [] →
      ∀ peer, Right es c peer) := by
  intro all
  have run : Run step Always {}
      [.pinCertificate .certSha1 (some (.replicate 20 7)), .handshake (certified (.replicate 20 7))]
      ⟨[⟨.certSha1, .released⟩]⟩ := .snoc (.snoc .nil trivial rfl) trivial rfl
  obtain ⟨d, answer⟩ := all _ _ run (List.cons_ne_nil _ _) (certified (.replicate 20 7))
  cases answer

end PinningClient

end Sming.Network
