import Mathlib.Algebra.Group.Nat.Defs
import Sming.Lib.Rfc1035
import Sming.Lib.FirstOccurrence

/-!
# The DNS server

Embedding of `Sming/SmingCore/Network/DNSServer.cpp`. The datagram is the list of its bytes; a step that takes a byte
behind its end answers `none`. With `verbose` the program is built with debug messages of the lowest level,
for which the name of the question is read before anything is checked.
-/

namespace Sming.Network
open Sming.Lib Sming.Lib.Rfc1035

inductive DNSReplyCode where
  | noError
  | formError
  | serverFailure
  | nonExistentDomain
  | notImplemented
  | refused
  | yxDomain
  | yxRRSet
  | nxRRSet
  deriving DecidableEq

def DNSReplyCode.value : DNSReplyCode → Nat
  | .noError => 0
  | .formError => 1
  | .serverFailure => 2
  | .nonExistentDomain => 3
  | .notImplemented => 4
  | .refused => 5
  | .yxDomain => 6
  | .yxRRSet => 7
  | .nxRRSet => 8

/-- (C++ `DNSServer`.) `configured` is the text that `start` gets. -/
structure DNSServer where
  configured : List UInt8
  resolvedIP : UInt8 × UInt8 × UInt8 × UInt8
  ttl : UInt32 := 60
  errorReplyCode : DNSReplyCode := .nonExistentDomain
  deriving DecidableEq

inductive DNSReply where
  | answer (bytes : List UInt8)
  | error (bytes : List UInt8)
  | nothing
  deriving DecidableEq

namespace DNSServer

/-! ### Names -/

def tolower (c : UInt8) : UInt8 := if 65 ≤ c ∧ c ≤ 90 then c + 32 else c

/-- (C++ `String::toLowerCase`, which ends at a NUL.) -/
def downcase (text : List UInt8) : List UInt8 :=
  (before 0 text).map tolower ++ text.drop (before 0 text).length

/-- Every `www.` is taken away, from the front (C++ `String::replace`). -/
def removeWww : List UInt8 → List UInt8
  | 119 :: 119 :: 119 :: 46 :: text => removeWww text
  | c :: text => c :: removeWww text
  | [] => []

def downcaseAndRemoveWwwPrefix (domainName : List UInt8) : List UInt8 := removeWww (downcase domainName)

variable (s : DNSServer)

def domainName : List UInt8 := downcaseAndRemoveWwwPrefix s.configured

/-- The loop over the labels; what is left starts with the length of a label. -/
def labels : Nat → List UInt8 → Option (List UInt8)
  | 0, _ => none
  | _ + 1, [] => none
  | rounds + 1, labelLength :: rest =>
    match rest.drop labelLength.toNat with
    | [] => none
    | next :: more =>
      if next = 0 then some (rest.take labelLength.toNat)
      else (labels rounds (next :: more)).map fun text => rest.take labelLength.toNat ++ 46 :: text

def getDomainNameWithoutWwwPrefix (buffer : List UInt8) : Option (List UInt8) :=
  match buffer.drop 12 with
  | [] => none
  | first :: rest =>
    if first = 0 then some []
    else (labels buffer.length (first :: rest)).map downcaseAndRemoveWwwPrefix

/-! ### The header -/

/-- The bit fields of the third byte. -/
def QR (flags : UInt8) : Nat := flags.toNat / 128

def OPCode (flags : UInt8) : Nat := flags.toNat / 8 % 16

def counter (buffer : List UInt8) (i : Nat) : Option Nat :=
  buffer[i]?.bind fun a => buffer[i + 1]?.map fun b => be16 a b

/-- `a && b`, where `b` is only looked at if `a` holds. -/
def andAlso (a b : Option Bool) : Option Bool := a.bind fun holds => if holds then b else some false

def requestIncludesOnlyOneQuestion (buffer : List UInt8) : Option Bool :=
  andAlso ((counter buffer 4).map (· == 1)) <|
    andAlso ((counter buffer 6).map (· == 0)) <|
      andAlso ((counter buffer 8).map (· == 0)) ((counter buffer 10).map (· == 0))

/-- `domainName == "*" || getDomainNameWithoutWwwPrefix() == domainName`. -/
def addressed (buffer : List UInt8) : Option Bool :=
  if s.domainName = [42] then some true
  else (getDomainNameWithoutWwwPrefix buffer).map (· == s.domainName)

def accepted (buffer : List UInt8) (flags : UInt8) : Option Bool :=
  andAlso (some (QR flags == 0)) <|
    andAlso (some (OPCode flags == 0)) <|
      andAlso (requestIncludesOnlyOneQuestion buffer) (s.addressed buffer)

/-! ### The replies -/

def byte (n : Nat) (k : Nat) : UInt8 := UInt8.ofNat (n / 256 ^ k)

/-- The bytes in the opposite order (`htonl` of a machine that has the lowest byte first). -/
def htonl (n : UInt32) : UInt32 :=
  UInt32.ofNat (be32 (byte n.toNat 0) (byte n.toNat 1) (byte n.toNat 2) (byte n.toNat 3))

def record : List UInt8 :=
  let ttln := (htonl s.ttl).toNat
  [0xC0, 0x0C,
    -- type and class
    0x00, 0x01, 0x00, 0x01,
    byte ttln 3, byte ttln 2, byte ttln 1, byte ttln 0,
    0x00, 0x04,
    s.resolvedIP.1, s.resolvedIP.2.1, s.resolvedIP.2.2.1, s.resolvedIP.2.2.2]

def answer (buffer : List UInt8) (flags : UInt8) : List UInt8 :=
  ((buffer.set 2 (flags ||| 0x80)).set 6 (buffer[4]?.getD 0)).set 7 (buffer[5]?.getD 0) ++ s.record

def errorReply (buffer : List UInt8) (flags : UInt8) : List UInt8 :=
  let codes := (buffer[3]?.getD 0).toNat / 16 * 16 + s.errorReplyCode.value
  ((((buffer.set 2 (flags ||| 0x80)).set 3 (UInt8.ofNat codes)).set 4 0).set 5 0).take 12

def onReceive (verbose : Bool) (buffer : List UInt8) : Option DNSReply :=
  (if verbose then getDomainNameWithoutWwwPrefix buffer else some []).bind fun _ =>
    buffer[2]?.bind fun flags =>
      (s.accepted buffer flags).bind fun yes =>
        if yes then some (.answer (s.answer buffer flags))
        else if QR flags = 0 then
          -- `sizeof(DNSHeader)` bytes are copied
          if buffer.length < 12 then none else some (.error (s.errorReply buffer flags))
        else some .nothing

end DNSServer

end Sming.Network
