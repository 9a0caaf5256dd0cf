import Sming.Network.Http.HttpRequest
import Sming.Network.TcpClient
import Sming.Wiring.FIFO

/-!
# The SMTP client

Embedding of `Sming/SmingCore/Network/SmtpClient.{h,cpp}`, built with SSL. `onReadyToSendData` is the
switch that sends commands. Its `default` label stands in the block of `eSMTP_SendAuth` and falls through
into the next case, so a state that no case names is treated like `eSMTP_SendAuthResponse`.
`smtpParse` reads replies. It is a program over a pointer and the number of bytes that are left;
`Except Fault` has no value when it looks at a byte outside of the buffer. The one byte before the buffer
may be given: a call that begins inside of a line compares it with a carriage return.

`log` is not part of the source: it records what the client does and the reply lines it gets. The
functions for Base64 and HMAC-MD5 are parameters. What the two functions for the headers and the body
of a mail put into the stream is kept as it is in the mail.
-/

namespace Sming.Network
open Sming.Wiring Sming.Network.Http

inductive SmtpState where
  | banner | hello | startTLS | sendAuth | sendingAuthLogin | requestingAuthChallenge
  | sendAuthResponse | sendingAuth | ready | sendMail | sendingMail | sendRcpt | sendingRcpt
  | sendData | sendingData | sendHeader | sendingHeaders | startBody | sendingBody | sent
  | quitting | disconnect
  deriving Repr, DecidableEq

structure MailMessage where
  from' : String := ""
  to' : String := ""
  /-- The lines that `sendMailHeaders` sends. -/
  headers : List String := []
  /-- The content of the stream that `sendMailBody` puts in place. -/
  body : Option (List UInt8) := none
  deriving Repr, DecidableEq, Inhabited

inductive Command where
  | startTLS
  | authPlain (token : List UInt8)
  | authCramMd5
  /-- The answer to a CRAM-MD5 challenge. -/
  | authResponse (token : List UInt8)
  | mailFrom (address : String)
  | rcptTo (address : String)
  | data
  | headers (lines : List String)
  | body (content : List UInt8)
  | finalDot
  | ehlo (host : String)
  | quit
  deriving Repr, DecidableEq

/-- What happens on the connections of a client. -/
inductive Entry where
  | connected
  /-- A command, and the state it was sent in. -/
  | sent (state : SmtpState) (command : Command)
  /-- A reply line, and the state it was read in. -/
  | reply (state : SmtpState) (code : Int)
  /-- A TLS handshake is started. -/
  | handshake
  | closed
  /-- `messageSentCallback` is called. -/
  | messageSent
  deriving Repr, DecidableEq

/-- The functions that the authentication uses. -/
structure Codec where
  base64Encode : List UInt8 → List UInt8
  base64Decode : List UInt8 → List UInt8
  /-- The digest of a message under a key (C++ `hmac_md5`). -/
  hmacMd5 : List UInt8 → List UInt8 → List UInt8
  deriving Inhabited

def smtpQueueSize : Nat := 5

def smtpErrorLength : Nat := 40

/-- (C++ `SmtpClient`.) The two bits of `options` that are used are fields of their own; `connection` is the
state of the TCP client, and `streaming` says that its stream is there and not finished. -/
structure SmtpClient where
  connection : TcpClientState := .ready
  url : URL := {}
  useSsl : Bool := false
  authMethods : List String := []
  mailQ : ObjectQueue MailMessage smtpQueueSize := .new (by decide) (by decide) {}
  code : Vector UInt8 3 := #v[0, 0, 0]
  codeValue : Int := 0
  authChallenge : List UInt8 := []
  message : List UInt8 := List.replicate (smtpErrorLength + 1) 0
  isLastLine : Bool := false
  codeLength : Nat := 0
  optPipeline : Bool := false
  optStartTLS : Bool := false
  outgoingMail : Option MailMessage := none
  state : SmtpState := .banner
  streaming : Bool := false
  log : List Entry := []

namespace SmtpClient

variable (k : Codec) (c : SmtpClient)

def record (e : Entry) : SmtpClient := { c with log := c.log ++ [e] }

/-- On a connection that is in use, as everywhere but in `quit`. -/
def sendString (command : Command) : SmtpClient :=
  { c.record (.sent c.state command) with streaming := true }

/-- The length of the text counts its terminator. -/
def makeHexString (data : List UInt8) : List UInt8 :=
  bytes (String.ofList (data.flatMap fun (b : UInt8) => [System.hexchar (b >>> 4), System.hexchar (b &&& 0x0F)])) ++ [0]

/-! ### Sending -/

/-- (C++ `SmtpClient::connect`); the state of the last connection is kept. -/
def connect (url : URL) : SmtpClient :=
  { c.record .connected with connection := .connecting, url := url, useSsl := url.protocol == "smtps" }

def send (mail : MailMessage) : SmtpClient × Bool :=
  let r := c.mailQ.enqueue mail
  ({ c with mailQ := r.1 }, r.2)

/-- The command is stored only if the connection is in use. -/
def quit : SmtpClient :=
  let c := if c.connection = .connecting ∨ c.connection = .connected then c.sendString .quit else c
  { c with state := .quitting }

def close : SmtpClient := { c.record .closed with connection := .successful }

/-- The methods in the order in which they are tried. -/
def preferredOrder : List String :=
  if c.useSsl then ["PLAIN", "CRAM-MD5"] else ["CRAM-MD5", "PLAIN"]

def sendAuth : SmtpClient :=
  match c.preferredOrder.find? (c.authMethods.contains ·) with
  | some "PLAIN" =>
    let token := [0] ++ bytes c.url.user ++ [0] ++ bytes c.url.password
    { c.sendString (.authPlain (k.base64Encode token)) with state := .sendingAuth }
  | some _ => { c.sendString .authCramMd5 with state := .requestingAuthChallenge }
  | none => { c with state := .ready }

def sendAuthResponse : SmtpClient :=
  let digest := k.hmacMd5 c.authChallenge (bytes c.url.password)
  let token := bytes c.url.user ++ bytes " " ++ makeHexString digest
  { c.sendString (.authResponse (k.base64Encode token)) with state := .sendingAuth }

def sendMail : SmtpClient :=
  match c.outgoingMail with
  | none => c
  | some mail =>
    let c := c.sendString (.mailFrom mail.from')
    let c := if c.optPipeline then (c.sendString (.rcptTo mail.to')).sendString .data else c
    { c with state := .sendingMail }

/-- The case `eSMTP_Ready`, which goes on with the next one if there is a mail. -/
def sendReady : SmtpClient :=
  let r := c.mailQ.dequeue
  let c := { c with outgoingMail := r.1, mailQ := r.2 }
  if c.outgoingMail.isNone then c else { c with state := .sendMail }.sendMail

def sendRcpt : SmtpClient :=
  match c.outgoingMail with
  | none => c
  | some mail => { c.sendString (.rcptTo mail.to') with state := .sendingRcpt }

def sendFinalDot : SmtpClient :=
  if c.streaming then c else { c with state := .sent }.sendString .finalDot

/-- The case `eSMTP_StartBody`, which goes on with the next one. -/
def startBody : SmtpClient :=
  match c.outgoingMail with
  | none => c
  | some mail =>
    match mail.body with
    | none => { c with state := .sendingBody }.sendFinalDot
    | some content =>
      { c.record (.sent c.state (.body content)) with
        streaming := !content.isEmpty
        outgoingMail := some { mail with body := none }
        state := .sendingBody }.sendFinalDot

/-- The case `eSMTP_SendingHeaders`, which goes on with the next one. -/
def sendingHeaders : SmtpClient :=
  if c.streaming then c else { c with state := .startBody }.startBody

/-- The case `eSMTP_SendHeader`, which goes on with the next one. -/
def sendHeader : SmtpClient :=
  if c.streaming then c
  else
    match c.outgoingMail with
    | none => c
    | some mail => { c.sendString (.headers mail.headers) with state := .sendingHeaders }.sendingHeaders

def dispatch : SmtpClient :=
  match c.state with
  | .startTLS => { c.sendString .startTLS with state := .banner }
  | .sendAuth => c.sendAuth k
  | .sendAuthResponse => c.sendAuthResponse k
  | .ready => c.sendReady
  | .sendMail => c.sendMail
  | .sendRcpt => c.sendRcpt
  | .sendData => { c.sendString .data with state := .sendingData }
  | .sendHeader => c.sendHeader
  | .sendingHeaders => c.sendingHeaders
  | .startBody => c.startBody
  | .sendingBody => c.sendFinalDot
  | .disconnect => c.close
  -- `default` falls through into the case of the response
  | .banner | .hello | .sendingAuthLogin | .requestingAuthChallenge | .sendingAuth | .sendingMail
  | .sendingRcpt | .sendingData | .sent | .quitting => c.sendAuthResponse k

/-- `sentAll` says whether the stream is finished after `TcpClient::onReadyToSendData`. -/
def onReadyToSendData (sentAll : Bool) : SmtpClient :=
  let c := c.dispatch k
  { c with streaming := c.streaming && !sentAll }

end SmtpClient

/-! ### Looking at bytes -/

/-- Why a run of the parser has no result. -/
inductive Fault where
  /-- A byte outside of the buffer was looked at. -/
  | outside
  /-- A loop did not end. -/
  | endless
  deriving Repr, DecidableEq

namespace SmtpParser

def cr : UInt8 := 13

def lf : UInt8 := 10

def space : UInt8 := 32

def minus : UInt8 := 45

def byteAt (buf : List UInt8) (i : Nat) : Except Fault UInt8 :=
  match buf[i]? with
  | none => .error .outside
  | some b => .ok b

/-- `*(buffer - 1)`; `before` is the byte that happens to lie before the buffer, if a look at it is allowed. -/
def byteBefore (before : Option UInt8) (buf : List UInt8) : Nat → Except Fault UInt8
  | 0 => before.elim (.error .outside) .ok
  | i + 1 => byteAt buf i

/-- Copy `n` bytes from the start of the memory; a negative number is a very large one. -/
def read (mem : List UInt8) (n : Int) : Except Fault (List UInt8) :=
  if 0 ≤ n ∧ n ≤ mem.length then .ok (mem.take n.toNat) else .error .outside

/-- Whether the first `n` bytes are equal to those of a text that ends with a terminator. -/
def strncmp : List UInt8 → List UInt8 → Nat → Except Fault Bool
  | _, _, 0 => .ok true
  | [], _, _ + 1 => .error .outside
  | a :: _, [], _ + 1 => .ok (a == 0)
  | a :: mem, b :: text, n + 1 => if a = b then strncmp mem text n else .ok false

/-- An `int` as a `size_t`. -/
def sizeT (n : Int) : Nat := (n % 2 ^ 32).toNat

structure Cursor where
  pos : Nat
  len : Nat
  deriving Repr, DecidableEq

/-- The counter is a `size_t`. -/
def Cursor.advance (p : Cursor) : Cursor where
  pos := p.pos + 1
  len := if p.len = 0 then 2 ^ 32 - 1 else p.len - 1

/-- (C++ `ADVANCE_UNTIL_EOL`.) -/
def advanceUntilEol (before : Option UInt8) (buf : List UInt8) : Nat → Cursor → Except Fault Cursor
  | 0, _ => .error .endless
  | fuel + 1, p => do
    let prev ← byteBefore before buf p.pos
    let found ← if prev = cr then (byteAt buf p.pos).map (· == lf) else .ok false
    if found then .ok p.advance
    else if 0 < p.advance.len then advanceUntilEol before buf fuel p.advance
    else .ok p.advance

end SmtpParser

/-! ### Replies -/

namespace SmtpClient
open SmtpParser

def strtol (code : Vector UInt8 3) : Int :=
  WString.toInt (String.ofList ((code.toList.takeWhile (· ≠ 0)).map fun b => Char.ofNat b.toNat))

def successCode : SmtpState → Option Int
  | .banner => some 220
  | .hello => some 250
  | .requestingAuthChallenge => some 334
  | .sendingAuth => some 235
  | .sendingMail => some 250
  | .sendingRcpt => some 250
  | .sendingData => some 354
  | .sent => some 250
  | .quitting => some 221
  | _ => none

/-- The message of the server, cut to the size of the buffer. -/
def copyMessage (mem : List UInt8) (lineLength : Int) (c : SmtpClient) : Except Fault SmtpClient := do
  let text ← read mem (min lineLength smtpErrorLength)
  .ok { c with message := text ++ c.message.drop text.length }

def capability (mem : List UInt8) (lineLength : Int) (c : SmtpClient) : Except Fault SmtpClient := do
  if ← strncmp mem (bytes "PIPELINING") (sizeT lineLength) then .ok { c with optPipeline := true }
  else if ← strncmp mem (bytes "STARTTLS") (sizeT lineLength) then .ok { c with optStartTLS := true }
  else if ← strncmp mem (bytes "AUTH ") 5 then do
    let text ← read (mem.drop 5) (lineLength - 5)
    let text := String.ofList (text.map fun b => Char.ofNat b.toNat)
    .ok { c with authMethods := WString.splitString text ' ' }
  else .ok c

def helloEnd (c : SmtpClient) : SmtpClient :=
  if c.isLastLine then
    { c with
      state :=
        if c.useSsl = false ∧ c.optStartTLS = true then .startTLS
        else if c.url.user ≠ "" ∧ c.authMethods ≠ [] then .sendAuth
        else .ready }
  else c

/-- The other cases of the switch, behind the check of the code. -/
def proceed (c : SmtpClient) : SmtpClient :=
  match c.state with
  | .banner =>
    let c := if c.useSsl = false ∧ c.optStartTLS = true then { c.record .handshake with useSsl := true } else c
    { c.sendString (.ehlo c.url.host) with state := .hello }
  | .sendingAuth => { c with authMethods := [], state := .ready }
  | .sendingMail => { c with state := if c.optPipeline then .sendingRcpt else .sendRcpt }
  | .sendingRcpt => { c with state := if c.optPipeline then .sendingData else .sendData }
  | .sendingData => { c with state := .sendHeader }
  | .sent => { c.record .messageSent with state := .ready, outgoingMail := none }
  | .quitting => { c.close with state := .disconnect }
  | _ => c

/-- The switch over a line; `mem` is the memory from its start to the end of the buffer. The answer `false`
is the `return 0` of `RETURN_ON_ERROR`. -/
def onLine (k : Codec) (mem : List UInt8) (lineLength : Int) (c : SmtpClient) :
    Except Fault (SmtpClient × Bool) :=
  let c := c.record (.reply c.state c.codeValue)
  match successCode c.state with
  | none => (copyMessage mem lineLength c).map (·, true)
  | some code =>
    if c.codeValue ≠ code then
      (copyMessage mem lineLength c).map fun c =>
        ({ c with message := c.message.set smtpErrorLength 0 }, false)
    else
      match c.state with
      | .hello => (capability mem lineLength c).map fun c => (c.helloEnd, true)
      | .requestingAuthChallenge =>
        (read mem lineLength).map fun text =>
          ({ c with authChallenge := k.base64Decode text, state := .sendAuthResponse }, true)
      | _ => .ok (c.proceed, true)

def collect (c : SmtpClient) (b : UInt8) : SmtpClient :=
  { c with code := c.code.setIfInBounds c.codeLength b, codeLength := c.codeLength + 1 }

def separate (c : SmtpClient) (b : UInt8) : SmtpClient :=
  { c with codeValue := strtol c.code, isLastLine := b == space, codeLength := c.codeLength + 1 }

/-- From the start of a line, or from the start of the buffer if the line was begun in another one. -/
def parseLine (k : Codec) (before : Option UInt8) (buf : List UInt8) (c : SmtpClient) (p : Cursor) :
    Except Fault (SmtpClient × Option Cursor × Nat) := do
  let line := p.pos
  let p ← advanceUntilEol before buf (buf.length + 2) p
  let last ← byteBefore before buf p.pos
  if last ≠ lf then .ok (c, none, p.pos)
  else
    let r ← onLine k (buf.drop line) ((p.pos - line : Int) - 2) { c with codeLength := 0 }
    if r.2 then .ok (r.1, some p, 0) else .ok (r.1, none, 0)

def parseText (k : Codec) (before : Option UInt8) (buf : List UInt8) (c : SmtpClient) (currentByte : UInt8)
    (p : Cursor) : Except Fault (SmtpClient × Option Cursor × Nat) :=
  if c.codeLength = 3 then parseLine k before buf (c.separate currentByte) p.advance
  else parseLine k before buf c p

/-- The loop; the answer is the client and what `smtpParse` returns. -/
def parseLoop (k : Codec) (before : Option UInt8) (buf : List UInt8) :
    Nat → SmtpClient → Cursor → Except Fault (SmtpClient × Nat)
  | 0, _, _ => .error .endless
  | fuel + 1, c, p =>
    if p.len = 0 then .ok (c, p.pos)
    else do
      let currentByte ← byteAt buf p.pos
      if c.codeLength < 3 then parseLoop k before buf fuel (c.collect currentByte) p.advance
      else if c.codeLength = 3 ∧ currentByte ≠ space ∧ currentByte ≠ minus then .ok (c, 0)
      else do
        let r ← parseText k before buf c currentByte p
        match r.2.1 with
        | some p => parseLoop k before buf fuel r.1 p
        | none => .ok (r.1, r.2.2)

def smtpParse (k : Codec) (before : Option UInt8) (c : SmtpClient) (buf : List UInt8) :
    Except Fault (SmtpClient × Nat) :=
  parseLoop k before buf (buf.length + 1) c { pos := 0, len := buf.length }

/-- The buffers of a chain, each with the byte before it, up to an empty one; and the number of bytes parsed. -/
def parseAll (k : Codec) (c : SmtpClient) : List (UInt8 × List UInt8) → Except Fault (SmtpClient × Nat)
  | [] => .ok (c, 0)
  | (_, []) :: _ => .ok (c, 0)
  | (before, buf) :: bufs => do
    let r ← c.smtpParse k before buf
    let s ← parseAll k r.1 bufs
    .ok (s.1, r.2 + s.2)

/-- (C++ `SmtpClient::onReceive`), up to the call of `TcpClient::onReceive`. `handled` is what the application's
callback says about an error; the answer says whether the buffers are passed on. -/
def onReceive (k : Codec) (c : SmtpClient) (bufs : List (UInt8 × List UInt8)) (handled : Bool) :
    Except Fault (SmtpClient × Bool) :=
  (c.parseAll k bufs).map fun r => (r.1, r.2 == (bufs.map fun buf => buf.2.length).sum || handled)

end SmtpClient

end Sming.Network
