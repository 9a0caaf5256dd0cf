import Sming.Network.NetUtils
import Sming.Wiring.WHashMap
import Sming.Wiring.WString

/-!
# The FTP control connection

Embedding of `Sming/SmingCore/Network/FTPServerConnection.cpp` and of the users and the command hook of
`FTPServer.cpp`. `onCommand` gives the connection after a command together with what the command did to the
file system and to the network; `commands` are the calls of `onCommand` that one `onReceive` makes.

The connection deletes itself when it is closed. Commands behind a `QUIT` in the same chain then go to a freed
object, of which nothing is said here.
-/

namespace Sming.Network.Ftp
open Sming.Lib Sming.Wiring Sming.Wiring.WString Sming.Network.NetUtils

/-- (C++ `FTPServer`, with the names in the file system.) -/
structure FTPServer where
  users : HashMap String String := {}
  files : List String := []
  deriving DecidableEq

namespace FTPServer

/-- `none` is the user for whom the map has no room. -/
def addUser (s : FTPServer) (login pass : String) : Option FTPServer :=
  (s.users.update login "" fun _ => pass).map fun users => { s with users := users }

end FTPServer

def checkUser (users : HashMap String String) (login pass : String) : Bool :=
  users.contains login && users.value login "" == pass

inductive FTPConnectionState where
  | ready
  | authorization
  | active
  deriving DecidableEq

/-- The data connections (C++ `FTPDataFileList`, `FTPDataRetrieve`, `FTPDataStore`). -/
inductive Transfer where
  | list
  | retrieve (fileName : String)
  | store (fileName : String)
  deriving DecidableEq

inductive Effect where
  | delete (name : String)
  | openRead (name : String)
  | openWrite (name : String)
  | list
  | connect (ip : String) (port : BitVec 16)
  | format
  deriving DecidableEq

/-- (C++ `FTPServerConnection`.) The address is kept as the text it is read from, the answers are in `sent`, and
`transfers` are the data connections at work. -/
structure FTPServerConnection where
  server : FTPServer
  state : FTPConnectionState := .ready
  userName : String := ""
  ip : String := ""
  port : BitVec 32 := 0
  transfers : List Transfer := []
  canTransfer : Bool := true
  closed : Bool := false
  sent : List String := []
  deriving DecidableEq

def MAX_FTP_CMD : Nat := 255

namespace FTPServerConnection

variable (c : FTPServerConnection)

def response (code : Nat) (text : String) : FTPServerConnection :=
  let ending :=
    if text.length = 0 then
      if 200 ≤ code ∧ code ≤ 399 then " OK" else " FAIL"
    else " " ++ text
  { c with sent := c.sent ++ [toString code ++ ending ++ "\r\n"], canTransfer := false }

/-- The place of the splitter with the given number. -/
def splitterPos (splitter : Char) : List Char → Nat → Nat → Option Nat
  | [], _, _ => none
  | c :: cs, i, number =>
    if c = splitter then
      if number = 0 then some i else splitterPos splitter cs (i + 1) (number - 1)
    else splitterPos splitter cs (i + 1) number

def getSplitterPos (data : String) (splitter : Char) (number : Nat) : Option Nat :=
  splitterPos splitter data.toList 0 number

def index (pos : Option Nat) : Nat := pos.getD (2 ^ 32 - 1)

def behind (pos : Option Nat) : Nat := (pos.map (· + 1)).getD 0

def cmdPort (data : String) : FTPServerConnection :=
  let last := getSplitterPos data ',' 4
  -- the failure is answered and the text is read all the same
  let c := if last = none then c.response 550 "" else c
  let ipEnd := getSplitterPos data ',' 3
  let sip := replace (substring data 0 (index ipEnd)) ',' '.'
  let p1 := toInt (substring data (behind ipEnd) (index last))
  let p2 := toInt (substring data (behind last) data.length)
  { c with ip := sip, port := (BitVec.ofInt 32 p1 <<< 8) ||| BitVec.ofInt 32 p2 }.response 200 ""

def makeFileName (name : String) (shortIt : Bool) : String :=
  let name := if name.toList.head? = some '/' then substring name 1 name.length else name
  if shortIt && decide (20 < name.length) then
    let ext := match lastIndexOf name '.' with
      | some dot => substring name dot name.length
      | none => ""
    substring name 0 16 ++ ext
  else name

def createDataConnection (connection : Transfer) : FTPServerConnection × List Effect :=
  ({ c with transfers := c.transfers ++ [connection] }.response 150 "Connecting",
    [.connect c.ip (c.port.setWidth 16)])

def opened : Transfer → List Effect
  | .list => []
  | .retrieve fileName => [.openRead fileName]
  | .store fileName => [.openWrite fileName]

def files : Transfer → List String → List String
  | .store fileName, names => if fileName ∈ names then names else names ++ [fileName]
  | _, names => names

/-- `createDataConnection(new …)`. -/
def transfer (connection : Transfer) : FTPServerConnection × List Effect :=
  let made := { c with server.files := files connection c.server.files }.createDataConnection connection
  (made.1, opened connection ++ made.2)

def authorize (cmd data : String) : FTPServerConnection :=
  if cmd = "USER" then { c with userName := data }.response 331 ""
  else if cmd = "PASS" then
    if checkUser c.server.users c.userName data then
      { c with userName := "", state := .active }.response 230 ""
    else c.response 430 ""
  else c.response 530 ""

/-- The commands after the login; the last is that of the server's own `onCommand`. -/
def serve (cmd data : String) : FTPServerConnection × List Effect :=
  if cmd = "SYST" then (c.response 215 "Windows_NT: Sming Framework", [])
  else if cmd = "PWD" then (c.response 257 "\"/\"", [])
  else if cmd = "PORT" then (c.cmdPort data, [])
  else if cmd = "CWD" then (c.response (if data = "/" then 250 else 550) "", [])
  else if cmd = "TYPE" then (c.response 250 "", [])
  else if cmd = "DELE" then
    let name := makeFileName data false
    if name ∈ c.server.files then
      ({ c with server.files := c.server.files.erase name }.response 250 "", [.delete name])
    else (c.response 550 "", [])
  else if cmd = "RETR" then c.transfer (.retrieve (makeFileName data false))
  else if cmd = "STOR" then c.transfer (.store (makeFileName data true))
  else if cmd = "LIST" then c.transfer .list
  else if cmd = "PASV" then (c.response 500 "Passive mode not supported", [])
  else if cmd = "NOOP" then (c.response 200 "", [])
  else if cmd = "FSFORMAT" then
    ({ c with server.files := [] }.response 200 "File system successfully formated", [.format])
  else (c.response 502 "Not supported", [])

def onCommand (cmd data : String) : FTPServerConnection × List Effect :=
  let cmd := toUpperCase cmd
  if cmd = "QUIT" then ({ c.response 221 "" with closed := true }, [])
  else
    match c.state with
    | .authorization => (c.authorize cmd data, [])
    | .active => c.serve cmd data
    | .ready => (c, [])

/-- Poll with space in the send buffer. -/
def onReadyToSendData : FTPServerConnection :=
  match c.state with
  | .ready => { c with sent := c.sent ++ ["220 Welcome to Sming FTP\r\n"], state := .authorization }
  | _ => c

def onSent : FTPServerConnection := { c with canTransfer := true }

/-- A data connection can send; a list is written and its connection is closed at once. -/
def dataReady (i : Nat) : Option (FTPServerConnection × List Effect) :=
  match c.transfers[i]? with
  | none => none
  | some .list =>
    if c.canTransfer then
      some ({ c with transfers := c.transfers.eraseIdx i }.response 226 "Transfer Complete.", [.list])
    else some (c, [])
  | some _ => some (c, [])

end FTPServerConnection

/-! ### The loop over a chain -/

structure Call where
  place : Nat
  cmd : String
  data : String
  deriving DecidableEq

def callAt (buf : Pbuf) (prev p : Nat) : Call :=
  match pbufFindChar buf ' ' prev with
  | some split =>
    if split < p then ⟨p, pbufStrCopy buf prev (split - prev), pbufStrCopy buf (split + 1) (p - (split + 1))⟩
    else ⟨p, pbufStrCopy buf prev (p - prev), ""⟩
  | none => ⟨p, pbufStrCopy buf prev (p - prev), ""⟩

def commandsFrom (buf : Pbuf) : Nat → Nat → Option (List Call)
  | 0, _ => some []
  | rounds + 1, prev =>
    match pbufFindStr buf '\r' ['\n'] prev with
    | none => none
    | some none => some []
    | some (some p) =>
      if MAX_FTP_CMD < p - prev then some []
      else (commandsFrom buf rounds (p + 1)).map (callAt buf prev p :: ·)

/-- The calls that one `onReceive` makes; `none` is a search that reads outside of a buffer
(C++ `FTPServerConnection::onReceive`). -/
def commands (buf : Pbuf) : Option (List Call) := commandsFrom buf (buf.flatten.length + 1) 0

end Sming.Network.Ftp
