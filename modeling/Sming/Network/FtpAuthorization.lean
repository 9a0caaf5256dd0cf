import Sming.Lib.Run
import Sming.Lib.Trace
import Sming.Network.FTPServerConnection

/-!
# Who may use the files

A session is the control connection together with what a reader of the bytes knows: the lines received so far, each
with the users registered then, and in between what was done to the files and to the network. A log is authorised if
everything done stands behind a line `PASS` with the password of the user whom the last line `USER` before it names.

The connection keeps a name of its own, not always that of the last line: a `USER` that comes before the welcome is
passed over, and of two lines in one chain the second is read with the line feed of the first in front. If every chain
is one line, and no `USER` comes before the welcome, the two names agree until the login.
-/

namespace Sming.Network.Ftp
open Sming.Lib Sming.Wiring Sming.Wiring.WString Sming.Network.NetUtils List Option

inductive Entry where
  | line (text : List Char) (users : HashMap String String)
  | effect (e : Effect)
  deriving DecidableEq

def commandWord (line : List Char) : String := String.ofList (before ' ' line)

def argument (line : List Char) : String := String.ofList (line.drop ((before ' ' line).length + 1))

def word (line : List Char) : String := toUpperCase (commandWord line)

def lastUser (log : List Entry) : String :=
  log.foldl (fun name entry => match entry with
    | .line text _ => if word text = "USER" then argument text else name
    | .effect _ => name) ""

def RightPassword (before : List Entry) : Entry → Prop
  | .line text users => word text = "PASS" ∧ checkUser users (lastUser before) (argument text) = true
  | .effect _ => False

instance (before : List Entry) : (entry : Entry) → Decidable (RightPassword before entry)
  | .line text users =>
    inferInstanceAs (Decidable (word text = "PASS" ∧ checkUser users (lastUser before) (argument text) = true))
  | .effect _ => .isFalse id

/-- The password has been given. -/
def Credited (log : List Entry) : Prop :=
  ∃ before entry after, log = before ++ entry :: after ∧ RightPassword before entry

lemma credited_iff_not_justified {log : List Entry} :
    Credited log ↔ ¬ Justified (fun before entry => ¬ RightPassword before entry) log := by
  simp only [Credited, Justified, not_forall, not_not, exists_prop]

instance (log : List Entry) : Decidable (Credited log) := decidable_of_iff _ credited_iff_not_justified.symm

instance (before : List Entry) : (entry : Entry) → Decidable (∀ e, entry = .effect e → Credited before)
  | .line _ _ => .isTrue fun e h => by cases h
  | .effect x => decidable_of_iff (Credited before) ⟨fun h _ _ => h, fun h => h x rfl⟩

def Authorized (log : List Entry) : Prop :=
  Justified (fun before entry => ∀ e, entry = .effect e → Credited before) log

instance (log : List Entry) : Decidable (Authorized log) := inferInstanceAs (Decidable (Justified _ log))

structure Session where
  connection : FTPServerConnection
  /-- The line that has not ended yet. -/
  pending : List Char := []
  log : List Entry := []
  deriving DecidableEq

inductive Event where
  | receive (buf : Pbuf)
  | ready
  | sent
  | data (i : Nat)
  | addUser (login pass : String)
  deriving DecidableEq

namespace Session

def start (server : FTPServer) : Session where connection := { server }

def hear (s : Session) (c : Char) : Session :=
  if c = '\n' ∧ s.pending.getLast? = some '\r' then
    { s with
      pending := []
      log := s.log ++ [.line s.pending.dropLast s.connection.server.users] }
  else { s with pending := s.pending ++ [c] }

def hearAll (s : Session) (bytes : List Char) : Session := bytes.foldl hear s

def acts (s : Session) (r : FTPServerConnection × List Effect) : Session :=
  { s with connection := r.1, log := s.log ++ r.2.map .effect }

/-- The calls that are made for the bytes from the place `q`, each when its line has been heard. -/
def handle (bytes : List Char) : Session → Nat → List Call → Option Session
  | s, q, [] => some (s.hearAll (bytes.drop q))
  | s, q, call :: calls =>
    if s.connection.closed then none
    else
      handle bytes ((s.hearAll ((bytes.drop q).take (call.place + 2 - q))).acts
        (s.connection.onCommand call.cmd call.data)) (call.place + 2) calls

def step (s : Session) : Event → Option Session
  | .addUser login pass =>
    (s.connection.server.addUser login pass).map fun server => { s with connection.server := server }
  | .receive buf =>
    if s.connection.closed then none else (commands buf).bind fun calls => s.handle buf.flatten 0 calls
  | .ready =>
    if s.connection.closed then none else some (s.acts (s.connection.onReadyToSendData, []))
  | .sent => if s.connection.closed then none else some (s.acts (s.connection.onSent, []))
  | .data i => if s.connection.closed then none else (s.connection.dataReady i).map s.acts

end Session

/-! ### Chains of one line -/

/-- The chain is the line and its end. The line has no carriage return and no NUL, and no buffer is empty. -/
structure IsLine (buf : Pbuf) (line : List Char) : Prop where
  full : ∀ b ∈ buf, b ≠ []
  bytes : buf.flatten = line ++ ['\r', '\n']
  short : line.length ≤ MAX_FTP_CMD
  cr : '\r' ∉ line
  nul : '\x00' ∉ line

instance (buf : Pbuf) (line : List Char) : Decidable (IsLine buf line) :=
  decidable_of_iff ((∀ b ∈ buf, b ≠ []) ∧ buf.flatten = line ++ ['\r', '\n'] ∧ line.length ≤ MAX_FTP_CMD ∧
      '\r' ∉ line ∧ '\x00' ∉ line)
    ⟨fun ⟨full, bytes, short, cr, nul⟩ => ⟨full, bytes, short, cr, nul⟩,
      fun h => ⟨h.full, h.bytes, h.short, h.cr, h.nul⟩⟩

def lineOf (buf : Pbuf) : List Char := buf.flatten.dropLast.dropLast

section
variable {buf : Pbuf} {line : List Char}

lemma IsLine.occurs (h : IsLine buf line) {q : Nat} (here : Occurs buf ['\r', '\n'] q) : q = line.length := by
  have first := here.first
  rw [h.bytes] at first
  obtain inside | behind := Nat.lt_or_ge q line.length
  · rw [getElem?_append_left inside] at first
    exact absurd (mem_of_getElem? first) h.cr
  · rw [getElem?_append_right behind] at first
    -- of the two bytes of the end only the first is a carriage return
    cases rest : q - line.length with
    | zero => omega
    | succ n =>
      rw [rest] at first
      cases n <;> simp at first

lemma IsLine.found (h : IsLine buf line) : pbufFindStr buf '\r' ['\n'] 0 = some (some line.length) := by
  obtain ⟨r, found, least⟩ := pbufFindStr_firstAt h.full '\r' ['\n'] 0
  have here : FirstAt (Occurs buf ['\r', '\n']) 0 (some line.length) := by
    refine ⟨Nat.zero_le _, ?_, fun q _ less at_q => Nat.ne_of_lt less (h.occurs at_q)⟩
    exact ⟨[], (append_nil _).trans (by rw [h.bytes, drop_left])⟩
  rwa [least.unique here] at found

lemma IsLine.not_found (h : IsLine buf line) : pbufFindStr buf '\r' ['\n'] (line.length + 1) = some none := by
  obtain ⟨r, found, least⟩ := pbufFindStr_firstAt h.full '\r' ['\n'] (line.length + 1)
  have none : FirstAt (Occurs buf ['\r', '\n']) (line.length + 1) none :=
    fun q behind at_q => Nat.ne_of_gt behind (h.occurs at_q)
  rwa [least.unique none] at found

lemma IsLine.copy (h : IsLine buf line) (q : Nat) :
    pbufStrCopy buf q (line.length - q) = String.ofList (line.drop q) := by
  have part : (buf.flatten.drop q).take (line.length - q) = line.drop q := by
    rw [h.bytes, ← drop_take, take_left]
  rw [pbufStrCopy, part, before_of_not_mem fun mem => h.nul (mem_of_mem_drop mem)]

lemma IsLine.callAt (h : IsLine buf line) :
    callAt buf 0 line.length = ⟨line.length, commandWord line, argument line⟩ := by
  have whole := h.copy 0
  rw [Nat.sub_zero, drop_zero] at whole
  have split : pbufFindChar buf ' ' 0 = if ' ' ∈ line then some (before ' ' line).length else none := by
    have end_ : ∀ c ∈ ['\r', '\n'], c ≠ ' ' := by simp
    rw [pbufFindChar_eq, drop_zero, findIdx?_eq_before, h.bytes]
    by_cases mem : ' ' ∈ line
    · rw [if_pos mem, if_pos (mem_append_left _ mem), before_append_of_mem mem]
      rfl
    · rw [if_neg mem, if_neg]
      · rfl
      · exact fun here => (mem_append.mp here).elim mem fun mem => end_ _ mem rfl
  rw [Ftp.callAt, split]
  by_cases mem : ' ' ∈ line
  · have shorter : (before ' ' line).length < line.length := by
      obtain ⟨more, cut⟩ := exists_before_append mem
      have := congrArg List.length cut
      simp only [List.length_append, length_cons] at this
      omega
    have first : pbufStrCopy buf 0 ((before ' ' line).length - 0) = commandWord line := by
      have inside : (before ' ' line).length ≤ line.length := Nat.le_of_lt shorter
      have cut : line.take (before ' ' line).length = before ' ' line :=
        (prefix_iff_eq_take.mp (before_isPrefix ' ' line)).symm
      rw [pbufStrCopy, drop_zero, Nat.sub_zero, h.bytes, take_append_of_le_length inside, cut, commandWord,
        before_of_not_mem fun nul => h.nul (mem_of_mem_before nul)]
    simp only [if_pos mem, if_pos shorter, first, h.copy, argument]
  · have all : before ' ' line = line := before_of_not_mem mem
    simp only [if_neg mem, Nat.sub_zero, whole, commandWord, argument, all]
    rw [drop_of_length_le (Nat.le_succ _)]

/-- One line is one call of `onCommand`, with its first word and with what stands behind that. -/
lemma IsLine.commands (h : IsLine buf line) : commands buf = some [⟨line.length, commandWord line, argument line⟩] := by
  have two : buf.flatten.length + 1 = line.length + 1 + 1 + 1 := by
    rw [h.bytes, List.length_append]
    rfl
  rw [Ftp.commands, two, commandsFrom, h.found]
  simp only [Nat.sub_zero, if_neg (Nat.not_lt.mpr h.short), h.callAt]
  rw [commandsFrom, h.not_found]
  rfl

end

namespace Session

variable {s t u : Session} {e : Event} {line : List Char}

lemma hearAll_text (open_ : '\r' ∉ s.pending ++ line) :
    s.hearAll line = { s with pending := s.pending ++ line } := by
  induction line generalizing s with
  | nil => simp [hearAll]
  | cons c line ih =>
    have heard : s.hear c = { s with pending := s.pending ++ [c] } := by
      apply if_neg
      rintro ⟨-, last⟩
      exact open_ (mem_append_left _ (mem_of_getLast? last))
    rw [hearAll, foldl_cons, heard, ← hearAll, ih]
    · rw [List.append_assoc]
      rfl
    · rw [List.append_assoc]
      exact open_

lemma hearAll_line (whole : s.pending = []) (cr : '\r' ∉ line) :
    s.hearAll (line ++ ['\r', '\n']) = { s with log := s.log ++ [.line line s.connection.server.users] } := by
  have text : s.hearAll line = { s with pending := line } := by
    rw [hearAll_text (by rwa [whole, nil_append]), whole, nil_append]
  have cr : hear { s with pending := line } '\r' = { s with pending := line ++ ['\r'] } :=
    if_neg fun h => absurd h.1 (by decide)
  have lf : hear { s with pending := line ++ ['\r'] } '\n' =
      { s with pending := [], log := s.log ++ [.line line s.connection.server.users] } := by
    rw [hear, if_pos ⟨rfl, getLast?_concat⟩, dropLast_concat]
  rw [hearAll] at text
  rw [hearAll, foldl_append, text, foldl_cons, cr, foldl_cons, lf, foldl_nil, whole]

lemma step_line {buf : Pbuf} (h : IsLine buf line) (whole : s.pending = []) (st : s.step (.receive buf) = some u) :
    u = acts { s with log := s.log ++ [.line line s.connection.server.users] }
      (s.connection.onCommand (commandWord line) (argument line)) := by
  obtain ⟨living, st⟩ := ite_none_left_eq_some.mp st
  have all : (buf.flatten.drop 0).take (line.length + 2 - 0) = line ++ ['\r', '\n'] := by
    rw [drop_zero, h.bytes]
    exact take_of_length_le (by simp)
  have none : buf.flatten.drop (line.length + 2) = [] := by
    rw [h.bytes]
    exact drop_of_length_le (by simp)
  simp only [h.commands, bind_some, handle, if_neg living, all, none, hearAll_line whole h.cr] at st
  exact (Option.some.inj st).symm

end Session

/-! ### The commands -/

def FTPServerConnection.Accepts (c : FTPServerConnection) (cmd data : String) : Prop :=
  c.state = .authorization ∧ toUpperCase cmd = "PASS" ∧ checkUser c.server.users c.userName data = true

/-- What a command can do: whatever it likes after the login, log in, or at most name the user. -/
inductive Commanded (c : FTPServerConnection) (cmd data : String) :
    FTPServerConnection × List Effect → Prop where
  | served {r} :
    c.state = .active →
    Commanded c cmd data r
  | accepted {r} :
    c.Accepts cmd data →
    Commanded c cmd data r
  | quiet {d : FTPServerConnection} :
    c.state ≠ .active →
    d.state = c.state →
    d.transfers = c.transfers →
    d.userName = (if c.state = .authorization ∧ toUpperCase cmd = "USER" then data else c.userName) →
    Commanded c cmd data (d, [])

lemma FTPServerConnection.onCommand_commanded (c : FTPServerConnection) (cmd data : String) :
    Commanded c cmd data (c.onCommand cmd data) := by
  rw [onCommand]
  split
  case isTrue quit =>
    by_cases active : c.state = .active
    · exact .served active
    · exact .quiet active rfl rfl (if_neg fun h => absurd (quit.symm.trans h.2) (by decide)).symm
  case isFalse =>
    split
    case h_1 state =>
      have inactive : c.state ≠ .active := by simp [state]
      rw [authorize]
      split
      case isTrue user => exact .quiet inactive rfl rfl (if_pos ⟨state, user⟩).symm
      case isFalse other =>
        have same : c.userName =
            if c.state = .authorization ∧ toUpperCase cmd = "USER" then data else c.userName :=
          (if_neg fun h => other h.2).symm
        split
        case isTrue pass =>
          split
          case isTrue right => exact .accepted ⟨state, pass, right⟩
          case isFalse => exact .quiet inactive rfl rfl same
        case isFalse => exact .quiet inactive rfl rfl same
    case h_2 state => exact .served state
    case h_3 state =>
      refine .quiet (by simp [state]) rfl rfl (if_neg fun h => ?_).symm
      cases state.symm.trans h.1

/-! ### Runs -/

/-- Every chain is one line, and no `USER` comes before the welcome. -/
def Session.Orderly (s : Session) : Event → Prop
  | .receive buf => IsLine buf (lineOf buf) ∧ (s.connection.state = .ready → word (lineOf buf) ≠ "USER")
  | _ => True

instance (s : Session) : (e : Event) → Decidable (s.Orderly e)
  | .receive _ => inferInstanceAs (Decidable (_ ∧ (_ → _)))
  | .ready | .sent | .data _ | .addUser _ _ => .isTrue trivial

def Session.Open (s : Session) : Prop := s.connection.state = .active ∨ s.connection.transfers ≠ []

structure Session.Good (s : Session) : Prop where
  whole : s.pending = []
  name : ¬ Credited s.log → s.connection.userName = lastUser s.log
  credited : s.Open → Credited s.log
  authorized : Authorized s.log

section
variable {log : List Entry} {s u : Session} {e : Event}

lemma lastUser_line (text : List Char) (users : HashMap String String) :
    lastUser (log ++ [.line text users]) = if word text = "USER" then argument text else lastUser log := by
  rw [lastUser, foldl_append]
  rfl

lemma Credited.append (h : Credited log) (more : List Entry) : Credited (log ++ more) := by
  obtain ⟨before, entry, after, rfl, right⟩ := h
  exact ⟨before, entry, after ++ more, by simp, right⟩

lemma authorized_line (h : Authorized log) (text : List Char) (users : HashMap String String) :
    Authorized (log ++ [.line text users]) := by
  refine justified_concat.mpr ⟨h, ?_⟩
  rintro e ⟨⟩

lemma authorized_effects (h : Authorized log) (credited : Credited log) (effects : List Effect) :
    Authorized (log ++ effects.map .effect) :=
  Justified.append h fun _ _ later _ _ => credited.append later

lemma Session.Good.frame (good : s.Good) (pending : u.pending = s.pending) (log : u.log = s.log)
    (name : u.connection.userName = s.connection.userName) (opened : u.Open → s.Open) : u.Good := by
  refine ⟨pending.trans good.whole, ?_, ?_, log ▸ good.authorized⟩
  · rw [log, name]
    exact good.name
  · rw [log]
    exact fun h => good.credited (opened h)

/-- After the password everything may be done. -/
lemma Session.good_acts (whole : s.pending = []) (authorized : Authorized s.log) (credited : Credited s.log)
    (r : FTPServerConnection × List Effect) : (s.acts r).Good := by
  have still : Credited (s.acts r).log := credited.append _
  exact ⟨whole, fun not => absurd still not, fun _ => still, authorized_effects authorized credited _⟩

/-- A line: `USER` sets the name, and only a `PASS` that fits it opens the session. -/
lemma Session.Good.receive (good : s.Good) {buf : Pbuf} (orderly : s.Orderly (.receive buf))
    (st : s.step (.receive buf) = some u) : u.Good := by
  obtain ⟨isLine, early⟩ := orderly
  generalize lineOf buf = line at isLine early
  rw [step_line isLine good.whole st]
  generalize log : s.log ++ [.line line s.connection.server.users] = lined
  have authorized : Authorized lined := log ▸ authorized_line good.authorized line _
  have kept (credited : Credited s.log) : Credited lined := log ▸ credited.append _
  have named : lastUser lined = if word line = "USER" then argument line else lastUser s.log := log ▸ lastUser_line line _
  have did := s.connection.onCommand_commanded (commandWord line) (argument line)
  generalize s.connection.onCommand (commandWord line) (argument line) = r at did
  cases did with
  | served active => exact @good_acts { s with log := lined } good.whole authorized (kept (good.credited (.inl active))) _
  | accepted accepts =>
    obtain ⟨-, pass, right⟩ := accepts
    have credited : Credited lined := by
      by_cases before : Credited s.log
      · exact kept before
      · refine ⟨s.log, _, [], log.symm, pass, ?_⟩
        rwa [← good.name before]
    exact @good_acts { s with log := lined } good.whole authorized credited _
  | quiet inactive same transfers name =>
    refine ⟨good.whole, fun not => ?_, fun opened => ?_, ?_⟩
    · rw [acts, map_nil, append_nil] at not ⊢
      rw [named]
      refine name.trans ?_
      by_cases user : word line = "USER"
      · have state : s.connection.state = .authorization := by
          cases state : s.connection.state with
          | ready => exact absurd user (early state)
          | authorization => rfl
          | active => exact absurd state inactive
        rw [if_pos ⟨state, user⟩, if_pos user]
      · rw [if_neg fun h => user h.2, if_neg user]
        exact good.name fun credited => not (kept credited)
    · rw [acts, map_nil, append_nil]
      exact kept (good.credited (opened.imp same.symm.trans fun some => transfers ▸ some))
    · rwa [acts, map_nil, append_nil]

lemma Session.Good.step (good : s.Good) (orderly : s.Orderly e) (st : s.step e = some u) : u.Good := by
  cases e with
  | receive buf => exact good.receive orderly st
  | addUser login pass =>
    obtain ⟨server, -, rfl⟩ := map_eq_some_iff.mp st
    exact good.frame rfl rfl rfl id
  | ready =>
    obtain ⟨-, st⟩ := ite_none_left_eq_some.mp st
    cases st
    rw [FTPServerConnection.onReadyToSendData]
    split
    case h_1 =>
      refine good.frame rfl (append_nil _) rfl fun opened => ?_
      -- the welcome leads to the authorization only
      exact .inr (opened.resolve_left nofun)
    case h_2 => exact good.frame rfl (append_nil _) rfl id
  | sent =>
    obtain ⟨-, st⟩ := ite_none_left_eq_some.mp st
    cases st
    exact good.frame rfl (append_nil _) rfl id
  | data i =>
    obtain ⟨-, st⟩ := ite_none_left_eq_some.mp st
    obtain ⟨r, ready, rfl⟩ := map_eq_some_iff.mp st
    have credited : Credited s.log := by
      refine good.credited (.inr fun none => ?_)
      rw [FTPServerConnection.dataReady, none] at ready
      cases ready
    exact good_acts good.whole good.authorized credited _

/-- Every chain is one line of at most `MAX_FTP_CMD` bytes, and no `USER` comes before the welcome: then everything that
is done stands behind the password of the user whom the last `USER` before it names. -/
theorem ftp_authorized {server : FTPServer} {es : List Event} (run : Run Session.step Session.Orderly (.start server) es s) :
    Authorized s.log := by
  have good : s.Good := by
    refine @Run.invariant _ _ Session.step Session.Orderly Session.Good _ _ _ run ?_ ?_
    · refine ⟨rfl, fun _ => rfl, ?_, justified_nil⟩
      rintro (active | some)
      · cases active
      · exact absurd rfl some
    · exact fun good orderly st => good.step orderly st
  exact good.authorized

end

def oneUser (login pass : String) : FTPServer := { users := ({} : HashMap String String).set login pass }

def login : List Event :=
  [.ready, .receive ["USER ali".toList, "ce\r\n".toList], .receive ["PASS x\r\n".toList], .receive ["LIST\r\n".toList],
    .data 0]

theorem ftp_authorized_login :
    ∃ s, exec Session.step Session.Orderly (.start (oneUser "alice" "x")) login = some s ∧
      .effect (.connect "" 0) ∈ s.log ∧ Authorized s.log := by
  obtain ⟨s, done, listed⟩ : ∃ s, exec Session.step Session.Orderly (.start (oneUser "alice" "x")) login = some s ∧
      .effect (.connect "" 0) ∈ s.log := exists_exec (by decide +kernel)
  exact ⟨s, done, listed, ftp_authorized (exec_run done)⟩

/-- A data connection is made without the password of the user that the last line `USER` names: the line came before the
welcome, and the connection has passed it over. -/
theorem ftp_lists_for_other_user :
    ¬ ∀ (server : FTPServer) (es : List Event) (s : Session),
      Run Session.step Always (.start server) es s → Authorized s.log := by
  intro all
  obtain ⟨s, run, bad⟩ : ∃ s, exec Session.step Always (.start (oneUser "" "x"))
      [.receive ["USER alice\r\n".toList], .ready, .receive ["PASS x\r\n".toList], .receive ["LIST\r\n".toList]] = some s ∧
      ¬ Authorized s.log := exists_exec (by decide +kernel)
  exact bad (all _ _ s (exec_run run))

end Sming.Network.Ftp
