import Sming.Network.FTPServerConnection
import Sming.Wiring.IPAddress

/-!
# The command PORT

The argument is six numbers, four of the address and two of the port. Such an argument is read as it should be
(`cmdPort_argument`). But an argument with too few commas is answered with a failure and then read all the same, and
nothing else is ever refused, so every argument is answered with a success in the end (`cmdPort_obeys_iff`).
-/

namespace Sming.Network.Ftp
open Sming.Lib Sming.Wiring Sming.Wiring.WString List Option

/-- Six decimal numbers up to 255. -/
structure PortArgument where
  (h1 h2 h3 h4 p1 p2 : Octet)

namespace PortArgument

variable (a : PortArgument)

def host (separator : Char) : List Char :=
  a.h1.text ++ separator :: (a.h2.text ++ separator :: (a.h3.text ++ separator :: a.h4.text))

def text : List Char := a.host ',' ++ ',' :: (a.p1.text ++ ',' :: a.p2.text)

def ip : IPAddress := #v[a.h1.value, a.h2.value, a.h3.value, a.h4.value]

def port : Nat := 256 * a.p1.value.toNat + a.p2.value.toNat

lemma not_mem_host {c separator : Char} (h : c.isDigit = false) (ne : c ≠ separator) : c ∉ a.host separator := by
  simp [host, a.h1.not_mem h, a.h2.not_mem h, a.h3.not_mem h, a.h4.not_mem h, ne]

lemma length_text : 11 ≤ a.text.length := by
  have ne : ∀ o : Octet, 0 < o.text.length := fun o => length_pos_iff.mpr o.ne_nil
  have := ne a.h1
  have := ne a.h2
  have := ne a.h3
  have := ne a.h4
  have := ne a.p1
  have := ne a.p2
  simp [text, host]
  omega

lemma replace_host : WString.replace (String.ofList (a.host ',')) ',' '.' = String.ofList (a.host '.') := by
  have same : ∀ o : Octet, o.text.map (fun c => if c = ',' then '.' else c) = o.text := by
    intro o
    conv_rhs => rw [← List.map_id o.text]
    refine map_congr_left fun c mem => if_neg ?_
    exact ne_of_mem_of_not_mem mem (o.not_mem (by decide))
  rw [WString.replace, String.toList_ofList, before_of_not_mem (a.not_mem_host (by decide) (by decide)), drop_length,
    append_nil]
  simp [host, same]

end PortArgument

namespace FTPServerConnection

variable {c : FTPServerConnection} {d : Char} {cs : List Char}

lemma splitterPos_append (absent : d ∉ cs) (rest : List Char) (i number : Nat) :
    splitterPos d (cs ++ d :: rest) i number =
      if number = 0 then some (i + cs.length) else splitterPos d rest (i + cs.length + 1) (number - 1) := by
  induction cs generalizing i with
  | nil => exact if_pos rfl
  | cons c cs ih =>
    rw [mem_cons, not_or] at absent
    rw [cons_append, splitterPos, if_neg (Ne.symm absent.1), ih absent.2, length_cons, Nat.add_right_comm]
    rfl

variable {data : String} {a : PortArgument}

lemma substring_cut {front part back : List Char} (cut : data.toList = front ++ (part ++ back)) (whole : '\x00' ∉ part)
    {left right : Nat} (l : left = front.length) (r : right = front.length + part.length) :
    substring data left right = String.ofList part := by
  rw [← String.ofList_toList (s := data), cut, substring_part front part back l r, before_of_not_mem whole]

lemma port_eq (p q : UInt8) :
    (BitVec.ofInt 32 p.toNat <<< 8) ||| BitVec.ofInt 32 q.toNat = BitVec.ofNat 32 (256 * p.toNat + q.toNat) := by
  have hp := p.toNat_lt
  have hq := q.toNat_lt
  have sum := Nat.shiftLeft_add_eq_or_of_lt hq p.toNat
  apply BitVec.eq_of_toNat_eq
  rw [BitVec.ofInt_natCast, BitVec.ofInt_natCast, BitVec.toNat_or, BitVec.toNat_shiftLeft, BitVec.toNat_ofNat,
    BitVec.toNat_ofNat, BitVec.toNat_ofNat, Nat.mod_eq_of_lt (by omega : p.toNat < 2 ^ 32),
    Nat.mod_eq_of_lt (by omega : q.toNat < 2 ^ 32), Nat.mod_eq_of_lt (by rw [Nat.shiftLeft_eq]; omega), ← sum,
    Nat.shiftLeft_eq]
  omega

section
variable (eq : data.toList = a.text)
include eq

lemma getSplitterPos_argument :
    getSplitterPos data ',' 3 = some (a.host ',').length ∧
    getSplitterPos data ',' 4 = some ((a.host ',').length + 1 + a.p1.text.length) := by
  have absent : ∀ o : Octet, ',' ∉ o.text := fun o => o.not_mem (by decide)
  rw [getSplitterPos, getSplitterPos, eq, PortArgument.text, PortArgument.host]
  simp only [List.append_assoc, cons_append, splitterPos_append (absent _)]
  simp
  omega

lemma substring_host : substring data 0 (a.host ',').length = String.ofList (a.host ',') := by
  have cut : data.toList = [] ++ (a.host ',' ++ ',' :: (a.p1.text ++ ',' :: a.p2.text)) := eq
  exact substring_cut cut (a.not_mem_host (by decide) (by decide)) rfl (Nat.zero_add _).symm

lemma substring_p1 :
    substring data ((a.host ',').length + 1) ((a.host ',').length + 1 + a.p1.text.length) = String.ofList a.p1.text := by
  have cut : data.toList = (a.host ',' ++ [',']) ++ (a.p1.text ++ ',' :: a.p2.text) := by
    rw [eq, PortArgument.text]
    simp
  exact substring_cut cut (a.p1.not_mem (by decide)) (by simp) (by simp)

lemma substring_p2 :
    substring data ((a.host ',').length + 1 + a.p1.text.length + 1) data.length = String.ofList a.p2.text := by
  have cut : data.toList = (a.host ',' ++ ',' :: (a.p1.text ++ [','])) ++ (a.p2.text ++ []) := by
    rw [eq, PortArgument.text]
    simp
  refine substring_cut cut (a.p2.not_mem (by decide)) (by simp; omega) ?_
  rw [← String.length_toList, cut, append_nil, List.length_append]

lemma cmdPort_argument :
    c.cmdPort data = { c with ip := String.ofList (a.host '.'), port := BitVec.ofNat 32 a.port }.response 200 "" := by
  obtain ⟨three, four⟩ := getSplitterPos_argument eq
  have p1 := substring_p1 eq
  have p2 := substring_p2 eq
  rw [cmdPort, four, three]
  simp only [index, behind, getD_some, map_some, substring_host eq, a.replace_host, p1, p2,
    Octet.toInt_text, port_eq, reduceCtorEq, if_false]
  rfl

end

/-! ### What the command should do -/

/-- A correct argument sets the address and the port and is answered with a success. Any other is answered with one
error and changes nothing. -/
structure Obeys (c d : FTPServerConnection) (data : String) : Prop where
  accepts : ∀ a : PortArgument, data.toList = a.text →
    IPAddress.fromString d.ip = a.ip ∧ d.port = BitVec.ofNat 32 a.port ∧ ∃ text, d.sent = (c.response 200 text).sent
  refuses : (∀ a : PortArgument, data.toList ≠ a.text) →
    IPAddress.fromString d.ip = IPAddress.fromString c.ip ∧ d.port = c.port ∧
    ∃ code text, 400 ≤ code ∧ code ≤ 599 ∧ d.sent = (c.response code text).sent

lemma cmdPort_sent (c : FTPServerConnection) (data : String) :
    ∃ before, (c.cmdPort data).sent = before ++ ["200 OK\r\n"] := ⟨_, rfl⟩

lemma response_sent (c : FTPServerConnection) (code : Nat) (text : String) :
    ∃ ending, (c.response code text).sent = c.sent ++ [toString code ++ ending] := by
  rw [response]
  simp only [String.append_assoc]
  exact ⟨_, rfl⟩

lemma head_error : ∀ code < 600, 400 ≤ code →
    (toString code).toList.head? = some '4' ∨ (toString code).toList.head? = some '5' := by
  decide +kernel

lemma not_obeys (none : ∀ a : PortArgument, data.toList ≠ a.text) : ¬ Obeys c (c.cmdPort data) data := by
  intro obeys
  obtain ⟨-, -, code, text, low, high, sent⟩ := obeys.refuses none
  obtain ⟨before, success⟩ := cmdPort_sent c data
  obtain ⟨ending, error⟩ := response_sent c code text
  have same : "200 OK\r\n" = toString code ++ ending := by
    rw [success, error] at sent
    exact List.singleton_inj.mp (append_inj_right' sent rfl)
  have head : (toString code).toList.head?.or ending.toList.head? = some '2' := by
    rw [← head?_append, ← String.toList_append, ← same]
    rfl
  rcases head_error code (by omega) low with four | five
  · rw [four, some_or] at head
    exact absurd head (by decide)
  · rw [five, some_or] at head
    exact absurd head (by decide)

/-- Exactly the correct arguments are treated as they should be. -/
theorem cmdPort_obeys_iff (c : FTPServerConnection) (data : String) :
    Obeys c (c.cmdPort data) data ↔ ∃ a : PortArgument, data.toList = a.text := by
  constructor
  · intro obeys
    by_contra none
    exact not_obeys (fun a eq => none ⟨a, eq⟩) obeys
  · rintro ⟨b, eq⟩
    refine ⟨fun a eq => ?_, fun none => absurd eq (none b)⟩
    rw [cmdPort_argument eq]
    exact ⟨IPAddress.fromString_dotted a.h1 a.h2 a.h3 a.h4, rfl, "", rfl⟩

/-- An argument with a number missing is answered with an error and with a success. -/
theorem cmdPort_accepts_five_numbers :
    ¬ (∀ (c : FTPServerConnection) (data : String), Obeys c (c.cmdPort data) data) := by
  intro all
  refine not_obeys (fun a eq => ?_) (all { server := {} } "1,2,3,4,5")
  have short := congrArg List.length eq
  have long := a.length_text
  rw [← short] at long
  exact absurd long (by decide)

end FTPServerConnection

end Sming.Network.Ftp
