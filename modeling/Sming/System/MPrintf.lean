import Sming.System.StringConversion

/-!
# Formatted text

Embedding of `m_vsnprintf` of `Sming/system/m_printf.cpp`. A format is the text in front of its terminator; `none` says
that the format is read behind the terminator, or that an argument is missing or of another kind. Numbers with a
fraction (`%f`) are left out.
-/

namespace Sming.System
open Sming.Lib

inductive PrintfArg where
  | int (v : Int32)
  | str (s : Option (List Char))
  deriving Repr, DecidableEq

/-- The number at the start of the format, as the code keeps it, and the rest. -/
def skipAtoi (fmt : List Char) : Nat × List Char :=
  ((fmt.takeWhile Char.isDigit).foldl (fun i c => i * 10 + (c.toNat - 48)) 0, fmt.dropWhile Char.isDigit)

/-- What stands between a `%` and the letter of the conversion. -/
structure Conversion where
  minus : Bool
  pad : Char
  width : Int8
  precision : Int8
  deriving Repr, DecidableEq

/-- The attributes at the start of the format and what comes behind them. -/
def attributes (fmt : List Char) : Conversion × List Char :=
  let flags := fmt.takeWhile fun f => f = '-' || f = '+' || f = ' ' || f = '#'
  let fmt := fmt.dropWhile fun f => f = '-' || f = '+' || f = ' ' || f = '#'
  let (pad, fmt) := if fmt.head? = some '0' then ('0', fmt.drop 1) else (' ', fmt)
  let (width, fmt) := skipAtoi fmt
  let (precision, fmt) :=
    if fmt.head? = some '.' then
      if (fmt.drop 1).head?.any Char.isDigit then
        (Int8.ofNat (skipAtoi (fmt.drop 1)).1, (skipAtoi (fmt.drop 1)).2)
      else (-1, fmt.drop 1)
    else (-1, fmt)
  (⟨flags.contains '-', pad, Int8.ofNat width, precision⟩,
    fmt.dropWhile fun f => f = 'l' || f = 'h' || f = 'L')

def textOf (c : Conversion) (s : Option (List Char)) : List Char :=
  let s := s.getD "(null)".toList
  let s := if 0 ≤ c.precision ∧ c.precision.toInt < s.length then s.take c.precision.toInt.toNat else s
  let padding := List.replicate (c.width.toInt - s.length).toNat ' '
  if c.minus then s ++ padding else padding ++ s

/-- The text of one conversion and the arguments behind it. -/
def convert (c : Conversion) (f : Char) (args : List PrintfArg) : Option (List Char × List PrintfArg) :=
  if f = '%' then some (['%'], args)
  else if f = 'c' then
    match args with
    | .int v :: args => some ([Char.ofNat (v.toInt % 256).toNat], args)
    | _ => none
  else if f = 's' then
    match args with
    | .str s :: args => some (textOf c s, args)
    | _ => none
  else if f = 'p' then
    match args with
    | .int v :: args => some (ultoaWp v.toUInt32 16 0 ' ', args)
    | _ => none
  else if f = 'd' || f = 'i' then
    match args with
    | .int v :: args => some (ltoaWp v 10 c.width.toInt32 c.pad, args)
    | _ => none
  else if f = 'o' || f = 'x' || f = 'X' || f = 'u' then
    match args with
    | .int v :: args =>
      some (ultoaWp v.toUInt32 (if f = 'o' then 8 else if f = 'u' then 10 else 16) c.width.toInt32 c.pad, args)
    | _ => none
  else if f = 'f' then none
  else some (['%', f], args)

/-- Everything that the format adds. A round takes at least one character of the format, so `fuel` rounds are enough
for as many. -/
def render : Nat → List Char → List PrintfArg → Option (List Char)
  | _, [], _ => some []
  | 0, _ :: _, _ => none
  | fuel + 1, c :: fmt, args =>
    if c ≠ '%' then (render fuel fmt args).map (c :: ·)
    else
      match (attributes fmt).2 with
      | [] => none
      | f :: rest => do
        let (text, args) ← convert (attributes fmt).1 f args
        (render fuel rest args).map (text ++ ·)

/-- The C string that C++ `m_snprintf` leaves in a buffer of `maxLen` bytes. -/
def mSnprintf (maxLen : Nat) (fmt : String) (args : List PrintfArg) : Option (List Char) :=
  (render fmt.length fmt.toList args).map fun text => before '\x00' (text.take (maxLen - 1))

end Sming.System
