import TemplateCatalog.Json.Value
import TemplateCatalog.Text.Digits

/-!
# Reading words, numbers and strings of JSON text

A reader takes the characters that are left and returns what it read with the
characters behind it. A number that is not whole is read in two steps: its
first digits make a significand of 64 bits, and this is scaled by a power of
ten in the arithmetic of doubles.

Two things follow the grammar and still cannot be read: a
number beyond the range of a double, and a string in which a surrogate stands
without its partner.
-/

namespace TemplateCatalog

namespace Json

/-- Reads from the front of a list of characters. -/
abbrev Reader (α : Type) := List Char → Option (α × List Char)

/-- Reads a word that must stand at the front. -/
def word (w : String) (value : Json) : Reader Json := fun cs =>
  if w.toList.isPrefixOf cs then some (value, cs.drop w.length) else none

/-! ## Numbers -/

/-- Whole numbers below this one have 64 bits. -/
def wordSize : Nat := 0x10000000000000000

/-- Appends digits to a number as long as 64 bits hold it; the digits from the first one that does
not fit are left over. -/
def appendDigits (n : Nat) : List Char → Nat × List Char
  | [] => (n, [])
  | c :: rest =>
    let longer := 10 * n + digitValue c
    if longer < wordSize then appendDigits longer rest else (n, c :: rest)

/-- The number `± significand * 10 ^ exponent`. -/
def scaled (negative : Bool) (significand : Nat) (exponent : Int) : Json :=
  match (Double.ofDecimal? negative significand 0).bind fun d => d.scale? exponent with
  | some d => .double d
  | none => .unreadable

/-- A number without fraction and exponent is whole if 64 bits hold it with its sign; `-0` is a
double. -/
def wholeNumber (negative : Bool) (n : Nat) : Json :=
  if negative then
    if n = 0 || n > 0x8000000000000000 then scaled true n 0 else .int (-(n : Int))
  else .int n

/-- The digits of an exponent after its letter, with their sign. -/
def exponentPart (cs : List Char) : Option (Int × List Char) :=
  let (negative, cs) := match cs with
    | '-' :: rest => (true, rest)
    | '+' :: rest => (false, rest)
    | _ => (false, cs)
  (decimalValue? (cs.takeWhile isDigit)).map fun n =>
    (if negative then -(n : Int) else (n : Int), cs.dropWhile isDigit)

/-- The fraction and exponent that may follow the whole part of a number. A digit that is left over
counts as a factor of ten in the whole part and for nothing in the fraction. -/
def numberTail (negative : Bool) (whole : List Char) : Reader Json := fun cs => do
  let (fraction, cs) ← match cs with
    | '.' :: rest =>
      let digits := rest.takeWhile isDigit
      if digits.isEmpty then none else some (some digits, rest.dropWhile isDigit)
    | _ => some (none, cs)
  let (exponent, cs) ← match cs with
    | 'e' :: rest | 'E' :: rest => (exponentPart rest).map fun (e, cs) => (some e, cs)
    | _ => some (none, cs)
  let (n, extra) := appendDigits 0 whole
  match fraction, exponent with
  | none, none =>
    return (if extra.isEmpty then wholeNumber negative n else scaled negative n extra.length, cs)
  | _, _ =>
    let digits := fraction.getD []
    let (n, left) := appendDigits n digits
    let places : Int := digits.length - left.length
    return (scaled negative n (extra.length - places + exponent.getD 0), cs)

/-- A number starts with `0` alone or with a run of digits that has no leading zero. -/
def number : Reader Json := fun cs =>
  let (negative, cs) := match cs with
    | '-' :: rest => (true, rest)
    | _ => (false, cs)
  match cs with
  | '0' :: rest => numberTail negative ['0'] rest
  | c :: _ =>
    if isDigit c then numberTail negative (cs.takeWhile isDigit) (cs.dropWhile isDigit) else none
  | [] => none

/-! ## Strings -/

def escape? : Char → Option Char
  | '"' => some '"'
  | '\\' => some '\\'
  | '/' => some '/'
  | 'b' => some '\x08'
  | 'f' => some '\x0c'
  | 'n' => some '\n'
  | 'r' => some '\r'
  | 't' => some '\t'
  | _ => none

/-- Reads the codes of a string up to its closing quote. An escape of four digits gives any code,
a surrogate too; `acc` holds what was read, reversed. -/
def codesTail (acc : List Nat) : Reader (List Nat)
  | '"' :: rest => some (acc.reverse, rest)
  | '\\' :: 'u' :: a :: b :: c :: d :: rest =>
    match hexValue? [a, b, c, d] with
    | some code => codesTail (code :: acc) rest
    | none => none
  | '\\' :: c :: rest =>
    match escape? c with
    | some c => codesTail (c.toNat :: acc) rest
    | none => none
  | c :: rest => if c.toNat < 0x20 || c == '\\' then none else codesTail (c.toNat :: acc) rest
  | [] => none

def isHighSurrogate (n : Nat) : Bool := 0xD800 ≤ n && n ≤ 0xDBFF

def isLowSurrogate (n : Nat) : Bool := 0xDC00 ≤ n && n ≤ 0xDFFF

/-- The character that a pair of surrogates stands for. -/
def surrogatePair (high low : Nat) : Char :=
  Char.ofNat (0x10000 + (high - 0xD800) * 0x400 + (low - 0xDC00))

/-- The text that codes stand for, unless a surrogate is without its partner. -/
def textOfCodes? (acc : List Char) : List Nat → Option String
  | [] => some (String.ofList acc.reverse)
  | code :: rest =>
    if isHighSurrogate code then
      match rest with
      | low :: rest =>
        if isLowSurrogate low then textOfCodes? (surrogatePair code low :: acc) rest else none
      | [] => none
    else if isLowSurrogate code then none
    else textOfCodes? (Char.ofNat code :: acc) rest

/-- Reads a string; there is no text if the string cannot be read. -/
def quoted : Reader (Option String)
  | '"' :: rest => (codesTail [] rest).map fun (codes, cs) => (textOfCodes? [] codes, cs)
  | _ => none

/-! ## Scalars -/

def scalar : Reader Json
  | 'n' :: rest => word "ull" .null rest
  | 't' :: rest => word "rue" (.bool true) rest
  | 'f' :: rest => word "alse" (.bool false) rest
  | '"' :: rest => (quoted ('"' :: rest)).map fun (s, cs) => (s.elim .unreadable .str, cs)
  | cs => number cs

end Json

end TemplateCatalog
