import TemplateCatalog.Json.Parser

/-!
# Scalar values of TOML

Strings in their four notations, whole numbers in four bases, decimals,
booleans, dates and times. Every value is read as the JSON value of its kind; a
date or time becomes a record that holds its text.
-/

namespace TemplateCatalog

namespace Toml

export Json (Reader)

def isWs (c : Char) : Bool := c == ' ' || c == '\t'

def skipWs (cs : List Char) : List Char := cs.dropWhile isWs

/-- The characters behind a line break, which is a line feed or a carriage return with one. -/
def newline? : List Char → Option (List Char)
  | '\n' :: rest => some rest
  | '\r' :: '\n' :: rest => some rest
  | _ => none

/-- What comments and strings may hold: no control character but the tab. -/
def isText (c : Char) : Bool := c == '\t' || (0x20 ≤ c.toNat && c.toNat ≠ 0x7F)

/-! ## Strings -/

def escape? : Char → Option Char
  | 'b' => some '\x08'
  | 't' => some '\t'
  | 'n' => some '\n'
  | 'f' => some '\x0c'
  | 'r' => some '\r'
  | '"' => some '"'
  | '\\' => some '\\'
  | _ => none

/-- The character of a code, if the code is that of a character. -/
def scalar? (n : Nat) : Option Char := if n.isValidChar then some (Char.ofNat n) else none

def escapeCode? (digits : List Char) : Option Char := (hexValue? digits).bind scalar?

/-- Whether blanks and a line break follow. -/
def endsLine (cs : List Char) : Bool := (newline? (skipWs cs)).isSome

/-- Reads the rest of a basic string on one line; `acc` holds what was read, reversed. -/
def basicTail (acc : List Char) : Reader String
  | '"' :: rest => some (String.ofList acc.reverse, rest)
  | '\\' :: 'u' :: a :: b :: c :: d :: rest =>
    match escapeCode? [a, b, c, d] with
    | some x => basicTail (x :: acc) rest
    | none => none
  | '\\' :: 'U' :: a :: b :: c :: d :: e :: f :: g :: h :: rest =>
    match escapeCode? [a, b, c, d, e, f, g, h] with
    | some x => basicTail (x :: acc) rest
    | none => none
  | '\\' :: c :: rest =>
    match escape? c with
    | some x => basicTail (x :: acc) rest
    | none => none
  | c :: rest => if isText c && c != '\\' then basicTail (c :: acc) rest else none
  | [] => none

/-- Reads the rest of a basic string over many lines. After a backslash that ends a line, blanks
and line breaks are skipped. -/
def longBasicTail (skipping : Bool) (acc : List Char) : Reader String
  | '"' :: '"' :: '"' :: '"' :: '"' :: rest => some (String.ofList ('"' :: '"' :: acc).reverse, rest)
  | '"' :: '"' :: '"' :: '"' :: rest => some (String.ofList ('"' :: acc).reverse, rest)
  | '"' :: '"' :: '"' :: rest => some (String.ofList acc.reverse, rest)
  | '\\' :: 'u' :: a :: b :: c :: d :: rest =>
    match escapeCode? [a, b, c, d] with
    | some x => longBasicTail false (x :: acc) rest
    | none => none
  | '\\' :: 'U' :: a :: b :: c :: d :: e :: f :: g :: h :: rest =>
    match escapeCode? [a, b, c, d, e, f, g, h] with
    | some x => longBasicTail false (x :: acc) rest
    | none => none
  | '\\' :: c :: rest =>
    match escape? c with
    | some x => longBasicTail false (x :: acc) rest
    | none => if endsLine (c :: rest) then longBasicTail true acc (c :: rest) else none
  | '\r' :: '\n' :: rest => longBasicTail skipping (if skipping then acc else '\n' :: acc) rest
  | '\n' :: rest => longBasicTail skipping (if skipping then acc else '\n' :: acc) rest
  | c :: rest =>
    if skipping && isWs c then longBasicTail true acc rest
    else if isText c && c != '\\' then longBasicTail false (c :: acc) rest
    else none
  | [] => none

/-- Reads the rest of a literal string on one line. -/
def literalTail (acc : List Char) : Reader String
  | '\x27' :: rest => some (String.ofList acc.reverse, rest)
  | c :: rest => if isText c then literalTail (c :: acc) rest else none
  | [] => none

/-- Reads the rest of a literal string over many lines. -/
def longLiteralTail (acc : List Char) : Reader String
  | '\x27' :: '\x27' :: '\x27' :: '\x27' :: '\x27' :: rest =>
    some (String.ofList ('\x27' :: '\x27' :: acc).reverse, rest)
  | '\x27' :: '\x27' :: '\x27' :: '\x27' :: rest => some (String.ofList ('\x27' :: acc).reverse, rest)
  | '\x27' :: '\x27' :: '\x27' :: rest => some (String.ofList acc.reverse, rest)
  | '\r' :: '\n' :: rest => longLiteralTail ('\n' :: acc) rest
  | '\n' :: rest => longLiteralTail ('\n' :: acc) rest
  | c :: rest => if isText c then longLiteralTail (c :: acc) rest else none
  | [] => none

/-- A line break right behind the opening quotes does not count. -/
def dropFirstNewline (cs : List Char) : List Char := (newline? cs).getD cs

/-- A string in any notation, from its opening quotes on. -/
def string : Reader String
  | '"' :: '"' :: '"' :: rest => longBasicTail false [] (dropFirstNewline rest)
  | '"' :: rest => basicTail [] rest
  | '\x27' :: '\x27' :: '\x27' :: rest => longLiteralTail [] (dropFirstNewline rest)
  | '\x27' :: rest => literalTail [] rest
  | _ => none

/-! ## Numbers -/

/-- The digits of a run in which single underscores may stand between digits. -/
def digitRun? (ok : Char → Bool) : List Char → Option (List Char)
  | [] => none
  | [c] => if ok c then some [c] else none
  | c :: '_' :: rest => if ok c then (digitRun? ok rest).map (c :: ·) else none
  | c :: rest => if ok c then (digitRun? ok rest).map (c :: ·) else none

/-- A number in a base, given the value of its digits. -/
def based? (base : Nat) (digits : List Char) : Option Nat := do
  let run ← digitRun? (fun c => (hexDigitValue? c).any (· < base)) digits
  return run.foldl (fun n c => base * n + (hexDigitValue? c).getD 0) 0

/-- A decimal number without leading zeros. -/
def plainDigits? (cs : List Char) : Option (List Char) := do
  let run ← digitRun? isDigit cs
  if run.head? == some '0' && run.length > 1 then none else some run

/-- The sign of a number and the characters behind it. -/
def signed : List Char → Bool × List Char
  | '-' :: rest => (true, rest)
  | '+' :: rest => (false, rest)
  | cs => (false, cs)

def signedValue (negative : Bool) (n : Nat) : Int := if negative then -(n : Int) else n

/-- Whole numbers have 64 bits and a sign. -/
def inWord (n : Int) : Option Int :=
  if -0x8000000000000000 ≤ n && n < 0x8000000000000000 then some n else none

def integer? (cs : List Char) : Option Int :=
  match cs with
  | '0' :: 'x' :: digits => (based? 16 digits).bind fun n => inWord n
  | '0' :: 'o' :: digits => (based? 8 digits).bind fun n => inWord n
  | '0' :: 'b' :: digits => (based? 2 digits).bind fun n => inWord n
  | _ =>
    let (negative, digits) := signed cs
    (plainDigits? digits).bind fun run =>
      (decimalValue? run).bind fun n => inWord (signedValue negative n)

/-- Stands for infinity and for what is no number: only the kind of such a value matters. -/
def anyDouble : Double := .zero false

/-- A number with a fraction, an exponent, or both. Only a positive one is held to the range of a
double. -/
def float? (cs : List Char) : Option Double := do
  let (negative, cs) := signed cs
  let isExponent (c : Char) : Bool := c == 'e' || c == 'E'
  let mantissa := cs.takeWhile fun c => !isExponent c
  let exponentText := cs.dropWhile fun c => !isExponent c
  let whole ← plainDigits? (mantissa.takeWhile (· != '.'))
  let fraction ← match mantissa.dropWhile (· != '.') with
    | [] => if exponentText.isEmpty then none else some []
    | _ :: digits => digitRun? isDigit digits
  let exponent ← match exponentText with
    | [] => some (0 : Int)
    | _ :: digits =>
      let (negative, digits) := signed digits
      ((digitRun? isDigit digits).bind decimalValue?).map (signedValue negative)
  let n ← decimalValue? (whole ++ fraction)
  let value := Double.ofDecimal? negative n (exponent - fraction.length)
  if negative then some (value.getD anyDouble) else value

/-- The words for infinity and for what is no number. -/
def specialFloat? (cs : List Char) : Option Double :=
  let (_, name) := signed cs
  if name == ['i', 'n', 'f'] || name == ['n', 'a', 'n'] then some anyDouble else none

/-! ## Dates and times -/

/-- A number of fixed width within bounds. -/
def field? (width low high : Nat) (cs : List Char) : Option Nat := do
  if cs.length ≠ width then none
  let n ← decimalValue? cs
  if low ≤ n && n ≤ high then some n else none

def isLeapYear (year : Nat) : Bool := year % 4 = 0 && (year % 100 ≠ 0 || year % 400 = 0)

def daysOfMonth (year month : Nat) : Nat :=
  if month = 2 then if isLeapYear year then 29 else 28
  else if month = 4 || month = 6 || month = 9 || month = 11 then 30
  else 31

/-- `yyyy-mm-dd` -/
def isDate (cs : List Char) : Bool :=
  cs.length == 10 && cs[4]? == some '-' && cs[7]? == some '-' &&
    (((field? 4 0 9999 (cs.take 4)).bind fun year =>
      (field? 2 1 12 ((cs.drop 5).take 2)).bind fun month =>
        field? 2 1 (daysOfMonth year month) (cs.drop 8)).isSome)

/-- `hh:mm` -/
def isHourMinute (cs : List Char) : Bool :=
  cs.length == 5 && cs[2]? == some ':' && (field? 2 0 23 (cs.take 2)).isSome &&
    (field? 2 0 59 (cs.drop 3)).isSome

/-- `hh:mm:ss`, optionally with a fraction of a second. -/
def isTime (cs : List Char) : Bool :=
  isHourMinute (cs.take 5) && cs[5]? == some ':' &&
    (field? 2 0 60 ((cs.drop 6).take 2)).isSome &&
    match cs.drop 8 with
    | [] => true
    | '.' :: digits => !digits.isEmpty && digits.all isDigit
    | _ => false

/-- A time with or without an offset from universal time. -/
def isOffsetTime (cs : List Char) : Bool :=
  let time := cs.takeWhile fun c => isDigit c || c == ':' || c == '.'
  isTime time &&
    match cs.drop time.length with
    | [] => true
    | ['Z'] => true
    | ['z'] => true
    | '+' :: offset => isHourMinute offset
    | '-' :: offset => isHourMinute offset
    | _ => false

def isDateTime (cs : List Char) : Bool :=
  isTime cs || isDate cs ||
    (isDate (cs.take 10) && (cs[10]? == some 'T' || cs[10]? == some 't') &&
      isOffsetTime (cs.drop 11))

def dateTime (cs : List Char) : Json := .obj [("datetime", .str (String.ofList cs))]

/-! ## Scalars -/

/-- Characters of words, numbers, dates and times. -/
def isWordChar (c : Char) : Bool :=
  c.isAlphanum || c == '+' || c == '-' || c == '_' || c == '.' || c == ':'

def wordValue? (cs : List Char) : Option Json :=
  if cs == ['t', 'r', 'u', 'e'] then some (.bool true)
  else if cs == ['f', 'a', 'l', 's', 'e'] then some (.bool false)
  else
    ((integer? cs).map .int)
    |>.or ((float? cs).map .double)
    |>.or ((specialFloat? cs).map .double)
    |>.or (if isDateTime cs then some (dateTime cs) else none)

/-- A date may be parted from its time by a blank. -/
def word : Reader Json := fun cs =>
  let text := cs.takeWhile isWordChar
  let rest := cs.dropWhile isWordChar
  match rest with
  | ' ' :: more =>
    let time := more.takeWhile isWordChar
    if isDate text && isOffsetTime time then
      some (dateTime (text ++ ' ' :: time), more.dropWhile isWordChar)
    else (wordValue? text).map fun j => (j, rest)
  | _ => (wordValue? text).map fun j => (j, rest)

def scalar : Reader Json := fun cs =>
  match cs with
  | '"' :: _ => (string cs).map fun (s, rest) => (.str s, rest)
  | '\x27' :: _ => (string cs).map fun (s, rest) => (.str s, rest)
  | _ => word cs

end Toml

end TemplateCatalog
