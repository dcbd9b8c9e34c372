import TemplateCatalog.Json.Value
import TemplateCatalog.Number.Decimal
import TemplateCatalog.Text.Digits

/-!
# Writing JSON text

`pretty` writes one entry a line, with an indentation of two spaces a level. A
double is written as its shortest decimal: positionally while the point stands
within sixteen digits, else with an exponent. What cannot be read is written as
null.
-/

namespace TemplateCatalog

namespace Decimal

def zeros (n : Nat) : String := String.ofList (List.replicate n '0')

/-- The digits with the point in its place. -/
def text (d : Decimal) : String :=
  if d.digits = 0 then "0.0"
  else
    let digits := Nat.toDigits 10 d.digits
    let count := digits.length
    let point : Int := count + d.exponent
    if 0 ≤ d.exponent && point ≤ 16 then
      String.ofList digits ++ zeros d.exponent.toNat ++ ".0"
    else if 0 < point && point ≤ 16 then
      String.ofList (digits.take point.toNat) ++ "." ++ String.ofList (digits.drop point.toNat)
    else if -5 < point && point ≤ 0 then "0." ++ zeros (-point).toNat ++ String.ofList digits
    else
      let tail := if count = 1 then "" else "." ++ String.ofList (digits.drop 1)
      String.ofList (digits.take 1) ++ tail ++ "e" ++ toString (point - 1)

end Decimal

def Double.text (d : Double) : String := (if d.negative then "-" else "") ++ d.shortest.text

namespace Json

/-- A character inside a string: control characters, quotes and backslashes are escaped. -/
def escaped (c : Char) : List Char :=
  match c with
  | '"' => ['\\', '"']
  | '\\' => ['\\', '\\']
  | '\x08' => ['\\', 'b']
  | '\x0c' => ['\\', 'f']
  | '\n' => ['\\', 'n']
  | '\r' => ['\\', 'r']
  | '\t' => ['\\', 't']
  | c => if c.toNat < 0x20 then '\\' :: 'u' :: hexDigits 4 c.toNat else [c]

def quote (s : String) : String := "\"" ++ String.ofList (s.toList.flatMap escaped) ++ "\""

/-- The start of a line that stands `level` levels deep. -/
def newline (level : Nat) : String := "\n" ++ String.ofList (List.replicate (2 * level) ' ')

/-- Lines between brackets, one level deeper than the brackets. -/
def block (level : Nat) (opening closing : String) (lines : List String) : String :=
  if lines.isEmpty then opening ++ closing
  else
    opening ++ newline (level + 1) ++ ("," ++ newline (level + 1)).intercalate lines ++
      newline level ++ closing

mutual

def prettyAt (level : Nat) : Json → String
  | .arr items => block level "[" "]" (prettyAll level items)
  | .obj entries => block level "\x7b" "\x7d" (prettyEntries level entries)
  | .null | .unreadable => "null"
  | .bool b => if b then "true" else "false"
  | .int n => toString n
  | .double d => d.text
  | .str s => quote s

def prettyAll (level : Nat) : List Json → List String
  | [] => []
  | j :: rest => prettyAt (level + 1) j :: prettyAll level rest

def prettyEntries (level : Nat) : List (String × Json) → List String
  | [] => []
  | (key, j) :: rest =>
    (quote key ++ ": " ++ prettyAt (level + 1) j) :: prettyEntries level rest

end

def pretty (j : Json) : String := prettyAt 0 j

end Json

end TemplateCatalog
