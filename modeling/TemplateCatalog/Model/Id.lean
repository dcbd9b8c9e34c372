import TemplateCatalog.Text.Digits

/-!
# Identifiers

Everything that is stored is addressed by a 128-bit identifier. The kind of the
thing is part of the identifier's type, so that an element is never looked up
by the identifier of an item.

An identifier is written as 32 lowercase hexadecimal digits in groups of 8, 4,
4, 4 and 12. It is also read without hyphens, in braces, or after `urn:uuid:`;
letters are read in either case.
-/

namespace TemplateCatalog

@[ext]
structure Uuid where
  bits : BitVec 128
  deriving DecidableEq, Inhabited

namespace Uuid

/-- The groups of hexadecimal digits, joined by hyphens. -/
def text (u : Uuid) : List Char :=
  let digits := hexDigits 32 u.bits.toNat
  digits.take 8 ++ '-' :: (digits.drop 8).take 4 ++ '-' :: (digits.drop 12).take 4 ++
    '-' :: (digits.drop 16).take 4 ++ '-' :: digits.drop 20

def ofDigits? (digits : List Char) : Option Uuid :=
  if digits.length = 32 then (hexValue? digits).map fun n => ⟨BitVec.ofNat 128 n⟩ else none

/-- Reads the hyphenated form. -/
def ofHyphenated? (cs : List Char) : Option Uuid :=
  if cs.length = 36 && cs[8]? == some '-' && cs[13]? == some '-' && cs[18]? == some '-' &&
      cs[23]? == some '-' then
    ofDigits? (cs.take 8 ++ (cs.drop 9).take 4 ++ (cs.drop 14).take 4 ++ (cs.drop 19).take 4 ++
      cs.drop 24)
  else none

def urnScheme : List Char := "urn:uuid:".toList

/-- Reads any of the four accepted forms. -/
def ofText? (cs : List Char) : Option Uuid :=
  if cs.length = 32 then ofDigits? cs
  else if cs.length = 38 && cs.head? == some '\x7b' && cs.getLast? == some '\x7d' then
    ofHyphenated? (cs.drop 1).dropLast
  else if cs.length = 45 && (cs.take 9).map Char.toLower == urnScheme then
    ofHyphenated? (cs.drop 9)
  else ofHyphenated? cs

end Uuid

/-- What an identifier stands for. -/
inductive IdKind where
  | item
  | reference
  | element
  | unit
  | domain
  | template
  | profile
  deriving DecidableEq, Repr

@[ext]
structure Id (kind : IdKind) where
  uuid : Uuid
  deriving DecidableEq, Inhabited

abbrev ItemId := Id .item
abbrev ReferenceId := Id .reference
abbrev ElementId := Id .element
abbrev UnitId := Id .unit
abbrev DomainId := Id .domain
abbrev TemplateId := Id .template
abbrev ProfileId := Id .profile

namespace Id

variable {kind : IdKind}

def text (id : Id kind) : String := String.ofList id.uuid.text

def ofText? (text : String) : Option (Id kind) := (Uuid.ofText? text.toList).map Id.mk

/-- Identifiers are ordered by their digits. -/
def le (a b : Id kind) : Bool := a.uuid.bits.toNat ≤ b.uuid.bits.toNat

end Id

instance {kind : IdKind} : ToString (Id kind) := ⟨Id.text⟩

instance {kind : IdKind} : Repr (Id kind) := ⟨fun id _ => id.text⟩

/-- The distinct identifiers of a list in increasing order. -/
def sortIds {kind : IdKind} (ids : List (Id kind)) : List (Id kind) :=
  ids.eraseDups.mergeSort Id.le

end TemplateCatalog
