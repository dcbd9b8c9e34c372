import TemplateCatalog.Model.Version
import Mathlib.Algebra.Ring.Nat

/-!
# Texts of identifiers and versions

Identifiers and versions are exchanged as texts. What is written for one is read
as the same one again, although the readers also take other spellings.

Results:
1. `hexValue?_hexDigits`, `decimalValue?_toDigits`: digits denote the number that
   they are written for.
2. `Id.ofText?_text`: an identifier is read from its text.
3. `TemplateVersion.ofText?_text`: a version is read from its text.
-/

namespace TemplateCatalog

/-! ## Hexadecimal digits -/

theorem hexDigitValue?_hexDigit : ∀ n < 16, hexDigitValue? (hexDigit n) = some n := by decide

theorem hexDigits_length (width n : Nat) : (hexDigits width n).length = width := by
  induction width generalizing n with
  | zero => rfl
  | succ width ih => rw [hexDigits, List.length_append, ih, List.length_singleton]

theorem hexValue?_append (cs : List Char) (c : Char) : hexValue? (cs ++ [c]) =
    (hexValue? cs).bind fun n => (hexDigitValue? c).map (16 * n + ·) := by
  simp [hexValue?, Option.bind_eq_bind]

theorem hexValue?_hexDigits (width n : Nat) :
    hexValue? (hexDigits width n) = some (n % 16 ^ width) := by
  induction width generalizing n with
  | zero => simp [hexDigits, hexValue?, Nat.mod_one]
  | succ width ih =>
    have digit := hexDigitValue?_hexDigit (n % 16) (Nat.mod_lt n (by decide))
    rw [hexDigits, hexValue?_append, ih, Option.bind_some, digit, Option.map_some, Nat.pow_succ',
      Nat.mod_mul, Nat.add_comm]

/-! ## Identifiers -/

namespace Uuid

/-- The hyphenated form of five groups is read as their digits. -/
theorem ofHyphenated?_groups {a b c d e : List Char} (ha : a.length = 8) (hb : b.length = 4)
    (hc : c.length = 4) (hd : d.length = 4) (he : e.length = 12) :
    ofHyphenated? (a ++ '-' :: b ++ '-' :: c ++ '-' :: d ++ '-' :: e) =
      ofDigits? (a ++ b ++ c ++ d ++ e) := by
  simp [ofHyphenated?, List.drop_append, List.drop_eq_nil_of_le, ha, hb, hc, hd, he]

theorem groups_append {ds : List Char} :
    ds.take 8 ++ (ds.drop 8).take 4 ++ (ds.drop 12).take 4 ++ (ds.drop 16).take 4 ++ ds.drop 20 =
      ds := by
  simp [← List.take_add]

theorem ofDigits?_hexDigits (u : Uuid) : ofDigits? (hexDigits 32 u.bits.toNat) = some u := by
  have fits : u.bits.toNat % 16 ^ 32 = u.bits.toNat := Nat.mod_eq_of_lt u.bits.isLt
  rw [ofDigits?, if_pos (hexDigits_length 32 _), hexValue?_hexDigits, fits, Option.map_some,
    BitVec.ofNat_toNat, BitVec.setWidth_eq]

theorem ofText?_text (u : Uuid) : ofText? u.text = some u := by
  have length := hexDigits_length 32 u.bits.toNat
  have read : ofHyphenated? u.text = some u := by
    rw [text, ofHyphenated?_groups, groups_append, ofDigits?_hexDigits] <;> simp [length]
  have short : u.text.length = 36 := by simp [text, length]
  simp [ofText?, short, read]

end Uuid

theorem Id.ofText?_text {kind : IdKind} (id : Id kind) : ofText? id.text = some id := by
  rw [ofText?, text, String.toList_ofList, Uuid.ofText?_text]
  rfl

/-! ## Decimal digits -/

theorem isDigit_of_mem_toDigits {n : Nat} {c : Char} (h : c ∈ Nat.toDigits 10 n) :
    isDigit c = true := by
  have digit := Nat.isDigit_of_mem_toDigits (by decide) (by decide) h
  simpa [isDigit, Char.isDigit, Char.le_def] using digit

theorem decimalValue?_toDigits (n : Nat) : decimalValue? (Nat.toDigits 10 n) = some n := by
  have digits : (Nat.toDigits 10 n).all isDigit = true :=
    List.all_eq_true.mpr fun _ => isDigit_of_mem_toDigits
  have notEmpty : (Nat.toDigits 10 n).isEmpty = false :=
    List.isEmpty_eq_false_iff.mpr Nat.toDigits_ne_nil
  have value : Nat.ofDigitChars 10 (Nat.toDigits 10 n) 0 = n :=
    Nat.ofDigitChars_toDigits (by decide) (by decide)
  rw [Nat.ofDigitChars_eq_foldl] at value
  rw [decimalValue?, digits, notEmpty]
  exact congrArg some value

/-! ## Pieces of a text -/

section

variable {separator c : Char} {cs rest piece : List Char} {pieces : List (List Char)}

theorem splitAt_cons_of_ne (other : c ≠ separator) (h : splitAt separator rest = piece :: pieces) :
    splitAt separator (c :: rest) = (c :: piece) :: pieces := by
  rw [splitAt, h]
  exact if_neg other

theorem exists_splitAt (separator : Char) (cs : List Char) :
    ∃ piece pieces, splitAt separator cs = piece :: pieces := by
  cases cs with
  | nil => exact ⟨[], [], rfl⟩
  | cons c rest =>
    unfold splitAt
    split
    · exact ⟨[c], [], rfl⟩
    · split
      · exact ⟨_, _, rfl⟩
      · exact ⟨_, _, rfl⟩

theorem splitAt_of_not_mem (h : separator ∉ cs) : splitAt separator cs = [cs] := by
  induction cs with
  | nil => rfl
  | cons c rest ih =>
    obtain ⟨other, behind⟩ := not_or.mp fun listed => h (List.mem_cons.mpr listed)
    exact splitAt_cons_of_ne (Ne.symm other) (ih behind)

theorem splitAt_append (h : separator ∉ cs) :
    splitAt separator (cs ++ separator :: rest) = cs :: splitAt separator rest := by
  induction cs with
  | nil =>
    obtain ⟨piece, pieces, split⟩ := exists_splitAt separator rest
    rw [List.nil_append, splitAt, split]
    exact if_pos rfl
  | cons c cs ih =>
    obtain ⟨other, behind⟩ := not_or.mp fun listed => h (List.mem_cons.mpr listed)
    exact splitAt_cons_of_ne (Ne.symm other) (ih behind)

theorem dropWhile_isBlank (h : ∀ c ∈ cs, isBlank c = false) : cs.dropWhile isBlank = cs := by
  cases cs with
  | nil => rfl
  | cons c rest => rw [List.dropWhile_cons, h c List.mem_cons_self, if_neg Bool.false_ne_true]

theorem trimBlanks_of_not_isBlank (h : ∀ c ∈ cs, isBlank c = false) : trimBlanks cs = cs := by
  have reversed : ∀ c ∈ cs.reverse, isBlank c = false := fun c hc => h c (List.mem_reverse.mp hc)
  rw [trimBlanks, dropWhile_isBlank h, dropWhile_isBlank reversed, List.reverse_reverse]

/-- Digits, signs and letters of ASCII are not blank. -/
theorem not_isBlank (low : 0x20 < c.toNat) (high : c.toNat < 0x80) : isBlank c = false := by
  simp only [isBlank, blankRanges, List.any_cons, List.any_nil, Bool.or_false, Bool.or_eq_false_iff,
    Bool.and_eq_false_iff, decide_eq_false_iff_not]
  omega

theorem not_isBlank_of_isDigit (h : isDigit c = true) : isBlank c = false := by
  obtain ⟨low, high⟩ : 48 ≤ c.toNat ∧ c.toNat ≤ 57 := by
    simpa [isDigit, Char.le_def, UInt32.le_iff_toNat_le] using h
  exact not_isBlank (by omega) (by omega)

end

/-! ## Versions -/

namespace TemplateVersion

theorem component?_toDigits (n : UInt32) : component? (Nat.toDigits 10 n.toNat) = some n := by
  have small : n.toNat < UInt32.size := n.toNat_lt_size
  have unsigned : ∀ rest, Nat.toDigits 10 n.toNat ≠ '+' :: rest := by
    intro rest signed
    have digit : isDigit '+' = true := isDigit_of_mem_toDigits (signed ▸ List.mem_cons_self)
    exact absurd digit (by decide)
  unfold component?
  split
  · next signed => exact absurd signed (unsigned _)
  · simp [decimalValue?_toDigits, small]

theorem toList_text (v : TemplateVersion) : v.text.toList =
    Nat.toDigits 10 v.major.toNat ++ '.' :: (Nat.toDigits 10 v.minor.toNat ++ '.' ::
      Nat.toDigits 10 v.patch.toNat) := by
  have component (n : UInt32) : (toString n).toList = Nat.toDigits 10 n.toNat := by
    rw [← String.toList_ofList (l := Nat.toDigits 10 n.toNat), ← Nat.toString_eq_ofList_toDigits]
    rfl
  have dot : (toString ".").toList = ['.'] := rfl
  simp [text, component, dot]

theorem ofText?_text (v : TemplateVersion) : ofText? v.text = some v := by
  have noDot (n : Nat) : '.' ∉ Nat.toDigits 10 n := fun h =>
    absurd (isDigit_of_mem_toDigits h) (by decide)
  have noBlank (n : Nat) : ∀ c ∈ Nat.toDigits 10 n, isBlank c = false := fun _ h =>
    not_isBlank_of_isDigit (isDigit_of_mem_toDigits h)
  have trimmed : trimBlanks v.text.toList = v.text.toList := by
    refine trimBlanks_of_not_isBlank ?_
    rw [toList_text]
    simp only [List.forall_mem_append, List.forall_mem_cons]
    exact ⟨noBlank _, by decide, noBlank _, by decide, noBlank _⟩
  rw [ofText?, trimmed, toList_text, splitAt_append (noDot _), splitAt_append (noDot _),
    splitAt_of_not_mem (noDot _)]
  simp [component?_toDigits]

end TemplateVersion

end TemplateCatalog
