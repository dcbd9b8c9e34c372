import Mathlib.Data.List.Induction
import Mathlib.Data.List.TakeWhile
import TemplateCatalog.Proofs.Exchange.Text
import TemplateCatalog.Proofs.Model.Version

/-!
# The grammar of versions

A version is written as three components with dots between them, and blanks may
stand before and behind. A component is a numeral that fits into 32 bits, with
an optional plus sign. `Numeral`, `Component` and `Spells` say this rule by rule,
without the reader.

A component holds no blank and no dot, so a text can be taken apart in one way
only, and the reader takes it apart in this way.

Results:
1. `decimalValue?_eq_some_iff`, `component?_eq_some_iff`: numerals and components
   are read exactly as the grammar has them.
2. `splitAt_cons`: the first piece of a text ends at the first separator.
3. `exists_trimBlanks`, `trimBlanks_append`: blanks come off at both ends.
4. `TemplateVersion.ofText?_eq_some_iff`: a text is read as a version exactly if
   it spells the version.
5. `TemplateVersion.parse_grammar`: the same with the error of any other text,
   the way back from a version to its text, and the order of versions.
-/

namespace TemplateCatalog

/-! ## Numerals -/

/-- A run of decimal digits and the number that it denotes. -/
inductive Numeral : List Char → Nat → Prop
  | digit {c : Char} : isDigit c = true → Numeral [c] (digitValue c)
  | snoc {cs : List Char} {n : Nat} {c : Char} :
      Numeral cs n → isDigit c = true → Numeral (cs ++ [c]) (10 * n + digitValue c)

namespace Numeral

variable {cs : List Char} {n : Nat}

theorem isDigit_of_mem (h : Numeral cs n) : ∀ c ∈ cs, isDigit c = true := by
  induction h with
  | digit single => exact List.forall_mem_singleton.mpr single
  | snoc _ last ih => exact List.forall_mem_append.mpr ⟨ih, List.forall_mem_singleton.mpr last⟩

theorem ne_nil (h : Numeral cs n) : cs ≠ [] := by
  cases h with
  | digit => exact List.cons_ne_nil _ _
  | snoc => simp

theorem not_signed {rest : List Char} : ¬ Numeral ('+' :: rest) n := by
  intro h
  exact absurd (h.isDigit_of_mem '+' List.mem_cons_self) (by decide)

theorem foldl_eq (h : Numeral cs n) : cs.foldl (fun n c => 10 * n + digitValue c) 0 = n := by
  induction h with
  | digit => simp
  | snoc _ _ ih => rw [List.foldl_append, ih, List.foldl_cons, List.foldl_nil]

theorem of_digits (notEmpty : cs ≠ []) (digits : ∀ c ∈ cs, isDigit c = true) :
    Numeral cs (cs.foldl (fun n c => 10 * n + digitValue c) 0) := by
  induction cs using List.reverseRecOn with
  | nil => exact absurd rfl notEmpty
  | append_singleton cs c ih =>
    obtain ⟨front, last⟩ := List.forall_mem_append.mp digits
    rw [List.forall_mem_singleton] at last
    rw [List.foldl_append, List.foldl_cons, List.foldl_nil]
    cases cs with
    | nil => simpa using Numeral.digit last
    | cons first rest => exact .snoc (ih (List.cons_ne_nil _ _) front) last

end Numeral

theorem decimalValue?_eq_some_iff {cs : List Char} {n : Nat} :
    decimalValue? cs = some n ↔ Numeral cs n := by
  have digits : (cs.isEmpty || !cs.all isDigit) = false ↔
      cs ≠ [] ∧ ∀ c ∈ cs, isDigit c = true := by
    simp
  unfold decimalValue?
  split
  · next refused =>
    refine iff_of_false nofun fun h => ?_
    rw [digits.mpr ⟨h.ne_nil, h.isDigit_of_mem⟩] at refused
    cases refused
  · next run =>
    obtain ⟨notEmpty, all⟩ := digits.mp (Bool.not_eq_true _ ▸ run)
    rw [Option.some_inj]
    exact ⟨fun h => h ▸ .of_digits notEmpty all, Numeral.foldl_eq⟩

/-! ## Pieces of a text -/

/-- The first piece ends at the first separator, and the others are the pieces behind it. -/
theorem splitAt_cons {separator : Char} {cs piece : List Char} {pieces : List (List Char)}
    (h : splitAt separator cs = piece :: pieces) :
    separator ∉ piece ∧ (pieces = [] ∧ cs = piece ∨
      ∃ rest, cs = piece ++ separator :: rest ∧ splitAt separator rest = pieces) := by
  induction cs generalizing piece pieces with
  | nil =>
    cases h
    exact ⟨List.not_mem_nil, .inl ⟨rfl, rfl⟩⟩
  | cons c rest ih =>
    obtain ⟨next, others, split⟩ := exists_splitAt separator rest
    rw [splitAt, split] at h
    dsimp only at h
    split at h
    · next here =>
      cases h
      exact ⟨List.not_mem_nil, .inr ⟨rest, by rw [here, List.nil_append], split⟩⟩
    · next other =>
      cases h
      obtain ⟨clean, ends⟩ := ih split
      refine ⟨fun listed => ?_, ?_⟩
      · rcases List.mem_cons.mp listed with rfl | listed
        · exact other rfl
        · exact clean listed
      · rcases ends with ⟨rfl, rfl⟩ | ⟨behind, rfl, pieces⟩
        · exact .inl ⟨rfl, rfl⟩
        · exact .inr ⟨behind, rfl, pieces⟩

/-- A text has three pieces exactly if two separators stand in it. -/
theorem splitAt_eq_three_iff {separator : Char} {cs a b c : List Char} :
    splitAt separator cs = [a, b, c] ↔
      cs = a ++ separator :: (b ++ separator :: c) ∧
        separator ∉ a ∧ separator ∉ b ∧ separator ∉ c := by
  constructor
  · intro h
    obtain ⟨ha, ⟨none, -⟩ | ⟨rest, rfl, second⟩⟩ := splitAt_cons h
    · cases none
    obtain ⟨hb, ⟨none, -⟩ | ⟨rest, rfl, third⟩⟩ := splitAt_cons second
    · cases none
    obtain ⟨hc, ⟨-, rfl⟩ | ⟨rest, -, fourth⟩⟩ := splitAt_cons third
    · exact ⟨rfl, ha, hb, hc⟩
    · obtain ⟨_, _, split⟩ := exists_splitAt separator rest
      cases split.symm.trans fourth
  · rintro ⟨rfl, ha, hb, hc⟩
    rw [splitAt_append ha, splitAt_append hb, splitAt_of_not_mem hc]

/-! ## Blanks at the ends -/

theorem exists_trimBlanks (cs : List Char) :
    ∃ before behind, cs = before ++ trimBlanks cs ++ behind ∧
      (∀ c ∈ before, isBlank c = true) ∧ ∀ c ∈ behind, isBlank c = true := by
  let inner := cs.dropWhile isBlank
  have ends : inner = trimBlanks cs ++ (inner.reverse.takeWhile isBlank).reverse := by
    rw [trimBlanks, ← List.reverse_append, List.takeWhile_append_dropWhile, List.reverse_reverse]
  refine ⟨cs.takeWhile isBlank, (inner.reverse.takeWhile isBlank).reverse, ?_, ?_, ?_⟩
  · rw [List.append_assoc, ← ends]
    exact List.takeWhile_append_dropWhile.symm
  · exact fun c hc => List.mem_takeWhile_imp hc
  · exact fun c hc => List.mem_takeWhile_imp (List.mem_reverse.mp hc)

theorem trimBlanks_append {before core behind : List Char} (notEmpty : core ≠ [])
    (hbefore : ∀ c ∈ before, isBlank c = true) (hcore : ∀ c ∈ core, isBlank c = false)
    (hbehind : ∀ c ∈ behind, isBlank c = true) :
    trimBlanks (before ++ core ++ behind) = core := by
  have front : (before ++ core ++ behind).dropWhile isBlank = core ++ behind := by
    rw [List.append_assoc, List.dropWhile_append_of_pos hbefore]
    obtain ⟨c, rest, rfl⟩ := List.exists_cons_of_ne_nil notEmpty
    rw [List.cons_append, List.dropWhile_cons, hcore c List.mem_cons_self,
      if_neg Bool.false_ne_true]
  have blanks : ∀ c ∈ behind.reverse, isBlank c = true :=
    fun c hc => hbehind c (List.mem_reverse.mp hc)
  have others : ∀ c ∈ core.reverse, isBlank c = false :=
    fun c hc => hcore c (List.mem_reverse.mp hc)
  rw [trimBlanks, front, List.reverse_append, List.dropWhile_append_of_pos blanks,
    dropWhile_isBlank others, List.reverse_reverse]

/-! ## Versions -/

namespace TemplateVersion

/-- A numeral that fits into 32 bits, with a plus sign or without. -/
inductive Component : List Char → Nat → Prop
  | unsigned {cs : List Char} {n : Nat} : Numeral cs n → n ≤ 4294967295 → Component cs n
  | signed {cs : List Char} {n : Nat} : Numeral cs n → n ≤ 4294967295 → Component ('+' :: cs) n

/-- Three components with dots between them, and blanks around all of it. -/
inductive Spells (text : String) (v : TemplateVersion) : Prop
  | intro {before major minor patch behind : List Char} :
      text.toList = before ++ (major ++ '.' :: (minor ++ '.' :: patch)) ++ behind →
      (∀ c ∈ before, isBlank c = true) → (∀ c ∈ behind, isBlank c = true) →
      Component major v.major.toNat → Component minor v.minor.toNat →
      Component patch v.patch.toNat → Spells text v

theorem Component.sign_or_digit {cs : List Char} {n : Nat} (h : Component cs n) :
    ∀ c ∈ cs, c = '+' ∨ isDigit c = true := by
  intro c hc
  cases h with
  | unsigned digits _ => exact .inr (digits.isDigit_of_mem c hc)
  | signed digits _ =>
    rcases List.mem_cons.mp hc with sign | hc
    · exact .inl sign
    · exact .inr (digits.isDigit_of_mem c hc)

theorem Component.not_isBlank {cs : List Char} {n : Nat} (h : Component cs n) :
    ∀ c ∈ cs, isBlank c = false := by
  intro c hc
  rcases h.sign_or_digit c hc with rfl | digit
  · decide
  · exact not_isBlank_of_isDigit digit

theorem Component.dot_not_mem {cs : List Char} {n : Nat} (h : Component cs n) : '.' ∉ cs := by
  intro listed
  exact absurd (h.sign_or_digit '.' listed) (by decide)

theorem component?_eq_some_iff {cs : List Char} {n : UInt32} :
    component? cs = some n ↔ Component cs n.toNat := by
  have read (digits : List Char) :
      ((decimalValue? digits).bind fun k =>
          if k < UInt32.size then some (UInt32.ofNat k) else none) = some n ↔
        Numeral digits n.toNat := by
    rw [← decimalValue?_eq_some_iff, Option.bind_eq_some_iff]
    constructor
    · rintro ⟨k, value, fits⟩
      split at fits
      · next small =>
        cases fits
        rw [value, UInt32.toNat_ofNat_of_lt' small]
      · cases fits
    · intro value
      exact ⟨n.toNat, value, by rw [if_pos n.toNat_lt_size, UInt32.ofNat_toNat]⟩
  have small : n.toNat ≤ 4294967295 := Nat.le_of_lt_succ n.toNat_lt_size
  unfold component?
  split
  · next rest =>
    refine (read rest).trans ⟨fun digits => .signed digits small, fun h => ?_⟩
    cases h with
    | unsigned digits _ => exact absurd digits Numeral.not_signed
    | signed digits _ => exact digits
  · next unsigned =>
    refine (read cs).trans ⟨fun digits => .unsigned digits small, fun h => ?_⟩
    cases h with
    | unsigned digits _ => exact digits
    | signed => exact absurd rfl (unsigned _)

/-- A text is read as a version exactly if it spells the version. -/
theorem ofText?_eq_some_iff {text : String} {v : TemplateVersion} :
    ofText? text = some v ↔ Spells text v := by
  constructor
  · intro h
    unfold ofText? at h
    split at h
    · next major minor patch pieces =>
      obtain ⟨a, ha, h⟩ := Option.bind_eq_some_iff.mp h
      obtain ⟨b, hb, h⟩ := Option.bind_eq_some_iff.mp h
      obtain ⟨c, hc, h⟩ := Option.bind_eq_some_iff.mp h
      cases h
      obtain ⟨before, behind, around, hbefore, hbehind⟩ := exists_trimBlanks text.toList
      rw [(splitAt_eq_three_iff.mp pieces).1] at around
      exact .intro around hbefore hbehind (component?_eq_some_iff.mp ha)
        (component?_eq_some_iff.mp hb) (component?_eq_some_iff.mp hc)
    · cases h
  · rintro ⟨around, hbefore, hbehind, major, minor, patch⟩
    rw [ofText?, around, trimBlanks_append ?_ hbefore ?_ hbehind, splitAt_eq_three_iff.mpr
      ⟨rfl, major.dot_not_mem, minor.dot_not_mem, patch.dot_not_mem⟩]
    · simp [component?_eq_some_iff.mpr major, component?_eq_some_iff.mpr minor,
        component?_eq_some_iff.mpr patch]
    · simp
    · simp only [List.forall_mem_append, List.forall_mem_cons]
      exact ⟨major.not_isBlank, by decide, minor.not_isBlank, by decide, patch.not_isBlank⟩

/-! ## Answers -/

theorem parse_eq_ok_iff {text : String} {v : TemplateVersion} :
    parse text = .ok v ↔ Spells text v := by
  rw [← ofText?_eq_some_iff]
  unfold parse
  cases ofText? text with
  | some w => simp
  | none => simp

theorem parse_eq_error_iff {text : String} {e : ModelError} :
    parse text = .error e ↔ (∀ v, ¬ Spells text v) ∧ e = .invalidVersion text := by
  simp only [← ofText?_eq_some_iff]
  unfold parse
  cases ofText? text with
  | some w => simp
  | none => simp [eq_comm]

/-- A text is read as a version exactly if it spells the version, and any other text is refused as
it was given. Every version is read back from its text. Versions are ordered by the first component
in which they differ. -/
theorem parse_grammar :
    (∀ text v, parse text = .ok v ↔ Spells text v) ∧
    (∀ text e, parse text = .error e ↔ (∀ v, ¬ Spells text v) ∧ e = .invalidVersion text) ∧
    (∀ v, parse v.text = .ok v) ∧
    ∀ a b, (compare a b = .lt ↔ Below a b) ∧ (compare a b = .eq ↔ a = b) ∧
      (compare a b = .gt ↔ Below b a) := by
  refine ⟨fun _ _ => parse_eq_ok_iff, fun _ _ => parse_eq_error_iff, fun v => ?_, fun a b => ?_⟩
  · rw [parse, ofText?_text]
  · refine ⟨compare_eq_lt_iff, compare_eq_eq_iff, ?_⟩
    rw [← compare_eq_lt_iff, ← compare_swap b a, Ordering.swap_eq_gt]

example : parse "\t +007.2.4294967295\n" = .ok ⟨7, 2, 4294967295⟩ := by decide +kernel

example : parse " 1.0.4294967296" = .error (.invalidVersion " 1.0.4294967296") := by
  decide +kernel

end TemplateVersion

end TemplateCatalog
