import LogTail.Proofs.Spelling
import LogTail.Settings
import Mathlib.Data.List.Induction
import Mathlib.Data.List.TakeWhile

/-!
# Budgets as they are entered

Which texts are read as a budget, and as which one: a numeral in decimal, with a plus sign in
front or not, with blanks around it or not. How many digits it has does not matter, but what
they come to does: first whether it fits in sixty-four bits, then whether it is in range.
-/
namespace LogTail

namespace Text

variable {s body : List Char} {c : Char} {d m n limit : Nat}

/-- A text of one or more digits stands for ten times what all but its last digit stand for,
and the last digit. -/
inductive Numeral : List Char → Nat → Prop where
  | digit {d : Nat} (small : d < 10) : Numeral [Nat.digitChar d] d
  | next {s : List Char} {n d : Nat} (before : Numeral s n) (small : d < 10) :
      Numeral (s ++ [Nat.digitChar d]) (10 * n + d)

/-- A numeral with at most one sign, which is a plus sign in front. -/
inductive Whole : List Char → Nat → Prop where
  | unsigned {s : List Char} {n : Nat} (h : Numeral s n) : Whole s n
  | plus {s : List Char} {n : Nat} (h : Numeral s n) : Whole ('+' :: s) n

/-- What a text has between the blanks at its two ends. -/
structure Trims (s body : List Char) : Prop where
  blanks : ∃ p q, s = p ++ body ++ q ∧ ∀ c ∈ p ++ q, isBlank c = true
  first : ∀ c, body.head? = some c → isBlank c = false
  last : ∀ c, body.getLast? = some c → isBlank c = false

/-! ### Blanks at the ends -/

theorem head_dropWhile_isBlank (s : List Char) (h : (s.dropWhile isBlank).head? = some c) :
    isBlank c = false := by
  have hnot := List.head?_dropWhile_not isBlank s
  rw [h] at hnot
  exact hnot

theorem trimStart_eq_self (first : ∀ c, s.head? = some c → isBlank c = false) :
    trimStart s = s := by
  cases s with
  | nil => rfl
  | cons c r => rw [trimStart, List.dropWhile_cons, first c rfl, if_neg Bool.false_ne_true]

theorem trimEnd_eq_self (last : ∀ c, s.getLast? = some c → isBlank c = false) :
    trimEnd s = s := by
  have hreverse : trimStart s.reverse = s.reverse := by
    refine trimStart_eq_self fun c hc => last c ?_
    rwa [List.head?_reverse] at hc
  rw [trimEnd, ← trimStart, hreverse, List.reverse_reverse]

theorem trimStart_append (s : List Char) : s.takeWhile isBlank ++ trimStart s = s :=
  List.takeWhile_append_dropWhile

theorem trimEnd_append (s : List Char) :
    trimEnd s ++ (s.reverse.takeWhile isBlank).reverse = s := by
  rw [trimEnd, ← List.reverse_append, List.takeWhile_append_dropWhile, List.reverse_reverse]

theorem trims_trim (s : List Char) : Trims s (trim s) where
  blanks := by
    refine ⟨s.takeWhile isBlank, ((trimStart s).reverse.takeWhile isBlank).reverse, ?_, ?_⟩
    · rw [trim, List.append_assoc, trimEnd_append, trimStart_append]
    · intro c hc
      rcases List.mem_append.mp hc with hc | hc
      · exact List.mem_takeWhile_imp hc
      · exact List.mem_takeWhile_imp (List.mem_reverse.mp hc)
  first c hc := by
    -- what is cut off at the end leaves the first character, unless nothing is left
    have hne : trimEnd (trimStart s) ≠ [] := fun hnil => by simp [trim, hnil] at hc
    have hhead :
        (trimEnd (trimStart s) ++ ((trimStart s).reverse.takeWhile isBlank).reverse).head? =
          (trimEnd (trimStart s)).head? := List.head?_append_of_ne_nil _ hne
    rw [trimEnd_append] at hhead
    exact head_dropWhile_isBlank s (hhead.trans hc)
  last c hc := by
    rw [trim, trimEnd, List.getLast?_reverse] at hc
    exact head_dropWhile_isBlank _ hc

theorem trims_iff : Trims s body ↔ trim s = body := by
  constructor
  · rintro ⟨⟨p, q, rfl, blanks⟩, first, last⟩
    rw [trim_append_blank fun c hc => blanks c (List.mem_append_right p hc),
      trim_blank_append fun c hc => blanks c (List.mem_append_left q hc), trim,
      trimStart_eq_self first, trimEnd_eq_self last]
  · rintro rfl
    exact trims_trim s

/-! ### Numerals -/

theorem isDigit_iff : isDigit c = true ↔ ∃ d, d < 10 ∧ c = Nat.digitChar d := by
  constructor
  · intro h
    have hrange : 0x30 ≤ c.toNat ∧ c.toNat ≤ 0x39 := by simpa [isDigit] using h
    have small : c.toNat - 0x30 < 10 := by omega
    refine ⟨_, small, Char.toNat_inj.mp ?_⟩
    rw [Nat.toNat_digitChar_of_lt_ten small]
    omega
  · rintro ⟨d, small, rfl⟩
    have hcode := Nat.toNat_digitChar_of_lt_ten small
    simp only [isDigit, Bool.and_eq_true, decide_eq_true_eq]
    omega

theorem digitValue_digitChar (small : d < 10) : digitValue (Nat.digitChar d) = d := by
  rw [digitValue, Nat.toNat_digitChar_of_lt_ten small]
  omega

theorem digitsValue_concat (s : List Char) (c : Char) :
    digitsValue (s ++ [c]) = 10 * digitsValue s + digitValue c := by
  simp [digitsValue]

/-- A numeral stands for what its digits come to, and for nothing else. -/
theorem numeral_iff : Numeral s n ↔ s ≠ [] ∧ s.all isDigit = true ∧ digitsValue s = n := by
  constructor
  · intro h
    induction h with
    | @digit d small =>
      have hdigit : isDigit (Nat.digitChar d) = true := isDigit_iff.mpr ⟨d, small, rfl⟩
      simp [digitsValue, digitValue_digitChar small, hdigit]
    | @next s n d before small ih =>
      obtain ⟨-, hall, hvalue⟩ := ih
      have hdigit : isDigit (Nat.digitChar d) = true := isDigit_iff.mpr ⟨d, small, rfl⟩
      refine ⟨by simp, by rw [List.all_append, hall]; simp [hdigit], ?_⟩
      rw [digitsValue_concat, hvalue, digitValue_digitChar small]
  · rintro ⟨hne, hall, rfl⟩
    induction s using List.reverseRecOn with
    | nil => exact absurd rfl hne
    | append_singleton s c ih =>
      rw [List.all_append, Bool.and_eq_true] at hall
      obtain ⟨d, small, rfl⟩ := isDigit_iff.mp (by simpa using hall.2)
      rw [digitsValue_concat, digitValue_digitChar small]
      by_cases hs : s = []
      · subst hs
        simpa [digitsValue] using Numeral.digit small
      · exact .next (ih hs hall.1) small

/-- Every number has a numeral: the one it is written with. -/
theorem numeral_toDigits (n : Nat) : Numeral (Nat.toDigits 10 n) n := by
  induction n using Nat.strongRecOn with
  | ind n ih =>
    by_cases small : n < 10
    · rw [Nat.toDigits_of_lt_base small]
      exact .digit small
    · have hnext := Numeral.next (ih (n / 10) (by omega)) (Nat.mod_lt n (by decide))
      rwa [Nat.div_add_mod, ← Nat.toDigits_of_base_le (by decide) (by omega)] at hnext

theorem digits?_eq_some_iff : digits? s = some n ↔ Numeral s n ∧ n < wordLimit := by
  unfold digits?
  rw [numeral_iff]
  constructor
  · intro h
    split at h
    · rename_i hvalid
      cases h
      exact ⟨⟨hvalid.1, hvalid.2.1, rfl⟩, hvalid.2.2⟩
    · cases h
  · rintro ⟨⟨hne, hall, rfl⟩, fits⟩
    exact if_pos ⟨hne, hall, fits⟩

theorem wholeNumber?_eq_some_iff : wholeNumber? s = some n ↔ Whole s n ∧ n < wordLimit := by
  unfold wholeNumber?
  split
  · rename_i r
    rw [digits?_eq_some_iff]
    constructor
    · rintro ⟨h, fits⟩
      exact ⟨.plus h, fits⟩
    · rintro ⟨h, fits⟩
      cases h with
      | unsigned h =>
        have hall := (numeral_iff.mp h).2.1
        simp [isDigit] at hall
      | plus h => exact ⟨h, fits⟩
  · rename_i hsign
    rw [digits?_eq_some_iff]
    constructor
    · rintro ⟨h, fits⟩
      exact ⟨.unsigned h, fits⟩
    · rintro ⟨h, fits⟩
      cases h with
      | unsigned h => exact ⟨h, fits⟩
      | plus h => exact absurd rfl (hsign _)

/-! ### One digit after the other -/

/-- Reads digits behind a number that has been read, and gives up at the first character that
is no digit or takes the number to the limit. -/
def readOn? (limit : Nat) : Nat → List Char → Option Nat
  | n, [] => some n
  | n, c :: r =>
    if isDigit c = true ∧ 10 * n + digitValue c < limit then
      readOn? limit (10 * n + digitValue c) r
    else none

/-- A number does not get smaller by reading on. -/
theorem le_readOn (s : List Char) (n : Nat) :
    n ≤ s.foldl (fun n c => 10 * n + digitValue c) n := by
  induction s generalizing n with
  | nil => exact Nat.le_refl n
  | cons c r ih =>
    have hrest := ih (10 * n + digitValue c)
    rw [List.foldl_cons]
    omega

theorem readOn?_eq_some_iff (fits : n < limit) : readOn? limit n s = some m ↔
    s.all isDigit = true ∧ s.foldl (fun n c => 10 * n + digitValue c) n = m ∧ m < limit := by
  induction s generalizing n with
  | nil =>
    simp only [readOn?, List.all_nil, List.foldl_nil, Option.some.injEq, true_and]
    exact ⟨fun h => ⟨h, h ▸ fits⟩, And.left⟩
  | cons c r ih =>
    rw [readOn?, List.all_cons, List.foldl_cons, Bool.and_eq_true]
    by_cases hc : isDigit c = true ∧ 10 * n + digitValue c < limit
    · rw [if_pos hc, ih hc.2]
      simp only [hc.1, true_and]
    · -- a number out of bounds stays out of bounds
      have hgrows := le_readOn r (10 * n + digitValue c)
      rw [if_neg hc]
      refine ⟨nofun, ?_⟩
      rintro ⟨⟨hdigit, -⟩, rfl, hend⟩
      exact absurd ⟨hdigit, Nat.lt_of_le_of_lt hgrows hend⟩ hc

/-- It makes no difference whether each digit is checked to keep the number within
sixty-four bits, or the number at the end. -/
theorem digits?_eq_readOn? (s : List Char) :
    digits? s = if s = [] then none else readOn? wordLimit 0 s := by
  ext m
  rw [digits?_eq_some_iff, numeral_iff]
  by_cases hs : s = []
  · simp [hs]
  · rw [if_neg hs, readOn?_eq_some_iff (by decide), ← digitsValue, and_assoc, and_assoc]
    simp only [ne_eq, hs, not_false_eq_true, true_and]

end Text

namespace Settings

variable {input : String} {n : Nat} {a : Except Flaw Nat} {s : Settings}

/-- The input is a whole number and nothing else but blanks around it. -/
def Spells (input : String) (n : Nat) : Prop :=
  ∃ body, Text.Trims input.toList body ∧ Text.Whole body n

/-- What is answered to a budget that is entered. -/
inductive BudgetAnswer (input : String) : Except Flaw Nat → Prop where
  | accepted {n : Nat} (h : Spells input n) (low : 1000 ≤ n) (high : n ≤ 15000) :
      BudgetAnswer input (.ok n)
  | outside {n : Nat} (h : Spells input n) (fits : n < UInt64.size) (off : n < 1000 ∨ 15000 < n) :
      BudgetAnswer input (.error (.outside n))
  /-- No number is spelled, or one that takes more than sixty-four bits. -/
  | notWhole (h : ∀ n, Spells input n → UInt64.size ≤ n) :
      BudgetAnswer input (.error (.notWhole input))

theorem spells_iff : Spells input n ↔ Text.Whole (Text.trim input.toList) n := by
  simp only [Spells, Text.trims_iff, exists_eq_left']

theorem wholeNumber?_trim_iff :
    Text.wholeNumber? (Text.trim input.toList) = some n ↔ Spells input n ∧ n < UInt64.size := by
  rw [spells_iff, Text.wholeNumber?_eq_some_iff]
  rfl

theorem budgetAnswer_readBudget (input : String) : BudgetAnswer input (readBudget input) := by
  unfold readBudget
  cases hnumber : Text.wholeNumber? (Text.trim input.toList) with
  | none =>
    refine .notWhole fun n h => Nat.le_of_not_lt fun fits => ?_
    rw [wholeNumber?_trim_iff.mpr ⟨h, fits⟩] at hnumber
    cases hnumber
  | some n =>
    obtain ⟨h, fits⟩ := wholeNumber?_trim_iff.mp hnumber
    simp only
    split
    · rename_i hrange
      exact .accepted h hrange.1 hrange.2
    · rename_i hrange
      refine .outside h fits ?_
      simp only [leastBudget, greatestBudget] at hrange
      omega

theorem BudgetAnswer.eq (h : BudgetAnswer input a) : readBudget input = a := by
  cases h with
  | @accepted n h low high =>
    have fits : n < UInt64.size := Nat.lt_of_le_of_lt high (by decide)
    have hnumber := wholeNumber?_trim_iff.mpr ⟨h, fits⟩
    simp only [readBudget, hnumber]
    exact if_pos ⟨low, high⟩
  | @outside n h fits off =>
    have hnumber := wholeNumber?_trim_iff.mpr ⟨h, fits⟩
    simp only [readBudget, hnumber]
    refine if_neg ?_
    simp only [leastBudget, greatestBudget]
    omega
  | notWhole h =>
    have hnumber : Text.wholeNumber? (Text.trim input.toList) = none := by
      rw [Option.eq_none_iff_forall_ne_some]
      intro n hn
      obtain ⟨hspells, fits⟩ := wholeNumber?_trim_iff.mp hn
      exact Nat.not_lt.mpr (h n hspells) fits
    simp only [readBudget, hnumber]

/-- The check finds fault with the budget just when it is out of range. -/
theorem check_budget_iff :
    (∀ n, s.check ≠ .error (.budget n)) ↔ 1000 ≤ s.budget ∧ s.budget ≤ 15000 := by
  unfold check
  split
  · rename_i hoff
    simp only [leastBudget, greatestBudget] at hoff
    constructor
    · intro h
      exact absurd rfl (h s.budget)
    · omega
  · rename_i hrange
    simp only [leastBudget, greatestBudget] at hrange
    refine ⟨fun _ => by omega, fun _ n => ?_⟩
    split
    · nofun
    · split
      · nofun
      · split <;> nofun

/-- A number as it is written has no blanks. -/
theorem spells_toString (n : Nat) : Spells (toString n) n := by
  have hdigits : (toString n).toList = Nat.toDigits 10 n := by
    rw [Nat.toString_eq_repr, Nat.toList_repr]
  have hnumeral := Text.numeral_toDigits n
  have hclean : ∀ c ∈ Nat.toDigits 10 n, Text.isBlank c = false := by
    intro c hc
    have hdigit := List.all_eq_true.mp (Text.numeral_iff.mp hnumeral).2.1 c hc
    simp only [Text.isDigit, Bool.and_eq_true, decide_eq_true_eq] at hdigit
    simp only [Text.isBlank, Bool.or_eq_false_iff, Bool.and_eq_false_iff, decide_eq_false_iff_not,
      beq_eq_false_iff_ne]
    omega
  rw [Spells, hdigits]
  refine ⟨_, ⟨⟨[], [], by simp, by simp⟩, fun c hc => ?_, fun c hc => ?_⟩, .unsigned hnumeral⟩
  · exact hclean c (List.mem_of_head? hc)
  · exact hclean c (List.mem_of_getLast? hc)

/-- A text is read as a budget just when it is a whole number in decimal, with or without a plus
sign and whatever zeros in front and blanks around it, that lies in range. Any other is refused:
as no whole number if it is none or takes more than sixty-four bits, whether that is seen at one
of its digits or at the end, and otherwise as out of range. The check finds no fault with a
budget that was read, and reads every budget that it finds no fault with from the number as it
is written. -/
theorem budgets_read_exactly :
    (∀ (input : String) (a : Except Flaw Nat), readBudget input = a ↔ BudgetAnswer input a) ∧
    (∀ input, (Flaw.notWhole input).message = Text.quoted input ++ " is not a whole number") ∧
    (∀ n, (Flaw.outside n).message = toString n ++ " is outside 1000..=15000") ∧
    (∀ digits, Text.digits? digits =
      if digits = [] then none else Text.readOn? UInt64.size 0 digits) ∧
    (∀ (input : String) (s : Settings), readBudget input = .ok s.budget →
      ∀ n, s.check ≠ .error (.budget n)) ∧
    ∀ s : Settings, (∀ n, s.check ≠ .error (.budget n)) →
      readBudget (toString s.budget) = .ok s.budget := by
  refine ⟨fun input a => ⟨fun h => h ▸ budgetAnswer_readBudget input, BudgetAnswer.eq⟩,
    fun input => rfl, fun n => ?_, Text.digits?_eq_readOn?, fun input s h => ?_, fun s h => ?_⟩
  · have hrange : " is outside " ++ (toString leastBudget ++ ("..=" ++ toString greatestBudget)) =
        " is outside 1000..=15000" := by decide
    rw [← hrange, ← String.append_assoc, ← String.append_assoc, ← String.append_assoc]
    rfl
  · have hanswer := budgetAnswer_readBudget input
    rw [h] at hanswer
    cases hanswer with
    | accepted hspells low high => exact check_budget_iff.mpr ⟨low, high⟩
  · obtain ⟨low, high⟩ := check_budget_iff.mp h
    exact (BudgetAnswer.accepted (spells_toString s.budget) low high).eq

/-- A wide blank, a sign and zeros in front; more digits than sixty-four bits have room for; and
the greatest budget as it is written. -/
theorem budgets_of_all_kinds :
    Spells "\u3000+0002000\t" 2000 ∧ readBudget "\u3000+0002000\t" = .ok 2000 ∧
      (∀ n, ({ budget := 2000 } : Settings).check ≠ .error (.budget n)) ∧
      readBudget "18446744073709551616" = .error (.notWhole "18446744073709551616") ∧
      readBudget "18446744073709551615" = .error (.outside 18446744073709551615) ∧
      readBudget (toString 15000) = .ok 15000 := by
  obtain ⟨answered, -, -, -, checked, written⟩ := budgets_read_exactly
  have hnumeral : Text.Numeral ['0', '0', '0', '2', '0', '0', '0'] 2000 :=
    Text.numeral_iff.mpr ⟨nofun, rfl, rfl⟩
  have hspells : Spells "\u3000+0002000\t" 2000 := by
    refine ⟨_, ⟨⟨['\u3000'], ['\t'], rfl, List.all_eq_true.mp rfl⟩, ?_, ?_⟩, .plus hnumeral⟩
    · rintro c ⟨⟩
      decide
    · rintro c ⟨⟩
      decide
  have hread := (answered _ _).mpr (.accepted hspells (by decide) (by decide))
  have hgreatest : 1000 ≤ 15000 ∧ 15000 ≤ 15000 := by decide
  have hwritten := written { budget := 15000 } (check_budget_iff.mpr hgreatest)
  exact ⟨hspells, hread, checked _ { budget := 2000 } hread, by decide, by decide, hwritten⟩

end Settings

end LogTail
