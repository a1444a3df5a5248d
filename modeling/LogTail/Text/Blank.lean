/-!
# Blank characters

A character is blank when it has the Unicode property White_Space. Trimming drops
the blank characters at both ends of a text and nothing inside it; a text trims to
nothing exactly when all of it is blank.
-/
namespace LogTail.Text

/-- The twenty-five characters with the property White_Space. -/
def isBlank (c : Char) : Bool :=
  let n := c.toNat
  (0x09 ≤ n && n ≤ 0x0d) || n == 0x20 || n == 0x85 || n == 0xa0 || n == 0x1680 ||
    (0x2000 ≤ n && n ≤ 0x200a) || n == 0x2028 || n == 0x2029 || n == 0x202f || n == 0x205f ||
    n == 0x3000

def trimStart (s : List Char) : List Char := s.dropWhile isBlank

def trimEnd (s : List Char) : List Char := (s.reverse.dropWhile isBlank).reverse

def trim (s : List Char) : List Char := trimEnd (trimStart s)

/-- No character of the text is other than blank; the empty text is all blank. -/
def isAllBlank (s : String) : Bool := s.toList.all isBlank

theorem trimStart_eq_nil_iff (s : List Char) : trimStart s = [] ↔ s.all isBlank = true := by
  unfold trimStart
  induction s with
  | nil => simp
  | cons c r ih =>
    rw [List.dropWhile_cons, List.all_cons, Bool.and_eq_true]
    by_cases h : isBlank c = true
    · rw [if_pos h, ih]
      exact ⟨fun hr => ⟨h, hr⟩, And.right⟩
    · rw [if_neg h]
      exact ⟨nofun, fun hr => absurd hr.1 h⟩

theorem trimEnd_eq_nil_iff (s : List Char) : trimEnd s = [] ↔ s.all isBlank = true := by
  rw [trimEnd, List.reverse_eq_nil_iff, ← List.all_reverse]
  exact trimStart_eq_nil_iff s.reverse

theorem trim_eq_nil_iff (s : List Char) : trim s = [] ↔ s.all isBlank = true := by
  rw [trim, trimEnd_eq_nil_iff, trimStart]
  induction s with
  | nil => rfl
  | cons c r ih =>
    rw [List.dropWhile_cons]
    by_cases h : isBlank c = true
    · rw [if_pos h, ih, List.all_cons, h, Bool.true_and]
    · rw [if_neg h]

end LogTail.Text
