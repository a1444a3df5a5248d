import LogTail.Text.Blank

/-!
# Decimal digits

Reading a whole number of at most sixty-four bits, and writing a number with two
digits at least.
-/
namespace LogTail.Text

/-- One of the ten ASCII digits. -/
def isDigit (c : Char) : Bool := 0x30 ≤ c.toNat && c.toNat ≤ 0x39

def digitValue (c : Char) : Nat := c.toNat - 0x30

/-- The value of a digit sequence, most significant digit first. -/
def digitsValue (s : List Char) : Nat := s.foldl (fun n c => 10 * n + digitValue c) 0

/-- One more than the largest number of sixty-four bits. -/
def wordLimit : Nat := UInt64.size

/-- A sequence of digits whose value fits in sixty-four bits. Leading zeros count for
nothing, and no digit at all is no number. -/
def digits? (s : List Char) : Option Nat :=
  if s ≠ [] ∧ s.all isDigit = true ∧ digitsValue s < wordLimit then some (digitsValue s) else none

/-- A digit sequence with at most one plus sign in front. -/
def wholeNumber? : List Char → Option Nat
  | '+' :: r => digits? r
  | s => digits? s

/-- At least two digits. -/
def twoDigits (n : Nat) : String := if n < 10 then "0" ++ toString n else toString n

end LogTail.Text
