/-!
# Lines of a text

A line feed ends a line; what follows the last one is a line only if it is not
empty. `joinLines` ends every line with a line feed, and splitting that again gives
the same lines when none of them holds a line feed.
-/
namespace LogTail.Text

def splitLines : List Char → List (List Char)
  | [] => []
  | c :: r =>
    if c = '\n' then [] :: splitLines r
    else match splitLines r with
      | [] => [[c]]
      | line :: rest => (c :: line) :: rest

def joinLines : List (List Char) → List Char
  | [] => []
  | line :: rest => line ++ '\n' :: joinLines rest

theorem splitLines_append_feed (line rest : List Char) (h : '\n' ∉ line) :
    splitLines (line ++ '\n' :: rest) = line :: splitLines rest := by
  induction line with
  | nil => simp [splitLines]
  | cons c r ih =>
    simp only [List.mem_cons, not_or] at h
    simp [splitLines, ih h.2, Ne.symm h.1]

theorem splitLines_joinLines (lines : List (List Char)) (h : ∀ line ∈ lines, '\n' ∉ line) :
    splitLines (joinLines lines) = lines := by
  induction lines with
  | nil => rfl
  | cons line rest ih =>
    rw [joinLines, splitLines_append_feed _ _ (h line (by simp)),
      ih fun l hl => h l (by simp [hl])]

theorem feed_not_mem_splitLines (s : List Char) : ∀ line ∈ splitLines s, '\n' ∉ line := by
  induction s with
  | nil => simp [splitLines]
  | cons c r ih =>
    unfold splitLines
    split
    · simpa using ih
    · rename_i hc
      split
      · simpa using Ne.symm hc
      · rename_i line rest heq
        rw [heq] at ih
        intro l hl
        rcases List.mem_cons.mp hl with rfl | hl
        · simpa [Ne.symm hc] using ih line (by simp)
        · exact ih l (by simp [hl])

/-- The lines of a text. -/
def linesOf (s : String) : List String := (splitLines s.toList).map String.ofList

/-- The text of some lines, each ended by a line feed. -/
def textOf (lines : List String) : String := String.ofList (joinLines (lines.map String.toList))

def lineCount (s : String) : Nat := (linesOf s).length

end LogTail.Text
