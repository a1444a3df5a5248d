import LogTail.Proofs.Append
import Mathlib.Algebra.GroupWithZero.Nat

/-!
# Appends, line by line

An append leaves the last lines of the old ones and the new ones, and its text is what is left
of the old text and the entries when the text of the trimmed lines is cut off at the front. What
it says it brought is counted by line feeds, what it trims by lines; the two counts agree
because every entry ends with a line feed.
-/
namespace LogTail

namespace Text

theorem joinLines_append (lines more : List (List Char)) :
    joinLines (lines ++ more) = joinLines lines ++ joinLines more := by
  induction lines with
  | nil => rfl
  | cons line rest ih =>
    rw [List.cons_append, joinLines, joinLines, ih, List.append_assoc, List.cons_append]

theorem count_joinLines {lines : List (List Char)} (h : ∀ line ∈ lines, '\n' ∉ line) :
    (joinLines lines).count '\n' = lines.length := by
  induction lines with
  | nil => rfl
  | cons line rest ih =>
    have hline : line.count '\n' = 0 := List.count_eq_zero.mpr (h line (by simp))
    have hrest := ih fun l hl => h l (by simp [hl])
    rw [joinLines, List.count_append, List.count_cons_self, hline, hrest, List.length_cons,
      Nat.zero_add]

/-- In a text whose last line is ended there are as many line feeds as lines. -/
theorem length_splitLines {s : List Char} (h : s = [] ∨ s.getLast? = some '\n') :
    (splitLines s).length = s.count '\n' := by
  rw [← count_joinLines (feed_not_mem_splitLines s), joinLines_splitLines h]

theorem textOf_append (lines more : List String) :
    textOf (lines ++ more) = textOf lines ++ textOf more := by
  simp only [textOf, List.map_append, joinLines_append, String.ofList_append]

theorem textOf_linesOf {s : String} (h : s.toList = [] ∨ s.toList.getLast? = some '\n') :
    textOf (linesOf s) = s := by
  have hlines : (linesOf s).map String.toList = splitLines s.toList := by
    simp [linesOf, Function.comp_def]
  rw [textOf, hlines, joinLines_splitLines h, String.ofList_toList]

end Text

variable {batch : List Entry}

theorem Entry.lineCount_eq {e : Entry} (written : e.Written) :
    (Text.linesOf e.text).length = e.lineCount := by
  obtain ⟨r, hr⟩ := written
  rw [Text.linesOf, List.length_map, Entry.lineCount]
  exact Text.length_splitLines (.inr (Record.written?_last hr))

theorem length_linesOfBatch (written : ∀ e ∈ batch, e.Written) :
    (linesOfBatch batch).length = (batch.map Entry.lineCount).sum := by
  rw [linesOfBatch, List.length_flatMap]
  exact congrArg List.sum (List.map_congr_left fun e he => Entry.lineCount_eq (written e he))

/-- The text of the lines of a batch is that of its entries. -/
theorem textOf_linesOfBatch (written : ∀ e ∈ batch, e.Written) :
    Text.textOf (linesOfBatch batch) = String.join (batch.map Entry.text) := by
  induction batch with
  | nil => rfl
  | cons e rest ih =>
    obtain ⟨r, hr⟩ := written e (by simp)
    have hfirst := Text.textOf_linesOf (.inr (Record.written?_last hr))
    have hrest := ih fun e' he => written e' (by simp [he])
    rw [linesOfBatch] at hrest ⊢
    rw [List.flatMap_cons, Text.textOf_append, hfirst, hrest, List.map_cons, String.join_cons]

namespace Document

/-- Appending the entries of some records to a buffer within a budget never fails. Without an
entry nothing is done. Otherwise one edit is made: it leaves the last lines of the old ones
and the new ones, at most as many as the budget, and their text, which is the old text and the
entries without the text of the first lines, as many as were trimmed. What it brought is what
the entries have in lines; the old count and that is the new count and what was trimmed. -/
theorem append_is_exact (b : Buffer) (records : List Record) (budget : Nat) :
    let batch := entriesOf records
    let new := batch.flatMap fun e => Text.linesOf e.text
    if batch = [] then append budget batch { buffer := b } = (.ok {}, { buffer := b })
    else
      ∃ a b', append budget batch { buffer := b } = (.ok a, { buffer := b', tries := 1 }) ∧
        b'.edits = b.edits + 1 ∧ b'.views = b.views ∧ b'.lastView = b.lastView ∧
        b'.lines = (b.lines ++ new).rtake budget ∧
        b.text ++ String.join (batch.map Entry.text) =
          Text.textOf ((b.lines ++ new).take a.trimmed) ++ b'.text ∧
        a.lines = (batch.map Entry.lineCount).sum ∧
        b'.count + a.trimmed = b.count + a.lines ∧ a.trimmed ≤ b.count + a.lines := by
  intro batch new
  have written : ∀ e ∈ batch, e.Written := fun _ => Entry.written_of_mem
  split
  · rename_i hnil
    simp [append, planAppend, hnil]
  · rename_i hne
    have happend : append budget batch { buffer := b } = _ :=
      append_eq hne (linesOf_batch written) (by simp)
    have hkept : (b.lines ++ new).rtake budget =
        (b.lines ++ new).drop (b.count + new.length - budget) := by
      rw [List.rtake, List.length_append]
      rfl
    have htext := calc b.text ++ String.join (batch.map Entry.text)
      _ = Text.textOf b.lines ++ Text.textOf new := by rw [← textOf_linesOfBatch written]; rfl
      _ = Text.textOf (b.lines ++ new) := (Text.textOf_append b.lines new).symm
      _ = Text.textOf ((b.lines ++ new).take (b.count + new.length - budget)) ++
          Text.textOf ((b.lines ++ new).rtake budget) := by
        rw [hkept, ← Text.textOf_append, List.take_append_drop]
    refine ⟨_, _, happend, rfl, rfl, rfl, rfl, htext, length_linesOfBatch written, ?_, Nat.sub_le _ _⟩
    simp only [Buffer.count, List.rtake, List.length_drop, List.length_append]
    omega

example : (append 2 [⟨"00:00:00\ta\nb\n"⟩] { buffer := { lines := ["x"] } }).2.buffer.lines =
    ["00:00:00\ta", "b"] := by decide

end Document

end LogTail
