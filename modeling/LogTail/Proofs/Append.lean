import LogTail.Document
import Mathlib.Data.List.DropRight

/-!
# Appending to a document

Appending entries to a document within a budget leaves the last lines of what it held
followed by the lines of the entries, and trimming again after more has come in makes
no difference.
-/
namespace LogTail

namespace Text

theorem splitLines_eq_nil {s : List Char} : splitLines s = [] ↔ s = [] := by
  cases s with
  | nil => simp [splitLines]
  | cons c r =>
    simp only [splitLines, reduceCtorEq, iff_false]
    split
    · simp
    · split <;> simp

/-- A text whose last line is ended is that of its lines. -/
theorem joinLines_splitLines {s : List Char} (h : s = [] ∨ s.getLast? = some '\n') :
    joinLines (splitLines s) = s := by
  induction s with
  | nil => rfl
  | cons c s ih =>
    by_cases hs : s = []
    · subst hs
      have hc : c = '\n' := by simpa using h
      subst hc
      rfl
    have hlast : s.getLast? = some '\n' := by
      rcases h with h | h
      · cases h
      · rwa [List.getLast?_cons_of_ne_nil hs] at h
    have hjoin := ih (.inr hlast)
    by_cases hc : c = '\n'
    · simp [splitLines, joinLines, hc, hjoin]
    · obtain ⟨line, rest, hsplit⟩ := List.exists_cons_of_ne_nil (mt splitLines_eq_nil.mp hs)
      rw [hsplit, joinLines] at hjoin
      rw [splitLines, if_neg hc, hsplit, joinLines, List.cons_append, hjoin]

theorem splitLines_joinLines_append {lines : List (List Char)} (h : ∀ line ∈ lines, '\n' ∉ line)
    (r : List Char) : splitLines (joinLines lines ++ r) = lines ++ splitLines r := by
  induction lines with
  | nil => rfl
  | cons line rest ih =>
    have hrest := ih fun l hl => h l (by simp [hl])
    rw [joinLines, List.append_assoc, List.cons_append, splitLines_append_feed _ _ (h line (by simp)),
      hrest, List.cons_append]

/-- What follows a line feed starts a line. -/
theorem splitLines_append {s : List Char} (h : s = [] ∨ s.getLast? = some '\n') (r : List Char) :
    splitLines (s ++ r) = splitLines s ++ splitLines r := by
  have hsplit := splitLines_joinLines_append (feed_not_mem_splitLines s) r
  rwa [joinLines_splitLines h] at hsplit

theorem linesOf_join {texts : List String} (h : ∀ s ∈ texts, s.toList.getLast? = some '\n') :
    linesOf (String.join texts) = texts.flatMap linesOf := by
  induction texts with
  | nil => rfl
  | cons s rest ih =>
    have hs := h s (by simp)
    have hrest := ih fun u hu => h u (by simp [hu])
    rw [List.flatMap_cons, ← hrest]
    simp only [linesOf, String.join_cons, String.toList_append, splitLines_append (.inr hs),
      List.map_append]

end Text

theorem Record.terminated_last (message : String) :
    (terminated message).toList.getLast? = some '\n' := by
  unfold terminated
  split
  · assumption
  · simp

theorem Record.written?_last {r : Record} {e : Entry} (h : r.written? = some e) :
    e.text.toList.getLast? = some '\n' := by
  unfold written? at h
  split at h
  · rename_i ms message _ _
    split at h
    · cases h
      simp [List.getLast?_append, List.getLast?_cons, terminated_last message]
    · cases h
  · cases h

/-- The entry is that of some record. -/
def Entry.Written (e : Entry) : Prop := ∃ r : Record, r.written? = some e

theorem Entry.written_of_mem {records : List Record} {e : Entry} (h : e ∈ entriesOf records) :
    e.Written := by
  obtain ⟨r, -, hr⟩ := List.mem_filterMap.mp h
  exact ⟨r, hr⟩

/-- The lines of a batch of entries. -/
def linesOfBatch (batch : List Entry) : List String := batch.flatMap fun e => Text.linesOf e.text

theorem linesOfBatch_append (batch more : List Entry) :
    linesOfBatch (batch ++ more) = linesOfBatch batch ++ linesOfBatch more :=
  List.flatMap_append

theorem linesOf_batch {batch : List Entry} (written : ∀ e ∈ batch, e.Written) :
    Text.linesOf (String.join (batch.map Entry.text)) = linesOfBatch batch := by
  rw [Text.linesOf_join]
  · simp [linesOfBatch, List.flatMap_map]
  · intro s hs
    obtain ⟨e, he, rfl⟩ := List.mem_map.mp hs
    obtain ⟨r, hr⟩ := written e he
    exact Record.written?_last hr

/-- An entry has a line at least. -/
theorem linesOfBatch_ne_nil {batch : List Entry} (h : batch ≠ [])
    (written : ∀ e ∈ batch, e.Written) : linesOfBatch batch ≠ [] := by
  intro hnil
  obtain ⟨e, he⟩ := List.exists_mem_of_ne_nil batch h
  obtain ⟨r, hr⟩ := written e he
  have hempty : Text.linesOf e.text = [] := List.flatMap_eq_nil_iff.mp hnil e he
  rw [Text.linesOf, List.map_eq_nil_iff, Text.splitLines_eq_nil] at hempty
  have hlast := Record.written?_last hr
  rw [hempty] at hlast
  cases hlast

/-- The lines that a batch of records adds to a document. -/
def linesOfRecords (records : List Record) : List String :=
  (entriesOf records).flatMap fun e => Text.linesOf e.text

theorem linesOf_entries (records : List Record) :
    Text.linesOf (String.join ((entriesOf records).map Entry.text)) = linesOfRecords records :=
  linesOf_batch fun _ => Entry.written_of_mem

theorem linesOfRecords_nil {records : List Record} (h : entriesOf records = []) :
    linesOfRecords records = [] := by
  simp [linesOfRecords, h]

/-- Trimming before an append and after it is trimming after it. -/
theorem rtake_rtake_append {α : Type} (budget : Nat) (xs ys : List α) :
    (xs.rtake budget ++ ys).rtake budget = (xs ++ ys).rtake budget := by
  have hle : xs.length - budget ≤ xs.length := Nat.sub_le _ _
  simp only [List.rtake, ← List.drop_append_of_le_length hle, List.drop_drop, List.length_drop,
    List.length_append]
  congr 1
  omega

theorem length_rtake_le {α : Type} (budget : Nat) (xs : List α) :
    (xs.rtake budget).length ≤ budget := by
  simp only [List.rtake, List.length_drop]
  omega

namespace Document

variable {d d' : Document} {budget : Nat}

theorem commit_error_buffer {e : Edit} {fault : Fault} (h : d.commit e = (.error fault, d')) :
    d'.buffer = d.buffer := by
  simp only [commit] at h
  split at h
  · cases h
    rfl
  · split at h
    · cases h
    · cases h
      rfl

/-- The edit of an append keeps the last lines of the old ones and the new ones. -/
theorem splice_planAppend (lines : List String) (entries : List Entry) (h : entries ≠ []) :
    Edit.splice lines (planAppend lines.length entries budget) =
      (lines ++ Text.linesOf (String.join (entries.map Entry.text))).rtake budget := by
  simp only [planAppend, if_neg h, Edit.splice, List.foldl_cons, Change.splice, List.take_length,
    List.drop_length, List.append_nil, List.rtake, List.length_append, Text.lineCount]
  by_cases hover : budget < lines.length +
      (Text.linesOf (String.join (entries.map Entry.text))).length
  · simp [hover, Change.splice]
  · have hz : lines.length + (Text.linesOf (String.join (entries.map Entry.text))).length - budget = 0 := by
      omega
    simp [hover, hz]

/-- The edit of an append is in range, and says what it brings and trims. -/
theorem check_planAppend {entries : List Entry} {new : List String} (h : entries ≠ [])
    (brought : Text.linesOf (String.join (entries.map Entry.text)) = new) (count budget : Nat) :
    (planAppend count entries budget).check count = .ok () ∧
      (planAppend count entries budget).inserted = new.length ∧
      (planAppend count entries budget).deleted = count + new.length - budget := by
  have hlength : Text.lineCount (String.join (entries.map Entry.text)) = new.length := by
    rw [Text.lineCount, brought]
  simp only [planAppend, if_neg h, hlength]
  by_cases hover : budget < count + new.length
  · simp [hover, Edit.check, Change.check, Edit.inserted, Change.inserted, Edit.deleted,
      Change.deleted, LineRange.length, hlength]
  · simp [hover, Edit.check, Change.check, Edit.inserted, Change.inserted, Edit.deleted,
      Change.deleted, hlength]
    omega

/-- An append is refused only if the document refuses the edit. -/
theorem append_eq {entries : List Entry} {new : List String} (h : entries ≠ [])
    (brought : Text.linesOf (String.join (entries.map Entry.text)) = new)
    (accepted : d.tries + 1 ∉ d.refusals) :
    d.append budget entries = (.ok ⟨new.length, d.buffer.count + new.length - budget⟩, { d with
      tries := d.tries + 1
      buffer := { d.buffer with
        lines := (d.buffer.lines ++ new).rtake budget
        edits := d.buffer.edits + 1 } }) := by
  obtain ⟨hcheck, hinserted, hdeleted⟩ := check_planAppend h brought d.buffer.count budget
  have hplan : planAppend d.buffer.count entries budget ≠ [] := by simp [planAppend, h]
  have hsplice : (planAppend d.buffer.count entries budget).splice d.buffer.lines =
      (d.buffer.lines ++ new).rtake budget := by
    rw [← brought]
    exact splice_planAppend d.buffer.lines entries h
  have hcommit : d.commit (planAppend d.buffer.count entries budget) = (.ok (), { d with
      tries := d.tries + 1
      buffer := { d.buffer with
        lines := (d.buffer.lines ++ new).rtake budget
        edits := d.buffer.edits + 1 } }) := by
    simp only [commit, accepted, if_false, Buffer.commit, hcheck, hsplice]
  unfold append
  split
  · rename_i hnil
    exact absurd hnil hplan
  · rw [← hdeleted, ← hinserted, hcommit]

theorem follow_error_buffer {entries : List Entry} {fault : Fault}
    (h : d.follow budget entries = (.error fault, d')) : d'.buffer = d.buffer := by
  simp only [follow, append] at h
  split at h
  · cases h
  · rename_i ha
    cases h
    split at ha
    · cases ha
    · split at ha
      · cases ha
      · rename_i hc
        cases ha
        exact commit_error_buffer hc

/-- Revealing moves views and does nothing else. -/
theorem revealEnd_eq (ids : List Nat) (b : Buffer) :
    b.revealEnd ids = { b with views := (b.revealEnd ids).views } := by
  have hfold (b : Buffer) : ids.foldl (fun b id => b.reveal id (.ofNat (b.count - 1))) b =
      { b with views := (ids.foldl (fun b id => b.reveal id (.ofNat (b.count - 1))) b).views } := by
    induction ids generalizing b with
    | nil => rfl
    | cons id rest ih => exact ih (b.reveal id (.ofNat (b.count - 1)))
  unfold Buffer.revealEnd
  split
  · rfl
  · exact hfold b

@[simp] theorem lines_revealEnd (ids : List Nat) (b : Buffer) :
    (b.revealEnd ids).lines = b.lines := by
  rw [revealEnd_eq]

@[simp] theorem edits_revealEnd (ids : List Nat) (b : Buffer) :
    (b.revealEnd ids).edits = b.edits := by
  rw [revealEnd_eq]

theorem follow_refused (budget : Nat) {entries : List Entry} (h : entries ≠ [])
    (refused : d.tries + 1 ∈ d.refusals) :
    ∃ fault, d.follow budget entries = (.error fault, { d with tries := d.tries + 1 }) := by
  simp [follow, append, planAppend, h, commit, refused]

theorem follow_of_append {entries : List Entry} {a : Appended}
    (h : d.append budget entries = (.ok a, d')) : d.follow budget entries =
      (.ok a, d'.onBuffer (Buffer.revealEnd d.buffer.followers)) := by
  simp only [follow, h]

theorem accepted_of_follow {entries : List Entry} {a : Appended} (h : entries ≠ [])
    (followed : d.follow budget entries = (.ok a, d')) : d.tries + 1 ∉ d.refusals := by
  intro refused
  obtain ⟨fault, hfollow⟩ := follow_refused budget h refused
  rw [hfollow] at followed
  cases followed

theorem follow_ok_lines {records : List Record} {a : Appended} (hne : entriesOf records ≠ [])
    (h : d.follow budget (entriesOf records) = (.ok a, d')) :
    d'.buffer.lines = (d.buffer.lines ++ linesOfRecords records).rtake budget := by
  have accepted := accepted_of_follow hne h
  rw [follow_of_append (append_eq hne (linesOf_entries records) accepted)] at h
  cases h
  exact lines_revealEnd _ _

end Document

end LogTail
