import LogTail.Document

/-!
# Edits carried out

An edit is checked as a whole before it is carried out, the check by line counts alone and
the rest one line at a time. The check passes just when every change lies within the lines
that the changes before it leave. Then no index is out of range while the edit is carried out,
and it leaves the lines that splicing them change by change leaves.
-/
namespace LogTail

namespace Change

variable {c : Change} {count : Nat} {lines : List String}

/-- The change lies within a document of so many lines. -/
def InRange (count : Nat) : Change → Prop
  | insert line _ => line ≤ count
  | delete range => range.start ≤ range.stop ∧ range.stop ≤ count

instance decidableInRange (count : Nat) : (c : Change) → Decidable (c.InRange count)
  | insert .. => inferInstanceAs (Decidable (_ ≤ _))
  | delete _ => inferInstanceAs (Decidable (_ ∧ _))

/-- The check follows the line count that splicing gives. -/
theorem check_of_inRange (h : c.InRange lines.length) :
    c.check lines.length = .ok (c.splice lines).length := by
  cases c with
  | insert line text =>
    have hle : line ≤ lines.length := h
    simp only [check, if_pos hle, splice, List.length_append, List.length_take, List.length_drop,
      Text.lineCount, Except.ok.injEq]
    omega
  | delete range =>
    have hle : range.start ≤ range.stop ∧ range.stop ≤ lines.length := h
    simp only [check, if_pos hle, splice, List.length_append, List.length_take, List.length_drop,
      LineRange.length, Except.ok.injEq]
    omega

theorem check_of_not_inRange (h : ¬ c.InRange count) : ∃ fault, c.check count = .error fault := by
  cases c with
  | insert line text => exact ⟨_, if_neg h⟩
  | delete range => exact ⟨_, if_neg h⟩

theorem length_splice (h : c.InRange lines.length) :
    (c.splice lines).length + c.deleted = lines.length + c.inserted := by
  cases c with
  | insert line text =>
    have hle : line ≤ lines.length := h
    simp only [splice, List.length_append, List.length_take, List.length_drop, deleted, inserted,
      Text.lineCount]
    omega
  | delete range =>
    obtain ⟨hstart, hstop⟩ := h
    simp only [splice, List.length_append, List.length_take, List.length_drop, deleted, inserted,
      LineRange.length]
    omega

/-- Puts a line in before the one with an index, or behind the last; there is no other place. -/
def insertLine? (index : Nat) (line : String) (lines : List String) : Option (List String) :=
  if index ≤ lines.length then some (lines.take index ++ line :: lines.drop index) else none

/-- Puts lines in one at a time, each at the index behind the one before. -/
def insertLines? : Nat → List String → List String → Option (List String)
  | _, [], lines => some lines
  | index, line :: rest, lines =>
    (insertLine? index line lines).bind (insertLines? (index + 1) rest)

/-- Takes the lines of a range out, if it is one. -/
def removeLines? (range : LineRange) (lines : List String) : Option (List String) :=
  if range.start ≤ range.stop ∧ range.stop ≤ lines.length then
    some (lines.take range.start ++ lines.drop range.stop)
  else none

/-- Carries a change out in place, unless an index is out of range. -/
def carryOut? (lines : List String) : Change → Option (List String)
  | insert line text => insertLines? line (Text.linesOf text) lines
  | delete range => removeLines? range lines

/-- The lines come in between those before the first index and those behind it. -/
theorem insertLines?_append (before new later : List String) :
    insertLines? before.length new (before ++ later) = some (before ++ new ++ later) := by
  induction new generalizing before with
  | nil => simp [insertLines?]
  | cons line rest ih =>
    have hplace : insertLine? before.length line (before ++ later) =
        some ((before ++ [line]) ++ later) := by
      simp [insertLine?]
    have hrest := ih (before ++ [line])
    rw [List.length_append, List.length_singleton] at hrest
    rw [insertLines?, hplace, Option.bind_some, hrest, List.append_assoc before, List.singleton_append]

theorem carryOut?_of_inRange (h : c.InRange lines.length) :
    c.carryOut? lines = some (c.splice lines) := by
  cases c with
  | insert line text =>
    have hlength : (lines.take line).length = line := List.length_take_of_le h
    have hinsert := insertLines?_append (lines.take line) (Text.linesOf text) (lines.drop line)
    rwa [hlength, List.take_append_drop] at hinsert
  | delete range => exact if_pos h

end Change

namespace Edit

variable {c : Change} {e : Edit} {lines : List String}

/-- Every change lies within the lines that the changes before it leave. -/
def InRange (lines : List String) (e : Edit) : Prop :=
  ∀ before c later, e = before ++ c :: later → c.InRange (splice lines before).length

theorem inRange_nil (lines : List String) : InRange lines [] := by
  intro before c later h
  simp at h

theorem inRange_cons :
    InRange lines (c :: e) ↔ c.InRange lines.length ∧ InRange (c.splice lines) e := by
  constructor
  · intro h
    refine ⟨h [] c e rfl, fun before c' later he => ?_⟩
    exact h (c :: before) c' later (by rw [he, List.cons_append])
  · rintro ⟨hc, he⟩ before c' later h
    cases before with
    | nil =>
      cases h
      exact hc
    | cons c'' before =>
      cases h
      exact he before c' later rfl

theorem check_eq_ok_iff : check lines.length e = .ok () ↔ InRange lines e := by
  induction e generalizing lines with
  | nil => exact ⟨fun _ => inRange_nil lines, fun _ => rfl⟩
  | cons c e ih =>
    rw [inRange_cons]
    by_cases hc : c.InRange lines.length
    · simp only [check, Change.check_of_inRange hc, ih, hc, true_and]
    · obtain ⟨fault, hfault⟩ := Change.check_of_not_inRange hc
      simp [check, hfault, hc]

instance decidableInRange : (lines : List String) → (e : Edit) → Decidable (InRange lines e)
  | lines, [] => isTrue (inRange_nil lines)
  | lines, c :: e =>
    have := decidableInRange (c.splice lines) e
    decidable_of_iff _ inRange_cons.symm

/-- The first change that is out of range decides the fault. -/
theorem check_of_not_inRange (h : ¬ InRange lines e) : ∃ before c later fault,
    e = before ++ c :: later ∧ InRange lines before ∧
      ¬ c.InRange (splice lines before).length ∧
      c.check (splice lines before).length = .error fault ∧ check lines.length e = .error fault := by
  induction e generalizing lines with
  | nil => exact absurd (inRange_nil lines) h
  | cons c e ih =>
    by_cases hc : c.InRange lines.length
    · have he : ¬ InRange (c.splice lines) e := fun he => h (inRange_cons.mpr ⟨hc, he⟩)
      obtain ⟨before, c', later, fault, rfl, hbefore, hout, hfault, hcheck⟩ := ih he
      refine ⟨c :: before, c', later, fault, rfl, inRange_cons.mpr ⟨hc, hbefore⟩, hout, hfault, ?_⟩
      simp only [check, Change.check_of_inRange hc, hcheck]
    · obtain ⟨fault, hfault⟩ := Change.check_of_not_inRange hc
      refine ⟨[], c, e, fault, rfl, inRange_nil lines, hc, hfault, ?_⟩
      simp only [check, hfault]

theorem length_splice (h : InRange lines e) :
    (splice lines e).length + e.deleted = lines.length + e.inserted := by
  induction e generalizing lines with
  | nil => rfl
  | cons c e ih =>
    obtain ⟨hc, he⟩ := inRange_cons.mp h
    have hfirst := Change.length_splice hc
    have hrest := ih he
    rw [deleted, inserted, splice, List.foldl_cons, ← splice]
    omega

/-- Carries the changes out one after the other, unless an index is out of range. -/
def carryOut? : List String → Edit → Option (List String)
  | lines, [] => some lines
  | lines, c :: rest => (c.carryOut? lines).bind fun lines => carryOut? lines rest

theorem carryOut?_of_inRange (h : InRange lines e) : carryOut? lines e = some (splice lines e) := by
  induction e generalizing lines with
  | nil => rfl
  | cons c e ih =>
    obtain ⟨hc, he⟩ := inRange_cons.mp h
    rw [carryOut?, Change.carryOut?_of_inRange hc, Option.bind_some, ih he]
    rfl

end Edit

namespace Buffer

/-- An edit is committed as a whole or not at all. If every change lies within the lines that
the changes before it leave, it leaves what splicing the lines change by change leaves, the
line count is what was inserted more and what was deleted less, the edit is counted, and
the views stay; carried out one line at a time it meets no index that is out of range.
If not, the fault is that of the first change that is out of range, and the lines, the views
and the count of edits stay. -/
theorem commit_all_or_nothing (e : Edit) (b : Buffer) :
    if Edit.InRange b.lines e then
      ∃ b', b.commit e = .ok b' ∧
        Document.commit e { buffer := b } = (.ok (), { buffer := b', tries := 1 }) ∧
        b'.lines = Edit.splice b.lines e ∧ Edit.carryOut? b.lines e = some b'.lines ∧
        b'.count + e.deleted = b.count + e.inserted ∧ b'.edits = b.edits + 1 ∧
        b'.views = b.views ∧ b'.lastView = b.lastView
    else
      ∃ before c later fault, e = before ++ c :: later ∧ Edit.InRange b.lines before ∧
        ¬ c.InRange (Edit.splice b.lines before).length ∧
        c.check (Edit.splice b.lines before).length = .error fault ∧ b.commit e = .error fault ∧
        Document.commit e { buffer := b } = (.error fault, { buffer := b, tries := 1 }) := by
  split
  · rename_i inRange
    have hcheck : Edit.check b.count e = .ok () := Edit.check_eq_ok_iff.mpr inRange
    have hcommit : b.commit e =
        .ok { b with lines := Edit.splice b.lines e, edits := b.edits + 1 } := by
      simp only [commit, hcheck]
    refine ⟨_, hcommit, ?_, rfl, Edit.carryOut?_of_inRange inRange, Edit.length_splice inRange, rfl,
      rfl, rfl⟩
    simp [Document.commit, hcommit]
  · rename_i outOfRange
    obtain ⟨before, c, later, fault, he, hbefore, hout, hfault, hcheck⟩ :=
      Edit.check_of_not_inRange outOfRange
    have hcommit : b.commit e = .error fault := by
      simp only [commit, count, hcheck]
    refine ⟨before, c, later, fault, he, hbefore, hout, hfault, hcommit, ?_⟩
    simp [Document.commit, hcommit]

example : ({} : Buffer).commit [.insert 0 "x\n", .delete ⟨0, 2⟩] =
    .error (.document "delete 0..2 outside document of 1 lines") := rfl

end Buffer

end LogTail
