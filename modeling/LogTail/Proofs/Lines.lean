import LogTail.Workspace

/-!
# Lines of the documents of a workspace

What the operations of a workspace do to the lines of its documents: views open, close
and move without a line being touched, and only clearing and writing touch one.
-/
namespace LogTail.Workspace

/-- The lines of a document, if it is there. -/
def lines? (key : Key) (w : Workspace) : Option (List String) :=
  (w.document? key).map (·.buffer.lines)

variable {key j : Key} {w : Workspace}

theorem lines?_isSome : (w.lines? key).isSome = (w.document? key).isSome := by
  simp [lines?]

theorem document?_onDocument (f : Document → Document) : (w.onDocument key f).document? j =
    if key = j then (w.document? j).map f else w.document? j :=
  KeyMap.get?_adjust key j f w.documents

theorem lines?_onDocument (f : Document → Document) : (w.onDocument key f).lines? j =
    if key = j then (w.document? j).map (fun d => (f d).buffer.lines) else w.lines? j := by
  unfold lines?
  rw [document?_onDocument]
  split
  · rw [Option.map_map]
    rfl
  · rfl

/-- Work on the views of a document leaves its lines alone. -/
theorem lines?_onDocument_of_lines (f : Document → Document)
    (h : ∀ d, w.document? key = some d → (f d).buffer.lines = d.buffer.lines) :
    (w.onDocument key f).lines? j = w.lines? j := by
  rw [lines?_onDocument]
  split
  · rename_i hk
    subst hk
    unfold lines?
    cases hd : w.document? key with
    | none => rfl
    | some d => simp [h d hd]
  · rfl

@[simp] theorem lines?_publish (e : ViewEvent) : (w.publish e).lines? key = w.lines? key := rfl

@[simp] theorem lines?_openView : (w.openView key).2.lines? j = w.lines? j := by
  unfold openView
  split
  · rfl
  · rename_i d hd
    rw [lines?_publish]
    refine lines?_onDocument_of_lines _ fun d' hd' => ?_
    rw [hd] at hd'
    cases hd'
    rfl

@[simp] theorem lines?_closeView (id : Nat) : (w.closeView key id).2.lines? j = w.lines? j := by
  unfold closeView
  split
  · rfl
  · rename_i d hd
    split
    · rename_i buffer hb
      rw [lines?_publish]
      refine lines?_onDocument_of_lines _ fun d' hd' => ?_
      rw [hd] at hd'
      cases hd'
      have hl : (d.buffer.closeView id).2.lines = buffer.lines := by rw [hb]
      exact hl.symm
    · rfl

@[simp] theorem lines?_scrollTo (id : Nat) (top : UInt64) :
    (w.scrollTo key id top).lines? j = w.lines? j :=
  lines?_onDocument_of_lines _ fun _ _ => rfl

@[simp] theorem lines?_bringToFront : (w.bringToFront key).lines? j = w.lines? j := by
  simp only [bringToFront]
  split
  · exact lines?_openView
  · rfl

@[simp] theorem lines?_focusDocument : (w.focusDocument key).2.lines? j = w.lines? j := by
  unfold focusDocument
  split
  · exact lines?_bringToFront
  · rfl

/-- A document that is cleared is there before and after. -/
theorem lines?_clearDocument : (w.clearDocument key).lines? j =
    if key = j then (w.lines? j).map fun _ => [] else w.lines? j := by
  unfold clearDocument
  rw [lines?_onDocument]
  split
  · unfold lines?
    rw [Option.map_map]
    rfl
  · rfl

@[simp] theorem document?_onDocument_isSome (f : Document → Document) :
    ((w.onDocument key f).document? j).isSome = (w.document? j).isSome := by
  rw [document?_onDocument]
  split <;> simp

@[simp] theorem document?_clearDocument_isSome :
    ((w.clearDocument key).document? j).isSome = (w.document? j).isSome :=
  document?_onDocument_isSome _

/-- A document that is opened keeps its lines; a new one has none. -/
theorem lines?_openDocument {w' : Workspace} (h : w.openDocument key = (.ok (), w')) :
    w'.lines? j = if key = j then some ((w.lines? j).getD []) else w.lines? j := by
  unfold openDocument at h
  simp only at h
  split at h
  · cases h
  · simp only [Prod.mk.injEq, true_and] at h
    subst h
    rw [lines?_bringToFront]
    split
    · rename_i hk
      obtain ⟨d, hd⟩ := KeyMap.contains_iff.mp hk
      have hl : w.lines? key = some d.buffer.lines := by simp [lines?, document?, hd]
      by_cases hj : key = j
      · subst hj
        rw [if_pos rfl, hl]
        exact hl
      · rw [if_neg hj]
        rfl
    · rename_i hk
      have hd := KeyMap.get?_of_not_contains hk
      simp only [lines?, document?, KeyMap.get?_insert] at *
      by_cases hj : key = j
      · subst hj
        simp [hd]
      · simp [hj]

/-- A request for a document that is refused is only counted. -/
theorem openDocument_refused {w' : Workspace} {fault : Fault}
    (h : w.openDocument key = (.error fault, w')) :
    w' = { w with requests := w.requests + 1 } := by
  unfold openDocument at h
  simp only at h
  split at h
  · simp only [Prod.mk.injEq] at h
    exact h.2.symm
  · cases h

end LogTail.Workspace
