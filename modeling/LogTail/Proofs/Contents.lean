import LogTail.Proofs.Buffers
import Mathlib.Data.List.Induction

/-!
# What a line buffer holds

Between any two things that are done to a buffer its lines are lines, so that its text says
no more and no less than they do, and its views are those that were opened and not closed,
each with a number of its own.
-/
namespace LogTail

namespace Text

/-- None of the lines holds a line feed. -/
def Unbroken (lines : List String) : Prop := ∀ line ∈ lines, '\n' ∉ line.toList

theorem unbroken_linesOf (s : String) : Unbroken (linesOf s) := by
  intro line hline
  obtain ⟨cs, hcs, rfl⟩ := List.mem_map.mp hline
  rw [String.toList_ofList]
  exact feed_not_mem_splitLines _ cs hcs

/-- Lines are the lines of their text. -/
theorem linesOf_textOf {lines : List String} (h : Unbroken lines) :
    linesOf (textOf lines) = lines := by
  have hsplit : splitLines (joinLines (lines.map String.toList)) = lines.map String.toList :=
    splitLines_joinLines _ (List.forall_mem_map.mpr h)
  rw [linesOf, textOf, String.toList_ofList, hsplit]
  simp [Function.comp_def]

end Text

open Text (Unbroken)

theorem Change.unbroken_splice {lines : List String} (h : Unbroken lines) (c : Change) :
    Unbroken (c.splice lines) := by
  intro line hline
  cases c with
  | insert index text =>
    simp only [splice, List.mem_append] at hline
    obtain (hline | hline) | hline := hline
    · exact h line (List.mem_of_mem_take hline)
    · exact Text.unbroken_linesOf text line hline
    · exact h line (List.mem_of_mem_drop hline)
  | delete range =>
    simp only [splice, List.mem_append] at hline
    obtain hline | hline := hline
    · exact h line (List.mem_of_mem_take hline)
    · exact h line (List.mem_of_mem_drop hline)

theorem Edit.unbroken_splice {lines : List String} (h : Unbroken lines) (e : Edit) :
    Unbroken (e.splice lines) := by
  induction e generalizing lines with
  | nil => exact h
  | cons c e ih => exact ih (Change.unbroken_splice h c)

namespace View

variable {v : View} {limit : Nat}

theorem range_within (v : View) (count : Nat) :
    (v.range count).start ≤ count ∧ (v.range count).stop ≤ count ∧
      (v.range count).length ≤ v.height.toNat := by
  simp only [range, LineRange.length]
  by_cases fits : v.Fits
  · have hbottom := fits.bottom
    omega
  · have hbottom := bottom_lt_top fits
    omega

theorem Fits.range_ordered (fits : v.Fits) (count : Nat) :
    (v.range count).start ≤ (v.range count).stop := by
  simp only [range, fits.bottom]
  omega

/-- Neither the top of the window nor its height is above the limit. -/
def Within (limit : Nat) (v : View) : Prop := v.top.toNat ≤ limit ∧ v.height.toNat ≤ limit

theorem Within.fits (h : v.Within limit) (half : 2 * limit < UInt64.size) : v.Fits := by
  simp only [Within] at h
  rw [Fits]
  omega

theorem Within.reveal (h : v.Within limit) (half : 2 * limit < UInt64.size) {line : UInt64}
    (low : line.toNat < limit) : (v.reveal line).Within limit := by
  refine ⟨?_, by rw [reveal_height]; exact h.2⟩
  rcases Nat.lt_or_ge line.toNat v.top.toNat with above | below
  · rw [top_reveal_of_lt above]
    omega
  · rw [top_reveal_of_le (h.fits half) below (by omega)]
    have htop := h.1
    omega

end View

namespace Buffer

variable {b : Buffer} {a : Action} {as : List Action} {id limit : Nat} {height : UInt64}
  {r : LineRange}

theorem run_nil (b : Buffer) : b.run [] = b := rfl

theorem run_append (as later : List Action) (b : Buffer) :
    b.run (as ++ later) = (b.run as).run later := List.foldl_append

theorem run_cons (a : Action) (as : List Action) (b : Buffer) :
    b.run (a :: as) = (b.act a).run as := rfl

/-! ### Lines -/

theorem unbroken_act (h : Unbroken b.lines) (a : Action) : Unbroken (b.act a).lines := by
  cases a with
  | openView | closeView | scrollTo | reveal => exact h
  | clear => simp [act, Buffer.clear, Unbroken]
  | commit e =>
    simp only [act, Buffer.commit]
    cases e.check b.count with
    | ok => exact Edit.unbroken_splice h e
    | error => exact h

theorem unbroken_run (h : Unbroken b.lines) (as : List Action) : Unbroken (b.run as).lines := by
  induction as generalizing b with
  | nil => exact h
  | cons a as ih => exact ih (unbroken_act h a)

/-- In the place of nothing, the text of a buffer brings its lines. -/
theorem commit_text (h : Unbroken b.lines) : ({} : Buffer).commit [.insert 0 b.text] =
    .ok { lines := b.lines, edits := 1 } := by
  have hlines : Text.linesOf b.text = b.lines := Text.linesOf_textOf h
  simp [Buffer.commit, Edit.check, Change.check, Edit.splice, Change.splice, hlines]

/-! ### Views -/

/-- The views by number and height; their windows may lie anywhere. -/
def frames (b : Buffer) : List (Nat × UInt64) := b.views.map fun v => (v.id, v.height)

theorem frames_map {b' : Buffer} (f : View → View) (id : ∀ v, (f v).id = v.id)
    (height : ∀ v, (f v).height = v.height) (views : b'.views = b.views.map f) :
    b'.frames = b.frames := by
  simp [frames, views, id, height]

theorem frames_adjustView (id : Nat) (f : View → View) (hid : ∀ v, (f v).id = v.id)
    (height : ∀ v, (f v).height = v.height) : (b.adjustView id f).frames = b.frames :=
  frames_map (fun v => if v.id = id then f v else v) (fun v => by split <;> simp [hid])
    (fun v => by split <;> simp [height]) rfl

/-- Only opening and closing change which views there are. -/
theorem frames_act (a : Action) (b : Buffer) : (b.act a).frames = match a with
    | .openView height => b.frames ++ [(b.lastView + 1, max height 1)]
    | .closeView id => b.frames.filter (·.1 ≠ id)
    | _ => b.frames := by
  cases a with
  | openView height => simp [act, Buffer.openView, frames]
  | closeView id =>
    simp only [act, Buffer.closeView, frames, List.filter_map]
    rfl
  | scrollTo id top => exact frames_adjustView id _ (fun _ => rfl) fun _ => rfl
  | reveal id line => exact frames_adjustView id _ (View.reveal_id line) (View.reveal_height line)
  | clear => exact frames_map (fun v => { v with top := 0 }) (fun _ => rfl) (fun _ => rfl) rfl
  | commit e =>
    simp only [act, Buffer.commit]
    cases e.check b.count <;> rfl

/-- A view of this height was opened in the course of the actions, under this number, and
not closed after that. -/
def StaysOpen (as : List Action) (id : Nat) (height : UInt64) : Prop :=
  ∃ before later, as = before ++ .openView height :: later ∧
    ((run before {}).openView height).1 = id ∧ .closeView id ∉ later

theorem not_staysOpen_nil : ¬ StaysOpen [] id height := by
  rintro ⟨before, later, h, -⟩
  simp at h

theorem staysOpen_concat : StaysOpen (as ++ [a]) id height ↔
    (a = .openView height ∧ (run as {}).lastView + 1 = id) ∨
      (a ≠ .closeView id ∧ StaysOpen as id height) := by
  constructor
  · rintro ⟨before, later, h, hid, hopen⟩
    rcases List.eq_nil_or_concat later with rfl | ⟨later, c, rfl⟩
    · obtain ⟨rfl, ha⟩ := List.append_inj' h rfl
      exact .inl ⟨List.singleton_inj.mp ha, hid⟩
    · rw [List.concat_eq_append, ← List.cons_append, ← List.append_assoc] at h
      obtain ⟨rfl, ha⟩ := List.append_inj' h rfl
      rw [List.singleton_inj] at ha
      simp only [List.concat_eq_append, List.mem_append, List.mem_singleton, not_or] at hopen
      exact .inr ⟨fun hc => hopen.2 (hc.symm.trans ha), before, later, rfl, hid, hopen.1⟩
  · rintro (⟨rfl, hid⟩ | ⟨ha, before, later, rfl, hid, hopen⟩)
    · exact ⟨as, [], rfl, hid, List.not_mem_nil⟩
    · refine ⟨before, later ++ [a], by simp, hid, ?_⟩
      simpa only [List.mem_append, List.mem_singleton, not_or] using ⟨hopen, Ne.symm ha⟩

/-- The views are those that stay open, with the heights they were opened with. -/
theorem mem_frames_run (as : List Action) (id : Nat) (tall : UInt64) :
    (id, tall) ∈ (run as {}).frames ↔ ∃ height, StaysOpen as id height ∧ tall = max height 1 := by
  induction as using List.reverseRecOn with
  | nil => simp [frames, run_nil, not_staysOpen_nil]
  | append_singleton as a ih =>
    simp only [run_append, run_cons, run_nil, frames_act, staysOpen_concat]
    cases a with
    | openView height =>
      simp only [List.mem_append, ih, List.mem_singleton, Prod.mk.injEq]
      constructor
      · rintro (⟨old, hopen, rfl⟩ | ⟨rfl, rfl⟩)
        · exact ⟨old, .inr ⟨nofun, hopen⟩, rfl⟩
        · exact ⟨height, .inl ⟨rfl, rfl⟩, rfl⟩
      · rintro ⟨_, ⟨⟨rfl⟩, rfl⟩ | ⟨-, hopen⟩, rfl⟩
        · exact .inr ⟨rfl, rfl⟩
        · exact .inl ⟨_, hopen, rfl⟩
    | closeView other =>
      simp only [List.mem_filter, ih, decide_not, Bool.not_eq_true', decide_eq_false_iff_not,
        reduceCtorEq, false_and, false_or, ne_eq, Action.closeView.injEq]
      constructor
      · rintro ⟨⟨height, hopen, rfl⟩, hne⟩
        exact ⟨height, ⟨Ne.symm hne, hopen⟩, rfl⟩
      · rintro ⟨height, ⟨hne, hopen⟩, rfl⟩
        exact ⟨⟨height, hopen, rfl⟩, Ne.symm hne⟩
    | scrollTo | reveal | commit | clear =>
      simp only [ih, reduceCtorEq, false_and, false_or, ne_eq, not_false_eq_true, true_and]

/-- The numbers that views are opened under in the course of some actions. -/
def handedOut : List Action → Buffer → List Nat
  | [], _ => []
  | a :: as, b =>
    match a with
    | .openView height => (b.openView height).1 :: handedOut as (b.act a)
    | _ => handedOut as (b.act a)

theorem lastView_act (a : Action) (b : Buffer) : (b.act a).lastView = match a with
    | .openView _ => b.lastView + 1
    | _ => b.lastView := by
  cases a with
  | openView | closeView | scrollTo | reveal | clear => rfl
  | commit e =>
    simp only [act, Buffer.commit]
    cases e.check b.count <;> rfl

theorem handedOut_append (as later : List Action) (b : Buffer) :
    handedOut (as ++ later) b = handedOut as b ++ handedOut later (b.run as) := by
  induction as generalizing b with
  | nil => rfl
  | cons a as ih => cases a <;> simp [handedOut, run_cons, ih]

/-- Every number that is handed out is greater than all before. -/
theorem handedOut_ascending (as : List Action) (b : Buffer) :
    (∀ id ∈ handedOut as b, b.lastView < id) ∧ (handedOut as b).Pairwise (· < ·) := by
  induction as generalizing b with
  | nil => simp [handedOut]
  | cons a as ih =>
    obtain ⟨habove, hascending⟩ := ih (b.act a)
    rw [lastView_act] at habove
    cases a with
    | openView height =>
      simp only [handedOut, List.forall_mem_cons, List.pairwise_cons]
      have hfirst : (b.openView height).1 = b.lastView + 1 := rfl
      rw [hfirst]
      exact ⟨⟨Nat.lt_succ_self _, fun id hid => Nat.lt_of_succ_lt (habove id hid)⟩, habove,
        hascending⟩
    | closeView | scrollTo | reveal | commit | clear => exact ⟨habove, hascending⟩

theorem StaysOpen.handedOut (h : StaysOpen as id height) : id ∈ handedOut as {} := by
  obtain ⟨before, later, rfl, rfl, -⟩ := h
  rw [handedOut_append]
  exact List.mem_append_right _ List.mem_cons_self

theorem mem_viewIds_run : id ∈ (run as {}).viewIds ↔ ∃ height, StaysOpen as id height := by
  have hids : (run as {}).viewIds = (run as {}).frames.map Prod.fst := by simp [viewIds, frames]
  rw [hids, List.mem_map]
  constructor
  · rintro ⟨⟨id, tall⟩, hmem, rfl⟩
    obtain ⟨height, hopen, -⟩ := (mem_frames_run as id tall).mp hmem
    exact ⟨height, hopen⟩
  · rintro ⟨height, hopen⟩
    exact ⟨_, (mem_frames_run as id _).mpr ⟨height, hopen, rfl⟩, rfl⟩

theorem visible?_isSome : (b.visible? id).isSome = true ↔ id ∈ b.viewIds := by
  simp [visible?, view?, viewIds]

/-- What a view shows lies within the lines, and is no longer than the view is tall. -/
theorem visible?_run (h : (run as {}).visible? id = some r) :
    r.start ≤ (run as {}).count ∧ r.stop ≤ (run as {}).count ∧
      ∃ height, StaysOpen as id height ∧ r.length ≤ (max height 1).toNat := by
  obtain ⟨v, hfind, rfl⟩ := Option.map_eq_some_iff.mp h
  obtain ⟨hbegin, hend, hlength⟩ := v.range_within (run as {}).count
  have hid : v.id = id := by simpa using List.find?_some hfind
  have hmem : (id, v.height) ∈ (run as {}).frames :=
    List.mem_map.mpr ⟨v, List.mem_of_find?_eq_some hfind, by rw [hid]⟩
  obtain ⟨height, hopen, htall⟩ := (mem_frames_run as id v.height).mp hmem
  exact ⟨hbegin, hend, height, hopen, htall ▸ hlength⟩

/-- The order is right where the window fits. -/
theorem visible?_of_fits {v : View} (shown : b.view? id = some v) (fits : v.Fits) :
    ∃ r, b.visible? id = some r ∧ r.start ≤ r.stop ∧ r.stop ≤ b.count := by
  refine ⟨v.range b.count, ?_, fits.range_ordered b.count, (v.range_within b.count).2.1⟩
  rw [visible?, shown]
  rfl

/-! ### Windows -/

/-- No height and no line that is asked for is above the limit. -/
def Action.Within (limit : Nat) : Action → Prop
  | .openView height => (max height 1).toNat ≤ limit
  | .scrollTo _ top => top.toNat ≤ limit
  | .reveal _ line => line.toNat < limit
  | .closeView _ | .commit _ | .clear => True

instance (limit : Nat) : (a : Action) → Decidable (a.Within limit)
  | .openView height => inferInstanceAs (Decidable ((max height 1).toNat ≤ limit))
  | .scrollTo _ top => inferInstanceAs (Decidable (top.toNat ≤ limit))
  | .reveal _ line => inferInstanceAs (Decidable (line.toNat < limit))
  | .closeView _ | .commit _ | .clear => inferInstanceAs (Decidable True)

theorem within_adjustView {f : View → View} (h : ∀ v ∈ b.views, v.Within limit)
    (hf : ∀ v : View, v.Within limit → (f v).Within limit) :
    ∀ v ∈ (b.adjustView id f).views, v.Within limit := by
  intro v hv
  obtain ⟨u, hu, rfl⟩ := List.mem_map.mp hv
  split
  · exact hf u (h u hu)
  · exact h u hu

theorem within_act (half : 2 * limit < UInt64.size) (h : ∀ v ∈ b.views, v.Within limit)
    (ha : a.Within limit) : ∀ v ∈ (b.act a).views, v.Within limit := by
  cases a with
  | openView height =>
    intro v hv
    rcases List.mem_append.mp hv with hv | hv
    · exact h v hv
    · rw [List.mem_singleton.mp hv]
      exact ⟨Nat.zero_le _, ha⟩
  | closeView id => exact fun v hv => h v (List.mem_of_mem_filter hv)
  | scrollTo id top => exact within_adjustView h fun v hv => ⟨ha, hv.2⟩
  | reveal id line => exact within_adjustView h fun v hv => hv.reveal half ha
  | clear =>
    intro v hv
    obtain ⟨u, hu, rfl⟩ := List.mem_map.mp hv
    exact ⟨Nat.zero_le _, (h u hu).2⟩
  | commit e =>
    simp only [act, Buffer.commit]
    cases e.check b.count <;> exact h

theorem within_run (half : 2 * limit < UInt64.size) (h : ∀ v ∈ b.views, v.Within limit)
    (has : ∀ a ∈ as, a.Within limit) : ∀ v ∈ (b.run as).views, v.Within limit := by
  induction as generalizing b with
  | nil => exact h
  | cons a as ih =>
    exact ih (within_act half h (has a (by simp))) fun a' ha' => has a' (by simp [ha'])

end Buffer

end LogTail
