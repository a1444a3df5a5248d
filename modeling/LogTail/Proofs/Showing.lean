import LogTail.Proofs.Foreign

/-!
# How many views show a document

Views are opened and closed through the workspace alone, and each one that is gets
published. What a desk does by itself closes none; so no document can lose its last view
without an event.
-/
namespace LogTail

namespace Document

variable {d : Document}

@[simp] theorem views_commit (e : Edit) (d : Document) :
    (d.commit e).2.buffer.views = d.buffer.views := by
  simp only [commit]
  split
  · rfl
  · split
    · rename_i committed
      simp only [Buffer.commit] at committed
      split at committed
      · cases committed
        rfl
      · cases committed
    · rfl

@[simp] theorem views_append (budget : Nat) (entries : List Entry) (d : Document) :
    (d.append budget entries).2.buffer.views = d.buffer.views := by
  unfold append
  split
  · rfl
  · rename_i e _
    have hviews := views_commit (d := d) (e := planAppend d.buffer.count entries budget)
    split <;> rename_i committed <;> rw [committed] at hviews <;> exact hviews

theorem length_views_revealEnd (ids : List Nat) (b : Buffer) :
    (b.revealEnd ids).views.length = b.views.length := by
  have hfold (b : Buffer) :
      (ids.foldl (fun b id => b.reveal id (.ofNat (b.count - 1))) b).views.length =
        b.views.length := by
    induction ids generalizing b with
    | nil => rfl
    | cons id rest ih => exact (ih (b.reveal id (.ofNat (b.count - 1)))).trans (List.length_map _)
  unfold Buffer.revealEnd
  split
  · rfl
  · exact hfold b

/-- Following moves views and neither opens nor closes one. -/
theorem length_views_follow (budget : Nat) (entries : List Entry) (d : Document) :
    (d.follow budget entries).2.buffer.views.length = d.buffer.views.length := by
  have hviews := views_append budget entries d
  unfold follow
  split <;> rename_i appended <;> rw [appended] at hviews
  · exact (length_views_revealEnd _ _).trans (congrArg List.length hviews)
  · exact congrArg List.length hviews

end Document

namespace Pump

/-- How many views the document of a pump has. -/
def viewCount (p : Pump) : Nat := p.document.buffer.views.length

theorem viewCount_write (budget : Nat) (fired sampled : Bool) (records : List Record) (p : Pump) :
    (p.write budget fired sampled records).2.viewCount = p.viewCount := by
  have hfollow := Document.length_views_follow budget (entriesOf records) p.document
  simp only [write]
  split
  · rfl
  split
  · rfl
  split <;> rename_i followed <;> simp only [count] at followed <;> rw [followed] at hfollow <;>
    exact hfollow

theorem viewCount_take (budget : Nat) (fired : Bool) (i : Item) (p : Pump) :
    (p.take budget fired (some i)).2.viewCount = p.viewCount := by
  cases i with
  | fault => rfl
  | frame f =>
    have hhandle (p : Pump) : (p.handle budget fired f).2.viewCount = p.viewCount := by
      cases f with
      | accepted | unknown => rfl
      | update sampled records => exact viewCount_write budget fired sampled records _
    have hframe := hhandle (p.count fun t => { t with frames := t.frames + 1 })
    simp only [take]
    split <;> rename_i handled <;> rw [handled] at hframe <;> exact hframe

end Pump

namespace Workspace

variable {key : Key} {w w' w'' : Workspace}

/-- Nothing was published, and every document has as many views as it had. -/
structure SameViews (w w' : Workspace) : Prop where
  published : w'.published = w.published
  count : ∀ key, w'.viewCount key = w.viewCount key

/-- More was published, or no document has lost its last view. -/
structure Noticed (w w' : Workspace) : Prop where
  published : w.published <+: w'.published
  shown : w'.published = w.published → ∀ key, 0 < w.viewCount key → 0 < w'.viewCount key

namespace SameViews

theorem refl (w : Workspace) : SameViews w w := ⟨rfl, fun _ => rfl⟩

theorem trans (h : SameViews w w') (h' : SameViews w' w'') : SameViews w w'' :=
  ⟨h'.published.trans h.published, fun key => (h'.count key).trans (h.count key)⟩

theorem noticed (h : SameViews w w') : Noticed w w' :=
  ⟨h.published ▸ List.prefix_rfl, fun _ key hk => (h.count key).symm ▸ hk⟩

end SameViews

namespace Noticed

theorem refl (w : Workspace) : Noticed w w := (SameViews.refl w).noticed

theorem trans (h : Noticed w w') (h' : Noticed w' w'') : Noticed w w'' where
  published := h.published.trans h'.published
  shown same key hk := by
    -- nothing can have been published in between
    have hsame : w'.published = w.published :=
      (h.published.eq_of_length_le (by rw [← same]; exact h'.published.length_le)).symm
    exact h'.shown (same.trans hsame.symm) key (h.shown hsame key hk)

/-- Whatever becomes of the views of a document, it is noticed once an event tells of it. -/
theorem publish (key : Key) (f : Document → Document) (e : ViewEvent) (w : Workspace) :
    Noticed w ((w.onDocument key f).publish e) where
  published := List.prefix_append _ _
  shown same := by simp [Workspace.publish, onDocument] at same

end Noticed

theorem viewCount_eq (key : Key) (w : Workspace) :
    w.viewCount key = ((w.document? key).map fun d => d.buffer.views.length).getD 0 := by
  unfold viewCount
  cases w.document? key <;> rfl

/-- Work on a document that neither opens nor closes a view. -/
theorem sameViews_onDocument (f : Document → Document) (h : ∀ d, w.document? key = some d →
    (f d).buffer.views.length = d.buffer.views.length) : SameViews w (w.onDocument key f) := by
  refine ⟨rfl, fun j => ?_⟩
  rw [viewCount_eq, viewCount_eq, document?_onDocument]
  split
  · rename_i hk
    subst hk
    cases hd : w.document? key with
    | none => rfl
    | some d => simp [h d hd]
  · rfl

theorem sameViews_clearDocument (key : Key) (w : Workspace) : SameViews w (w.clearDocument key) :=
  sameViews_onDocument _ fun _ _ => List.length_map _

theorem sameViews_scrollTo (key : Key) (id : Nat) (top : UInt64) (w : Workspace) :
    SameViews w (w.scrollTo key id top) :=
  sameViews_onDocument _ fun _ _ => List.length_map _

theorem noticed_openView (key : Key) (w : Workspace) : Noticed w (w.openView key).2 := by
  unfold openView
  split
  · exact .refl w
  · exact .publish key _ _ w

theorem noticed_closeView (key : Key) (id : Nat) (w : Workspace) :
    Noticed w (w.closeView key id).2 := by
  unfold closeView
  split
  · exact .refl w
  · split
    · exact .publish key _ _ w
    · exact .refl w

/-- A document that is there is seen once a view of it was opened. -/
theorem viewCount_openView (there : (w.document? key).isSome) :
    0 < (w.openView key).2.viewCount key := by
  obtain ⟨d, hd⟩ := Option.isSome_iff_exists.mp there
  have hopen : ((w.openView key).2.document? key) =
      some { d with buffer := (d.buffer.openView w.viewHeight).2 } := by
    simp only [openView, hd]
    exact (document?_onDocument (w := w) _).trans (by simp [hd, Document.onBuffer])
  simp [viewCount_eq, hopen, Buffer.openView]

theorem noticed_bringToFront (key : Key) (w : Workspace) : Noticed w (w.bringToFront key) := by
  have hfocus : Noticed w { w with focused := some key, focusRequests := w.focusRequests + 1 } :=
    SameViews.noticed ⟨rfl, fun _ => rfl⟩
  unfold bringToFront
  simp only
  split
  · exact hfocus.trans (noticed_openView key _)
  · exact hfocus

/-- A document that is brought to the front is seen there. -/
theorem bringToFront_shows (there : (w.document? key).isSome) :
    (w.bringToFront key).focused = some key ∧ 0 < (w.bringToFront key).viewCount key := by
  unfold bringToFront
  simp only
  split
  · refine ⟨?_, viewCount_openView there⟩
    unfold openView
    split <;> rfl
  · exact ⟨rfl, Nat.pos_of_ne_zero ‹_›⟩

theorem noticed_focusDocument (key : Key) (w : Workspace) :
    Noticed w (w.focusDocument key).2 := by
  unfold focusDocument
  split
  · exact noticed_bringToFront key w
  · exact .refl w

theorem focusDocument_shows (there : (w.document? key).isSome) :
    (w.focusDocument key).2.focused = some key ∧ 0 < (w.focusDocument key).2.viewCount key := by
  have hthere : KeyMap.contains key w.documents = true := there
  simp only [focusDocument, hthere, if_true]
  exact bringToFront_shows there

/-- A document that is opened is there and seen, and other documents keep their views. -/
theorem openDocument_shows (h : w.openDocument key = (.ok (), w')) : Noticed w w' ∧
    (w'.document? key).isSome ∧ w'.focused = some key ∧ 0 < w'.viewCount key := by
  have there : (w'.document? key).isSome := by
    rw [← lines?_isSome, lines?_openDocument h, if_pos rfl]
    rfl
  unfold openDocument at h
  simp only at h
  split at h
  · cases h
  · simp only [Prod.mk.injEq, true_and] at h
    subst h
    refine ⟨Noticed.trans ?_ (noticed_bringToFront key _), there, ?_⟩
    · split
      · exact SameViews.noticed ⟨rfl, fun _ => rfl⟩
      · rename_i absent
        -- a new document has no views, as it had before it was there
        have hnone := KeyMap.get?_of_not_contains absent
        refine SameViews.noticed ⟨rfl, fun j => ?_⟩
        simp only [viewCount_eq, document?, KeyMap.get?_insert]
        by_cases hj : key = j
        · subst hj
          simp only [if_pos, hnone]
          rfl
        · rw [if_neg hj]
    · refine bringToFront_shows ?_
      rwa [← lines?_isSome, lines?_bringToFront, lines?_isSome] at there

end Workspace

/-- It makes a watcher, wakes one or gives the desk up. -/
def Move.isWatch : Move → Bool
  | watch | wake _ | drop => true
  | _ => false

namespace Desk

open Workspace (SameViews Noticed)

variable {d d' d'' : Desk} {R : Workspace → Workspace → Prop}

/-- What becomes of the workspace while no watcher is woken and the desk is not given up. -/
structure Meanwhile (R : Workspace → Workspace → Prop) (d d' : Desk) : Prop where
  workspace : R d.workspace d'.workspace
  watchers : d'.watchers = d.watchers
  dropped : d'.dropped = d.dropped

namespace Meanwhile

theorem trans (hR : ∀ {w w' w''}, R w w' → R w' w'' → R w w'') (h : Meanwhile R d d')
    (h' : Meanwhile R d' d'') : Meanwhile R d d'' :=
  ⟨hR h.workspace h'.workspace, h'.watchers.trans h.watchers, h'.dropped.trans h.dropped⟩

theorem noticed (h : Meanwhile SameViews d d') : Meanwhile Noticed d d' :=
  ⟨h.workspace.noticed, h.watchers, h.dropped⟩

theorem same (workspace : d'.workspace = d.workspace) (watchers : d'.watchers = d.watchers)
    (dropped : d'.dropped = d.dropped) : Meanwhile SameViews d d' :=
  ⟨workspace ▸ .refl _, watchers, dropped⟩

/-- However many sessions are torn down, no view is closed with them. -/
theorem teardowns : Teardowns (Meanwhile SameViews) where
  refl _ := .same rfl rfl rfl
  trans h h' := h.trans .trans h'
  teardown n reason d := by
    have htears := teardown_tearsDown n reason d
    generalize (d.teardown n reason).2 = d' at htears
    cases htears with
    | absent | again => exact .same rfl rfl rfl
    | first =>
      refine ⟨?_, rfl, rfl⟩
      split
      · exact Workspace.sameViews_clearDocument _ _
      · exact .refl _

theorem stopUnviewed (d : Desk) : Meanwhile SameViews d d.stopUnviewed.2 :=
  teardowns.stopUnviewedAmong _ d

/-- What was done before may have touched anything else. -/
theorem after (h : Meanwhile SameViews d' d'') (workspace : d.workspace.SameViews d'.workspace)
    (watchers : d'.watchers = d.watchers) (dropped : d'.dropped = d.dropped) :
    Meanwhile SameViews d d'' :=
  teardowns.trans ⟨workspace, watchers, dropped⟩ h

theorem endFeed (n : Nat) (t : Tail) (f : Feed) (exit : Exit) (d : Desk) :
    Meanwhile SameViews d (d.endFeed n t f exit) :=
  after (teardowns.teardown n .streamEnded _) (.refl _) rfl rfl

theorem takeItem (n : Nat) (t : Tail) (f : Feed) (i : Item) (d : Desk) :
    Meanwhile SameViews d (d.takeItem n t f i) := by
  have hviews := Pump.viewCount_take t.session.budget t.session.cancelled i
    { document := (d.workspace.document? t.key).getD {}, tally := f.tally }
  simp only [Desk.takeItem]
  generalize Pump.take _ _ _ _ = taken at hviews
  obtain ⟨exit, p⟩ := taken
  have hwritten : d.workspace.SameViews (d.workspace.onDocument t.key fun _ => p.document) := by
    refine Workspace.sameViews_onDocument _ fun doc hdoc => ?_
    simp only [hdoc, Option.getD_some] at hviews
    exact hviews
  cases exit with
  | none => exact ⟨hwritten, rfl, rfl⟩
  | some exit => exact after (endFeed n t _ exit _) hwritten rfl rfl

theorem pull (n : Nat) (d : Desk) : Meanwhile SameViews d (d.pull n) := by
  have hpulls := pull_pulls n d
  generalize d.pull n = d' at hpulls
  cases hpulls with
  | idle => exact .same rfl rfl rfl
  | cancelled => exact endFeed n _ _ _ d
  | waits => exact .same rfl rfl rfl
  | closed => exact after (endFeed n _ _ _ _) (.refl _) rfl rfl
  | item => exact after (takeItem n _ _ _ _) (.refl _) rfl rfl

end Meanwhile

/-- Whatever a desk is made to do short of a watcher's work, a document that loses its last
view is noticed. -/
theorem Steady.move_noticed (hs : d.Steady) {m : Move} (other : m.isWatch = false) :
    Meanwhile Noticed d (d.move m) := by
  have hteardowns := Meanwhile.teardowns
  cases m with
  | start source =>
    have hturns := hs.move_turns (.start source)
    generalize d.move (.start source) = d' at hturns
    cases hturns with
    | worked request => cases request
    | begun h =>
      cases h with
      | refused | entered => exact Meanwhile.noticed (.same rfl rfl rfl)
      | refocused | outrun => exact ⟨Workspace.noticed_focusDocument source.key _, rfl, rfl⟩
  | answer c =>
    have hturns := hs.move_turns (.answer c)
    generalize d.move (.answer c) = d' at hturns
    cases hturns with
    | worked request => cases request
    | unasked => exact (hteardowns.refl d).noticed
    | finished _ _ _ h =>
      cases h with
      | opened _ _ document => exact ⟨(Workspace.openDocument_shows document).1, rfl, rfl⟩
      | failed => exact ⟨SameViews.noticed ⟨rfl, fun _ => rfl⟩, rfl, rfl⟩
  | stop key => exact (hteardowns.stopKey key .explicit d).noticed
  | stopAll => exact (hteardowns.stopKeys _ d).noticed
  | stopUnviewed => exact (Meanwhile.stopUnviewed d).noticed
  | clear key =>
    have hclears := clear_clears key d
    simp only [Desk.move]
    generalize (d.clear key).2 = d' at hclears
    cases hclears with
    | idle => exact (hteardowns.refl d).noticed
    | cleared => exact Meanwhile.noticed ⟨Workspace.sameViews_clearDocument key _, rfl, rfl⟩
  | pull n => exact (Meanwhile.pull n d).noticed
  | arm n =>
    have harms := arm_arms n d
    simp only [Desk.move]
    generalize d.arm n = d' at harms
    cases harms <;> exact Meanwhile.noticed (.same rfl rfl rfl)
  | tick n =>
    have hticks := tick_ticks n d
    simp only [Desk.move]
    generalize d.tick n = d' at hticks
    cases hticks <;> exact Meanwhile.noticed (.same rfl rfl rfl)
  | openView key => exact ⟨Workspace.noticed_openView key _, rfl, rfl⟩
  | closeView key id => exact ⟨Workspace.noticed_closeView key id _, rfl, rfl⟩
  | scroll key id top =>
    exact Meanwhile.noticed ⟨Workspace.sameViews_scrollTo key id top _, rfl, rfl⟩
  | watch | wake _ | drop => cases other
  | await | pass | provide | cut | send | closeSender =>
    exact Meanwhile.noticed (.same rfl rfl rfl)

end Desk

end LogTail
