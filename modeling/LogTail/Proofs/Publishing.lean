import LogTail.Proofs.Buffers
import LogTail.Proofs.Showing

/-!
# What a workspace publishes

Views are held by the documents, while those who wait for views to open and close hear of
them through what is published. Whatever a host does with its documents, the two agree:
who begins with nothing, adds a view when one is opened and takes it away when it is closed,
knows at every moment which views a document has.
-/
namespace LogTail

namespace Buffer

variable {b : Buffer} {id : Nat}

theorem view?_isSome : (b.view? id).isSome = true ↔ id ∈ b.viewIds := by
  simp [view?, viewIds]

theorem closeView_found (id : Nat) (b : Buffer) : (b.closeView id).1 = decide (id ∈ b.viewIds) :=
  Bool.eq_iff_iff.mpr (view?_isSome.trans decide_eq_true_iff.symm)

/-- Whatever its number, a view that is closed is not there afterwards. -/
theorem viewIds_closeView (id : Nat) (b : Buffer) :
    (b.closeView id).2.viewIds = b.viewIds.filter (· ≠ id) := by
  simp only [closeView, viewIds, List.filter_map]
  rfl

theorem viewIds_openView (height : UInt64) (b : Buffer) :
    (b.openView height).2.viewIds = b.viewIds ++ [b.lastView + 1] := by
  simp [openView, viewIds]

theorem Sound.fresh (h : b.Sound) : b.lastView + 1 ∉ b.viewIds :=
  fun there => Nat.not_succ_le_self _ (h.numbered _ there)

end Buffer

namespace Document

/-- It is the same document, of which only views have been opened or closed; view numbers
that were handed out are not handed out again. -/
structure Keeps (d d' : Document) : Prop where
  lines : d'.buffer.lines = d.buffer.lines
  edits : d'.buffer.edits = d.buffer.edits
  tries : d'.tries = d.tries
  refusals : d'.refusals = d.refusals
  numbered : d.buffer.lastView ≤ d'.buffer.lastView

/-- The document after edits, each of which may be refused. -/
def edited (es : List Edit) (d : Document) : Document := es.foldl (fun d e => (d.commit e).2) d

namespace Keeps

variable {d d' d'' : Document}

theorem refl (d : Document) : Keeps d d := ⟨rfl, rfl, rfl, rfl, Nat.le_refl _⟩

theorem trans (h : Keeps d d') (h' : Keeps d' d'') : Keeps d d'' where
  lines := h'.lines.trans h.lines
  edits := h'.edits.trans h.edits
  tries := h'.tries.trans h.tries
  refusals := h'.refusals.trans h.refusals
  numbered := Nat.le_trans h.numbered h'.numbered

/-- What an edit does has nothing to do with views. -/
theorem commit (h : Keeps d d') (e : Edit) : Keeps (d.commit e).2 (d'.commit e).2 := by
  obtain ⟨⟨lines, views, last, edits⟩, tries, refusals⟩ := d
  obtain ⟨⟨lines', views', last', edits'⟩, tries', refusals'⟩ := d'
  obtain ⟨rfl, rfl, rfl, rfl, numbered⟩ := h
  simp only [Document.commit, Buffer.commit, Buffer.count]
  split
  · exact ⟨rfl, rfl, rfl, rfl, numbered⟩
  · cases e.check lines'.length <;> exact ⟨rfl, rfl, rfl, rfl, numbered⟩

theorem edited (h : Keeps d d') (es : List Edit) : Keeps (d.edited es) (d'.edited es) := by
  induction es generalizing d d' with
  | nil => exact h
  | cons e es ih => exact ih (h.commit e)

end Keeps

theorem lastView_commit (e : Edit) (d : Document) :
    (d.commit e).2.buffer.lastView = d.buffer.lastView := by
  simp only [commit]
  split
  · rfl
  · cases he : e.check d.buffer.count <;> simp [Buffer.commit, he]

end Document

namespace Workspace

variable {key j : Key} {w w' w'' : Workspace} {doc : Document} {id : Nat}

/-- The views of a document, by their numbers. -/
def viewIds (key : Key) (w : Workspace) : List Nat :=
  ((w.document? key).map fun d => d.buffer.viewIds).getD []

theorem length_viewIds (key : Key) (w : Workspace) : w.viewCount key = (w.viewIds key).length := by
  rw [viewCount_eq, viewIds]
  cases w.document? key <;> simp [Buffer.viewIds]

theorem viewIds_of (there : w.document? key = some doc) : w.viewIds key = doc.buffer.viewIds := by
  rw [viewIds, there]
  rfl

/-- What an event makes of the views that someone knows of a document; nothing if it opens
a view that is known already, or closes one that is not. -/
def hear (key : Key) (ids : List Nat) : ViewEvent → Option (List Nat)
  | .opened k id => if k ≠ key then some ids else if id ∈ ids then none else some (ids ++ [id])
  | .closed k id => if k ≠ key then some ids else if id ∈ ids then some (ids.erase id) else none

/-- The views of a document as they are known to someone who has heard the events. -/
def replay (key : Key) (es : List ViewEvent) : Option (List Nat) := es.foldlM (hear key) []

theorem replay_append_one (es : List ViewEvent) (e : ViewEvent) :
    replay key (es ++ [e]) = (replay key es).bind fun ids => hear key ids e := by
  simp [replay, List.foldlM_append]

/-- What holds of a workspace between any two things that are done to it. -/
structure InStep (w : Workspace) : Prop where
  heard : ∀ key, replay key w.published = some (w.viewIds key)
  sound : ∀ key doc, w.document? key = some doc → doc.buffer.Sound

/-- One thing that is done for the documents of a workspace and leaves their lines alone. -/
inductive Shift (key : Key) (w : Workspace) : Workspace → Prop where
  /-- A document is asked for, or comes to the front. -/
  | aside {w' : Workspace} (documents : w'.documents = w.documents)
      (published : w'.published = w.published) : Shift key w w'
  | made (absent : w.document? key = none) :
      Shift key w { w with documents := KeyMap.insert key {} w.documents }
  | opened {doc : Document} (there : w.document? key = some doc) (height : UInt64) :
      Shift key w ((w.onBuffer key fun _ => (doc.buffer.openView height).2).publish
        (.opened key (doc.buffer.lastView + 1)))
  | closed {doc : Document} {id : Nat} (there : w.document? key = some doc)
      (shown : id ∈ doc.buffer.viewIds) :
      Shift key w ((w.onBuffer key fun _ => (doc.buffer.closeView id).2).publish (.closed key id))

/-- What is left to show when one document is replaced and an event may tell of it. -/
theorem InStep.replace (h : w.InStep) {doc' : Document}
    (documents : ∀ j, w'.document? j = if key = j then some doc' else w.document? j)
    (sound : doc'.buffer.Sound)
    (heard : ∀ j, replay j w'.published = if key = j then some doc'.buffer.viewIds
      else replay j w.published) : w'.InStep where
  heard j := by
    rw [heard, viewIds, documents]
    split
    · rfl
    · exact h.heard j
  sound j d hd := by
    rw [documents] at hd
    split at hd
    · cases hd
      exact sound
    · exact h.sound j d hd

/-- The documents once the views of one have changed and an event tells of it. -/
theorem document?_publish (there : w.document? key = some doc) (b : Buffer) (e : ViewEvent)
    (j : Key) : ((w.onBuffer key fun _ => b).publish e).document? j =
      if key = j then some { doc with buffer := b } else w.document? j := by
  change (w.onDocument key (Document.onBuffer fun _ => b)).document? j = _
  rw [document?_onDocument]
  split
  · rename_i hj
    rw [← hj, there]
    rfl
  · rfl

/-- A view that is opened is new, and one that is closed was there. -/
theorem InStep.publish (h : w.InStep) {b : Buffer} {e : ViewEvent}
    (there : w.document? key = some doc) (sound : b.Sound)
    (same : hear key doc.buffer.viewIds e = some b.viewIds)
    (others : ∀ j, key ≠ j → ∀ ids, hear j ids e = some ids) :
    ((w.onBuffer key fun _ => b).publish e).InStep := by
  refine h.replace (document?_publish there b e) sound fun j => ?_
  have hpublished : ((w.onBuffer key fun _ => b).publish e).published = w.published ++ [e] := rfl
  rw [hpublished, replay_append_one, h.heard]
  split
  · rename_i hj
    rw [← hj, viewIds_of there]
    exact same
  · rename_i hj
    exact others j hj _

theorem Shift.inStep (h : Shift key w w') (hs : w.InStep) : w'.InStep := by
  cases h with
  | aside documents published =>
    refine ⟨fun j => ?_, fun j d hd => hs.sound j d ?_⟩
    · rw [published, hs.heard]
      simp only [viewIds, document?, documents]
    · simpa only [document?, documents] using hd
  | made absent =>
    have hdocuments (j : Key) := KeyMap.get?_insert key j ({} : Document) w.documents
    refine hs.replace hdocuments Buffer.sound_empty fun j => ?_
    split
    · rename_i hj
      rw [← hj, hs.heard, viewIds, absent]
      rfl
    · rfl
  | @opened doc there height =>
    have sound := hs.sound key doc there
    refine hs.publish there (sound.openView height) ?_ fun j hj ids => by simp [hear, hj]
    rw [Buffer.viewIds_openView]
    simp [hear, sound.fresh]
  | @closed doc id there shown =>
    have sound := hs.sound key doc there
    refine hs.publish there (sound.closeView id) ?_ fun j hj ids => by simp [hear, hj]
    rw [Buffer.viewIds_closeView]
    simp [hear, shown, sound.distinct.erase_eq_filter, bne, Bool.beq_eq_decide_eq]

/-- What is done for one document leaves the others as they are. -/
theorem Shift.other (h : Shift key w w') (other : key ≠ j) : w'.document? j = w.document? j := by
  cases h with
  | aside documents published => simp only [document?, documents]
  | made absent => exact (KeyMap.get?_insert key j {} w.documents).trans (if_neg other)
  | opened there height => exact (document?_publish there _ _ j).trans (if_neg other)
  | closed there shown => exact (document?_publish there _ _ j).trans (if_neg other)

/-- A document that is there stays there, and its lines with it. -/
theorem Shift.keeps (h : Shift key w w') (there : w.document? j = some doc) :
    ∃ doc', w'.document? j = some doc' ∧ doc.Keeps doc' := by
  by_cases other : key = j
  · subst other
    cases h with
    | aside documents published =>
      exact ⟨doc, by simpa only [document?, documents] using there, .refl doc⟩
    | made absent =>
      rw [absent] at there
      cases there
    | opened found height =>
      rw [found] at there
      cases there
      exact ⟨_, (document?_publish found _ _ key).trans (if_pos rfl), rfl, rfl, rfl, rfl,
        Nat.le_succ _⟩
    | closed found shown =>
      rw [found] at there
      cases there
      exact ⟨_, (document?_publish found _ _ key).trans (if_pos rfl), rfl, rfl, rfl, rfl,
        Nat.le_refl _⟩
  · exact ⟨doc, (h.other other).trans there, .refl doc⟩

/-! ### What a host asks for -/

theorem openView_eq (there : w.document? key = some doc) : w.openView key =
    (some (doc.buffer.lastView + 1),
      (w.onBuffer key fun _ => (doc.buffer.openView w.viewHeight).2).publish
        (.opened key (doc.buffer.lastView + 1))) := by
  simp only [openView, there]
  rfl

theorem closeView_eq (there : w.document? key = some doc) (id : Nat) : w.closeView key id =
    if id ∈ doc.buffer.viewIds then
      (true, (w.onBuffer key fun _ => (doc.buffer.closeView id).2).publish (.closed key id))
    else (false, w) := by
  have hfound := Buffer.closeView_found id doc.buffer
  simp only [closeView, there]
  cases hclose : doc.buffer.closeView id with
  | mk found b =>
  rw [hclose] at hfound
  by_cases shown : id ∈ doc.buffer.viewIds
  · obtain rfl : found = true := by simpa [shown] using hfound
    rw [if_pos shown]
  · obtain rfl : found = false := by simpa [shown] using hfound
    rw [if_neg shown]

/-- A view that is there can be closed, and it alone is gone then. -/
theorem closeView_shown (shown : id ∈ w.viewIds key) : (w.closeView key id).1 = true ∧
    (w.closeView key id).2.viewIds key = (w.viewIds key).filter (· ≠ id) := by
  cases there : w.document? key with
  | none => simp [viewIds, there] at shown
  | some doc =>
    rw [viewIds_of there] at shown
    have hafter := document?_publish there (doc.buffer.closeView id).2 (.closed key id) key
    rw [if_pos rfl] at hafter
    rw [closeView_eq there, if_pos shown]
    refine ⟨rfl, ?_⟩
    rw [viewIds_of hafter, viewIds_of there]
    exact Buffer.viewIds_closeView id doc.buffer

/-- Views that are there are all closed, and no others. -/
theorem closeViews_shown {ids : List Nat} (distinct : ids.Nodup)
    (shown : ∀ id ∈ ids, id ∈ w.viewIds key) :
    (closeViews key ids w).1 = ids.length ∧
      (closeViews key ids w).2.viewIds key = (w.viewIds key).filter (· ∉ ids) := by
  induction ids generalizing w with
  | nil => simp [closeViews]
  | cons id rest ih =>
    obtain ⟨fresh, distinct⟩ := List.nodup_cons.mp distinct
    obtain ⟨found, left⟩ := closeView_shown (shown id List.mem_cons_self)
    have hrest (i : Nat) (hi : i ∈ rest) : i ∈ (w.closeView key id).2.viewIds key := by
      have hne : i ≠ id := fun he => fresh (he ▸ hi)
      rw [left]
      simp [hne, shown i (List.mem_cons_of_mem _ hi)]
    obtain ⟨hcount, hleft⟩ := ih distinct hrest
    constructor
    · simp [closeViews, found, hcount]
    · simp only [closeViews, hleft, left, List.filter_filter]
      refine List.filter_congr fun i _ => ?_
      by_cases he : i = id <;> simp [he]

theorem closeAllViews_shown (h : w.InStep) : (w.closeAllViews key).1 = w.viewCount key ∧
    (w.closeAllViews key).2.viewIds key = [] := by
  cases there : w.document? key with
  | none => simp [closeAllViews, viewCount, viewIds, there]
  | some doc =>
    have hids := viewIds_of there
    have distinct := (h.sound key doc there).distinct
    obtain ⟨hcount, hleft⟩ := closeViews_shown distinct fun id hid => hids ▸ hid
    simp only [closeAllViews, there]
    rw [hcount, hleft, length_viewIds, hids]
    exact ⟨rfl, List.filter_eq_nil_iff.mpr fun id hid => by simpa using hid⟩

open Relation (ReflTransGen)

theorem openView_shifts (key : Key) (w : Workspace) :
    ReflTransGen (Shift key) w (w.openView key).2 := by
  cases there : w.document? key with
  | none =>
    simp only [openView, there]
    exact .refl
  | some doc =>
    rw [openView_eq there]
    exact .single (.opened there w.viewHeight)

theorem closeView_shifts (key : Key) (id : Nat) (w : Workspace) :
    ReflTransGen (Shift key) w (w.closeView key id).2 := by
  cases there : w.document? key with
  | none =>
    simp only [closeView, there]
    exact .refl
  | some doc =>
    rw [closeView_eq there]
    split
    · exact .single (.closed there ‹_›)
    · exact .refl

theorem closeViews_shifts (key : Key) (ids : List Nat) (w : Workspace) :
    ReflTransGen (Shift key) w (closeViews key ids w).2 := by
  induction ids generalizing w with
  | nil => exact .refl
  | cons id rest ih => exact (closeView_shifts key id w).trans (ih _)

theorem closeAllViews_shifts (key : Key) (w : Workspace) :
    ReflTransGen (Shift key) w (w.closeAllViews key).2 := by
  unfold closeAllViews
  split
  · exact .refl
  · exact closeViews_shifts key _ w

theorem bringToFront_shifts (key : Key) (w : Workspace) :
    ReflTransGen (Shift key) w (w.bringToFront key) := by
  have hfocus : Shift key w { w with focused := some key, focusRequests := w.focusRequests + 1 } :=
    .aside rfl rfl
  unfold bringToFront
  simp only
  split
  · exact .head hfocus (openView_shifts key _)
  · exact .single hfocus

theorem focusDocument_shifts (key : Key) (w : Workspace) :
    ReflTransGen (Shift key) w (w.focusDocument key).2 := by
  unfold focusDocument
  split
  · exact bringToFront_shifts key w
  · exact .refl

theorem openDocument_shifts (key : Key) (w : Workspace) :
    ReflTransGen (Shift key) w (w.openDocument key).2 := by
  have hasked : Shift key w { w with requests := w.requests + 1 } := .aside rfl rfl
  unfold openDocument
  simp only
  split
  · exact .single hasked
  · split
    · exact .head hasked (bringToFront_shifts key _)
    · rename_i absent
      have absent' := KeyMap.get?_of_not_contains absent
      exact .head hasked (.head (.made absent') (bringToFront_shifts key _))

/-- A document has come to the front: it has the focus and is seen, in the views that it had,
or in a new one if it had none. -/
structure Fronted (key : Key) (w w' : Workspace) : Prop where
  focused : w'.focused = some key
  seen : 0 < w'.viewCount key
  kept : 0 < w.viewCount key → w'.published = w.published ∧ w'.viewIds key = w.viewIds key
  opened : w.viewCount key = 0 →
    ∃ id, w'.published = w.published ++ [.opened key id] ∧ w'.viewIds key = [id]

theorem bringToFront_fronted (there : (w.document? key).isSome) :
    Fronted key w (w.bringToFront key) := by
  obtain ⟨doc, hdoc⟩ := Option.isSome_iff_exists.mp there
  obtain ⟨focused, seen⟩ := bringToFront_shows there
  let w₁ : Workspace := { w with focused := some key, focusRequests := w.focusRequests + 1 }
  have hcount : w₁.viewCount key = w.viewCount key := rfl
  have hfront : w.bringToFront key = if w.viewCount key = 0 then (w₁.openView key).2 else w₁ := rfl
  refine ⟨focused, seen, fun shown => ?_, fun unseen => ?_⟩
  · rw [hfront, if_neg (Nat.ne_of_gt shown)]
    exact ⟨rfl, rfl⟩
  · have hdoc₁ : w₁.document? key = some doc := hdoc
    have hafter := document?_publish hdoc₁ (doc.buffer.openView w₁.viewHeight).2
      (.opened key (doc.buffer.lastView + 1)) key
    have hids : doc.buffer.viewIds = [] := by
      rw [length_viewIds, viewIds_of hdoc] at unseen
      exact List.eq_nil_of_length_eq_zero unseen
    rw [hfront, if_pos unseen, openView_eq hdoc₁]
    refine ⟨doc.buffer.lastView + 1, rfl, ?_⟩
    rw [if_pos rfl] at hafter
    rw [viewIds_of hafter, Buffer.viewIds_openView, hids]
    rfl

theorem focusDocument_fronted (h : w.focusDocument key = (true, w')) : Fronted key w w' := by
  unfold focusDocument at h
  split at h
  · cases h
    exact bringToFront_fronted ‹_›
  · cases h

/-- A document that is opened is there before it comes to the front, and if it was made for
this it has no views yet. -/
theorem openDocument_front (h : w.openDocument key = (.ok (), w')) :
    ∃ w₁ : Workspace, w₁.published = w.published ∧ w₁.viewIds key = w.viewIds key ∧
      (w₁.document? key).isSome ∧ w' = w₁.bringToFront key := by
  unfold openDocument at h
  simp only at h
  split at h
  · cases h
  simp only [Prod.mk.injEq, true_and] at h
  subst h
  refine ⟨_, ?_, ?_, ?_, rfl⟩
  all_goals by_cases there : KeyMap.contains key w.documents = true
  · rw [if_pos there]
  · rw [if_neg there]
  · rw [if_pos there]
    rfl
  · have hnone : KeyMap.get? key w.documents = none := KeyMap.get?_of_not_contains there
    rw [if_neg there]
    simp only [viewIds, document?, KeyMap.get?_insert, hnone, if_true]
    rfl
  · rw [if_pos there]
    exact there
  · rw [if_neg there]
    simp [document?, KeyMap.get?_insert]

theorem openDocument_fronted (h : w.openDocument key = (.ok (), w')) : Fronted key w w' := by
  obtain ⟨w₁, published, ids, there, rfl⟩ := openDocument_front h
  have hfronted := bringToFront_fronted there
  have hcount : w₁.viewCount key = w.viewCount key := by rw [length_viewIds, length_viewIds, ids]
  exact {
    focused := hfronted.focused
    seen := hfronted.seen
    kept := by rw [← hcount, ← published, ← ids]; exact hfronted.kept
    opened := by rw [← hcount, ← published]; exact hfronted.opened }

/-! ### Whatever a host does -/

/-- What a host does with its documents. -/
inductive Gesture where
  | openDocument (key : Key)
  | focus (key : Key)
  | openView (key : Key)
  | closeView (key : Key) (view : Nat)
  | closeAllViews (key : Key)
  /-- Lines are written, unless the edit is refused. -/
  | edit (key : Key) (e : Edit)
  deriving DecidableEq, Repr, Inhabited

def gesture : Gesture → Workspace → Workspace
  | .openDocument key, w => (w.openDocument key).2
  | .focus key, w => (w.focusDocument key).2
  | .openView key, w => (w.openView key).2
  | .closeView key id, w => (w.closeView key id).2
  | .closeAllViews key, w => (w.closeAllViews key).2
  | .edit key e, w => (w.edit key e).2

def gestures (gs : List Gesture) (w : Workspace) : Workspace := gs.foldl (fun w g => w.gesture g) w

/-- The edits of a document among all that a host does. -/
def editsOf (key : Key) (gs : List Gesture) : List Edit :=
  gs.filterMap fun
    | .edit k e => if k = key then some e else none
    | _ => none

theorem edit_eq (there : w.document? key = some doc) (e : Edit) :
    (w.edit key e).2 = w.onDocument key fun _ => (doc.commit e).2 := by
  simp only [edit, there]

theorem document?_edit (there : w.document? key = some doc) (e : Edit) (j : Key) :
    (w.edit key e).2.document? j = if key = j then some (doc.commit e).2 else w.document? j := by
  rw [edit_eq there, document?_onDocument]
  split
  · rename_i hj
    rw [← hj, there]
    rfl
  · rfl

/-- A document that is not there is not edited. -/
theorem edit_absent (absent : w.document? key = none) (e : Edit) : (w.edit key e).2 = w := by
  simp only [edit, absent]

theorem InStep.edit (h : w.InStep) (key : Key) (e : Edit) : (w.edit key e).2.InStep := by
  cases there : w.document? key with
  | none =>
    rw [edit_absent there]
    exact h
  | some doc =>
    have hviews := Document.views_commit e doc
    have sound : (doc.commit e).2.buffer.Sound := (h.sound key doc there).map (fun v => v)
      (fun _ => rfl) (fun _ => rfl) (hviews.trans (List.map_id' _).symm)
      (Document.lastView_commit e doc)
    refine h.replace (document?_edit there e) sound fun j => ?_
    have hpublished : (w.edit key e).2.published = w.published := by rw [edit_eq there]; rfl
    rw [hpublished]
    split
    · rename_i hj
      rw [← hj, h.heard, viewIds_of there, Buffer.viewIds, Buffer.viewIds, hviews]
    · rfl

/-- Whatever is done for one document leaves the others as they are. -/
theorem shifts_other (shifts : ReflTransGen (Shift key) w w') (other : key ≠ j) :
    w'.document? j = w.document? j := by
  induction shifts with
  | refl => rfl
  | tail _ shift ih => exact (shift.other other).trans ih

theorem InStep.shifts (h : w.InStep) (shifts : ReflTransGen (Shift key) w w') : w'.InStep := by
  induction shifts with
  | refl => exact h
  | tail _ shift ih => exact shift.inStep ih

theorem keeps_shifts (shifts : ReflTransGen (Shift key) w w') (there : w.document? j = some doc) :
    ∃ doc', w'.document? j = some doc' ∧ doc.Keeps doc' := by
  induction shifts with
  | refl => exact ⟨doc, there, .refl doc⟩
  | tail _ shift ih =>
    obtain ⟨doc₁, there₁, keeps₁⟩ := ih
    obtain ⟨doc₂, there₂, keeps₂⟩ := shift.keeps there₁
    exact ⟨doc₂, there₂, keeps₁.trans keeps₂⟩

theorem InStep.gesture (h : w.InStep) (g : Gesture) : (w.gesture g).InStep := by
  cases g with
  | openDocument key => exact h.shifts (openDocument_shifts key w)
  | focus key => exact h.shifts (focusDocument_shifts key w)
  | openView key => exact h.shifts (openView_shifts key w)
  | closeView key id => exact h.shifts (closeView_shifts key id w)
  | closeAllViews key => exact h.shifts (closeAllViews_shifts key w)
  | edit key e => exact h.edit key e

theorem InStep.gestures (h : w.InStep) (gs : List Gesture) : (w.gestures gs).InStep := by
  induction gs generalizing w with
  | nil => exact h
  | cons g gs ih => exact ih (h.gesture g)

/-- Of all gestures only edits do anything to the lines of a document. -/
theorem gesture_keeps (there : w.document? j = some doc) (g : Gesture) :
    ∃ doc', (w.gesture g).document? j = some doc' ∧ (doc.edited (editsOf j [g])).Keeps doc' := by
  cases g with
  | openDocument key => exact keeps_shifts (openDocument_shifts key w) there
  | focus key => exact keeps_shifts (focusDocument_shifts key w) there
  | openView key => exact keeps_shifts (openView_shifts key w) there
  | closeView key id => exact keeps_shifts (closeView_shifts key id w) there
  | closeAllViews key => exact keeps_shifts (closeAllViews_shifts key w) there
  | edit key e =>
    by_cases hk : key = j
    · subst hk
      refine ⟨_, (document?_edit there e key).trans (if_pos rfl), ?_⟩
      have hedits : editsOf key [.edit key e] = [e] := by simp [editsOf]
      rw [hedits]
      exact .refl _
    · refine ⟨doc, ?_, ?_⟩
      · cases found : w.document? key with
        | none =>
          simp only [gesture, edit_absent found]
          exact there
        | some doc' => exact ((document?_edit found e j).trans (if_neg hk)).trans there
      · have hedits : editsOf j [.edit key e] = [] := by simp [editsOf, hk]
        rw [hedits]
        exact .refl _

theorem editsOf_cons (key : Key) (g : Gesture) (gs : List Gesture) :
    editsOf key (g :: gs) = editsOf key [g] ++ editsOf key gs := by
  rw [editsOf, ← List.singleton_append, List.filterMap_append]
  rfl

theorem gestures_keeps (there : w.document? j = some doc) (gs : List Gesture) :
    ∃ doc', (w.gestures gs).document? j = some doc' ∧ (doc.edited (editsOf j gs)).Keeps doc' := by
  induction gs generalizing w doc with
  | nil => exact ⟨doc, there, .refl doc⟩
  | cons g gs ih =>
    obtain ⟨doc₁, there₁, keeps₁⟩ := gesture_keeps there g
    obtain ⟨doc₂, there₂, keeps₂⟩ := ih there₁
    refine ⟨doc₂, there₂, ?_⟩
    rw [editsOf_cons, Document.edited, List.foldl_append]
    exact (keeps₁.edited (editsOf j gs)).trans keeps₂

/-- Whatever a host has done with a workspace that was empty, those who hear all that is
published about a document know its views, which are as many as are counted. To open a
document or to focus on it leaves it in front and in view, with a new view only if it had
none; to close all its views closes as many as it had. And a document that is there stays
there whatever the host does next, with the lines that its edits make of it. -/
theorem views_follow_events (height : UInt64) (refusals : List Nat) (gs : List Gesture) (key : Key) :
    let w := ({ viewHeight := height, refusals } : Workspace).gestures gs
    (replay key w.published = some (w.viewIds key) ∧ (w.viewIds key).Nodup ∧
      w.viewCount key = (w.viewIds key).length) ∧
    (∀ w', w.openDocument key = (.ok (), w') ∨ w.focusDocument key = (true, w') →
      Fronted key w w') ∧
    ((w.closeAllViews key).1 = w.viewCount key ∧ (w.closeAllViews key).2.viewIds key = []) ∧
    ∀ doc gs', w.document? key = some doc →
      ∃ doc', (w.gestures gs').document? key = some doc' ∧
        (doc.edited (editsOf key gs')).Keeps doc' := by
  intro w
  have hempty : ({ viewHeight := height, refusals } : Workspace).InStep := ⟨fun _ => rfl, nofun⟩
  have h : w.InStep := hempty.gestures gs
  refine ⟨⟨h.heard key, ?_, length_viewIds key w⟩, ?_, closeAllViews_shown h,
    fun doc gs' there => gestures_keeps there gs'⟩
  · cases there : w.document? key with
    | none => simp [viewIds, there]
    | some doc =>
      rw [viewIds_of there]
      exact (h.sound key doc there).distinct
  · rintro w' (opened | focused)
    · exact openDocument_fronted opened
    · exact focusDocument_fronted focused

/-- A document that was closed comes to the front in a view of its own, under a new number. -/
example : (({} : Workspace).gestures
    [.openDocument ⟨"a"⟩, .closeView ⟨"a"⟩ 1, .closeView ⟨"a"⟩ 1, .focus ⟨"a"⟩]).viewIds ⟨"a"⟩ =
      [2] := by
  decide

end Workspace

end LogTail
