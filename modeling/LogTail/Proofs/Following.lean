import LogTail.Proofs.Buffers
import LogTail.Proofs.Handling

/-!
# Views of a growing document

Following a batch moves each view by itself: a view at the end goes along to the new end,
any other one stays. So a view that nobody scrolls stays at the end over any updates.
-/
namespace LogTail

namespace Buffer

variable {b b' : Buffer} {budget id : Nat} {new : List String} {v : View}

/-- The buffer after a batch of lines was followed. -/
def grow (budget : Nat) (new : List String) (b : Buffer) : Buffer :=
  { b with
    lines := (b.lines ++ new).rtake budget
    views := b.views.map (View.follow b.count ((b.lines ++ new).rtake budget).length)
    edits := b.edits + 1 }

theorem count_grow (budget : Nat) (new : List String) (b : Buffer) :
    (b.grow budget new).count = min (b.count + new.length) budget := by
  simp only [grow, count, List.rtake, List.length_drop, List.length_append]
  omega

theorem count_grow_le (budget : Nat) (new : List String) (b : Buffer) :
    (b.grow budget new).count ≤ budget := by
  rw [count_grow]
  exact Nat.min_le_right _ _

theorem Sound.grow (h : b.Sound) (budget : Nat) (new : List String) : (b.grow budget new).Sound :=
  h.map _ (View.follow_id _ _) (View.follow_height _ _) rfl rfl

theorem view?_grow (budget : Nat) (new : List String) (b : Buffer) (id : Nat) :
    (b.grow budget new).view? id =
      (b.view? id).map (View.follow b.count (b.grow budget new).count) := by
  simp only [view?, grow, List.find?_map, Function.comp_def, View.follow_id]
  rfl

theorem Sound.tall_of_view? (h : b.Sound) (hv : b.view? id = some v) : 0 < v.height :=
  h.tall v (List.mem_of_find?_eq_some hv)

/-- Revealing a line in several views moves each of them once. -/
theorem foldl_reveal {ids : List Nat} (distinct : ids.Nodup) (b : Buffer) :
    ids.foldl (fun b id => b.reveal id (.ofNat (b.count - 1))) b =
      { b with views := b.views.map fun v =>
          if v.id ∈ ids then v.reveal (.ofNat (b.count - 1)) else v } := by
  induction ids generalizing b with
  | nil => simp
  | cons id ids ih =>
    obtain ⟨hid, distinct⟩ := List.nodup_cons.mp distinct
    rw [List.foldl_cons, ih distinct]
    simp only [reveal, adjustView, count, List.map_map, mk.injEq, true_and, and_true]
    refine List.map_congr_left fun v _ => ?_
    -- the number is not among the rest, so what is left of the fold leaves its view alone
    by_cases hv : v.id = id
    · simp [hv, hid]
    · simp [hv]

theorem mem_followers (h : b.Sound) (hv : v ∈ b.views) :
    v.id ∈ b.followers ↔ v.atBottom b.count = true := by
  constructor
  · intro hid
    obtain ⟨u, hu, he⟩ := List.mem_map.mp hid
    obtain ⟨hu, atEnd⟩ := List.mem_filter.mp hu
    rwa [← List.inj_on_of_nodup_map h.distinct hu hv he]
  · intro atEnd
    exact List.mem_map.mpr ⟨v, List.mem_filter.mpr ⟨hv, atEnd⟩, rfl⟩

/-- The views at the end of a buffer are revealed the end of what has become of it. -/
theorem revealEnd_followers (h : b.Sound) (views : b'.views = b.views) :
    b'.revealEnd b.followers = { b' with views := b.views.map (View.follow b.count b'.count) } := by
  unfold revealEnd
  split
  · rename_i hzero
    have hstay : View.follow b.count b'.count = id := by
      funext v
      simp [View.follow, hzero]
    rw [hstay, List.map_id, ← views]
  · rename_i hpos
    have distinct : b.followers.Nodup := h.distinct.sublist (List.filter_sublist.map _)
    rw [foldl_reveal distinct, views]
    congr 1
    refine List.map_congr_left fun v hv => ?_
    simp only [View.follow, mem_followers h hv, Nat.pos_of_ne_zero hpos, and_true]

end Buffer

namespace Document

variable {d d' : Document} {budget : Nat} {batch : List Entry}

/-- A batch is followed unless the document refuses the edit. -/
theorem follow_eq (hs : d.buffer.Sound) (h : batch ≠ []) (written : ∀ e ∈ batch, e.Written)
    (accepted : d.tries + 1 ∉ d.refusals) :
    d.follow budget batch = (.ok ⟨(linesOfBatch batch).length,
      d.buffer.count + (linesOfBatch batch).length - budget⟩, { d with
        tries := d.tries + 1
        buffer := d.buffer.grow budget (linesOfBatch batch) }) := by
  rw [follow_of_append (append_eq h (linesOf_batch written) accepted), onBuffer,
    Buffer.revealEnd_followers hs]
  · rfl
  · rfl

theorem follow_ok_buffer {a : Appended} (hs : d.buffer.Sound) (h : batch ≠ [])
    (written : ∀ e ∈ batch, e.Written) (followed : d.follow budget batch = (.ok a, d')) :
    d'.buffer = d.buffer.grow budget (linesOfBatch batch) := by
  rw [follow_eq hs h written (accepted_of_follow h followed)] at followed
  cases followed
  rfl

end Document

namespace Pump

variable {p : Pump} {id : Nat} {v : View}

/-- A frame that is handled leaves the buffer alone or makes it grow. -/
theorem handle_buffer (budget : Nat) (hs : p.document.buffer.Sound) (f : Frame) :
    (p.handle budget false f).2.document.buffer = p.document.buffer ∨
      ∃ new, (p.handle budget false f).2.document.buffer = p.document.buffer.grow budget new := by
  cases f with
  | accepted | unknown => exact .inl rfl
  | update sampled records =>
    simp only [handle, write, count]
    split
    · exact .inl rfl
    · rename_i h
      rw [if_neg (by simp)]
      split
      · rename_i followed
        exact .inl (Document.follow_error_buffer followed)
      · rename_i followed
        exact .inr ⟨_, Document.follow_ok_buffer hs h (fun _ => Entry.written_of_mem) followed⟩

/-- A view at the end of a document stays there while frames are handled. -/
theorem atBottom_handled {budget : Nat} (inside : budget < UInt64.size)
    (hs : p.document.buffer.Sound) (hv : p.document.buffer.view? id = some v) (fits : v.Fits)
    (atEnd : v.atBottom p.document.buffer.count = true) (frames : List Frame) :
    ∃ v', (p.handled budget frames).document.buffer.view? id = some v' ∧
      v'.atBottom (p.handled budget frames).document.buffer.count = true := by
  -- the view is not the same from frame to frame, only its number is
  induction frames generalizing p v with
  | nil => exact ⟨v, hv, atEnd⟩
  | cons f fs ih =>
    rw [handled_cons]
    rcases handle_buffer budget hs f with same | ⟨new, grown⟩
    · rw [← same] at hs hv atEnd
      exact ih hs hv fits atEnd
    · have tall := hs.tall_of_view? hv
      have hcount := (Buffer.count_grow_le budget new p.document.buffer).trans_lt inside
      refine ih (by rw [grown]; exact hs.grow budget new) (v := v.follow p.document.buffer.count
        (p.document.buffer.grow budget new).count) ?_ (fits.follow tall hcount) ?_
      · rw [grown, Buffer.view?_grow, hv]
        rfl
      · rw [grown]
        exact View.atBottom_follow tall fits atEnd hcount

end Pump

end LogTail
