import LogTail.Proofs.Views
import Mathlib.Data.List.Nodup

/-!
# States of a line buffer

What can be done to a buffer, and what holds of its views whatever was done: each is at
least one line tall, and their numbers ascend, up to the number handed out last.
-/
namespace LogTail.Buffer

/-- What is done to a buffer. -/
inductive Action where
  | openView (height : UInt64)
  | closeView (id : Nat)
  | scrollTo (id : Nat) (top : UInt64)
  | reveal (id : Nat) (line : UInt64)
  /-- An edit, which changes nothing if it is out of range. -/
  | commit (e : Edit)
  | clear
  deriving DecidableEq, Repr

def act : Action → Buffer → Buffer
  | .openView height, b => (b.openView height).2
  | .closeView id, b => (b.closeView id).2
  | .scrollTo id top, b => b.scrollTo id top
  | .reveal id line, b => b.reveal id line
  | .commit e, b =>
    match b.commit e with
    | .ok b' => b'
    | .error _ => b
  | .clear, b => b.clear

def run (as : List Action) (b : Buffer) : Buffer := as.foldl (fun b a => b.act a) b

/-- What holds of the views of a buffer between any two actions. -/
structure Sound (b : Buffer) : Prop where
  tall : ∀ v ∈ b.views, 0 < v.height
  ascending : b.viewIds.Pairwise (· < ·)
  numbered : ∀ id ∈ b.viewIds, id ≤ b.lastView

variable {b b' : Buffer} {v : View}

theorem sound_empty : ({} : Buffer).Sound where
  tall := by simp
  ascending := .nil
  numbered := by simp [viewIds]

namespace Sound

theorem distinct (h : b.Sound) : b.viewIds.Nodup := h.ascending.imp Nat.ne_of_lt

/-- Views may move, but keep their numbers and heights. -/
theorem map (h : b.Sound) (f : View → View) (id : ∀ v, (f v).id = v.id)
    (height : ∀ v, (f v).height = v.height) (views : b'.views = b.views.map f)
    (last : b'.lastView = b.lastView) : b'.Sound := by
  have hids : b'.viewIds = b.viewIds := by simp [viewIds, views, id]
  refine ⟨fun v hv => ?_, by rw [hids]; exact h.ascending, by rw [hids, last]; exact h.numbered⟩
  rw [views] at hv
  obtain ⟨u, hu, rfl⟩ := List.mem_map.mp hv
  rw [height]
  exact h.tall u hu

theorem adjustView (h : b.Sound) (id : Nat) (f : View → View) (hid : ∀ v, (f v).id = v.id)
    (height : ∀ v, (f v).height = v.height) : (b.adjustView id f).Sound :=
  h.map (fun v => if v.id = id then f v else v) (fun v => by split <;> simp [hid])
    (fun v => by split <;> simp [height]) rfl rfl

theorem openView (h : b.Sound) (height : UInt64) : (b.openView height).2.Sound where
  tall v hv := by
    rcases List.mem_append.mp hv with hv | hv
    · exact h.tall v hv
    · rw [List.mem_singleton.mp hv, UInt64.lt_iff_toNat_lt, View.toNat_max_one]
      exact Nat.le_max_right _ _
  ascending := by
    simp only [viewIds, Buffer.openView, List.map_append, List.pairwise_append]
    refine ⟨h.ascending, List.pairwise_singleton _ _, fun i hi j hj => ?_⟩
    rw [List.mem_singleton.mp hj]
    exact Nat.lt_succ_of_le (h.numbered i hi)
  numbered i hi := by
    simp only [viewIds, Buffer.openView, List.map_append, List.mem_append] at hi
    rcases hi with hi | hi
    · exact Nat.le_succ_of_le (h.numbered i hi)
    · rw [List.mem_singleton.mp hi]
      exact Nat.le_refl _

theorem closeView (h : b.Sound) (id : Nat) : (b.closeView id).2.Sound where
  tall v hv := h.tall v (List.mem_of_mem_filter hv)
  ascending := h.ascending.sublist (List.filter_sublist.map _)
  numbered i hi := h.numbered i ((List.filter_sublist.map _).subset hi)

theorem act (h : b.Sound) (a : Action) : (b.act a).Sound := by
  cases a with
  | openView height => exact h.openView height
  | closeView id => exact h.closeView id
  | scrollTo id top => exact h.adjustView id _ (fun _ => rfl) fun _ => rfl
  | reveal id line => exact h.adjustView id _ (View.reveal_id line) (View.reveal_height line)
  | clear => exact h.map (fun v => { v with top := 0 }) (fun _ => rfl) (fun _ => rfl) rfl rfl
  | commit e =>
    simp only [Buffer.act, Buffer.commit]
    cases e.check b.count with
    | ok => exact ⟨h.tall, h.ascending, h.numbered⟩
    | error => exact h

theorem run (h : b.Sound) (as : List Action) : (b.run as).Sound := by
  induction as generalizing b with
  | nil => exact h
  | cons a as ih => exact ih (h.act a)

end Sound

end LogTail.Buffer
