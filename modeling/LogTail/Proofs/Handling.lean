import LogTail.Proofs.Append
import LogTail.Proofs.Runs

/-!
# Runs as frames handled in order

A run whose token never fires handles the frames of its stream one after the other, up to
the first item that fails: a fault of the stream, or a frame whose edit is refused. It adds
the count of frames and nothing else to what handling them does.
-/
namespace LogTail

namespace Pump

variable {budget : Nat} {p q : Pump} {f : Frame}

/-- Handles frames one after the other, whatever becomes of each. -/
def handled (budget : Nat) (frames : List Frame) (p : Pump) : Pump :=
  frames.foldl (fun p f => (p.handle budget false f).2) p

@[simp] theorem handled_nil (p : Pump) : p.handled budget [] = p := rfl

@[simp] theorem handled_cons (f : Frame) (fs : List Frame) (p : Pump) :
    p.handled budget (f :: fs) = (p.handle budget false f).2.handled budget fs := rfl

/-- Handled one after the other, none of the frames fails. -/
def Accepts (budget : Nat) : List Frame → Pump → Prop
  | [], _ => True
  | f :: fs, p => (p.handle budget false f).1 = .applied ∧ Accepts budget fs (p.handle budget false f).2

/-- Where a run ends that nobody cancels: what is left of the stream, the frame that was
handled last if it failed, and the exit. -/
inductive Ends (budget : Nat) (p : Pump) : List Item → Option Frame → Exit → Prop where
  | closed : Ends budget p [] none .closed
  | fault (e : Fault) (later : List Item) : Ends budget p (.fault e :: later) none (.failed e)
  | refused {f : Frame} {e : Fault} (h : (p.handle budget false f).1 = .failed e) (later : List Item) :
      Ends budget p (.frame f :: later) (some f) (.failed e)

/-- The pump with another count of frames. -/
def withFrames (n : Nat) (p : Pump) : Pump := p.count fun t => { t with frames := n }

/-- Handling neither reads nor writes the count of frames. -/
theorem handle_withFrames (fired : Bool) (f : Frame) (n : Nat) (p : Pump) :
    (p.withFrames n).handle budget fired f =
      ((p.handle budget fired f).1, (p.handle budget fired f).2.withFrames n) := by
  cases f with
  | accepted | unknown => rfl
  | update sampled records =>
    simp only [handle, write, withFrames, count]
    split
    · rfl
    · split
      · rfl
      · split <;> rfl

theorem handle_unfired (f : Frame) (p : Pump) : (p.handle budget false f).1 ≠ .dropped := by
  cases f with
  | accepted | unknown => simp [handle]
  | update sampled records =>
    simp only [handle, write, Bool.false_eq_true, if_false]
    split
    · simp
    · split <;> simp

/-- A frame that fails leaves the lines, the views and the record as they were. -/
theorem handle_failed {fired : Bool} {e : Fault} (h : p.handle budget fired f = (.failed e, q)) :
    q.document.buffer = p.document.buffer ∧ q.notices = p.notices := by
  cases f with
  | accepted | unknown => cases h
  | update sampled records =>
    simp only [handle, write] at h
    split at h
    · cases h
    · split at h
      · cases h
      · split at h
        · rename_i followed
          cases h
          exact ⟨Document.follow_error_buffer followed, rfl⟩
        · cases h

/-- How a run ends, if it does, with the frame that came to this. -/
def exitOf : Verdict → Option Exit
  | .applied => none
  | .dropped => some .cancelled
  | .failed e => some (.failed e)

theorem take_frame (fired : Bool) (f : Frame) (n : Nat) (p : Pump) :
    (p.withFrames n).take budget fired (some (.frame f)) =
      (exitOf (p.handle budget fired f).1, (p.handle budget fired f).2.withFrames (n + 1)) := by
  have hcount : ((p.withFrames n).count fun t => { t with frames := t.frames + 1 }) =
      p.withFrames (n + 1) := rfl
  simp only [take, hcount, handle_withFrames]
  cases p.handle budget fired f with
  | mk verdict q => cases verdict <;> rfl

theorem runFrom_never {frames : List Frame} {rest : List Item} {last : Option Frame} {exit : Exit}
    (accepts : p.Accepts budget frames) (ends : (p.handled budget frames).Ends budget rest last exit)
    (pulls n : Nat) :
    runFrom budget .never pulls (frames.map .frame ++ rest) (p.withFrames n) =
      ⟨exit, pulls + frames.length + 1, (p.handled budget (frames ++ last.toList)).withFrames
        (n + (frames ++ last.toList).length)⟩ := by
  induction frames generalizing p pulls n with
  | nil =>
    cases ends with
    | closed => exact runFrom_nil rfl _
    | fault e later => exact runFrom_ended rfl rfl later
    | @refused f e h later =>
      rw [handled_nil] at h
      refine runFrom_ended rfl ?_ later
      rw [Signal.reaches, take_frame, h]
      rfl
  | cons f fs ih =>
    obtain ⟨applied, accepts⟩ := accepts
    have htake : (p.withFrames n).take budget false (some (.frame f)) =
        (none, (p.handle budget false f).2.withFrames (n + 1)) := by
      rw [take_frame, applied]
      rfl
    rw [List.map_cons, List.cons_append, runFrom_next rfl htake, ih accepts ends]
    simp only [List.length_cons, List.cons_append, handled_cons, Outcome.mk.injEq, true_and]
    exact ⟨by omega, by congr 1; omega⟩

/-- Every stream comes to an end in one of the three ways, and at the first item that fails. -/
theorem exists_ends (budget : Nat) (items : List Item) (p : Pump) :
    ∃ frames rest last exit, items = frames.map .frame ++ rest ∧ p.Accepts budget frames ∧
      (p.handled budget frames).Ends budget rest last exit := by
  induction items generalizing p with
  | nil => exact ⟨[], [], none, .closed, rfl, trivial, .closed⟩
  | cons i later ih =>
    cases i with
    | fault e => exact ⟨[], .fault e :: later, none, .failed e, rfl, trivial, .fault e later⟩
    | frame f =>
      cases h : (p.handle budget false f).1 with
      | failed e => exact ⟨[], .frame f :: later, some f, .failed e, rfl, trivial, .refused h later⟩
      | dropped => exact absurd h (handle_unfired f p)
      | applied =>
        obtain ⟨fs, rest, last, exit, rfl, accepts, ends⟩ := ih (p.handle budget false f).2
        exact ⟨f :: fs, rest, last, exit, rfl, ⟨h, accepts⟩, ends⟩

theorem handled_append (fs gs : List Frame) (p : Pump) :
    p.handled budget (fs ++ gs) = (p.handled budget fs).handled budget gs :=
  List.foldl_append

/-- The frame that fails changes neither lines nor views nor the record. -/
theorem Ends.last {rest : List Item} {last : Option Frame} {exit : Exit}
    (h : p.Ends budget rest last exit) :
    (p.handled budget last.toList).document.buffer = p.document.buffer ∧
      (p.handled budget last.toList).notices = p.notices := by
  cases h with
  | closed | fault => exact ⟨rfl, rfl⟩
  | refused h => exact handle_failed (Prod.ext h rfl)

/-- A run whose token never fires does to the document, to the record and, but for the
count of frames, to the counts what handling the frames in order does, up to the first item
that fails. The frame that fails is handled and counted, but changes no line and no view and
is not told of; the exit is its fault, or that of the stream, or else the end of the
stream. No item behind the one that fails is pulled, and none makes a difference. -/
theorem run_handles_in_order (budget : Nat) (items : List Item) (p : Pump) :
    let fresh : Pump := { p with tally := {} }
    let o := p.run budget .never items
    ∃ (frames : List Frame) (rest : List Item) (last : Option Frame) (exit : Exit),
      items = frames.map .frame ++ rest ∧ fresh.Accepts budget frames ∧
      (fresh.handled budget frames).Ends budget rest last exit ∧
      o = ⟨exit, frames.length + 1, (fresh.handled budget (frames ++ last.toList)).withFrames
        (frames ++ last.toList).length⟩ ∧
      o.pump.document.buffer = (fresh.handled budget frames).document.buffer ∧
      o.pump.notices = (fresh.handled budget frames).notices ∧
      p.run budget .never (items.take o.pulls) = o := by
  intro fresh o
  obtain ⟨frames, rest, last, exit, rfl, accepts, ends⟩ := exists_ends budget items fresh
  have ho : o = ⟨exit, frames.length + 1, (fresh.handled budget (frames ++ last.toList)).withFrames
      (frames ++ last.toList).length⟩ := by
    have h := runFrom_never accepts ends 0 0
    rwa [Nat.zero_add, Nat.zero_add] at h
  obtain ⟨hbuffer, hnotices⟩ := ends.last
  refine ⟨frames, rest, last, exit, rfl, accepts, ends, ho, ?_, ?_, run_pulled budget .never _ p⟩
  · rw [ho, handled_append]
    exact hbuffer
  · rw [ho, handled_append]
    exact hnotices

end Pump

end LogTail
