import LogTail.Proofs.Foreign
import LogTail.Proofs.Window

/-!
# How sessions go on

Only the answer of the service sets a session to work. Whatever else happens on a desk, and
whoever else acts on it, no session begins to run, and the feeds that are at work stay and
keep the reports that they have made.
-/
namespace LogTail

/-- What a session passes on as long as it does not start: its key, its feed with the report,
and that it does not run. -/
structure Tail.Later (t t' : Tail) : Prop where
  key : t'.key = t.key
  feeds : t.Feeds t'
  running : t'.session.phase = .running → t.session.phase = .running

namespace Tail.Later

variable {t t' t'' : Tail}

theorem refl (t : Tail) : t.Later t := ⟨rfl, .same rfl, id⟩

theorem trans (h : t.Later t') (h' : t'.Later t'') : t.Later t'' :=
  ⟨h'.key.trans h.key, h.feeds.trans h'.feeds, fun running => h.running (h'.running running)⟩

theorem stop (t : Tail) (now : Nat) :
    t.Later { t with session := (t.session.stop now).2 } where
  key := Session.stop_key now t.session
  feeds := .same rfl
  running running := by
    rw [Session.stop_phase] at running
    cases running

theorem forsake (t : Tail) (now : Nat) : t.Later (t.forsake now) where
  key := Session.stop_key now _
  feeds := .same rfl
  running running := by
    rw [Tail.forsake, Session.stop_phase] at running
    cases running

end Tail.Later

namespace Desk

open Relation (ReflTransGen)

variable {d d' d'' : Desk} {n : Nat} {t t' : Tail} {key : Key} {source : Source}

/-- No session begins to run. -/
def Onward (d d' : Desk) : Prop := Tailwise Tail.Later (fun t => t.session.phase ≠ .running) d d'

namespace Onward

theorem append {more : List Tail} (tails : d'.tails = d.tails ++ more)
    (unrun : ∀ t ∈ more, t.session.phase ≠ .running) : Onward d d' :=
  Tailwise.append (fun t _ => .refl t) tails unrun

theorem still (tails : d'.tails = d.tails) : Onward d d' :=
  Tailwise.still (fun t _ => .refl t) tails

theorem set (ht : d.tails[n]? = some t) (tails : d'.tails = d.tails.set n t')
    (later : t.Later t') : Onward d d' :=
  Tailwise.set (fun t _ => .refl t) ht tails later

theorem trans (h : Onward d d') (h' : Onward d' d'') : Onward d d'' :=
  Tailwise.trans h h' (fun _ _ _ => .trans)
    (fun _ _ unrun later running => unrun (later.running running)) fun _ => id

/-- Who runs has run before, under the same number and key. -/
theorem running (h : Onward d d') (ht' : d'.tails[n]? = some t')
    (running : t'.session.phase = .running) :
    ∃ t, d.tails[n]? = some t ∧ t.key = t'.key ∧ t.session.phase = .running := by
  cases ht : d.tails[n]? with
  | none => exact absurd running (h.new n t' ht' ht)
  | some t =>
    obtain ⟨u, hu, later⟩ := h.old n t ht
    rw [ht'] at hu
    cases hu
    exact ⟨t, rfl, later.key.symm, later.running running⟩

theorem runs (h : Onward d d') (runs : d'.Runs key) : d.Runs key := by
  obtain ⟨n, t', ht', hk, hrun⟩ := runs
  obtain ⟨t, ht, same, hrun'⟩ := h.running ht' hrun
  exact ⟨n, t, ht, same.trans hk, hrun'⟩

end Onward

theorem Work.onward (work : Work d d') : Onward d d' := by
  cases work with
  | aside _ _ _ tails => exact .still tails
  | tended ht _ tails session _ _ _ _ feed =>
    exact .set ht tails ⟨congrArg Session.key session, feed, fun running => session ▸ running⟩
  | torn n reason =>
    have htears := teardown_tearsDown n reason d
    generalize (d.teardown n reason).2 = d' at htears
    cases htears with
    | absent => exact .still rfl
    | again ht | first ht => exact .set ht rfl (.stop _ d.now)

theorem onward_of_works (works : ReflTransGen Work d d') : Onward d d' := by
  induction works with
  | refl => exact .still rfl
  | tail _ work ih => exact ih.trans work.onward

theorem Begun.onward (h : Begun source d d') : Onward d d' := by
  cases h with
  | refused | refocused => exact .still rfl
  | outrun => exact .append rfl (by simp [rivalOf, belated, Session.stop_phase])
  | entered => exact .append rfl (by simp [Session.calling])

end Desk

end LogTail
