import LogTail.Proofs.Holding
import LogTail.Proofs.Onward
import LogTail.Proofs.Showing
import LogTail.Proofs.Stops

/-!
# Watching the views

A watcher takes an event, whichever it is, as a reason to look at all sessions on the
roster, and tears down those whose documents nobody sees. It may miss events when many
come at once; but a document cannot lose its last view without an event, so a watcher that
has nothing to receive has nothing to do.
-/
namespace LogTail

namespace Workspace

variable {seen seen' : Nat} {w : Workspace} {x : Delivery}

theorem pending_eq_nil : w.pending seen = [] ↔ w.published.length ≤ seen := by
  simp only [pending]
  split
  · exact iff_of_false (by simp) (by omega)
  · rw [List.map_eq_nil_iff, List.drop_eq_nil_iff]

/-- Who has yet to receive something receives it. -/
theorem pending_of_receive (h : w.receive seen = none) : w.pending seen = [] := by
  rw [pending_eq_nil]
  simp only [receive] at h
  split at h
  · cases h
  · split at h
    · cases h
    · rename_i hnone
      exact List.getElem?_eq_none_iff.mp hnone

theorem receive_some (h : w.receive seen = some (x, seen')) :
    seen < seen' ∧ seen' ≤ w.published.length := by
  simp only [receive] at h
  split at h
  · cases h
    omega
  · split at h
    · rename_i hsome
      have hlt := (List.getElem?_eq_some_iff.mp hsome).1
      cases h
      omega
    · cases h

end Workspace

namespace Desk

open Relation (ReflTransGen)
open Workspace (SameViews Noticed)

variable {d d' : Desk} {i n : Nat} {t : Tail} {key : Key} {watcher : Watcher}

/-- The documents of all sessions that run are seen. -/
def Viewed (d : Desk) : Prop := ∀ key, d.Runs key → 0 < d.workspace.viewCount key

theorem Intact.held_of_runs (hs : d.Intact) (runs : d.Runs key) :
    ∃ n t, KeyMap.get? key d.roster = some n ∧ d.tails[n]? = some t ∧ t.key = key ∧
      t.session.phase = .running := by
  obtain ⟨n, t, ht, rfl, running⟩ := runs
  exact ⟨n, t, hs.holding n t ht (Tail.Sound.live_of_running running), ht, rfl, running⟩

/-! ### How sessions come to run -/

/-- Whoever begins to run is seen. -/
theorem Steady.move_runs (hs : d.Steady) (m : Move) (runs : (d.move m).Runs key) :
    d.Runs key ∨ 0 < (d.move m).workspace.viewCount key := by
  have hturns := hs.move_turns m
  generalize d.move m = d' at hturns runs ⊢
  cases hturns with
  | worked _ works => exact .inl ((onward_of_works works).runs runs)
  | begun h => exact .inl (h.onward.runs runs)
  | unasked => exact .inl runs
  | @finished _ n k t _ hc ht pending h =>
    cases h with
    | opened starting answer document =>
      by_cases hk : t.key = key
      · obtain rfl : k = key := pending.key.symm.trans hk
        exact .inr (Workspace.openDocument_shows document).2.2.2
      · obtain ⟨m, u, hu, rfl, running⟩ := runs
        have hm : n ≠ m := by
          rintro rfl
          rw [List.getElem?_set_self (List.getElem?_eq_some_iff.mp ht).1] at hu
          cases hu
          exact hk rfl
        rw [List.getElem?_set_ne hm] at hu
        exact .inl ⟨m, u, hu, rfl, running⟩
    | failed =>
      refine .inl (Onward.runs ?_ runs)
      exact .set ht rfl (.forsake t d.now)

/-! ### The sessions that a watcher stops -/

theorem Intact.isUnviewed_iff (hs : d.Intact) :
    d.isUnviewed key = true ↔ d.Runs key ∧ d.workspace.viewCount key = 0 := by
  unfold isUnviewed
  constructor
  · intro h
    split at h
    · cases h
    · rename_i s hheld
      obtain ⟨n, held, hsession⟩ := Option.bind_eq_some_iff.mp hheld
      obtain ⟨t, ht, rfl⟩ := Option.map_eq_some_iff.mp hsession
      obtain ⟨u, hu, hk⟩ := hs.listed key n held
      rw [ht] at hu
      cases hu
      simp only [Bool.and_eq_true, decide_eq_true_eq] at h
      exact ⟨⟨n, t, ht, hk, h.1⟩, h.2⟩
  · rintro ⟨runs, unseen⟩
    obtain ⟨n, t, held, ht, -, running⟩ := hs.held_of_runs runs
    simp [held, session?, ht, running, unseen]

/-- Of the keys that are looked at those whose sessions run on are seen. -/
theorem Intact.stopUnviewedAmong_viewed (hs : d.Intact) (keys : List Key) (looked : key ∈ keys)
    (runs : (stopUnviewedAmong keys d).2.Runs key) : 0 < d.workspace.viewCount key := by
  induction keys generalizing d with
  | nil => cases looked
  | cons k rest ih =>
    unfold stopUnviewedAmong at runs
    split at runs
    · have hs' := hs.works (works_teardowns.stopKey k .viewsClosed d)
      have hviews := Meanwhile.teardowns.stopKey k .viewsClosed d
      have before := (onward_of_works (works_teardowns.stopUnviewedAmong rest _)).runs runs
      have hne : k ≠ key := by
        rintro rfl
        obtain ⟨n, t, held, -⟩ := hs'.held_of_runs before
        rw [hs.stopKey_free] at held
        cases held
      rw [← hviews.workspace.count]
      exact ih hs' ((List.mem_cons.mp looked).resolve_left (Ne.symm hne)) runs
    · rename_i hviewed
      rcases List.mem_cons.mp looked with rfl | looked
      · have before := (onward_of_works (works_teardowns.stopUnviewedAmong rest _)).runs runs
        refine Nat.pos_of_ne_zero fun unseen => hviewed ?_
        exact hs.isUnviewed_iff.mpr ⟨before, unseen⟩
      · exact ih hs looked runs

theorem Intact.stopUnviewed_viewed (hs : d.Intact) : d.stopUnviewed.2.Viewed := by
  intro key runs
  have before := (onward_of_works (works_teardowns.stopUnviewedAmong _ _)).runs runs
  obtain ⟨n, t, held, -⟩ := hs.held_of_runs before
  have looked : key ∈ KeyMap.keys d.roster := KeyMap.mem_keys_of_get? held
  rw [(Meanwhile.stopUnviewed d).workspace.count]
  exact hs.stopUnviewedAmong_viewed _ looked runs

/-- A session that does not run, or whose document is seen, is left as it is. -/
theorem Intact.stopUnviewedAmong_spares (hs : d.Intact) (keys : List Key)
    (ht : d.tails[n]? = some t)
    (spared : t.session.phase = .running → 0 < d.workspace.viewCount t.key) :
    (stopUnviewedAmong keys d).2.tails[n]? = some t := by
  induction keys generalizing d with
  | nil => exact ht
  | cons k rest ih =>
    unfold stopUnviewedAmong
    split
    · rename_i hunviewed
      obtain ⟨runs, unseen⟩ := hs.isUnviewed_iff.mp hunviewed
      obtain ⟨m, u, held, hu, rfl, running⟩ := hs.held_of_runs runs
      have hne : m ≠ n := by
        rintro rfl
        rw [ht] at hu
        cases hu
        exact Nat.ne_of_gt (spared running) unseen
      have hs' := hs.works (works_teardowns.stopKey u.key .viewsClosed d)
      have hviews := Meanwhile.teardowns.stopKey u.key .viewsClosed d
      refine ih hs' ?_ fun running => ?_
      · simp only [stopKey, held, teardown_other hne]
        exact ht
      · rw [hviews.workspace.count]
        exact spared running
    · exact ih hs ht spared

/-! ### What a watcher does -/

theorem Intact.withWatchers (hs : d.Intact) (watchers : List Watcher) :
    Desk.Intact { d with watchers } := hs.works (.single (.aside rfl rfl rfl rfl le_rfl))

/-- A watcher tears down no session but one that runs and whose document nobody sees. -/
theorem Intact.wake_tears (hs : d.Intact) (tears : d.Tears n (.wake i)) :
    ∃ t, d.tails[n]? = some t ∧ t.session.phase = .running ∧ d.workspace.viewCount t.key = 0 := by
  obtain ⟨-, live, dead⟩ := tears
  obtain ⟨t, ht, tlive⟩ := isLive_iff.mp live
  have hwakes := wake_wakes i d
  simp only [Desk.move] at dead
  generalize d.wake i = d' at hwakes dead
  refine ⟨t, ht, ?_⟩
  refine Classical.byContradiction fun hnot => ?_
  have hkept : d'.tails[n]? = some t := by
    cases hwakes with
    | idle | ended => exact ht
    | received =>
      refine (hs.withWatchers _).stopUnviewedAmong_spares _ ht fun running => ?_
      exact Nat.pos_of_ne_zero fun unseen => hnot ⟨running, unseen⟩
  rw [isLive_iff.mpr ⟨t, hkept, tlive⟩] at dead
  cases dead

/-! ### What a watcher knows -/

/-- What holds of a watcher between moves: when it has seen all that was published, the
documents of all sessions that run are seen. -/
structure Watched (i : Nat) (watcher : Watcher) (d : Desk) : Prop where
  here : d.watchers[i]? = some watcher
  ended : watcher.ended = true → d.dropped = true
  seen : watcher.seen ≤ d.workspace.published.length
  viewed : watcher.seen = d.workspace.published.length → d.Viewed

namespace Watched

/-- Unless something is published no document loses its last view. -/
theorem meanwhile (h : Watched i watcher d) (change : Meanwhile Noticed d d')
    (runs : ∀ key, d'.Runs key → d.Runs key ∨ 0 < d'.workspace.viewCount key) :
    Watched i watcher d' where
  here := by rw [change.watchers, h.here]
  ended hended := by rw [change.dropped, h.ended hended]
  seen := h.seen.trans change.workspace.published.length_le
  viewed hall key hruns := by
    have hlength := change.workspace.published.length_le
    have hseen := h.seen
    have hsame : d'.workspace.published = d.workspace.published :=
      (change.workspace.published.eq_of_length (by omega)).symm
    rcases runs key hruns with before | shown
    · exact change.workspace.shown hsame key (h.viewed (by rw [hall, hsame]) key before)
    · exact shown

theorem watch (h : Watched i watcher d) : Watched i watcher d.watch :=
  ⟨List.getElem?_append_left (List.getElem?_eq_some_iff.mp h.here).1 ▸ h.here,
    h.ended, h.seen, h.viewed⟩

theorem drop (h : Watched i watcher d) (hs : d.Intact) : Watched i watcher d.drop := by
  have change : Meanwhile SameViews { d with closed := true, dropped := true } d.drop :=
    Meanwhile.teardowns.stopKeys _ _
  refine ⟨?_, fun _ => change.dropped, ?_, fun hall key hruns => ?_⟩
  · rw [change.watchers]
    exact h.here
  · rw [change.workspace.published]
    exact h.seen
  · rw [change.workspace.published] at hall
    rcases hs.move_runs .drop hruns with before | shown
    · rw [change.workspace.count]
      exact h.viewed hall key before
    · exact shown

/-- Whichever watcher wakes, if it receives something all sessions that run afterwards are
seen. -/
theorem wake (h : Watched i watcher d) (hs : d.Intact) (j : Nat) :
    ∃ watcher', Watched i watcher' (d.wake j) := by
  have hwakes := wake_wakes j d
  generalize d.wake j = d' at hwakes
  have hi : i < d.watchers.length := (List.getElem?_eq_some_iff.mp h.here).1
  cases hwakes with
  | idle => exact ⟨watcher, h⟩
  | @ended w hw dropped =>
    by_cases hj : j = i
    · subst hj
      rw [h.here] at hw
      cases hw
      exact ⟨{ watcher with ended := true }, List.getElem?_set_self hi, fun _ => dropped, h.seen,
        h.viewed⟩
    · refine ⟨watcher, ?_, h.ended, h.seen, h.viewed⟩
      rw [List.getElem?_set_ne hj]
      exact h.here
  | @received w x seen hw going kept hreceive =>
    have hs' := hs.withWatchers (d.watchers.set j { w with seen })
    have change := Meanwhile.stopUnviewed { d with watchers := d.watchers.set j { w with seen } }
    by_cases hj : j = i
    · subst hj
      rw [h.here] at hw
      cases hw
      refine ⟨{ watcher with seen }, ?_, ?_, ?_, fun _ => hs'.stopUnviewed_viewed⟩
      · rw [change.watchers]
        exact List.getElem?_set_self hi
      · intro hended
        rw [going] at hended
        cases hended
      · rw [change.workspace.published]
        exact (Workspace.receive_some hreceive).2
    · refine ⟨watcher, ?_, ?_, ?_, fun _ => hs'.stopUnviewed_viewed⟩
      · rw [change.watchers, List.getElem?_set_ne hj]
        exact h.here
      · intro hended
        rw [change.dropped]
        exact h.ended hended
      · rw [change.workspace.published]
        exact h.seen

theorem move (h : Watched i watcher d) (hs : d.Intact) (m : Move) :
    ∃ watcher', Watched i watcher' (d.move m) := by
  cases watching : m.isWatch with
  | false =>
    exact ⟨watcher, h.meanwhile (hs.move_noticed watching) fun _ runs => hs.move_runs m runs⟩
  | true =>
    cases m with
    | watch => exact ⟨watcher, h.watch⟩
    | drop => exact ⟨watcher, h.drop hs⟩
    | wake j => exact h.wake hs j
    | _ => cases watching

theorem moves (h : Watched i watcher d) (hs : d.Intact) (ms : List Move) :
    ∃ watcher', Watched i watcher' (d.moves ms) := by
  induction ms generalizing d watcher with
  | nil => exact ⟨watcher, h⟩
  | cons m ms ih =>
    obtain ⟨watcher', h'⟩ := h.move hs m
    exact ih h' (hs.move m)

end Watched

/-- A watcher that has yet to receive something goes on when it wakes, and leaves nobody
running unseen. -/
theorem Watched.wake_goes_on (h : Watched i watcher d) (hs : d.Intact) (kept : d.dropped = false)
    (left : d.workspace.pending watcher.seen ≠ []) :
    ∃ watcher', (d.wake i).watchers[i]? = some watcher' ∧ watcher.seen < watcher'.seen ∧
      (d.wake i).Viewed := by
  have hwakes := wake_wakes i d
  generalize d.wake i = d' at hwakes
  cases hwakes with
  | idle nothing =>
    rcases nothing watcher h.here with ended | ⟨-, hnone⟩
    · rw [h.ended ended] at kept
      cases kept
    · exact absurd (Workspace.pending_of_receive hnone) left
  | ended _ dropped =>
    rw [dropped] at kept
    cases kept
  | @received w x seen hw _ _ hreceive =>
    rw [h.here] at hw
    cases hw
    have change := Meanwhile.stopUnviewed
      { d with watchers := d.watchers.set i { watcher with seen } }
    refine ⟨{ watcher with seen }, ?_, (Workspace.receive_some hreceive).1,
      (hs.withWatchers _).stopUnviewed_viewed⟩
    rw [change.watchers]
    exact List.getElem?_set_self (List.getElem?_eq_some_iff.mp h.here).1

/-- Of a watcher that was there before any session ran: whenever it has received all there
is, the documents of all sessions that run are seen. It tears down no session but one that
runs unseen, and as long as the desk is kept it goes on with every delivery. -/
theorem views_never_missed (policy : Policy) (connector : Connector) (workspace : Workspace)
    (before ms : List Move)
    (early : ∀ key, ¬ ((make policy connector workspace).moves before).Runs key) :
    let first := make policy connector workspace
    let i := (first.moves before).watchers.length
    let d := first.moves (before ++ .watch :: ms)
    ∃ watcher, d.watchers[i]? = some watcher ∧
      (d.workspace.pending watcher.seen = [] → d.Viewed) ∧
      (∀ n, d.Tears n (.wake i) → ∃ t, d.tails[n]? = some t ∧ t.session.phase = .running ∧
        d.workspace.viewCount t.key = 0) ∧
      (d.dropped = false → d.workspace.pending watcher.seen ≠ [] →
        ∃ watcher', (d.move (.wake i)).watchers[i]? = some watcher' ∧
          watcher.seen < watcher'.seen ∧ (d.move (.wake i)).Viewed) := by
  intro first i d
  have hfirst : first.Intact := intact_make policy connector workspace
  have hs₀ := hfirst.moves before
  have hnew : Watched i ⟨(first.moves before).workspace.published.length, false⟩
      (first.moves before).watch :=
    ⟨by simp [watch, i], nofun, Nat.le_refl _, fun _ key runs => absurd runs (early key)⟩
  obtain ⟨watcher, h⟩ := hnew.moves (hs₀.move .watch) ms
  have hd : d = (first.moves before).watch.moves ms := moves_append before (.watch :: ms) first
  rw [← hd] at h
  have hs : d.Intact := hfirst.moves _
  refine ⟨watcher, h.here, fun hall => ?_, fun n => hs.wake_tears, h.wake_goes_on hs⟩
  exact h.viewed (Nat.le_antisymm h.seen (Workspace.pending_eq_nil.mp hall))

/-- A session whose only view is closed is torn down when the watcher wakes. -/
theorem closed_view_not_missed :
    let source : Source := { region := "eu-west-1", group := "app" }
    let d := (make ⟨100, 1000, false⟩ {} {}).moves
      [.watch, .start source, .answer 0, .closeView source.key 1]
    (∃ t, d.tails[0]? = some t ∧ t.session.phase = .running ∧ d.workspace.viewCount t.key = 0) ∧
      (d.move (.wake 0)).Viewed ∧ (d.move (.wake 0)).phase? 0 = some .stopped := by
  intro source d
  obtain ⟨watcher, here, -, htears, hwake⟩ := views_never_missed ⟨100, 1000, false⟩ {} {} []
    [.start source, .answer 0, .closeView source.key 1]
    (by rintro key ⟨n, t, ht, -⟩; cases ht)
  have hwatcher : d.watchers[0]? = some ⟨0, false⟩ := by decide
  obtain rfl : ⟨0, false⟩ = watcher := Option.some.inj (hwatcher.symm.trans here)
  have left : d.workspace.pending 0 ≠ [] := by decide
  obtain ⟨-, -, -, hviewed⟩ := hwake (by decide) left
  have stopped : (d.move (.wake 0)).phase? 0 = some .stopped := by decide
  exact ⟨htears 0 ⟨rfl, by decide, by decide⟩, hviewed, stopped⟩

end Desk

end LogTail
