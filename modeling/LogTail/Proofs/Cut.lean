import LogTail.Proofs.Runs

/-!
# Runs cut short by their token

A run whose token fires leaves the document as the items did that were taken before: the
token cuts it between two items, also when it fires while an item is handed over.
-/
namespace LogTail.Pump

variable {k n : Nat} {s : Signal} {items : List Item}

/-- The exit of a run whose token fires while a pull hands over what it found. -/
def handoverExit : Option Item → Exit
  | none => .closed
  | some (.fault e) => .failed e
  | some (.frame _) => .cancelled

theorem quiet_before {j : Nat} (h : j < k) : (Signal.before k).reaches j = false := by
  simp [Signal.reaches, h]

theorem quiet_during {j : Nat} (h : j < k) : (Signal.during k).reaches j = false := by
  simp [Signal.reaches, h]

/-- Once the token has fired a frame does not reach the document. -/
theorem handle_fired (budget : Nat) (f : Frame) (p : Pump) :
    (p.handle budget true f).2.document = p.document ∧
      ∀ e, (p.handle budget true f).1 ≠ .failed e := by
  cases f with
  | accepted | unknown => simp [handle, count]
  | update sampled records =>
    simp only [handle, write]
    split <;> simp [count, tell]

theorem take_fired (budget : Nat) (i : Item) (p : Pump) :
    (p.take budget true (some i)).2.document = p.document ∧
      (p.take budget true (some i)).1.getD .cancelled = handoverExit (some i) := by
  cases i with
  | fault e => exact ⟨rfl, rfl⟩
  | frame f =>
    obtain ⟨hdocument, hfailed⟩ := handle_fired budget f
      (p.count fun t => { t with frames := t.frames + 1 })
    simp only [take]
    split <;> rename_i h <;> rw [h] at hdocument hfailed
    · exact ⟨hdocument, rfl⟩
    · exact ⟨hdocument, rfl⟩
    · exact absurd rfl (hfailed _)

/-- Once the token has fired the run does not go on from an update that brings entries. -/
theorem take_fired_empty (budget : Nat) (i : Item) (p : Pump)
    (goes : (p.take budget true (some i)).1 = none) (sampled : Bool) (records : List Record)
    (update : i = .frame (.update sampled records)) : entriesOf records = [] := by
  subst update
  refine Decidable.byContradiction fun entries => ?_
  simp [take, handle, write, entries] at goes

/-- The pull during which the token fires is the last, and changes no document. -/
theorem runFrom_handing (budget k : Nat) (rest : List Item) (p : Pump) :
    (runFrom budget (.during k) k rest p).pump.document = p.document ∧
      (runFrom budget (.during k) k rest p).pulls = k + 1 ∧
      (runFrom budget (.during k) k rest p).exit = handoverExit rest.head? := by
  have unfired : (Signal.during k).stops k = false := by simp [Signal.stops]
  have fired : (Signal.during k).stops (k + 1) = true := by simp [Signal.stops]
  have reached : (Signal.during k).reaches k = true := by simp [Signal.reaches]
  cases rest with
  | nil =>
    rw [runFrom_nil unfired]
    exact ⟨rfl, rfl, rfl⟩
  | cons i later =>
    obtain ⟨hdocument, hexit⟩ := take_fired budget i p
    cases h : p.take budget true (some i) with
    | mk ending q =>
    rw [h] at hdocument hexit
    rw [← reached] at h
    cases ending with
    | none =>
      -- a frame that brings no entries does not end the run: the next look at the token does
      rw [runFrom_next unfired h, runFrom_stopped fired]
      exact ⟨hdocument, rfl, hexit⟩
    | some exit =>
      rw [runFrom_ended unfired h]
      exact ⟨hdocument, rfl, hexit⟩

/-- A token that does not fire before the end of the stream is found makes no difference. -/
theorem runFrom_unreached (budget : Nat) (p : Pump)
    (quiet : ∀ j, j ≤ n + items.length → s.reaches j = false) :
    runFrom budget s n items p = runFrom budget .never n items p := by
  have hs := runFrom_append budget n items [] p fun j hj => quiet j (Nat.le_of_lt hj)
  have hnever := runFrom_append (s := .never) budget n items [] p fun _ _ => rfl
  rw [List.append_nil, runFrom_nil (Signal.stops_of_unreached (quiet _ (Nat.le_refl _)))] at hs
  rw [List.append_nil, runFrom_nil (s := .never) rfl] at hnever
  exact hs.trans hnever.symm

/-- A run whose token leaves the first `k` items alone goes on behind them, unless one of
them ends it. -/
theorem run_take_drop (budget : Nat) (p : Pump) (far : k ≤ items.length)
    (quiet : ∀ j, j < k → s.reaches j = false) :
    p.run budget s items =
      if (p.run budget .never (items.take k)).exit = .closed then
        runFrom budget s k (items.drop k) (p.run budget .never (items.take k)).pump
      else p.run budget .never (items.take k) := by
  have hlength : 0 + (items.take k).length = k := by
    rw [List.length_take, Nat.min_eq_left far, Nat.zero_add]
  have h := runFrom_append budget 0 (items.take k) (items.drop k) { p with tally := {} }
    fun j hj => quiet j (by omega)
  rwa [List.take_append_drop, hlength] at h

/-- A token that fires when the items before number `k` have been taken, and none of them
has ended the run, cuts it there. Fired before item `k` is handed over, it leaves what the
uncancelled run over the items before leaves, and the exit is the cancellation. Fired while
item `k` is handed over, it lets that pull be the last; the document is the same, and the
exit is the cancellation as well unless the stream ends or fails right then. In neither
case does anything behind make a difference. A token that fires later than the run ends
makes none either. -/
theorem fired_run_is_cut (budget k : Nat) (items : List Item) (p : Pump) :
    let done := p.run budget .never (items.take k)
    let waiting := p.run budget (.before k) items
    let handing := p.run budget (.during k) items
    if k ≤ items.length ∧ done.exit = .closed then
      waiting = ⟨.cancelled, k, done.pump⟩ ∧
      handing.pump.document = done.pump.document ∧ handing.pulls = k + 1 ∧
      handing.exit = handoverExit items[k]? ∧
      p.run budget (.during k) (items.take (k + 1)) = handing
    else
      waiting = p.run budget .never items ∧ handing = p.run budget .never items := by
  intro done waiting handing
  by_cases far : k ≤ items.length
  · have hnever := run_take_drop (s := .never) budget p far fun _ _ => rfl
    have hwaiting := run_take_drop budget p far fun _ => quiet_before
    have hhanding := run_take_drop budget p far fun _ => quiet_during
    by_cases closed : done.exit = .closed
    · rw [if_pos closed] at hwaiting hhanding
      rw [if_pos ⟨far, closed⟩]
      obtain ⟨hdocument, hpulls, hexit⟩ := runFrom_handing budget k (items.drop k) done.pump
      rw [← hhanding] at hdocument hpulls hexit
      have hpulled := run_pulled budget (.during k) items p
      rw [hpulls] at hpulled
      rw [List.head?_drop] at hexit
      refine ⟨hwaiting.trans (runFrom_stopped ?_ _ _), hdocument, hpulls, hexit, hpulled⟩
      simp [Signal.stops]
    · rw [if_neg closed] at hnever hwaiting hhanding
      rw [if_neg fun h => closed h.2]
      exact ⟨hwaiting.trans hnever.symm, hhanding.trans hnever.symm⟩
  · rw [if_neg fun h => far h.1]
    have hlate (j : Nat) (hj : j ≤ 0 + items.length) : j < k := by omega
    exact ⟨runFrom_unreached budget _ fun j hj => quiet_before (hlate j hj),
      runFrom_unreached budget _ fun j hj => quiet_during (hlate j hj)⟩

end LogTail.Pump
