import LogTail.Pump

/-!
# Runs of a pump

How a run goes on from one item to the next. A run sees no item behind those that it pulled,
and items that come before its token fires are taken as if it never did.
-/
namespace LogTail

theorem Signal.stops_of_unreached {s : Signal} {n : Nat} (h : s.reaches n = false) :
    s.stops n = false := by
  cases s with
  | never => rfl
  | before k => exact h
  | during k =>
    simp only [reaches, decide_eq_false_iff_not, stops] at h ⊢
    omega

namespace Pump

variable {budget n : Nat} {s : Signal} {items : List Item} {i : Item} {exit : Exit} {p q : Pump}

theorem runFrom_stopped (fired : s.stops n = true) (items : List Item) (p : Pump) :
    runFrom budget s n items p = ⟨.cancelled, n, p⟩ := by
  simp [runFrom.eq_def, fired]

theorem runFrom_nil (unfired : s.stops n = false) (p : Pump) :
    runFrom budget s n [] p = ⟨.closed, n + 1, p⟩ := by
  simp [runFrom, unfired]

theorem runFrom_ended (unfired : s.stops n = false)
    (h : p.take budget (s.reaches n) (some i) = (some exit, q)) (items : List Item) :
    runFrom budget s n (i :: items) p = ⟨exit, n + 1, q⟩ := by
  simp [runFrom, unfired, h]

theorem runFrom_next (unfired : s.stops n = false)
    (h : p.take budget (s.reaches n) (some i) = (none, q)) (items : List Item) :
    runFrom budget s n (i :: items) p = runFrom budget s (n + 1) items q := by
  simp [runFrom.eq_def budget s n (i :: items), unfired, h]

theorem le_pulls (budget : Nat) (s : Signal) (n : Nat) (items : List Item) (p : Pump) :
    n ≤ (runFrom budget s n items p).pulls := by
  induction items generalizing n p with
  | nil =>
    cases unfired : s.stops n with
    | true => simp [runFrom_stopped unfired]
    | false => simp [runFrom_nil unfired]
  | cons i items ih =>
    cases unfired : s.stops n with
    | true => simp [runFrom_stopped unfired]
    | false =>
      cases h : p.take budget (s.reaches n) (some i) with
      | mk ending q =>
      cases ending with
      | some exit => simp [runFrom_ended unfired h]
      | none =>
        rw [runFrom_next unfired h]
        have hle := ih (n + 1) q
        omega

/-- Of the items of a stream a run sees those that it pulled. -/
theorem runFrom_pulled (budget : Nat) (s : Signal) (n : Nat) (items : List Item) (p : Pump) :
    runFrom budget s n (items.take ((runFrom budget s n items p).pulls - n)) p =
      runFrom budget s n items p := by
  induction items generalizing n p with
  | nil => rw [List.take_nil]
  | cons i items ih =>
    cases unfired : s.stops n with
    | true => rw [runFrom_stopped unfired, runFrom_stopped unfired]
    | false =>
      cases h : p.take budget (s.reaches n) (some i) with
      | mk ending q =>
      cases ending with
      | some exit =>
        rw [runFrom_ended unfired h, Nat.add_sub_cancel_left, List.take_succ_cons,
          runFrom_ended unfired h]
      | none =>
        have hle := le_pulls budget s (n + 1) items q
        have hsub : (runFrom budget s (n + 1) items q).pulls - n =
            (runFrom budget s (n + 1) items q).pulls - (n + 1) + 1 := by omega
        rw [runFrom_next unfired h, hsub, List.take_succ_cons, runFrom_next unfired h, ih]

theorem run_pulled (budget : Nat) (s : Signal) (items : List Item) (p : Pump) :
    p.run budget s (items.take (p.run budget s items).pulls) = p.run budget s items :=
  runFrom_pulled budget s 0 items _

theorem take_ne_closed {fired : Bool} (h : p.take budget fired (some i) = (some exit, q)) :
    exit ≠ .closed := by
  rintro rfl
  cases i with
  | fault e => cases h
  | frame f =>
    simp only [take] at h
    split at h <;> cases h

/-- As long as the token has not fired, items are taken as if it never did. -/
theorem runFrom_append (budget n : Nat) (before rest : List Item) (p : Pump)
    (quiet : ∀ j, j < n + before.length → s.reaches j = false) :
    runFrom budget s n (before ++ rest) p =
      if (runFrom budget .never n before p).exit = .closed then
        runFrom budget s (n + before.length) rest (runFrom budget .never n before p).pump
      else runFrom budget .never n before p := by
  induction before generalizing n p with
  | nil => simp [runFrom_nil (s := .never) rfl]
  | cons i before ih =>
    have hreach : s.reaches n = false := quiet n (by simp)
    have unfired := Signal.stops_of_unreached hreach
    cases h : p.take budget false (some i) with
    | mk ending q =>
    have h' : p.take budget (s.reaches n) (some i) = (ending, q) := by rw [hreach, h]
    cases ending with
    | some exit =>
      rw [List.cons_append, runFrom_ended unfired h', runFrom_ended (s := .never) rfl h,
        if_neg (take_ne_closed h)]
    | none =>
      have hlength : n + (i :: before).length = n + 1 + before.length := by
        rw [List.length_cons]
        omega
      rw [hlength] at quiet ⊢
      -- `quiet` counts pulls from the start of the run, so it holds of what is left as it stands
      rw [List.cons_append, runFrom_next unfired h', runFrom_next (s := .never) rfl h, ih _ _ quiet]

end Pump

end LogTail
