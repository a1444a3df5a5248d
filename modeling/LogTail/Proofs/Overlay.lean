import LogTail.Settings

/-!
# Overrides as an overlay

The variables of an environment say something about three fields of settings, or nothing
at all if the budget among them cannot be read. A field that they say something about
takes their value and every other keeps its own, whatever the settings were before and
whether or not what comes out passes its check.
-/
namespace LogTail

/-- What an environment says about the fields of settings. -/
structure Overlay where
  budget : Option Nat
  level : Option String
  format : Option String
  deriving DecidableEq, Repr

namespace Overlay

open Settings (budgetVariable levelVariable formatVariable readBudget)

variable {environment later : String → Option String} {flaw : Flaw} {o p : Overlay} {s : Settings}

/-- What the variables say. A budget that cannot be read spoils the names as well. -/
def read (environment : String → Option String) : Except Flaw Overlay :=
  match environment budgetVariable with
  | none => .ok ⟨none, environment levelVariable, environment formatVariable⟩
  | some input =>
    match readBudget input with
    | .error flaw => .error flaw
    | .ok n => .ok ⟨some n, environment levelVariable, environment formatVariable⟩

/-- Settings with the values of an overlay in the place of their own. -/
def laidOn (o : Overlay) (s : Settings) : Settings := { s with
  budget := o.budget.getD s.budget
  level := o.level.getD s.level
  format := o.format.getD s.format }

/-- What the first overlay says, and what the second does where the first is silent. -/
def or (o p : Overlay) : Overlay :=
  ⟨o.budget.or p.budget, o.level.or p.level, o.format.or p.format⟩

theorem getD_or {α : Type} (a b : Option α) (x : α) : (a.or b).getD x = a.getD (b.getD x) := by
  cases a <;> rfl

theorem or_laidOn (o p : Overlay) (s : Settings) : (o.or p).laidOn s = o.laidOn (p.laidOn s) := by
  simp only [laidOn, or, getD_or]

/-- Nothing comes of laying the same values over settings once more. -/
theorem laidOn_laidOn (o : Overlay) (s : Settings) : o.laidOn (o.laidOn s) = o.laidOn s := by
  rw [← or_laidOn]
  simp [or]

/-- A budget that is refused comes first, and nothing after it. -/
theorem override_of_error (h : read environment = .error flaw) :
    s.override environment = (.error flaw, s) := by
  unfold read at h
  split at h
  · cases h
  · rename_i input set
    split at h
    · rename_i refused
      cases h
      simp only [Settings.override, set, refused]
    · cases h

/-- The check comes last, and undoes nothing. -/
theorem override_of_ok (h : read environment = .ok o) :
    s.override environment = ((o.laidOn s).check, o.laidOn s) := by
  unfold read at h
  split at h
  · rename_i unset
    cases h
    simp only [Settings.override, unset]
    rfl
  · rename_i input set
    split at h
    · cases h
    · rename_i n hbudget
      cases h
      simp only [Settings.override, set, hbudget]
      rfl

theorem override_again (environment : String → Option String) (s : Settings) :
    (s.override environment).2.override environment = s.override environment := by
  cases h : read environment with
  | error flaw =>
    have hrefused := override_of_error (s := s) h
    rw [hrefused]
    exact hrefused
  | ok o => rw [override_of_ok h, override_of_ok h, laidOn_laidOn]

/-- An environment that is asked before another one is laid over it. -/
theorem read_or (hlater : read later = .ok o) (h : read environment = .ok p) :
    read (fun name => (later name).or (environment name)) = .ok (o.or p) := by
  unfold read at hlater h ⊢
  split at hlater
  · rename_i unset
    cases hlater
    simp only [unset, Option.none_or]
    split at h
    · cases h
      rfl
    · split at h
      · cases h
      · cases h
        rfl
  · rename_i input set
    split at hlater
    · cases hlater
    · rename_i n hbudget
      cases hlater
      simp only [set, Option.some_or, hbudget]
      -- the earlier budget is readable and does not count
      split at h
      · cases h
        rfl
      · split at h
        · cases h
        · cases h
          rfl

end Overlay

namespace Settings

/-- The budget among the variables can be read, if it is there. -/
def ReadableBudget (environment : String → Option String) : Prop :=
  ∀ input, environment budgetVariable = some input → ∃ n, readBudget input = .ok n

theorem ReadableBudget.read {environment : String → Option String} (h : ReadableBudget environment) :
    ∃ o, Overlay.read environment = .ok o ∧ o.level = environment levelVariable ∧
      o.format = environment formatVariable ∧
      ∀ s : Settings, match environment budgetVariable with
        | none => (o.laidOn s).budget = s.budget
        | some input => readBudget input = .ok (o.laidOn s).budget := by
  unfold Overlay.read
  cases set : environment budgetVariable with
  | none => exact ⟨_, rfl, rfl, rfl, fun s => rfl⟩
  | some input =>
    obtain ⟨n, hbudget⟩ := h input set
    simp only [hbudget]
    exact ⟨_, rfl, rfl, rfl, fun s => rfl⟩

/-- Whatever settings were before and whatever an environment says: if a budget is set that
cannot be read, the override fails for it and changes nothing. Otherwise the budget, the
level and the format are what the variables say, or where they are not set what they were,
and the answer is that of the check of what came out, which stays whatever the answer. The
refresh and what is done at a stop are never touched; overriding again changes neither the
settings nor the answer; and of two environments one after the other the second is laid
over the first. -/
theorem overrides_overlay (environment : String → Option String) (s : Settings) :
    let answer := (s.override environment).1
    let merged := (s.override environment).2
    (∀ input flaw, environment budgetVariable = some input → readBudget input = .error flaw →
      answer = .error flaw ∧ merged = s) ∧
    (ReadableBudget environment →
      (match environment budgetVariable with
        | none => merged.budget = s.budget
        | some input => readBudget input = .ok merged.budget) ∧
      merged.level = (environment levelVariable).getD s.level ∧
      merged.format = (environment formatVariable).getD s.format ∧
      answer = merged.check) ∧
    merged.refresh = s.refresh ∧ merged.clearOnStop = s.clearOnStop ∧
    merged.override environment = (answer, merged) ∧
    ∀ later, ReadableBudget environment → ReadableBudget later →
      merged.override later = s.override fun name => (later name).or (environment name) := by
  intro answer merged
  have hkept : merged.refresh = s.refresh ∧ merged.clearOnStop = s.clearOnStop := by
    cases h : Overlay.read environment with
    | error flaw => simp only [merged, Overlay.override_of_error h, and_self]
    | ok o =>
      simp only [merged, Overlay.override_of_ok h]
      exact ⟨rfl, rfl⟩
  refine ⟨fun input flaw set refused => ?_, fun readable => ?_, hkept.1, hkept.2,
    Overlay.override_again environment s, fun later readable readable' => ?_⟩
  · have hread : Overlay.read environment = .error flaw := by
      simp only [Overlay.read, set, refused]
    simp only [answer, merged, Overlay.override_of_error hread, and_self]
  · obtain ⟨o, hread, hlevel, hformat, hbudget⟩ := readable.read
    simp only [answer, merged, Overlay.override_of_ok hread, ← hlevel, ← hformat]
    exact ⟨hbudget s, rfl, rfl, trivial⟩
  · obtain ⟨p, hread, -⟩ := readable.read
    obtain ⟨o, hread', -⟩ := readable'.read
    simp only [merged, Overlay.override_of_ok hread, Overlay.override_of_ok hread',
      Overlay.override_of_ok (Overlay.read_or hread' hread), Overlay.or_laidOn]

/-- Settings that fail their check are repaired in two steps, of which the first leaves
them with a level that there is not, or in one. -/
theorem overrides_repair_in_two_steps :
    let earlier : String → Option String := fun name =>
      if name = budgetVariable then some "+2000" else if name = levelVariable then some "loud"
      else none
    let later : String → Option String := fun name =>
      if name = levelVariable then some "Warn" else none
    let s : Settings := { budget := 5, refresh := 80 }
    s.override earlier = (.error .level, { s with budget := 2000, level := "loud" }) ∧
      s.override (fun name => (later name).or (earlier name)) =
        (.ok (), { s with budget := 2000, level := "Warn" }) ∧
      (s.override earlier).2.override later =
        s.override fun name => (later name).or (earlier name) := by
  intro earlier later s
  have hnumber : Text.wholeNumber? (Text.trim "+2000".toList) = some 2000 := by decide
  have hbudget : readBudget "+2000" = .ok 2000 := by
    simp only [readBudget, hnumber]
    rfl
  have hread : Overlay.read earlier = .ok ⟨some 2000, some "loud", none⟩ := by
    have set : earlier budgetVariable = some "+2000" := rfl
    simp only [Overlay.read, set, hbudget]
    rfl
  have hread' : Overlay.read later = .ok ⟨none, some "Warn", none⟩ := rfl
  have hloud : Level.ofName? "loud" = none := by decide
  have hwarn : Level.ofName? "Warn" = some .warn := by decide
  have hconsole : Format.ofName? "console" = some .console := by decide
  have readable : ReadableBudget earlier := by
    intro input set
    obtain rfl : "+2000" = input := Option.some.inj set
    exact ⟨2000, hbudget⟩
  have unset : ReadableBudget later := by
    intro input set
    cases set
  obtain ⟨-, -, -, -, -, hboth⟩ := overrides_overlay earlier s
  refine ⟨?_, ?_, hboth later readable unset⟩
  · rw [Overlay.override_of_ok hread]
    simp [check, Overlay.laidOn, hloud, s, leastBudget, greatestBudget, leastRefresh]
  · rw [Overlay.override_of_ok (Overlay.read_or hread' hread)]
    simp [check, Overlay.laidOn, Overlay.or, hwarn, hconsole, s, leastBudget, greatestBudget,
      leastRefresh]

end Settings

end LogTail
