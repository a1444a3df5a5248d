import LogTail.Proofs.Foreign
import LogTail.Proofs.Spelling
import LogTail.Settings.Search

/-!
# Accepted settings

However a host comes by its settings, those that it accepts have passed their check, and
what was checked is what takes effect: the names are read as they were checked, the desk
finds nothing to bring into range, and no session is refused for its budget.
-/
namespace LogTail

namespace Settings

variable {s : Settings}

/-- The ways in which a host comes by settings. -/
inductive Accepted : Settings → Prop where
  /-- Whatever a reader made of a text, of a file as well, it is checked. -/
  | read {written : Option Settings} {s : Settings} (h : accept written = .ok s) : Accepted s
  | text {text : String} {s : Settings} (h : ofText text = .ok s) : Accepted s
  | file {tree : FileTree} {path : String} {s : Settings} (h : load tree path = .ok s) : Accepted s
  | found {environment : String → Option String} {tree : FileTree} {s : Settings}
      (h : discover environment tree = .ok s) : Accepted s
  /-- Whatever the settings were before, and wherever they came from. -/
  | overridden {environment : String → Option String} {old s : Settings}
      (h : old.override environment = (.ok (), s)) : Accepted s

theorem check_of_accept {written : Option Settings} (h : accept written = .ok s) :
    s.check = .ok () := by
  cases written with
  | none => cases h
  | some w =>
    simp only [accept] at h
    split at h <;> cases h
    assumption

theorem check_of_load {tree : FileTree} {path : String} (h : load tree path = .ok s) :
    s.check = .ok () := by
  unfold load at h
  split at h
  · cases h
  · exact check_of_accept h

/-- The check comes last. -/
theorem check_of_override {environment : String → Option String} {old : Settings}
    (h : old.override environment = (.ok (), s)) : s.check = .ok () := by
  unfold override at h
  split at h
  · obtain ⟨hcheck, rfl⟩ := Prod.mk.inj h
    exact hcheck
  · split at h
    · cases h
    · obtain ⟨hcheck, rfl⟩ := Prod.mk.inj h
      exact hcheck

/-- Whatever was found, the variables come last. -/
theorem override_of_discover {environment : String → Option String} {tree : FileTree}
    (h : discover environment tree = .ok s) :
    ∃ old : Settings, old.override environment = (.ok (), s) := by
  cases found : find? environment tree with
  | none =>
    simp only [discover, found, bind, Except.bind] at h
    split at h
    · rename_i overridden
      cases h
      exact ⟨{}, overridden⟩
    · cases h
  | some path =>
    cases loaded : load tree path with
    | error fault =>
      simp only [discover, found, loaded, bind, Except.bind] at h
      cases h
    | ok old =>
      simp only [discover, found, loaded, bind, Except.bind] at h
      split at h
      · rename_i overridden
        cases h
        exact ⟨old, overridden⟩
      · cases h

theorem Accepted.check (h : Accepted s) : s.check = .ok () := by
  cases h with
  | read h => exact check_of_accept h
  | text h => exact check_of_accept h
  | file h => exact check_of_load h
  | found h =>
    obtain ⟨old, overridden⟩ := override_of_discover h
    exact check_of_override overridden
  | overridden h => exact check_of_override h

/-- What the check asks for. -/
theorem check_ok (h : s.check = .ok ()) :
    (leastBudget ≤ s.budget ∧ s.budget ≤ greatestBudget) ∧ leastRefresh ≤ s.refresh ∧
      (∃ l, Level.ofName? s.level = some l) ∧ ∃ f, Format.ofName? s.format = some f := by
  simp only [check] at h
  split at h
  · cases h
  rename_i budget
  split at h
  · cases h
  rename_i refresh
  split at h
  · cases h
  rename_i level
  split at h
  · cases h
  rename_i format
  exact ⟨by omega, by omega, Option.ne_none_iff_exists'.mp level,
    Option.ne_none_iff_exists'.mp format⟩

/-- Settings that take effect as they are. -/
structure Effective (s : Settings) : Prop where
  budget : 1000 ≤ s.budget ∧ s.budget ≤ 15000
  refresh : 50 ≤ s.refresh
  /-- Both names are known, so neither gives way to a default. -/
  logging : ∃ l f, Level.ofName? s.level = some l ∧ Format.ofName? s.format = some f ∧
    s.logging = ⟨l, f⟩
  inRange : (Policy.ofSettings s).clamped = Policy.ofSettings s
  /-- A desk has them whatever happens to it. -/
  policy : ∀ (connector : Connector) (workspace : Workspace) (is : List Incident),
    ((Desk.make (Policy.ofSettings s) connector workspace).meets is).policy =
      ⟨s.budget, s.refresh, s.clearOnStop⟩
  /-- A session that cannot be made has a source that cannot be tailed. -/
  sessions : ∀ (source : Source) (transport : Transport) (fault : Fault),
    Session.make source s.budget transport = .error fault → source.check = .error fault
  /-- A start that a desk refuses has such a source, or no connection was made for it. -/
  starts : ∀ (connector : Connector) (workspace : Workspace) (is : List Incident)
    (source : Source) (fault : Fault),
    let d := (Desk.make (Policy.ofSettings s) connector workspace).meets is
    (d.move (.start source)).calls[d.calls.length]? = some ⟨source.key, .answered (.error fault)⟩ →
      source.check = .error fault ∨ d.connector.connect.1 = .error fault

theorem clamped_of_check (h : s.check = .ok ()) :
    (Policy.ofSettings s).clamped = Policy.ofSettings s := by
  obtain ⟨⟨low, -⟩, refresh, -⟩ := check_ok h
  have hbudget : max s.budget 1 = s.budget := Nat.max_eq_left (Nat.le_trans (by decide) low)
  have hrefresh : max s.refresh Policy.leastRefresh = s.refresh :=
    Nat.max_eq_left (Nat.le_trans (by decide) refresh)
  simp only [Policy.clamped, Policy.ofSettings, hbudget, hrefresh]

theorem logging_of_check (h : s.check = .ok ()) : ∃ l f, Level.ofName? s.level = some l ∧
    Format.ofName? s.format = some f ∧ s.logging = ⟨l, f⟩ := by
  obtain ⟨-, -, ⟨l, level⟩, f, format⟩ := check_ok h
  exact ⟨l, f, level, format, by simp [logging, Logging.ofNames, level, format]⟩

end Settings

/-- The budget is the last thing that a session is refused for, and one line is enough. -/
theorem Session.make_error {source : Source} {budget : Nat} {transport : Transport} {fault : Fault}
    (room : 0 < budget) (h : Session.make source budget transport = .error fault) :
    source.check = .error fault := by
  cases valid : source.check with
  | error fault' =>
    simp only [Session.make, valid] at h
    cases h
    rfl
  | ok u =>
    rw [Desk.make_valid valid room] at h
    cases h

/-- A request that is refused at once is refused for its source or for its connection. -/
theorem Desk.Begun.refusal {d d' : Desk} {source : Source} {fault : Fault} (h : Begun source d d')
    (refused : d'.calls[d.calls.length]? = some ⟨source.key, .answered (.error fault)⟩) :
    source.check = .error fault ∨ d.connector.connect.1 = .error fault := by
  cases h with
  | refused why =>
    simp only [List.getElem?_concat_length, Option.some.injEq, Call.mk.injEq, true_and] at refused
    cases refused
    rcases why with ⟨invalid, -⟩ | ⟨-, connected⟩
    · exact .inl invalid
    · exact .inr (by rw [connected])
  | refocused | outrun | entered =>
    simp at refused

namespace Settings

theorem effective_of_check {s : Settings} (h : s.check = .ok ()) : s.Effective := by
  obtain ⟨budget, refresh, -⟩ := check_ok h
  have hclamped := clamped_of_check h
  have room : 0 < s.budget := Nat.lt_of_lt_of_le (by decide) budget.1
  have steady (connector : Connector) (workspace : Workspace) :=
    Desk.steady_make (Policy.ofSettings s) connector workspace
  exact {
    budget := budget
    refresh := refresh
    logging := logging_of_check h
    inRange := hclamped
    policy := fun connector workspace is =>
      ((steady connector workspace).meets_policy is).trans hclamped
    sessions := fun source transport fault => Session.make_error room
    starts := fun connector workspace is source fault refused =>
      (Desk.beginStart_begun ((steady connector workspace).meets is).room source).refusal refused }

/-- All settings that a host accepts, whether read from a text, loaded from a file, found in
its place, or changed by variables, and whatever reads the text, take effect as they are:
within their bounds, with a level and a format that are known, in a desk that keeps them, and
without a session that is refused for its budget. And the names of levels and formats are
read alike however they are spelled. -/
theorem accepted_take_effect : (∀ s, Accepted s → s.Effective) ∧
    ∀ a b, SameSpelling a b →
      Level.ofName? a = Level.ofName? b ∧ Format.ofName? a = Format.ofName? b :=
  ⟨fun _ accepted => effective_of_check accepted.check, fun _ _ same => same.names⟩

/-- Variables that are written as a user might write them. -/
theorem overrides_take_effect :
    let environment : String → Option String := fun name =>
      if name = budgetVariable then some " 2000 "
      else if name = levelVariable then some "\tWarn"
      else none
    let s : Settings := { budget := 2000, level := "\tWarn" }
    ({} : Settings).override environment = (.ok (), s) ∧ s.Effective ∧
      SameSpelling "\tWarn" "warn " ∧ Level.ofName? "\tWarn" = Level.ofName? "warn " := by
  intro environment s
  have hvariable : environment budgetVariable = some " 2000 " := rfl
  have hbudget : readBudget " 2000 " = .ok 2000 := by decide
  have hnames : ({ budget := 2000 } : Settings).overrideNames environment = s := rfl
  have hcheck : s.check = .ok () := by decide
  have overridden : ({} : Settings).override environment = (.ok (), s) := by
    simp only [override, hvariable, hbudget, hnames, hcheck]
  have same : SameSpelling "\tWarn" "warn " :=
    ⟨['\t'], ['W', 'a', 'r', 'n'], [], [], ['w', 'a', 'r', 'n'], [' '], by decide, by decide,
      List.all_eq_true.mp rfl, .cons rfl (.cons rfl (.cons rfl (.cons rfl .nil)))⟩
  exact ⟨overridden, accepted_take_effect.1 s (.overridden overridden), same,
    (accepted_take_effect.2 _ _ same).1⟩

end Settings

end LogTail
