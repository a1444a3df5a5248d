import LogTail.Proofs.Moves

/-!
# The roster and the live sessions

In every run of a desk of its own the roster is exactly the table of the sessions that
start or run, and no key has two of them.
-/
namespace LogTail.Desk

variable {d : Desk}

theorem Sound.mem_roster (hs : d.Sound) (key : Key) (n : Nat) : (key, n) ∈ d.roster ↔
    ∃ t, d.tails[n]? = some t ∧ t.key = key ∧
      (t.session.phase = .starting ∨ t.session.phase = .running) := by
  simp only [← Phase.isLive_iff]
  rw [← hs.ordered.get?_eq_some]
  exact hs.lists key n

/-- After any moves the roster lists the sessions that start or run, all of them and
only them, each once and under its own key; so a key has at most one. -/
theorem roster_lists_live_sessions (policy : Policy) (connector : Connector)
    (workspace : Workspace) (ms : List Move) (alone : connector.rivals = []) :
    let d := (make policy connector workspace).moves ms
    (∀ (key : Key) (n : Nat), (key, n) ∈ d.roster ↔ ∃ t, d.tails[n]? = some t ∧ t.key = key ∧
      (t.session.phase = .starting ∨ t.session.phase = .running)) ∧
    (KeyMap.keys d.roster).Nodup ∧
    ∀ (m n : Nat) (t u : Tail), d.tails[m]? = some t → d.tails[n]? = some u → t.key = u.key →
      (t.session.phase = .starting ∨ t.session.phase = .running) →
      (u.session.phase = .starting ∨ u.session.phase = .running) → m = n := by
  intro d
  have hs : d.Sound := (sound_make policy connector workspace alone).moves ms
  refine ⟨hs.mem_roster, hs.ordered.nodup_keys, ?_⟩
  intro m n t u ht hu same tlive ulive
  rw [← Phase.isLive_iff] at tlive ulive
  exact hs.single ht hu same tlive ulive

/-- A session that is stopped while it starts is off the roster, and the next one of its
key is on it. -/
theorem roster_lists_restarted_session :
    let source : Source := { region := "eu-west-1", group := "app" }
    let d := (make ⟨100, 1000, false⟩ {} {}).moves
      [.start source, .stop source.key, .start source, .answer 0]
    d.roster = [(source.key, 1)] ∧ ∃ t, d.tails[1]? = some t ∧ t.key = source.key ∧
      (t.session.phase = .starting ∨ t.session.phase = .running) := by
  intro source d
  have hroster : d.roster = [(source.key, 1)] := by decide
  have hlists := (roster_lists_live_sessions ⟨100, 1000, false⟩ {} {}
    [.start source, .stop source.key, .start source, .answer 0] rfl).1 source.key 1
  refine ⟨hroster, hlists.mp ?_⟩
  change (source.key, 1) ∈ d.roster
  simp [hroster]

end LogTail.Desk
