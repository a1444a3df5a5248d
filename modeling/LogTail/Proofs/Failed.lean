import LogTail.Proofs.Foreign
import LogTail.Proofs.Transports

/-!
# Starts that fail

A start that fails, at once or when the service answers, has its session stopped, off the
roster and its transport closed, and has one notice on record. Neither of its two halves
touches another session, a document or a view. This holds of every desk, also while
others act on it between the two halves.
-/
namespace LogTail.Desk

/-- Only one session, its place on the roster, the record and the requests may have changed;
requests for documents that were refused are counted. -/
structure Spares (n : Nat) (d d' : Desk) : Prop where
  tails : ∀ m, m ≠ n → d'.tails[m]? = d.tails[m]?
  roster : ∀ (key : Key) (m : Nat), m ≠ n →
    (KeyMap.get? key d'.roster = some m ↔ KeyMap.get? key d.roster = some m)
  workspace : ∃ requests, d'.workspace = { d.workspace with requests }
  handles : d'.handles = d.handles

/-- A session is stopped and off the roster, its transport was closed once, and nothing of
it is at work. -/
structure Gone (n : Nat) (d : Desk) : Prop where
  unlisted : ∀ key, KeyMap.get? key d.roster ≠ some n
  stopped : ∃ t, d.tails[n]? = some t ∧ t.session.phase = .stopped ∧
    t.session.transport.closes = 1 ∧ t.feed = none ∧ t.ticker = .absent

variable {d d' : Desk} {c n : Nat} {t : Tail} {key : Key} {source : Source} {fault : Fault}

/-- A request that is refused at once has not got as far as a transport. -/
theorem Steady.start_refused (hs : d.Steady)
    (failed : (d.move (.start source)).calls[d.calls.length]? =
      some ⟨source.key, .answered (.error fault)⟩) :
    d.handsOut (.start source) = false ∧ (d.move (.start source)).tails = d.tails ∧
    (d.move (.start source)).roster = d.roster ∧ (d.move (.start source)).workspace = d.workspace ∧
    (d.move (.start source)).handles = d.handles ∧
    (d.move (.start source)).log = (source.key, .startFailed fault.message) :: d.log := by
  have hbegun := beginStart_begun hs.room source
  have hmove : d.move (.start source) = d.beginStart source := rfl
  unfold handsOut
  rw [hmove] at failed ⊢
  generalize d.beginStart source = d' at hbegun failed
  cases hbegun with
  | @refused fault' connector why =>
    simp only [List.getElem?_concat_length, Option.some.injEq, Call.mk.injEq, Stage.answered.injEq,
      Except.error.injEq, true_and] at failed
    subst failed
    refine ⟨?_, rfl, rfl, rfl, rfl, rfl⟩
    rcases why with ⟨-, rfl⟩ | ⟨-, connected⟩
    · simp
    · simp [Option.isNone_iff_eq_none, Option.isSome_iff_ne_none.mp (Connector.connect_error connected).2]
  | refocused | outrun | entered => simp at failed

/-- A request that waits has entered a session of its own and has done nothing else. -/
theorem Steady.start_opening {m due : Nat} (hs : d.Steady)
    (opening : (d.move (.start source)).calls[d.calls.length]? = some ⟨source.key, .opening m due⟩) :
    m = d.tails.length ∧ d.handsOut (.start source) = true ∧
    (d.move (.start source)).tails.length = d.tails.length + 1 ∧
    Spares d.tails.length d (d.move (.start source)) ∧
    (d.move (.start source)).workspace = d.workspace ∧ (d.move (.start source)).log = d.log := by
  have hbegun := beginStart_begun hs.room source
  have hmove : d.move (.start source) = d.beginStart source := rfl
  unfold handsOut
  rw [hmove] at opening ⊢
  generalize d.beginStart source = d' at hbegun opening
  cases hbegun with
  | refused | refocused | outrun => simp at opening
  | entered valid free connected =>
    obtain ⟨-, hconnects, hfault⟩ := Connector.connect_fresh connected
    have hm : d.tails.length = m := by simpa using (by simpa using opening : _ ∧ _).1
    refine ⟨hm.symm, by simp [hconnects, hfault], by simp, ?_, rfl, rfl⟩
    exact {
      tails := fun j hj => by
        rcases Nat.lt_or_gt_of_ne hj with old | new
        · exact List.getElem?_append_left old
        · rw [List.getElem?_append_right new.le, List.getElem?_eq_none new.le]
          exact List.getElem?_eq_none (Nat.sub_pos_of_lt new)
      roster := fun k j hj => by
        rw [KeyMap.get?_insert]
        by_cases hk : source.key = k
        · subst hk
          simp [free, Ne.symm hj]
        · simp [hk]
      workspace := ⟨_, rfl⟩
      handles := rfl }

/-- A request whose answer is a fault takes back its session and nothing else. -/
theorem Steady.answer_failed (hs : d.Steady) (hc : Opens d.calls c n key) {k : Key}
    (failed : (d.move (.answer c)).calls[c]? = some ⟨k, .answered (.error fault)⟩) :
    Spares n d (d.move (.answer c)) ∧ Gone n (d.move (.answer c)) ∧
    (d.move (.answer c)).log = (key, .startFailed fault.message) :: d.log := by
  obtain ⟨t, ht, pending, hfinished⟩ := hs.finishStart hc
  obtain ⟨due, hcall⟩ := hc
  have hmove : d.move (.answer c) = d.finishStart c := rfl
  have hn : n < d.tails.length := (List.getElem?_eq_some_iff.mp ht).1
  rw [hmove] at failed ⊢
  generalize d.finishStart c = d' at hfinished failed
  cases hfinished with
  | opened => simp [answered, hcall] at failed
  | failed fault' number requests unasked =>
    obtain ⟨-, rfl⟩ : key = k ∧ fault' = fault := by simpa [answered, hcall] using failed
    have forsaken := pending.forsake d.now
    have stopped : (t.forsake d.now).session.phase = .stopped := Session.stop_phase _ _
    refine ⟨⟨?_, ?_, ⟨requests, rfl⟩, rfl⟩, ⟨?_, ?_⟩, rfl⟩
    · exact fun m hm => List.getElem?_set_ne (Ne.symm hm)
    · exact fun _ _ other => get?_removeInstance_other other
    · intro j hj
      have hold := get?_of_removeInstance hj
      obtain ⟨u, hu, huk⟩ := hs.listed j n hold
      rw [ht] at hu
      cases hu
      obtain rfl : key = j := pending.key.symm.trans huk
      simp [get?_removeInstance, hold] at hj
    · refine ⟨t.forsake d.now, List.getElem?_set_self hn, stopped, ?_, forsaken.unfed,
        forsaken.unticked⟩
      rw [forsaken.orderly.closes, if_pos stopped]

/-- Whatever has happened to a desk, and whatever happens to it between the two halves of a
start: an invalid source is refused before the desk connects, and no session is refused
once it has connected. A start refused at once leaves the desk as it was, but for the
notice of the failure. A start refused later has entered one session, which is stopped
and off the roster then, its transport closed once and nothing of it at work; neither
half has touched another session or its place on the roster, a document, a view or a
handle; and one notice was recorded, with the fault that is answered. -/
theorem failed_start_leaves_nothing (policy : Policy) (connector : Connector)
    (workspace : Workspace) (before between : List Incident) (source : Source) :
    let d := (make policy connector workspace).meets before
    let c := d.calls.length
    let n := d.tails.length
    let d₁ := d.move (.start source)
    let d₂ := d₁.meets between
    let d₃ := d₂.move (.answer c)
    (∀ fault, source.check = .error fault → d₁.connector = d.connector ∧
      d₁.calls[c]? = some ⟨source.key, .answered (.error fault)⟩) ∧
    (∀ transport, source.check = .ok () →
      ∃ s, Session.make source d.policy.budget transport = .ok s) ∧
    (∀ fault, d₁.calls[c]? = some ⟨source.key, .answered (.error fault)⟩ →
      d.handsOut (.start source) = false ∧ d₁.tails = d.tails ∧ d₁.roster = d.roster ∧
      d₁.workspace = d.workspace ∧ d₁.handles = d.handles ∧
      d₁.log = (source.key, .startFailed fault.message) :: d.log) ∧
    ∀ m due fault, d₁.calls[c]? = some ⟨source.key, .opening m due⟩ →
      (∀ i ∈ between, i ≠ .move (.answer c)) →
      d₃.calls[c]? = some ⟨source.key, .answered (.error fault)⟩ →
      (m = n ∧ d.handsOut (.start source) = true ∧ d₁.tails.length = n + 1 ∧ Spares n d d₁ ∧
        d₁.workspace = d.workspace ∧ d₁.log = d.log) ∧
      Spares n d₂ d₃ ∧ Gone n d₃ ∧ d₃.log = (source.key, .startFailed fault.message) :: d₂.log := by
  intro d c n d₁ d₂ d₃
  have hs : d.Steady := (steady_make policy connector workspace).meets before
  have hs₁ : d₁.Steady := hs.meet (.move (.start source))
  refine ⟨fun fault invalid => ?_, fun transport valid => ?_, fun fault => hs.start_refused, ?_⟩
  · have hstart : d₁ = d.refuse source.key fault := by
      change d.beginStart source = _
      simp only [beginStart, invalid]
    rw [hstart]
    exact ⟨rfl, List.getElem?_concat_length⟩
  · exact ⟨_, make_valid valid hs.room transport⟩
  · intro m due fault opening others failed
    obtain ⟨rfl, hstart⟩ := hs.start_opening opening
    have hcall : d₂.calls[c]? = some ⟨source.key, .opening n due⟩ :=
      hs₁.meets_call opening between others
    exact ⟨⟨rfl, hstart⟩, (hs₁.meets between).answer_failed ⟨due, hcall⟩ failed⟩

/-- A start is refused by the service after someone has taken its session off the roster
and the next one of its key has begun to run, which stays where it is. -/
theorem failed_start_spares_next :
    let source : Source := { region := "eu-west-1", group := "app" }
    let connector : Connector := { scripts := [.refuse (.rejected "no"), .silent] }
    let between : List Incident := [.unlist source.key, .move (.start source), .move (.answer 1)]
    let d₁ := (make ⟨100, 1000, false⟩ connector {}).move (.start source)
    let d₂ := d₁.meets between
    let d₃ := d₂.move (.answer 0)
    d₃.roster = [(source.key, 1)] ∧ d₃.tails[1]? = d₂.tails[1]? ∧ Gone 0 d₃ ∧
      d₃.log = (source.key, .startFailed (Fault.rejected "no").message) :: d₂.log := by
  intro source connector between d₁ d₂ d₃
  have opening : d₁.calls[0]? = some ⟨source.key, .opening 0 0⟩ := by
    subst d₁ connector source
    rfl
  have others : ∀ i ∈ between, i ≠ .move (.answer 0) := by simp [between]
  have failed : d₃.calls[0]? = some ⟨source.key, .answered (.error (.rejected "no"))⟩ := by
    subst d₃ d₂ d₁ between connector source
    rfl
  obtain ⟨-, -, -, later⟩ :=
    failed_start_leaves_nothing ⟨100, 1000, false⟩ connector {} [] between source
  obtain ⟨-, spares, gone, log⟩ := later 0 0 (.rejected "no") opening others failed
  exact ⟨by decide, spares.tails 1 (by decide), gone, log⟩

end LogTail.Desk
