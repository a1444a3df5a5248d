import LogTail.Proofs.Moves

/-!
# What becomes of a session

An act leaves a session in its phase, or opens it, or stops it after its start has
failed, or tears it down; which of these it was can be told from what was put on record.
-/
namespace LogTail.Desk

variable {d d' : Desk} {deed : Deed} {deeds : List Deed} {n : Nat} {t : Tail} {key : Key}

/-- What an act makes of the session with a number. -/
inductive Fate (n : Nat) (t t' : Tail) (deed : Deed) : Prop where
  | kept (same : t'.session.phase = t.session.phase) (untorn : ∀ key reason, deed ≠ .torn n key reason)
  | opened {c : Nat} (starting : t.session.phase = .starting) (running : t'.session.phase = .running)
      (h : deed = .answered c t.key .started)
  | failed {c : Nat} {reason : String} (starting : t.session.phase = .starting)
      (stopped : t'.session.phase = .stopped) (h : deed = .answered c t.key (.startFailed reason))
  | torn {reason : StopReason} (live : t.session.phase.isLive = true)
      (stopped : t'.session.phase = .stopped) (h : deed = .torn n t.key reason)

/-- An act that touches one session, seen from any session. -/
theorem fate_set {m : Nat} {u u' : Tail} (hu : d.tails[m]? = some u) (hk : u'.key = u.key)
    (h : Fate m u u' deed) (others : ∀ key reason, n ≠ m → deed ≠ .torn n key reason)
    (ht : d.tails[n]? = some t) :
    ∃ t', (d.tails.set m u')[n]? = some t' ∧ t'.key = t.key ∧ Fate n t t' deed := by
  have hm : m < d.tails.length := (List.getElem?_eq_some_iff.mp hu).1
  by_cases hn : m = n
  · subst hn
    rw [hu] at ht
    cases ht
    exact ⟨u', List.getElem?_set_self hm, hk, h⟩
  · exact ⟨t, by rw [List.getElem?_set_ne hn]; exact ht, rfl,
      .kept rfl fun key reason => others key reason (Ne.symm hn)⟩

theorem Act.fate (h : Act d deed d') (hs : d.Sound) (ht : d.tails[n]? = some t) :
    ∃ t', d'.tails[n]? = some t' ∧ t'.key = t.key ∧ Fate n t t' deed := by
  cases h with
  | beside h => exact ⟨t, by rw [h.tails]; exact ht, rfl, .kept rfl nofun⟩
  | tended hu h => exact fate_set hu h.key (.kept (by rw [h.session]) nofun) nofun ht
  | refused | refocused | cleared => exact ⟨t, ht, rfl, .kept rfl nofun⟩
  | entered valid free connected =>
    have hn : n < d.tails.length := (List.getElem?_eq_some_iff.mp ht).1
    exact ⟨t, by rw [List.getElem?_append_left hn]; exact ht, rfl, .kept rfl nofun⟩
  | opened hc hu starting answer document =>
    obtain ⟨rfl, -⟩ := hs.awaited.tail hc hu
    exact fate_set hu rfl (.opened starting rfl rfl) nofun ht
  | failed fault hc hu starting answer requests =>
    obtain ⟨rfl, -⟩ := hs.awaited.tail hc hu
    exact fate_set hu (Session.stop_key _ _) (.failed starting (Session.stop_phase _ _) rfl) nofun ht
  | overtaken fault hc hu stopped answer => exact fate_set hu rfl (.kept rfl nofun) nofun ht
  | torn reason hu live =>
    refine fate_set hu (Session.stop_key _ _) (.torn live (Session.stop_phase _ _) rfl) ?_ ht
    rintro key reason hn ⟨⟩
    exact hn rfl
  | left hu stopped fed => exact fate_set hu rfl (.kept rfl nofun) nofun ht
  | wrote hu running hf document h => exact fate_set hu rfl (.kept rfl nofun) nofun ht
  | ticked next hu running ticking => exact fate_set hu rfl (.kept rfl nofun) nofun ht

/-- A session that an act adds has just begun its start. -/
theorem Act.newcomer (h : Act d deed d') (old : d.tails[n]? = none) (ht : d'.tails[n]? = some t) :
    t.session.phase = .starting ∧ deed = .entered n t.key := by
  have hlen : d.tails.length ≤ n := List.getElem?_eq_none_iff.mp old
  have hset {m : Nat} {u : Tail} (hu : (d.tails.set m u)[n]? = some t) : False := by
    have hn := (List.getElem?_eq_some_iff.mp hu).1
    rw [List.length_set] at hn
    omega
  cases h with
  | beside h =>
    rw [h.tails, old] at ht
    cases ht
  | refused | refocused | cleared =>
    rw [old] at ht
    cases ht
  | entered valid free connected =>
    rw [List.getElem?_append_right hlen] at ht
    have hn := (List.getElem?_eq_some_iff.mp ht).1
    have hzero : n - d.tails.length = 0 := by
      simp at hn
      omega
    rw [hzero] at ht
    cases ht
    have hn : n = d.tails.length := by omega
    subst hn
    exact ⟨rfl, rfl⟩
  | _ => exact (hset ht).elim

/-- A session is one that the act has added, or the act has made it what it is. -/
theorem Act.origin {t' : Tail} (h : Act d deed d') (hs : d.Sound) (ht' : d'.tails[n]? = some t') :
    (t'.session.phase = .starting ∧ deed = .entered n t'.key) ∨
      ∃ t, d.tails[n]? = some t ∧ t'.key = t.key ∧ Fate n t t' deed := by
  cases ht : d.tails[n]? with
  | none => exact .inl (h.newcomer ht ht')
  | some t =>
    obtain ⟨u, hu, hk, hfate⟩ := h.fate hs ht
    rw [ht'] at hu
    cases hu
    exact .inr ⟨t, rfl, hk, hfate⟩

/-- A session that is opened was starting, and runs. -/
theorem Act.started {c : Nat} (h : Act d (.answered c key .started) d') (hs : d.Sound) :
    ∃ (n : Nat) (t t' : Tail), d.tails[n]? = some t ∧ t.key = key ∧ t.session.phase = .starting ∧
      d'.tails[n]? = some t' ∧ t'.key = key ∧ t'.session.phase = .running := by
  cases h with
  | @opened _ n _ t _ _ _ _ hc ht starting answer document =>
    have hn : n < d.tails.length := (List.getElem?_eq_some_iff.mp ht).1
    obtain ⟨rfl, -⟩ := hs.awaited.tail hc ht
    exact ⟨n, t, _, ht, rfl, starting, List.getElem?_set_self hn, rfl, rfl⟩

theorem Act.torn_live {reason : StopReason} (h : Act d (.torn n key reason) d') :
    ∃ t, d.tails[n]? = some t ∧ t.key = key ∧ t.session.phase.isLive = true := by
  cases h with
  | torn _ ht live => exact ⟨_, ht, rfl, live⟩

/-- A session that has stopped stays stopped. -/
theorem Act.stopped (h : Act d deed d') (hs : d.Sound) (ht : d.tails[n]? = some t)
    (stopped : t.session.phase = .stopped) :
    ∃ t', d'.tails[n]? = some t' ∧ t'.key = t.key ∧ t'.session.phase = .stopped := by
  obtain ⟨t', ht', hk, hfate⟩ := h.fate hs ht
  refine ⟨t', ht', hk, ?_⟩
  cases hfate with
  | kept same => rw [same, stopped]
  | opened starting => rw [stopped] at starting; cases starting
  | failed _ stopped' => exact stopped'
  | torn _ stopped' => exact stopped'

theorem Acts.stopped (h : Acts d deeds d') (hs : d.Sound) (ht : d.tails[n]? = some t)
    (stopped : t.session.phase = .stopped) :
    ∃ t', d'.tails[n]? = some t' ∧ t'.key = t.key ∧ t'.session.phase = .stopped := by
  induction h generalizing t with
  | nil => exact ⟨t, ht, rfl, stopped⟩
  | cons first _ ih =>
    obtain ⟨u, hu, huk, hup⟩ := first.stopped hs ht stopped
    obtain ⟨t', ht', hk, hp⟩ := ih (first.sound hs) hu hup
    exact ⟨t', ht', hk.trans huk, hp⟩

theorem Sound.move_stopped (hs : d.Sound) (m : Move) (ht : d.tails[n]? = some t)
    (stopped : t.session.phase = .stopped) :
    ∃ t', (d.move m).tails[n]? = some t' ∧ t'.key = t.key ∧ t'.session.phase = .stopped := by
  obtain ⟨deeds, ha⟩ := (hs.move_comes m).acts
  exact ha.stopped hs ht stopped

theorem Sound.moves_stopped (hs : d.Sound) (ms : List Move) (ht : d.tails[n]? = some t)
    (stopped : t.session.phase = .stopped) :
    ∃ t', (d.moves ms).tails[n]? = some t' ∧ t'.key = t.key ∧ t'.session.phase = .stopped := by
  induction ms generalizing d t with
  | nil => exact ⟨t, ht, rfl, stopped⟩
  | cons m ms ih =>
    obtain ⟨u, hu, huk, hup⟩ := hs.move_stopped m ht stopped
    obtain ⟨t', ht', hk, hp⟩ := ih (hs.move m) hu hup
    exact ⟨t', ht', hk.trans huk, hp⟩

end LogTail.Desk
