import LogTail.Proofs.Stops

/-!
# What a stopped session leaves behind

A session that was stopped may leave a feed, a ticker and a request that waits for the
service. Whenever one of these moves, it touches neither a document nor the roster nor
another session, and all that it may ever record is that the start has failed.
-/
namespace LogTail

/-- The session on whose behalf a request waits. -/
def Call.waitsFor? (c : Call) : Option Nat :=
  match c.stage with
  | .opening n _ => some n
  | .answered _ => none

theorem waitsFor?_iff {calls : List Call} {c n : Nat} :
    (calls[c]?.bind Call.waitsFor?) = some n ↔ ∃ key, Opens calls c n key := by
  unfold Opens
  cases hc : calls[c]? with
  | none => simp
  | some call =>
    obtain ⟨key, stage⟩ := call
    cases stage <;> simp [Call.waitsFor?]

namespace Desk

variable {d d' : Desk} {deed : Deed} {deeds : List Deed} {n : Nat} {t : Tail} {key : Key}

/-- A move of something that a session set going: its feed, its ticker, or its request. -/
def worksFor (n : Nat) (m : Move) (d : Desk) : Bool :=
  match m with
  | .pull k | .arm k | .tick k => k == n
  | .answer c => d.calls[c]?.bind Call.waitsFor? == some n
  | _ => false

/-- What the work of a session records over a run. -/
def recordedFor (n : Nat) : List Move → Desk → List (Key × Notice)
  | [], _ => []
  | m :: ms, d => (if d.worksFor n m then d.told m else []) ++ recordedFor n ms (d.move m)

/-- Only one session and what it alone uses may have changed. -/
structure Apart (n : Nat) (d d' : Desk) : Prop where
  workspace : d'.workspace = d.workspace
  roster : d'.roster = d.roster
  others : ∀ j, j ≠ n → d'.tails[j]? = d.tails[j]?
  items : ∀ c : Nat, (d'.channels[c]?).map Channel.items = (d.channels[c]?).map Channel.items

theorem apart_put (t : Tail) (number : Option Nat) (calls : List Call)
    (log : List (Key × Notice)) (n : Nat) (d : Desk) : Apart n d { d with
      tails := d.tails.set n t, channels := Channel.release number d.channels, calls, log } :=
  ⟨rfl, rfl, fun _ hj => List.getElem?_set_ne (Ne.symm hj), Channel.items_release number d.channels⟩

theorem told_nothing {m : Move} (h : (d.move m).log = d.log) : d.told m = [] := by
  simp [told, news, h]

/-- The feed of a stopped session ends, or has ended. -/
theorem Sound.pull_stopped (hs : d.Sound) (ht : d.tails[n]? = some t)
    (stopped : t.session.phase = .stopped) : ∃ t' number, d.pull n =
      { d with tails := d.tails.set n t', channels := Channel.release number d.channels } := by
  have fired : t.session.cancelled = true :=
    (hs.tails t (List.mem_of_getElem? ht)).fired.mpr stopped
  have hpulls := pull_pulls n d
  generalize d.pull n = d' at hpulls
  cases hpulls with
  | idle =>
    refine ⟨t, none, ?_⟩
    rw [set_same ht]
    rfl
  | cancelled hu hf going fired' =>
    rw [ht] at hu
    cases hu
    exact ⟨_, _, hs.endFeed_stopped ht stopped _ .cancelled d.channels⟩
  | waits hu _ _ unfired | closed hu _ _ unfired | item hu _ _ unfired =>
    rw [ht] at hu
    cases hu
    rw [fired] at unfired
    cases unfired

/-- The ticker of a stopped session ends, or has ended. -/
theorem arm_stopped (ht : d.tails[n]? = some t) :
    ∃ t', d.arm n = { d with tails := d.tails.set n t' } := by
  by_cases fresh : t.ticker = .fresh
  · exact ⟨_, by simp only [arm, ht, if_pos fresh]; rfl⟩
  · exact ⟨t, by simp only [arm, ht, if_neg fresh, set_same ht]⟩

theorem Sound.tick_stopped (hs : d.Sound) (ht : d.tails[n]? = some t)
    (stopped : t.session.phase = .stopped) : ∃ t', d.tick n = { d with tails := d.tails.set n t' } := by
  have fired : t.session.cancelled = true :=
    (hs.tails t (List.mem_of_getElem? ht)).fired.mpr stopped
  cases hticker : t.ticker with
  | absent | fresh | ended => exact ⟨t, by simp [tick, ht, hticker, set_same ht]⟩
  | due time =>
    refine ⟨{ t with ticker := .ended }, ?_⟩
    simp [tick, ht, hticker, fired, put]

/-- The request of a session that was stopped meanwhile fails. -/
theorem Sound.answer_stopped {c : Nat} (hs : d.Sound) (hc : Opens d.calls c n key)
    (ht : d.tails[n]? = some t) (stopped : t.session.phase = .stopped) :
    ∃ (t' : Tail) (number : Option Nat) (fault : Fault), d.finishStart c = { d with
      tails := d.tails.set n t'
      channels := Channel.release number d.channels
      calls := answered d.calls c (.error fault)
      log := (t.key, .startFailed fault.message) :: d.log } := by
  obtain ⟨rfl, -⟩ := hs.awaited.tail hc ht
  obtain ⟨due, hcall⟩ := hc
  obtain ⟨fault, hfin⟩ := Session.finishStartOn_stopped stopped d.now d.channels
  have unheld := hs.unheld ht stopped t.key
  refine ⟨{ t with session := { t.session with transport := t.session.transport.finishOpen.2 } },
    t.session.transport.channel?, fault, ?_⟩
  simp only [finishStart, hcall, ht, hfin, abandon, unlist, put, Roster.removeInstance, unheld, if_false]
  rfl

theorem worksFor_iff {m : Move} : d.worksFor n m = true ↔
    m = .pull n ∨ m = .arm n ∨ m = .tick n ∨ ∃ c key, m = .answer c ∧ Opens d.calls c n key := by
  cases m with
  | answer c => simp [worksFor, waitsFor?_iff]
  | _ => simp [worksFor]

/-- What the feed and the ticker of a stopped session do is nobody else's concern, and is not
recorded. -/
theorem Sound.stale_work (hs : d.Sound) {m : Move} (ht : d.tails[n]? = some t)
    (stopped : t.session.phase = .stopped) (hm : m = .pull n ∨ m = .arm n ∨ m = .tick n) :
    ∃ t' number, d.move m = { d with
      tails := d.tails.set n t', channels := Channel.release number d.channels } := by
  rcases hm with rfl | rfl | rfl
  · exact hs.pull_stopped ht stopped
  · obtain ⟨t', harm⟩ := arm_stopped ht
    exact ⟨t', none, harm⟩
  · obtain ⟨t', htick⟩ := hs.tick_stopped ht stopped
    exact ⟨t', none, htick⟩

/-- One move of what a stopped session left behind. -/
theorem Sound.stale_move (hs : d.Sound) {m : Move} (ht : d.tails[n]? = some t)
    (stopped : t.session.phase = .stopped) (works : d.worksFor n m = true) :
    Apart n d (d.move m) ∧ (d.told m = [] ∨ ∃ c reason, m = .answer c ∧ Opens d.calls c n t.key ∧
      d.told m = [(t.key, .startFailed reason)]) := by
  have hwork (hm : m = .pull n ∨ m = .arm n ∨ m = .tick n) :
      Apart n d (d.move m) ∧ d.told m = [] := by
    obtain ⟨t', number, hmove⟩ := hs.stale_work ht stopped hm
    refine ⟨?_, told_nothing (by rw [hmove])⟩
    rw [hmove]
    exact apart_put t' number d.calls d.log n d
  rcases worksFor_iff.mp works with hm | hm | hm | ⟨c, key, rfl, hc⟩
  · obtain ⟨hapart, htold⟩ := hwork (.inl hm)
    exact ⟨hapart, .inl htold⟩
  · obtain ⟨hapart, htold⟩ := hwork (.inr (.inl hm))
    exact ⟨hapart, .inl htold⟩
  · obtain ⟨hapart, htold⟩ := hwork (.inr (.inr hm))
    exact ⟨hapart, .inl htold⟩
  · obtain ⟨rfl, -⟩ := hs.awaited.tail hc ht
    obtain ⟨t', number, fault, hmove⟩ := hs.answer_stopped hc ht stopped
    have hlog : (d.move (.answer c)).log = [(t.key, .startFailed fault.message)].reverse ++ d.log := by
      rw [Desk.move, hmove]
      rfl
    refine ⟨?_, .inr ⟨c, fault.message, rfl, hc, news_of_log hlog⟩⟩
    rw [Desk.move, hmove]
    exact apart_put t' number _ _ n d

/-- No request comes to wait for a session that is there already. -/
theorem Act.opens_old {c : Nat} (h : Act d deed d') (hn : n < d.tails.length)
    (ho : Opens d'.calls c n key) : Opens d.calls c n key := by
  cases h with
  | beside h => exact h.calls ▸ ho
  | tended | torn | left | cleared | wrote | ticked => exact ho
  | refused | refocused =>
    rcases opens_append.mp ho with ho | ⟨-, due, he⟩
    · exact ho
    · cases he
  | entered =>
    rcases opens_append.mp ho with ho | ⟨-, due, he⟩
    · exact ho
    · cases he
      omega
  | opened | failed | overtaken => exact (opens_answered.mp ho).2

theorem Acts.opens_old {c : Nat} (h : Acts d deeds d') (hs : d.Sound) (ht : d.tails[n]? = some t)
    (ho : Opens d'.calls c n key) : Opens d.calls c n key := by
  induction h generalizing t with
  | nil => exact ho
  | cons first _ ih =>
    obtain ⟨t', ht', -⟩ := first.fate hs ht
    exact first.opens_old (List.getElem?_eq_some_iff.mp ht).1 (ih (first.sound hs) ht' ho)

/-- What a stopped session left behind records one failed start at most, and nothing if no
request waits for the session. -/
theorem Sound.recordedFor_stopped (hs : d.Sound) (ht : d.tails[n]? = some t)
    (stopped : t.session.phase = .stopped) (ms : List Move) :
    (∀ x ∈ d.recordedFor n ms, ∃ reason, x = (t.key, .startFailed reason)) ∧
      (d.recordedFor n ms).length ≤ 1 ∧
      ((∀ c key, ¬ Opens d.calls c n key) → d.recordedFor n ms = []) := by
  induction ms generalizing d t with
  | nil => simp [recordedFor]
  | cons m ms ih =>
    have hs' := hs.move m
    obtain ⟨deeds, ha⟩ := (hs.move_comes m).acts
    obtain ⟨t', ht', hk, stopped'⟩ := hs.move_stopped m ht stopped
    obtain ⟨hfailed, hlen, hnone⟩ := ih hs' ht' stopped'
    rw [hk] at hfailed
    have hwaits (h : ∀ c key, ¬ Opens d.calls c n key) (c : Nat) (key : Key) :
        ¬ Opens (d.move m).calls c n key := fun ho => h c key (ha.opens_old hs ht ho)
    simp only [recordedFor]
    by_cases works : d.worksFor n m = true
    · rw [if_pos works]
      obtain ⟨-, hnothing | ⟨c, reason, rfl, hc, htold⟩⟩ := hs.stale_move ht stopped works
      · rw [hnothing]
        exact ⟨hfailed, hlen, fun h => hnone (hwaits h)⟩
      · -- the one request has its answer, and no other waits
        have hrest : (d.move (.answer c)).recordedFor n ms = [] := by
          refine hnone fun c' key ho => ?_
          obtain ⟨t₂, number, fault, hmove⟩ := hs.answer_stopped hc ht stopped
          rw [Desk.move, hmove] at ho
          obtain ⟨hne, ho⟩ := opens_answered.mp ho
          exact hne (hs.awaited.single _ _ _ _ _ ho hc)
        rw [htold, hrest]
        exact ⟨by simp, by simp, fun h => absurd hc (h c t.key)⟩
    · rw [if_neg works]
      exact ⟨hfailed, hlen, fun h => hnone (hwaits h)⟩

/-- Once a session is stopped, nothing that it left behind ever touches a document, a view,
the roster, another session or an item on its way to one, at any moment of any run to come;
and over the whole of the run it records one failed start at most, and only if a request
waited for it when it was stopped. -/
theorem stopped_sessions_harmless (policy : Policy) (connector : Connector)
    (workspace : Workspace) (alone : connector.rivals = []) (ms ms' : List Move) (n : Nat)
    (key : Key) :
    let d := (make policy connector workspace).moves ms
    d.phase? n = some .stopped → d.key? n = some key →
      (∀ m, (d.moves ms').worksFor n m = true → Apart n (d.moves ms') ((d.moves ms').move m)) ∧
      (∀ x ∈ d.recordedFor n ms', ∃ reason, x = (key, .startFailed reason)) ∧
      (d.recordedFor n ms').length ≤ 1 ∧
      ((∀ c key, ¬ Opens d.calls c n key) → d.recordedFor n ms' = []) := by
  intro d hp hk
  have hs : d.Sound := (sound_make policy connector workspace alone).moves ms
  obtain ⟨t, ht, stopped⟩ := Option.map_eq_some_iff.mp hp
  obtain ⟨u, hu, rfl⟩ := key?_iff.mp hk
  rw [ht] at hu
  cases hu
  refine ⟨fun m works => ?_, hs.recordedFor_stopped ht stopped ms'⟩
  obtain ⟨t', ht', -, stopped'⟩ := hs.moves_stopped ms' ht stopped
  exact ((hs.moves ms').stale_move ht' stopped' works).1

/-- The request of a session that was stopped fails after the next session of its key has
begun to run, and leaves it alone. -/
theorem stopped_session_harmless_to_next :
    let source : Source := { region := "eu-west-1", group := "app" }
    let ms : List Move := [.start source, .stop source.key]
    let ms' : List Move := [.start source, .answer 1]
    let d := (make ⟨100, 1000, false⟩ {} {}).moves ms
    d.phase? 0 = some .stopped ∧ d.key? 0 = some source.key ∧
      (d.moves ms').worksFor 0 (.answer 0) = true ∧
      Apart 0 (d.moves ms') ((d.moves ms').move (.answer 0)) ∧
      (d.recordedFor 0 (ms' ++ [.answer 0])).length = 1 := by
  intro source ms ms' d
  have hp : d.phase? 0 = some .stopped := by decide
  have hk : d.key? 0 = some source.key := by decide
  have works : (d.moves ms').worksFor 0 (.answer 0) = true := by decide
  obtain ⟨hapart, -⟩ := stopped_sessions_harmless ⟨100, 1000, false⟩ {} {} rfl ms ms' 0 source.key hp hk
  exact ⟨hp, hk, works, hapart (.answer 0) works, by decide⟩

end Desk

end LogTail
