import LogTail.Proofs.Pulls
import LogTail.Proofs.Starting

/-!
# Moves as acts

Each move of a sound desk is one act, or a chain of acts that wind sessions down.
-/
namespace LogTail

namespace Desk

variable {d : Desk} {n : Nat} {t : Tail} {key : Key} {reason : StopReason}

/-- What a move comes to. -/
inductive Comes (d : Desk) : Move → Desk → Prop where
  | winds {m : Move} {d' : Desk} (h : Winds d d') (other : m.isRequest = false)
      (unwritten : d.applied? m = none) : Comes d m d'
  | told {m : Move} {d' : Desk} {key : Key} {notice : Notice} (h : Act d (.told key notice) d')
      (other : m.isRequest = false) (unwritten : d.applied? m = none) : Comes d m d'
  | replied {source : Source} {d' : Desk} {notice : Notice}
      (h : Act d (.replied source.key notice) d') : Comes d (.start source) d'
  | entered {source : Source} {d' : Desk} {n : Nat} (h : Act d (.entered n source.key) d') :
      Comes d (.start source) d'
  /-- Nobody waits for the answer. -/
  | unasked (c : Nat) : Comes d (.answer c) d
  | answered {c : Nat} {d' : Desk} {key : Key} {notice : Notice}
      (h : Act d (.answered c key notice) d') : Comes d (.answer c) d'
  | wrote {n : Nat} {d' : Desk} {key : Key} {sampled : Bool} {records : List Record}
      (h : Act d (.wrote n key sampled records) d')
      (written : d.applied? (.pull n) = some (n, sampled, records)) : Comes d (.pull n) d'

theorem Sound.beginStart_comes (hs : d.Sound) (source : Source) :
    Comes d (.start source) (d.beginStart source) := by
  have hbegun := beginStart_begun hs.room source
  generalize d.beginStart source = d' at hbegun
  cases hbegun with
  | refused why =>
    rcases why with ⟨-, rfl⟩ | ⟨-, connected⟩
    · exact .replied (.refused _ _ rfl rfl (.inl rfl))
    · obtain ⟨hscripts, failing⟩ := Connector.connect_error connected
      have hrivals := d.connector.connect_rivals
      rw [connected] at hrivals
      exact .replied (.refused _ _ hrivals hscripts (.inr failing))
  | refocused held => exact .replied (.refocused held)
  | outrun taken =>
    rw [hs.rivals] at taken
    cases taken
  | entered valid free connected => exact .entered (.entered valid free connected)

/-- A session for which a request waits has called, and may have been stopped since. -/
theorem Sound.called {c : Nat} (hs : d.Sound) (hc : Opens d.calls c n key) :
    ∃ t, d.tails[n]? = some t ∧ t.key = key ∧ t.feed = none ∧
      (t.session.phase = .starting ∨ t.session.phase = .stopped) := by
  obtain ⟨t, ht, hkey, unfed, unrun⟩ := hs.awaited.unrun c n key hc
  refine ⟨t, ht, hkey, unfed, (hs.live_or_stopped ht).imp_left fun live => ?_⟩
  exact ((Phase.isLive_iff _).mp live).resolve_right unrun

theorem Sound.finishStart_comes (hs : d.Sound) (c : Nat) :
    Comes d (.answer c) (d.finishStart c) := by
  by_cases asked : ∃ n key, Opens d.calls c n key
  · obtain ⟨n, key, hc⟩ := asked
    obtain ⟨t, ht, rfl, -, called⟩ := hs.called hc
    have hfinished := finishStart_finished hc ht called
    generalize d.finishStart c = d' at hfinished
    cases hfinished with
    | opened starting answer document => exact .answered (.opened hc ht starting answer document)
    | failed fault number requests unasked =>
      rcases called with starting | stopped
      · have held := hs.held ht (by rw [starting]; rfl)
        simp only [Roster.removeInstance, held, if_true]
        exact .answered (.failed fault hc ht starting rfl ⟨_, rfl⟩)
      · obtain rfl := unasked stopped
        have unheld := hs.unheld ht stopped t.key
        have hstop := Session.stop_stopped (s := { t.session with
          transport := t.session.transport.finishOpen.2 }) d.now stopped
        simp only [Roster.removeInstance, unheld, if_false, Tail.forsake, hstop]
        exact .answered (.overtaken fault hc ht stopped rfl)
  · rw [finishStart_unasked fun n key hc => asked ⟨n, key, hc⟩]
    exact .unasked c

/-- What taking an item comes to while the session runs: an update is written unless the feed
ends with it. -/
inductive Takes (n : Nat) (i : Item) (d : Desk) : Desk → Prop where
  | wrote {d' : Desk} {key : Key} {sampled : Bool} {records : List Record}
      (h : Act d (.wrote n key sampled records) d') (item : i = .frame (.update sampled records))
      (going : d'.report? n = none) : Takes n i d d'
  | winds {d' : Desk} (h : Winds d d') (unwritten : (∀ sampled records,
      i ≠ .frame (.update sampled records)) ∨ (d'.report? n).isSome = true) : Takes n i d d'

theorem Sound.takeItem_takes (hs : d.Sound) {f : Feed} (ht : d.tails[n]? = some t)
    (hf : t.feed = some f) (going : f.report = none) (unfired : t.session.cancelled = false)
    (stream : Stream) (channels : List Channel) (i : Item) :
    Takes n i d (({ d with channels } : Desk).takeItem n t { f with stream } i) := by
  have hn : n < d.tails.length := (List.getElem?_eq_some_iff.mp ht).1
  have fed : t.feed.isSome := by simp [hf]
  have running := hs.running_of_fed ht fed unfired
  obtain ⟨doc, document⟩ := Option.isSome_iff_exists.mp
    (hs.document t (List.mem_of_getElem? ht) fed)
  have htaken := Pump.take_taken t.session.budget i { document := doc, tally := f.tally }
  simp only [takeItem, document, Option.getD_some, unfired]
  generalize Pump.take _ _ _ _ = taken at htaken
  -- what only moves views is a step of its own
  have hbeside {doc' : Document} (h : doc'.buffer.lines = doc.buffer.lines) :
      d.Beside { d with workspace := d.workspace.onDocument t.key fun _ => doc' } := by
    refine ⟨Nat.le_refl _, rfl, rfl, rfl, rfl, rfl, rfl, rfl, fun key => ?_⟩
    refine Workspace.lines?_onDocument_of_lines _ fun doc'' h' => ?_
    rw [document] at h'
    cases h'
    exact h
  cases htaken with
  | applied tally h =>
    refine .wrote (.wrote ht running hf document h) rfl ?_
    simp [report?, put, List.getElem?_set_self hn, going]
  | passed tally other =>
    have hviews := hbeside (Eq.refl doc.buffer.lines)
    have htended : Tended t { t with feed := some { f with stream, tally } } :=
      ⟨rfl, rfl, by simp [hf], .rfl⟩
    exact .winds ((Winds.beside hviews).trans (.one (.tended ht htended) trivial)) (.inl other)
  | ended exit tally h =>
    have hviews := Winds.beside (hbeside h)
    have hend := (hviews.sound hs).endFeed_winds ht fed { f with stream, tally } exit channels
    refine .winds (hviews.trans hend) (.inr ?_)
    dsimp only
    rw [report?_endFeed]
    · rfl
    · exact hn

theorem Sound.pull_comes (hs : d.Sound) (n : Nat) : Comes d (.pull n) (d.pull n) := by
  have hpulls := pull_pulls n d
  generalize hpull : d.pull n = d' at hpulls
  cases hpulls with
  | idle unpulled => exact .winds (.refl d) rfl (applied?_untaken (taken?_unpulled unpulled))
  | @cancelled t f ht hf going fired unpulled =>
    have fed : t.feed.isSome := by simp [hf]
    exact .winds (hs.endFeed_winds ht fed f .cancelled d.channels) rfl
      (applied?_untaken (taken?_unpulled unpulled))
  | waits ht hf going unfired poll untaken =>
    exact .winds (.one (.tended ht ⟨rfl, rfl, by simp [hf], .rfl⟩) trivial) rfl
      (applied?_untaken untaken)
  | @closed t f stream channels ht hf going unfired poll untaken =>
    have fed : t.feed.isSome := by simp [hf]
    exact .winds (hs.endFeed_winds ht fed { f with stream } .closed channels) rfl
      (applied?_untaken untaken)
  | @item t f stream channels i ht hf going unfired poll taken =>
    have htakes := hs.takeItem_takes ht hf going unfired stream channels i
    rw [← hpull] at htakes ⊢
    cases htakes with
    | wrote h item going' =>
      subst item
      exact .wrote h (applied?_update taken going')
    | winds h unwritten =>
      rcases unwritten with other | done
      · exact .winds h rfl (applied?_other taken other)
      · exact .winds h rfl (applied?_ended taken done)

/-- What putting a ticker to work comes to. -/
inductive Arms (n : Nat) (d : Desk) : Desk → Prop where
  | idle : Arms n d d
  | armed {t : Tail} (ht : d.tails[n]? = some t) (fresh : t.ticker = .fresh) :
      Arms n d (d.put n { t with ticker := if t.session.cancelled then .ended else .due d.now })

theorem arm_arms (n : Nat) (d : Desk) : Arms n d (d.arm n) := by
  unfold arm
  cases ht : d.tails[n]? with
  | none => exact .idle
  | some t =>
    simp only
    split
    · exact .armed ht ‹_›
    · exact .idle

/-- What a tick comes to. -/
inductive Ticks (n : Nat) (d : Desk) : Desk → Prop where
  | idle : Ticks n d d
  | ended {t : Tail} {time : Nat} (ht : d.tails[n]? = some t) (ticking : t.ticker = .due time)
      (fired : t.session.cancelled = true) : Ticks n d (d.put n { t with ticker := .ended })
  | told {t : Tail} {time : Nat} (ht : d.tails[n]? = some t) (ticking : t.ticker = .due time)
      (unfired : t.session.cancelled = false) (due : time ≤ d.now) :
      Ticks n d ((d.put n { t with ticker := .due (nextTick d.policy.refresh time d.now) }).tell
        t.key (.elapsed (t.session.duration d.now)))

theorem tick_ticks (n : Nat) (d : Desk) : Ticks n d (d.tick n) := by
  unfold tick
  cases ht : d.tails[n]? with
  | none => exact .idle
  | some t =>
    cases ticking : t.ticker with
    | absent | fresh | ended =>
      simp only [ticking]
      exact .idle
    | due time =>
      simp only [ticking]
      split
      · exact .ended ht ticking ‹_›
      · rename_i unfired
        split
        · exact .told ht ticking (by simpa using unfired) ‹_›
        · exact .idle

/-- What a request to clear a document comes to. -/
inductive Clears (key : Key) (d : Desk) : Desk → Prop where
  | idle : Clears key d d
  | cleared (held : KeyMap.contains key d.roster = true) :
      Clears key d ({ d with workspace := d.workspace.clearDocument key }.tell key .cleared)

theorem clear_clears (key : Key) (d : Desk) : Clears key d (d.clear key).2 := by
  unfold clear
  split
  · split
    · exact .cleared ‹_›
    · exact .idle
  · exact .idle

theorem arm_winds (n : Nat) (d : Desk) : Winds d (d.arm n) := by
  have harms := arm_arms n d
  generalize d.arm n = d' at harms
  cases harms with
  | idle => exact .refl d
  | @armed t ht fresh =>
    have htended : Tended t
        { t with ticker := if t.session.cancelled then .ended else .due d.now } := by
      refine ⟨rfl, rfl, rfl, ?_⟩
      simp only [fresh, reduceCtorEq, iff_false]
      split <;> simp
    exact .one (.tended ht htended) trivial

theorem Sound.tick_comes (hs : d.Sound) (n : Nat) : Comes d (.tick n) (d.tick n) := by
  have hticks := tick_ticks n d
  generalize d.tick n = d' at hticks
  cases hticks with
  | idle => exact .winds (.refl d) rfl rfl
  | ended ht ticking =>
    exact .winds (.one (.tended ht ⟨rfl, rfl, rfl, by simp [ticking]⟩) trivial) rfl rfl
  | @told t time ht ticking unfired =>
    have there : t.ticker ≠ .absent := by simp [ticking]
    have hsound := hs.tails t (List.mem_of_getElem? ht)
    have fed : t.feed.isSome := Option.isSome_iff_ne_none.mpr (mt hsound.ticking.mpr there)
    exact .told (.ticked _ ht (hs.running_of_fed ht fed unfired) there) rfl rfl

theorem clear_comes (key : Key) (d : Desk) : Comes d (.clear key) (d.clear key).2 := by
  have hclears := clear_clears key d
  generalize (d.clear key).2 = d' at hclears
  cases hclears with
  | idle => exact .winds (.refl d) rfl rfl
  | cleared held => exact .told (.cleared held) rfl rfl

/-- Work that touches neither a session nor a text. -/
theorem Beside.onWorkspace {f : Workspace → Workspace}
    (h : ∀ w key, (f w).lines? key = w.lines? key) (d : Desk) : d.Beside (d.onWorkspace f) :=
  ⟨Nat.le_refl _, rfl, rfl, rfl, rfl, rfl, rfl, rfl, h d.workspace⟩

/-- Whatever move a sound desk makes, it comes to acts. -/
theorem Sound.move_comes (hs : d.Sound) (m : Move) : Comes d m (d.move m) := by
  cases m with
  | start source => exact hs.beginStart_comes source
  | answer c => exact hs.finishStart_comes c
  | pull n => exact hs.pull_comes n
  | tick n => exact hs.tick_comes n
  | clear key => exact clear_comes key d
  | stop key => exact .winds (winds_teardowns.stopKey key .explicit d hs) rfl rfl
  | stopAll => exact .winds (winds_teardowns.stopKeys _ d hs) rfl rfl
  | stopUnviewed => exact .winds (winds_teardowns.stopUnviewedAmong _ d hs) rfl rfl
  | arm n => exact .winds (arm_winds n d) rfl rfl
  | wake n =>
    have watched (watchers : List Watcher) (d : Desk) : d.Sound → Winds d { d with watchers } :=
      fun _ => .beside ⟨Nat.le_refl _, rfl, rfl, rfl, rfl, rfl, rfl, rfl, fun _ => rfl⟩
    exact .winds (winds_teardowns.wake watched n d hs) rfl rfl
  | drop =>
    have closed : Winds d { d with closed := true, dropped := true } :=
      .beside ⟨Nat.le_refl _, rfl, rfl, rfl, rfl, rfl, rfl, rfl, fun _ => rfl⟩
    exact .winds (winds_teardowns.drop d (fun _ => closed) hs) rfl rfl
  | await | watch | provide | cut | send | closeSender =>
    exact .winds (.beside ⟨Nat.le_refl _, rfl, rfl, rfl, rfl, rfl, rfl, rfl, fun _ => rfl⟩) rfl rfl
  | pass ms =>
    exact .winds (.beside ⟨Nat.le_add_right _ ms, rfl, rfl, rfl, rfl, rfl, rfl, rfl, fun _ => rfl⟩) rfl rfl
  | openView key =>
    exact .winds (.beside (.onWorkspace (fun _ _ => Workspace.lines?_openView) d)) rfl rfl
  | closeView key view =>
    exact .winds (.beside (.onWorkspace (fun _ _ => Workspace.lines?_closeView view) d)) rfl rfl
  | scroll key view top =>
    exact .winds (.beside (.onWorkspace (fun _ _ => Workspace.lines?_scrollTo view top) d)) rfl rfl

theorem Comes.acts {m : Move} {d' : Desk} (h : Comes d m d') : ∃ deeds, Acts d deeds d' := by
  cases h with
  | winds h =>
    obtain ⟨deeds, ha, -⟩ := h
    exact ⟨deeds, ha⟩
  | unasked => exact ⟨[], .nil d⟩
  | told h | replied h | entered h | answered h | wrote h => exact ⟨_, .one h⟩

/-- A request is replied to at once, or its session has taken the key. -/
theorem Sound.start_acts (hs : d.Sound) (source : Source) :
    (∃ key notice, Act d (.replied key notice) (d.move (.start source))) ∨
      ∃ n key, Act d (.entered n key) (d.move (.start source)) := by
  have hcomes := hs.move_comes (.start source)
  generalize d.move (.start source) = d' at hcomes
  cases hcomes with
  | winds _ request | told _ request => cases request
  | replied h => exact .inl ⟨_, _, h⟩
  | entered h => exact .inr ⟨_, _, h⟩

/-- Nobody waits for the answer of the service, or one who does is answered. -/
theorem Sound.answer_acts (hs : d.Sound) (c : Nat) :
    d.move (.answer c) = d ∨ ∃ key notice, Act d (.answered c key notice) (d.move (.answer c)) := by
  have hcomes := hs.move_comes (.answer c)
  generalize d.move (.answer c) = d' at hcomes
  cases hcomes with
  | winds _ request | told _ request => cases request
  | unasked => exact .inl rfl
  | answered h => exact .inr ⟨_, _, h⟩

theorem Sound.move (hs : d.Sound) (m : Move) : (d.move m).Sound := by
  obtain ⟨deeds, ha⟩ := (hs.move_comes m).acts
  exact ha.sound hs

theorem Sound.moves (hs : d.Sound) (ms : List Move) : (d.moves ms).Sound := by
  induction ms generalizing d with
  | nil => exact hs
  | cons m ms ih => exact ih (hs.move m)

theorem Sound.moves_acts (hs : d.Sound) (ms : List Move) : ∃ deeds, Acts d deeds (d.moves ms) := by
  induction ms generalizing d with
  | nil => exact ⟨[], .nil d⟩
  | cons m ms ih =>
    obtain ⟨deeds, ha⟩ := (hs.move_comes m).acts
    obtain ⟨deeds', ha'⟩ := ih (hs.move m)
    exact ⟨deeds ++ deeds', ha.append ha'⟩

end Desk

end LogTail
