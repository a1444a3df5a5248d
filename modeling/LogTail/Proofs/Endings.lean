import LogTail.Proofs.Isolation
import LogTail.Proofs.Midway
import LogTail.Proofs.Telling

/-!
# How sessions and their feeds end

A session is stopped by a move, of which the reason is recorded once, by its feed, or when
its start fails. A feed that goes on while its session has not been stopped may end of itself
and then stops it; a feed whose session has been stopped ends at its next look at the token,
unless it was in the middle of a pull.
-/
namespace LogTail

def Notice.reason? : Notice → Option StopReason
  | stopped reason => some reason
  | _ => none

/-- A pump whose token has not fired is not cancelled. -/
theorem Pump.take_uncancelled (budget : Nat) (i : Item) (p : Pump) :
    (p.take budget false (some i)).1 ≠ some .cancelled := by
  cases i with
  | fault => simp [take]
  | frame f =>
    cases f with
    | accepted | unknown => simp [take, handle]
    | update sampled records =>
      simp only [take, handle, write, Bool.false_eq_true, if_false]
      split
      · simp
      · rename_i dropped
        split at dropped
        · cases dropped
        · split at dropped <;> cases dropped
      · simp

namespace Desk

open Relation (ReflTransGen)

variable {d d' d'' : Desk} {k n : Nat} {key : Key} {t : Tail} {m : Move} {reason : StopReason}

/-! ### Reasons on record -/

/-- The reasons on record for stops about a key, oldest first. -/
def reasonsOn (key : Key) (d : Desk) : List StopReason := (d.events key).filterMap Notice.reason?

theorem reasonsOn_append {news : List (Key × Notice)} (log : d'.log = news ++ d.log) (key : Key) :
    d'.reasonsOn key =
      d.reasonsOn key ++ (about key (d'.news d.log.length)).filterMap Notice.reason? := by
  have hlog : d'.log = news.reverse.reverse ++ d.log := by rw [List.reverse_reverse, log]
  rw [reasonsOn, events_append hlog key, List.filterMap_append, news_of_log hlog]
  rfl

/-- Updates give no reasons. -/
theorem reasonsOn_updates {news : List (Key × Notice)} (log : d'.log = news ++ d.log)
    (updates : ∀ e ∈ news, ∃ k sampled count, e = (k, .update sampled count)) (key : Key) :
    d'.reasonsOn key = d.reasonsOn key := by
  have hlog : d'.log = news.reverse.reverse ++ d.log := by rw [List.reverse_reverse, log]
  have hnone : (about key news.reverse).filterMap Notice.reason? = [] := by
    rw [List.filterMap_eq_nil_iff]
    intro x hx
    obtain ⟨_, _, _, he⟩ := updates (key, x) (List.mem_reverse.mp (mem_about.mp hx))
    cases he
    rfl
  rw [reasonsOn, events_append hlog key, List.filterMap_append, hnone, List.append_nil]
  rfl

theorem reasonsOn_stop (log : d'.log = (key, .stopped reason) :: d.log) :
    d'.reasonsOn key = d.reasonsOn key ++ [reason] := by
  have hlog : d'.log = [(key, Notice.stopped reason)].reverse ++ d.log := log
  rw [reasonsOn, events_append hlog key, List.filterMap_append]
  simp [about, reasonsOn, Notice.reason?]

/-- What stops of keys come to for one session of a key: they leave the key alone, or they stop
the session and put that on record once, or they stop another that held the key. -/
inductive Hits (n : Nat) (key : Key) (reason : StopReason) (d d' : Desk) : Prop where
  | spared (roster : KeyMap.get? key d'.roster = KeyMap.get? key d.roster)
      (phase : d'.phase? n = d.phase? n) (record : d'.reasonsOn key = d.reasonsOn key)
  | hit (held : KeyMap.get? key d.roster ≠ none) (off : KeyMap.get? key d'.roster = none)
      (stopped : d'.phase? n = some .stopped)
      (record : d'.reasonsOn key = d.reasonsOn key ++ [reason])
  | passed (held : KeyMap.get? key d.roster ≠ none) (off : KeyMap.get? key d'.roster = none)
      (phase : d'.phase? n = d.phase? n)

/-- A key is taken off the roster once, and nothing is stopped for it after that. -/
theorem Hits.trans (h : Hits n key reason d d') (h' : Hits n key reason d' d'') :
    Hits n key reason d d'' := by
  cases h with
  | spared roster phase record =>
    cases h' with
    | spared roster' phase' record' =>
      exact .spared (roster'.trans roster) (phase'.trans phase) (record'.trans record)
    | hit held off stopped record' => exact .hit (roster ▸ held) off stopped (record ▸ record')
    | passed held off phase' => exact .passed (roster ▸ held) off (phase'.trans phase)
  | hit held off stopped record =>
    cases h' with
    | spared roster' phase' record' =>
      exact .hit held (roster'.trans off) (phase'.trans stopped) (record'.trans record)
    | hit held' | passed held' => exact absurd off held'
  | passed held off phase =>
    cases h' with
    | spared roster' phase' => exact .passed held (roster'.trans off) (phase'.trans phase)
    | hit held' | passed held' => exact absurd off held'

theorem phase?_same (h : d'.tails[n]? = d.tails[n]?) : d'.phase? n = d.phase? n := by
  rw [phase?, phase?, h]

theorem feed?_same (h : d'.tails[n]? = d.tails[n]?) : d'.feed? n = d.feed? n := by
  rw [feed?, feed?, h]

/-- A change that does not touch a session. -/
theorem phase?_set {feed : Option Feed} {ticker : Ticker} (ht : d.tails[k]? = some t)
    (tails : d'.tails = d.tails.set k { t with feed, ticker }) (n : Nat) :
    d'.phase? n = d.phase? n := by
  by_cases hn : k = n
  · subst hn
    simp [phase?, tails, ht, List.getElem?_set_self (List.getElem?_eq_some_iff.mp ht).1]
  · exact phase?_same (by rw [tails, List.getElem?_set_ne hn])

/-- Tearing down the session that holds its key. -/
theorem teardown_hits (ht : d.tails[n]? = some t) (held : KeyMap.get? t.key d.roster = some n)
    (reason : StopReason) : Hits n t.key reason d (d.teardown n reason).2 := by
  have hn : n < d.tails.length := (List.getElem?_eq_some_iff.mp ht).1
  have hheld : KeyMap.get? t.key d.roster ≠ none := by simp [held]
  have hoff : KeyMap.get? t.key (d.roster.removeInstance t.key n).2 = none := by
    rw [get?_removeInstance, if_pos ⟨rfl, held⟩]
  have htears := teardown_tearsDown n reason d
  generalize (d.teardown n reason).2 = d' at htears
  cases htears with
  | absent missing =>
    rw [ht] at missing
    cases missing
  | again hu stopped =>
    rw [ht] at hu
    cases hu
    have hp : t.session.phase = .stopped := by
      by_contra going
      rw [Session.stop_first d.now going] at stopped
      cases stopped
    exact .passed hheld hoff (by simp [phase?, ht, List.getElem?_set_self hn, hp])
  | first hu =>
    rw [ht] at hu
    cases hu
    exact .hit hheld hoff (by simp [phase?, List.getElem?_set_self hn]) (reasonsOn_stop rfl)

/-- Tearing down another session that holds the key. -/
theorem teardown_passes {m : Nat} {u : Tail} (hu : d.tails[m]? = some u)
    (held : KeyMap.get? u.key d.roster = some m) (other : m ≠ n) (reason : StopReason) :
    Hits n u.key reason d (d.teardown m reason).2 := by
  have hheld : KeyMap.get? u.key d.roster ≠ none := by simp [held]
  have hoff : KeyMap.get? u.key (d.roster.removeInstance u.key m).2 = none := by
    rw [get?_removeInstance, if_pos ⟨rfl, held⟩]
  have hphase := phase?_same (teardown_other other reason d)
  have htears := teardown_tearsDown m reason d
  generalize (d.teardown m reason).2 = d' at htears hphase
  cases htears with
  | absent missing =>
    rw [hu] at missing
    cases missing
  | again hu' | first hu' =>
    rw [hu] at hu'
    cases hu'
    exact .passed hheld hoff hphase

theorem Steady.stopKey_hits (hs : d.Steady) (hk : d.key? n = some key) (k : Key)
    (reason : StopReason) : Hits n key reason d (d.stopKey k reason).2 := by
  obtain ⟨t, ht, rfl⟩ := key?_iff.mp hk
  by_cases other : k ≠ t.key
  · have huntouched := hs.untouched_stopKey other reason
    refine .spared huntouched.roster (phase?_same ?_) (by rw [reasonsOn, huntouched.events]; rfl)
    rw [ht]
    exact (huntouched.tails n t rfl).mpr ht
  obtain rfl : k = t.key := Decidable.not_not.mp other
  unfold stopKey
  cases held : KeyMap.get? t.key d.roster with
  | none => exact .spared rfl rfl rfl
  | some m =>
    obtain ⟨u, hu, same⟩ := hs.listed t.key m held
    by_cases hm : m = n
    · subst hm
      exact teardown_hits ht held reason
    · have hpasses := teardown_passes hu (same ▸ held) hm reason
      rwa [same] at hpasses

/-- Whatever goes on stopping keys hits a session once at most. -/
theorem keyStops_hits (n : Nat) (key : Key) (reason : StopReason) : KeyStops reason fun d d' =>
    d.Steady → d.key? n = some key → d'.Steady ∧ d'.key? n = some key ∧ Hits n key reason d d' where
  refl d hs hk := ⟨hs, hk, .spared rfl rfl rfl⟩
  trans h h' hs hk := by
    obtain ⟨hs', hk', hits⟩ := h hs hk
    obtain ⟨hs'', hk'', hits'⟩ := h' hs' hk'
    exact ⟨hs'', hk'', hits.trans hits'⟩
  stopKey k d hs hk := by
    have hwanes := wanes_of_works (works_teardowns.stopKey k reason d)
    obtain ⟨t, ht, rfl⟩ := key?_iff.mp hk
    obtain ⟨t', ht', same, -⟩ := hwanes.tails n t ht
    exact ⟨hwanes.steady hs, key?_iff.mpr ⟨t', ht', same⟩, hs.stopKey_hits hk k reason⟩

theorem endFeed_other (other : k ≠ n) (t : Tail) (f : Feed) (exit : Exit) (d : Desk) :
    (d.endFeed k t f exit).tails[n]? = d.tails[n]? := by
  rw [endFeed, teardown_other other]
  exact List.getElem?_set_ne other

theorem look_other (other : k ≠ n) (d : Desk) : (d.look k).2.tails[n]? = d.tails[n]? := by
  have hlooks := look_looks k d
  generalize d.look k = looked at hlooks
  cases hlooks with
  | idle | goes => rfl
  | ended => exact endFeed_other other _ _ _ d

theorem fetch_other (other : k ≠ n) (heeds : Bool) (d : Desk) :
    (d.fetch k heeds).2.tails[n]? = d.tails[n]? := by
  have hfetches := fetch_fetches k heeds d
  generalize d.fetch k heeds = fetched at hfetches
  cases hfetches with
  | idle => rfl
  | asked => exact List.getElem?_set_ne other

theorem receive_other (other : k ≠ n) (answer : Option Item) (d : Desk) :
    (d.receive k answer).tails[n]? = d.tails[n]? := by
  have hreceives := receive_receives k answer d
  generalize d.receive k answer = d' at hreceives
  cases hreceives with
  | idle => rfl
  | closed => exact endFeed_other other _ _ _ d
  | item =>
    simp only [takeItem]
    split
    · exact List.getElem?_set_ne other
    · exact endFeed_other other _ _ _ _

theorem pull_other (other : k ≠ n) (d : Desk) : (d.pull k).tails[n]? = d.tails[n]? :=
  pull_chain (R := fun d d' => d'.tails[n]? = d.tails[n]?) (fun h h' => h'.trans h)
    (look_other other) (fetch_other other true) (receive_other other) d

/-- A move that stops a session records one stop of it, for the move's reason. -/
theorem Steady.move_reason (hs : d.Steady) (hk : d.key? n = some key)
    (other : m.isRequest = false) (unpulled : m ≠ .pull n) (going : d.phase? n ≠ some .stopped)
    (stopped : (d.move m).phase? n = some .stopped) : ∃ reason, reason ≠ .streamEnded ∧
      (d.move m).reasonsOn key = d.reasonsOn key ++ [reason] := by
  have hhit {reason : StopReason} (outside : reason ≠ .streamEnded)
      (hits : Hits n key reason d (d.move m)) : ∃ reason, reason ≠ .streamEnded ∧
        (d.move m).reasonsOn key = d.reasonsOn key ++ [reason] := by
    cases hits with
    | hit _ _ _ record => exact ⟨reason, outside, record⟩
    | spared _ phase | passed _ _ phase => exact absurd (phase.symm.trans stopped) going
  have hsame (phase : (d.move m).phase? n = d.phase? n) : ∃ reason, reason ≠ .streamEnded ∧
      (d.move m).reasonsOn key = d.reasonsOn key ++ [reason] :=
    absurd (phase.symm.trans stopped) going
  cases m with
  | start | answer => cases other
  | stop k => exact hhit (by simp) ((keyStops_hits n key .explicit).stopKey k d hs hk).2.2
  | stopAll => exact hhit (by simp) ((keyStops_hits n key .shutdown).stopKeys _ d hs hk).2.2
  | stopUnviewed =>
    exact hhit (by simp) ((keyStops_hits n key .viewsClosed).stopUnviewedAmong _ d hs hk).2.2
  | drop =>
    have hclosed (hs : d.Steady) (hk : d.key? n = some key) :
        ({ d with closed := true, dropped := true } : Desk).Steady ∧
        ({ d with closed := true, dropped := true } : Desk).key? n = some key ∧
        Hits n key .shutdown d { d with closed := true, dropped := true } :=
      have hwanes : Wanes d { d with closed := true, dropped := true } := .still rfl rfl rfl rfl
      ⟨hwanes.steady hs, hk, .spared rfl rfl rfl⟩
    exact hhit (by simp) ((keyStops_hits n key .shutdown).drop d hclosed hs hk).2.2
  | wake i =>
    have hwatched (watchers : List Watcher) (d : Desk) (hs : d.Steady) (hk : d.key? n = some key) :
        ({ d with watchers } : Desk).Steady ∧ ({ d with watchers } : Desk).key? n = some key ∧
        Hits n key .viewsClosed d { d with watchers } :=
      have hwanes : Wanes d { d with watchers } := .still rfl rfl rfl rfl
      ⟨hwanes.steady hs, hk, .spared rfl rfl rfl⟩
    exact hhit (by simp) ((keyStops_hits n key .viewsClosed).wake hwatched i d hs hk).2.2
  | pull k =>
    refine hsame (phase?_same (pull_other (fun he => unpulled ?_) d))
    rw [he]
  | clear k =>
    have hclears := clear_clears k d
    simp only [Desk.move] at hsame ⊢
    generalize (d.clear k).2 = d' at hclears hsame
    cases hclears <;> exact hsame rfl
  | arm k =>
    have harms := arm_arms k d
    simp only [Desk.move] at hsame ⊢
    generalize d.arm k = d' at harms hsame
    cases harms with
    | idle => exact hsame rfl
    | armed ht => exact hsame (phase?_set ht rfl n)
  | tick k =>
    have hticks := tick_ticks k d
    simp only [Desk.move] at hsame ⊢
    generalize d.tick k = d' at hticks hsame
    cases hticks with
    | idle => exact hsame rfl
    | ended ht | told ht => exact hsame (phase?_set ht rfl n)
  | await | watch | pass | provide | cut | send | closeSender | openView | closeView | scroll =>
    exact hsame rfl

/-! ### The feeds of sessions -/

/-- Sessions that are added have no feed. -/
theorem feed?_append {more : List Tail} (tails : d'.tails = d.tails ++ more)
    (unfed : ∀ t ∈ more, t.feed = none) (n : Nat) : d'.feed? n = d.feed? n := by
  rw [feed?, feed?, tails, List.getElem?_append]
  split
  · rfl
  · rename_i hn
    have hnone : d.tails[n]? = none := List.getElem?_eq_none_iff.mpr (Nat.le_of_not_lt hn)
    rw [hnone]
    cases hmore : more[n - d.tails.length]? with
    | none => rfl
    | some t => simp [unfed t (List.mem_of_getElem? hmore)]

theorem Begun.tails_append {source : Source} (h : Begun source d d') :
    ∃ more, d'.tails = d.tails ++ more ∧ ∀ t ∈ more, t.feed = none := by
  cases h with
  | refused | refocused => exact ⟨[], by simp, by simp⟩
  | outrun => exact ⟨_, rfl, by simp [rivalOf, belated]⟩
  | entered => exact ⟨_, rfl, by simp⟩

theorem feed?_teardowns (n : Nat) : Teardowns fun d d' => d'.feed? n = d.feed? n :=
  ⟨fun _ => rfl, fun h h' => h'.trans h, fun _ _ _ => feed?_teardown n⟩

/-- Unless it is pulled, the feed of a session stays as it is, or it begins. -/
theorem Steady.move_feed? (hs : d.Steady) (unpulled : m ≠ .pull n) :
    (d.move m).feed? n = d.feed? n ∨ d.feed? n = none ∧ (d.move m).feed? n = some none ∧
      d.phase? n ≠ some .stopped ∧ (d.move m).phase? n = some .running := by
  have hteardowns := feed?_teardowns n
  cases m with
  | start source =>
    obtain ⟨more, tails, unfed⟩ := (beginStart_begun hs.room source).tails_append
    exact .inl (feed?_append tails unfed n)
  | answer c =>
    have hturns := hs.move_turns (.answer c)
    generalize d.move (.answer c) = d' at hturns
    cases hturns with
    | worked request => cases request
    | unasked => exact .inl rfl
    | @finished _ k _ t _ hc ht pending h =>
      have hk : k < d.tails.length := (List.getElem?_eq_some_iff.mp ht).1
      cases h with
      | opened starting =>
        by_cases hn : k = n
        · subst hn
          refine .inr ⟨?_, ?_, ?_, ?_⟩
          · simp [feed?, ht, pending.unfed]
          · simp [feed?, List.getElem?_set_self hk]
          · simp [phase?, ht, starting]
          · simp [phase?, List.getElem?_set_self hk]
        · exact .inl (feed?_same (List.getElem?_set_ne hn))
      | failed => exact .inl (feed?_set ht rfl n)
  | stop key => exact .inl (hteardowns.stopKey key .explicit d)
  | stopAll => exact .inl (hteardowns.stopKeys _ d)
  | drop => exact .inl (hteardowns.drop d rfl)
  | stopUnviewed => exact .inl (hteardowns.stopUnviewedAmong _ d)
  | wake i => exact .inl (hteardowns.wake (fun _ _ => rfl) i d)
  | pull k => exact .inl (feed?_same (pull_other (fun he => unpulled (by rw [he])) d))
  | clear key =>
    have hclears := clear_clears key d
    simp only [Desk.move]
    generalize (d.clear key).2 = d' at hclears
    cases hclears <;> exact .inl rfl
  | arm k =>
    have harms := arm_arms k d
    simp only [Desk.move]
    generalize d.arm k = d' at harms
    cases harms with
    | idle => exact .inl rfl
    | armed ht => exact .inl (feed?_set ht rfl n)
  | tick k =>
    have hticks := tick_ticks k d
    simp only [Desk.move]
    generalize d.tick k = d' at hticks
    cases hticks with
    | idle => exact .inl rfl
    | ended ht | told ht => exact .inl (feed?_set ht rfl n)
  | await | watch | pass | provide | cut | send | closeSender | openView | closeView | scroll =>
    exact .inl rfl

/-- No request concerns a session that has a feed. -/
theorem Steady.request_phase? (hs : d.Steady) (request : m.isRequest = true)
    (fed : d.feed? n ≠ none) : (d.move m).phase? n = d.phase? n := by
  obtain ⟨report, hfeed⟩ := Option.ne_none_iff_exists'.mp fed
  obtain ⟨t, f, ht, hf, -⟩ := feed?_eq_some.mp hfeed
  have hturns := hs.move_turns m
  generalize d.move m = d' at hturns
  cases hturns with
  | worked other =>
    rw [request] at other
    cases other
  | begun h =>
    obtain ⟨more, tails, -⟩ := h.tails_append
    refine phase?_same ?_
    rw [tails, List.getElem?_append_left (List.getElem?_eq_some_iff.mp ht).1]
  | unasked => rfl
  | @finished _ k _ u _ hc hu pending h =>
    have hn : k ≠ n := by
      rintro rfl
      rw [ht] at hu
      cases hu
      have unfed := pending.unfed
      rw [hf] at unfed
      cases unfed
    cases h <;> exact phase?_same (List.getElem?_set_ne hn)

theorem Passage.stopped (h : Passage d d') (hr : d.Regular) (stopped : d.phase? n = some .stopped) :
    d'.phase? n = some .stopped := by
  obtain ⟨t, ht, hp⟩ := phase?_iff.mp stopped
  obtain ⟨t', ht', orderly, hages⟩ := h.tails.old n t ht
  have ended := (hr t (List.mem_of_getElem? ht)).ended.mpr hp
  obtain ⟨stop, hstop⟩ := Option.isSome_iff_exists.mp ended
  refine phase?_iff.mpr ⟨t', ht', orderly.ended.mp ?_⟩
  rw [(hages.ended stop hstop).1]
  rfl

theorem works_length (works : ReflTransGen Work d d') : d'.tails.length = d.tails.length := by
  induction works with
  | refl => rfl
  | @tail d₁ d₂ _ work ih =>
    rw [← ih]
    cases work with
    | aside _ _ _ tails => rw [tails]
    | tended _ _ tails => rw [tails, List.length_set]
    | torn n reason =>
      have htears := teardown_tearsDown n reason d₁
      generalize (d₁.teardown n reason).2 = d' at htears
      cases htears with
      | absent => rfl
      | again | first => exact List.length_set

theorem key?_of_works (works : ReflTransGen Work d d') (stopped : d'.phase? n = some .stopped) :
    ∃ key, d.key? n = some key := by
  obtain ⟨t', ht', -⟩ := phase?_iff.mp stopped
  have hn : n < d.tails.length := by
    rw [← works_length works]
    exact (List.getElem?_eq_some_iff.mp ht').1
  exact ⟨_, key?_iff.mpr ⟨_, List.getElem?_eq_getElem hn, rfl⟩⟩

/-! ### Feeds of sessions that have not been stopped -/

/-- What a feed comes to by itself whose session has not been stopped. -/
inductive Proceeds (n : Nat) (key : Key) (d d' : Desk) : Prop where
  | goes (phase : d'.phase? n = d.phase? n) (feed : d'.feed? n = d.feed? n)
  | ends (report : Report) (stopped : d'.phase? n = some .stopped)
      (feed : d'.feed? n = some (some report)) (uncancelled : report.exit ≠ .cancelled)
      (record : d'.reasonsOn key = d.reasonsOn key ++ [.streamEnded])

/-- What comes before is looked at for what is known of the session. -/
theorem Proceeds.congr (h : Proceeds n key d' d'') (phase : d'.phase? n = d.phase? n)
    (feed : d'.feed? n = d.feed? n) (record : d'.reasonsOn key = d.reasonsOn key) :
    Proceeds n key d d'' := by
  cases h with
  | goes phase' feed' => exact .goes (phase'.trans phase) (feed'.trans feed)
  | ends report stopped feed' uncancelled record' =>
    exact .ends report stopped feed' uncancelled (record ▸ record')

theorem endFeed_first (ht : d.tails[n]? = some t) (going : t.session.phase ≠ .stopped) (f : Feed)
    (exit : Exit) : (d.endFeed n t f exit).phase? n = some .stopped ∧
      (d.endFeed n t f exit).log = (t.key, .stopped .streamEnded) :: d.log := by
  have hn : n < d.tails.length := (List.getElem?_eq_some_iff.mp ht).1
  have hstop := Session.stop_first d.now going
  simp [endFeed, teardown, put, stopSession, List.getElem?_set_self hn, hstop, unlist, settle_eq,
    phase?, Tail.key]

theorem endFeed_proceeds (ht : d.tails[n]? = some t) (going : t.session.phase ≠ .stopped)
    (f : Feed) {exit : Exit} (uncancelled : exit ≠ .cancelled) :
    Proceeds n t.key d (d.endFeed n t f exit) := by
  obtain ⟨hphase, hlog⟩ := endFeed_first ht going f exit
  have hn : n < d.tails.length := (List.getElem?_eq_some_iff.mp ht).1
  exact .ends _ hphase (feed?_endFeed hn t f exit) uncancelled (reasonsOn_stop hlog)

theorem takeItem_proceeds {f : Feed} (ht : d.tails[n]? = some t) (fed : d.feed? n = some none)
    (going : t.session.phase ≠ .stopped) (unfired : t.session.cancelled = false)
    (hf : f.report = none) (i : Item) : Proceeds n t.key d (d.takeItem n t f i) := by
  have hn : n < d.tails.length := (List.getElem?_eq_some_iff.mp ht).1
  have huncancelled := Pump.take_uncancelled t.session.budget i
    { document := (d.workspace.document? t.key).getD {}, tally := f.tally }
  obtain ⟨told, hnotices, hupdates⟩ := Pump.take_notices t.session.budget false i
    { document := (d.workspace.document? t.key).getD {}, tally := f.tally }
  simp only [takeItem, unfired]
  generalize Pump.take _ _ _ _ = taken at huncancelled hnotices
  obtain ⟨exit, p⟩ := taken
  cases exit with
  | none =>
    refine .goes (phase?_set ht rfl n) ?_
    rw [fed]
    simp [feed?, put, List.getElem?_set_self hn, hf]
  | some exit =>
    let d₁ : Desk := { d with
      workspace := d.workspace.onDocument t.key fun _ => p.document
      log := (p.notices.map fun x => (t.key, x)).reverse ++ d.log }
    have hrecord : d₁.reasonsOn t.key = d.reasonsOn t.key := by
      refine reasonsOn_updates rfl (fun e he => ?_) t.key
      rw [show p.notices = [] ++ told from hnotices, List.nil_append] at he
      obtain ⟨x, hx, rfl⟩ := List.mem_map.mp (List.mem_reverse.mp he)
      obtain ⟨sampled, count, rfl⟩ := hupdates x hx
      exact ⟨t.key, sampled, count, rfl⟩
    have hends : Proceeds n t.key d₁ (d₁.endFeed n t { f with tally := p.tally } exit) :=
      endFeed_proceeds (d := d₁) ht going _ fun he => huncancelled (congrArg some he)
    exact hends.congr rfl rfl hrecord

theorem receive_proceeds (ht : d.tails[n]? = some t) (going : t.session.phase ≠ .stopped)
    (unfired : t.session.cancelled = false) (answer : Option Item) :
    Proceeds n t.key d (d.receive n answer) := by
  have hreceives := receive_receives n answer d
  generalize d.receive n answer = d' at hreceives
  cases hreceives with
  | idle => exact .goes rfl rfl
  | closed feeding =>
    obtain ⟨hu, -, -⟩ := feeding?_eq_some.mp feeding
    rw [ht] at hu
    cases hu
    exact endFeed_proceeds ht going _ (by simp)
  | item i feeding =>
    obtain ⟨hu, hf, hreport⟩ := feeding?_eq_some.mp feeding
    rw [ht] at hu
    cases hu
    exact takeItem_proceeds ht (feed?_eq_some.mpr ⟨t, _, ht, hf, hreport⟩) going unfired hreport i

theorem pull_proceeds (ht : d.tails[n]? = some t) (going : t.session.phase ≠ .stopped)
    (unfired : t.session.cancelled = false) : Proceeds n t.key d (d.pull n) := by
  have hsame {u : Tail} (hu : d.tails[n]? = some u) : u = t := by
    rw [ht] at hu
    exact (Option.some.inj hu).symm
  have closed : Exit.closed ≠ .cancelled := by decide
  have hpulls := pull_pulls n d
  generalize d.pull n = d' at hpulls
  cases hpulls with
  | idle => exact .goes rfl rfl
  | cancelled hu _ _ fired =>
    rw [hsame hu, unfired] at fired
    cases fired
  | waits hu hf hreport =>
    obtain rfl := hsame hu
    have hn : n < d.tails.length := (List.getElem?_eq_some_iff.mp ht).1
    refine .goes (phase?_set ht rfl n) ?_
    simp [feed?, put, List.getElem?_set_self hn, ht, hf]
  | @closed _ f stream channels hu =>
    cases hsame hu
    have hends : Proceeds n t.key { d with channels } _ :=
      endFeed_proceeds (d := { d with channels }) ht going { f with stream } closed
    exact hends.congr rfl rfl rfl
  | @item _ f stream channels i hu hf hreport =>
    cases hsame hu
    have htakes : Proceeds n t.key { d with channels } _ :=
      takeItem_proceeds (d := { d with channels }) (f := { f with stream }) ht
        (feed?_eq_some.mpr ⟨t, f, ht, hf, hreport⟩) going unfired hreport i
    exact htakes.congr rfl rfl rfl

/-! ### Feeds of sessions that have been stopped -/

/-- A feed whose session has stopped ends at its next look at the token. -/
theorem look_late (ht : d.tails[n]? = some t) (fired : t.session.cancelled = true) :
    (d.look n).1 = false ∧
      (d.feed? n ≠ some none ∧ (d.look n).2.feed? n = d.feed? n ∨ d.feed? n = some none ∧
        ∃ report, (d.look n).2.feed? n = some (some report) ∧ report.exit = .cancelled) := by
  have hn : n < d.tails.length := (List.getElem?_eq_some_iff.mp ht).1
  have hlooks := look_looks n d
  generalize d.look n = looked at hlooks
  cases hlooks with
  | idle unfed =>
    refine ⟨rfl, .inl ⟨fun hfeed => ?_, rfl⟩⟩
    obtain ⟨u, f, hu, hf, hreport⟩ := feed?_eq_some.mp hfeed
    rw [feeding?_eq_some.mpr ⟨hu, hf, hreport⟩] at unfed
    cases unfed
  | @ended u f feeding =>
    obtain ⟨hu, hf, hreport⟩ := feeding?_eq_some.mp feeding
    exact ⟨rfl, .inr ⟨feed?_eq_some.mpr ⟨u, f, hu, hf, hreport⟩, _, feed?_endFeed hn u f .cancelled,
      rfl⟩⟩
  | goes feeding unfired =>
    obtain ⟨hu, -, -⟩ := feeding?_eq_some.mp feeding
    rw [ht] at hu
    cases hu
    rw [fired] at unfired
    cases unfired

theorem pull_of_look (stays : (d.look n).1 = false) : d.pull n = (d.look n).2 := by
  unfold pull
  split
  · rename_i looked
    rw [looked]
  · rename_i looked
    rw [looked] at stays
    cases stays

theorem fetch_same (k : Nat) (heeds : Bool) (d : Desk) (n : Nat) :
    (d.fetch k heeds).2.phase? n = d.phase? n ∧ (d.fetch k heeds).2.feed? n = d.feed? n := by
  have hfetches := fetch_fetches k heeds d
  generalize d.fetch k heeds = fetched at hfetches
  cases hfetches with
  | idle => exact ⟨rfl, rfl⟩
  | @asked t f _ _ _ feeding =>
    obtain ⟨ht, hf, -⟩ := feeding?_eq_some.mp feeding
    refine ⟨phase?_set ht rfl n, ?_⟩
    by_cases hn : k = n
    · subst hn
      simp [feed?, put, List.getElem?_set_self (List.getElem?_eq_some_iff.mp ht).1, ht, hf]
    · exact feed?_same (List.getElem?_set_ne hn)

theorem teardownAmid_other (other : k ≠ n) (reason : StopReason) (answer : Option Item) (d : Desk) :
    (d.teardownAmid k reason answer).tails[n]? = d.tails[n]? := by
  cases ht : d.tails[k]? with
  | none => simp [teardownAmid, ht]
  | some t =>
    have htails : (d.teardownAmid k reason answer).tails = ((d.fire k t).receive k answer).tails := by
      rw [teardownAmid_eq ht]
      dsimp only
      split
      · simp [settle_eq, unlist]
      · rfl
    rw [htails, receive_other other]
    exact List.getElem?_set_ne other

/-- Someone else who stops only sessions that have been stopped changes no phase. -/
theorem halt_phase? (spared : KeyMap.get? key d.roster = some n → d.phase? n = some .stopped) :
    (d.meet (.halt key)).phase? n = d.phase? n := by
  rcases halt_stops key d with same | ⟨k, t, held, ht, stops⟩
  · rw [same]
  rw [stops]
  by_cases hn : k = n
  · subst hn
    obtain ⟨u, hu, hp⟩ := phase?_iff.mp (spared held)
    rw [ht] at hu
    cases hu
    simp [phase?, List.getElem?_set_self (List.getElem?_eq_some_iff.mp ht).1, ht, hp]
  · exact phase?_same (List.getElem?_set_ne hn)

theorem halt_feed? (key : Key) (d : Desk) (n : Nat) : (d.meet (.halt key)).feed? n = d.feed? n := by
  rcases halt_stops key d with same | ⟨k, t, -, ht, stops⟩
  · rw [same]
  · rw [stops]
    exact feed?_set ht rfl n

theorem Lapses.phase_kept {answer : Option Item} (h : Lapses n t answer d d')
    (hn : n < d.tails.length) : d'.phase? n = some t.session.phase := by
  cases h with
  | mk => simp [phase?, List.getElem?_set_self hn]

theorem Lapses.feed_told {answer : Option Item} (h : Lapses n t answer d d')
    (hn : n < d.tails.length) : ∃ report, d'.feed? n = some report ∧
      (report.map (·.exit)).getD .cancelled = Pump.handoverExit answer := by
  cases h with
  | mk exit => exact ⟨_, by simp [feed?, List.getElem?_set_self hn], exit⟩

theorem Lapses.record {answer : Option Item} (h : Lapses n t answer d d') (key : Key) :
    ∃ news, d'.log = news ++ d.log ∧ d'.reasonsOn key = d.reasonsOn key := by
  cases h with
  | mk _ _ _ _ record =>
    refine ⟨_, rfl, reasonsOn_updates rfl (fun e he => ?_) key⟩
    obtain ⟨sampled, count, rfl⟩ := record e he
    exact ⟨_, _, _, rfl⟩

/-- What tearing a session down comes to while its feed takes an answer: no reason is recorded
for a session that has stopped before, and one for the others. -/
theorem Regular.teardownAmid_lapses (hr : d.Regular) (ht : d.tails[n]? = some t)
    (fed : d.feed? n = some none) (reason : StopReason) (answer : Option Item) :
    let d' := d.teardownAmid n reason answer
    d'.phase? n = some .stopped ∧
      (∃ report, d'.feed? n = some report ∧
        (report.map (·.exit)).getD .cancelled = Pump.handoverExit answer) ∧
      ∃ news, d'.log = news ++ d.log ∧ d'.reasonsOn t.key =
        d.reasonsOn t.key ++ if t.session.phase = .stopped then [] else [reason] := by
  have hn : n < d.tails.length := (List.getElem?_eq_some_iff.mp ht).1
  obtain ⟨u, f, hu, hf, going⟩ := feed?_eq_some.mp fed
  rw [ht] at hu
  cases hu
  let t' : Tail := { t with session := (t.session.stop d.now).2 }
  have feeding : (d.fire n t).feeding? n = some (t', f) :=
    feeding?_eq_some.mpr ⟨List.getElem?_set_self hn, hf, going⟩
  have stopped : t'.session.phase = .stopped := Session.stop_phase d.now t.session
  have orderly : t'.session.Orderly := (hr t (List.mem_of_getElem? ht)).stop d.now
  have hlapses := receive_lapses feeding stopped (orderly.fired.mpr stopped) answer
  have hlength : n < (d.fire n t).tails.length := by simpa [fire, put] using hn
  have hphase := hlapses.phase_kept hlength
  have hfeed := hlapses.feed_told hlength
  obtain ⟨news, log, record⟩ := hlapses.record t.key
  rw [teardownAmid_eq ht]
  by_cases before : t.session.phase = .stopped
  · simp only [Session.stop_stopped d.now before, Bool.false_eq_true, if_false, before, if_true,
      List.append_nil]
    exact ⟨hphase.trans (congrArg some stopped), hfeed, news, log, record⟩
  · simp only [Session.stop_first d.now before, if_true, before, if_false, settle_eq]
    refine ⟨hphase.trans (congrArg some stopped), hfeed, (t.key, .stopped reason) :: news, ?_, ?_⟩
    · rw [unlist, log]
      rfl
    · let d' : Desk := (d.fire n t).receive n answer
      have hstop : ({ d' with log := (t.key, .stopped reason) :: d'.log } : Desk).reasonsOn t.key =
          d'.reasonsOn t.key ++ [reason] := reasonsOn_stop rfl
      rw [record] at hstop
      exact hstop

end Desk

end LogTail
