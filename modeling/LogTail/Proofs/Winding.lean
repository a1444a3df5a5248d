import LogTail.Proofs.Act

/-!
# Winding sessions down

A session that is torn down is stopped, taken off the roster and recorded as stopped, all
at once; one that has stopped before is left as it is. Whatever tears sessions down is a
chain of such acts.
-/
namespace LogTail.Desk

variable {d : Desk} {n : Nat} {t : Tail} {key : Key} {reason : StopReason}

/-- What waking a watcher comes to. -/
inductive Wakes (i : Nat) (d : Desk) : Desk → Prop where
  | idle (nothing : ∀ w, d.watchers[i]? = some w →
      w.ended = true ∨ d.dropped = false ∧ d.workspace.receive w.seen = none) : Wakes i d d
  | ended {w : Watcher} (hw : d.watchers[i]? = some w) (dropped : d.dropped = true) :
      Wakes i d { d with watchers := d.watchers.set i { w with ended := true } }
  | received {w : Watcher} {x : Workspace.Delivery} {seen : Nat} (hw : d.watchers[i]? = some w)
      (going : w.ended = false) (kept : d.dropped = false)
      (h : d.workspace.receive w.seen = some (x, seen)) :
      Wakes i d ({ d with watchers := d.watchers.set i { w with seen } } : Desk).stopUnviewed.2

theorem wake_wakes (i : Nat) (d : Desk) : Wakes i d (d.wake i) := by
  unfold wake
  split
  · rename_i hnone
    exact .idle fun w hw => by rw [hnone] at hw; cases hw
  rename_i w hw
  have hsame {w' : Watcher} (hw' : d.watchers[i]? = some w') : w' = w := by
    rw [hw] at hw'
    exact (Option.some.inj hw').symm
  split
  · rename_i hended
    exact .idle fun w' hw' => .inl (hsame hw' ▸ hended)
  rename_i going
  split
  · exact .ended hw ‹_›
  rename_i kept
  split
  · rename_i hnone
    exact .idle fun w' hw' => .inr ⟨by simpa using kept, hsame hw' ▸ hnone⟩
  · rename_i hsome
    exact .received hw (by simpa using going) (by simpa using kept) hsome

/-- A relation between a desk and one that comes after it, which every stop of a key for a
reason keeps. -/
structure KeyStops (reason : StopReason) (R : Desk → Desk → Prop) : Prop where
  refl : ∀ d, R d d
  trans : ∀ {d d' d''}, R d d' → R d' d'' → R d d''
  stopKey : ∀ key d, R d (d.stopKey key reason).2

namespace KeyStops

variable {R : Desk → Desk → Prop}

theorem stopKeys (h : KeyStops .shutdown R) (keys : List Key) (d : Desk) :
    R d (Desk.stopKeys keys d).2 := by
  induction keys generalizing d with
  | nil => exact h.refl d
  | cons key rest ih => exact h.trans (h.stopKey key d) (ih _)

theorem stopUnviewedAmong (h : KeyStops .viewsClosed R) (keys : List Key) (d : Desk) :
    R d (Desk.stopUnviewedAmong keys d).2 := by
  induction keys generalizing d with
  | nil => exact h.refl d
  | cons key rest ih =>
    unfold Desk.stopUnviewedAmong
    split
    · exact h.trans (h.stopKey key d) (ih _)
    · exact ih d

theorem wake (h : KeyStops .viewsClosed R) (watched : ∀ watchers d, R d { d with watchers })
    (n : Nat) (d : Desk) : R d (d.wake n) := by
  have hwakes := wake_wakes n d
  generalize d.wake n = d' at hwakes
  cases hwakes with
  | idle => exact h.refl d
  | ended => exact watched _ d
  | received => exact h.trans (watched _ d) (h.stopUnviewedAmong _ _)

theorem drop (h : KeyStops .shutdown R) (d : Desk)
    (closed : R d { d with closed := true, dropped := true }) : R d d.drop :=
  h.trans closed (h.stopKeys _ _)

end KeyStops

/-- A relation between a desk and one that comes after it, which every teardown keeps. -/
structure Teardowns (R : Desk → Desk → Prop) : Prop where
  refl : ∀ d, R d d
  trans : ∀ {d d' d''}, R d d' → R d' d'' → R d d''
  teardown : ∀ n reason d, R d (d.teardown n reason).2

namespace Teardowns

variable {R : Desk → Desk → Prop}

theorem stopKey (h : Teardowns R) (key : Key) (reason : StopReason) (d : Desk) :
    R d (d.stopKey key reason).2 := by
  unfold Desk.stopKey
  split
  · exact h.refl d
  · exact h.teardown _ reason d

theorem keyStops (h : Teardowns R) (reason : StopReason) : KeyStops reason R :=
  ⟨h.refl, h.trans, fun key => h.stopKey key reason⟩

theorem stopKeys (h : Teardowns R) (keys : List Key) (d : Desk) : R d (Desk.stopKeys keys d).2 :=
  (h.keyStops .shutdown).stopKeys keys d

theorem stopUnviewedAmong (h : Teardowns R) (keys : List Key) (d : Desk) :
    R d (Desk.stopUnviewedAmong keys d).2 :=
  (h.keyStops .viewsClosed).stopUnviewedAmong keys d

theorem wake (h : Teardowns R) (watched : ∀ watchers d, R d { d with watchers }) (n : Nat)
    (d : Desk) : R d (d.wake n) := (h.keyStops .viewsClosed).wake watched n d

theorem drop (h : Teardowns R) (d : Desk) (closed : R d { d with closed := true, dropped := true }) :
    R d d.drop := (h.keyStops .shutdown).drop d closed

end Teardowns

theorem set_same (ht : d.tails[n]? = some t) : d.tails.set n t = d.tails := by
  obtain ⟨hn, rfl⟩ := List.getElem?_eq_some_iff.mp ht
  exact List.set_getElem_self hn

/-- A session that has stopped does not hold a key. -/
theorem Sound.unheld (hs : d.Sound) (ht : d.tails[n]? = some t)
    (stopped : t.session.phase = .stopped) (key : Key) : KeyMap.get? key d.roster ≠ some n := by
  intro he
  obtain ⟨u, hu, -, live⟩ := (hs.lists key n).mp he
  rw [ht] at hu
  cases hu
  rw [stopped] at live
  exact absurd live (by decide)

theorem Sound.held (hs : d.Sound) (ht : d.tails[n]? = some t)
    (live : t.session.phase.isLive = true) : KeyMap.get? t.key d.roster = some n :=
  (hs.lists t.key n).mpr ⟨t, ht, rfl, live⟩

/-- No key has two live sessions. -/
theorem Sound.single (hs : d.Sound) {m n : Nat} {t u : Tail} (ht : d.tails[m]? = some t)
    (hu : d.tails[n]? = some u) (same : t.key = u.key) (tlive : t.session.phase.isLive = true)
    (ulive : u.session.phase.isLive = true) : m = n := by
  have hm := hs.held ht tlive
  have hn := hs.held hu ulive
  rw [same, hn] at hm
  exact (Option.some.inj hm).symm

theorem Sound.live_or_stopped (hs : d.Sound) (ht : d.tails[n]? = some t) :
    t.session.phase.isLive = true ∨ t.session.phase = .stopped := by
  have hb := (hs.tails t (List.mem_of_getElem? ht)).begun
  cases hp : t.session.phase with
  | idle => exact absurd hp hb
  | starting | running => exact .inl rfl
  | stopped => exact .inr rfl

theorem unlist_unheld (unheld : KeyMap.get? key d.roster ≠ some n) : d.unlist key n = d := by
  simp [unlist, Roster.removeInstance, unheld]

theorem unlist_held (held : KeyMap.get? key d.roster = some n) :
    d.unlist key n = { d with roster := KeyMap.erase key d.roster } := by
  simp [unlist, Roster.removeInstance, held]

theorem settle_eq (key : Key) (reason : StopReason) (d : Desk) : d.settle key reason = { d with
    workspace := if d.policy.clearOnStop then d.workspace.clearDocument key else d.workspace
    log := (key, .stopped reason) :: d.log } := by
  simp only [settle, tell]
  split <;> rfl

/-- What tearing a session down comes to. It is stopped and taken off the roster, and its
first stop is recorded, after its document was cleared if the policy says so. -/
inductive TearsDown (n : Nat) (reason : StopReason) (d : Desk) : Desk → Prop where
  | absent (missing : d.tails[n]? = none) : TearsDown n reason d d
  | again {t : Tail} (ht : d.tails[n]? = some t) (stopped : (t.session.stop d.now).1 = false) :
      TearsDown n reason d { d with
        roster := (d.roster.removeInstance t.key n).2
        tails := d.tails.set n { t with session := (t.session.stop d.now).2 } }
  | first {t : Tail} (ht : d.tails[n]? = some t) (going : (t.session.stop d.now).1 = true) :
      TearsDown n reason d { d with
        workspace := if d.policy.clearOnStop then d.workspace.clearDocument t.key else d.workspace
        roster := (d.roster.removeInstance t.key n).2
        tails := d.tails.set n { t with session := (t.session.stop d.now).2 }
        log := (t.key, .stopped reason) :: d.log }

theorem teardown_tearsDown (n : Nat) (reason : StopReason) (d : Desk) :
    TearsDown n reason d (d.teardown n reason).2 := by
  unfold teardown
  cases ht : d.tails[n]? with
  | none => exact .absent ht
  | some t =>
    simp only [stopSession, ht, unlist, settle_eq]
    split
    · exact .first ht ‹_›
    · rename_i again
      exact .again ht (by simpa using again)

/-- Who tears down a session touches no other. -/
theorem teardown_other {m : Nat} (other : m ≠ n) (reason : StopReason) (d : Desk) :
    (d.teardown m reason).2.tails[n]? = d.tails[n]? := by
  have htears := teardown_tearsDown m reason d
  generalize (d.teardown m reason).2 = d' at htears
  cases htears with
  | absent => rfl
  | again | first => exact List.getElem?_set_ne other

/-- A session that has stopped is not torn down again. -/
theorem teardown_stopped (ht : d.tails[n]? = some t) (stopped : t.session.phase = .stopped)
    (unheld : KeyMap.get? t.key d.roster ≠ some n) (reason : StopReason) :
    d.teardown n reason = (false, d) := by
  have hput : d.put n t = d := by simp [put, set_same ht]
  simp [teardown, ht, stopSession, Session.stop_stopped d.now stopped, hput, unlist_unheld unheld]

/-- A session that holds its key and has not stopped is torn down for good. -/
theorem teardown_going (ht : d.tails[n]? = some t) (going : t.session.phase ≠ .stopped)
    (held : KeyMap.get? t.key d.roster = some n) (reason : StopReason) :
    d.teardown n reason = (true, { d with
      workspace := if d.policy.clearOnStop then d.workspace.clearDocument t.key else d.workspace
      roster := KeyMap.erase t.key d.roster
      tails := d.tails.set n { t with session := (t.session.stop d.now).2 }
      log := (t.key, .stopped reason) :: d.log }) := by
  have hstop : d.stopSession n = (true, d.put n { t with session := (t.session.stop d.now).2 }) := by
    simp [stopSession, ht, ← Session.stop_first d.now going]
  simp only [teardown, ht, hstop, unlist_held (d := d.put n _) held, settle_eq, if_true]
  rfl

theorem teardown_live (ht : d.tails[n]? = some t) (live : t.session.phase.isLive = true)
    (held : KeyMap.get? t.key d.roster = some n) (reason : StopReason) :
    d.teardown n reason = (true, { d with
      workspace := if d.policy.clearOnStop then d.workspace.clearDocument t.key else d.workspace
      roster := KeyMap.erase t.key d.roster
      tails := d.tails.set n { t with session := (t.session.stop d.now).2 }
      log := (t.key, .stopped reason) :: d.log }) := by
  have hne : t.session.phase ≠ .stopped := by
    intro he
    rw [he] at live
    exact absurd live (by decide)
  exact teardown_going ht hne held reason

/-- Sessions are wound down, or nothing happens to them. -/
def Winds (d d' : Desk) : Prop := ∃ deeds, Acts d deeds d' ∧ ∀ deed ∈ deeds, deed.isWinding

theorem Winds.refl (d : Desk) : Winds d d := ⟨[], .nil d, by simp⟩

theorem Winds.one {d d' : Desk} {deed : Deed} (h : Act d deed d') (hw : deed.isWinding) :
    Winds d d' := ⟨[deed], .one h, by simpa using hw⟩

theorem Winds.trans {d d' d'' : Desk} (h : Winds d d') (h' : Winds d' d'') : Winds d d'' := by
  obtain ⟨deeds, ha, hw⟩ := h
  obtain ⟨deeds', ha', hw'⟩ := h'
  exact ⟨deeds ++ deeds', ha.append ha', by
    intro deed hd
    rcases List.mem_append.mp hd with hd | hd
    · exact hw deed hd
    · exact hw' deed hd⟩

theorem Winds.sound {d d' : Desk} (h : Winds d d') (hs : d.Sound) : d'.Sound := by
  obtain ⟨deeds, ha, -⟩ := h
  exact ha.sound hs

theorem Winds.beside {d d' : Desk} (h : d.Beside d') : Winds d d' := .one (.beside h) trivial

theorem Sound.teardown_winds (hs : d.Sound) (n : Nat) (reason : StopReason) :
    Winds d (d.teardown n reason).2 := by
  cases ht : d.tails[n]? with
  | none =>
    have hsame : d.teardown n reason = (false, d) := by simp [teardown, ht]
    rw [hsame]
    exact .refl d
  | some t =>
    rcases hs.live_or_stopped ht with live | stopped
    · rw [teardown_live ht live (hs.held ht live)]
      exact .one (.torn reason ht live) trivial
    · rw [teardown_stopped ht stopped (hs.unheld ht stopped _)]
      exact .refl d

theorem winds_teardowns : Teardowns fun d d' => d.Sound → Winds d d' where
  refl d _ := .refl d
  trans h h' hs := (h hs).trans (h' ((h hs).sound hs))
  teardown n reason _ hs := hs.teardown_winds n reason

/-- A feed that ends after its session leaves the session as it is. -/
theorem Sound.endFeed_stopped (hs : d.Sound) (ht : d.tails[n]? = some t)
    (stopped : t.session.phase = .stopped) (f : Feed) (exit : Exit) (channels : List Channel) :
    ({ d with channels } : Desk).endFeed n t f exit = { d with
      channels := Channel.release f.stream.channel? channels
      tails := d.tails.set n { t with feed := some { f with report := some ⟨exit, f.tally⟩ } } } := by
  have hn : n < d.tails.length := (List.getElem?_eq_some_iff.mp ht).1
  let t' : Tail := { t with feed := some { f with report := some ⟨exit, f.tally⟩ } }
  let d' : Desk := { d with
    channels := Channel.release f.stream.channel? channels, tails := d.tails.set n t' }
  have ht' : d'.tails[n]? = some t' := List.getElem?_set_self hn
  have hend : ({ d with channels } : Desk).endFeed n t f exit = (d'.teardown n .streamEnded).2 := rfl
  rw [hend, teardown_stopped ht' stopped (hs.unheld ht stopped t.key)]

/-- A feed that ends takes its session with it. -/
theorem Sound.endFeed_winds (hs : d.Sound) (ht : d.tails[n]? = some t) (fed : t.feed.isSome)
    (f : Feed) (exit : Exit) (channels : List Channel) :
    Winds d (({ d with channels } : Desk).endFeed n t f exit) := by
  rcases hs.live_or_stopped ht with live | stopped
  · have hn : n < d.tails.length := (List.getElem?_eq_some_iff.mp ht).1
    let t' : Tail := { t with feed := some { f with report := some ⟨exit, f.tally⟩ } }
    let d' : Desk := { d with
      channels := Channel.release f.stream.channel? channels, tails := d.tails.set n t' }
    have ht' : d'.tails[n]? = some t' := List.getElem?_set_self hn
    have hend : ({ d with channels } : Desk).endFeed n t f exit = (d'.teardown n .streamEnded).2 := rfl
    have held := hs.held ht live
    rw [hend, teardown_live ht' live held]
    -- the session first, then its feed
    let t'' : Tail := { t with session := (t.session.stop d.now).2 }
    let d'' : Desk := { d with
      workspace := if d.policy.clearOnStop then d.workspace.clearDocument t.key else d.workspace
      roster := KeyMap.erase t.key d.roster
      tails := d.tails.set n t''
      log := (t.key, .stopped .streamEnded) :: d.log }
    have htorn : Winds d d'' := .one (.torn .streamEnded ht live) trivial
    have ht'' : d''.tails[n]? = some t'' := List.getElem?_set_self hn
    have hleft : Winds d'' { d'' with
        channels := Channel.release f.stream.channel? channels
        tails := d''.tails.set n { t'' with feed := some { f with report := some ⟨exit, f.tally⟩ } } } :=
      .one (.left ht'' (Session.stop_phase _ _) fed) trivial
    have hboth := htorn.trans hleft
    simp only [d'', List.set_set] at hboth
    simp only [d', List.set_set]
    exact hboth
  · rw [hs.endFeed_stopped ht stopped]
    exact .one (.left ht stopped fed) trivial

/-- The feed of a session, if it has one, with its report once it has ended. -/
def feed? (n : Nat) (d : Desk) : Option (Option Report) :=
  d.tails[n]?.bind fun t => t.feed.map (·.report)

theorem feed?_eq_some {report : Option Report} : d.feed? n = some report ↔
    ∃ t f, d.tails[n]? = some t ∧ t.feed = some f ∧ f.report = report := by
  simp only [feed?, Option.bind_eq_some_iff, Option.map_eq_some_iff]
  constructor
  · rintro ⟨t, ht, f, hf, hr⟩
    exact ⟨t, f, ht, hf, hr⟩
  · rintro ⟨t, f, ht, hf, hr⟩
    exact ⟨t, ht, f, hf, hr⟩

theorem report?_join (n : Nat) (d : Desk) : d.report? n = (d.feed? n).join := by
  simp only [report?, feed?]
  cases d.tails[n]? with
  | none => rfl
  | some t => cases ht : t.feed <;> simp [ht]

/-- A change that does not touch the feed of a session. -/
theorem feed?_set {d' : Desk} {session : Session} {ticker : Ticker} (ht : d.tails[n]? = some t)
    (tails : d'.tails = d.tails.set n { t with session, ticker }) (m : Nat) :
    d'.feed? m = d.feed? m := by
  have hn : n < d.tails.length := (List.getElem?_eq_some_iff.mp ht).1
  by_cases hm : n = m
  · subst hm
    simp only [feed?, tails, List.getElem?_set_self hn, ht]
    rfl
  · simp only [feed?, tails, List.getElem?_set_ne hm]

@[simp] theorem feed?_teardown (m : Nat) : (d.teardown n reason).2.feed? m = d.feed? m := by
  have htears := teardown_tearsDown n reason d
  generalize (d.teardown n reason).2 = d' at htears
  cases htears with
  | absent => rfl
  | again ht | first ht => exact feed?_set ht rfl m

theorem feed?_endFeed (hn : n < d.tails.length) (t : Tail) (f : Feed) (exit : Exit) :
    (d.endFeed n t f exit).feed? n = some (some ⟨exit, f.tally⟩) := by
  simp only [endFeed, feed?_teardown]
  simp [feed?, put, List.getElem?_set_self hn]

theorem report?_endFeed (hn : n < d.tails.length) (t : Tail) (f : Feed) (exit : Exit) :
    (d.endFeed n t f exit).report? n = some ⟨exit, f.tally⟩ := by
  rw [report?_join, feed?_endFeed hn]
  rfl

end LogTail.Desk
