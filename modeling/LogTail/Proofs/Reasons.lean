import LogTail.Proofs.Endings

/-!
# Why a session stopped and how its feed ended

That a session was stopped, and why, is put on record by whoever stopped it; how its feed
ended is told by the feed. Neither asks the other. They agree because a feed looks at the
token of its session before it looks at its stream, and because a session is stopped once.
A pull that was under way when the session was stopped may still be told of the end of the
stream, or of a failure; it is the last one.
-/
namespace LogTail

namespace Midway

open Desk

variable {s s' : Midway} {x : Step} {n k : Nat} {key : Key} {t : Tail}

/-- The reasons that a step records for the stop of a session: those of the stops recorded about
its key, if the step stops it. -/
def reasonsOf (n : Nat) (x : Step) (s : Midway) : List StopReason :=
  if s.Stops n x then
    match s.desk.key? n with
    | none => []
    | some key =>
      (about key ((s.step x).desk.news s.desk.log.length)).filterMap Notice.reason?
  else []

/-- The reasons on record for the stop of a session. -/
def reasons (n : Nat) : List Step → Midway → List StopReason
  | [], _ => []
  | x :: xs, s => s.reasonsOf n x ++ reasons n xs (s.step x)

/-- Whether the feed of a session takes what it has in hand at a step, and the session has been
stopped by then. -/
def takesLate (n : Nat) (x : Step) (s : Midway) : Bool :=
  match x with
  | .receive k => k = n && s.desk.phase? n = some .stopped
  | .stopAmid key _ => KeyMap.get? key s.desk.roster = some n
  | _ => false

/-- What the feed of a session takes at a step once the session has been stopped. -/
def lateOf (n : Nat) (x : Step) (s : Midway) : List (Option Item) :=
  match s.hands n with
  | some (.found answer) => if s.takesLate n x then [answer] else []
  | _ => []

/-- All that the feed of a session takes once the session has been stopped. -/
def late (n : Nat) : List Step → Midway → List (Option Item)
  | [], _ => []
  | x :: xs, s => s.lateOf n x ++ late n xs (s.step x)

/-- Nobody but the desk stops a session. -/
def Spared (n : Nat) : List Step → Midway → Prop
  | [], _ => True
  | x :: xs, s => (∀ key, x = .meet (.halt key) → KeyMap.get? key s.desk.roster = some n →
      s.desk.phase? n = some .stopped) ∧ Spared n xs (s.step x)

theorem reasonsOf_unstopped (h : ¬ s.Stops n x) : s.reasonsOf n x = [] := if_neg h

theorem reasonsOf_stops {news : List (Key × Notice)} {added : List StopReason} (stops : s.Stops n x)
    (hk : s.desk.key? n = some key) (log : (s.step x).desk.log = news ++ s.desk.log)
    (record : (s.step x).desk.reasonsOn key = s.desk.reasonsOn key ++ added) :
    s.reasonsOf n x = added := by
  rw [reasonsOn_append log key, List.append_cancel_left_eq] at record
  simp only [reasonsOf, if_pos stops, hk]
  exact record

theorem lateOf_early (h : s.takesLate n x = false) : s.lateOf n x = [] := by
  unfold lateOf
  split
  · simp [h]
  · rfl

theorem lateOf_unfound (h : ∀ answer, s.hands n ≠ some (.found answer)) : s.lateOf n x = [] := by
  unfold lateOf
  split
  · exact absurd ‹_› (h _)
  · rfl

/-- What a step comes to for a session and its feed: which reasons it records for the stop of the
session, and what the feed takes after the stop. -/
inductive Fares (n : Nat) (s s' : Midway) : List StopReason → List (Option Item) → Prop where
  /-- It neither stops nor does its feed begin or end. -/
  | aside (stopped : s'.desk.phase? n = some .stopped ↔ s.desk.phase? n = some .stopped)
      (feed : s'.desk.feed? n = s.desk.feed? n) (hand : s'.hands n ≠ none → s.hands n ≠ none) :
      Fares n s s' [] []
  | looked (going : s'.desk.phase? n ≠ some .stopped) (before : s.desk.phase? n ≠ some .stopped)
      (same : s'.desk.feed? n = s.desk.feed? n) (feed : s'.desk.feed? n = some none) :
      Fares n s s' [] []
  | begun (going : s.desk.phase? n ≠ some .stopped) (running : s'.desk.phase? n = some .running)
      (unfed : s.desk.feed? n = none) (feed : s'.desk.feed? n = some none)
      (hand : s'.hands n = s.hands n) : Fares n s s' [] []
  /-- Its start has failed. -/
  | failed (going : s.desk.phase? n ≠ some .stopped) (stopped : s'.desk.phase? n = some .stopped)
      (unfed : s.desk.feed? n = none) (feed : s'.desk.feed? n = none)
      (hand : s'.hands n = s.hands n) : Fares n s s' [] []
  | stopped {reason : StopReason} (going : s.desk.phase? n ≠ some .stopped)
      (stopped : s'.desk.phase? n = some .stopped) (outside : reason ≠ .streamEnded)
      (feed : s'.desk.feed? n = s.desk.feed? n) (hand : s'.hands n = s.hands n) :
      Fares n s s' [reason] []
  /-- Its feed has ended and stops it. -/
  | ended (report : Report) (going : s.desk.phase? n ≠ some .stopped)
      (stopped : s'.desk.phase? n = some .stopped) (feed : s'.desk.feed? n = some (some report))
      (uncancelled : report.exit ≠ .cancelled) (hand : s'.hands n = none) :
      Fares n s s' [.streamEnded] []
  /-- Its feed finds the token fired. -/
  | cancelled (report : Report) (before : s.desk.phase? n = some .stopped)
      (stopped : s'.desk.phase? n = some .stopped) (going : s.desk.feed? n = some none)
      (feed : s'.desk.feed? n = some (some report)) (exit : report.exit = .cancelled)
      (hand : s'.hands n = none) : Fares n s s' [] []
  | lapsed {answer : Option Item} (report : Option Report)
      (before : s.desk.phase? n = some .stopped) (stopped : s'.desk.phase? n = some .stopped)
      (held : s.hands n ≠ none) (feed : s'.desk.feed? n = some report)
      (exit : (report.map (·.exit)).getD .cancelled = Pump.handoverExit answer)
      (hand : s'.hands n = none) : Fares n s s' [] [answer]
  | amid {reason : StopReason} {answer : Option Item} (report : Option Report)
      (going : s.desk.phase? n ≠ some .stopped) (stopped : s'.desk.phase? n = some .stopped)
      (outside : reason ≠ .streamEnded) (feed : s'.desk.feed? n = some report)
      (exit : (report.map (·.exit)).getD .cancelled = Pump.handoverExit answer)
      (hand : s'.hands n = none) : Fares n s s' [reason] [answer]

/-! ### What steps come to for a session -/

/-- A step that neither stops a session nor concerns its feed. -/
theorem fares_aside (phase : (s.step x).desk.phase? n = s.desk.phase? n)
    (feed : (s.step x).desk.feed? n = s.desk.feed? n)
    (hand : (s.step x).hands n ≠ none → s.hands n ≠ none) (early : s.lateOf n x = []) :
    Fares n s (s.step x) (s.reasonsOf n x) (s.lateOf n x) := by
  have unstopped : ¬ s.Stops n x := fun stops => stops.2.1 (phase.symm.trans stops.2.2)
  rw [reasonsOf_unstopped unstopped, early]
  exact .aside (by rw [phase]) feed hand

/-- A step at the feed of another session. -/
theorem fares_elsewhere (other : k ≠ n) {d' : Desk} {hand : Option Hand}
    (moved : s.step x = ({ s with desk := d' } : Midway).hold k hand)
    (tails : d'.tails[n]? = s.desk.tails[n]?) (early : s.lateOf n x = []) :
    Fares n s (s.step x) (s.reasonsOf n x) (s.lateOf n x) := by
  have htails : (s.step x).desk.tails[n]? = s.desk.tails[n]? := by
    rw [moved]
    exact tails
  have hhand : (s.step x).hands n = s.hands n := by
    rw [moved]
    exact hold_other (Ne.symm other) _
  exact fares_aside (phase?_same htails) (feed?_same htails) (by rw [hhand]; exact id) early

/-- A feed that goes on by itself while its session has not been stopped. -/
theorem fares_proceeds (other : x.isRequest = false) (hk : s.desk.key? n = some key)
    (going : s.desk.phase? n ≠ some .stopped) (h : Proceeds n key s.desk (s.step x).desk)
    {news : List (Key × Notice)} (log : (s.step x).desk.log = news ++ s.desk.log)
    (hand : (s.step x).hands n = none) (early : s.lateOf n x = []) :
    Fares n s (s.step x) (s.reasonsOf n x) (s.lateOf n x) := by
  cases h with
  | goes phase feed => exact fares_aside phase feed (absurd hand) early
  | ends report stopped feed uncancelled record =>
    rw [reasonsOf_stops ⟨other, going, stopped⟩ hk log record, early]
    exact .ended report going stopped feed uncancelled hand

/-- A feed that looks at the token of a session that has been stopped. -/
theorem fares_late (ht : s.desk.tails[n]? = some t) (stopped : t.session.phase = .stopped)
    (fired : t.session.cancelled = true) (still : (s.step x).desk.phase? n = some .stopped)
    (feed : (s.step x).desk.feed? n = (s.desk.look n).2.feed? n)
    (hand : (s.step x).hands n = none) (early : s.lateOf n x = []) :
    Fares n s (s.step x) (s.reasonsOf n x) (s.lateOf n x) := by
  have before : s.desk.phase? n = some .stopped := phase?_iff.mpr ⟨t, ht, stopped⟩
  rcases (look_late ht fired).2 with ⟨-, same⟩ | ⟨fed, report, hreport, exit⟩
  · exact fares_aside (still.trans before.symm) (feed.trans same) (absurd hand) early
  · have unstopped : ¬ s.Stops n x := fun stops => stops.2.1 before
    rw [reasonsOf_unstopped unstopped, early]
    exact .cancelled report before still fed (feed.trans hreport) exit hand

/-- A step that does not concern the feed of a session, and puts it on record if it stops the
session. -/
theorem fares_stopped (other : x.isRequest = false)
    (still : s.desk.phase? n = some .stopped → (s.step x).desk.phase? n = some .stopped)
    (feed : (s.step x).desk.feed? n = s.desk.feed? n) (hand : (s.step x).hands n = s.hands n)
    (early : s.lateOf n x = []) (record : s.desk.phase? n ≠ some .stopped →
      (s.step x).desk.phase? n = some .stopped → ∃ key reason news, s.desk.key? n = some key ∧
        reason ≠ .streamEnded ∧ (s.step x).desk.log = news ++ s.desk.log ∧
        (s.step x).desk.reasonsOn key = s.desk.reasonsOn key ++ [reason]) :
    Fares n s (s.step x) (s.reasonsOf n x) (s.lateOf n x) := by
  by_cases before : s.desk.phase? n = some .stopped
  · exact fares_aside ((still before).trans before.symm) feed (by rw [hand]; exact id) early
  by_cases after : (s.step x).desk.phase? n = some .stopped
  · obtain ⟨key, reason, news, hk, outside, log, hrecord⟩ := record before after
    rw [reasonsOf_stops ⟨other, before, after⟩ hk log hrecord, early]
    exact .stopped before after outside feed hand
  · rw [reasonsOf_unstopped fun stops => after stops.2.2, early]
    exact .aside (iff_of_false after before) feed (by rw [hand]; exact id)

/-- A move that is not a pull of the feed. -/
theorem fares_moved (hs : s.desk.Steady)
    (still : s.desk.phase? n = some .stopped → (s.step x).desk.phase? n = some .stopped) {m : Move}
    (moved : s.step x = { s with desk := s.desk.move m }) (unpulled : m ≠ .pull n)
    (request : x.isRequest = m.isRequest) (early : s.lateOf n x = []) :
    Fares n s (s.step x) (s.reasonsOf n x) (s.lateOf n x) := by
  have hdesk : (s.step x).desk = s.desk.move m := by rw [moved]
  have hhand : (s.step x).hands n = s.hands n := by rw [moved]
  have hfeed := hs.move_feed? unpulled
  rw [← hdesk] at hfeed
  rcases hfeed with same | ⟨unfed, fed, going, running⟩
  · cases other : m.isRequest with
    | false =>
      refine fares_stopped (request.trans other) still same hhand early fun before after => ?_
      rw [hdesk] at after ⊢
      obtain ⟨key, hk⟩ := key?_of_works (move_works other s.desk) after
      obtain ⟨reason, outside, record⟩ := hs.move_reason hk other unpulled before after
      obtain ⟨news, log, -⟩ := aside_tells other s.desk
      exact ⟨key, reason, news, hk, outside, log, record⟩
    | true =>
      by_cases changed : (s.step x).desk.phase? n = s.desk.phase? n
      · exact fares_aside changed same (by rw [hhand]; exact id) early
      have unstopped : ¬ s.Stops n x := by
        rintro ⟨aside, -⟩
        rw [request, other] at aside
        cases aside
      have unfed : s.desk.feed? n = none := by
        by_contra fed
        exact changed ((congrArg (Desk.phase? n) hdesk).trans (hs.request_phase? other fed))
      rw [reasonsOf_unstopped unstopped, early]
      by_cases after : (s.step x).desk.phase? n = some .stopped
      · have before : s.desk.phase? n ≠ some .stopped :=
          fun before => changed (after.trans before.symm)
        exact .failed before after unfed (same.trans unfed) hhand
      · exact .aside (iff_of_false after (mt still after)) same (by rw [hhand]; exact id)
  · have unstopped : ¬ s.Stops n x := by
      rintro ⟨-, -, stopped⟩
      rw [running] at stopped
      cases stopped
    rw [reasonsOf_unstopped unstopped, early]
    exact .begun going running unfed fed hhand

/-- A pull that nothing comes in between of. -/
theorem fares_pulled (hr : s.desk.Regular) (empty : s.hands n = none)
    (moved : s.step x = { s with desk := s.desk.pull n }) (other : x.isRequest = false)
    (still : s.desk.phase? n = some .stopped → (s.step x).desk.phase? n = some .stopped)
    (early : s.lateOf n x = []) : Fares n s (s.step x) (s.reasonsOf n x) (s.lateOf n x) := by
  have hdesk : (s.step x).desk = s.desk.pull n := by rw [moved]
  have hhand : (s.step x).hands n = none := by rw [moved]; exact empty
  cases ht : s.desk.tails[n]? with
  | none =>
    have idle : s.desk.pull n = s.desk := by simp [pull, Desk.look, feeding?, ht]
    rw [idle] at hdesk
    exact fares_aside (by rw [hdesk]) (by rw [hdesk]) (absurd hhand) early
  | some t =>
    have orderly := hr t (List.mem_of_getElem? ht)
    by_cases stopped : t.session.phase = .stopped
    · have fired := orderly.fired.mpr stopped
      have hpull := pull_of_look (look_late ht fired).1
      exact fares_late ht stopped fired (still (phase?_iff.mpr ⟨t, ht, stopped⟩))
        (by rw [hdesk, hpull]) hhand early
    · have going : s.desk.phase? n ≠ some .stopped := by simp [phase?, ht, stopped]
      have unfired : t.session.cancelled = false := by
        rw [← Bool.not_eq_true]
        exact mt orderly.fired.mp stopped
      have hproceeds := pull_proceeds ht stopped unfired
      obtain ⟨news, log, -⟩ := Tells.pull (P := fun _ => True) (fun _ => trivial)
        (fun _ _ _ => trivial) n s.desk
      rw [← hdesk] at hproceeds log
      exact fares_proceeds other (key?_iff.mpr ⟨t, ht, rfl⟩) going hproceeds log hhand early

theorem fares_looked (hr : s.desk.Regular)
    (moved : s.step (.look k) = ({ s with desk := (s.desk.look k).2 } : Midway).hold k
      (if (s.desk.look k).1 then some .looked else none))
    (still : s.desk.phase? n = some .stopped →
      (s.step (.look k)).desk.phase? n = some .stopped) :
    Fares n s (s.step (.look k)) (s.reasonsOf n (.look k)) (s.lateOf n (.look k)) := by
  have hdesk : (s.step (.look k)).desk = (s.desk.look k).2 := by rw [moved]; rfl
  have early : s.lateOf n (.look k) = [] := lateOf_early rfl
  by_cases hn : k = n
  · subst hn
    have hhand : (s.step (.look k)).hands k = if (s.desk.look k).1 then some .looked else none := by
      rw [moved]
      exact hold_self _
    by_cases before : s.desk.phase? k = some .stopped
    · obtain ⟨t, ht, stopped⟩ := phase?_iff.mp before
      have fired := (hr t (List.mem_of_getElem? ht)).fired.mpr stopped
      rw [(look_late ht fired).1] at hhand
      exact fares_late ht stopped fired (still before) (by rw [hdesk]) hhand early
    · have hlooks := look_looks k s.desk
      generalize s.desk.look k = looked at hlooks hhand hdesk
      cases hlooks with
      | idle => exact fares_aside (by rw [hdesk]) (by rw [hdesk]) (absurd hhand) early
      | @ended t f feeding fired =>
        obtain ⟨ht, -, -⟩ := feeding?_eq_some.mp feeding
        have stopped := (hr t (List.mem_of_getElem? ht)).fired.mp fired
        exact absurd (phase?_iff.mpr ⟨t, ht, stopped⟩) before
      | @goes t f feeding =>
        obtain ⟨ht, hf, going⟩ := feeding?_eq_some.mp feeding
        have fed : s.desk.feed? k = some none := feed?_eq_some.mpr ⟨t, f, ht, hf, going⟩
        have unstopped : ¬ s.Stops k (.look k) := by
          rintro ⟨-, -, after⟩
          rw [hdesk] at after
          exact before after
        rw [reasonsOf_unstopped unstopped, early]
        exact .looked (by rw [hdesk]; exact before) before (by rw [hdesk]) (by rw [hdesk]; exact fed)
  · exact fares_elsewhere hn moved (look_other hn s.desk) early

theorem fares_received {answer : Option Item} (hr : s.desk.Regular)
    (hand : s.hands k = some (.found answer)) (held : s.hands n ≠ none → s.desk.feed? n = some none)
    (moved : s.step (.receive k) =
      ({ s with desk := s.desk.receive k answer } : Midway).hold k none) :
    Fares n s (s.step (.receive k)) (s.reasonsOf n (.receive k)) (s.lateOf n (.receive k)) := by
  have hdesk : (s.step (.receive k)).desk = s.desk.receive k answer := by rw [moved]; rfl
  by_cases hn : k = n
  · subst hn
    have hhand : (s.step (.receive k)).hands k = none := by rw [moved]; exact hold_self _
    obtain ⟨t, f, ht, hf, going⟩ := feed?_eq_some.mp (held (by simp [hand]))
    have hlength : k < s.desk.tails.length := (List.getElem?_eq_some_iff.mp ht).1
    have orderly := hr t (List.mem_of_getElem? ht)
    by_cases stopped : t.session.phase = .stopped
    · have before : s.desk.phase? k = some .stopped := phase?_iff.mpr ⟨t, ht, stopped⟩
      have hlapses := receive_lapses (feeding?_eq_some.mpr ⟨ht, hf, going⟩) stopped
        (orderly.fired.mpr stopped) answer
      rw [← hdesk] at hlapses
      obtain ⟨report, hfeed, exit⟩ := hlapses.feed_told hlength
      have unstopped : ¬ s.Stops k (.receive k) := fun stops => stops.2.1 before
      have late : s.lateOf k (.receive k) = [answer] := by simp [lateOf, hand, takesLate, before]
      rw [reasonsOf_unstopped unstopped, late]
      exact .lapsed report before ((hlapses.phase_kept hlength).trans (congrArg some stopped))
        (by simp [hand]) hfeed exit hhand
    · have unfired : t.session.cancelled = false := by
        rw [← Bool.not_eq_true]
        exact mt orderly.fired.mp stopped
      have before : s.desk.phase? k ≠ some .stopped := by simp [phase?, ht, stopped]
      have hproceeds := receive_proceeds ht stopped unfired answer
      obtain ⟨news, log, -⟩ := Tells.receive (P := fun _ => True) (fun _ => trivial)
        (fun _ _ _ => trivial) k answer s.desk
      rw [← hdesk] at hproceeds log
      exact fares_proceeds rfl (key?_iff.mpr ⟨t, ht, rfl⟩) before hproceeds log hhand
        (lateOf_early (by simp [takesLate, before]))
  · exact fares_elsewhere hn moved (receive_other hn answer s.desk)
      (lateOf_early (by simp [takesLate, hn]))

/-- A stop of a session, or of another, while its feed has nothing in hand. -/
theorem fares_stopAmid {trigger : Trigger} (hs : s.desk.Steady)
    (listed : KeyMap.get? key s.desk.roster = some k)
    (unfound : ∀ answer, s.hands k ≠ some (.found answer))
    (moved : s.step (.stopAmid key trigger) =
      { s with desk := (s.desk.stopKey key trigger.reason).2 })
    (still : s.desk.phase? n = some .stopped →
      (s.step (.stopAmid key trigger)).desk.phase? n = some .stopped) :
    Fares n s (s.step (.stopAmid key trigger)) (s.reasonsOf n (.stopAmid key trigger))
      (s.lateOf n (.stopAmid key trigger)) := by
  have hdesk : (s.step (.stopAmid key trigger)).desk = (s.desk.stopKey key trigger.reason).2 := by
    rw [moved]
  have hfeed : (s.step (.stopAmid key trigger)).desk.feed? n = s.desk.feed? n := by
    rw [hdesk]
    exact (feed?_teardowns n).stopKey key trigger.reason s.desk
  have early : s.lateOf n (.stopAmid key trigger) = [] := by
    by_cases hn : k = n
    · subst hn
      exact lateOf_unfound unfound
    · exact lateOf_early (by simp [takesLate, listed, hn])
  refine fares_stopped rfl still hfeed (by rw [moved]) early fun before after => ?_
  rw [hdesk] at after ⊢
  obtain ⟨other, hk⟩ := key?_of_works (works_teardowns.stopKey key trigger.reason s.desk) after
  obtain ⟨news, log, -⟩ := (Tells.keyStops (P := fun _ => True) fun _ => trivial).stopKey key s.desk
  cases ((keyStops_hits n other trigger.reason).stopKey key s.desk hs hk).2.2 with
  | hit _ _ _ record => exact ⟨other, trigger.reason, news, hk, trigger.outside, log, record⟩
  | spared _ phase | passed _ _ phase => exact absurd (phase.symm.trans after) before

theorem fares_amid {trigger : Trigger} {answer : Option Item} (hr : s.desk.Regular)
    (listed : KeyMap.get? key s.desk.roster = some k) (hand : s.hands k = some (.found answer))
    (held : s.hands n ≠ none → s.desk.feed? n = some none)
    (moved : s.step (.stopAmid key trigger) =
      ({ s with desk := s.desk.teardownAmid k trigger.reason answer } : Midway).hold k none) :
    Fares n s (s.step (.stopAmid key trigger)) (s.reasonsOf n (.stopAmid key trigger))
      (s.lateOf n (.stopAmid key trigger)) := by
  have hdesk : (s.step (.stopAmid key trigger)).desk =
      s.desk.teardownAmid k trigger.reason answer := by
    rw [moved]
    rfl
  by_cases hn : k = n
  · subst hn
    have hhand : (s.step (.stopAmid key trigger)).hands k = none := by rw [moved]; exact hold_self _
    have fed := held (by simp [hand])
    obtain ⟨t, -, ht, -⟩ := feed?_eq_some.mp fed
    obtain ⟨after, ⟨report, hfeed, exit⟩, news, log, record⟩ :=
      hr.teardownAmid_lapses ht fed trigger.reason answer
    rw [← hdesk] at after hfeed log record
    have late : s.lateOf k (.stopAmid key trigger) = [answer] := by
      simp [lateOf, hand, takesLate, listed]
    rw [late]
    by_cases before : s.desk.phase? k = some .stopped
    · have unstopped : ¬ s.Stops k (.stopAmid key trigger) := fun stops => stops.2.1 before
      rw [reasonsOf_unstopped unstopped]
      exact .lapsed report before after (by simp [hand]) hfeed exit hhand
    · have going : t.session.phase ≠ .stopped := by
        intro stopped
        exact before (phase?_iff.mpr ⟨t, ht, stopped⟩)
      rw [if_neg going] at record
      rw [reasonsOf_stops ⟨rfl, before, after⟩ (key?_iff.mpr ⟨t, ht, rfl⟩) log record]
      exact .amid report before after trigger.outside hfeed exit hhand
  · exact fares_elsewhere hn moved (teardownAmid_other hn trigger.reason answer s.desk)
      (lateOf_early (by simp [takesLate, listed, hn]))

/-- What any step comes to for a session that nobody but the desk stops. -/
theorem step_fares (hs : s.desk.Steady) (hr : s.desk.Regular)
    (held : s.hands n ≠ none → s.desk.feed? n = some none)
    (spared : ∀ key, x = .meet (.halt key) → KeyMap.get? key s.desk.roster = some n →
      s.desk.phase? n = some .stopped) :
    Fares n s (s.step x) (s.reasonsOf n x) (s.lateOf n x) := by
  have hgoes := s.step_goes x
  have still (before : s.desk.phase? n = some .stopped) :
      (s.step x).desk.phase? n = some .stopped := (step_passage hs hr x).stopped hr before
  generalize moved : s.step x = s' at hgoes
  have hcase (h : Fares n s (s.step x) (s.reasonsOf n x) (s.lateOf n x)) :
      Fares n s s' (s.reasonsOf n x) (s.lateOf n x) := moved ▸ h
  refine hcase ?_
  cases hgoes with
  | still unmet unfound unheld =>
    refine fares_aside (by rw [moved]) (by rw [moved]) (by rw [moved]; exact id) ?_
    cases x with
    | receive k =>
      by_cases hn : k = n
      · subst hn
        exact lateOf_unfound (unfound k rfl)
      · exact lateOf_early (by simp [takesLate, hn])
    | stopAmid key trigger => exact lateOf_early (by simp [takesLate, unheld key trigger rfl])
    | _ => exact lateOf_early rfl
  | @met i free =>
    cases i with
    | unlist key =>
      exact fares_aside (by rw [moved]; rfl) (by rw [moved]; rfl) (by rw [moved]; exact id)
        (lateOf_early rfl)
    | halt key =>
      exact fares_aside (by rw [moved]; exact halt_phase? (spared key rfl))
        (by rw [moved]; exact halt_feed? key s.desk n) (by rw [moved]; exact id) (lateOf_early rfl)
    | move m =>
      by_cases pulled : m = .pull n
      · subst pulled
        have empty : s.hands n = none := by simpa [isBusy] using free
        exact fares_pulled hr empty moved rfl still (lateOf_early rfl)
      · exact fares_moved hs still moved pulled rfl (lateOf_early rfl)
  | looked => exact fares_looked hr moved still
  | @fetched k heeds hand =>
    obtain ⟨phase, feed⟩ := fetch_same k heeds s.desk n
    refine fares_aside (by rw [moved]; exact phase) (by rw [moved]; exact feed) ?_ (lateOf_early rfl)
    rw [moved]
    by_cases hn : n = k
    · subst hn
      simp [hand]
    · rw [hold_other hn]
      exact id
  | received hand => exact fares_received hr hand held moved
  | stopped listed unfound => exact fares_stopAmid hs listed unfound moved still
  | amid listed hand => exact fares_amid hr listed hand held moved

/-- How the reason for a stop accounts for how the feed has ended or will end, by what it took
after the stop. -/
inductive Accounts : StopReason → List (Option Item) → Option Report → Prop where
  | ended {report : Report} (uncancelled : report.exit ≠ .cancelled) :
      Accounts .streamEnded [] (some report)
  | cancelled {reason : StopReason} {report : Option Report} (outside : reason ≠ .streamEnded)
      (exit : (report.map (·.exit)).getD .cancelled = .cancelled) : Accounts reason [] report
  | lapsed {reason : StopReason} {answer : Option Item} {report : Option Report}
      (outside : reason ≠ .streamEnded)
      (exit : (report.map (·.exit)).getD .cancelled = Pump.handoverExit answer) :
      Accounts reason [answer] report

namespace Accounts

variable {reason : StopReason} {late : List (Option Item)}

theorem outside (h : Accounts reason late none) : reason ≠ .streamEnded := by
  cases h with
  | cancelled outside | lapsed outside => exact outside

theorem cancels (h : Accounts reason late none) {report : Report} (exit : report.exit = .cancelled) :
    Accounts reason late (some report) := by
  cases h with
  | cancelled outside => exact .cancelled outside exit
  | lapsed outside handed => exact .lapsed outside (exit.trans handed)

end Accounts

/-- The stop of a session has no reason on record before it, and one afterwards, which accounts
for how its feed ends. -/
structure Agrees (n : Nat) (reasons : List StopReason) (late : List (Option Item)) (s : Midway) :
    Prop where
  unstopped : s.desk.phase? n ≠ some .stopped →
    reasons = [] ∧ late = [] ∧ ∀ report, s.desk.feed? n = some report → report = none
  held : s.hands n ≠ none → s.desk.feed? n = some none ∧ late = []
  stopped : s.desk.phase? n = some .stopped → ∀ report, s.desk.feed? n = some report →
    ∃ reason, reasons = [reason] ∧ Accounts reason late report

namespace Agrees

variable {reasons added : List StopReason} {late taken : List (Option Item)}

/-- What is left to show of a session that has stopped, with nothing in hand. -/
theorem of_stopped {reason : StopReason} {report : Option Report}
    (stopped : s'.desk.phase? n = some .stopped) (feed : s'.desk.feed? n = some report)
    (hand : s'.hands n = none) (accounts : Accounts reason late report) :
    Agrees n [reason] late s' where
  unstopped going := absurd stopped going
  held held := absurd hand held
  stopped _ report' hreport := by
    rw [feed, Option.some.injEq] at hreport
    exact ⟨reason, rfl, hreport ▸ accounts⟩

theorem fares (h : Agrees n reasons late s) (fares : Fares n s s' added taken) :
    Agrees n (reasons ++ added) (late ++ taken) s' := by
  cases fares with
  | aside stopped feed hand =>
    rw [List.append_nil, List.append_nil]
    exact {
      unstopped := fun going => by rw [feed]; exact h.unstopped (mt stopped.mpr going)
      held := fun held => by rw [feed]; exact h.held (hand held)
      stopped := fun hs => by rw [feed]; exact h.stopped (stopped.mp hs) }
  | looked going before same feed =>
    rw [List.append_nil, List.append_nil]
    have hbefore := h.unstopped before
    exact {
      unstopped := fun _ => by rw [same]; exact hbefore
      held := fun _ => ⟨feed, hbefore.2.1⟩
      stopped := fun hs => absurd hs going }
  | begun going running unfed feed hand =>
    rw [List.append_nil, List.append_nil]
    obtain ⟨hreasons, hlate, -⟩ := h.unstopped going
    refine ⟨fun _ => ⟨hreasons, hlate, fun report hreport => ?_⟩, fun held => ⟨feed, hlate⟩,
      fun hs => ?_⟩
    · rw [feed] at hreport
      exact (Option.some.inj hreport).symm
    · rw [running] at hs
      cases hs
  | failed going stopped unfed feed hand =>
    rw [List.append_nil, List.append_nil]
    refine ⟨fun hs => absurd stopped hs, fun held => ?_, fun _ report hreport => ?_⟩
    · obtain ⟨fed, -⟩ := h.held (hand ▸ held)
      rw [unfed] at fed
      cases fed
    · rw [feed] at hreport
      cases hreport
  | @stopped reason going stopped outside feed hand =>
    obtain ⟨hreasons, hlate, unended⟩ := h.unstopped going
    subst hreasons hlate
    refine ⟨fun hs => absurd stopped hs, fun held => ?_, fun _ report hreport => ⟨reason, rfl, ?_⟩⟩
    · rw [feed]
      exact h.held (hand ▸ held)
    · rw [feed] at hreport
      obtain rfl := unended report hreport
      exact .cancelled outside rfl
  | ended report going stopped feed uncancelled hand =>
    obtain ⟨rfl, rfl, -⟩ := h.unstopped going
    exact of_stopped stopped feed hand (.ended uncancelled)
  | cancelled report before stopped fed feed exit hand =>
    obtain ⟨reason, rfl, haccounts⟩ := h.stopped before none fed
    rw [List.append_nil, List.append_nil]
    exact of_stopped stopped feed hand (haccounts.cancels exit)
  | lapsed report before stopped held feed exit hand =>
    obtain ⟨fed, rfl⟩ := h.held held
    obtain ⟨reason, rfl, haccounts⟩ := h.stopped before none fed
    rw [List.append_nil]
    exact of_stopped stopped feed hand (.lapsed haccounts.outside exit)
  | amid report going stopped outside feed exit hand =>
    obtain ⟨rfl, rfl, -⟩ := h.unstopped going
    exact of_stopped stopped feed hand (.lapsed outside exit)

theorem steps (h : Agrees n reasons late s) (hs : s.desk.Steady) (hr : s.desk.Regular)
    (xs : List Step) (spared : s.Spared n xs) :
    Agrees n (reasons ++ s.reasons n xs) (late ++ s.late n xs) (s.steps xs) := by
  induction xs generalizing s reasons late with
  | nil =>
    rw [Midway.reasons, Midway.late, List.append_nil, List.append_nil]
    exact h
  | cons x xs ih =>
    obtain ⟨unhalted, spared⟩ := spared
    have hfares := step_fares hs hr (fun held => (h.held held).1) unhalted
    have hrest := ih (h.fares hfares) (steady_step hs x) (step_passage hs hr x).regular spared
    rw [List.append_assoc, List.append_assoc] at hrest
    exact hrest

end Agrees

/-- Where only the desk itself acts, nobody else stops a session. -/
theorem spared_of_own {xs : List Step} (own : ∀ x ∈ xs, x.isOwn = true) : s.Spared n xs := by
  induction xs generalizing s with
  | nil => trivial
  | cons x xs ih =>
    refine ⟨fun key he => ?_, ih fun y hy => own y (List.mem_cons_of_mem x hy)⟩
    have hown := own x List.mem_cons_self
    rw [he] at hown
    cases hown

end Midway

end LogTail
