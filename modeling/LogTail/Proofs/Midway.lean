import LogTail.Proofs.Cut
import LogTail.Proofs.Elapsed

/-!
# Pulls left in the middle

A pull looks at the token, asks the stream and takes what it was handed, and between these
stages anything may happen, a stop of the session included. What a feed has in hand may even
be taken while its session is being stopped, when the token has fired and the document is not
cleared yet. A run in which nothing comes in between is a run of incidents.
-/
namespace LogTail

/-- What the pull of a feed has come to that was left in the middle. -/
inductive Hand where
  /-- The token had not fired; the stream is asked next. -/
  | looked
  /-- The stream has handed over an item, or its end. -/
  | found (answer : Option Item)
  deriving DecidableEq, Repr

/-- A desk some of whose feeds are in the middle of a pull. -/
structure Midway where
  desk : Desk
  hands : Nat → Option Hand := fun _ => none

/-- Who stops a session, apart from its own feed. -/
inductive Trigger where
  | request
  | views
  | shutdown
  deriving DecidableEq, Repr

def Trigger.reason : Trigger → StopReason
  | request => .explicit
  | views => .viewsClosed
  | shutdown => .shutdown

theorem Trigger.outside (trigger : Trigger) : trigger.reason ≠ .streamEnded := by
  cases trigger <;> decide

inductive Step where
  /-- A feed does not begin a pull while it is in the middle of one. -/
  | meet (i : Incident)
  | look (session : Nat)
  | fetch (session : Nat) (heeds : Bool)
  | receive (session : Nat)
  /-- The session of a key is stopped while its feed takes what it has in hand, if it has
  something. -/
  | stopAmid (key : Key) (trigger : Trigger)
  deriving Repr

namespace Step

/-- A request to start a session, or an answer to one. -/
def isRequest : Step → Bool
  | meet (.move m) => m.isRequest
  | _ => false

/-- Nobody but the desk itself acts. -/
def isOwn : Step → Bool
  | meet (.unlist _) | meet (.halt _) => false
  | _ => true

end Step

/-- Tears a session down whose feed takes what it has in hand once the token has fired, before
the session is taken off the roster and its document is cleared. -/
def Desk.teardownAmid (n : Nat) (reason : StopReason) (answer : Option Item) (d : Desk) : Desk :=
  match d.tails[n]? with
  | none => d
  | some t =>
    let (first, d) := d.stopSession n
    let d := (d.receive n answer).unlist t.key n
    if first then d.settle t.key reason else d

namespace Midway

def ofDesk (d : Desk) : Midway := { desk := d }

def hold (n : Nat) (hand : Option Hand) (s : Midway) : Midway :=
  { s with hands := fun m => if m = n then hand else s.hands m }

/-- Whether an incident is a pull of a feed that is in the middle of one. -/
def isBusy (i : Incident) (s : Midway) : Bool :=
  match i with
  | .move (.pull n) => (s.hands n).isSome
  | _ => false

def look (n : Nat) (s : Midway) : Midway :=
  if (s.hands n).isSome then s
  else
    let (goes, desk) := s.desk.look n
    ({ s with desk } : Midway).hold n (if goes then some .looked else none)

def fetch (n : Nat) (heeds : Bool) (s : Midway) : Midway :=
  match s.hands n with
  | some .looked =>
    let (answer, desk) := s.desk.fetch n heeds
    ({ s with desk } : Midway).hold n (answer.map .found)
  | _ => s

def receive (n : Nat) (s : Midway) : Midway :=
  match s.hands n with
  | some (.found answer) => ({ s with desk := s.desk.receive n answer } : Midway).hold n none
  | _ => s

def stopAmid (key : Key) (trigger : Trigger) (s : Midway) : Midway :=
  match KeyMap.get? key s.desk.roster with
  | none => s
  | some n =>
    match s.hands n with
    | some (.found answer) =>
      ({ s with desk := s.desk.teardownAmid n trigger.reason answer } : Midway).hold n none
    | _ => { s with desk := (s.desk.teardown n trigger.reason).2 }

def step : Step → Midway → Midway
  | .meet i, s => if s.isBusy i then s else { s with desk := s.desk.meet i }
  | .look n, s => s.look n
  | .fetch n heeds, s => s.fetch n heeds
  | .receive n, s => s.receive n
  | .stopAmid key trigger, s => s.stopAmid key trigger

def steps (xs : List Step) (s : Midway) : Midway := xs.foldl (fun s x => s.step x) s

/-- A step stops a session, and not because its start has failed. -/
def Stops (n : Nat) (x : Step) (s : Midway) : Prop :=
  x.isRequest = false ∧ s.desk.phase? n ≠ some .stopped ∧ (s.step x).desk.phase? n = some .stopped

instance (n : Nat) (x : Step) (s : Midway) : Decidable (s.Stops n x) :=
  inferInstanceAs (Decidable (_ ∧ _ ∧ _))

variable {s : Midway} {d : Desk} {n : Nat} {t : Tail} {key : Key}

@[simp] theorem steps_nil (s : Midway) : s.steps [] = s := rfl

@[simp] theorem steps_cons (x : Step) (xs : List Step) (s : Midway) :
    s.steps (x :: xs) = (s.step x).steps xs := rfl

@[simp] theorem hold_desk (hand : Option Hand) : (s.hold n hand).desk = s.desk := rfl

@[simp] theorem hold_self (hand : Option Hand) : (s.hold n hand).hands n = hand := by
  simp [hold]

theorem hold_other {m : Nat} (other : m ≠ n) (hand : Option Hand) :
    (s.hold n hand).hands m = s.hands m := by
  simp [hold, other]

theorem hold_same {hand : Option Hand} (same : s.hands n = hand) : s.hold n hand = s := by
  have hhands : (fun m => if m = n then hand else s.hands m) = s.hands := by
    funext m
    split
    · rename_i he
      rw [he, same]
    · rfl
  rw [hold, hhands]

theorem hold_hold (hand hand' : Option Hand) : (s.hold n hand).hold n hand' = s.hold n hand' := by
  have hhands : (fun m => if m = n then hand' else if m = n then hand else s.hands m) =
      fun m => if m = n then hand' else s.hands m := by
    funext m
    split <;> rfl
  simp only [hold, hhands]

/-- Incidents that nothing comes in between leave no pull in the middle. -/
theorem steps_meet (is : List Incident) (d : Desk) :
    (ofDesk d).steps (is.map .meet) = ofDesk (d.meets is) := by
  induction is generalizing d with
  | nil => rfl
  | cons i is ih =>
    have hstep : (ofDesk d).step (.meet i) = ofDesk (d.meet i) := by
      have free : (ofDesk d).isBusy i = false := by
        cases i with
        | move m => cases m <;> rfl
        | unlist | halt => rfl
      simp only [step, free, Bool.false_eq_true, if_false]
      rfl
    rw [List.map_cons, steps_cons, hstep, ih]
    rfl

/-- The stages of a pull, one right after the other, are the pull. -/
theorem steps_pull (empty : s.hands n = none) :
    s.steps [.look n, .fetch n true, .receive n] = s.step (.meet (.move (.pull n))) := by
  have free : s.isBusy (.move (.pull n)) = false := by simp [isBusy, empty]
  have hlook : s.step (.look n) = ({ s with desk := (s.desk.look n).2 } : Midway).hold n
      (if (s.desk.look n).1 then some .looked else none) := by
    simp [step, look, empty]
  have hpull : s.step (.meet (.move (.pull n))) = { s with desk := s.desk.pull n } := by
    simp [step, free, Desk.meet, Desk.move]
  rw [hpull, steps_cons, hlook]
  cases looked : s.desk.look n with
  | mk goes d =>
  cases goes with
  | false =>
    have hdesk : s.desk.pull n = d := by simp [Desk.pull, looked]
    rw [hdesk]
    simp only [Bool.false_eq_true, if_false]
    rw [hold_same (s := { s with desk := d }) empty]
    simp [step, fetch, receive, empty]
  | true =>
    cases fetched : d.fetch n true with
    | mk answer d' =>
    have hfetch : (({ s with desk := d } : Midway).hold n (some .looked)).step (.fetch n true) =
        ({ s with desk := d' } : Midway).hold n (answer.map .found) := by
      simp only [step, fetch, hold_self, hold_desk, fetched]
      exact hold_hold (s := { s with desk := d' }) _ _
    simp only [if_true, steps_cons, hfetch, steps_nil]
    cases answer with
    | none =>
      have hdesk : s.desk.pull n = d' := by simp [Desk.pull, looked, fetched]
      rw [hdesk, Option.map_none, hold_same (s := { s with desk := d' }) empty]
      simp [step, receive, empty]
    | some answer =>
      have hdesk : s.desk.pull n = d'.receive n answer := by simp [Desk.pull, looked, fetched]
      rw [hdesk]
      simp only [step, receive, Option.map_some, hold_self, hold_desk]
      exact (hold_hold (s := { s with desk := d'.receive n answer }) _ _).trans
        (hold_same (s := { s with desk := d'.receive n answer }) empty)

/-- What a step comes to. -/
inductive Goes (s : Midway) : Step → Midway → Prop where
  /-- The feed is not at that stage, or no session holds the key. -/
  | still {x : Step} (unmet : ∀ i, x = .meet i → s.isBusy i = true)
      (unfound : ∀ n, x = .receive n → ∀ answer, s.hands n ≠ some (.found answer))
      (unheld : ∀ key trigger, x = .stopAmid key trigger → KeyMap.get? key s.desk.roster = none) :
      Goes s x s
  | met {i : Incident} (free : s.isBusy i = false) :
      Goes s (.meet i) { s with desk := s.desk.meet i }
  | looked {n : Nat} (empty : s.hands n = none) :
      Goes s (.look n) (({ s with desk := (s.desk.look n).2 } : Midway).hold n
        (if (s.desk.look n).1 then some .looked else none))
  | fetched {n : Nat} {heeds : Bool} (hand : s.hands n = some .looked) :
      Goes s (.fetch n heeds) (({ s with desk := (s.desk.fetch n heeds).2 } : Midway).hold n
        ((s.desk.fetch n heeds).1.map .found))
  | received {n : Nat} {answer : Option Item} (hand : s.hands n = some (.found answer)) :
      Goes s (.receive n) (({ s with desk := s.desk.receive n answer } : Midway).hold n none)
  | stopped {key : Key} {trigger : Trigger} {n : Nat}
      (held : KeyMap.get? key s.desk.roster = some n)
      (unfound : ∀ answer, s.hands n ≠ some (.found answer)) :
      Goes s (.stopAmid key trigger) { s with desk := (s.desk.stopKey key trigger.reason).2 }
  | amid {key : Key} {trigger : Trigger} {n : Nat} {answer : Option Item}
      (held : KeyMap.get? key s.desk.roster = some n) (hand : s.hands n = some (.found answer)) :
      Goes s (.stopAmid key trigger)
        (({ s with desk := s.desk.teardownAmid n trigger.reason answer } : Midway).hold n none)

theorem step_goes (s : Midway) (x : Step) : Goes s x (s.step x) := by
  cases x with
  | meet i =>
    simp only [step]
    split
    · rename_i busy
      refine .still (fun j he => ?_) nofun nofun
      cases he
      exact busy
    · rename_i free
      exact .met (by simpa using free)
  | look n =>
    simp only [step, look]
    split
    · exact .still nofun nofun nofun
    · rename_i empty
      exact .looked (by simpa using empty)
  | fetch n heeds =>
    simp only [step, fetch]
    split
    · exact .fetched ‹_›
    · exact .still nofun nofun nofun
  | receive n =>
    simp only [step, receive]
    split
    · exact .received ‹_›
    · rename_i unfound
      refine .still nofun (fun m he answer => ?_) nofun
      cases he
      exact unfound answer
  | stopAmid key trigger =>
    simp only [step, stopAmid]
    split
    · rename_i unheld
      refine .still nofun nofun fun k _ he => ?_
      cases he
      exact unheld
    · rename_i n held
      split
      · exact .amid held ‹_›
      · rename_i unfound
        have hstop : s.desk.stopKey key trigger.reason = s.desk.teardown n trigger.reason := by
          simp [Desk.stopKey, held]
        rw [← hstop]
        exact .stopped held unfound

end Midway

namespace Desk

variable {d : Desk} {n : Nat} {t : Tail} {reason : StopReason}

theorem stopSession_eq (ht : d.tails[n]? = some t) : d.stopSession n =
    ((t.session.stop d.now).1, d.put n { t with session := (t.session.stop d.now).2 }) := by
  simp [stopSession, ht]

/-- The desk once the token of a session has fired. -/
def fire (n : Nat) (t : Tail) (d : Desk) : Desk :=
  d.put n { t with session := (t.session.stop d.now).2 }

theorem teardownAmid_eq (ht : d.tails[n]? = some t) (answer : Option Item) :
    d.teardownAmid n reason answer =
      let d' := ((d.fire n t).receive n answer).unlist t.key n
      if (t.session.stop d.now).1 then d'.settle t.key reason else d' := by
  simp only [teardownAmid, ht, stopSession_eq ht]
  rfl

/-! ### What is taken after the stop -/

/-- A feed that ends when its session has stopped leaves its report, and the session is off the
roster. -/
theorem endFeed_late (ht : d.tails[n]? = some t) (stopped : t.session.phase = .stopped) (f : Feed)
    (exit : Exit) : d.endFeed n t f exit = { d with
      channels := Channel.release f.stream.channel? d.channels
      roster := (d.roster.removeInstance t.key n).2
      tails := d.tails.set n { t with feed := some { f with report := some ⟨exit, f.tally⟩ } } } := by
  have hn : n < d.tails.length := (List.getElem?_eq_some_iff.mp ht).1
  simp [endFeed, teardown, put, stopSession, unlist, List.getElem?_set_self hn,
    Session.stop_stopped d.now stopped, Tail.key]

/-- What taking an answer comes to once the session has stopped: it shows in the report of the
feed, and of an update without entries in the record, but in no document. -/
inductive Lapses (n : Nat) (t : Tail) (answer : Option Item) (d : Desk) : Desk → Prop where
  | mk {f : Feed} {channels : List Channel} {workspace : Workspace} {roster : Roster}
      {news : List (Key × Notice)}
      (exit : (f.report.map (·.exit)).getD .cancelled = Pump.handoverExit answer)
      (empty : ∀ sampled records, answer = some (.frame (.update sampled records)) →
        f.report = none → entriesOf records = [])
      (lines : ∀ key, workspace.lines? key = d.workspace.lines? key)
      (off : roster = d.roster ∨ roster = (d.roster.removeInstance t.key n).2)
      (record : ∀ e ∈ news, ∃ sampled count, e = (t.key, .update sampled count)) :
      Lapses n t answer d { d with
        channels
        workspace
        roster
        tails := d.tails.set n { t with feed := some f }
        log := news ++ d.log }

/-- An item that is taken once the token has fired. -/
theorem takeItem_lapses {f : Feed} (ht : d.tails[n]? = some t) (going : f.report = none)
    (stopped : t.session.phase = .stopped) (fired : t.session.cancelled = true) (i : Item) :
    Lapses n t (some i) d (d.takeItem n t f i) := by
  obtain ⟨hdocument, hexit⟩ := Pump.take_fired t.session.budget i
    { document := (d.workspace.document? t.key).getD {}, tally := f.tally }
  have hempty := Pump.take_fired_empty t.session.budget i
    { document := (d.workspace.document? t.key).getD {}, tally := f.tally }
  obtain ⟨told, hnotices, hupdates⟩ := Pump.take_notices t.session.budget true i
    { document := (d.workspace.document? t.key).getD {}, tally := f.tally }
  simp only [takeItem, fired]
  generalize Pump.take _ _ _ _ = taken at hdocument hexit hempty hnotices
  obtain ⟨exit, p⟩ := taken
  have hlines (key : Key) :
      (d.workspace.onDocument t.key fun _ => p.document).lines? key = d.workspace.lines? key := by
    refine Workspace.lines?_onDocument_of_lines _ fun doc hdoc => ?_
    rw [show p.document = _ from hdocument, hdoc]
    rfl
  have hrecord : ∀ e ∈ (p.notices.map fun x => (t.key, x)).reverse,
      ∃ sampled count, e = (t.key, .update sampled count) := by
    intro e he
    rw [show p.notices = [] ++ told from hnotices, List.nil_append] at he
    obtain ⟨x, hx, rfl⟩ := List.mem_map.mp (List.mem_reverse.mp he)
    obtain ⟨sampled, count, rfl⟩ := hupdates x hx
    exact ⟨sampled, count, rfl⟩
  cases exit with
  | none =>
    refine .mk ?_ (fun sampled records he _ => ?_) hlines (.inl rfl) hrecord
    · rw [going]
      exact hexit
    · exact hempty rfl sampled records (Option.some.inj he)
  | some exit =>
    dsimp only
    rw [endFeed_late (d := { d with
      workspace := d.workspace.onDocument t.key fun _ => p.document
      log := (p.notices.map fun x => (t.key, x)).reverse ++ d.log }) ht stopped]
    exact .mk hexit (fun _ _ _ he => by cases he) hlines (.inr rfl) hrecord

theorem receive_lapses {f : Feed} (feeding : d.feeding? n = some (t, f))
    (stopped : t.session.phase = .stopped) (fired : t.session.cancelled = true)
    (answer : Option Item) : Lapses n t answer d (d.receive n answer) := by
  obtain ⟨ht, -, going⟩ := feeding?_eq_some.mp feeding
  unfold receive
  rw [feeding]
  cases answer with
  | none =>
    dsimp only
    rw [endFeed_late ht stopped]
    have quiet : ∀ e ∈ ([] : List (Key × Notice)),
        ∃ sampled count, e = (t.key, .update sampled count) := by simp
    refine .mk rfl (fun _ _ ended => ?_) (fun _ => rfl) (.inr rfl) quiet
    cases ended
  | some i => exact takeItem_lapses ht going stopped fired i

/-- What the record and the document of a session come to is of no concern to the sessions. -/
theorem settle_aside (key : Key) (reason : StopReason) (d : Desk) : Work d (d.settle key reason) := by
  rw [settle_eq]
  exact .aside rfl rfl rfl rfl le_rfl

theorem teardownAmid_wanes (n : Nat) (reason : StopReason) (answer : Option Item) (d : Desk) :
    Wanes d (d.teardownAmid n reason answer) := by
  cases ht : d.tails[n]? with
  | none =>
    simp only [teardownAmid, ht]
    exact .refl d
  | some t =>
    have hfire : Wanes d (d.fire n t) := stop_wanes ht
    have hoff := (hfire.trans (wanes_of_works (receive_works n answer _))).trans
      (unlist_wanes t.key n _)
    rw [teardownAmid_eq ht]
    dsimp only
    split
    · exact hoff.trans (settle_aside t.key reason _).wanes
    · exact hoff

theorem Regular.teardownAmid_passage (hr : d.Regular) (n : Nat) (reason : StopReason)
    (answer : Option Item) : Passage d (d.teardownAmid n reason answer) := by
  cases ht : d.tails[n]? with
  | none =>
    simp only [teardownAmid, ht]
    exact .still hr le_rfl rfl
  | some t =>
    have hfire : Passage d (d.fire n t) := hr.stop_passage ht rfl rfl
    have htaken := hfire.trans (passage_of_works (receive_works n answer _) hfire.regular)
    have hoff : Passage d (((d.fire n t).receive n answer).unlist t.key n) :=
      htaken.trans (.still htaken.regular le_rfl rfl)
    rw [teardownAmid_eq ht]
    dsimp only
    split
    · exact hoff.trans ((settle_aside t.key reason _).passage hoff.regular)
    · exact hoff

end Desk

namespace Midway

variable {s : Midway}

theorem steady_step (hs : s.desk.Steady) (x : Step) : (s.step x).desk.Steady := by
  have hgoes := s.step_goes x
  generalize s.step x = s' at hgoes
  cases hgoes with
  | still => exact hs
  | met => exact hs.meet _
  | looked => exact (Desk.wanes_of_works (Desk.look_works _ s.desk)).steady hs
  | fetched => exact (Desk.wanes_of_works (Desk.fetch_works _ _ s.desk)).steady hs
  | received => exact (Desk.wanes_of_works (Desk.receive_works _ _ s.desk)).steady hs
  | @stopped key trigger =>
    exact (Desk.wanes_of_works (Desk.works_teardowns.stopKey key trigger.reason s.desk)).steady hs
  | amid => exact (Desk.teardownAmid_wanes _ _ _ s.desk).steady hs

theorem step_passage (hs : s.desk.Steady) (hr : s.desk.Regular) (x : Step) :
    Desk.Passage s.desk (s.step x).desk := by
  have hgoes := s.step_goes x
  generalize s.step x = s' at hgoes
  cases hgoes with
  | still => exact .still hr le_rfl rfl
  | met => exact hs.meet_passage hr _
  | looked => exact Desk.passage_of_works (Desk.look_works _ s.desk) hr
  | fetched => exact Desk.passage_of_works (Desk.fetch_works _ _ s.desk) hr
  | received => exact Desk.passage_of_works (Desk.receive_works _ _ s.desk) hr
  | @stopped key trigger =>
    exact Desk.passage_of_works (Desk.works_teardowns.stopKey key trigger.reason s.desk) hr
  | amid => exact hr.teardownAmid_passage _ _ _

end Midway

end LogTail
