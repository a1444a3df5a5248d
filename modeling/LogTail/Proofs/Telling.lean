import LogTail.Proofs.Stops

/-!
# What a move puts on record

A stop is recorded by what tears sessions down, with a reason that depends on the move
alone, and a clearing by the request to clear.
-/
namespace LogTail

namespace Move

/-- The reason that a move gives for the stops that it records. -/
def reason? : Move → Option StopReason
  | stop _ => some .explicit
  | stopAll | drop => some .shutdown
  | stopUnviewed | wake _ => some .viewsClosed
  | pull _ => some .streamEnded
  | _ => none

/-- Of stops a move may record those for its reason, of clearings that of its key. -/
def mayTell (m : Move) : Key × Notice → Prop
  | (_, .stopped reason) => m.reason? = some reason
  | (key, .cleared) => m = .clear key
  | _ => True

end Move

namespace Desk

variable {d d' d'' : Desk} {m : Move} {e : Key × Notice} {P : Key × Notice → Prop}

/-- All that was put on record has a property. -/
def Tells (P : Key × Notice → Prop) (d d' : Desk) : Prop :=
  ∃ news, d'.log = news ++ d.log ∧ ∀ e ∈ news, P e

namespace Tells

theorem same (h : d'.log = d.log) : Tells P d d' := ⟨[], h, by simp⟩

theorem one (h : d'.log = e :: d.log) (he : P e) : Tells P d d' := ⟨[e], h, by simpa using he⟩

theorem trans (h : Tells P d d') (h' : Tells P d' d'') : Tells P d d'' := by
  obtain ⟨news, hlog, hall⟩ := h
  obtain ⟨news', hlog', hall'⟩ := h'
  refine ⟨news' ++ news, by rw [hlog', hlog, List.append_assoc], fun e he => ?_⟩
  rcases List.mem_append.mp he with he | he
  · exact hall' e he
  · exact hall e he

theorem teardown {reason : StopReason} (stops : ∀ key, P (key, .stopped reason)) (n : Nat)
    (d : Desk) : Tells P d (d.teardown n reason).2 := by
  have htears := teardown_tearsDown n reason d
  generalize (d.teardown n reason).2 = d' at htears
  cases htears with
  | absent | again => exact .same rfl
  | first => exact .one rfl (stops _)

/-- Of stops for a reason only those are told. -/
theorem keyStops {reason : StopReason} (stops : ∀ key, P (key, .stopped reason)) :
    KeyStops reason (Tells P) where
  refl _ := .same rfl
  trans := .trans
  stopKey key d := by
    unfold Desk.stopKey
    split
    · exact .same rfl
    · exact teardown stops _ d

section Feeds

variable (stops : ∀ key, P (key, .stopped .streamEnded))
  (updates : ∀ key sampled count, P (key, .update sampled count))

include stops

theorem endFeed (n : Nat) (t : Tail) (f : Feed) (exit : Exit) (d : Desk) :
    Tells P d (d.endFeed n t f exit) := teardown stops n _

theorem look (n : Nat) (d : Desk) : Tells P d (d.look n).2 := by
  have hlooks := look_looks n d
  generalize d.look n = looked at hlooks
  cases hlooks with
  | idle | goes => exact .same rfl
  | ended => exact endFeed stops n _ _ _ d

omit stops

theorem fetch (n : Nat) (heeds : Bool) (d : Desk) : Tells P d (d.fetch n heeds).2 := by
  have hfetches := fetch_fetches n heeds d
  generalize d.fetch n heeds = fetched at hfetches
  cases hfetches <;> exact .same rfl

include stops updates

/-- Of an item only an update is told. -/
theorem takeItem (n : Nat) (t : Tail) (f : Feed) (i : Item) (d : Desk) :
    Tells P d (d.takeItem n t f i) := by
  obtain ⟨told, hnotices, hupdates⟩ := Pump.take_notices t.session.budget t.session.cancelled i
    { document := (d.workspace.document? t.key).getD {}, tally := f.tally }
  simp only [Desk.takeItem]
  generalize Pump.take _ _ _ _ = taken at hnotices
  obtain ⟨exit, p⟩ := taken
  have htold : Tells P d { d with
      workspace := d.workspace.onDocument t.key fun _ => p.document
      log := (p.notices.map fun x => (t.key, x)).reverse ++ d.log } := by
    refine ⟨_, rfl, fun e he => ?_⟩
    rw [hnotices, List.nil_append] at he
    obtain ⟨x, hx, rfl⟩ := List.mem_map.mp (List.mem_reverse.mp he)
    obtain ⟨sampled, count, rfl⟩ := hupdates x hx
    exact updates t.key sampled count
  cases exit with
  | none => exact htold
  | some exit => exact htold.trans (endFeed stops n t _ exit _)

theorem receive (n : Nat) (answer : Option Item) (d : Desk) :
    Tells P d (d.receive n answer) := by
  have hreceives := receive_receives n answer d
  generalize d.receive n answer = d' at hreceives
  cases hreceives with
  | idle => exact .same rfl
  | closed => exact endFeed stops n _ _ _ d
  | item i => exact takeItem stops updates n _ _ i d

theorem pull (n : Nat) (d : Desk) : Tells P d (d.pull n) :=
  pull_chain .trans (look stops n) (fetch n true) (receive stops updates n) d

end Feeds

end Tells

/-- What a move other than a request puts on record. -/
theorem aside_tells (other : m.isRequest = false) (d : Desk) : Tells m.mayTell d (d.move m) := by
  have stopsFor {reason : StopReason} (h : m.reason? = some reason) : KeyStops reason (Tells m.mayTell) :=
    Tells.keyStops fun _ => h
  cases m with
  | start | answer => cases other
  | stop key => exact (stopsFor rfl).stopKey key d
  | stopAll => exact (stopsFor rfl).stopKeys _ d
  | drop => exact (stopsFor rfl).drop d (.same rfl)
  | stopUnviewed => exact (stopsFor rfl).stopUnviewedAmong _ d
  | wake i => exact (stopsFor rfl).wake (fun _ _ => .same rfl) i d
  | pull n => exact .pull (fun _ => rfl) (fun _ _ _ => trivial) n d
  | clear key =>
    have hclears := clear_clears key d
    simp only [Desk.move]
    generalize (d.clear key).2 = d' at hclears
    cases hclears with
    | idle => exact .same rfl
    | cleared => exact .one rfl rfl
  | arm n =>
    have harms := arm_arms n d
    simp only [Desk.move]
    generalize d.arm n = d' at harms
    cases harms <;> exact .same rfl
  | tick n =>
    have hticks := tick_ticks n d
    simp only [Desk.move]
    generalize d.tick n = d' at hticks
    cases hticks with
    | idle | ended => exact .same rfl
    | told => exact .one rfl trivial
  | await | watch | pass | provide | cut | send | closeSender | openView | closeView | scroll =>
    exact .same rfl

theorem Sound.move_tells (hs : d.Sound) (m : Move) : Tells m.mayTell d (d.move m) := by
  by_cases request : m.isRequest = false
  · exact aside_tells request d
  cases m with
  | start source =>
    rcases hs.start_acts source with ⟨key, notice, h⟩ | ⟨n, key, h⟩
    all_goals generalize d.move (.start source) = d' at h
    · cases h <;> exact .one rfl trivial
    · cases h
      exact .same rfl
  | answer c =>
    rcases hs.answer_acts c with same | ⟨key, notice, h⟩
    · rw [same]
      exact .same rfl
    generalize d.move (.answer c) = d' at h
    cases h <;> exact .one rfl trivial
  | _ => exact absurd rfl request

theorem Sound.mayTell (hs : d.Sound) (he : e ∈ d.told m) : m.mayTell e := by
  obtain ⟨news, hlog, hall⟩ := hs.move_tells m
  have htold : d.told m = news.reverse := news_of_log (by rw [hlog, List.reverse_reverse])
  rw [htold, List.mem_reverse] at he
  exact hall e he

end Desk

end LogTail
