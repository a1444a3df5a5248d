import LogTail.Proofs.Append
import LogTail.Proofs.Trace
import LogTail.Proofs.Winding

/-!
# Pulls

What a pull of a feed comes to, by what it finds, and which update it applies.
-/
namespace LogTail

namespace Pump

/-- What taking an item comes to while the token has not fired. -/
inductive Taken (budget : Nat) (p : Pump) : Item → Option Exit × Pump → Prop where
  | applied {sampled : Bool} {records : List Record} (tally : Tally) {document : Document}
      (h : Writes budget records p.document document) :
      Taken budget p (.frame (.update sampled records))
        (none, ⟨document, tally, p.notices ++ [.update sampled records.length]⟩)
  | passed {i : Item} (tally : Tally) (other : ∀ sampled records, i ≠ .frame (.update sampled records)) :
      Taken budget p i (none, { p with tally })
  | ended {i : Item} (exit : Exit) (tally : Tally) {document : Document}
      (h : document.buffer.lines = p.document.buffer.lines) :
      Taken budget p i (some exit, { p with document, tally })

theorem take_taken (budget : Nat) (i : Item) (p : Pump) :
    Taken budget p i (p.take budget false (some i)) := by
  cases i with
  | fault e => exact .ended (.failed e) _ rfl
  | frame f =>
    cases f with
    | accepted => exact .passed _ (by simp)
    | unknown => exact .passed _ (by simp)
    | update sampled records =>
      by_cases empty : entriesOf records = []
      · simp only [take, handle, write, empty, if_true]
        exact .applied _ (.inl ⟨empty, rfl⟩)
      · cases followed : p.document.follow budget (entriesOf records) with
        | mk answer document =>
        cases answer with
        | error fault =>
          simp only [take, handle, write, count, empty, if_false, followed]
          exact .ended _ _ (congrArg Buffer.lines (Document.follow_error_buffer followed))
        | ok a =>
          simp only [take, handle, write, count, tell, empty, if_false, followed]
          exact .applied _ (.inr ⟨empty, a, followed⟩)

/-- Of an item an update is told or nothing, whether or not the token has fired. -/
theorem take_notices (budget : Nat) (fired : Bool) (i : Item) (p : Pump) :
    ∃ told, (p.take budget fired (some i)).2.notices = p.notices ++ told ∧
      ∀ x ∈ told, ∃ sampled count, x = .update sampled count := by
  have hnone : ∃ told, p.notices = p.notices ++ told ∧
      ∀ x ∈ told, ∃ sampled count, x = .update sampled count := ⟨[], by simp⟩
  cases i with
  | fault e => exact hnone
  | frame f =>
    cases f with
    | accepted | unknown => exact hnone
    | update sampled records =>
      have hone : ∃ told, p.notices ++ [.update sampled records.length] = p.notices ++ told ∧
          ∀ x ∈ told, ∃ sampled count, x = .update sampled count := ⟨_, rfl, by simp⟩
      simp only [take, handle, write, count, tell]
      by_cases empty : entriesOf records = []
      · simpa only [empty, if_true] using hone
      · cases fired with
        | true => simpa only [empty, if_false, if_true] using hnone
        | false =>
          simp only [empty, if_false, Bool.false_eq_true]
          cases p.document.follow budget (entriesOf records) with
          | mk answer document =>
            cases answer with
            | error => exact hnone
            | ok => exact hone

end Pump

namespace Desk

variable {d : Desk} {n : Nat} {t : Tail}

/-! ### The stages of a pull -/

theorem feeding?_eq_some {f : Feed} : d.feeding? n = some (t, f) ↔
    d.tails[n]? = some t ∧ t.feed = some f ∧ f.report = none := by
  simp only [feeding?, Option.bind_eq_some_iff, Option.map_eq_some_iff, Option.filter_eq_some_iff,
    Option.isNone_iff_eq_none, Prod.mk.injEq]
  constructor
  · rintro ⟨u, hu, g, ⟨hg, going⟩, rfl, rfl⟩
    exact ⟨hu, hg, going⟩
  · rintro ⟨ht, hf, going⟩
    exact ⟨t, ht, f, ⟨hf, going⟩, rfl, rfl⟩

/-- What looking at the token comes to. -/
inductive Looks (n : Nat) (d : Desk) : Bool × Desk → Prop where
  | idle (unfed : d.feeding? n = none) : Looks n d (false, d)
  | ended {t : Tail} {f : Feed} (feeding : d.feeding? n = some (t, f))
      (fired : t.session.cancelled = true) : Looks n d (false, d.endFeed n t f .cancelled)
  | goes {t : Tail} {f : Feed} (feeding : d.feeding? n = some (t, f))
      (unfired : t.session.cancelled = false) : Looks n d (true, d)

theorem look_looks (n : Nat) (d : Desk) : Looks n d (d.look n) := by
  unfold look
  split
  · exact .idle ‹_›
  · rename_i feeding
    split
    · exact .ended feeding ‹_›
    · rename_i unfired
      exact .goes feeding (by simpa using unfired)

/-- What asking the stream comes to. -/
inductive Fetches (n : Nat) (heeds : Bool) (d : Desk) : Option (Option Item) × Desk → Prop where
  | idle (unfed : d.feeding? n = none) : Fetches n heeds d (none, d)
  | asked {t : Tail} {f : Feed} {found : Pull} {stream : Stream} {channels : List Channel}
      (feeding : d.feeding? n = some (t, f))
      (poll : f.stream.poll d.now (t.session.cancelled && heeds) d.channels =
        (found, stream, channels)) :
      Fetches n heeds d
        (found.answer?, ({ d with channels } : Desk).put n { t with feed := some { f with stream } })

theorem fetch_fetches (n : Nat) (heeds : Bool) (d : Desk) : Fetches n heeds d (d.fetch n heeds) := by
  unfold fetch
  split
  · exact .idle ‹_›
  · exact .asked ‹_› rfl

/-- What taking that which was handed over comes to. -/
inductive Receives (n : Nat) (d : Desk) : Option Item → Desk → Prop where
  | idle (answer : Option Item) (unfed : d.feeding? n = none) : Receives n d answer d
  | closed {t : Tail} {f : Feed} (feeding : d.feeding? n = some (t, f)) :
      Receives n d none (d.endFeed n t f .closed)
  | item {t : Tail} {f : Feed} (i : Item) (feeding : d.feeding? n = some (t, f)) :
      Receives n d (some i) (d.takeItem n t f i)

theorem receive_receives (n : Nat) (answer : Option Item) (d : Desk) :
    Receives n d answer (d.receive n answer) := by
  unfold receive
  split
  · exact .idle answer ‹_›
  · cases answer with
    | none => exact .closed ‹_›
    | some i => exact .item i ‹_›

/-- Who takes an item makes use of the feed that was put last. -/
theorem receive_put {f : Feed} (hn : n < d.tails.length) (going : f.report = none)
    (answer : Option Item) :
    (d.put n { t with feed := some f }).receive n answer =
      answer.elim (d.endFeed n t f .closed) (d.takeItem n t f) := by
  have feeding : (d.put n { t with feed := some f }).feeding? n =
      some ({ t with feed := some f }, f) :=
    feeding?_eq_some.mpr ⟨List.getElem?_set_self hn, rfl, going⟩
  unfold receive
  rw [feeding]
  cases answer with
  | none => simp [endFeed, put]
  | some i =>
    simp only [takeItem, Tail.key, put, Option.elim_some]
    split <;> simp [endFeed, put]

/-- What the stages of a pull keep, the pull keeps. -/
theorem pull_chain {R : Desk → Desk → Prop} (trans : ∀ {d d' d''}, R d d' → R d' d'' → R d d'')
    (look : ∀ d, R d (d.look n).2) (fetch : ∀ d, R d (d.fetch n true).2)
    (receive : ∀ answer d, R d (d.receive n answer)) (d : Desk) : R d (d.pull n) := by
  have hlook := look d
  unfold pull
  split
  · rename_i looked
    rwa [looked] at hlook
  rename_i d₁ looked
  rw [looked] at hlook
  have hfetch := fetch d₁
  split
  · rename_i fetched
    rw [fetched] at hfetch
    exact trans hlook hfetch
  · rename_i answer d₂ fetched
    rw [fetched] at hfetch
    exact trans (trans hlook hfetch) (receive answer d₂)

/-- What a pull of a feed comes to. -/
inductive Pulls (n : Nat) (d : Desk) : Desk → Prop where
  | idle (unpulled : d.puller? (.pull n) = none) : Pulls n d d
  | cancelled {t : Tail} {f : Feed} (ht : d.tails[n]? = some t) (hf : t.feed = some f)
      (going : f.report = none) (fired : t.session.cancelled = true)
      (unpulled : d.puller? (.pull n) = none) : Pulls n d (d.endFeed n t f .cancelled)
  | waits {t : Tail} {f : Feed} {stream : Stream} {channels : List Channel}
      (ht : d.tails[n]? = some t) (hf : t.feed = some f) (going : f.report = none)
      (unfired : t.session.cancelled = false)
      (poll : f.stream.poll d.now false d.channels = (.waits, stream, channels))
      (untaken : d.taken? (.pull n) = none) :
      Pulls n d (({ d with channels } : Desk).put n { t with feed := some { f with stream } })
  | closed {t : Tail} {f : Feed} {stream : Stream} {channels : List Channel}
      (ht : d.tails[n]? = some t) (hf : t.feed = some f) (going : f.report = none)
      (unfired : t.session.cancelled = false)
      (poll : f.stream.poll d.now false d.channels = (.ended, stream, channels))
      (untaken : d.taken? (.pull n) = none) :
      Pulls n d (({ d with channels } : Desk).endFeed n t { f with stream } .closed)
  | item {t : Tail} {f : Feed} {stream : Stream} {channels : List Channel} {i : Item}
      (ht : d.tails[n]? = some t) (hf : t.feed = some f) (going : f.report = none)
      (unfired : t.session.cancelled = false)
      (poll : f.stream.poll d.now false d.channels = (.item i, stream, channels))
      (taken : d.taken? (.pull n) = some (n, i)) :
      Pulls n d (({ d with channels } : Desk).takeItem n t { f with stream } i)

theorem taken?_unpulled {m : Move} (h : d.puller? m = none) : d.taken? m = none := by
  simp [taken?, h]

theorem pull_pulls (n : Nat) (d : Desk) : Pulls n d (d.pull n) := by
  have hlooks := look_looks n d
  unfold pull
  generalize d.look n = looked at hlooks
  cases hlooks with
  | idle unfed =>
    refine .idle ?_
    have hnone : ∀ t f, d.feeding? n ≠ some (t, f) := by simp [unfed]
    simp only [ne_eq, feeding?_eq_some, not_and] at hnone
    cases ht : d.tails[n]? with
    | none => simp [puller?, ht]
    | some t =>
      cases hf : t.feed with
      | none => simp [puller?, ht, hf]
      | some f => simp [puller?, ht, hf, Option.filter, Option.isNone_iff_eq_none, hnone t f ht hf]
  | @ended t f feeding fired =>
    obtain ⟨ht, hf, going⟩ := feeding?_eq_some.mp feeding
    exact .cancelled ht hf going fired (by simp [puller?, ht, hf, Option.filter, fired])
  | @goes t f feeding unfired =>
    obtain ⟨ht, hf, going⟩ := feeding?_eq_some.mp feeding
    have hn : n < d.tails.length := (List.getElem?_eq_some_iff.mp ht).1
    have hpuller : d.puller? (.pull n) = some (n, f) := by
      simp [puller?, ht, hf, Option.filter, going, unfired]
    have hfetches := fetch_fetches n true d
    dsimp only
    generalize d.fetch n true = fetched at hfetches
    cases hfetches with
    | idle unfed =>
      rw [feeding] at unfed
      cases unfed
    | @asked u g found stream channels feeding' poll =>
      rw [feeding] at feeding'
      cases feeding'
      rw [unfired, Bool.false_and] at poll
      have hreceive := receive_put (d := { d with channels }) (t := t) (f := { f with stream }) hn going
      cases found with
      | waits => exact .waits ht hf going unfired poll (by simp [taken?, hpuller, poll])
      | ended =>
        simp only [Pull.answer?, hreceive]
        exact .closed ht hf going unfired poll (by simp [taken?, hpuller, poll])
      | item i =>
        simp only [Pull.answer?, hreceive]
        exact .item ht hf going unfired poll (by simp [taken?, hpuller, poll])

section Applied

variable {m : Move} {i : Item} {sampled : Bool} {records : List Record}

theorem applied?_untaken (h : d.taken? m = none) : d.applied? m = none := by
  simp [applied?, h]

theorem applied?_update (taken : d.taken? m = some (n, .frame (.update sampled records)))
    (going : (d.move m).report? n = none) : d.applied? m = some (n, sampled, records) := by
  simp [applied?, taken, going]

theorem applied?_other (taken : d.taken? m = some (n, i))
    (other : ∀ sampled records, i ≠ .frame (.update sampled records)) : d.applied? m = none := by
  unfold applied?
  rw [taken]
  split
  · rename_i h
    cases h
    exact absurd rfl (other _ _)
  · rfl

theorem applied?_ended (taken : d.taken? m = some (n, i))
    (done : ((d.move m).report? n).isSome) : d.applied? m = none := by
  unfold applied?
  rw [taken]
  split
  · rename_i h
    cases h
    rw [if_neg (by simpa using Option.isSome_iff_ne_none.mp done)]
  · rfl

end Applied

theorem Sound.running_of_fed (hs : d.Sound) (ht : d.tails[n]? = some t) (fed : t.feed.isSome)
    (unfired : t.session.cancelled = false) : t.session.phase = .running := by
  have hsound := hs.tails t (List.mem_of_getElem? ht)
  rcases hs.live_or_stopped ht with live | stopped
  · rcases (Phase.isLive_iff _).mp live with starting | running
    · rw [hsound.unfed starting] at fed
      cases fed
    · exact running
  · rw [hsound.fired.mpr stopped] at unfired
    cases unfired

end Desk

end LogTail
