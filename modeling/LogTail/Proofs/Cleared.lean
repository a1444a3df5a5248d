import LogTail.Proofs.Midway
import LogTail.Proofs.Telling
import LogTail.Proofs.Written

/-!
# Documents cleared at a stop

Where the policy is to clear a document when its session stops, only the documents of
sessions that run have lines. A feed that was handed an item looks at the token once more
before it writes, and the token fires before the document is cleared, so nothing is written
after the clearing, however far its pull had come; and a session that is torn down is the
last of its key, so what is cleared with it is its own.
-/
namespace LogTail

namespace Desk

variable {d d' d'' : Desk} {deed : Deed} {deeds : List Deed} {n n' : Nat} {t : Tail} {key : Key}
  {m : Move} {policy : Policy}

/-- Only the documents of sessions that run have lines. -/
def Blank (d : Desk) : Prop := ∀ key, ¬ d.Runs key → d.lines key = []

theorem Act.blank (h : Act d deed d') (hs : d.Sound) (onStop : d.policy.clearOnStop = true)
    (hb : d.Blank) : d'.Blank := by
  intro key idle
  by_cases torn : ∃ n reason, deed = .torn n key reason
  · -- the document is cleared with the stop
    obtain ⟨n, reason, rfl⟩ := torn
    have hclearing : clearing d.policy.clearOnStop key (Deed.torn n key reason).news = true := by
      simp [Deed.news, clearing_stopped, onStop]
    rw [h.lines (by simp) key, hclearing, if_pos rfl]
  · -- no session of the key ran before
    have unopened : ∀ c, deed ≠ .answered c key .started := by
      rintro c rfl
      obtain ⟨n, t, t', -, -, -, ht', hk, running⟩ := h.started hs
      exact idle ⟨n, t', ht', hk, running⟩
    have hruns := h.runs_iff hs unopened fun n reason he => torn ⟨n, reason, he⟩
    have hnone := hb key (mt hruns.mpr idle)
    cases deed with
    | wrote n k sampled records =>
      have hk : k ≠ key := by
        rintro rfl
        have hnews : (k, .update sampled records.length) ∈ (Deed.wrote n k sampled records).news := by
          simp [Deed.news]
        exact idle (hruns.mpr (h.work_news hnews rfl))
      have hbefore : d.lines key = ([] : List String).rtake d.policy.budget := by
        rw [hnone, List.rtake_nil]
      obtain ⟨-, hlines⟩ := h.lines_wrote hs hbefore
      rw [hlines, if_neg hk, List.append_nil, List.rtake_nil]
    | _ =>
      rw [h.lines (by simp) key, hnone]
      exact ite_self []

/-! ### The last session of a key -/

/-- No session of a key comes after one that is live. -/
def Latest (d : Desk) : Prop := ∀ (n n' : Nat) (t t' : Tail), d.tails[n]? = some t →
  d.tails[n']? = some t' → t.session.phase.isLive = true → t'.key = t.key → n' ≤ n

theorem Act.entered_free (h : Act d (.entered n key) d') :
    n = d.tails.length ∧ KeyMap.get? key d.roster = none := by
  cases h with
  | entered valid free connected => exact ⟨rfl, free⟩

/-- A session takes its key when no other holds it, and so comes after all of that key. -/
theorem Act.latest (h : Act d deed d') (hs : d.Sound) (hl : d.Latest) : d'.Latest := by
  intro n n' t t' ht ht' live same
  rcases h.origin hs ht with ⟨-, rfl⟩ | ⟨u, hu, hk, hfate⟩
  · obtain ⟨rfl, -⟩ := h.entered_free
    rcases h.origin hs ht' with ⟨-, he⟩ | ⟨u', hu', -⟩
    · obtain ⟨hn, -⟩ := Deed.entered.inj he
      exact Nat.le_of_eq hn.symm
    · exact Nat.le_of_lt (List.getElem?_eq_some_iff.mp hu').1
  · have ulive : u.session.phase.isLive = true := by
      cases hfate with
      | kept same' => rw [← same', live]
      | opened starting | failed starting =>
        rw [starting]
        rfl
      | torn ulive => exact ulive
    rcases h.origin hs ht' with ⟨-, rfl⟩ | ⟨u', hu', hk', -⟩
    · obtain ⟨-, free⟩ := h.entered_free
      rw [same, hk, hs.held hu ulive] at free
      cases free
    · exact hl n n' u u' hu hu' ulive (hk'.symm.trans (same.trans hk))

/-- A session that is live is the last of its key. -/
theorem Latest.last (hl : d.Latest) (live : d.isLive n = true) (hk : d.key? n = some key)
    (later : n < n') : d.key? n' ≠ some key := by
  intro hk'
  obtain ⟨t, ht, live⟩ := isLive_iff.mp live
  obtain ⟨u, hu, rfl⟩ := key?_iff.mp hk
  rw [ht] at hu
  cases hu
  obtain ⟨t', ht', same⟩ := key?_iff.mp hk'
  exact Nat.not_lt.mpr (hl n n' t t' ht ht' live same) later

/-! ### What every act keeps -/

/-- No document has more lines than the budget allows. -/
def Within (d : Desk) : Prop := ∀ key, d.lines key = (d.lines key).rtake d.policy.budget

theorem Act.within (h : Act d deed d') (hs : d.Sound) (hw : d.Within) : d'.Within := by
  intro key
  rw [h.policy]
  cases deed with
  | wrote n k sampled records =>
    obtain ⟨-, hlines⟩ := h.lines_wrote hs (hw key)
    have hagain := rtake_rtake_append d.policy.budget
      (d.lines key ++ if k = key then linesOfRecords records else []) []
    rw [List.append_nil, List.append_nil] at hagain
    rw [hlines, hagain]
  | _ =>
    rw [h.lines (by simp) key]
    split
    · simp
    · exact hw key

/-- A desk that clears documents at a stop, as it is at every moment. -/
structure Spotless (policy : Policy) (d : Desk) : Prop where
  sound : d.Sound
  onStop : policy.clearOnStop = true
  policy : d.policy = policy
  blank : d.Blank
  latest : d.Latest
  within : d.Within

theorem Acts.spotless (h : Acts d deeds d') (hd : d.Spotless policy) :
    d'.Spotless policy := by
  induction h with
  | nil => exact hd
  | cons first _ ih =>
    exact ih {
      sound := first.sound hd.sound
      policy := first.policy.trans hd.policy
      onStop := hd.onStop
      blank := first.blank hd.sound (by rw [hd.policy]; exact hd.onStop) hd.blank
      latest := first.latest hd.sound hd.latest
      within := first.within hd.sound hd.within }

/-- None of it depends on what is on record. -/
theorem Spotless.relog (hd : d.Spotless policy) (log : List (Key × Notice)) :
    ({ d with log } : Desk).Spotless policy where
  sound := { hd.sound with }
  policy := hd.policy
  onStop := hd.onStop
  blank := hd.blank
  latest := hd.latest
  within := hd.within

/-- Sessions are wound down, or nothing happens to them, whatever is put on record. -/
def Drifts (d d' : Desk) : Prop := ∃ e log, Winds d e ∧ d' = { e with log }

theorem Drifts.of_winds (h : Winds d d') : Drifts d d' := ⟨d', d'.log, h, rfl⟩

theorem Drifts.after (h : Drifts d' d'') (first : Winds d d') : Drifts d d'' := by
  obtain ⟨e, log, later, rfl⟩ := h
  exact ⟨e, log, first.trans later, rfl⟩

theorem Drifts.spotless (h : Drifts d d') (hd : d.Spotless policy) : d'.Spotless policy := by
  obtain ⟨e, log, ⟨deeds, ha, -⟩, rfl⟩ := h
  exact (ha.spotless hd).relog log

/-- Where no session of a key is stopped its document keeps its lines. -/
theorem Drifts.lines (h : Drifts d d') (hs : d.Sound) (kept : ∀ n, d.key? n = some key →
    d.phase? n ≠ some .stopped → d'.phase? n ≠ some .stopped) : d'.lines key = d.lines key := by
  obtain ⟨e, log, ⟨deeds, ha, winding⟩, rfl⟩ := h
  have unwritten : ∀ deed ∈ deeds, ∀ n k sampled records, deed ≠ .wrote n k sampled records := by
    rintro deed hdeed n k sampled records rfl
    exact winding _ hdeed
  have hclearing : clearing d.policy.clearOnStop key (deeds.flatMap Deed.news) = false := by
    obtain ⟨-, hmem⟩ := ha.torn hs winding key
    rw [clearing, about_winding winding, List.any_eq_false]
    intro x hx
    obtain ⟨⟨n, reason⟩, hn, rfl⟩ := List.mem_map.mp hx
    obtain ⟨live, dead, hk⟩ := (hmem n).mp (List.mem_map.mpr ⟨_, hn, rfl⟩)
    obtain ⟨t, ht, tlive⟩ := isLive_iff.mp live
    obtain ⟨t', ht', hk'⟩ := key?_iff.mp hk
    have hkey := ha.key? hs (key?_iff.mpr ⟨t, ht, rfl⟩)
    rw [hk] at hkey
    have going : d.phase? n ≠ some .stopped := by
      intro he
      obtain ⟨u, hu, stopped⟩ := phase?_iff.mp he
      rw [ht] at hu
      cases hu
      rw [stopped] at tlive
      cases tlive
    have stopped : t'.session.phase = .stopped := by
      refine ((ha.sound hs).live_or_stopped ht').resolve_left fun live' => ?_
      rw [isLive_iff.mpr ⟨t', ht', live'⟩] at dead
      cases dead
    exact absurd (phase?_iff.mpr ⟨t', ht', stopped⟩)
      (kept n (key?_iff.mpr ⟨t, ht, (Option.some.inj hkey).symm⟩) going)
  have hlines := ha.lines unwritten key
  rw [hclearing] at hlines
  exact hlines

/-! ### The stages of a pull -/

theorem Sound.look_winds (hs : d.Sound) (n : Nat) : Winds d (d.look n).2 := by
  have hlooks := look_looks n d
  generalize d.look n = looked at hlooks
  cases hlooks with
  | idle | goes => exact .refl d
  | @ended t f feeding =>
    obtain ⟨ht, hf, -⟩ := feeding?_eq_some.mp feeding
    exact hs.endFeed_winds ht (by simp [hf]) f .cancelled d.channels

theorem fetch_winds (n : Nat) (heeds : Bool) (d : Desk) : Winds d (d.fetch n heeds).2 := by
  have hfetches := fetch_fetches n heeds d
  generalize d.fetch n heeds = fetched at hfetches
  cases hfetches with
  | idle => exact .refl d
  | asked feeding =>
    obtain ⟨ht, hf, -⟩ := feeding?_eq_some.mp feeding
    exact .one (.tended ht ⟨rfl, rfl, by simp [hf], .rfl⟩) trivial

/-- What is taken after the stop changes no document. -/
theorem Lapses.drifts {answer : Option Item} (h : Lapses n t answer d d') (hs : d.Sound)
    (ht : d.tails[n]? = some t) (stopped : t.session.phase = .stopped) (fed : t.feed.isSome) :
    Drifts d d' := by
  cases h with
  | @mk f channels workspace roster news exit empty lines off record =>
    -- a session that has stopped is off the roster already
    have hroster : roster = d.roster := by
      rcases off with same | off
      · exact same
      · have hoff := congrArg Desk.roster (unlist_unheld (hs.unheld ht stopped t.key))
        exact off.trans hoff
    subst hroster
    have hleft : Winds d { d with channels, tails := d.tails.set n { t with feed := some f } } :=
      .one (.left ht stopped fed) trivial
    have hviews : Winds { d with channels, tails := d.tails.set n { t with feed := some f } }
        { d with channels, workspace, tails := d.tails.set n { t with feed := some f } } :=
      .beside ⟨Nat.le_refl _, rfl, rfl, rfl, rfl, rfl, rfl, rfl, lines⟩
    exact ⟨_, news ++ d.log, hleft.trans hviews, rfl⟩

/-- The desk once a session has been torn down. -/
def torn (n : Nat) (t : Tail) (reason : StopReason) (d : Desk) : Desk := { d with
  workspace := if d.policy.clearOnStop then d.workspace.clearDocument t.key else d.workspace
  roster := KeyMap.erase t.key d.roster
  tails := d.tails.set n { t with session := (t.session.stop d.now).2 }
  log := (t.key, .stopped reason) :: d.log }

/-- A session is off the roster when it is torn down, whether or not its feed has ended before. -/
theorem unlist_of_lapsed {roster : Roster} (held : KeyMap.get? key d.roster = some n)
    (off : roster = d.roster ∨ roster = (d.roster.removeInstance key n).2) :
    (roster.removeInstance key n).2 = KeyMap.erase key d.roster := by
  have herase : (d.roster.removeInstance key n).2 = KeyMap.erase key d.roster := by
    simp [Roster.removeInstance, held]
  rcases off with rfl | rfl
  · exact herase
  · rw [herase]
    simp [Roster.removeInstance, KeyMap.get?_erase]

/-- What a feed takes while its session is torn down might as well have been taken afterwards, but
for the order of what is on record. -/
theorem Lapses.settled {answer : Option Item} (h : Lapses n
      { t with session := (t.session.stop d.now).2 } answer (d.fire n t) d')
    (ht : d.tails[n]? = some t) (held : KeyMap.get? t.key d.roster = some n)
    (fed : t.feed.isSome) (reason : StopReason) :
    Drifts (d.torn n t reason) ((d'.unlist t.key n).settle t.key reason) := by
  cases h with
  | @mk f channels workspace roster news _ _ lines off _ =>
    let t' : Tail := { t with session := (t.session.stop d.now).2 }
    have ht' : (d.torn n t reason).tails[n]? = some t' :=
      List.getElem?_set_self (List.getElem?_eq_some_iff.mp ht).1
    have hkey : t'.key = t.key := Session.stop_key d.now t.session
    have hroster : (roster.removeInstance t.key n).2 = KeyMap.erase t.key d.roster :=
      unlist_of_lapsed held (hkey ▸ off)
    let left : Desk := { d.torn n t reason with
      channels
      tails := (d.torn n t reason).tails.set n { t' with feed := some f } }
    let settled : Desk := { left with
      workspace := if d.policy.clearOnStop then workspace.clearDocument t.key else workspace }
    have hleft : Winds (d.torn n t reason) left :=
      .one (.left ht' (Session.stop_phase d.now t.session) fed) trivial
    have hviews : Winds left settled := by
      refine .beside ⟨Nat.le_refl _, rfl, rfl, rfl, rfl, rfl, rfl, rfl, fun key => ?_⟩
      dsimp only [left, settled, torn]
      split
      · rw [Workspace.lines?_clearDocument, Workspace.lines?_clearDocument, lines]
        rfl
      · exact lines key
    refine ⟨settled, (t.key, .stopped reason) :: (news ++ d.log), hleft.trans hviews, ?_⟩
    simp only [left, settled, torn, settle_eq, unlist, hroster]
    rfl

/-- A session that is stopped while its feed takes an answer is torn down, and then its feed
lapses. -/
theorem Sound.teardownAmid_drifts (hs : d.Sound) (held : KeyMap.get? key d.roster = some n)
    (reason : StopReason) (answer : Option Item) : Drifts d (d.teardownAmid n reason answer) := by
  obtain ⟨t, ht, rfl, live⟩ := (hs.lists key n).mp held
  have going : t.session.phase ≠ .stopped := by
    intro he
    rw [he] at live
    cases live
  have htorn : Winds d (d.torn n t reason) := .one (.torn reason ht live) trivial
  rw [teardownAmid_eq ht]
  simp only [Session.stop_first d.now going, if_true]
  cases feeding : (d.fire n t).feeding? n with
  | none =>
    have hreceive : (d.fire n t).receive n answer = d.fire n t := by simp [receive, feeding]
    have hoff := unlist_held (d := d.fire n t) held
    simp only [hreceive, hoff, settle_eq]
    exact .of_winds htorn
  | some fed =>
    obtain ⟨u, f⟩ := fed
    obtain ⟨hu, hf, -⟩ := feeding?_eq_some.mp feeding
    obtain rfl : { t with session := (t.session.stop d.now).2 } = u := by
      have hself : (d.fire n t).tails[n]? = some { t with session := (t.session.stop d.now).2 } :=
        List.getElem?_set_self (List.getElem?_eq_some_iff.mp ht).1
      exact Option.some.inj (hself.symm.trans hu)
    have hlapses := receive_lapses feeding (Session.stop_phase d.now t.session)
      (Session.stop_cancelled d.now going) answer
    exact (hlapses.settled ht held (Option.isSome_iff_exists.mpr ⟨f, hf⟩) reason).after htorn

/-- An update that is written leaves a feed that goes on. -/
theorem Act.feed?_wrote {sampled : Bool} {records : List Record}
    (h : Act d (.wrote n key sampled records) d') (going : d'.report? n = none) :
    d'.feed? n = some none := by
  cases h with
  | wrote ht =>
    have hn : n < d.tails.length := (List.getElem?_eq_some_iff.mp ht).1
    simpa [report?, feed?, List.getElem?_set_self hn] using going

theorem feed?_going (going : d.feed? n = some none) : (d.feeding? n).isSome = true := by
  obtain ⟨t, f, ht, hf, hreport⟩ := feed?_eq_some.mp going
  rw [feeding?_eq_some.mpr ⟨ht, hf, hreport⟩]
  rfl

theorem Lapses.empty_of_going {answer : Option Item} (h : Lapses n t answer d d')
    (hn : n < d.tails.length) (going : d'.feed? n = some none) (sampled : Bool)
    (records : List Record) (update : answer = some (.frame (.update sampled records))) :
    entriesOf records = [] := by
  cases h with
  | mk exit empty =>
    refine empty sampled records update ?_
    simpa [feed?, List.getElem?_set_self hn] using going

/-- Only a stop of a session of the key clears its document, or a request to do so. -/
theorem Sound.not_clearing (hs : d.Sound) (onStop : Bool)
    (untorn : ∀ n, d.Tears n m → d.key? n ≠ some key) (unasked : m ≠ .clear key) :
    clearing onStop key (d.told m) = false := by
  rw [clearing, List.any_eq_false]
  intro x hx
  cases x with
  | cleared => exact absurd (hs.mayTell (mem_about.mp hx)) unasked
  | stopped reason =>
    obtain ⟨stops, hstops, -, hmem⟩ := hs.move_stops m key
    have hstop : Notice.stopped reason ∈ (about key (d.told m)).filter Notice.isStop :=
      List.mem_filter.mpr ⟨hx, rfl⟩
    rw [hstops] at hstop
    obtain ⟨⟨n, reason'⟩, hn, -⟩ := List.mem_map.mp hstop
    obtain ⟨tears, hk⟩ := (hmem n).mp (List.mem_map.mpr ⟨_, hn, rfl⟩)
    obtain ⟨t, ht, -⟩ := isLive_iff.mp tears.2.1
    obtain ⟨deeds, ha⟩ := (hs.move_comes m).acts
    have hkey := ha.key? hs (key?_iff.mpr ⟨t, ht, rfl⟩)
    rw [hk] at hkey
    exact absurd (key?_iff.mpr ⟨t, ht, (Option.some.inj hkey).symm⟩) (untorn n tears)
  | _ => simp [Notice.isStop]

end Desk

namespace Midway

open Desk

variable {s : Midway} {x : Step} {n : Nat} {key : Key} {d' : Desk} {policy : Policy}

/-- The update that a step applies to the document of a session: the feed took it and goes
on. -/
def applied? (x : Step) (s : Midway) : Option (Nat × Bool × List Record) :=
  match x with
  | .meet (.move m) => if s.isBusy (.move m) then none else s.desk.applied? m
  | .receive n =>
    match s.hands n with
    | some (.found (some (.frame (.update sampled records)))) =>
      if (s.step (.receive n)).desk.feed? n = some none then some (n, sampled, records) else none
    | _ => none
  | _ => none

/-- The lines that a step adds to the document of a key: those of the update it applies. -/
def adds (key : Key) (x : Step) (s : Midway) : List String :=
  match s.applied? x with
  | some (n, _, records) => if s.desk.key? n = some key then linesOfRecords records else []
  | none => []

theorem adds_unapplied (unapplied : s.applied? x = none) (key : Key) : s.adds key x = [] := by
  rw [adds, unapplied]

/-- What is received adds nothing unless it is an update with entries and the feed goes on. -/
theorem adds_receive {answer : Option Item} (hand : s.hands n = some (.found answer))
    (empty : (s.step (.receive n)).desk.feed? n = some none → ∀ sampled records,
      answer = some (.frame (.update sampled records)) → entriesOf records = []) (key : Key) :
    s.adds key (.receive n) = [] := by
  match answer with
  | some (.frame (.update sampled records)) =>
    by_cases going : (s.step (.receive n)).desk.feed? n = some none
    · have hnone := linesOfRecords_nil (empty going sampled records rfl)
      simp [adds, applied?, hand, going, hnone]
    · simp [adds, applied?, hand, going]
  | some (.frame (.accepted ..)) | some (.frame (.unknown _)) | some (.fault _) | none =>
    simp [adds, applied?, hand]

/-- What a step comes to when only the desk itself acts. -/
inductive Carries (s : Midway) (x : Step) : Desk → Prop where
  | moved {m : Move} (move : x = .meet (.move m)) (free : s.isBusy (.move m) = false) :
      Carries s x (s.desk.move m)
  | drifts {d' : Desk} (h : Drifts s.desk d') (other : x.isRequest = false)
      (nothing : ∀ key, s.adds key x = []) : Carries s x d'
  | wrote {d' : Desk} {n : Nat} {key : Key} {sampled : Bool} {records : List Record}
      (h : Act s.desk (.wrote n key sampled records) d')
      (applied : s.applied? x = some (n, sampled, records)) : Carries s x d'

theorem receive_carries (hs : s.desk.Sound) {answer : Option Item}
    (hand : s.hands n = some (.found answer)) :
    Carries s (.receive n) (s.desk.receive n answer) := by
  have hdesk : (s.step (.receive n)).desk = s.desk.receive n answer := by
    simp [step, receive, hand]
  have hnothing := adds_receive hand
  rw [hdesk] at hnothing
  have hreceives := receive_receives n answer s.desk
  have hlate {t : Tail} {f : Feed} := @receive_lapses s.desk n t f
  generalize hreceive : s.desk.receive n answer = d' at *
  cases hreceives with
  | idle answer unfed =>
    refine .drifts (.of_winds (.refl _)) rfl (hnothing fun going => ?_)
    have fed := feed?_going going
    rw [unfed] at fed
    cases fed
  | @closed t f feeding =>
    obtain ⟨ht, hf, -⟩ := feeding?_eq_some.mp feeding
    exact .drifts (.of_winds (hs.endFeed_winds ht (by simp [hf]) f .closed s.desk.channels)) rfl
      (hnothing fun _ _ _ update => by cases update)
  | @item t f i feeding =>
    obtain ⟨ht, hf, going⟩ := feeding?_eq_some.mp feeding
    cases fired : t.session.cancelled with
    | true =>
      have stopped := (hs.tails t (List.mem_of_getElem? ht)).fired.mp fired
      have hlapses := hlate feeding stopped fired (some i)
      rw [hreceive] at hlapses
      have hn : n < s.desk.tails.length := (List.getElem?_eq_some_iff.mp ht).1
      exact .drifts (hlapses.drifts hs ht stopped (by simp [hf])) rfl
        (hnothing fun hgoing => hlapses.empty_of_going hn hgoing)
    | false =>
      have htakes := hs.takeItem_takes ht hf going fired f.stream s.desk.channels i
      cases htakes with
      | @wrote _ sampled records h item hgoing =>
        subst item
        refine .wrote h ?_
        have hfeed := h.feed?_wrote hgoing
        rw [← hdesk] at hfeed
        simp [applied?, hand, hfeed]
      | winds h unwritten =>
        refine .drifts (.of_winds h) rfl (hnothing fun hgoing sampled records he => ?_)
        rcases unwritten with other | done
        · exact absurd (Option.some.inj he) (other sampled records)
        · have hdone : ((s.desk.takeItem n t f i).report? n).isSome = true := done
          rw [report?_join, hgoing] at hdone
          cases hdone

/-- Whatever step a desk makes by itself, it comes to acts. -/
theorem step_carries (hs : s.desk.Sound) (own : x.isOwn = true) : Carries s x (s.step x).desk := by
  have hgoes := s.step_goes x
  generalize s.step x = s' at hgoes
  cases hgoes with
  | still unmet unfound =>
    have request : x.isRequest = false := by
      cases x with
      | meet i =>
        have busy := unmet i rfl
        cases i with
        | move m => cases m <;> first | rfl | cases busy
        | unlist | halt => rfl
      | _ => rfl
    refine .drifts (.of_winds (.refl _)) request (adds_unapplied ?_)
    cases x with
    | meet i =>
      cases i with
      | move m => simp [applied?, unmet _ rfl]
      | unlist | halt => rfl
    | receive n =>
      simp only [applied?]
      split
      · rename_i hand
        exact absurd hand (unfound n rfl _)
      · rfl
    | _ => rfl
  | @met i free =>
    cases i with
    | move m => exact .moved rfl free
    | unlist | halt => cases own
  | looked => exact .drifts (.of_winds (hs.look_winds _)) rfl fun _ => rfl
  | fetched => exact .drifts (.of_winds (fetch_winds _ _ s.desk)) rfl fun _ => rfl
  | received hand => exact receive_carries hs hand
  | stopped => exact .drifts (.of_winds (winds_teardowns.stopKey _ _ s.desk hs)) rfl fun _ => rfl
  | amid held => exact .drifts (hs.teardownAmid_drifts held _ _) rfl fun _ => rfl

theorem Carries.spotless (h : Carries s x d') (hd : s.desk.Spotless policy) :
    d'.Spotless policy := by
  cases h with
  | @moved m =>
    obtain ⟨deeds, ha⟩ := (hd.sound.move_comes m).acts
    exact ha.spotless hd
  | drifts h => exact h.spotless hd
  | wrote h => exact (Acts.one h).spotless hd

theorem steps_spotless (hd : s.desk.Spotless policy) (xs : List Step)
    (own : ∀ x ∈ xs, x.isOwn = true) : (s.steps xs).desk.Spotless policy := by
  induction xs generalizing s with
  | nil => exact hd
  | cons x xs ih =>
    have hfirst := step_carries hd.sound (own x List.mem_cons_self)
    exact ih (hfirst.spotless hd) fun y hy => own y (List.mem_cons_of_mem x hy)

/-- A step that stops no session of a key, and is not the request to clear its document, keeps
the lines of the document, so far as the budget allows. -/
theorem step_lines (hd : s.desk.Spotless policy) (own : x.isOwn = true)
    (unstopped : ∀ n, s.Stops n x → s.desk.key? n ≠ some key)
    (unasked : x ≠ .meet (.move (.clear key))) : (s.step x).desk.lines key =
      (s.desk.lines key ++ s.adds key x).rtake policy.budget := by
  rw [← hd.policy]
  have hcarries := step_carries hd.sound own
  generalize hstep : (s.step x).desk = d' at hcarries
  cases hcarries with
  | @moved m move free =>
    subst move
    have untorn : ∀ n, s.desk.Tears n m → s.desk.key? n ≠ some key := by
      intro n tears
      refine unstopped n ⟨tears.1, fun stopped => ?_, ?_⟩
      · have live := tears.2.1
        simp [isLive, stopped, Phase.isLive] at live
      · rw [hstep]
        exact phase?_iff.mpr (tears.stopped hd.sound)
    have happlied : s.applied? (.meet (.move m)) = s.desk.applied? m := by simp [applied?, free]
    have hadds : s.adds key (.meet (.move m)) = s.desk.adds key m := by
      unfold adds Desk.adds
      cases happly : s.desk.applied? m with
      | none => simp [happlied, happly]
      | some applied => simp [happlied, happly]
    have hclearing := hd.sound.not_clearing s.desk.policy.clearOnStop untorn
      fun he => unasked (by rw [he])
    rw [hd.sound.move_lines m (hd.within key), hclearing, hadds]
    rfl
  | drifts h other nothing =>
    rw [nothing, List.append_nil, ← hd.within key]
    refine h.lines hd.sound fun n hk going stopped => unstopped n ⟨other, going, ?_⟩ hk
    rw [hstep]
    exact stopped
  | @wrote _ n k sampled records h applied =>
    obtain ⟨hk, hlines⟩ := h.lines_wrote hd.sound (hd.within key)
    rw [hlines, adds, applied]
    simp [hk]

/-- Where documents are cleared at a stop, the document of a key has no lines unless a session
of the key runs, however far the pull of a feed had come when the last one was stopped. A
session that is stopped is the last of its key, so none of the lines cleared with it are of a
later one; and whatever stops no session of a key keeps the lines of its document, so far as
the budget allows. -/
theorem documents_cleared_on_stop (policy : Policy) (connector : Connector) (workspace : Workspace)
    (xs : List Step) (alone : connector.rivals = []) (onStop : policy.clearOnStop = true)
    (own : ∀ x ∈ xs, x.isOwn = true)
    (blank : ∀ key lines, workspace.lines? key = some lines → lines = []) :
    let s := (ofDesk (make policy connector workspace)).steps xs
    (∀ key, ¬ s.desk.Runs key → s.desk.lines key = []) ∧
    (∀ x n n' key, x.isOwn = true → s.Stops n x → s.desk.key? n = some key → n < n' →
      s.desk.key? n' ≠ some key) ∧
    ∀ x key, x.isOwn = true → (∀ n, s.Stops n x → s.desk.key? n ≠ some key) →
      x ≠ .meet (.move (.clear key)) →
      (s.step x).desk.lines key = (s.desk.lines key ++ s.adds key x).rtake policy.clamped.budget := by
  intro s
  have hempty := lines_make policy connector blank
  have hfirst : (make policy connector workspace).Spotless policy.clamped := {
    sound := sound_make policy connector workspace alone
    policy := rfl
    onStop := onStop
    blank := fun key _ => hempty key
    latest := fun n n' t t' ht => by cases ht
    within := fun key => by rw [hempty, List.rtake_nil] }
  have hd : s.desk.Spotless policy.clamped :=
    steps_spotless (s := ofDesk (make policy connector workspace)) hfirst xs own
  refine ⟨hd.blank, fun x n n' key _ stops hk later => ?_, fun x key own => step_lines hd own⟩
  obtain ⟨t, ht, -⟩ := key?_iff.mp hk
  have live : s.desk.isLive n = true := by
    rcases hd.sound.live_or_stopped ht with live | stopped
    · exact isLive_iff.mpr ⟨t, ht, live⟩
    · exact absurd (phase?_iff.mpr ⟨t, ht, stopped⟩) stops.2.1
  exact hd.latest.last live hk later

/-- A session is stopped when its feed has been handed a line, or while the feed takes it. The
document is empty then and stays so when the line is taken, and a line that the next session
writes stays as well. -/
theorem line_in_hand_is_not_written :
    let source : Source := { region := "eu-west-1", group := "app" }
    let script (message : String) : Plan :=
      .scripted [(0, .frame (.update false [{ time := some 0, message := some message }]))] true
    let handed : List Step := [.meet (.move (.provide (script "a"))),
      .meet (.move (.provide (script "b"))), .meet (.move (.start source)),
      .meet (.move (.answer 0)), .look 0, .fetch 0 true]
    let stopped : List Step := handed ++ [.meet (.move (.stop source.key))]
    let restarted : List Step := stopped ++ [.meet (.move (.start source)),
      .meet (.move (.answer 1)), .meet (.move (.pull 1))]
    let first := ofDesk (make ⟨100, 1000, true⟩ {} {})
    (first.steps (stopped ++ [.receive 0])).desk.lines source.key = [] ∧
      (first.steps (handed ++ [.stopAmid source.key .views])).desk.lines source.key = [] ∧
      ((first.steps restarted).step (.receive 0)).desk.lines source.key = ["00:00:00\tb"] := by
  intro source script handed stopped restarted first
  have blank : ∀ key lines, ({} : Workspace).lines? key = some lines → lines = [] := by
    intro key lines h
    cases h
  obtain ⟨hreceived, -, -⟩ := documents_cleared_on_stop ⟨100, 1000, true⟩ {} {}
    (stopped ++ [.receive 0]) rfl rfl (by decide) blank
  obtain ⟨hamid, -, -⟩ := documents_cleared_on_stop ⟨100, 1000, true⟩ {} {}
    (handed ++ [.stopAmid source.key .views]) rfl rfl (by decide) blank
  obtain ⟨-, -, hkept⟩ := documents_cleared_on_stop ⟨100, 1000, true⟩ {} {} restarted rfl rfl
    (by decide) blank
  have idle {d : Desk} (hnone : ∀ t ∈ d.tails, t.session.phase ≠ .running) : ¬ d.Runs source.key := by
    rintro ⟨n, t, ht, -, running⟩
    exact hnone t (List.mem_of_getElem? ht) running
  have unstopped : ∀ n, ¬ (first.steps restarted).Stops n (.receive 0) := by
    intro n stops
    obtain ⟨t, ht, -⟩ := phase?_iff.mp stops.2.2
    have hlength : ((first.steps restarted).step (.receive 0)).desk.tails.length = 2 := by decide
    have hn : n < 2 := hlength ▸ (List.getElem?_eq_some_iff.mp ht).1
    obtain rfl | rfl : n = 0 ∨ n = 1 := by omega
    · exact absurd stops (by decide)
    · exact absurd stops (by decide)
  refine ⟨hreceived source.key (idle (by decide)), hamid source.key (idle (by decide)), ?_⟩
  have hlines := hkept (.receive 0) source.key rfl (fun n stops => absurd stops (unstopped n)) nofun
  exact hlines.trans (by decide)

end Midway

end LogTail
