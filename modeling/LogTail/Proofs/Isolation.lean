import LogTail.Proofs.Channels
import LogTail.Proofs.Identity
import LogTail.Proofs.Publishing
import LogTail.Proofs.Stops

/-!
# Keys apart

All sessions share one roster, one workspace, one record and one connector. But whatever is
done for one key, by a request, by the work of a session, or at the views of a document,
leaves all that belongs to another as it was. This holds of every desk, whoever else acts
on it, since each entry of the roster and each request leads to a session of its own key.
-/
namespace LogTail

/-- The key for which a move is made, if it is made for one alone. -/
def Move.concerns? (m : Move) (d : Desk) : Option Key :=
  match m with
  | .start source => some source.key
  | .answer c => d.calls[c]?.map (·.key)
  | .stop key | .clear key | .await key => some key
  | .openView key | .closeView key _ | .scroll key _ _ => some key
  | .pull n | .arm n | .tick n => d.key? n
  | _ => none

namespace Desk

variable {d d' d'' : Desk} {c n : Nat} {t t' : Tail} {k key : Key} {source : Source}

/-- Nothing of a key has changed: what holds it, its sessions, with their phases, their times,
their transports and all that they have running, its document, with the lines and the
views, and what was recorded about it. -/
structure Untouched (key : Key) (d d' : Desk) : Prop where
  now : d'.now = d.now
  roster : KeyMap.get? key d'.roster = KeyMap.get? key d.roster
  tails : ∀ (n : Nat) (t : Tail), t.key = key → (d'.tails[n]? = some t ↔ d.tails[n]? = some t)
  document : d'.workspace.document? key = d.workspace.document? key
  events : d'.events key = d.events key

/-- The channels that the sessions of a key read, or will read, are as they were: what was
sent to them waits for them still. -/
def KeepsChannels (key : Key) (d d' : Desk) : Prop :=
  ∀ (n : Nat) (t : Tail), d.tails[n]? = some t → t.key = key →
    ∀ c ∈ channelsOf t.pipe, d'.channels[c]? = d.channels[c]?

/-- What a run does is done for other keys. -/
def Elsewhere (key : Key) : List Move → Desk → Prop
  | [], _ => True
  | m :: ms, d => (∃ k, m.concerns? d = some k ∧ k ≠ key) ∧ Elsewhere key ms (d.move m)

theorem about_other (other : k ≠ key) (notices : List Notice) :
    about key (notices.map fun x => (k, x)) = [] := by
  simp [about, other]

/-- What is recorded about another key does not show. -/
theorem events_other (other : k ≠ key) {notices : List Notice}
    (log : d'.log = (notices.map fun x => (k, x)).reverse ++ d.log) :
    d'.events key = d.events key := by
  rw [events_append log, about_other other, List.append_nil]

theorem events_other_one (other : k ≠ key) {x : Notice} (log : d'.log = (k, x) :: d.log) :
    d'.events key = d.events key := by
  have hone : d'.log = ([x].map fun y => (k, y)).reverse ++ d.log := log
  exact events_other other hone

namespace Untouched

theorem refl (key : Key) (d : Desk) : Untouched key d d := ⟨rfl, rfl, fun _ _ _ => .rfl, rfl, rfl⟩

theorem trans (h : Untouched key d d') (h' : Untouched key d' d'') : Untouched key d d'' where
  now := h'.now.trans h.now
  roster := h'.roster.trans h.roster
  tails n t hk := (h'.tails n t hk).trans (h.tails n t hk)
  document := h'.document.trans h.document
  events := h'.events.trans h.events

/-- What is left to show when no session is touched. -/
theorem aside (tails : d'.tails = d.tails) (now : d'.now = d.now)
    (roster : KeyMap.get? key d'.roster = KeyMap.get? key d.roster)
    (document : d'.workspace.document? key = d.workspace.document? key)
    (events : d'.events key = d.events key) : Untouched key d d' :=
  ⟨now, roster, fun n t _ => by rw [tails], document, events⟩

theorem relink (key : Key) (d : Desk) (channels : List Channel) :
    Untouched key d { d with channels } := .aside rfl rfl rfl rfl rfl

/-- What is left to show when a session of another key is replaced. -/
theorem replace (ht : d.tails[n]? = some t) (other : t.key ≠ key)
    (tails : d'.tails = d.tails.set n t') (same : t'.key = t.key) (now : d'.now = d.now)
    (roster : KeyMap.get? key d'.roster = KeyMap.get? key d.roster)
    (document : d'.workspace.document? key = d.workspace.document? key)
    (events : d'.events key = d.events key) : Untouched key d d' := by
  refine ⟨now, roster, fun m u hu => ?_, document, events⟩
  rw [tails]
  by_cases hm : n = m
  · -- neither what was there nor what is there now has the key
    subst hm
    have hn : n < d.tails.length := (List.getElem?_eq_some_iff.mp ht).1
    rw [List.getElem?_set_self hn, ht]
    constructor <;> rintro ⟨⟩
    · exact absurd (same.symm.trans hu) other
    · exact absurd hu other
  · rw [List.getElem?_set_ne hm]

/-- What is left to show when sessions of other keys are added. -/
theorem add {more : List Tail} (others : ∀ u ∈ more, u.key ≠ key)
    (tails : d'.tails = d.tails ++ more) (now : d'.now = d.now)
    (roster : KeyMap.get? key d'.roster = KeyMap.get? key d.roster)
    (document : d'.workspace.document? key = d.workspace.document? key)
    (events : d'.events key = d.events key) : Untouched key d d' := by
  refine ⟨now, roster, fun m u hu => ?_, document, events⟩
  rw [tails, List.getElem?_append]
  split
  · rfl
  · rename_i new
    have hnone : d.tails[m]? = none := List.getElem?_eq_none (Nat.le_of_not_lt new)
    rw [hnone]
    constructor
    · intro hmore
      exact absurd hu (others u (List.mem_of_getElem? hmore))
    · rintro ⟨⟩

end Untouched

theorem get?_removeInstance_elsewhere (other : k ≠ key) (n : Nat) (r : Roster) :
    KeyMap.get? key (r.removeInstance k n).2 = KeyMap.get? key r := by
  rw [get?_removeInstance, if_neg fun h => other h.1]

theorem document?_onDocument_other (other : k ≠ key) (f : Document → Document) (w : Workspace) :
    (w.onDocument k f).document? key = w.document? key := by
  rw [Workspace.document?_onDocument, if_neg other]

/-! ### Sessions that stop, and the work that they leave running -/

theorem untouched_teardown (ht : d.tails[n]? = some t) (other : t.key ≠ key) (reason : StopReason) :
    Untouched key d (d.teardown n reason).2 := by
  have same : Tail.key { t with session := (t.session.stop d.now).2 } = t.key :=
    Session.stop_key d.now t.session
  have htears := teardown_tearsDown n reason d
  generalize (d.teardown n reason).2 = d' at htears
  cases htears with
  | absent => exact .refl key d
  | again hu =>
    rw [ht] at hu
    cases hu
    exact .replace ht other rfl same rfl (get?_removeInstance_elsewhere other n _) rfl rfl
  | first hu =>
    rw [ht] at hu
    cases hu
    refine .replace ht other rfl same rfl (get?_removeInstance_elsewhere other n _) ?_
      (events_other_one other rfl)
    split
    · exact document?_onDocument_other other Document.clear d.workspace
    · rfl

theorem Steady.untouched_stopKey (hs : d.Steady) (other : k ≠ key) (reason : StopReason) :
    Untouched key d (d.stopKey k reason).2 := by
  unfold stopKey
  cases held : KeyMap.get? k d.roster with
  | none => exact .refl key d
  | some n =>
    obtain ⟨t, ht, rfl⟩ := hs.listed k n held
    exact untouched_teardown ht other reason

theorem untouched_endFeed (ht : d.tails[n]? = some t) (other : t.key ≠ key) (f : Feed)
    (exit : Exit) : Untouched key d (d.endFeed n t f exit) := by
  let t₁ : Tail := { t with feed := some { f with report := some ⟨exit, f.tally⟩ } }
  let d₁ : Desk := { d with
    channels := Channel.release f.stream.channel? d.channels, tails := d.tails.set n t₁ }
  have ht₁ : d₁.tails[n]? = some t₁ :=
    List.getElem?_set_self (List.getElem?_eq_some_iff.mp ht).1
  have hput : Untouched key d d₁ := .replace ht other rfl rfl rfl rfl rfl rfl
  exact hput.trans (untouched_teardown ht₁ other .streamEnded)

theorem untouched_takeItem (ht : d.tails[n]? = some t) (other : t.key ≠ key) (f : Feed) (i : Item) :
    Untouched key d (d.takeItem n t f i) := by
  cases outcome : ({ document := (d.workspace.document? t.key).getD {}, tally := f.tally } :
      Pump).take t.session.budget t.session.cancelled (some i) with
  | mk exit p =>
  let d₁ : Desk := { d with
    workspace := d.workspace.onDocument t.key fun _ => p.document
    log := (p.notices.map fun x => (t.key, x)).reverse ++ d.log }
  have hwrite : Untouched key d d₁ :=
    .aside rfl rfl rfl (document?_onDocument_other other _ d.workspace) (events_other other rfl)
  simp only [takeItem, outcome]
  cases exit with
  | none => exact hwrite.trans (.replace ht other rfl rfl rfl rfl rfl rfl)
  | some exit => exact hwrite.trans (untouched_endFeed (d := d₁) ht other _ exit)

theorem key?_eq_some (ht : d.tails[n]? = some t) (concerned : d.key? n = some k) : t.key = k := by
  simpa [key?, ht] using concerned

theorem untouched_pull (concerned : d.key? n = some k) (other : k ≠ key) :
    Untouched key d (d.pull n) := by
  have hother {t : Tail} (ht : d.tails[n]? = some t) : t.key ≠ key :=
    fun he => other ((key?_eq_some ht concerned).symm.trans he)
  have hpulls := pull_pulls n d
  generalize d.pull n = d' at hpulls
  cases hpulls with
  | idle => exact .refl key d
  | cancelled ht hf => exact untouched_endFeed ht (hother ht) _ _
  | waits ht hf => exact .replace ht (hother ht) rfl rfl rfl rfl rfl rfl
  | @closed t f stream channels ht hf =>
    exact (Untouched.relink key d channels).trans
      (untouched_endFeed (d := { d with channels }) ht (hother ht) _ _)
  | @item t f stream channels i ht hf =>
    exact (Untouched.relink key d channels).trans
      (untouched_takeItem (d := { d with channels }) ht (hother ht) _ i)

theorem untouched_arm (concerned : d.key? n = some k) (other : k ≠ key) :
    Untouched key d (d.arm n) := by
  have harms := arm_arms n d
  generalize d.arm n = d' at harms
  cases harms with
  | idle => exact .refl key d
  | armed ht =>
    obtain rfl := key?_eq_some ht concerned
    exact .replace ht other rfl rfl rfl rfl rfl rfl

theorem untouched_tick (concerned : d.key? n = some k) (other : k ≠ key) :
    Untouched key d (d.tick n) := by
  have hticks := tick_ticks n d
  generalize d.tick n = d' at hticks
  cases hticks with
  | idle => exact .refl key d
  | ended ht =>
    obtain rfl := key?_eq_some ht concerned
    exact .replace ht other rfl rfl rfl rfl rfl rfl
  | told ht =>
    obtain rfl := key?_eq_some ht concerned
    exact .replace ht other rfl rfl rfl rfl rfl (events_other_one other rfl)

theorem untouched_clear (other : k ≠ key) : Untouched key d (d.clear k).2 := by
  have hclears := clear_clears k d
  generalize (d.clear k).2 = d' at hclears
  cases hclears with
  | idle => exact .refl key d
  | cleared =>
    exact .aside rfl rfl rfl (document?_onDocument_other other Document.clear d.workspace)
      (events_other_one other rfl)

/-! ### The two halves of a start -/

theorem Begun.untouched (h : Begun source d d') (other : source.key ≠ key) :
    Untouched key d d' := by
  have hfocus :=
    Workspace.shifts_other (Workspace.focusDocument_shifts source.key d.workspace) other
  have hinsert := KeyMap.get?_insert source.key key d.tails.length d.roster
  rw [if_neg other] at hinsert
  cases h with
  | refused => exact .aside rfl rfl rfl rfl (events_other_one other rfl)
  | refocused => exact .aside rfl rfl rfl hfocus (events_other_one other rfl)
  | @outrun transport =>
    refine .add (fun u hu => ?_) rfl rfl hinsert hfocus (events_other_one other rfl)
    have hkey : u.key = source.key := by
      rcases List.mem_pair.mp hu with rfl | rfl
      · rfl
      · exact Session.stop_key d.now { source, budget := d.policy.budget, transport }
    rw [hkey]
    exact other
  | entered =>
    refine .add (fun u hu => ?_) rfl rfl hinsert rfl rfl
    rw [List.mem_singleton.mp hu]
    exact other

theorem Finished.untouched (h : Finished c n k t d d') (ht : d.tails[n]? = some t)
    (same : t.key = k) (other : k ≠ key) : Untouched key d d' := by
  have hother : t.key ≠ key := same ▸ other
  cases h with
  | @opened stream transport workspace handles starting answer document =>
    have hshifts := Workspace.openDocument_shifts k d.workspace
    rw [document] at hshifts
    exact .replace ht hother rfl rfl rfl rfl (Workspace.shifts_other hshifts other)
      (events_other_one other rfl)
  | failed =>
    exact .replace ht hother rfl (Session.stop_key _ _) rfl
      (get?_removeInstance_elsewhere other n _) rfl (events_other_one other rfl)

/-- Whatever move is made for one key, nothing of another changes. -/
theorem Steady.move_untouched (hs : d.Steady) {m : Move} (concerned : m.concerns? d = some k)
    (other : k ≠ key) : Untouched key d (d.move m) := by
  cases m with
  | start source =>
    cases concerned
    exact (beginStart_begun hs.room source).untouched other
  | answer c =>
    have hturns := hs.move_turns (.answer c)
    generalize d.move (.answer c) = d' at hturns
    cases hturns with
    | worked request => cases request
    | unasked => exact .refl key d
    | finished hc ht pending h =>
      obtain ⟨due, hcall⟩ := hc
      obtain rfl : _ = k := by simpa [Move.concerns?, hcall] using concerned
      exact h.untouched ht pending.key other
  | stop k' =>
    cases concerned
    exact hs.untouched_stopKey other .explicit
  | clear k' =>
    cases concerned
    exact untouched_clear other
  | await k' => exact .aside rfl rfl rfl rfl rfl
  | pull n => exact untouched_pull concerned other
  | arm n => exact untouched_arm concerned other
  | tick n => exact untouched_tick concerned other
  | openView k' =>
    cases concerned
    exact .aside rfl rfl rfl
      (Workspace.shifts_other (Workspace.openView_shifts k d.workspace) other) rfl
  | closeView k' id =>
    cases concerned
    exact .aside rfl rfl rfl
      (Workspace.shifts_other (Workspace.closeView_shifts k id d.workspace) other) rfl
  | scroll k' id top =>
    cases concerned
    exact .aside rfl rfl rfl (document?_onDocument_other other _ d.workspace) rfl
  | stopAll | stopUnviewed | watch | drop | wake | pass | provide | cut | send | closeSender =>
    cases concerned

theorem Steady.moves_untouched (hs : d.Steady) (ms : List Move) (elsewhere : Elsewhere key ms d) :
    Untouched key d (d.moves ms) := by
  induction ms generalizing d with
  | nil => exact .refl key d
  | cons m ms ih =>
    obtain ⟨⟨k, concerned, other⟩, elsewhere⟩ := elsewhere
    exact (hs.move_untouched concerned other).trans (ih (hs.move m) elsewhere)

/-! ### What waits to be read -/

theorem reads_elsewhere (hp : d.Supplied) {m : Nat} {u : Tail} (ht : d.tails[n]? = some t)
    (hu : d.tails[m]? = some u) (apart : t.key ≠ u.key) {c : Nat} (reads : c ∈ channelsOf u.pipe) :
    c ∉ channelsOf t.pipe := by
  have hne : m ≠ n := by
    rintro rfl
    cases ht.symm.trans hu
    exact apart rfl
  exact hp.distinct (pipes_getElem? hu) (pipes_getElem? ht) hne reads

/-- A channel that a session reads is not one that a connection to come will read. -/
theorem reads_not_laid (hp : d.Supplied) (ht : d.tails[n]? = some t) {c : Nat}
    (reads : c ∈ channelsOf t.pipe) : (d.connector.scripts.headD .silent).channel? ≠ some c := by
  intro laid
  have hscript : c ∈ d.connector.scripts.filterMap Script.channel? := by
    cases hscripts : d.connector.scripts with
    | nil =>
      rw [hscripts] at laid
      cases laid
    | cons s rest =>
      rw [hscripts] at laid
      exact List.mem_filterMap.mpr ⟨s, by simp, laid⟩
  have hpipe : c ∈ d.pipes.flatMap channelsOf :=
    List.mem_flatMap.mpr ⟨t.pipe, List.mem_of_getElem? (pipes_getElem? ht), reads⟩
  exact (List.nodup_append.mp hp.apart).2.2 c hscript c hpipe rfl

theorem Steady.move_keepsChannels (hs : d.Steady) (hp : d.Supplied) {m : Move}
    (concerned : m.concerns? d = some k) (other : k ≠ key) : KeepsChannels key d (d.move m) := by
  intro n u hu hk c reads
  cases m with
  | start source =>
    exact getElem?_of_released (beginStart_channels hs.room source) (reads_not_laid hp hu reads)
  | answer a =>
    by_cases asked : ∃ j k, Opens d.calls a j k
    · obtain ⟨j, k', hc⟩ := asked
      obtain ⟨t, ht, pending, -⟩ := hs.finishStart hc
      have hkey : k' = k := by
        obtain ⟨due, hcall⟩ := hc
        simpa [Move.concerns?, hcall] using concerned
      have apart : t.key ≠ u.key := by rwa [pending.key, hkey, hk]
      have unread := reads_elsewhere hp ht hu apart reads
      have hreleased := finishStart_channels hc ht pending.called
      refine getElem?_of_released hreleased fun hchannel => unread ?_
      have hscript : t.session.transport.script.bind Script.channel? = some c := hchannel
      simp [channelsOf, Tail.pipe, hscript]
    · rw [Desk.move, finishStart_unasked fun j k hc => asked ⟨j, k, hc⟩]
  | pull j =>
    obtain ⟨t, ht, hkey⟩ := key?_iff.mp concerned
    have apart : t.key ≠ u.key := by rwa [hkey, hk]
    exact pull_channels ht (reads_elsewhere hp ht hu apart reads)
  | stop k' => rw [Desk.move, (undrawn_teardowns.stopKey k' .explicit d).channels]
  | clear k' => rw [Desk.move, (undrawn_clear k' d).channels]
  | arm j => rw [Desk.move, (undrawn_arm j d).channels]
  | tick j => rw [Desk.move, (undrawn_tick j d).channels]
  | await | openView | closeView | scroll => rfl
  | stopAll | stopUnviewed | watch | drop | wake | pass | provide | cut | send | closeSender =>
    cases concerned

theorem Steady.moves_keepsChannels (hs : d.Steady) (hp : d.Supplied) (ms : List Move)
    (elsewhere : Elsewhere key ms d) : KeepsChannels key d (d.moves ms) := by
  induction ms generalizing d with
  | nil => exact fun _ _ _ _ _ _ => rfl
  | cons m ms ih =>
    obtain ⟨⟨k, concerned, other⟩, elsewhere⟩ := elsewhere
    intro n t ht hk c reads
    -- the session is the same after the first move, so it reads the same channels
    have ht' := ((hs.move_untouched concerned other).tails n t hk).mpr ht
    have hrest := ih (hs.move m) (hs.supplied_meet hp (.move m)) elsewhere n t ht' hk c reads
    exact hrest.trans (hs.move_keepsChannels hp concerned other n t ht hk c reads)

/-- Whatever has happened to a desk, also by the hands of others, and whichever two sources
differ in meaning: a move that is made for the key of one, be it a request, its answer, the
work of a session, a stop, a clearing, or something done at a view, leaves all that belongs
to the key of the other as it was; and so does a run of moves made for keys other than it.
What waits for the sessions of that key in their channels waits there still, if no two
connections were given one channel. -/
theorem keys_apart (policy : Policy) (connector : Connector) (workspace : Workspace)
    (before : List Incident) (source other : Source) (different : ¬ source.Alike other) :
    let d := (make policy connector workspace).meets before
    (∀ m : Move, m.concerns? d = some source.key → Untouched other.key d (d.move m)) ∧
      (∀ ms, Elsewhere other.key ms d → Untouched other.key d (d.moves ms)) ∧
      ((∀ s ∈ connector.scripts, s.channel? = none) →
        ∀ ms, Elsewhere other.key ms d → KeepsChannels other.key d (d.moves ms)) := by
  intro d
  have hs : d.Steady := (steady_make policy connector workspace).meets before
  have hkeys : source.key ≠ other.key :=
    fun same => different (Source.alike_iff.mpr (Source.key_eq_iff.mp same))
  refine ⟨fun m concerned => hs.move_untouched concerned hkeys, fun ms => hs.moves_untouched ms, ?_⟩
  intro unshared ms
  have hp : d.Supplied := (steady_make policy connector workspace).supplied_meets
    (supplied_make policy connector workspace unshared) before
  exact hs.moves_keepsChannels hp ms

/-- While one session reads a channel, a start that is made and answered for another group
leaves it, its document and what waits for it alone. -/
theorem keys_apart_second_group :
    let app : Source := { region := "eu-west-1", group := "app" }
    let web : Source := { region := "eu-west-1", group := "web" }
    let d := (make ⟨100, 1000, true⟩ {} {}).meets [.move (.provide (.channel [])),
      .move (.start app), .move (.answer 0), .move (.send 0 (.frame (.unknown "ping")))]
    ¬ web.Alike app ∧ Untouched app.key d (d.move (.start web)) ∧
      KeepsChannels app.key d (d.moves [.start web, .answer 1]) := by
  intro app web d
  have different : ¬ web.Alike app := by
    rw [Source.alike_iff]
    decide
  obtain ⟨hmove, -, hchannels⟩ := keys_apart ⟨100, 1000, true⟩ {} {}
    [.move (.provide (.channel [])), .move (.start app), .move (.answer 0),
      .move (.send 0 (.frame (.unknown "ping")))] web app different
  have elsewhere : Elsewhere app.key [.start web, .answer 1] d :=
    ⟨⟨web.key, rfl, by decide⟩, ⟨web.key, by decide, by decide⟩, trivial⟩
  have unshared : ∀ s ∈ ({} : Connector).scripts, s.channel? = none := by
    intro s hs
    cases hs
  exact ⟨different, hmove (.start web) rfl, hchannels unshared _ elsewhere⟩

end Desk

end LogTail
