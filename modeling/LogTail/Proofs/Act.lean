import LogTail.Proofs.Lines
import LogTail.Proofs.Sound

/-!
# Acts

Every move of a sound desk is a chain of acts. An act does one thing: it records one
notice at most, and it says in full what becomes of the sessions, the roster, the
requests and the documents. What is to be proved of all runs is proved of each act.
-/
namespace LogTail

/-- What an act puts on record. -/
inductive Deed where
  | silent
  | told (key : Key) (notice : Notice)
  /-- A request has its answer as soon as it was made. -/
  | replied (key : Key) (notice : Notice)
  /-- A session took its key, and its call has gone out. -/
  | entered (session : Nat) (key : Key)
  /-- A request that waited for the service has its answer. -/
  | answered (call : Nat) (key : Key) (notice : Notice)
  | torn (session : Nat) (key : Key) (reason : StopReason)
  /-- An update was written into the document of a session. -/
  | wrote (session : Nat) (key : Key) (sampled : Bool) (records : List Record)
  deriving Repr

namespace Deed

/-- A stop, or nothing that shows. -/
def isWinding : Deed → Prop
  | silent | torn .. => True
  | _ => False

def news : Deed → List (Key × Notice)
  | silent | entered .. => []
  | told key notice | replied key notice | answered _ key notice => [(key, notice)]
  | torn _ key reason => [(key, .stopped reason)]
  | wrote _ key sampled records => [(key, .update sampled records.length)]

end Deed

/-- Work on what a session leaves running that does not touch the session. -/
structure Tended (t t' : Tail) : Prop where
  session : t'.session = t.session
  own : t'.own = t.own
  feed : t'.feed.map (·.report) = t.feed.map (·.report)
  ticker : t'.ticker = .absent ↔ t.ticker = .absent

namespace Tended

variable {t t' : Tail}

theorem key (h : Tended t t') : t'.key = t.key := congrArg Session.key h.session

theorem feed_eq_none (h : Tended t t') : t'.feed = none ↔ t.feed = none := by
  rw [← Option.map_eq_none_iff, h.feed, Option.map_eq_none_iff]

theorem sound (h : Tended t t') (hs : t.Sound) : t'.Sound where
  own := h.own.trans hs.own
  begun := by rw [h.session]; exact hs.begun
  fired := by rw [h.session]; exact hs.fired
  unfed hp := h.feed_eq_none.mpr (hs.unfed (h.session ▸ hp))
  fed hp := by
    obtain ⟨f, hf, hr⟩ := hs.fed (h.session ▸ hp)
    have hfeed := h.feed
    rw [hf, Option.map_some, hr] at hfeed
    exact Option.map_eq_some_iff.mp hfeed
  ticking := by rw [h.ticker, h.feed_eq_none]; exact hs.ticking

end Tended

/-- The session that a start puts on the roster: its call has gone out. -/
def Session.calling (source : Source) (budget : Nat) (transport : Transport) (now : Nat) : Session :=
  { source, budget, transport := transport.beginOpen, phase := .starting, startedAt := some now }

theorem Tail.Sound.calling (source : Source) (budget : Nat) (transport : Transport) (now : Nat) :
    Tail.Sound { session := .calling source budget transport now } := by
  refine ⟨rfl, ?_, ?_, fun _ => rfl, ?_, ?_⟩ <;> simp [Session.calling]

/-- What an update makes of a document: nothing if it has no entries. -/
def Writes (budget : Nat) (records : List Record) (doc doc' : Document) : Prop :=
  entriesOf records = [] ∧ doc' = doc ∨
    entriesOf records ≠ [] ∧ ∃ a, doc.follow budget (entriesOf records) = (.ok a, doc')

namespace Desk

/-- Nothing has happened to a session, the record or the text of a document. -/
structure Beside (d d' : Desk) : Prop where
  now : d.now ≤ d'.now
  policy : d'.policy = d.policy
  rivals : d'.connector.rivals = d.connector.rivals
  connects : d'.connector.connects = d.connector.connects
  roster : d'.roster = d.roster
  tails : d'.tails = d.tails
  log : d'.log = d.log
  calls : d'.calls = d.calls
  lines : ∀ key, d'.workspace.lines? key = d.workspace.lines? key

inductive Act (d : Desk) : Deed → Desk → Prop where
  | beside {d' : Desk} (h : d.Beside d') : Act d .silent d'
  | tended {n : Nat} {t t' : Tail} {channels : List Channel} (ht : d.tails[n]? = some t)
      (h : Tended t t') : Act d .silent { d with tails := d.tails.set n t', channels }
  | refused (key : Key) (fault : Fault) {connector : Connector}
      (rivals : connector.rivals = d.connector.rivals)
      (scripts : connector.scripts = d.connector.scripts)
      (unconnected : connector.connects = d.connector.connects ∨ d.connector.fault.isSome = true) :
      Act d (.replied key (.startFailed fault.message))
      { d with
        connector
        log := (key, .startFailed fault.message) :: d.log
        calls := d.calls ++ [⟨key, .answered (.error fault)⟩] }
  | refocused {key : Key} (held : KeyMap.contains key d.roster) : Act d (.replied key .refocused)
      { d with
        workspace := (d.workspace.focusDocument key).2
        log := (key, .refocused) :: d.log
        calls := d.calls ++ [⟨key, .answered (.ok .refocused)⟩] }
  | entered {source : Source} {transport : Transport} {connector : Connector}
      (valid : source.check = .ok ()) (free : KeyMap.get? source.key d.roster = none)
      (connected : d.connector.connect = (.ok transport, connector)) :
      Act d (.entered d.tails.length source.key)
      { d with
        connector
        roster := KeyMap.insert source.key d.tails.length d.roster
        tails := d.tails ++ [{ session := .calling source d.policy.budget transport d.now }]
        calls := d.calls ++ [⟨source.key, .opening d.tails.length (d.now + transport.delay)⟩] }
  | opened {c n : Nat} {key : Key} {t : Tail} {stream : Stream} {transport : Transport}
      {workspace : Workspace} {handles : KeyMap Nat} (hc : Opens d.calls c n key)
      (ht : d.tails[n]? = some t) (starting : t.session.phase = .starting)
      (answer : t.session.transport.finishOpen = (.ok stream, transport))
      (document : d.workspace.openDocument key = (.ok (), workspace)) :
      Act d (.answered c key .started)
      { d with
        workspace
        tails := d.tails.set n { t with
          session := { t.session with transport, phase := .running }
          feed := some { stream }
          ticker := .fresh }
        log := (key, .started) :: d.log
        handles
        calls := answered d.calls c (.ok .opened) }
  | failed {c n : Nat} {key : Key} {t : Tail} {transport : Transport} {workspace : Workspace}
      {number : Option Nat} (fault : Fault) (hc : Opens d.calls c n key)
      (ht : d.tails[n]? = some t) (starting : t.session.phase = .starting)
      (answer : t.session.transport.finishOpen.2 = transport)
      (requests : ∃ r, workspace = { d.workspace with requests := r }) :
      Act d (.answered c key (.startFailed fault.message))
      { d with
        workspace
        channels := Channel.release number d.channels
        roster := KeyMap.erase key d.roster
        tails := d.tails.set n { t with
          session := (Session.stop d.now { t.session with transport }).2 }
        log := (key, .startFailed fault.message) :: d.log
        calls := answered d.calls c (.error fault) }
  | overtaken {c n : Nat} {key : Key} {t : Tail} {transport : Transport}
      {number : Option Nat} (fault : Fault) (hc : Opens d.calls c n key)
      (ht : d.tails[n]? = some t) (stopped : t.session.phase = .stopped)
      (answer : t.session.transport.finishOpen.2 = transport) :
      Act d (.answered c key (.startFailed fault.message))
      { d with
        channels := Channel.release number d.channels
        tails := d.tails.set n { t with session := { t.session with transport } }
        log := (key, .startFailed fault.message) :: d.log
        calls := answered d.calls c (.error fault) }
  | torn {n : Nat} {t : Tail} (reason : StopReason) (ht : d.tails[n]? = some t)
      (live : t.session.phase.isLive = true) : Act d (.torn n t.key reason)
      { d with
        workspace := if d.policy.clearOnStop then d.workspace.clearDocument t.key else d.workspace
        roster := KeyMap.erase t.key d.roster
        tails := d.tails.set n { t with session := (t.session.stop d.now).2 }
        log := (t.key, .stopped reason) :: d.log }
  | left {n : Nat} {t : Tail} {f : Feed} {channels : List Channel} (ht : d.tails[n]? = some t)
      (stopped : t.session.phase = .stopped) (fed : t.feed.isSome) : Act d .silent
      { d with channels, tails := d.tails.set n { t with feed := some f } }
  | cleared {key : Key} (held : KeyMap.contains key d.roster) : Act d (.told key .cleared)
      { d with
        workspace := d.workspace.clearDocument key
        log := (key, .cleared) :: d.log }
  | wrote {n : Nat} {t : Tail} {f : Feed} {stream : Stream} {tally : Tally}
      {channels : List Channel} {doc doc' : Document} {sampled : Bool} {records : List Record}
      (ht : d.tails[n]? = some t) (running : t.session.phase = .running) (hf : t.feed = some f)
      (document : d.workspace.document? t.key = some doc)
      (h : Writes t.session.budget records doc doc') : Act d (.wrote n t.key sampled records)
      { d with
        workspace := d.workspace.onDocument t.key fun _ => doc'
        channels
        tails := d.tails.set n { t with feed := some { f with stream, tally } }
        log := (t.key, .update sampled records.length) :: d.log }
  | ticked {n : Nat} {t : Tail} (next : Nat) (ht : d.tails[n]? = some t)
      (running : t.session.phase = .running) (ticking : t.ticker ≠ .absent) :
      Act d (.told t.key (.elapsed (t.session.duration d.now)))
      { d with
        tails := d.tails.set n { t with ticker := .due next }
        log := (t.key, .elapsed (t.session.duration d.now)) :: d.log }

variable {d d' : Desk} {deed : Deed}

theorem Act.log (h : Act d deed d') : d'.log = deed.news ++ d.log := by
  cases h with
  | beside h => exact h.log
  | _ => rfl

theorem Act.policy (h : Act d deed d') : d'.policy = d.policy := by
  cases h with
  | beside h => exact h.policy
  | _ => rfl

/-- What is left to show when one session is replaced: how it fits on the roster and
with the requests. -/
theorem Sound.replace {n : Nat} {t t' : Tail} (hs : d.Sound) (ht : d.tails[n]? = some t)
    (tails : d'.tails = d.tails.set n t') (connector : d'.connector = d.connector)
    (policy : d'.policy = d.policy) (key : t'.key = t.key) (sound : t'.Sound)
    (budget : t'.session.budget = t.session.budget)
    (keeps : ∀ k, (d.workspace.document? k).isSome → (d'.workspace.document? k).isSome)
    (document : t'.feed.isSome → (d'.workspace.document? t.key).isSome)
    (ordered : KeyMap.Ordered d'.roster) (lists : d'.roster.Lists (d.tails.set n t'))
    (awaited : Awaited d'.calls (d.tails.set n t')) : d'.Sound := by
  have hmem : t ∈ d.tails := List.mem_of_getElem? ht
  exact {
    rivals := by rw [connector]; exact hs.rivals
    room := by rw [policy]; exact hs.room
    ordered := ordered
    lists := by rw [tails]; exact lists
    tails := by
      intro u hu
      rcases List.mem_or_eq_of_mem_set (tails ▸ hu) with hu | rfl
      · exact hs.tails u hu
      · exact sound
    budget := by
      intro u hu
      rw [policy]
      rcases List.mem_or_eq_of_mem_set (tails ▸ hu) with hu | rfl
      · exact hs.budget u hu
      · exact budget.trans (hs.budget t hmem)
    document := by
      intro u hu hf
      rcases List.mem_or_eq_of_mem_set (tails ▸ hu) with hu | rfl
      · exact keeps _ (hs.document u hu hf)
      · exact key ▸ document hf
    awaited := by rw [tails]; exact awaited }

/-- What is left to show when no session is touched. -/
theorem Sound.retain (hs : d.Sound) (connector : d'.connector.rivals = d.connector.rivals)
    (policy : d'.policy = d.policy) (roster : d'.roster = d.roster) (tails : d'.tails = d.tails)
    (keeps : ∀ k, (d.workspace.document? k).isSome → (d'.workspace.document? k).isSome)
    (awaited : Awaited d'.calls d.tails) : d'.Sound where
  rivals := by rw [connector]; exact hs.rivals
  room := by rw [policy]; exact hs.room
  ordered := by rw [roster]; exact hs.ordered
  lists := by rw [roster, tails]; exact hs.lists
  tails := by rw [tails]; exact hs.tails
  budget := by rw [tails, policy]; exact hs.budget
  document := by rw [tails]; exact fun t ht hf => keeps _ (hs.document t ht hf)
  awaited := by rw [tails]; exact awaited

theorem Act.sound (h : Act d deed d') (hs : d.Sound) : d'.Sound := by
  cases h with
  | beside h =>
    refine hs.retain h.rivals h.policy h.roster h.tails (fun k hk => ?_) (h.calls ▸ hs.awaited)
    rw [← Workspace.lines?_isSome, h.lines, Workspace.lines?_isSome]
    exact hk
  | @tended n t t' channels ht h =>
    have hmem : t ∈ d.tails := List.mem_of_getElem? ht
    have hkey := h.key
    refine hs.replace ht rfl rfl rfl hkey (h.sound (hs.tails t hmem)) (by rw [h.session])
      (fun _ hk => hk) (fun hf => hs.document t hmem ?_) hs.ordered
      (hs.lists.set ht hkey (by rw [h.session]))
      (hs.awaited.set ht hkey h.feed_eq_none.mpr (by rw [h.session]; exact id))
    rw [Option.isSome_iff_ne_none, Ne, h.feed_eq_none] at hf
    exact Option.isSome_iff_ne_none.mpr hf
  | refused key fault rivals =>
    exact hs.retain rivals rfl rfl rfl (fun _ hk => hk) (hs.awaited.add_answered _ _)
  | @refocused key held =>
    refine hs.retain rfl rfl rfl rfl (fun k hk => ?_) (hs.awaited.add_answered _ _)
    rw [← Workspace.lines?_isSome, Workspace.lines?_focusDocument, Workspace.lines?_isSome]
    exact hk
  | @entered source transport connector valid free connected =>
    let t : Tail := { session := .calling source d.policy.budget transport d.now }
    have hmem {u : Tail} (hu : u ∈ d.tails ++ [t]) : u ∈ d.tails ∨ u = t := by
      simpa using hu
    exact {
      rivals := by
        have hc : connector = d.connector.connect.2 := by rw [connected]
        rw [hc]
        exact d.connector.connect_rivals.trans hs.rivals
      room := hs.room
      ordered := hs.ordered.insert
      lists := hs.lists.add (t := t) free rfl
      tails := by
        intro u hu
        rcases hmem hu with hu | rfl
        · exact hs.tails u hu
        · exact .calling source d.policy.budget transport d.now
      budget := by
        intro u hu
        rcases hmem hu with hu | rfl
        · exact hs.budget u hu
        · rfl
      document := by
        intro u hu hf
        rcases hmem hu with hu | rfl
        · exact hs.document u hu hf
        · cases hf
      awaited := hs.awaited.add_opening (t := t) rfl (by simp [t, Session.calling]) _ }
  | @opened c n key t stream transport workspace handles hc ht starting answer document =>
    have hmem : t ∈ d.tails := List.mem_of_getElem? ht
    obtain ⟨rfl, -⟩ := hs.awaited.tail hc ht
    have hopen (k : Key) : (workspace.document? k).isSome =
        (if t.key = k then true else (d.workspace.document? k).isSome) := by
      rw [← Workspace.lines?_isSome, Workspace.lines?_openDocument document]
      split
      · rfl
      · exact Workspace.lines?_isSome
    refine hs.replace ht rfl rfl rfl rfl ((hs.tails t hmem).welcome starting transport stream) rfl
      (fun k hk => ?_) (fun _ => ?_) hs.ordered (hs.lists.set ht rfl ?_) (hs.awaited.run hc _ _)
    · rw [hopen, hk]
      simp
    · rw [hopen, if_pos rfl]
    · rw [starting]
      rfl
  | @failed c n key t transport workspace number fault hc ht starting answer requests =>
    have hmem : t ∈ d.tails := List.mem_of_getElem? ht
    obtain ⟨rfl, hfeed, -⟩ := hs.awaited.tail hc ht
    obtain ⟨r, rfl⟩ := requests
    have hlive : t.session.phase.isLive = true := by
      rw [starting]
      rfl
    have hstop := ((hs.tails t hmem).withTransport transport).stop hlive d.now
    exact hs.replace ht rfl rfl rfl (by simp [Tail.key, Session.key, Session.stop, starting]) hstop
      (by simp) (fun _ hk => hk) (by simp [hfeed]) hs.ordered.erase
      (hs.lists.stop ht hlive (Session.stop_key _ _) (by simp [Phase.isLive]))
      ((hs.awaited.answer c _).set ht (Session.stop_key _ _) id (by simp))
  | @overtaken c n key t transport number fault hc ht stopped answer =>
    have hmem : t ∈ d.tails := List.mem_of_getElem? ht
    exact hs.replace ht rfl rfl rfl rfl ((hs.tails t hmem).withTransport transport) rfl
      (fun _ hk => hk) (hs.document t hmem) hs.ordered (hs.lists.set ht rfl rfl)
      ((hs.awaited.answer c _).set ht rfl id id)
  | @torn n t reason ht live =>
    have hmem : t ∈ d.tails := List.mem_of_getElem? ht
    have hdoc (k : Key) : (Workspace.document? k (if d.policy.clearOnStop
        then d.workspace.clearDocument t.key else d.workspace)).isSome =
        (d.workspace.document? k).isSome := by
      split
      · exact Workspace.document?_clearDocument_isSome
      · rfl
    refine hs.replace ht rfl rfl rfl (Session.stop_key _ _) ((hs.tails t hmem).stop live _)
      (by simp) (fun k hk => ?_) (fun hf => ?_) hs.ordered.erase
      (hs.lists.stop ht live (Session.stop_key _ _) (by simp [Phase.isLive]))
      (hs.awaited.set ht (Session.stop_key _ _) id (by simp))
    · rw [hdoc]
      exact hk
    · rw [hdoc]
      exact hs.document t hmem hf
  | @left n t f channels ht stopped fed =>
    have hmem : t ∈ d.tails := List.mem_of_getElem? ht
    have hne : t.feed ≠ none := Option.isSome_iff_ne_none.mp fed
    exact hs.replace ht rfl rfl rfl rfl ((hs.tails t hmem).withFeed stopped fed f) rfl
      (fun _ hk => hk) (fun _ => hs.document t hmem fed) hs.ordered (hs.lists.set ht rfl rfl)
      (hs.awaited.set ht rfl (fun h => absurd h hne) id)
  | @cleared key held =>
    exact hs.retain rfl rfl rfl rfl
      (fun k hk => Workspace.document?_clearDocument_isSome.trans hk) hs.awaited
  | @wrote n t f stream tally channels doc doc' sampled records ht running hf document h =>
    have hmem : t ∈ d.tails := List.mem_of_getElem? ht
    have htend : Tended t { t with feed := some { f with stream, tally } } :=
      ⟨rfl, rfl, by simp [hf], Iff.rfl⟩
    refine hs.replace ht rfl rfl rfl rfl (htend.sound (hs.tails t hmem)) rfl (fun k hk => ?_)
      (fun _ => ?_) hs.ordered (hs.lists.set ht rfl rfl) (hs.awaited.set ht rfl (by simp [hf]) id)
    · exact (Workspace.document?_onDocument_isSome _).trans hk
    · rw [Workspace.document?_onDocument_isSome, document]
      rfl
  | @ticked n t next ht running ticking =>
    have hmem : t ∈ d.tails := List.mem_of_getElem? ht
    exact hs.replace ht rfl rfl rfl rfl ((hs.tails t hmem).withTicker ticking next) rfl
      (fun _ hk => hk) (hs.document t hmem) hs.ordered (hs.lists.set ht rfl rfl)
      (hs.awaited.set ht rfl id id)

/-- Acts that follow one another. -/
inductive Acts : Desk → List Deed → Desk → Prop where
  | nil (d : Desk) : Acts d [] d
  | cons {d d' d'' : Desk} {deed : Deed} {deeds : List Deed} (first : Act d deed d')
      (rest : Acts d' deeds d'') : Acts d (deed :: deeds) d''

namespace Acts

variable {d d' d'' : Desk} {deed : Deed} {deeds deeds' : List Deed}

theorem one (h : Act d deed d') : Acts d [deed] d' := cons h (nil d')

theorem append (h : Acts d deeds d') (h' : Acts d' deeds' d'') : Acts d (deeds ++ deeds') d'' := by
  induction h with
  | nil => exact h'
  | cons first _ ih => exact cons first (ih h')

theorem policy (h : Acts d deeds d') : d'.policy = d.policy := by
  induction h with
  | nil => rfl
  | cons first _ ih => rw [ih, first.policy]

theorem sound (h : Acts d deeds d') (hs : d.Sound) : d'.Sound := by
  induction h with
  | nil => exact hs
  | cons first _ ih => exact ih (first.sound hs)

end Acts

end Desk

end LogTail
