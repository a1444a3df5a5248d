import LogTail.Proofs.Winding

/-!
# The two halves of a start

What a request to start a session comes to, and what the answer of the service comes to
for it, on whatever desk: also one whose roster is not its own, and to whose sessions
others have access.
-/
namespace LogTail

namespace Session

variable {s : Session}

/-- A session that was stopped while it waited for the service stays stopped. -/
theorem finishStartOn_stopped (stopped : s.phase = .stopped) (now : Nat)
    (channels : List Channel) : ∃ fault, s.finishStartOn now channels =
      (.error fault, Channel.release s.transport.channel? channels,
        { s with transport := s.transport.finishOpen.2 }) := by
  cases answer : s.transport.finishOpen with
  | mk result transport =>
  cases result with
  | error fault =>
    refine ⟨fault, ?_⟩
    simp [finishStartOn, finishStart, answer, stop, stopped]
  | ok stream =>
    refine ⟨.invalidState s.key.text Phase.stopped.text "start", ?_⟩
    simp [finishStartOn, finishStart, answer, stopped, key]

theorem finishStartOn_error {fault : Fault} {transport : Transport}
    (answer : s.transport.finishOpen = (.error fault, transport)) (now : Nat)
    (channels : List Channel) : s.finishStartOn now channels =
      (.error fault, Channel.release s.transport.channel? channels,
        (Session.stop now { s with transport }).2) := by
  simp only [finishStartOn, finishStart, answer]

theorem finishStartOn_ok (starting : s.phase = .starting) {stream : Stream} {transport : Transport}
    (answer : s.transport.finishOpen = (.ok stream, transport)) (now : Nat)
    (channels : List Channel) : s.finishStartOn now channels =
      (.ok stream, channels, { s with transport, phase := .running }) := by
  simp [finishStartOn, finishStart, answer, starting]

/-- Whether a session that has not stopped runs or still starts makes no difference to a
stop. -/
theorem stop_running (starting : s.phase = .starting) (now : Nat) :
    Session.stop now { s with phase := .running } = s.stop now := by
  simp [stop, starting]

end Session

/-- The session of a start that has failed: the service has been heard, and the session is
stopped if it was not. -/
def Tail.forsake (now : Nat) (t : Tail) : Tail := { t with
  session := (Session.stop now
    { t.session with transport := t.session.transport.finishOpen.2 }).2 }

namespace Desk

variable {d : Desk} {c n : Nat} {t : Tail} {key : Key}

/-- The session of someone else that takes the key of a source. -/
def rivalOf (source : Source) : Tail :=
  { session := { source, budget := 1, transport := { script := some .silent } }, own := false }

/-- The session that comes too late for its key: it was stopped before it had called. -/
def belated (source : Source) (budget : Nat) (transport : Transport) (now : Nat) : Tail :=
  { session := (Session.stop now { source, budget, transport }).2 }

/-- What a request to start a session comes to at once. -/
inductive Begun (source : Source) (d : Desk) : Desk → Prop where
  | refused {fault : Fault} {connector : Connector}
      (why : source.check = .error fault ∧ connector = d.connector ∨
        source.check = .ok () ∧ d.connector.connect = (.error fault, connector)) :
      Begun source d { d with
        connector
        log := (source.key, .startFailed fault.message) :: d.log
        calls := d.calls ++ [⟨source.key, .answered (.error fault)⟩] }
  | refocused (held : KeyMap.contains source.key d.roster) : Begun source d { d with
      workspace := (d.workspace.focusDocument source.key).2
      log := (source.key, .refocused) :: d.log
      calls := d.calls ++ [⟨source.key, .answered (.ok .refocused)⟩] }
  /-- Someone else has taken the key while the desk connected. -/
  | outrun {transport : Transport} {connector : Connector} {channels : List Channel}
      (taken : connector.connects ∈ d.connector.rivals)
      (free : KeyMap.get? source.key d.roster = none)
      (connected : d.connector.connect = (.ok transport, connector)) :
      Begun source d { d with
        connector
        roster := KeyMap.insert source.key d.tails.length d.roster
        tails := d.tails ++ [rivalOf source, belated source d.policy.budget transport d.now]
        channels
        workspace := (d.workspace.focusDocument source.key).2
        log := (source.key, .refocused) :: d.log
        calls := d.calls ++ [⟨source.key, .answered (.ok .refocused)⟩] }
  | entered {transport : Transport} {connector : Connector} (valid : source.check = .ok ())
      (free : KeyMap.get? source.key d.roster = none)
      (connected : d.connector.connect = (.ok transport, connector)) : Begun source d { d with
      connector
      roster := KeyMap.insert source.key d.tails.length d.roster
      tails := d.tails ++ [{ session := .calling source d.policy.budget transport d.now }]
      calls := d.calls ++ [⟨source.key, .opening d.tails.length (d.now + transport.delay)⟩] }

/-- A session can be made for any source that was found valid. -/
theorem make_valid {source : Source} {budget : Nat} (valid : source.check = .ok ())
    (room : 0 < budget) (transport : Transport) :
    Session.make source budget transport = .ok { source, budget, transport } := by
  simp [Session.make, valid, Nat.ne_of_gt room]

theorem admitRival_taken {source : Source} (valid : source.check = .ok ())
    (free : KeyMap.get? source.key d.roster = none)
    (taken : d.connector.connects ∈ d.connector.rivals) : d.admitRival source = { d with
      roster := KeyMap.insert source.key d.tails.length d.roster
      tails := d.tails ++ [rivalOf source] } := by
  have hrival := make_valid valid Nat.one_pos { script := some .silent }
  have hfree : KeyMap.contains source.key d.roster = false := by simp [KeyMap.contains, free]
  simp [admitRival, taken, hrival, Roster.register, Session.key, add, hfree, rivalOf]

/-- A session that finds its key held is stopped before it has called. -/
theorem enter_held (s : Session) (held : KeyMap.contains key d.roster = true) :
    d.enter key s = { d with
      tails := d.tails ++ [{ session := (s.stop d.now).2 }]
      channels := Channel.release s.transport.channel? d.channels
      workspace := (d.workspace.focusDocument key).2
      log := (key, .refocused) :: d.log
      calls := d.calls ++ [⟨key, .answered (.ok .refocused)⟩] } := by
  simp only [enter, Roster.register, if_pos held]
  rfl

theorem beginStart_begun (room : 0 < d.policy.budget) (source : Source) :
    Begun source d (d.beginStart source) := by
  simp only [beginStart]
  cases valid : source.check with
  | error fault => exact .refused (.inl ⟨valid, rfl⟩)
  | ok u =>
    by_cases held : KeyMap.contains source.key d.roster
    · simp only [if_pos held]
      exact .refocused held
    · have free := KeyMap.get?_of_not_contains held
      simp only [if_neg held]
      cases connected : d.connector.connect with
      | mk answer connector =>
      cases answer with
      | error fault => exact .refused (.inr ⟨valid, connected⟩)
      | ok transport =>
        have hrivals : connector.rivals = d.connector.rivals := by
          have h := d.connector.connect_rivals
          rwa [connected] at h
        have hmake := make_valid valid room transport
        by_cases taken : connector.connects ∈ connector.rivals
        · have hrival := admitRival_taken (d := { d with connector }) valid free taken
          have hheld : KeyMap.contains source.key
              (KeyMap.insert source.key d.tails.length d.roster) = true := by
            simp [KeyMap.contains, KeyMap.get?_insert]
          simp only [hrival, hmake]
          rw [enter_held _ hheld]
          simp only [List.append_assoc, List.cons_append, List.nil_append]
          exact .outrun (hrivals ▸ taken) free connected
        · simp only [admitRival, if_neg taken, hmake, enter, Roster.register, if_neg held]
          exact .entered valid free connected

/-- What the answer of the service comes to for the request that waits for it. -/
inductive Finished (c n : Nat) (key : Key) (t : Tail) (d : Desk) : Desk → Prop where
  | opened {stream : Stream} {transport : Transport} {workspace : Workspace}
      {handles : KeyMap Nat} (starting : t.session.phase = .starting)
      (answer : t.session.transport.finishOpen = (.ok stream, transport))
      (document : d.workspace.openDocument key = (.ok (), workspace))
      (unfinished : handles = KeyMap.insert key n (d.handles.filter fun e =>
        (({ d with tails := d.tails.set n { t with
          session := { t.session with transport, phase := .running }
          feed := some { stream }
          ticker := .fresh } } : Desk).report? e.2).isNone)) :
      Finished c n key t d { d with
        workspace
        tails := d.tails.set n { t with
          session := { t.session with transport, phase := .running }
          feed := some { stream }
          ticker := .fresh }
        log := (key, .started) :: d.log
        handles
        calls := answered d.calls c (.ok .opened) }
  /-- A session that was stopped meanwhile asks for no document. -/
  | failed (fault : Fault) (number : Option Nat) (requests : Nat)
      (unasked : t.session.phase = .stopped → requests = d.workspace.requests) :
      Finished c n key t d { d with
      workspace := { d.workspace with requests }
      channels := Channel.release number d.channels
      roster := (d.roster.removeInstance key n).2
      tails := d.tails.set n (t.forsake d.now)
      log := (key, .startFailed fault.message) :: d.log
      calls := answered d.calls c (.error fault) }

/-- A session whose document is refused is stopped, which nobody records as a stop. -/
theorem welcome_error (c : Nat) (stream : Stream) {fault : Fault} {workspace : Workspace}
    (ht : d.tails[n]? = some t) (running : t.session.phase = .running)
    (document : d.workspace.openDocument key = (.error fault, workspace)) :
    d.welcome c key n stream = { d with
      workspace
      channels := Channel.release stream.channel? d.channels
      roster := (d.roster.removeInstance key n).2
      tails := d.tails.set n { t with session := (t.session.stop d.now).2 }
      log := (key, .startFailed fault.message) :: d.log
      calls := answered d.calls c (.error fault) } := by
  have hstop : ({ d with workspace } : Desk).stopSession n =
      (true, { d with
        workspace, tails := d.tails.set n { t with session := (t.session.stop d.now).2 } }) := by
    have hne : t.session.phase ≠ .stopped := by simp [running]
    simp [stopSession, ht, put, ← Session.stop_first d.now hne]
  rw [welcome, document]
  simp only [hstop, abandon, unlist]
  rfl

theorem welcome_ok (c : Nat) (stream : Stream) {workspace : Workspace}
    (ht : d.tails[n]? = some t) (document : d.workspace.openDocument key = (.ok (), workspace)) :
    d.welcome c key n stream = { d with
      workspace
      tails := d.tails.set n { t with feed := some { stream }, ticker := .fresh }
      log := (key, .started) :: d.log
      handles := KeyMap.insert key n (d.handles.filter fun e =>
        (({ d with tails := d.tails.set n { t with
          feed := some { stream }, ticker := .fresh } } : Desk).report? e.2).isNone)
      calls := answered d.calls c (.ok .opened) } := by
  have hmodify : (d.tails.modify n fun t => { t with feed := some { stream }, ticker := .fresh }) =
      d.tails.set n { t with feed := some { stream }, ticker := .fresh } := by
    rw [List.modify_eq_set, ht]
    rfl
  rw [welcome, document]
  simp only [launch, tell, hmodify]
  rfl

theorem finishStart_finished (hc : Opens d.calls c n key) (ht : d.tails[n]? = some t)
    (called : t.session.phase = .starting ∨ t.session.phase = .stopped) :
    Finished c n key t d (d.finishStart c) := by
  obtain ⟨due, hc⟩ := hc
  have hn : n < d.tails.length := (List.getElem?_eq_some_iff.mp ht).1
  simp only [finishStart, hc, ht]
  rcases called with starting | stopped
  · cases answer : t.session.transport.finishOpen with
    | mk result transport =>
    have htransport : t.session.transport.finishOpen.2 = transport := by rw [answer]
    have hstarting : t.session.phase ≠ .stopped := by simp [starting]
    have hfailed (fault : Fault) (number : Option Nat) (requests : Nat) :=
      @Finished.failed c n key t d fault number requests
        fun stopped : t.session.phase = .stopped => absurd stopped hstarting
    simp only [Tail.forsake, htransport] at hfailed
    cases result with
    | error fault =>
      simp only [Session.finishStartOn_error answer, abandon, unlist, put]
      exact hfailed fault _ d.workspace.requests
    | ok stream =>
      simp only [Session.finishStartOn_ok starting answer]
      let t' : Tail := { t with session := { t.session with transport, phase := .running } }
      let d' : Desk := ({ d with channels := d.channels } : Desk).put n t'
      have ht' : d'.tails[n]? = some t' := List.getElem?_set_self hn
      cases document : d.workspace.openDocument key with
      | mk opened workspace =>
      cases opened with
      | error fault =>
        obtain rfl := Workspace.openDocument_refused document
        have hwelcome := welcome_error c stream ht' rfl document
        have hstop := Session.stop_running (s := { t.session with transport }) starting d.now
        simp only [d', put, t', hstop, List.set_set] at hwelcome
        simp only [put, hwelcome]
        exact hfailed fault _ (d.workspace.requests + 1)
      | ok u =>
        have hwelcome := welcome_ok c stream ht' document
        simp only [d', put, t', List.set_set] at hwelcome
        simp only [put, hwelcome]
        exact .opened starting answer document rfl
  · obtain ⟨fault, hfin⟩ := Session.finishStartOn_stopped stopped d.now d.channels
    have hfailed (number : Option Nat) :=
      @Finished.failed c n key t d fault number _ fun _ => rfl
    have hstop := Session.stop_stopped (s := { t.session with
      transport := t.session.transport.finishOpen.2 }) d.now stopped
    simp only [Tail.forsake, hstop] at hfailed
    simp only [hfin, abandon, unlist, put]
    exact hfailed _

/-- Nobody waits for the answer. -/
theorem finishStart_unasked (unasked : ∀ n key, ¬ Opens d.calls c n key) : d.finishStart c = d := by
  unfold finishStart
  split
  · rename_i key n due hc
    exact absurd ⟨due, hc⟩ (unasked n key)
  · rfl

end Desk

end LogTail
