import LogTail.Proofs.Act

/-!
# The life of a session

Starts may be asked for at any time, also while an earlier one waits for the service.
The service answers each in its own time, and stops come in between. Whatever their
order, a session goes through its phases as it should, and its token, its transport and
its times tell the phase it is in.
-/
namespace LogTail

/-- What the service answers depends on the script alone. -/
theorem Transport.finishOpen_congr {t u : Transport} (h : t.script = u.script) :
    t.finishOpen.1 = u.finishOpen.1 := by
  simp only [finishOpen, h]

namespace Session

variable {s : Session}

/-- The token, the transport and the times of a session tell its phase. -/
structure Orderly (s : Session) : Prop where
  fired : s.cancelled = true ↔ s.phase = .stopped
  closes : s.transport.closes = if s.phase = .stopped then 1 else 0
  /-- The token has fired by the time the transport is closed. -/
  early : s.transport.earlyCloses = 0
  ended : s.endedAt.isSome = true ↔ s.phase = .stopped
  opens : s.transport.opens = if s.startedAt.isSome then 1 else 0
  idle : s.phase = .idle → s.startedAt = none
  live : s.phase.isLive = true → s.startedAt.isSome = true

namespace Orderly

theorem fresh (source : Source) (budget : Nat) {transport : Transport} (h : transport.Fresh) :
    Orderly { source, budget, transport } := by
  constructor <;> simp [Phase.isLive, h.opens, h.closes, h.early]

theorem make {source : Source} {budget delay : Nat} {script : Option Script}
    (made : Session.make source budget { script, delay } = .ok s) :
    s = { source, budget, transport := { script, delay } } ∧ s.Orderly := by
  unfold Session.make at made
  split at made
  · cases made
  split at made
  · cases made
  · cases made
    exact ⟨rfl, fresh source budget (Transport.fresh_mk script delay)⟩

theorem calling (source : Source) (budget now : Nat) {transport : Transport} (h : transport.Fresh) :
    (Session.calling source budget transport now).Orderly := by
  refine ⟨?_, ?_, ?_, ?_, ?_, nofun, fun _ => rfl⟩ <;>
    simp [Session.calling, Transport.beginOpen, h.opens, h.closes, h.early]

theorem begin (h : s.Orderly) (idle : s.phase = .idle) (now : Nat) : Orderly { s with
    phase := .starting, startedAt := some now, transport := s.transport.beginOpen } where
  fired := by simpa [idle] using h.fired
  closes := by
    have hcloses := h.closes
    rwa [idle] at hcloses
  early := h.early
  ended := by simpa [idle] using h.ended
  opens := by simpa [h.idle idle, Transport.beginOpen] using h.opens
  idle := nofun
  live _ := rfl

theorem stop (h : s.Orderly) (now : Nat) : (s.stop now).2.Orderly := by
  by_cases stopped : s.phase = .stopped
  · rw [stop_stopped now stopped]
    exact h
  · have hcloses : s.transport.closes = 0 := by simpa [stopped] using h.closes
    unfold Session.stop
    rw [if_neg stopped]
    exact {
      fired := by simp
      closes := by simp [Transport.close, hcloses]
      early := by simp [Transport.close, h.early]
      ended := by simp
      opens := h.opens
      idle := nofun
      live := by simp [Phase.isLive] }

theorem unended (h : s.Orderly) (unstopped : s.phase ≠ .stopped) : s.endedAt = none :=
  Option.not_isSome_iff_eq_none.mp (mt h.ended.mp unstopped)

theorem answer (h : s.Orderly) : Orderly { s with transport := s.transport.finishOpen.2 } :=
  ⟨h.fired, h.closes, h.early, h.ended, h.opens, h.idle, h.live⟩

theorem run (h : s.Orderly) (starting : s.phase = .starting) :
    Orderly { s with transport := s.transport.finishOpen.2, phase := .running } where
  fired := by simpa [starting] using h.fired
  closes := by
    have hcloses := h.closes
    rwa [starting] at hcloses
  early := h.early
  ended := by simpa [starting] using h.ended
  opens := h.opens
  idle := nofun
  live _ := h.live (by rw [starting]; rfl)

end Orderly

@[simp] theorem stop_source (now : Nat) (s : Session) : (s.stop now).2.source = s.source := by
  unfold stop
  split <;> rfl

@[simp] theorem stop_startedAt (now : Nat) (s : Session) :
    (s.stop now).2.startedAt = s.startedAt := by
  unfold stop
  split <;> rfl

@[simp] theorem stop_script (now : Nat) (s : Session) :
    (s.stop now).2.transport.script = s.transport.script := by
  unfold stop
  split <;> rfl

/-- What the stop inside a start says, which is made when the service refuses the call. -/
def innerStop (now : Nat) (s : Session) : List Bool :=
  match s.transport.finishOpen with
  | (.error _, transport) => [(stop now { s with transport }).1]
  | (.ok _, _) => []

/-- The fault of a start whose session was stopped while it waited for the service. -/
def lateFault (s : Session) : Fault :=
  match s.transport.finishOpen.1 with
  | .ok _ => .invalidState s.key.text "stopped" "start"
  | .error fault => fault

end Session

/-- What is done to a session. -/
inductive Touch where
  | start (now : Nat)
  /-- The service answers the start with this number. -/
  | answer (start now : Nat)
  | stop (now : Nat)
  deriving DecidableEq, Repr

/-- How far a start has come. -/
inductive Opening where
  /-- The service was not called. -/
  | refused (fault : Fault)
  | pending
  | answered (answer : Except Fault Stream)
  deriving Repr

/-- Whether the service was called. -/
def Opening.isCalled : Opening → Bool
  | refused _ => false
  | pending | answered _ => true

/-- A session, how far each of its starts has come, and what its stops said, those
inside a start included. -/
structure Life where
  session : Session
  starts : List Opening := []
  stops : List Bool := []
  deriving Repr

namespace Life

def step (t : Touch) (l : Life) : Life :=
  match t with
  | .start now =>
    match l.session.beginStart now with
    | .error fault => { l with starts := l.starts ++ [.refused fault] }
    | .ok session => { l with session, starts := l.starts ++ [.pending] }
  | .answer k now =>
    match l.starts[k]? with
    | some .pending =>
      let (answer, session) := l.session.finishStart now
      { session
        starts := l.starts.set k (.answered answer)
        stops := l.stops ++ l.session.innerStop now }
    | _ => l
  | .stop now =>
    let (first, session) := l.session.stop now
    { l with session, stops := l.stops ++ [first] }

def run (ts : List Touch) (l : Life) : Life := ts.foldl (fun l t => l.step t) l

@[simp] theorem run_nil (l : Life) : l.run [] = l := rfl
@[simp] theorem run_cons (t : Touch) (ts : List Touch) (l : Life) :
    l.run (t :: ts) = (l.step t).run ts := rfl

/-- A start takes the session out of the idle phase. -/
def Leaves (t : Touch) (l : Life) : Prop :=
  (∃ now, t = .start now) ∧ l.session.phase = .idle ∧ (l.step t).session.phase ≠ .idle

/-- Some start of a run takes the session out of the idle phase. -/
def LeavesIdle : List Touch → Life → Prop
  | [], _ => False
  | t :: ts, l => l.Leaves t ∨ LeavesIdle ts (l.step t)

/-- The start with a number waits for the service. -/
def Waits (k : Nat) (l : Life) : Prop := l.starts[k]? = some .pending

/-- The service was called for the start with a number. -/
def Called (k : Nat) (l : Life) : Prop := ∃ o, l.starts[k]? = some o ∧ o.isCalled = true

/-- What a touch comes to. -/
inductive Step (l : Life) : Touch → Life → Prop where
  | began (now : Nat) (idle : l.session.phase = .idle) : Step l (.start now) { l with
      session := { l.session with
        phase := .starting, startedAt := some now, transport := l.session.transport.beginOpen }
      starts := l.starts ++ [.pending] }
  | refused (now : Nat) (fault : Fault) (begun : l.session.phase ≠ .idle) :
      Step l (.start now) { l with starts := l.starts ++ [.refused fault] }
  | unasked (k now : Nat) (h : ¬ l.Waits k) : Step l (.answer k now) l
  | opened {k : Nat} (now : Nat) {stream : Stream} (waits : l.Waits k)
      (unstopped : l.session.phase ≠ .stopped)
      (answer : l.session.transport.finishOpen.1 = .ok stream) : Step l (.answer k now) { l with
      session := { l.session with
        transport := l.session.transport.finishOpen.2, phase := .running }
      starts := l.starts.set k (.answered (.ok stream)) }
  | failed {k : Nat} (now : Nat) {fault : Fault} (waits : l.Waits k)
      (unstopped : l.session.phase ≠ .stopped)
      (answer : l.session.transport.finishOpen.1 = .error fault) : Step l (.answer k now) {
      session := (Session.stop now
        { l.session with transport := l.session.transport.finishOpen.2 }).2
      starts := l.starts.set k (.answered (.error fault))
      stops := l.stops ++ [true] }
  /-- The stop inside the start, if there is one, is not the first. -/
  | overtaken {k : Nat} (now again : Nat) (waits : l.Waits k)
      (stopped : l.session.phase = .stopped) : Step l (.answer k now) {
      session := { l.session with transport := l.session.transport.finishOpen.2 }
      starts := l.starts.set k (.answered (.error l.session.lateFault))
      stops := l.stops ++ List.replicate again false }
  | stopped (now : Nat) (unstopped : l.session.phase ≠ .stopped) : Step l (.stop now) { l with
      session := (l.session.stop now).2, stops := l.stops ++ [true] }
  | stoppedAgain (now : Nat) (stopped : l.session.phase = .stopped) :
      Step l (.stop now) { l with stops := l.stops ++ [false] }

variable {l l' : Life} {t : Touch} {source : Source} {script : Option Script}

theorem start_step (now : Nat) (l : Life) : Step l (.start now) (l.step (.start now)) := by
  by_cases idle : l.session.phase = .idle
  · have hbegin : l.session.beginStart now = .ok { l.session with
        phase := .starting, startedAt := some now, transport := l.session.transport.beginOpen } := by
      simp [Session.beginStart, Phase.change, Phase.allows, idle]
    simp only [step, hbegin]
    exact .began now idle
  · have hrefused : l.session.beginStart now =
        .error (l.session.phase.refusal .starting l.session.key.text) := by
      cases hp : l.session.phase <;> simp_all [Session.beginStart, Phase.change, Phase.allows]
    simp only [step, hrefused]
    exact .refused now _ idle

theorem answer_step (k now : Nat) (l : Life) : Step l (.answer k now) (l.step (.answer k now)) := by
  by_cases waits : l.Waits k
  · have pending : l.starts[k]? = some .pending := waits
    simp only [step, pending]
    cases answer : l.session.transport.finishOpen with
    | mk result transport =>
    have hresult : l.session.transport.finishOpen.1 = result := by rw [answer]
    have htransport : l.session.transport.finishOpen.2 = transport := by rw [answer]
    by_cases stopped : l.session.phase = .stopped
    · have hlate (again : Nat) := Step.overtaken now again waits stopped
      simp only [htransport, Session.lateFault, hresult] at hlate
      cases result with
      | error fault =>
        have hstop := Session.stop_stopped (s := { l.session with transport }) now stopped
        simp only [Session.finishStart, Session.innerStop, answer, hstop]
        exact hlate 1
      | ok stream =>
        have htext : l.session.phase.text = "stopped" := by rw [stopped]; rfl
        simp only [Session.finishStart, Session.innerStop, answer, if_pos stopped, htext]
        exact hlate 0
    · cases result with
      | error fault =>
        have hfirst := Session.stop_first (s := { l.session with transport }) now stopped
        have hfailed := Step.failed now waits stopped hresult
        simp only [htransport] at hfailed
        simp only [Session.finishStart, Session.innerStop, answer, hfirst]
        exact hfailed
      | ok stream =>
        have hopened := Step.opened now waits stopped hresult
        simp only [htransport] at hopened
        simp only [Session.finishStart, Session.innerStop, answer, stopped, if_false, List.append_nil]
        exact hopened
  · have hsame : l.step (.answer k now) = l := by
      simp only [step]
      split
      · exact absurd ‹_› waits
      · rfl
    rw [hsame]
    exact .unasked k now waits

theorem stop_step (now : Nat) (l : Life) : Step l (.stop now) (l.step (.stop now)) := by
  by_cases stopped : l.session.phase = .stopped
  · simp only [step, Session.stop_stopped now stopped]
    exact .stoppedAgain now stopped
  · simp only [step, Session.stop_first now stopped]
    exact .stopped now stopped

theorem step_cases (t : Touch) (l : Life) : Step l t (l.step t) := by
  cases t with
  | start now => exact start_step now l
  | answer k now => exact answer_step k now l
  | stop now => exact stop_step now l

/-- A phase changes by the rule only, and the last one does not change. -/
theorem step_phase (t : Touch) (l : Life)
    (starting : ∀ k, l.Waits k →
      l.session.phase = .starting ∨ l.session.phase = .stopped) :
    ((l.step t).session.phase ≠ l.session.phase →
      l.session.phase.allows (l.step t).session.phase = true) ∧
    (l.session.phase = .stopped → (l.step t).session.phase = .stopped) := by
  have allows (p : Phase) : p.allows .stopped = true := by cases p <;> rfl
  have hstep := step_cases t l
  generalize l.step t = l' at hstep
  cases hstep with
  | began now idle => simp [idle, Phase.allows]
  | refused | unasked | stoppedAgain | overtaken => exact ⟨fun h => absurd rfl h, id⟩
  | opened now waits unstopped answer =>
    have hstarting := (starting _ waits).resolve_right unstopped
    simp [hstarting, Phase.allows]
  | failed | stopped => simp [allows]

section Starts

variable {j k : Nat} {o : Opening} {answer : Except Fault Stream}

theorem waits_called (h : l.Waits k) : l.Called k := ⟨_, h, rfl⟩

theorem called_append (starts : l'.starts = l.starts ++ [o]) (h : l'.Called k) :
    l.Called k ∨ k = l.starts.length ∧ o.isCalled = true := by
  obtain ⟨o', ho, called⟩ := h
  rw [starts, List.getElem?_append] at ho
  split at ho
  · exact .inl ⟨o', ho, called⟩
  · obtain ⟨hk, rfl⟩ := List.getElem?_eq_some_iff.mp ho
    simp only [List.length_singleton] at hk
    exact .inr ⟨by omega, by simpa using called⟩

theorem waits_append (starts : l'.starts = l.starts ++ [o]) (h : l'.Waits k) :
    l.Waits k ∨ o = .pending := by
  unfold Waits at h
  rw [starts, List.getElem?_append] at h
  split at h
  · exact .inl h
  · exact .inr (List.mem_singleton.mp (List.mem_of_getElem? h)).symm

/-- A start that gets its answer is one for which the service was called. -/
theorem called_answered (waits : l.Waits k) (starts : l'.starts = l.starts.set k (.answered answer))
    (h : l'.Called j) : l.Called j := by
  obtain ⟨o', ho, called⟩ := h
  rw [starts, List.getElem?_set] at ho
  split at ho
  · subst j
    exact waits_called waits
  · exact ⟨o', ho, called⟩

theorem waits_answered (starts : l'.starts = l.starts.set k (.answered answer)) (h : l'.Waits j) :
    l.Waits j ∧ j ≠ k := by
  unfold Waits at h
  rw [starts, List.getElem?_set] at h
  split at h
  · split at h <;> cases h
  · exact ⟨h, Ne.symm ‹_›⟩

end Starts

/-- What holds of a session with its starts and stops at every moment. -/
structure Lawful (source : Source) (script : Option Script) (l : Life) : Prop where
  orderly : l.session.Orderly
  source : l.session.source = source
  fresh : l.session.startedAt = none → l.session.transport.script = script
  begun : ∀ k, l.Called k → l.session.startedAt.isSome = true
  single : ∀ j k, l.Called j → l.Called k → j = k
  waiting : ∀ k, l.Waits k → (l.session.phase = .starting ∨ l.session.phase = .stopped) ∧
    l.session.transport.script = script
  unstopped : l.session.phase ≠ .stopped → l.stops = []
  stopped : l.session.phase = .stopped → ∃ again, l.stops = true :: List.replicate again false

namespace Lawful

theorem make {budget delay : Nat} {s : Session}
    (made : Session.make source budget { script, delay } = .ok s) : Lawful source script ⟨s, [], []⟩ := by
  obtain ⟨rfl, orderly⟩ := Session.Orderly.make made
  have uncalled {k : Nat} (h : Called k ⟨{ source, budget, transport := { script, delay } }, [], []⟩) :
      False := by
    obtain ⟨o, ho, -⟩ := h
    simp at ho
  exact {
    orderly
    source := rfl
    fresh := fun _ => rfl
    begun := fun k h => (uncalled h).elim
    single := fun j k h => (uncalled h).elim
    waiting := fun k h => (uncalled (waits_called h)).elim
    unstopped := fun _ => rfl
    stopped := nofun }

/-- Nothing has been done yet to a session that is idle. -/
theorem begin (h : Lawful source script l) (idle : l.session.phase = .idle) (now : Nat) :
    Lawful source script { l with
      session := { l.session with
        phase := .starting, startedAt := some now, transport := l.session.transport.beginOpen }
      starts := l.starts ++ [.pending] } := by
  have unbegun := h.orderly.idle idle
  have first {k : Nat} (hc : Called k { l with starts := l.starts ++ [.pending] }) :
      k = l.starts.length := by
    rcases called_append rfl hc with hc | ⟨hk, -⟩
    · have hb := h.begun k hc
      rw [unbegun] at hb
      cases hb
    · exact hk
  exact {
    orderly := h.orderly.begin idle now
    source := h.source
    fresh := nofun
    begun := fun _ _ => rfl
    single := fun j k hj hk => (first hj).trans (first hk).symm
    waiting := fun _ _ => ⟨.inl rfl, h.fresh unbegun⟩
    unstopped := fun _ => h.unstopped (by simp [idle])
    stopped := nofun }

theorem refuse (h : Lawful source script l) (fault : Fault) :
    Lawful source script { l with starts := l.starts ++ [.refused fault] } := by
  have hcalled {k : Nat} (hc : Called k { l with starts := l.starts ++ [.refused fault] }) :
      l.Called k := (called_append rfl hc).resolve_right fun hr => by cases hr.2
  have hwaits {k : Nat} (hw : Waits k { l with starts := l.starts ++ [.refused fault] }) :
      l.Waits k := (waits_append rfl hw).resolve_right nofun
  exact {
    orderly := h.orderly
    source := h.source
    fresh := h.fresh
    begun := fun k hc => h.begun k (hcalled hc)
    single := fun j k hj hk => h.single j k (hcalled hj) (hcalled hk)
    waiting := fun k hw => h.waiting k (hwaits hw)
    unstopped := h.unstopped
    stopped := h.stopped }

/-- What is left to show when a start gets its answer. -/
theorem answer {k : Nat} {answer : Except Fault Stream} (h : Lawful source script l) (waits : l.Waits k)
    (starts : l'.starts = l.starts.set k (.answered answer)) (orderly : l'.session.Orderly)
    (same : l'.session.source = l.session.source)
    (begun : l'.session.startedAt = l.session.startedAt)
    (unstopped : l'.session.phase ≠ .stopped → l'.stops = [])
    (stopped : l'.session.phase = .stopped → ∃ again, l'.stops = true :: List.replicate again false) :
    Lawful source script l' where
  orderly := orderly
  source := same.trans h.source
  fresh hb := by
    have hsome := h.begun k (waits_called waits)
    rw [← begun, hb] at hsome
    cases hsome
  begun j hc := by
    rw [begun]
    exact h.begun j (called_answered waits starts hc)
  single i j hi hj := h.single i j (called_answered waits starts hi) (called_answered waits starts hj)
  waiting j hw := by
    -- the service was called once, and this was the start that waited for it
    obtain ⟨hw, hne⟩ := waits_answered starts hw
    exact absurd (h.single j k (waits_called hw) (waits_called waits)) hne
  unstopped := unstopped
  stopped := stopped

theorem stop (h : Lawful source script l) (unstopped : l.session.phase ≠ .stopped) (now : Nat) :
    Lawful source script { l with session := (l.session.stop now).2, stops := l.stops ++ [true] } where
  orderly := h.orderly.stop now
  source := by simpa using h.source
  fresh := by simpa using h.fresh
  begun k hc := by simpa using h.begun k hc
  single := h.single
  waiting k hw := ⟨.inr (by simp), by simpa using (h.waiting k hw).2⟩
  unstopped := by simp
  stopped _ := ⟨0, by simp [h.unstopped unstopped]⟩

/-- A stop that is not the first says so. -/
theorem again (h : Lawful source script l) (stopped : l.session.phase = .stopped) (again : Nat) :
    ∃ again', l.stops ++ List.replicate again false = true :: List.replicate again' false := by
  obtain ⟨n, hn⟩ := h.stopped stopped
  exact ⟨n + again, by rw [hn, List.cons_append, List.replicate_append_replicate]⟩

end Lawful

theorem Step.lawful (hstep : Step l t l') (h : Lawful source script l) : Lawful source script l' := by
  cases hstep with
  | began now idle => exact h.begin idle now
  | refused now fault begun => exact h.refuse fault
  | unasked => exact h
  | opened now waits unstopped answer =>
    have starting := (h.waiting _ waits).1.resolve_right unstopped
    exact h.answer waits rfl (h.orderly.run starting) rfl rfl (fun _ => h.unstopped unstopped) nofun
  | failed now waits unstopped answer =>
    exact h.answer waits rfl (h.orderly.answer.stop now) (by simp) (by simp) (by simp)
      fun _ => ⟨0, by simp [h.unstopped unstopped]⟩
  | overtaken now again waits stopped =>
    exact h.answer waits rfl h.orderly.answer rfl rfl (absurd stopped) fun _ => h.again stopped again
  | stopped now unstopped => exact h.stop unstopped now
  | stoppedAgain now stopped =>
    exact { h with
      unstopped := absurd stopped
      stopped := fun _ => h.again stopped 1 }

theorem Lawful.step (h : Lawful source script l) (t : Touch) : Lawful source script (l.step t) :=
  (step_cases t l).lawful h

theorem Lawful.run (h : Lawful source script l) (ts : List Touch) :
    Lawful source script (l.run ts) := by
  induction ts generalizing l with
  | nil => exact h
  | cons t ts ih => exact ih (h.step t)

theorem Lawful.step_stopped (h : Lawful source script l) (stopped : l.session.phase = .stopped)
    (t : Touch) : (l.step t).session.phase = .stopped :=
  (step_phase t l fun k hw => (h.waiting k hw).1).2 stopped

theorem Lawful.run_stopped (h : Lawful source script l) (stopped : l.session.phase = .stopped)
    (ts : List Touch) : (l.run ts).session.phase = .stopped := by
  induction ts generalizing l with
  | nil => exact stopped
  | cons t ts ih => exact ih (h.step t) (h.step_stopped stopped t)

theorem startedAt_step (t : Touch) (l : Life) : (l.step t).session.startedAt.isSome = true ↔
    l.session.startedAt.isSome = true ∨ l.Leaves t := by
  have hstep := step_cases t l
  unfold Leaves
  generalize l.step t = l' at hstep
  cases hstep with
  | began now idle => simp [idle]
  | refused now fault begun => simp
  | unasked | opened | overtaken | stoppedAgain => simp
  | failed | stopped => simp

theorem startedAt_run (ts : List Touch) (l : Life) : (l.run ts).session.startedAt.isSome = true ↔
    l.session.startedAt.isSome = true ∨ LeavesIdle ts l := by
  induction ts generalizing l with
  | nil => simp [LeavesIdle]
  | cons t ts ih => rw [run_cons, ih, startedAt_step, LeavesIdle, or_assoc]

/-- Starts that have their answers keep them. -/
theorem Step.kept {k : Nat} {answer : Except Fault Stream} (hstep : Step l t l')
    (h : l.starts[k]? = some (.answered answer)) : l'.starts[k]? = some (.answered answer) := by
  have hk : k < l.starts.length := (List.getElem?_eq_some_iff.mp h).1
  have hset {j : Nat} (o : Opening) (waits : l.Waits j) :
      (l.starts.set j o)[k]? = some (.answered answer) := by
    have hne : j ≠ k := by
      rintro rfl
      rw [Waits, h] at waits
      cases waits
    rw [List.getElem?_set_ne hne]
    exact h
  cases hstep with
  | began | refused => rw [List.getElem?_append_left hk]; exact h
  | unasked | stopped | stoppedAgain => exact h
  | opened now waits | failed now waits | overtaken now again waits => exact hset _ waits

section Late

variable {s : Session} {k : Nat}

/-- What a start that waits is answered after a stop was settled when the session was made. -/
theorem Lawful.lateFault (h : Lawful s.source s.transport.script l) (waits : l.Waits k) :
    l.session.lateFault = s.lateFault := by
  unfold Session.lateFault Session.key
  rw [Transport.finishOpen_congr (h.waiting k waits).2, h.source]

/-- A start that waits when the session has stopped waits on, or fails once it is answered. -/
theorem Lawful.late_step (h : Lawful s.source s.transport.script l)
    (stopped : l.session.phase = .stopped) (waits : l.Waits k) (t : Touch) :
    (∀ now, t ≠ .answer k now) ∧ (l.step t).Waits k ∨
      (l.step t).starts[k]? = some (.answered (.error s.lateFault)) := by
  have hk : k < l.starts.length := (List.getElem?_eq_some_iff.mp waits).1
  have happend (o : Opening) : (l.starts ++ [o])[k]? = some .pending := by
    rw [List.getElem?_append_left hk]
    exact waits
  have hstep := step_cases t l
  generalize l.step t = l' at hstep ⊢
  cases hstep with
  | began | refused => exact .inl ⟨nofun, happend _⟩
  | unasked j now hj =>
    refine .inl ⟨?_, waits⟩
    rintro now' ⟨⟩
    exact hj waits
  | opened now hj unstopped | failed now hj unstopped => exact absurd stopped unstopped
  | overtaken now again hj =>
    obtain rfl := h.single _ _ (waits_called hj) (waits_called waits)
    rw [h.lateFault waits]
    exact .inr (List.getElem?_set_self hk)
  | stopped | stoppedAgain => exact .inl ⟨nofun, waits⟩

theorem Lawful.late_run (h : Lawful s.source s.transport.script l)
    (stopped : l.session.phase = .stopped)
    (late : l.Waits k ∨ l.starts[k]? = some (.answered (.error s.lateFault))) (ts : List Touch) :
    (l.run ts).Waits k ∨ (l.run ts).starts[k]? = some (.answered (.error s.lateFault)) := by
  induction ts generalizing l with
  | nil => exact late
  | cons t ts ih =>
    refine ih (h.step t) (h.step_stopped stopped t) ?_
    rcases late with waits | answered
    · exact (h.late_step stopped waits t).imp_left And.right
    · exact .inr ((step_cases t l).kept answered)

/-- A stop that falls into a start is not undone, whatever else is done before the
service answers. -/
theorem Lawful.late_answer (h : Lawful s.source s.transport.script l) (waits : l.Waits k)
    (now later : Nat) (ts : List Touch) :
    (((l.step (.stop now)).run ts).step (.answer k later)).session.phase = .stopped ∧
    (((l.step (.stop now)).run ts).step (.answer k later)).starts[k]? =
      some (.answered (.error s.lateFault)) := by
  have hstop : (l.step (.stop now)).session.phase = .stopped := Session.stop_phase now l.session
  have hlawful := h.step (.stop now)
  have hrun := hlawful.run ts
  have hstopped := hlawful.run_stopped hstop ts
  refine ⟨hrun.step_stopped hstopped _, ?_⟩
  have hlate := hlawful.late_run hstop (.inl waits) ts
  rcases hlate with hwaits | answered
  · exact (hrun.late_step hstopped hwaits _).resolve_left fun he => he.1 later rfl
  · exact (step_cases _ _).kept answered

end Late

theorem Lawful.first_stop (h : Lawful source script l) {i : Nat} {first : Bool}
    (hi : l.stops[i]? = some first) : first = true ↔ i = 0 := by
  by_cases stopped : l.session.phase = .stopped
  · obtain ⟨n, hn⟩ := h.stopped stopped
    rw [hn] at hi
    cases i with
    | zero => simpa using hi.symm
    | succ i =>
      rw [List.getElem?_cons_succ, List.getElem?_replicate] at hi
      split at hi <;> simp_all
  · rw [h.unstopped stopped] at hi
    cases hi

/-- Whatever is done to a session, in any order and with starts that overlap: its phase
changes by the rule and a stop is for good; the service is called once and one start
succeeds, at most; between any two touches the token has fired, the transport was
closed, once, and the end is known if and only if the session has stopped, and the
beginning is known if and only if some start has left the idle phase; of all stops the
first and no other says it was the first; and a start that a stop falls into fails,
with the fault of the service if it has one, and does not undo the stop. -/
theorem life_goes_by_phases {source : Source} {budget delay : Nat} {script : Option Script}
    {s : Session} (made : Session.make source budget { script, delay } = .ok s)
    (ts : List Touch) :
    let l := Life.run ts { session := s }
    (∀ t, (l.step t).session.phase ≠ l.session.phase →
      l.session.phase.allows (l.step t).session.phase = true) ∧
    (∀ ts', l.session.phase = .stopped → (l.run ts').session.phase = .stopped) ∧
    l.session.transport.opens ≤ 1 ∧
    (∀ (j k : Nat) (a b : Stream), l.starts[j]? = some (.answered (.ok a)) →
      l.starts[k]? = some (.answered (.ok b)) → j = k) ∧
    (l.session.cancelled = true ↔ l.session.phase = .stopped) ∧
    l.session.transport.closes = (if l.session.phase = .stopped then 1 else 0) ∧
    (l.session.endedAt.isSome = true ↔ l.session.phase = .stopped) ∧
    (l.session.startedAt.isSome = true ↔ LeavesIdle ts { session := s }) ∧
    (∀ (i : Nat) (first : Bool), l.stops[i]? = some first → (first = true ↔ i = 0)) ∧
    ∀ (k now later : Nat) (ts' : List Touch), l.starts[k]? = some .pending →
      let l' := ((l.step (.stop now)).run ts').step (.answer k later)
      l'.session.phase = .stopped ∧ l'.starts[k]? = some (.answered (.error s.lateFault)) := by
  intro l
  obtain ⟨hs, -⟩ := Session.Orderly.make made
  have hnew : Lawful s.source s.transport.script { session := s } := by
    subst hs
    exact .make made
  have hl : Lawful s.source s.transport.script l := hnew.run ts
  have hbegun := startedAt_run ts { session := s }
  have hunbegun : s.startedAt.isSome = false := by rw [hs]; rfl
  refine ⟨fun t => (step_phase t l fun k hw => (hl.waiting k hw).1).1,
    fun ts' stopped => hl.run_stopped stopped ts', ?_, ?_, hl.orderly.fired, hl.orderly.closes,
    hl.orderly.ended, ?_, fun i first => hl.first_stop, ?_⟩
  · rw [hl.orderly.opens]
    split <;> decide
  · exact fun j k a b hj hk => hl.single j k ⟨_, hj, rfl⟩ ⟨_, hk, rfl⟩
  · simpa [hunbegun] using hbegun
  · exact fun k now later ts' waits => hl.late_answer waits now later ts'

/-- Of two starts that overlap the second is refused; the first, stopped twice on its way,
fails although the service opens the stream. -/
theorem overlapping_start_stopped :
    let source : Source := { region := "eu-west-1", group := "app" }
    let s : Session := { source, budget := 100, transport := { script := some .silent } }
    let l := Life.run [.start 0, .start 1] { session := s }
    let l' := ((l.step (.stop 5)).run [.stop 6]).step (.answer 0 9)
    Session.make source 100 { script := some .silent } = .ok s ∧
    l.starts = [.pending, .refused (.invalidState source.key.text "starting" "transition_to_starting")] ∧
    l'.starts[0]? = some (.answered (.error (.invalidState source.key.text "stopped" "start"))) ∧
    l'.stops = [true, false] := by
  intro source s l l'
  have made : Session.make source 100 { script := some .silent } = .ok s := by
    subst s source
    rfl
  obtain ⟨-, -, -, -, -, -, -, -, -, late⟩ := life_goes_by_phases made [.start 0, .start 1]
  exact ⟨made, rfl, (late 0 5 9 [.stop 6] rfl).2, rfl⟩

end Life

end LogTail
