import LogTail.Proofs.Lifetime

/-!
# How long a session has lasted

The beginning and the end of a session are each set once, and to the time of the step that
comes to it. What the session has lasted grows with the clock from the one to the other; it
is nothing before the first and settled after the second.
-/
namespace LogTail

namespace Session

variable {now now' now'' : Nat} {s s' s'' : Session}

theorem duration_unbegun (unbegun : s.startedAt = none) : s.duration now = 0 := by
  simp [duration, unbegun]

theorem duration_begun {start : Nat} (begun : s.startedAt = some start) :
    s.duration now = s.endedAt.getD now - start := by
  cases hstop : s.endedAt <;> simp [duration, begun, hstop]

/-- What may become of the times of a session from one moment to a later one. -/
structure Ages (now now' : Nat) (s s' : Session) : Prop where
  clock : now ≤ now'
  begun : ∀ start, s.startedAt = some start → s'.startedAt = some start
  fresh : ∀ start, s.startedAt = none → s'.startedAt = some start → now ≤ start
  /-- What has ended cannot begin any more. -/
  ended : ∀ stop, s.endedAt = some stop → s'.endedAt = some stop ∧ s'.startedAt = s.startedAt
  lasts : ∀ stop, s.endedAt = none → s'.endedAt = some stop → now ≤ stop ∧ stop ≤ now'

namespace Ages

theorem same (clock : now ≤ now') (started : s'.startedAt = s.startedAt)
    (ended : s'.endedAt = s.endedAt) : Ages now now' s s' where
  clock := clock
  begun start h := started.trans h
  fresh start h h' := by
    rw [started, h] at h'
    cases h'
  ended stop h := ⟨ended.trans h, started⟩
  lasts stop h h' := by
    rw [ended, h] at h'
    cases h'

theorem trans (h : Ages now now' s s') (h' : Ages now' now'' s' s'') : Ages now now'' s s'' where
  clock := Nat.le_trans h.clock h'.clock
  begun start hstart := h'.begun start (h.begun start hstart)
  fresh start hnone hstart := by
    cases between : s'.startedAt with
    | none => exact Nat.le_trans h.clock (h'.fresh start between hstart)
    | some begun =>
      rw [h'.begun begun between] at hstart
      cases hstart
      exact h.fresh start hnone between
  ended stop hstop := by
    obtain ⟨hended, hstarted⟩ := h.ended stop hstop
    obtain ⟨hended', hstarted'⟩ := h'.ended stop hended
    exact ⟨hended', hstarted'.trans hstarted⟩
  lasts stop hnone hstop := by
    cases between : s'.endedAt with
    | none =>
      obtain ⟨hle, hle'⟩ := h'.lasts stop between hstop
      exact ⟨Nat.le_trans h.clock hle, hle'⟩
    | some ended =>
      rw [(h'.ended ended between).1] at hstop
      cases hstop
      obtain ⟨hle, hle'⟩ := h.lasts stop hnone between
      exact ⟨hle, Nat.le_trans hle' h'.clock⟩

theorem start (h : s.Orderly) (idle : s.phase = .idle) (now : Nat) (transport : Transport) :
    Ages now now s { s with phase := .starting, startedAt := some now, transport } := by
  have unbegun := h.idle idle
  have unended := h.unended (by simp [idle])
  refine ⟨Nat.le_refl now, fun start hstart => ?_, fun start _ hstart => ?_, fun stop hstop => ?_,
    fun stop _ hstop => ?_⟩
  · rw [unbegun] at hstart
    cases hstart
  · cases hstart
    exact Nat.le_refl now
  · rw [unended] at hstop
    cases hstop
  · rw [unended] at hstop
    cases hstop

theorem stop (h : s.Orderly) (now : Nat) : Ages now now s (s.stop now).2 := by
  by_cases stopped : s.phase = .stopped
  · rw [stop_stopped now stopped]
    exact same (Nat.le_refl now) rfl rfl
  · have unended := h.unended stopped
    have hstop : (s.stop now).2.endedAt = some now := by simp [Session.stop, stopped]
    refine ⟨Nat.le_refl now, fun start => (stop_startedAt now s).trans, fun start hnone hstart => ?_,
      fun stop hended => ?_, fun stop _ hended => ?_⟩
    · rw [stop_startedAt, hnone] at hstart
      cases hstart
    · rw [unended] at hended
      cases hended
    · rw [hstop] at hended
      cases hended
      exact ⟨Nat.le_refl now, Nat.le_refl now⟩

/-- The end of a session is put off no longer than time has passed. -/
theorem until_within (h : Ages now now' s s') :
    s.endedAt.getD now ≤ s'.endedAt.getD now' ∧
      s'.endedAt.getD now' ≤ s.endedAt.getD now + (now' - now) := by
  have hclock := h.clock
  cases hstop : s.endedAt with
  | some stop =>
    rw [(h.ended stop hstop).1]
    exact ⟨Nat.le_refl stop, Nat.le_add_right stop _⟩
  | none =>
    cases hstop' : s'.endedAt with
    | none =>
      simp only [Option.getD_none]
      omega
    | some stop =>
      have hlasts := h.lasts stop hstop hstop'
      simp only [Option.getD_none, Option.getD_some]
      omega

/-- What begins only now had not ended. -/
theorem live_of_fresh (h : Ages now now' s s') (unbegun : s.startedAt = none)
    (begun : s'.startedAt.isSome = true) : s.endedAt = none := by
  cases hstop : s.endedAt with
  | none => rfl
  | some stop =>
    rw [(h.ended stop hstop).2, unbegun] at begun
    cases begun

/-- A session has lasted no shorter than before, and at most longer by the time that has
passed. -/
theorem duration_within (h : Ages now now' s s') :
    s.duration now ≤ s'.duration now' ∧ s'.duration now' ≤ s.duration now + (now' - now) := by
  have huntil := h.until_within
  cases hstart : s.startedAt with
  | some start =>
    rw [duration_begun hstart, duration_begun (h.begun start hstart)]
    omega
  | none =>
    rw [duration_unbegun hstart]
    refine ⟨Nat.zero_le _, ?_⟩
    cases hstart' : s'.startedAt with
    | none => simp [duration_unbegun hstart']
    | some start =>
      have hfresh := h.fresh start hstart hstart'
      rw [h.live_of_fresh hstart (by rw [hstart']; rfl), Option.getD_none] at huntil
      rw [duration_begun hstart']
      omega

theorem duration_le (h : Ages now now' s s') : s.duration now ≤ s'.duration now' :=
  h.duration_within.1

/-- What is done at one moment takes no time. -/
theorem duration_eq (h : Ages now now s s') : s'.duration now = s.duration now := by
  have hwithin := h.duration_within
  omega

/-- Once a session has ended, nothing is added. -/
theorem duration_over (h : Ages now now' s s') (ended : s.endedAt.isSome = true) :
    s'.duration now' = s.duration now := by
  obtain ⟨stop, hstop⟩ := Option.isSome_iff_exists.mp ended
  obtain ⟨hstop', hstart'⟩ := h.ended stop hstop
  simp only [duration, hstart', hstop, hstop']
  cases s.startedAt <;> rfl

end Ages

end Session

/-! ### A session under a clock -/

/-- What happens to a session while a clock goes on. -/
inductive Happening where
  | pass (milliseconds : Nat)
  | start
  /-- The service answers the start with this number. -/
  | answer (start : Nat)
  | stop
  deriving DecidableEq, Repr

/-- A session with its starts and stops, and the time. -/
structure Clocked where
  life : Life
  now : Nat
  deriving Repr

def Touch.time : Touch → Nat
  | start now | answer _ now | stop now => now

/-- Whatever is done to a session is done at one moment. -/
theorem Life.step_ages {source : Source} {script : Option Script} {l : Life}
    (h : l.Lawful source script) (t : Touch) :
    l.session.Ages t.time t.time (l.step t).session := by
  have hsame {s' : Session} (started : s'.startedAt = l.session.startedAt)
      (ended : s'.endedAt = l.session.endedAt) : l.session.Ages t.time t.time s' :=
    .same (Nat.le_refl _) started ended
  have hstep := step_cases t l
  generalize l.step t = l' at hstep
  cases hstep with
  | began now idle => exact .start h.orderly idle now _
  | refused | unasked | opened | overtaken | stoppedAgain => exact hsame rfl rfl
  | failed now =>
    have hanswer : l.session.Ages now now
        { l.session with transport := l.session.transport.finishOpen.2 } := hsame rfl rfl
    exact hanswer.trans (.stop h.orderly.answer now)
  | stopped now => exact .stop h.orderly now

namespace Clocked

def session (c : Clocked) : Session := c.life.session

def duration (c : Clocked) : Nat := c.session.duration c.now

def step (h : Happening) (c : Clocked) : Clocked :=
  match h with
  | .pass ms => { c with now := c.now + ms }
  | .start => { c with life := c.life.step (.start c.now) }
  | .answer k => { c with life := c.life.step (.answer k c.now) }
  | .stop => { c with life := c.life.step (.stop c.now) }

def run (hs : List Happening) (c : Clocked) : Clocked := hs.foldl (fun c h => c.step h) c

@[simp] theorem run_nil (c : Clocked) : c.run [] = c := rfl

@[simp] theorem run_cons (h : Happening) (hs : List Happening) (c : Clocked) :
    c.run (h :: hs) = (c.step h).run hs := rfl

theorem run_append (hs hs' : List Happening) (c : Clocked) :
    c.run (hs ++ hs') = (c.run hs).run hs' := List.foldl_append

/-- What a session has lasted can be read off what has happened to it. -/
structure KeepsTime (c : Clocked) : Prop where
  /-- Nothing, as long as no start has met the session idle. -/
  unbegun : ∀ hs : List Happening,
    (∀ before after, hs = before ++ .start :: after → (c.run before).session.phase ≠ .idle) →
    (c.run hs).duration = 0
  /-- Nothing for ever, if it was stopped before. -/
  never : ∀ before after : List Happening, (c.run before).session.phase = .idle →
    (((c.run before).step .stop).run after).duration = 0
  /-- The time since the start, until the session is stopped. -/
  lasting : ∀ before after : List Happening, (c.run before).session.phase = .idle →
    let c' := ((c.run before).step .start).run after
    c'.session.phase ≠ .stopped → c'.duration = c'.now - (c.run before).now
  /-- What it was at the first stop, whoever stopped it and whatever happens later. -/
  settled : ∀ (before after : List Happening) (h : Happening),
    (c.run before).session.phase ≠ .stopped → ((c.run before).step h).session.phase = .stopped →
    (((c.run before).step h).run after).duration = (c.run before).duration
  grows : ∀ before after : List Happening,
    (c.run before).duration ≤ (c.run (before ++ after)).duration

section Runs

variable {source : Source} {script : Option Script} {c : Clocked}

theorem lawful_step (hl : c.life.Lawful source script) (h : Happening) :
    (c.step h).life.Lawful source script := by
  cases h with
  | pass => exact hl
  | start => exact hl.step (.start c.now)
  | answer k => exact hl.step (.answer k c.now)
  | stop => exact hl.step (.stop c.now)

theorem lawful_run (hl : c.life.Lawful source script) (hs : List Happening) :
    (c.run hs).life.Lawful source script := by
  induction hs generalizing c with
  | nil => exact hl
  | cons h hs ih => exact ih (lawful_step hl h)

theorem step_ages (hl : c.life.Lawful source script) (h : Happening) :
    c.session.Ages c.now (c.step h).now (c.step h).session := by
  cases h with
  | pass ms => exact .same (Nat.le_add_right _ ms) rfl rfl
  | start => exact Life.step_ages hl (.start c.now)
  | answer k => exact Life.step_ages hl (.answer k c.now)
  | stop => exact Life.step_ages hl (.stop c.now)

theorem run_ages (hl : c.life.Lawful source script) (hs : List Happening) :
    c.session.Ages c.now (c.run hs).now (c.run hs).session := by
  induction hs generalizing c with
  | nil => exact .same (Nat.le_refl _) rfl rfl
  | cons h hs ih => exact (step_ages hl h).trans (ih (lawful_step hl h))

/-- A session begins by a start that meets it idle, and not otherwise. -/
theorem step_unbegun (unbegun : c.session.startedAt = none) {h : Happening}
    (idle : h = .start → c.session.phase ≠ .idle) : (c.step h).session.startedAt = none := by
  have hleft (t : Touch) (hsame : (c.step h).session = (c.life.step t).session)
      (unleft : ¬ c.life.Leaves t) : (c.step h).session.startedAt = none := by
    have hnone : ¬ c.life.session.startedAt.isSome = true := by simpa [session] using unbegun
    rw [hsame, ← Option.not_isSome_iff_eq_none, Life.startedAt_step]
    exact not_or.mpr ⟨hnone, unleft⟩
  cases h with
  | pass => exact unbegun
  | start => exact hleft (.start c.now) rfl fun leaves => idle rfl leaves.2.1
  | answer k => exact hleft (.answer k c.now) rfl fun ⟨⟨_, he⟩, _⟩ => by cases he
  | stop => exact hleft (.stop c.now) rfl fun ⟨⟨_, he⟩, _⟩ => by cases he

theorem run_unbegun (unbegun : c.session.startedAt = none) (hs : List Happening)
    (idle : ∀ before after, hs = before ++ .start :: after →
      (c.run before).session.phase ≠ .idle) : (c.run hs).session.startedAt = none := by
  induction hs generalizing c with
  | nil => exact unbegun
  | cons h hs ih =>
    refine ih (step_unbegun unbegun fun he => ?_) fun before after split => ?_
    · exact idle [] hs (by rw [he]; rfl)
    · exact idle (h :: before) after (by rw [split]; rfl)

theorem start_idle (idle : c.session.phase = .idle) :
    (c.step .start).session.startedAt = some c.now := by
  have hstep := Life.start_step c.now c.life
  simp only [step, session]
  generalize c.life.step (.start c.now) = l' at hstep
  cases hstep with
  | began => rfl
  | refused _ _ begun => exact absurd idle begun

/-- A step that stops a session takes no time. -/
theorem now_of_stopped {h : Happening} (unstopped : c.session.phase ≠ .stopped)
    (stopped : (c.step h).session.phase = .stopped) : (c.step h).now = c.now := by
  cases h with
  | pass => exact absurd stopped unstopped
  | start | answer | stop => rfl

end Runs

/-- Whatever happens to a session, and however time passes in between, it keeps time. -/
theorem keepsTime {source : Source} {budget delay : Nat} {script : Option Script} {s : Session}
    (made : Session.make source budget { script, delay } = .ok s) (now : Nat) :
    KeepsTime { life := { session := s }, now } := by
  obtain ⟨rfl, -⟩ := Session.Orderly.make made
  have hnew : Life.Lawful source script
      { session := { source, budget, transport := { script, delay } } } := .make made
  generalize hc : ({ life := { session := _ }, now } : Clocked) = c
  have hl : c.life.Lawful source script := by rw [← hc]; exact hnew
  have unbegun : c.session.startedAt = none := by rw [← hc]; rfl
  refine ⟨fun hs idle => ?_, fun before after idle => ?_, fun before after idle => ?_,
    fun before after h unstopped stopped => ?_, fun before after => ?_⟩
  · exact Session.duration_unbegun (run_unbegun unbegun hs idle)
  · have hrun := lawful_run hl before
    have hstop := lawful_step hrun .stop
    have stopped : ((c.run before).step .stop).session.phase = .stopped := Session.stop_phase _ _
    obtain ⟨stop, hended⟩ := Option.isSome_iff_exists.mp (hstop.orderly.ended.mpr stopped)
    have hnone : ((c.run before).step .stop).session.startedAt = none :=
      (Session.stop_startedAt _ _).trans (hrun.orderly.idle idle)
    exact Session.duration_unbegun (((run_ages hstop after).ended stop hended).2.trans hnone)
  · intro c' going
    have hrun := lawful_run hl before
    have hstart := lawful_step hrun .start
    have hbegun : c'.session.startedAt = some (c.run before).now :=
      (run_ages hstart after).begun _ (start_idle idle)
    have hended : c'.session.endedAt = none := (lawful_run hstart after).orderly.unended going
    simp only [duration, Session.duration_begun hbegun, hended, Option.getD_none]
  · have hrun := lawful_run hl before
    have hstep := lawful_step hrun h
    have hages := step_ages hrun h
    have hnow := now_of_stopped unstopped stopped
    rw [hnow] at hages
    have hended := hstep.orderly.ended.mpr stopped
    have hover := (run_ages hstep after).duration_over hended
    rw [hnow] at hover
    exact hover.trans hages.duration_eq
  · rw [run_append]
    exact (run_ages (lawful_run hl before) after).duration_le

end Clocked

end LogTail
