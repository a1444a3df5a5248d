import LogTail.Proofs.Stops

/-!
# The laws of the record of a key

In which order notices about a key follow one another, which requests and sessions they
are of, and what they say of the roster and the sessions at any moment.
-/
namespace LogTail

namespace Notice

/-- One of the three answers to a request to start. -/
def isStart : Notice → Bool
  | started | refocused | startFailed _ => true
  | _ => false

end Notice

/-- What is recorded about a request that has its answer. -/
def Call.outcome? (c : Call) : Option Notice :=
  match c.stage with
  | .opening .. => none
  | .answered (.ok .opened) => some .started
  | .answered (.ok .refocused) => some .refocused
  | .answered (.error fault) => some (.startFailed fault.message)

def outcomes (key : Key) (calls : List Call) : List Notice :=
  (calls.filter (·.key = key)).filterMap Call.outcome?

def Deed.asked? : Deed → Option Key
  | replied key _ | entered _ key => some key
  | _ => none

section Outcomes

variable {calls : List Call} {c n : Nat} {k key : Key}

@[simp] theorem outcomes_append (key : Key) (xs ys : List Call) :
    outcomes key (xs ++ ys) = outcomes key xs ++ outcomes key ys := by
  simp [outcomes]

theorem outcomes_opening (due : Nat) : outcomes key [⟨k, .opening n due⟩] = [] := by
  by_cases hk : k = key
  · simp [outcomes, hk, Call.outcome?]
  · simp [outcomes, hk]

theorem about_outcome {x : Notice} (answer : Except Fault Started)
    (h : Call.outcome? ⟨k, .answered answer⟩ = some x) (key : Key) :
    (about key [(k, x)]).filter Notice.isStart = outcomes key [⟨k, .answered answer⟩] := by
  have hstart : x.isStart = true := by
    rcases answer with fault | opened | refocused <;> cases h <;> rfl
  by_cases hk : k = key
  · subst hk
    simp [about, outcomes, hstart, h]
  · simp [about, outcomes, hk]

/-- A request that is answered adds its outcome, wherever it stands. -/
theorem outcomes_answered (hc : Opens calls c n k) (key : Key) (answer : Except Fault Started) :
    (outcomes key (answered calls c answer)).Perm
      (outcomes key [⟨k, .answered answer⟩] ++ outcomes key calls) := by
  obtain ⟨due, hcall⟩ := hc
  obtain ⟨hlt, hget⟩ := List.getElem?_eq_some_iff.mp hcall
  have hset : answered calls c answer = calls.set c ⟨k, .answered answer⟩ := by
    rw [answered, List.modify_eq_set, hcall]
    rfl
  obtain ⟨before, after, hcalls, -, hafter⟩ :=
    @List.exists_of_set _ c ⟨k, .answered answer⟩ calls hlt
  have hold : outcomes key calls = outcomes key before ++ outcomes key after := by
    rw [hcalls, hget, ← List.singleton_append, outcomes_append, outcomes_append, outcomes_opening,
      List.nil_append]
  rw [hset, hafter, ← List.singleton_append, outcomes_append, outcomes_append, hold]
  exact List.perm_append_comm_assoc _ _ _

@[simp] theorem keys_answered (c : Nat) (answer : Except Fault Started) :
    (answered calls c answer).map (·.key) = calls.map (·.key) := by
  unfold answered
  induction calls generalizing c with
  | nil => simp
  | cons call calls ih => cases c <;> simp [List.modify_succ_cons, ih]

end Outcomes

namespace Desk

variable {d d' : Desk} {deed : Deed} {deeds : List Deed} {n : Nat} {t : Tail} {key : Key}

/-- An act records the outcomes of the requests that it answers. -/
theorem Act.outcomes (h : Act d deed d') (key : Key) : (outcomes key d'.calls).Perm
    ((about key deed.news).filter Notice.isStart ++ outcomes key d.calls) := by
  have hnone {k : Key} {x : Notice} (hx : x.isStart = false) :
      (about key [(k, x)]).filter Notice.isStart = [] := by
    by_cases hk : k = key
    · simp [about, hk, hx]
    · simp [about, hk]
  cases h with
  | beside h => exact .of_eq (by rw [h.calls]; rfl)
  | tended | left => exact .refl _
  | entered =>
    refine .of_eq ?_
    rw [outcomes_append, outcomes_opening, List.append_nil]
    rfl
  | refused k fault =>
    rw [outcomes_append, Deed.news, about_outcome (.error fault) rfl]
    exact List.perm_append_comm
  | refocused held =>
    rw [outcomes_append, Deed.news, about_outcome (.ok .refocused) rfl]
    exact List.perm_append_comm
  | opened hc =>
    rw [Deed.news, about_outcome (.ok .opened) rfl]
    exact outcomes_answered hc key _
  | failed fault hc | overtaken fault hc =>
    rw [Deed.news, about_outcome (.error fault) rfl]
    exact outcomes_answered hc key _
  | torn | cleared | wrote | ticked =>
    rw [Deed.news, hnone rfl]
    exact .refl _

theorem Act.asked (h : Act d deed d') :
    d'.calls.map (·.key) = d.calls.map (·.key) ++ deed.asked?.toList := by
  cases h with
  | beside h => simp [h.calls, Deed.asked?]
  | _ => simp [Deed.asked?]

theorem Acts.asked (h : Acts d deeds d') :
    d'.calls.map (·.key) = d.calls.map (·.key) ++ deeds.filterMap Deed.asked? := by
  induction h with
  | nil => simp
  | @cons d d₁ d' deed deeds first _ ih =>
    rw [ih, first.asked, List.append_assoc]
    cases hdeed : deed.asked? <;> simp [hdeed]

theorem Sound.move_asked (hs : d.Sound) (m : Move) :
    (d.move m).calls.map (·.key) = d.calls.map (·.key) ++ m.asked?.toList := by
  have hcomes := hs.move_comes m
  have hother (h : m.isRequest = false) : m.asked? = none := by
    cases m <;> first | rfl | cases h
  generalize d.move m = d' at hcomes
  cases hcomes with
  | winds h other =>
    obtain ⟨deeds, ha, hw⟩ := h
    have hnone : deeds.filterMap Deed.asked? = [] := by
      refine List.filterMap_eq_nil_iff.mpr fun deed hd => ?_
      have hdeed := hw deed hd
      cases deed <;> first | rfl | cases hdeed
    rw [ha.asked, hnone, hother other]
    rfl
  | told h other =>
    rw [h.asked, hother other]
    rfl
  | replied h | entered h | answered h | wrote h => exact h.asked
  | unasked c => simp [Move.asked?]

/-- The requests of a desk are those of its moves, in their order. -/
theorem Sound.moves_asked (hs : d.Sound) (ms : List Move) :
    (d.moves ms).calls.map (·.key) = d.calls.map (·.key) ++ ms.filterMap Move.asked? := by
  induction ms generalizing d with
  | nil => simp
  | cons m ms ih =>
    rw [moves_cons, ih (hs.move m), hs.move_asked, List.append_assoc]
    cases hm : m.asked? <;> simp [hm]

/-- How what was recorded about a key agrees with the desk. -/
structure Recorded (key : Key) (d : Desk) : Prop where
  sound : d.Sound
  window : isOpen (about key d.log) = true ↔ d.Runs key
  order : InOrder (about key d.log)
  answers : ((about key d.log).filter Notice.isStart).Perm (outcomes key d.calls)

theorem Act.recorded (h : Act d deed d') (hr : d.Recorded key) : d'.Recorded key where
  sound := h.sound hr.sound
  window := h.window hr.sound hr.window
  order := h.inOrder hr.sound hr.window hr.order
  answers := by
    rw [h.about_log, List.filter_append]
    exact (hr.answers.append_left _).trans (h.outcomes key).symm

theorem Acts.recorded (h : Acts d deeds d') (hr : d.Recorded key) : d'.Recorded key := by
  induction h with
  | nil => exact hr
  | cons first _ ih => exact ih (first.recorded hr)

theorem recorded_make (policy : Policy) (connector : Connector) (workspace : Workspace)
    (alone : connector.rivals = []) (key : Key) :
    (make policy connector workspace).Recorded key where
  sound := sound_make policy connector workspace alone
  window := by simp [make, about, isOpen, Runs]
  order := trivial
  answers := .refl _

theorem Recorded.moves (hr : d.Recorded key) (ms : List Move) : (d.moves ms).Recorded key := by
  obtain ⟨deeds, ha⟩ := hr.sound.moves_acts ms
  exact ha.recorded hr

/-- A refocusing and a clearing are recorded while the roster lists the key. -/
theorem Act.held_news {x : Notice} (h : Act d deed d') (hn : (key, x) ∈ deed.news)
    (hx : x = .refocused ∨ x = .cleared) :
    KeyMap.contains key d.roster = true ∧ KeyMap.contains key d'.roster = true := by
  cases h with
  | beside | tended | entered | left => simp [Deed.news] at hn
  | refocused held | cleared held =>
    simp only [Deed.news, List.mem_singleton, Prod.mk.injEq] at hn
    rw [hn.1]
    exact ⟨held, held⟩
  | _ =>
    simp only [Deed.news, List.mem_singleton, Prod.mk.injEq] at hn
    rcases hx with rfl | rfl <;> cases hn.2

/-- What winding records are stops. -/
theorem winding_news {x : Notice} (winding : ∀ deed ∈ deeds, deed.isWinding)
    (hn : (key, x) ∈ deeds.flatMap Deed.news) : ∃ reason, x = .stopped reason := by
  obtain ⟨deed, hd, hx⟩ := List.mem_flatMap.mp hn
  have hw := winding deed hd
  cases deed with
  | silent => cases hx
  | torn n k reason =>
    simp only [Deed.news, List.mem_singleton, Prod.mk.injEq] at hx
    exact ⟨reason, hx.2⟩
  | _ => cases hw

/-- A move that records anything but stops is one act. -/
theorem Sound.told_act {x : Notice} (hs : d.Sound) {m : Move} (hn : (key, x) ∈ d.told m)
    (unstopped : ∀ reason, x ≠ .stopped reason) :
    ∃ deed, Act d deed (d.move m) ∧ (key, x) ∈ deed.news := by
  have hcomes := hs.move_comes m
  unfold told at hn
  generalize d.move m = d' at hcomes hn
  cases hcomes with
  | winds h =>
    obtain ⟨deeds, ha, hw⟩ := h
    rw [ha.news] at hn
    obtain ⟨reason, he⟩ := winding_news hw hn
    exact absurd he (unstopped reason)
  | told h | replied h | entered h | answered h | wrote h => exact ⟨_, h, h.news ▸ hn⟩
  | unasked c => simp [Desk.news] at hn

/-- A session runs on just as long as no stop of its key is recorded. -/
theorem Act.running (h : Act d deed d') (hs : d.Sound) (ht : d.tails[n]? = some t)
    (running : t.session.phase = .running) :
    (∃ t', d'.tails[n]? = some t' ∧ t'.key = t.key ∧ t'.session.phase = .running ∧
        ∀ reason, (t.key, .stopped reason) ∉ deed.news) ∨
      ∃ t', d'.tails[n]? = some t' ∧ t'.session.phase = .stopped ∧
        ∃ reason, (t.key, .stopped reason) ∈ deed.news := by
  obtain ⟨t', ht', hk, hfate⟩ := h.fate hs ht
  cases hfate with
  | kept same untorn =>
    refine .inl ⟨t', ht', hk, same.trans running, fun reason hr => ?_⟩
    obtain ⟨m, rfl⟩ := h.stopped_news hr
    obtain ⟨u, hu, hku, live⟩ := h.torn_live
    have hm : m = n := hs.single hu ht hku live (Tail.Sound.live_of_running running)
    exact untorn t.key reason (by rw [hm])
  | opened starting | failed starting =>
    rw [running] at starting
    cases starting
  | @torn reason _ stopped he =>
    exact .inr ⟨t', ht', stopped, reason, by simp [he, Deed.news]⟩

theorem Acts.running (h : Acts d deeds d') (hs : d.Sound) (ht : d.tails[n]? = some t)
    (running : t.session.phase = .running) : d'.phase? n = some .running ↔
      ∀ reason, (t.key, .stopped reason) ∉ deeds.flatMap Deed.news := by
  induction h generalizing t with
  | nil => simp [phase?, ht, running]
  | @cons d d₁ d' deed deeds first rest ih =>
    have hs₁ := first.sound hs
    rcases first.running hs ht running with ⟨u, hu, hk, running', hnone⟩ | ⟨u, hu, stopped, reason, hr⟩
    · rw [ih hs₁ hu running', hk]
      simp [hnone]
    · obtain ⟨t', ht', -, stopped'⟩ := rest.stopped hs₁ hu stopped
      refine iff_of_false (by simp [phase?, ht', stopped']) fun hnone => hnone reason ?_
      rw [List.flatMap_cons]
      exact List.mem_append_left _ hr

/-- No session comes to run but by being started. -/
theorem Acts.began (h : Acts d deeds d') (hs : d.Sound) (before : d.phase? n ≠ some .running)
    (after : d'.phase? n = some .running) (hk : d'.key? n = some key) :
    (key, .started) ∈ deeds.flatMap Deed.news := by
  induction h with
  | nil => exact absurd after before
  | @cons d d₁ d' deed deeds first rest ih =>
    have hs₁ := first.sound hs
    rw [List.flatMap_cons, List.mem_append]
    by_cases now : d₁.phase? n = some .running
    · left
      obtain ⟨u, hu, running⟩ := Option.map_eq_some_iff.mp now
      have hu' : d'.key? n = some u.key := rest.key? hs₁ (key?_iff.mpr ⟨u, hu, rfl⟩)
      rw [hk] at hu'
      cases hu'
      rcases first.origin hs hu with ⟨starting, -⟩ | ⟨t, ht, hkey, hfate⟩
      · rw [running] at starting
        cases starting
      · cases hfate with
        | kept same => exact absurd (by simp [phase?, ht, ← same, running]) before
        | opened _ _ he => simp [he, hkey, Deed.news]
        | failed _ stopped | torn _ stopped =>
          rw [running] at stopped
          cases stopped
    · exact .inr (ih hs₁ now after hk)

/-- The laws of what is recorded about a key when a desk makes some moves. -/
structure RecordLaws (key : Key) (ms : List Move) (first d : Desk) : Prop where
  /-- The requests are those of the moves, -/
  requests : d.calls.map (·.key) = ms.filterMap Move.asked?
  /-- and of those that have their answers each is recorded once, by its outcome. -/
  answers : ((d.events key).filter Notice.isStart).Perm (outcomes key d.calls)
  between : ∀ xs ys zs, d.events key = xs ++ .started :: ys ++ .started :: zs →
    ∃ reason, .stopped reason ∈ ys
  work : ∀ xs x zs, d.events key = xs ++ x :: zs → x.isWork = true →
    ∃ earlier since, xs = earlier ++ .started :: since ∧ ∀ reason, .stopped reason ∉ since
  /-- The stops are of the sessions that were torn down, one of each. -/
  stops : ∃ stops : List (Nat × StopReason),
    (d.events key).filter Notice.isStop = stops.map (fun s => .stopped s.2) ∧
    (stops.map (·.1)).Nodup ∧
    ∀ n, n ∈ stops.map (·.1) ↔ first.TornDown n ms ∧ d.key? n = some key
  held : ∀ m x, (key, x) ∈ d.told m → x = .refocused ∨ x = .cleared →
    KeyMap.contains key d.roster = true ∧ KeyMap.contains key (d.move m).roster = true
  /-- A session that is recorded as started is on the roster and runs until a stop of its
  key is recorded, and not beyond. -/
  running : ∀ m, (key, .started) ∈ d.told m → ∃ n, d.phase? n = some .starting ∧
    (d.move m).phase? n = some .running ∧ (d.move m).key? n = some key ∧
    ∀ ms', ∃ since, ((d.move m).moves ms').events key = d.events key ++ .started :: since ∧
      ((KeyMap.get? key ((d.move m).moves ms').roster = some n ∧
        ((d.move m).moves ms').phase? n = some .running) ↔ ∀ reason, .stopped reason ∉ since)
  /-- No session runs that is not recorded as started. -/
  began : ∀ m n, d.phase? n ≠ some .running → (d.move m).phase? n = some .running →
    (d.move m).key? n = some key → (key, .started) ∈ d.told m

theorem Sound.running_since (hs : d.Sound) {m : Move} (hn : (key, .started) ∈ d.told m) :
    ∃ n, d.phase? n = some .starting ∧ (d.move m).phase? n = some .running ∧
      (d.move m).key? n = some key ∧ ∀ ms', ∃ since,
        ((d.move m).moves ms').events key = d.events key ++ .started :: since ∧
        ((KeyMap.get? key ((d.move m).moves ms').roster = some n ∧
          ((d.move m).moves ms').phase? n = some .running) ↔ ∀ reason, .stopped reason ∉ since) := by
  obtain ⟨deed, h, hdeed⟩ := hs.told_act hn nofun
  obtain ⟨c, rfl⟩ := h.started_news hdeed
  obtain ⟨n, t, t', ht, -, starting, ht', hk, running⟩ := h.started hs
  refine ⟨n, by simp [phase?, ht, starting], by simp [phase?, ht', running],
    key?_iff.mpr ⟨t', ht', hk⟩, fun ms' => ?_⟩
  have hs' := hs.move m
  obtain ⟨deeds, ha⟩ := hs'.moves_acts ms'
  have hfirst : (d.move m).events key = d.events key ++ [.started] := by
    have hone := events_append (Acts.one h).log key
    simpa [Deed.news, about] using hone
  have hruns := ha.running hs' ht' running
  rw [hk] at hruns
  refine ⟨about key (deeds.flatMap Deed.news), ?_, ?_⟩
  · rw [events_append ha.log key, hfirst]
    simp
  · simp only [mem_about, ← hruns]
    refine ⟨fun h => h.2, fun running' => ⟨?_, running'⟩⟩
    obtain ⟨u, hu, hrun⟩ := Option.map_eq_some_iff.mp running'
    obtain ⟨v, hv, hvk⟩ := key?_iff.mp (ha.key? hs' (key?_iff.mpr ⟨t', ht', hk⟩))
    rw [hu] at hv
    cases hv
    rw [← hvk]
    exact (hs'.moves ms').held hu (Tail.Sound.live_of_running hrun)

/-- Whatever moves a desk makes, what it records about each key obeys the laws. -/
theorem record_laws (policy : Policy) (connector : Connector) (workspace : Workspace)
    (alone : connector.rivals = []) (ms : List Move) (key : Key) :
    let first := make policy connector workspace
    RecordLaws key ms first (first.moves ms) := by
  intro first
  have hr : first.Recorded key := recorded_make policy connector workspace alone key
  have hd := hr.moves ms
  obtain ⟨deeds, ha⟩ := hr.sound.moves_acts ms
  have hevents : (first.moves ms).events key = about key ((first.moves ms).news first.log.length) := by
    rw [events_append ha.log key, ha.news]
    rfl
  exact {
    requests := hr.sound.moves_asked ms
    answers := by
      rw [events_eq, List.filter_reverse]
      exact (List.reverse_perm _).trans hd.answers
    between := fun xs ys zs split => hd.order.stop_between (events_eq key _ ▸ split)
    work := fun xs x zs split work => hd.order.start_before (events_eq key _ ▸ split) work
    stops := by
      rw [hevents]
      exact hr.sound.moves_stops ms key
    held := by
      intro m x hn hx
      obtain ⟨deed, h, hdeed⟩ := hd.sound.told_act hn (by rcases hx with rfl | rfl <;> nofun)
      exact h.held_news hdeed hx
    running := fun m hn => hd.sound.running_since hn
    began := by
      intro m n before after hk
      obtain ⟨deeds', ha'⟩ := (hd.sound.move_comes m).acts
      rw [told, ha'.news]
      exact ha'.began hd.sound before after hk }

/-- A session that is started twice, stopped, and then started anew. -/
theorem record_laws_restart :
    let source : Source := { region := "eu-west-1", group := "app" }
    let ms : List Move :=
      [.start source, .answer 0, .start source, .stop source.key, .start source, .answer 2]
    let first := make ⟨100, 1000, false⟩ {} {}
    (first.moves ms).events source.key = [.started, .refocused, .stopped .explicit, .started] ∧
      RecordLaws source.key ms first (first.moves ms) := by
  intro source ms first
  have hevents : (first.moves ms).events source.key =
      [.started, .refocused, .stopped .explicit, .started] := by decide
  exact ⟨hevents, record_laws ⟨100, 1000, false⟩ {} {} rfl ms source.key⟩

end Desk

end LogTail
