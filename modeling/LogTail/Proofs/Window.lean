import LogTail.Proofs.Fate
import LogTail.Proofs.Trace

/-!
# Windows in the record of a key

A start on record opens a window, and a stop closes it. A window of a key is open just
when a session of the key runs; so no start is recorded in an open window, and no
update or tick out of one.
-/
namespace LogTail

namespace Notice

/-- It opens a window or closes one. -/
def isTurn : Notice → Bool
  | started | stopped _ => true
  | _ => false

/-- It tells of the work of a session that runs. -/
def isWork : Notice → Bool
  | update .. | elapsed _ => true
  | _ => false

end Notice

/-- Whether the last start has no stop after it; the notices are given newest first. -/
def isOpen : List Notice → Bool
  | [] => false
  | .started :: _ => true
  | .stopped _ :: _ => false
  | _ :: older => isOpen older

/-- Starts come while no window is open and work while one is; newest first. -/
def InOrder : List Notice → Prop
  | [] => True
  | n :: older => InOrder older ∧ (n = .started → isOpen older = false) ∧
      (n.isWork = true → isOpen older = true)

theorem isOpen_cons {n : Notice} (h : n.isTurn = false) (older : List Notice) :
    isOpen (n :: older) = isOpen older := by
  cases n with
  | started | stopped => cases h
  | _ => rfl

theorem isOpen_append {newer : List Notice} (h : ∀ n ∈ newer, n.isTurn = false)
    (older : List Notice) : isOpen (newer ++ older) = isOpen older := by
  induction newer with
  | nil => rfl
  | cons n newer ih =>
    have hn := h n (by simp)
    have hnewer := ih fun m hm => h m (by simp [hm])
    rw [List.cons_append, isOpen_cons hn, hnewer]

theorem isOpen_iff {notices : List Notice} : isOpen notices = true ↔
    ∃ newer older, notices = newer ++ .started :: older ∧ ∀ reason, .stopped reason ∉ newer := by
  induction notices with
  | nil => simp [isOpen]
  | cons n rest ih =>
    constructor
    · intro h
      cases n with
      | started => exact ⟨[], rest, rfl, by simp⟩
      | stopped => cases h
      | _ =>
        obtain ⟨newer, older, rfl, hnone⟩ := ih.mp h
        exact ⟨_ :: newer, older, rfl, by simpa using hnone⟩
    · rintro ⟨newer, older, he, hnone⟩
      cases newer with
      | nil =>
        cases he
        rfl
      | cons x newer =>
        cases he
        have hrest := ih.mpr ⟨newer, older, rfl, fun reason hr => hnone reason (by simp [hr])⟩
        cases n with
        | stopped reason => exact absurd (by simp) (hnone reason)
        | _ => first | rfl | exact hrest

theorem InOrder.of_append {newer older : List Notice} (h : InOrder (newer ++ older)) :
    InOrder older := by
  induction newer with
  | nil => exact h
  | cons n newer ih => exact ih h.1

/-- Between two starts there is a stop. -/
theorem InOrder.stop_between {notices xs ys zs : List Notice} (h : InOrder notices)
    (split : notices.reverse = xs ++ .started :: ys ++ .started :: zs) :
    ∃ reason, .stopped reason ∈ ys := by
  have hsplit : notices = zs.reverse ++ .started :: (ys.reverse ++ .started :: xs.reverse) := by
    rw [← List.reverse_reverse notices, split]
    simp
  rw [hsplit] at h
  have hclosed := h.of_append.2.1 rfl
  refine Classical.byContradiction fun hnone => ?_
  have hopen : isOpen (ys.reverse ++ .started :: xs.reverse) = true :=
    isOpen_iff.mpr ⟨ys.reverse, xs.reverse, rfl, fun reason hr => hnone ⟨reason, by simpa using hr⟩⟩
  rw [hclosed] at hopen
  cases hopen

/-- Before work there is a start, and no stop since. -/
theorem InOrder.start_before {notices xs zs : List Notice} {x : Notice} (h : InOrder notices)
    (split : notices.reverse = xs ++ x :: zs) (work : x.isWork = true) :
    ∃ earlier since, xs = earlier ++ .started :: since ∧ ∀ reason, .stopped reason ∉ since := by
  have hsplit : notices = zs.reverse ++ x :: xs.reverse := by
    rw [← List.reverse_reverse notices, split]
    simp
  rw [hsplit] at h
  obtain ⟨newer, older, he, hnone⟩ := isOpen_iff.mp (h.of_append.2.2 work)
  refine ⟨older.reverse, newer.reverse, ?_, by simpa using hnone⟩
  rw [← List.reverse_reverse xs, he]
  simp

/-- What was recorded about a key, in the order given. -/
def about (key : Key) (log : List (Key × Notice)) : List Notice :=
  (log.filter (·.1 = key)).map (·.2)

@[simp] theorem about_append (key : Key) (xs ys : List (Key × Notice)) :
    about key (xs ++ ys) = about key xs ++ about key ys := by
  simp [about]

theorem mem_about {key : Key} {n : Notice} {log : List (Key × Notice)} :
    n ∈ about key log ↔ (key, n) ∈ log := by
  simp only [about, List.mem_map, List.mem_filter, decide_eq_true_eq]
  constructor
  · rintro ⟨⟨k, m⟩, ⟨hm, rfl⟩, rfl⟩
    exact hm
  · intro h
    exact ⟨(key, n), ⟨h, rfl⟩, rfl⟩

namespace Desk

variable {d d' : Desk} {deed : Deed} {deeds : List Deed} {n : Nat} {t : Tail} {key : Key}

theorem events_eq (key : Key) (d : Desk) : d.events key = (about key d.log).reverse := by
  simp [events, about, List.filter_reverse, List.map_reverse]

theorem events_append {told : List (Key × Notice)} (h : d'.log = told.reverse ++ d.log) (key : Key) :
    d'.events key = d.events key ++ about key told := by
  rw [events_eq, events_eq, h, about_append, List.reverse_append]
  simp [about, List.filter_reverse, List.map_reverse]

/-- A session of the key runs. -/
def Runs (d : Desk) (key : Key) : Prop :=
  ∃ (n : Nat) (t : Tail), d.tails[n]? = some t ∧ t.key = key ∧ t.session.phase = .running

theorem Sound.not_runs (hs : d.Sound) (ht : d.tails[n]? = some t)
    (starting : t.session.phase = .starting) : ¬ d.Runs t.key := by
  rintro ⟨m, u, hu, same, running⟩
  have hm : m = n := hs.single hu ht same (Tail.Sound.live_of_running running)
    ((Phase.isLive_iff _).mpr (.inl starting))
  subst hm
  rw [ht] at hu
  cases hu
  rw [starting] at running
  cases running

/-- What is told of a session that runs is no turn. -/
theorem Act.told_isTurn {notice : Notice} (h : Act d (.told key notice) d') :
    notice.isTurn = false := by
  cases h <;> rfl

theorem Act.replied_isTurn {notice : Notice} (h : Act d (.replied key notice) d') :
    notice.isTurn = false := by
  cases h <;> rfl

theorem Act.answered_notice {c : Nat} {notice : Notice} (h : Act d (.answered c key notice) d') :
    notice = .started ∨ ∃ reason, notice = .startFailed reason := by
  cases h with
  | opened => exact .inl rfl
  | failed fault | overtaken fault => exact .inr ⟨_, rfl⟩

/-- Only a session that is torn down is recorded as stopped. -/
theorem Act.stopped_news {reason : StopReason} (h : Act d deed d')
    (hn : (key, .stopped reason) ∈ deed.news) : ∃ n, deed = .torn n key reason := by
  cases deed with
  | silent | entered => simp [Deed.news] at hn
  | told k notice =>
    simp only [Deed.news, List.mem_singleton, Prod.mk.injEq] at hn
    have hturn := h.told_isTurn
    rw [← hn.2] at hturn
    cases hturn
  | replied k notice =>
    simp only [Deed.news, List.mem_singleton, Prod.mk.injEq] at hn
    have hturn := h.replied_isTurn
    rw [← hn.2] at hturn
    cases hturn
  | answered c k notice =>
    simp only [Deed.news, List.mem_singleton, Prod.mk.injEq] at hn
    rcases h.answered_notice with rfl | ⟨_, rfl⟩ <;> simp at hn
  | torn n k r =>
    simp only [Deed.news, List.mem_singleton, Prod.mk.injEq, Notice.stopped.injEq] at hn
    obtain ⟨rfl, rfl⟩ := hn
    exact ⟨n, rfl⟩
  | wrote => simp [Deed.news] at hn

theorem Act.started_news (h : Act d deed d') (hn : (key, .started) ∈ deed.news) :
    ∃ c, deed = .answered c key .started := by
  cases deed with
  | silent | entered => simp [Deed.news] at hn
  | told k notice =>
    simp only [Deed.news, List.mem_singleton, Prod.mk.injEq] at hn
    have hturn := h.told_isTurn
    rw [← hn.2] at hturn
    cases hturn
  | replied k notice =>
    simp only [Deed.news, List.mem_singleton, Prod.mk.injEq] at hn
    have hturn := h.replied_isTurn
    rw [← hn.2] at hturn
    cases hturn
  | answered c k notice =>
    simp only [Deed.news, List.mem_singleton, Prod.mk.injEq] at hn
    obtain ⟨rfl, rfl⟩ := hn
    exact ⟨c, rfl⟩
  | torn | wrote => simp [Deed.news] at hn

/-- Work is recorded while a session runs. -/
theorem Act.work_news {notice : Notice} (h : Act d deed d') (hn : (key, notice) ∈ deed.news)
    (work : notice.isWork = true) : d.Runs key := by
  cases h with
  | beside | tended | entered | left => simp [Deed.news] at hn
  | wrote ht running =>
    simp only [Deed.news, List.mem_singleton, Prod.mk.injEq] at hn
    exact ⟨_, _, ht, hn.1.symm, running⟩
  | ticked next ht running =>
    simp only [Deed.news, List.mem_singleton, Prod.mk.injEq] at hn
    exact ⟨_, _, ht, hn.1.symm, running⟩
  | _ =>
    simp only [Deed.news, List.mem_singleton, Prod.mk.injEq] at hn
    rw [hn.2] at work
    cases work

/-- Only a start that succeeds sets a session running. -/
theorem Act.runs_before (h : Act d deed d') (hs : d.Sound)
    (unopened : ∀ c, deed ≠ .answered c key .started) (runs : d'.Runs key) : d.Runs key := by
  obtain ⟨n, t', ht', rfl, running⟩ := runs
  rcases h.origin hs ht' with ⟨starting, -⟩ | ⟨t, ht, hk, hfate⟩
  · rw [running] at starting
    cases starting
  · cases hfate with
    | kept same => exact ⟨n, t, ht, hk.symm, same ▸ running⟩
    | opened starting _ he => exact absurd (hk ▸ he) (unopened _)
    | failed _ stopped | torn _ stopped =>
      rw [running] at stopped
      cases stopped

/-- Without a turn on record a key's session runs on, if one does, and none begins to. -/
theorem Act.runs_iff (h : Act d deed d') (hs : d.Sound)
    (unopened : ∀ c, deed ≠ .answered c key .started)
    (untorn : ∀ n reason, deed ≠ .torn n key reason) : d'.Runs key ↔ d.Runs key := by
  refine ⟨h.runs_before hs unopened, ?_⟩
  rintro ⟨n, t, ht, rfl, running⟩
  obtain ⟨t', ht', hk, hfate⟩ := h.fate hs ht
  cases hfate with
  | kept same => exact ⟨n, t', ht', hk, same.trans running⟩
  | opened starting | failed starting =>
    rw [running] at starting
    cases starting
  | torn _ _ he => exact absurd he (untorn _ _)

/-- Once the session of a key is torn down none of the key runs. -/
theorem Act.not_runs_torn {reason : StopReason} (h : Act d (.torn n key reason) d') (hs : d.Sound) :
    ¬ d'.Runs key := by
  rintro ⟨m, u', hu', rfl, running⟩
  obtain ⟨t, ht, same, live⟩ := h.torn_live
  rcases h.origin hs hu' with ⟨-, he⟩ | ⟨u, hu, hk, hfate⟩
  · cases he
  · cases hfate with
    | kept same' untorn =>
      have ulive : u.session.phase.isLive = true := Tail.Sound.live_of_running (same' ▸ running)
      have hm : n = m := hs.single ht hu (same.trans hk) live ulive
      exact untorn u'.key reason (by rw [hm])
    | opened _ _ he => cases he
    | failed _ stopped | torn _ stopped =>
      rw [running] at stopped
      cases stopped

theorem Act.about_log (h : Act d deed d') (key : Key) :
    about key d'.log = about key deed.news ++ about key d.log := by
  rw [h.log, about_append]

theorem Act.window (h : Act d deed d') (hs : d.Sound)
    (hw : isOpen (about key d.log) = true ↔ d.Runs key) :
    isOpen (about key d'.log) = true ↔ d'.Runs key := by
  rw [h.about_log]
  by_cases opened : (key, .started) ∈ deed.news
  · obtain ⟨c, rfl⟩ := h.started_news opened
    obtain ⟨n, t, t', -, -, -, ht', hk, running⟩ := h.started hs
    have hnews : about key (Deed.answered c key .started).news = [.started] := by
      simp [Deed.news, about]
    rw [hnews]
    exact iff_of_true rfl ⟨n, t', ht', hk, running⟩
  by_cases torn : ∃ n reason, deed = .torn n key reason
  · obtain ⟨n, reason, rfl⟩ := torn
    have hnews : about key (Deed.torn n key reason).news = [.stopped reason] := by
      simp [Deed.news, about]
    rw [hnews]
    exact iff_of_false (by simp [isOpen]) (h.not_runs_torn hs)
  · have hquiet : ∀ x ∈ about key deed.news, x.isTurn = false := by
      intro x hx
      have hmem := mem_about.mp hx
      cases x with
      | started => exact absurd hmem opened
      | stopped reason =>
        obtain ⟨n, he⟩ := h.stopped_news hmem
        exact absurd ⟨n, reason, he⟩ torn
      | _ => rfl
    rw [isOpen_append hquiet, hw]
    refine (h.runs_iff hs ?_ fun n reason he => torn ⟨n, reason, he⟩).symm
    rintro c rfl
    exact opened (by simp [Deed.news])

theorem Act.inOrder (h : Act d deed d') (hs : d.Sound)
    (hw : isOpen (about key d.log) = true ↔ d.Runs key) (ho : InOrder (about key d.log)) :
    InOrder (about key d'.log) := by
  rw [h.about_log]
  -- one notice at most is added
  have hone : about key deed.news = [] ∨ ∃ x, about key deed.news = [x] ∧ (key, x) ∈ deed.news := by
    cases hnews : about key deed.news with
    | nil => exact .inl rfl
    | cons x rest =>
      have hx : (key, x) ∈ deed.news := mem_about.mp (by simp [hnews])
      have hlen : (about key deed.news).length ≤ 1 := by
        refine Nat.le_trans (by simpa [about] using List.length_filter_le _ _) ?_
        cases deed <;> simp [Deed.news]
      have hrest : rest = [] := by simpa [hnews] using hlen
      exact .inr ⟨x, by rw [hrest], hx⟩
  rcases hone with hnone | ⟨x, hx, hmem⟩
  · rw [hnone]
    exact ho
  · rw [hx]
    refine ⟨ho, ?_, fun work => hw.mpr (h.work_news hmem work)⟩
    rintro rfl
    obtain ⟨c, rfl⟩ := h.started_news hmem
    obtain ⟨n, t, t', ht, rfl, starting, -⟩ := h.started hs
    have hclosed : ¬ isOpen (about t.key d.log) = true := mt hw.mp (hs.not_runs ht starting)
    simpa using hclosed

end Desk

end LogTail
