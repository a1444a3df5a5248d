import LogTail.Desk.Move

/-!
# Sound desks

What holds of a desk at every moment when nobody but the desk itself puts sessions on
its roster: the roster lists exactly the live sessions, a session has a feed once it
has run, and a session that waits for the service is waited for by one request.
-/
namespace LogTail

theorem Phase.isLive_iff (p : Phase) : p.isLive = true ↔ p = .starting ∨ p = .running := by
  cases p <;> decide

@[simp] theorem Connector.connect_rivals (c : Connector) : c.connect.2.rivals = c.rivals := by
  simp only [connect]
  split <;> rfl

@[simp] theorem Connector.connect_connects (c : Connector) :
    c.connect.2.connects = c.connects + 1 := by
  simp only [connect]
  split <;> rfl

/-- Whoever stops to read a channel, what was sent into it stays. -/
theorem Channel.items_release (number : Option Nat) (channels : List Channel) (c : Nat) :
    ((release number channels)[c]?).map Channel.items = (channels[c]?).map Channel.items := by
  cases number with
  | none => rfl
  | some n =>
    by_cases hn : n = c
    · subst hn
      cases hc : channels[n]? <;> simp [release, hc]
    · simp [release, List.getElem?_modify_ne, hn]

@[simp] theorem Channel.length_release (number : Option Nat) (channels : List Channel) :
    (release number channels).length = channels.length := by
  cases number <;> simp [release]

theorem Connector.connect_error {c c' : Connector} {fault : Fault}
    (h : c.connect = (.error fault, c')) : c'.scripts = c.scripts ∧ c.fault.isSome = true := by
  simp only [connect] at h
  split at h
  · rename_i failing
    cases h
    exact ⟨rfl, by rw [failing]; rfl⟩
  · cases h

/-- A transport takes the next script, and after the last one it is silent. -/
theorem Connector.connect_ok {c c' : Connector} {transport : Transport}
    (h : c.connect = (.ok transport, c')) :
    transport.script = some (c.scripts.headD .silent) ∧ c'.scripts = c.scripts.tail := by
  simp only [connect] at h
  split at h
  · cases h
  · cases h
    exact ⟨rfl, rfl⟩

/-- A transport that has not been used. -/
structure Transport.Fresh (t : Transport) : Prop where
  opens : t.opens = 0
  closes : t.closes = 0
  early : t.earlyCloses = 0

theorem Transport.fresh_mk (script : Option Script) (delay : Nat) :
    Transport.Fresh { script, delay } :=
  ⟨rfl, rfl, rfl⟩

/-- A transport that was just handed out has not been used. -/
theorem Connector.connect_fresh {c c' : Connector} {transport : Transport}
    (h : c.connect = (.ok transport, c')) :
    transport.Fresh ∧ c'.connects = c.connects + 1 ∧ c.fault = none := by
  simp only [connect] at h
  split at h
  · cases h
  · cases h
    exact ⟨Transport.fresh_mk _ _, rfl, ‹_›⟩

namespace Session

@[simp] theorem stop_key (now : Nat) (s : Session) : (s.stop now).2.key = s.key := by
  unfold stop
  split <;> rfl

@[simp] theorem stop_budget (now : Nat) (s : Session) : (s.stop now).2.budget = s.budget := by
  unfold stop
  split <;> rfl

@[simp] theorem stop_phase (now : Nat) (s : Session) : (s.stop now).2.phase = .stopped := by
  unfold stop
  split
  · assumption
  · rfl

theorem stop_stopped (now : Nat) {s : Session} (h : s.phase = .stopped) :
    s.stop now = (false, s) := by
  simp [stop, h]

theorem stop_first (now : Nat) {s : Session} (h : s.phase ≠ .stopped) :
    (s.stop now).1 = true := by
  simp [stop, h]

theorem stop_cancelled (now : Nat) {s : Session} (h : s.phase ≠ .stopped) :
    (s.stop now).2.cancelled = true := by
  simp [stop, h]

end Session

/-- What holds of each session with what it leaves running. -/
structure Tail.Sound (t : Tail) : Prop where
  own : t.own = true
  begun : t.session.phase ≠ .idle
  fired : t.session.cancelled = true ↔ t.session.phase = .stopped
  unfed : t.session.phase = .starting → t.feed = none
  fed : t.session.phase = .running → ∃ f, t.feed = some f ∧ f.report = none
  ticking : t.ticker = .absent ↔ t.feed = none

namespace Tail.Sound

variable {t : Tail}

theorem stop (h : t.Sound) (live : t.session.phase.isLive = true) (now : Nat) :
    Tail.Sound { t with session := (t.session.stop now).2 } := by
  have hne : t.session.phase ≠ .stopped := by
    intro he
    rw [he] at live
    exact absurd live (by decide)
  exact {
    own := h.own
    begun := by simp
    fired := by simp [Session.stop_cancelled now hne]
    unfed := by simp
    fed := by simp
    ticking := h.ticking }

/-- What a session owes does not depend on its transport. -/
theorem withTransport (h : t.Sound) (transport : Transport) :
    Tail.Sound { t with session := { t.session with transport } } :=
  ⟨h.own, h.begun, h.fired, h.unfed, h.fed, h.ticking⟩

theorem welcome (h : t.Sound) (starting : t.session.phase = .starting) (transport : Transport)
    (stream : Stream) : Tail.Sound { t with
      session := { t.session with transport, phase := .running }
      feed := some { stream }
      ticker := .fresh } where
  own := h.own
  begun := by simp
  fired := by
    have hf := h.fired
    rw [starting] at hf
    simpa using hf
  unfed := by simp
  fed := fun _ => ⟨_, rfl, rfl⟩
  ticking := by simp

/-- Once a session has stopped its feed may come to any end. -/
theorem withFeed (h : t.Sound) (stopped : t.session.phase = .stopped) (fed : t.feed.isSome)
    (f : Feed) : Tail.Sound { t with feed := some f } where
  own := h.own
  begun := h.begun
  fired := h.fired
  unfed := by simp [stopped]
  fed := by simp [stopped]
  ticking := by
    have hne : t.feed ≠ none := Option.isSome_iff_ne_none.mp fed
    simp [h.ticking, hne]

theorem withTicker (h : t.Sound) (ticking : t.ticker ≠ .absent) (next : Nat) :
    Tail.Sound { t with ticker := .due next } :=
  ⟨h.own, h.begun, h.fired, h.unfed, h.fed, by simpa [h.ticking] using ticking⟩

theorem live_of_running (hr : t.session.phase = .running) : t.session.phase.isLive = true := by
  rw [hr]
  rfl

end Tail.Sound

/-- The roster lists the live sessions, each under its own key, and nothing else. -/
def Roster.Lists (r : Roster) (tails : List Tail) : Prop :=
  ∀ (key : Key) (n : Nat), KeyMap.get? key r = some n ↔
    ∃ t, tails[n]? = some t ∧ t.key = key ∧ t.session.phase.isLive = true

namespace Roster.Lists

variable {r : Roster} {tails : List Tail} {n : Nat} {t t' : Tail}

/-- Changes that leave the key of a session and whether it is live do not show. -/
theorem set (h : r.Lists tails) (ht : tails[n]? = some t) (hk : t'.key = t.key)
    (hl : t'.session.phase.isLive = t.session.phase.isLive) : r.Lists (tails.set n t') := by
  intro key m
  rw [h key m]
  have hn : n < tails.length := (List.getElem?_eq_some_iff.mp ht).1
  by_cases hm : n = m
  · subst hm
    simp [List.getElem?_set_self hn, ht, hk, hl]
  · rw [List.getElem?_set_ne hm]

/-- A live session that is stopped leaves the roster. -/
theorem stop (h : r.Lists tails) (ht : tails[n]? = some t) (live : t.session.phase.isLive = true)
    (hk : t'.key = t.key) (hs : t'.session.phase.isLive = false) :
    Lists (KeyMap.erase t.key r) (tails.set n t') := by
  intro key m
  have hn : n < tails.length := (List.getElem?_eq_some_iff.mp ht).1
  have held : KeyMap.get? t.key r = some n := (h t.key n).mpr ⟨t, ht, rfl, live⟩
  rw [KeyMap.get?_erase]
  by_cases hm : n = m
  · subst hm
    have hnot : ¬ KeyMap.get? key r = some n ∨ t.key = key := by
      by_cases he : KeyMap.get? key r = some n
      · obtain ⟨u, hu, huk, -⟩ := (h key n).mp he
        rw [ht] at hu
        cases hu
        exact .inr huk
      · exact .inl he
    simp only [List.getElem?_set_self hn, Option.some.injEq, exists_eq_left', hs]
    rcases hnot with hnot | rfl <;> simp_all
  · rw [List.getElem?_set_ne hm, ← h key m]
    by_cases hkey : t.key = key
    · subst hkey
      simp [held, hm]
    · simp [hkey]

/-- A new live session takes a free key. -/
theorem add (h : r.Lists tails) (free : KeyMap.get? t.key r = none)
    (live : t.session.phase.isLive = true) :
    Lists (KeyMap.insert t.key tails.length r) (tails ++ [t]) := by
  intro key m
  rw [KeyMap.get?_insert]
  by_cases hkey : t.key = key
  · subst hkey
    have hnone : ∀ u, tails[m]? = some u → u.key = t.key → u.session.phase.isLive = true → False := by
      intro u hu huk hul
      have := (h t.key m).mpr ⟨u, hu, huk, hul⟩
      rw [free] at this
      cases this
    rw [if_pos rfl]
    constructor
    · rintro ⟨⟩
      exact ⟨t, by simp, rfl, live⟩
    · rintro ⟨u, hu, huk, hul⟩
      rw [List.getElem?_append] at hu
      split at hu
      · exact (hnone u hu huk hul).elim
      · have hm := List.getElem?_eq_some_iff.mp hu
        simp at hm
        exact congrArg some (by omega)
  · rw [if_neg hkey, h key m, List.getElem?_append]
    split
    · rfl
    · rename_i hm
      have hlen : tails[m]? = none := by simpa using hm
      simp only [hlen, reduceCtorEq, false_and, exists_false, false_iff, not_exists, not_and]
      intro u hu huk
      have hu' := List.mem_singleton.mp (List.mem_of_getElem? hu)
      subst hu'
      exact absurd huk hkey

end Roster.Lists

/-- A request waits for the service on behalf of a session. -/
def Opens (calls : List Call) (call n : Nat) (key : Key) : Prop :=
  ∃ due, calls[call]? = some ⟨key, .opening n due⟩

/-- The call list once a request has its answer. -/
def answered (calls : List Call) (call : Nat) (answer : Except Fault Started) : List Call :=
  calls.modify call fun c => { c with stage := .answered answer }

section Opens

variable {calls : List Call} {c c' n : Nat} {key : Key} {answer : Except Fault Started}

theorem opens_answered : Opens (answered calls c answer) c' n key ↔ c' ≠ c ∧ Opens calls c' n key := by
  unfold Opens answered
  by_cases h : c = c'
  · subst h
    simp
  · simp [h, Ne.symm h]

theorem opens_append {call : Call} : Opens (calls ++ [call]) c n key ↔
    Opens calls c n key ∨ c = calls.length ∧ ∃ due, call = ⟨key, .opening n due⟩ := by
  unfold Opens
  rw [List.getElem?_append]
  by_cases h : c < calls.length
  · simp [h, Nat.ne_of_lt h]
  · by_cases he : c = calls.length
    · simp [he]
    · have hgap : c - calls.length ≠ 0 := by omega
      simp [h, he, hgap]

end Opens

/-- Every request that waits for the service does so for a session that has not run, and
no two of them for the same one. -/
structure Awaited (calls : List Call) (tails : List Tail) : Prop where
  unrun : ∀ (c n : Nat) (key : Key), Opens calls c n key →
    ∃ t, tails[n]? = some t ∧ t.key = key ∧ t.feed = none ∧ t.session.phase ≠ .running
  single : ∀ (c c' n : Nat) (key key' : Key),
    Opens calls c n key → Opens calls c' n key' → c = c'

namespace Awaited

variable {calls : List Call} {tails : List Tail} {n : Nat} {t t' : Tail}

/-- What is known of a session for which a request waits. -/
theorem tail (h : Awaited calls tails) {c : Nat} {key : Key} (hc : Opens calls c n key)
    (ht : tails[n]? = some t) : t.key = key ∧ t.feed = none ∧ t.session.phase ≠ .running := by
  obtain ⟨u, hu, hrest⟩ := h.unrun c n key hc
  rw [ht] at hu
  cases hu
  exact hrest

theorem set (h : Awaited calls tails) (ht : tails[n]? = some t) (hk : t'.key = t.key)
    (hf : t.feed = none → t'.feed = none)
    (hp : t.session.phase ≠ .running → t'.session.phase ≠ .running) :
    Awaited calls (tails.set n t') where
  unrun c m key ho := by
    obtain ⟨u, hu, huk, huf, hup⟩ := h.unrun c m key ho
    by_cases hm : n = m
    · subst hm
      rw [ht] at hu
      cases hu
      have hn : n < tails.length := (List.getElem?_eq_some_iff.mp ht).1
      exact ⟨t', List.getElem?_set_self hn, hk.trans huk, hf huf, hp hup⟩
    · exact ⟨u, by rw [List.getElem?_set_ne hm]; exact hu, huk, huf, hup⟩
  single := h.single

theorem answer (h : Awaited calls tails) (c : Nat) (a : Except Fault Started) :
    Awaited (answered calls c a) tails where
  unrun c' m key ho := h.unrun c' m key (opens_answered.mp ho).2
  single c' c'' m key key' ho ho' :=
    h.single c' c'' m key key' (opens_answered.mp ho).2 (opens_answered.mp ho').2

/-- Once the request for a session has its answer, the session may run. -/
theorem run (h : Awaited calls tails) {c : Nat} {key : Key} (hc : Opens calls c n key)
    (a : Except Fault Started) (t' : Tail) : Awaited (answered calls c a) (tails.set n t') where
  unrun c' m key' ho := by
    obtain ⟨hne, ho⟩ := opens_answered.mp ho
    have hm : n ≠ m := by
      rintro rfl
      exact hne (h.single c' c n key' key ho hc)
    obtain ⟨u, hu, hrest⟩ := h.unrun c' m key' ho
    exact ⟨u, by rw [List.getElem?_set_ne hm]; exact hu, hrest⟩
  single c' c'' m key' key'' ho ho' :=
    h.single c' c'' m key' key'' (opens_answered.mp ho).2 (opens_answered.mp ho').2

theorem add_answered (h : Awaited calls tails) (key : Key) (a : Except Fault Started) :
    Awaited (calls ++ [⟨key, .answered a⟩]) tails where
  unrun c m key' ho := by
    rcases opens_append.mp ho with ho | ⟨-, due, hd⟩
    · exact h.unrun c m key' ho
    · cases hd
  single c c' m key' key'' ho ho' := by
    rcases opens_append.mp ho with ho | ⟨-, due, hd⟩
    · rcases opens_append.mp ho' with ho' | ⟨-, due, hd⟩
      · exact h.single c c' m key' key'' ho ho'
      · cases hd
    · cases hd

theorem add_opening (h : Awaited calls tails) (hf : t.feed = none)
    (hp : t.session.phase ≠ .running) (due : Nat) :
    Awaited (calls ++ [⟨t.key, .opening tails.length due⟩]) (tails ++ [t]) where
  unrun c m key ho := by
    rcases opens_append.mp ho with ho | ⟨rfl, due', hd⟩
    · obtain ⟨u, hu, hrest⟩ := h.unrun c m key ho
      have hm : m < tails.length := (List.getElem?_eq_some_iff.mp hu).1
      exact ⟨u, by rw [List.getElem?_append_left hm]; exact hu, hrest⟩
    · cases hd
      exact ⟨t, by simp, rfl, hf, hp⟩
  single c c' m key key' ho ho' := by
    -- the new request waits for a session that no older one knows
    have fresh : ∀ c k, Opens calls c tails.length k → False := by
      intro c k hc
      obtain ⟨u, hu, -⟩ := h.unrun c _ k hc
      simp at hu
    rcases opens_append.mp ho with ho | ⟨rfl, due', hd⟩
    · rcases opens_append.mp ho' with ho' | ⟨rfl, due'', hd'⟩
      · exact h.single c c' m key key' ho ho'
      · cases hd'
        exact (fresh _ _ ho).elim
    · rcases opens_append.mp ho' with ho' | ⟨rfl, due'', hd'⟩
      · cases hd
        exact (fresh _ _ ho').elim
      · rfl

end Awaited

namespace Desk

structure Sound (d : Desk) : Prop where
  rivals : d.connector.rivals = []
  room : 0 < d.policy.budget
  ordered : KeyMap.Ordered d.roster
  lists : d.roster.Lists d.tails
  tails : ∀ t ∈ d.tails, t.Sound
  budget : ∀ t ∈ d.tails, t.session.budget = d.policy.budget
  document : ∀ t ∈ d.tails, t.feed.isSome → (d.workspace.document? t.key).isSome
  awaited : Awaited d.calls d.tails

theorem sound_make (policy : Policy) (connector : Connector) (workspace : Workspace)
    (alone : connector.rivals = []) : (make policy connector workspace).Sound where
  rivals := alone
  room := Nat.lt_of_lt_of_le Nat.zero_lt_one (Nat.le_max_right policy.budget 1)
  ordered := List.Pairwise.nil
  lists := by intro key n; simp [make, KeyMap.get?]
  tails := by intro t h; simp [make] at h
  budget := by intro t h; simp [make] at h
  document := by intro t h; simp [make] at h
  awaited := {
    unrun := by rintro c n key ⟨due, h⟩; simp [make] at h
    single := by rintro c c' n key key' ⟨due, h⟩ _; simp [make] at h }

end Desk

end LogTail
