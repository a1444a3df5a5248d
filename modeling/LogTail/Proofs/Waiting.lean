import LogTail.Proofs.Onward
import LogTail.Proofs.Stops
import Mathlib.Data.List.Nodup

/-!
# Waiting for reports

For each key the desk keeps a handle to the session that was started last, until someone waits
with it or its feed has ended and another session starts. A wait takes the handle of its key.
So it is for the session started last, and no two waits are for the same session, although the
feeds of older sessions may still be at work.
-/
namespace LogTail

/-- The sessions of one key among sessions of all keys, in their order. -/
def numbersOf (key : Key) (started : List (Key × Nat)) : List Nat :=
  (started.filter (·.1 = key)).map (·.2)

theorem mem_numbersOf {key : Key} {n : Nat} {started : List (Key × Nat)} :
    n ∈ numbersOf key started ↔ (key, n) ∈ started := by
  simp [numbersOf]

namespace Desk

variable {d d' : Desk} {c n : Nat} {t t' : Tail} {key : Key} {r : Report} {i : Incident}
  {starts : List (Key × Nat)} {claims : List Nat}

/-! ### What is seen of starts and of waits -/

/-- The session that an incident sets to work, with its key: its start is recorded. -/
def starts? (i : Incident) (d : Desk) : Option (Key × Nat) :=
  match i with
  | .move (.answer c) =>
    match d.calls[c]? with
    | some ⟨key, .opening n _⟩ =>
      if (key, .started) ∈ d.told (.answer c) then some (key, n) else none
    | _ => none
  | _ => none

/-- The sessions that are set to work while a desk meets incidents, in their order. -/
def started : List Incident → Desk → List (Key × Nat)
  | [], _ => []
  | i :: is, d => (d.starts? i).toList ++ started is (d.meet i)

/-- The session for whose report someone begins to wait. -/
def claims? (i : Incident) (d : Desk) : Option Nat :=
  match i with
  | .move (.await key) =>
    match (d.awaitReport key).1 with
    | .waiting n _ => some n
    | _ => none
  | _ => none

/-- The sessions for whose reports someone begins to wait while a desk meets incidents. -/
def claimed : List Incident → Desk → List Nat
  | [], _ => []
  | i :: is, d => (d.claims? i).toList ++ claimed is (d.meet i)

theorem claims?_await (key : Key) (d : Desk) :
    d.claims? (.move (.await key)) = KeyMap.get? key d.handles := by
  simp only [claims?, awaitReport, takeHandle]
  cases KeyMap.get? key d.handles <;> rfl

theorem awaitReport_desk (key : Key) (d : Desk) :
    (d.awaitReport key).2 = d.move (.await key) := by
  simp only [awaitReport, Desk.move, takeHandle]
  cases KeyMap.get? key d.handles <;> rfl

/-- A wait returns the report of its session as soon as there is one, and nothing else. -/
theorem awaitReport_returns (called : Nat) (d' : Desk) :
    (d.awaitReport key).1.step? called d' = some (.done (.report r), d') ↔
      ∃ n, d.claims? (.move (.await key)) = some n ∧ d'.report? n = some r := by
  rw [claims?_await]
  simp only [awaitReport, takeHandle]
  cases KeyMap.get? key d.handles with
  | none => simp [Errand.step?]
  | some n =>
    simp only [Errand.step?, Option.some.injEq, exists_eq_left']
    cases d'.report? n with
    | none =>
      simp only [reduceCtorEq, iff_false]
      split <;> simp
    | some r' => simp

theorem starts?_answer (hc : Opens d.calls c n key) : d.starts? (.move (.answer c)) =
    if (key, .started) ∈ d.told (.answer c) then some (key, n) else none := by
  obtain ⟨due, hc⟩ := hc
  simp only [starts?, hc]

theorem starts?_other {m : Move} (other : m.isRequest = false) (d : Desk) :
    d.starts? (.move m) = none := by
  cases m with
  | answer => cases other
  | _ => rfl

/-! ### One incident -/

theorem report?_eq_some : d.report? n = some r ↔
    ∃ t f, d.tails[n]? = some t ∧ t.feed = some f ∧ f.report = some r := by
  simp only [report?, Option.bind_eq_some_iff]
  constructor
  · rintro ⟨t, ht, f, hf, hr⟩
    exact ⟨t, f, ht, hf, hr⟩
  · rintro ⟨t, f, ht, hf, hr⟩
    exact ⟨t, ht, f, hf, hr⟩

theorem handles_teardowns : Teardowns fun d d' => d'.handles = d.handles where
  refl _ := rfl
  trans h h' := h'.trans h
  teardown n reason d := by
    have htears := teardown_tearsDown n reason d
    generalize (d.teardown n reason).2 = d' at htears
    cases htears <;> rfl

theorem pull_handles (n : Nat) (d : Desk) : (d.pull n).handles = d.handles := by
  have ended (t : Tail) (f : Feed) (exit : Exit) (d : Desk) :
      (d.endFeed n t f exit).handles = d.handles := handles_teardowns.teardown n _ _
  have hpulls := pull_pulls n d
  generalize d.pull n = d' at hpulls
  cases hpulls with
  | idle | waits => rfl
  | cancelled => exact ended _ _ _ d
  | closed => exact ended _ _ _ _
  | item =>
    simp only [takeItem]
    split
    · rfl
    · exact ended _ _ _ _

/-- Handles are given when a session starts, and taken by those who wait. -/
theorem move_handles {m : Move} (other : m.isRequest = false) (unawaited : ∀ key, m ≠ .await key)
    (d : Desk) : (d.move m).handles = d.handles := by
  cases m with
  | start | answer => cases other
  | await key => exact absurd rfl (unawaited key)
  | stop key => exact handles_teardowns.stopKey key .explicit d
  | stopAll => exact handles_teardowns.stopKeys _ d
  | stopUnviewed => exact handles_teardowns.stopUnviewedAmong _ d
  | wake n => exact handles_teardowns.wake (fun _ _ => rfl) n d
  | drop => exact handles_teardowns.drop d rfl
  | pull n => exact pull_handles n d
  | clear key =>
    have hclears := clear_clears key d
    simp only [Desk.move]
    generalize (d.clear key).2 = d' at hclears
    cases hclears <;> rfl
  | arm n =>
    have harms := arm_arms n d
    simp only [Desk.move]
    generalize d.arm n = d' at harms
    cases harms <;> rfl
  | tick n =>
    have hticks := tick_ticks n d
    simp only [Desk.move]
    generalize d.tick n = d' at hticks
    cases hticks <;> rfl
  | watch | pass | provide | cut | openView | closeView | scroll | send | closeSender => rfl

/-- What an incident comes to for those who wait for reports. -/
inductive Attends (d : Desk) : Incident → Desk → Prop where
  | started {c n : Nat} {key : Key} {t t' : Tail} {d' : Desk}
      (starts : d.starts? (.move (.answer c)) = some (key, n)) (ht : d.tails[n]? = some t)
      (unfed : t.feed = none) (tails : d'.tails = d.tails.set n t') (same : t'.key = key)
      (fed : t'.feed.isSome)
      (handles : d'.handles =
        KeyMap.insert key n (d.handles.filter fun e => (d.report? e.2).isNone)) :
      Attends d (.move (.answer c)) d'
  | claimed (key : Key) : Attends d (.move (.await key)) (d.takeHandle key).2
  | aside {i : Incident} {d' : Desk} (startless : d.starts? i = none)
      (unawaited : ∀ key, i ≠ .move (.await key)) (handles : d'.handles = d.handles)
      (onward : Onward d d') : Attends d i d'

theorem Steady.finished_attends (hs : d.Steady) (hc : Opens d.calls c n key) :
    Attends d (.move (.answer c)) (d.finishStart c) := by
  obtain ⟨t, ht, pending, hfinished⟩ := hs.finishStart hc
  have hn : n < d.tails.length := (List.getElem?_eq_some_iff.mp ht).1
  have hstarts := starts?_answer hc
  have htold : d.told (.answer c) = (d.finishStart c).news d.log.length := rfl
  generalize d.finishStart c = d' at hfinished htold
  rw [htold] at hstarts
  cases hfinished with
  | @opened stream transport workspace handles starting answer document unfinished =>
    rw [news_one (e := (key, .started)) rfl, if_pos (List.mem_singleton_self _)] at hstarts
    refine .started hstarts ht pending.unfed rfl pending.key rfl ?_
    -- a feed that begins has made no report, as the session had none before
    have same (m : Nat) : ({ d with tails := d.tails.set n { t with
        session := { t.session with transport, phase := .running }
        feed := some { stream }
        ticker := .fresh } } : Desk).report? m = d.report? m := by
      by_cases hm : n = m
      · subst hm
        simp [report?, List.getElem?_set_self hn, ht, pending.unfed]
      · simp [report?, List.getElem?_set_ne hm]
    simp only [same] at unfinished
    exact unfinished
  | failed fault =>
    rw [news_one (e := (key, .startFailed fault.message)) rfl, if_neg (by simp)] at hstarts
    exact .aside hstarts (by simp) rfl (.set ht rfl (.forsake t d.now))

theorem Steady.meet_attends (hs : d.Steady) (i : Incident) : Attends d i (d.meet i) := by
  cases i with
  | unlist key => exact .aside rfl (by simp) rfl (.still rfl)
  | halt key =>
    rcases halt_stops key d with same | ⟨n, t, -, ht, stopped⟩
    · rw [same]
      exact .aside rfl (by simp) rfl (.still rfl)
    · rw [stopped]
      exact .aside rfl (by simp) rfl (.set ht rfl (.stop t d.now))
  | move m =>
    by_cases other : m.isRequest = false
    · by_cases awaits : ∃ key, m = .await key
      · obtain ⟨key, rfl⟩ := awaits
        exact .claimed key
      · have unawaited (key : Key) : m ≠ .await key := fun he => awaits ⟨key, he⟩
        exact .aside (starts?_other other d) (fun key he => unawaited key (Incident.move.inj he))
          (move_handles other unawaited d) (onward_of_works (move_works other d))
    cases m with
    | start source =>
      have hbegun := beginStart_begun hs.room source
      have handles : (d.beginStart source).handles = d.handles := by
        generalize d.beginStart source = d' at hbegun
        cases hbegun <;> rfl
      exact .aside rfl (by simp) handles hbegun.onward
    | answer c =>
      by_cases asked : ∃ n key, Opens d.calls c n key
      · obtain ⟨n, key, hc⟩ := asked
        exact hs.finished_attends hc
      · have unasked : d.finishStart c = d := finishStart_unasked fun n key hc => asked ⟨n, key, hc⟩
        have startless : d.starts? (.move (.answer c)) = none := by
          simp only [starts?]
          split
          · rename_i key n due hc
            exact absurd ⟨n, key, due, hc⟩ asked
          · rfl
        exact .aside startless (by simp) (congrArg Desk.handles unasked)
          (.still (congrArg Desk.tails unasked))
    | _ => exact absurd rfl other

/-- Reports are final. -/
theorem Steady.meet_report (hs : d.Steady) (reported : d.report? n = some r) (i : Incident) :
    (d.meet i).report? n = some r := by
  have hattends := hs.meet_attends i
  generalize d.meet i = d' at hattends
  obtain ⟨t, f, ht, hf, hr⟩ := report?_eq_some.mp reported
  rw [report?_eq_some]
  cases hattends with
  | @started _ m _ _ _ _ _ hu unfed tails =>
    have hm : m ≠ n := by
      rintro rfl
      rw [ht] at hu
      cases hu
      rw [hf] at unfed
      cases unfed
    exact ⟨t, f, by rw [tails, List.getElem?_set_ne hm]; exact ht, hf, hr⟩
  | claimed => exact ⟨t, f, ht, hf, hr⟩
  | aside _ _ _ onward =>
    obtain ⟨t', ht', later⟩ := onward.old n t ht
    obtain ⟨f', hf', hr'⟩ := later.feeds f hf
    exact ⟨t', f', ht', hf', hr' r hr⟩

theorem Steady.meets_report (hs : d.Steady) (reported : d.report? n = some r)
    (is : List Incident) : (d.meets is).report? n = some r := by
  induction is generalizing d with
  | nil => exact reported
  | cons i is ih => exact ih (hs.meet i) (hs.meet_report reported i)

/-! ### The handles of a run -/

/-- What holds of the handles of a desk on which some sessions have started, in this order,
and some of them have been waited for. -/
structure Tracked (starts : List (Key × Nat)) (claims : List Nat) (d : Desk) : Prop where
  ordered : KeyMap.Ordered d.handles
  newest : ∀ (key : Key) (n : Nat), KeyMap.get? key d.handles = some n →
    (numbersOf key starts).getLast? = some n
  unclaimed : ∀ (key : Key) (n : Nat), KeyMap.get? key d.handles = some n → n ∉ claims
  fed : ∀ e ∈ starts, ∃ t : Tail, d.tails[e.2]? = some t ∧ t.feed.isSome
  once : (starts.map (·.2)).Nodup
  apart : claims.Nodup
  known : ∀ n ∈ claims, n ∈ starts.map (·.2)
  running : ∀ (n : Nat) (t : Tail), d.tails[n]? = some t → t.session.phase = .running →
    (t.key, n) ∈ starts

theorem tracked_make (policy : Policy) (connector : Connector) (workspace : Workspace) :
    Tracked [] [] (make policy connector workspace) where
  ordered := .nil
  newest _ _ h := by cases h
  unclaimed _ _ h := by cases h
  fed _ h := by cases h
  once := .nil
  apart := .nil
  known _ h := by cases h
  running _ _ h := by cases h

namespace Tracked

theorem unstarted (h : Tracked starts claims d) (ht : d.tails[n]? = some t) (unfed : t.feed = none) :
    n ∉ starts.map (·.2) := by
  intro hn
  obtain ⟨e, he, rfl⟩ := List.mem_map.mp hn
  obtain ⟨u, hu, fed⟩ := h.fed e he
  rw [ht] at hu
  cases hu
  rw [unfed] at fed
  cases fed

theorem started (h : Tracked starts claims d) (held : KeyMap.get? key d.handles = some n) :
    (key, n) ∈ starts := mem_numbersOf.mp (List.mem_of_getLast? (h.newest key n held))

/-- No two keys have a handle to one session. -/
theorem single (h : Tracked starts claims d) {j : Key} (hj : KeyMap.get? j d.handles = some n)
    (hk : KeyMap.get? key d.handles = some n) : j = key :=
  congrArg Prod.fst (List.inj_on_of_nodup_map h.once (h.started hj) (h.started hk) rfl)

theorem start (h : Tracked starts claims d) (ht : d.tails[n]? = some t) (unfed : t.feed = none)
    (tails : d'.tails = d.tails.set n t') (same : t'.key = key) (fed : t'.feed.isSome)
    (handles : d'.handles =
      KeyMap.insert key n (d.handles.filter fun e => (d.report? e.2).isNone)) :
    Tracked (starts ++ [(key, n)]) claims d' := by
  have hnew := h.unstarted ht unfed
  have hn : n < d.tails.length := (List.getElem?_eq_some_iff.mp ht).1
  have held {j : Key} {m : Nat} (hm : KeyMap.get? j d'.handles = some m) :
      key = j ∧ n = m ∨ key ≠ j ∧ KeyMap.get? j d.handles = some m := by
    rw [handles, KeyMap.get?_insert] at hm
    split at hm
    · exact .inl ⟨‹_›, Option.some.inj hm⟩
    · exact .inr ⟨‹_›, ((h.ordered.get?_filter _).mp hm).1⟩
  exact {
    ordered := handles ▸ (h.ordered.filter _).insert
    newest := fun j m hm => by
      rcases held hm with ⟨rfl, rfl⟩ | ⟨hne, hm⟩
      · simp [numbersOf]
      · simpa [numbersOf, hne] using h.newest j m hm
    unclaimed := fun j m hm => by
      rcases held hm with ⟨-, rfl⟩ | ⟨-, hm⟩
      · exact fun hclaimed => hnew (h.known n hclaimed)
      · exact h.unclaimed j m hm
    fed := fun e he => by
      rcases List.mem_append.mp he with old | new
      · obtain ⟨u, hu, hfed⟩ := h.fed e old
        have hne : n ≠ e.2 := fun hn => hnew (hn ▸ List.mem_map_of_mem old)
        exact ⟨u, by rw [tails, List.getElem?_set_ne hne]; exact hu, hfed⟩
      · obtain rfl := List.mem_singleton.mp new
        exact ⟨t', by rw [tails]; exact List.getElem?_set_self hn, fed⟩
    once := by
      rw [List.map_append]
      exact h.once.append (List.nodup_singleton n) (List.disjoint_singleton.mpr hnew)
    apart := h.apart
    known := fun m hm => by
      rw [List.map_append]
      exact List.mem_append_left _ (h.known m hm)
    running := fun m u hu running => by
      rw [tails] at hu
      by_cases hm : n = m
      · subst hm
        rw [List.getElem?_set_self hn] at hu
        cases hu
        exact List.mem_append_right _ (by simp [same])
      · rw [List.getElem?_set_ne hm] at hu
        exact List.mem_append_left _ (h.running m u hu running) }

theorem claim (h : Tracked starts claims d) (key : Key) :
    Tracked starts (claims ++ (KeyMap.get? key d.handles).toList) (d.takeHandle key).2 := by
  have held {j : Key} {m : Nat} (hm : KeyMap.get? j (d.takeHandle key).2.handles = some m) :
      key ≠ j ∧ KeyMap.get? j d.handles = some m := by
    have herase := KeyMap.get?_erase key j d.handles
    rw [show KeyMap.get? j (KeyMap.erase key d.handles) = some m from hm] at herase
    split at herase
    · cases herase
    · exact ⟨‹_›, herase.symm⟩
  exact {
    ordered := h.ordered.erase
    newest := fun j m hm => h.newest j m (held hm).2
    unclaimed := fun j m hm => by
      obtain ⟨hne, hm⟩ := held hm
      simp only [List.mem_append, Option.mem_toList, not_or]
      exact ⟨h.unclaimed j m hm, fun hkey => hne (h.single hkey hm)⟩
    fed := h.fed
    once := h.once
    apart := by
      cases hn : KeyMap.get? key d.handles with
      | none => simpa using h.apart
      | some n =>
        exact h.apart.append (List.nodup_singleton n)
          (List.disjoint_singleton.mpr (h.unclaimed key n hn))
    known := fun m hm => by
      simp only [List.mem_append, Option.mem_toList] at hm
      rcases hm with hm | hm
      · exact h.known m hm
      · exact List.mem_map_of_mem (h.started hm)
    running := h.running }

theorem aside (h : Tracked starts claims d) (handles : d'.handles = d.handles)
    (onward : Onward d d') : Tracked starts claims d' where
  ordered := handles ▸ h.ordered
  newest := handles ▸ h.newest
  unclaimed := handles ▸ h.unclaimed
  fed e he := by
    obtain ⟨t, ht, fed⟩ := h.fed e he
    obtain ⟨t', ht', later⟩ := onward.old e.2 t ht
    obtain ⟨f, hf⟩ := Option.isSome_iff_exists.mp fed
    obtain ⟨f', hf', -⟩ := later.feeds f hf
    exact ⟨t', ht', by rw [hf']; rfl⟩
  once := h.once
  apart := h.apart
  known := h.known
  running n t' ht' running := by
    obtain ⟨t, ht, same, running⟩ := onward.running ht' running
    exact same ▸ h.running n t ht running

theorem meet (h : Tracked starts claims d) (hs : d.Steady) (i : Incident) :
    Tracked (starts ++ (d.starts? i).toList) (claims ++ (d.claims? i).toList) (d.meet i) := by
  have hattends := hs.meet_attends i
  generalize d.meet i = d' at hattends
  cases hattends with
  | started hstarts ht unfed tails same fed handles =>
    have hstart := h.start ht unfed tails same fed handles
    rw [hstarts]
    simpa [claims?] using hstart
  | claimed key =>
    rw [claims?_await]
    simpa [starts?] using h.claim key
  | aside startless unawaited handles onward =>
    have unclaimed : d.claims? i = none := by
      unfold claims?
      split
      · exact absurd rfl (unawaited _)
      · rfl
    rw [startless, unclaimed]
    simpa using h.aside handles onward

theorem meets (h : Tracked starts claims d) (hs : d.Steady) (is : List Incident) :
    Tracked (starts ++ d.started is) (claims ++ d.claimed is) (d.meets is) := by
  induction is generalizing d starts claims with
  | nil => simpa [Desk.started, claimed] using h
  | cons i is ih =>
    have hrest := ih (h.meet hs i) (hs.meet i)
    simpa [Desk.started, claimed, List.append_assoc] using hrest

end Tracked

/-- Nobody waits with the handle of a session, no session of its key starts after it and, once
its feed has ended, none of any key. -/
def Undisturbed (key : Key) (n : Nat) : List Incident → Desk → Prop
  | [], _ => True
  | i :: is, d => i ≠ .move (.await key) ∧
    (∀ e, d.starts? i = some e → e.1 ≠ key ∧ d.report? n = none) ∧ Undisturbed key n is (d.meet i)

theorem Tracked.meet_held (h : Tracked starts claims d) (hs : d.Steady)
    (held : KeyMap.get? key d.handles = some n) (unawaited : i ≠ .move (.await key))
    (others : ∀ e, d.starts? i = some e → e.1 ≠ key ∧ d.report? n = none) :
    KeyMap.get? key (d.meet i).handles = some n := by
  have hattends := hs.meet_attends i
  generalize d.meet i = d' at hattends
  cases hattends with
  | @started _ _ k _ _ _ hstarts _ _ _ _ _ handles =>
    obtain ⟨hne, unreported⟩ := others _ hstarts
    rw [handles, KeyMap.get?_insert, if_neg hne, h.ordered.get?_filter]
    exact ⟨held, by rw [unreported]; rfl⟩
  | claimed j =>
    have hne : j ≠ key := by
      rintro rfl
      exact unawaited rfl
    exact (KeyMap.get?_erase j key d.handles).trans ((if_neg hne).trans held)
  | aside _ _ handles => exact (congrArg (KeyMap.get? key) handles).trans held

theorem Tracked.meets_held (h : Tracked starts claims d) (hs : d.Steady)
    (held : KeyMap.get? key d.handles = some n) (is : List Incident)
    (undisturbed : Undisturbed key n is d) : KeyMap.get? key (d.meets is).handles = some n := by
  induction is generalizing d starts claims with
  | nil => exact held
  | cons i is ih =>
    obtain ⟨unawaited, others, rest⟩ := undisturbed
    exact ih (h.meet hs i) (hs.meet i) (h.meet_held hs held unawaited others) rest

theorem Steady.meet_starts (hs : d.Steady) (hstarts : d.starts? i = some (key, n)) :
    KeyMap.get? key (d.meet i).handles = some n := by
  have hattends := hs.meet_attends i
  generalize d.meet i = d' at hattends
  cases hattends with
  | started hstarts' _ _ _ _ _ handles =>
    rw [hstarts] at hstarts'
    cases hstarts'
    rw [handles, KeyMap.get?_insert, if_pos rfl]
  | claimed => cases hstarts
  | aside startless =>
    rw [hstarts] at startless
    cases startless

/-- The wait after a start that was left undisturbed is for its session. -/
theorem Tracked.claims_kept (h : Tracked starts claims d) (hs : d.Steady)
    (hstarts : d.starts? i = some (key, n)) (between : List Incident)
    (undisturbed : Undisturbed key n between (d.meet i)) :
    ((d.meet i).meets between).claims? (.move (.await key)) = some n := by
  rw [claims?_await]
  exact (h.meet hs i).meets_held (hs.meet i) (hs.meet_starts hstarts) between undisturbed

/-- A wait is for one session at most. It returns the report of that session as soon as there
is one, and no other, and the report is final. The session is that of the key which was
started last before the wait, and no two waits are for the same one. The wait is for it
unless someone has waited with the key since its start, or a session has started since its
feed has ended. In particular no wait is for a session older than one that runs. -/
theorem waits_return_newest_report (policy : Policy) (connector : Connector)
    (workspace : Workspace) (before : List Incident) (key : Key) :
    let first := make policy connector workspace
    let d := first.meets before
    let numbers := numbersOf key (first.started before)
    let wait := d.awaitReport key
    let d₁ := wait.2
    d₁ = d.move (.await key) ∧
    (∀ (after : List Incident) (called : Nat) (r : Report),
      wait.1.step? called (d₁.meets after) = some (.done (.report r), d₁.meets after) ↔
        ∃ n, d.claims? (.move (.await key)) = some n ∧ (d₁.meets after).report? n = some r) ∧
    (∀ (after later : List Incident) (n : Nat) (r : Report),
      (d₁.meets after).report? n = some r → (d₁.meets (after ++ later)).report? n = some r) ∧
    (∀ n, d.claims? (.move (.await key)) = some n → numbers.getLast? = some n) ∧
    numbers.Nodup ∧ (first.claimed before).Nodup ∧
    (∀ (early between : List Incident) (c n : Nat),
      before = early ++ .move (.answer c) :: between →
      (first.meets early).starts? (.move (.answer c)) = some (key, n) →
      Undisturbed key n between (first.meets (early ++ [.move (.answer c)])) →
      d.claims? (.move (.await key)) = some n) ∧
    ∀ n, d.key? n = some key → d.phase? n = some .running →
      ∃ older newer, numbers = older ++ n :: newer ∧
        ∀ m, d.claims? (.move (.await key)) = some m → m ∈ n :: newer := by
  intro first d numbers wait d₁
  have hfirst : first.Steady := steady_make policy connector workspace
  have hs : d.Steady := hfirst.meets before
  have htracked : Tracked (first.started before) (first.claimed before) d :=
    (tracked_make policy connector workspace).meets hfirst before
  have hd₁ : d₁ = d.move (.await key) := awaitReport_desk key d
  have hs₁ : d₁.Steady := hd₁ ▸ hs.move (.await key)
  have hnewest (n : Nat) (hn : d.claims? (.move (.await key)) = some n) :
      numbers.getLast? = some n := htracked.newest key n ((claims?_await key d).symm.trans hn)
  refine ⟨hd₁, fun after called r => awaitReport_returns called _, fun after later n r reported => ?_,
    hnewest, ?_, htracked.apart, fun early between c n split hstarts undisturbed => ?_,
    fun n hkey hphase => ?_⟩
  · rw [meets_append]
    exact (hs₁.meets after).meets_report reported later
  · exact htracked.once.sublist (List.filter_sublist.map _)
  · have htracked₀ := (tracked_make policy connector workspace).meets hfirst early
    have hlast : d = ((first.meets early).meet (.move (.answer c))).meets between := by
      simp only [d, split, meets_append, meets_cons]
    rw [meets_append] at undisturbed
    rw [hlast]
    exact htracked₀.claims_kept (hfirst.meets early) hstarts between undisturbed
  · obtain ⟨t, ht, rfl⟩ := key?_iff.mp hkey
    have running : t.session.phase = .running := by simpa [phase?, ht] using hphase
    obtain ⟨older, newer, split⟩ :=
      List.append_of_mem (mem_numbersOf.mpr (htracked.running n t ht running))
    refine ⟨older, newer, split, fun m hm => ?_⟩
    have hlast := hnewest m hm
    rw [show numbers = older ++ n :: newer from split, List.getLast?_append_cons] at hlast
    exact List.mem_of_getLast? hlast

/-- The feed of a session that was stopped ends while the next one of its key runs, whose
report is then waited for. -/
theorem wait_beside_old_feed :
    let source : Source := { region := "eu-west-1", group := "app" }
    let key := source.key
    let first := make ⟨100, 1000, false⟩ {} {}
    let early : List Incident := [.move (.start source), .move (.answer 0), .move (.await key),
      .move (.stop key), .move (.start source)]
    let between : List Incident := [.move (.pull 0)]
    let before := early ++ .move (.answer 1) :: between
    let d := first.meets before
    let wait := d.awaitReport key
    let after : List Incident := [.move (.stop key), .move (.pull 1)]
    let d₂ := wait.2.meets after
    numbersOf key (first.started before) = [0, 1] ∧ first.claimed before = [0] ∧
      (first.meets early).starts? (.move (.answer 1)) = some (key, 1) ∧
      Undisturbed key 1 between (first.meets (early ++ [.move (.answer 1)])) ∧
      d.phase? 1 = some .running ∧ d.report? 0 = some ⟨.cancelled, {}⟩ ∧
      d.claims? (.move (.await key)) = some 1 ∧ d₂.report? 1 = some ⟨.cancelled, {}⟩ ∧
      (wait.2.meets (after ++ [.move (.pull 1)])).report? 1 = some ⟨.cancelled, {}⟩ ∧
      wait.1.step? 0 d₂ = some (.done (.report ⟨.cancelled, {}⟩), d₂) ∧
      [0, 1].getLast? = some 1 ∧ ∃ older newer, [0, 1] = older ++ 1 :: newer ∧ 1 ∈ 1 :: newer := by
  intro source key first early between before d wait after d₂
  have numbers : numbersOf key (first.started before) = [0, 1] := by decide
  have hstarts : (first.meets early).starts? (.move (.answer 1)) = some (key, 1) := by decide
  have undisturbed : Undisturbed key 1 between (first.meets (early ++ [.move (.answer 1)])) :=
    ⟨nofun, nofun, trivial⟩
  have running : d.phase? 1 = some .running := by decide
  have reported : d₂.report? 1 = some ⟨.cancelled, {}⟩ := by decide
  obtain ⟨-, returns, final, newest, -, -, kept, runs⟩ :=
    waits_return_newest_report ⟨100, 1000, false⟩ {} {} before key
  have claims := kept early between 1 1 rfl hstarts undisturbed
  have hlast := newest 1 claims
  have hruns := runs 1 (by decide) running
  rw [show numbersOf key (first.started before) = _ from numbers] at hlast hruns
  obtain ⟨older, newer, split, hmem⟩ := hruns
  exact ⟨numbers, by decide, hstarts, undisturbed, running, by decide, claims, reported,
    final after [.move (.pull 1)] 1 _ reported, (returns after 0 _).mpr ⟨1, claims, reported⟩, hlast,
    older, newer, split, hmem 1 claims⟩

end Desk

end LogTail
