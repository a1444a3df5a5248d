import LogTail.Proofs.Ageing
import LogTail.Proofs.Failed
import LogTail.Proofs.Stops

/-!
# What tickers record

Whatever happens on a desk, and whoever else acts on it, its sessions grow older with it. A
ticker records how long its session has lasted whenever it gets its turn, so its records
never go back, however many turns it misses, and none exceeds what the session will have
lasted in the end.
-/
namespace LogTail

namespace Desk

open Relation (ReflTransGen)

variable {d d' d'' : Desk} {c n : Nat} {t t' : Tail} {key : Key} {source : Source}

/-! ### Sessions grow older with their desk -/

def Regular (d : Desk) : Prop := ∀ t ∈ d.tails, t.session.Orderly

/-- Time may have passed, and sessions may have been added; those there were grew older. -/
structure Passage (d d' : Desk) : Prop where
  clock : d.now ≤ d'.now
  tails : Tailwise (fun t t' => t'.session.Orderly ∧ t.session.Ages d.now d'.now t'.session)
    (fun t => t.session.Orderly) d d'

namespace Passage

theorem trans (h : Passage d d') (h' : Passage d' d'') : Passage d d'' where
  clock := h.clock.trans h'.clock
  tails := h.tails.trans h'.tails (fun _ _ _ first second => ⟨second.1, first.2.trans second.2⟩)
    (fun _ _ _ later => later.1) (fun _ => id)

theorem regular (h : Passage d d') : d'.Regular := by
  intro t' ht'
  obtain ⟨n, hn⟩ := List.mem_iff_getElem?.mp ht'
  cases ht : d.tails[n]? with
  | none => exact h.tails.new n t' hn ht
  | some t =>
    obtain ⟨u, hu, orderly, -⟩ := h.tails.old n t ht
    rw [hn] at hu
    cases hu
    exact orderly

/-- What is left to show when sessions are added. -/
theorem grow (hr : d.Regular) (clock : d.now ≤ d'.now) {more : List Tail}
    (tails : d'.tails = d.tails ++ more) (orderly : ∀ t ∈ more, t.session.Orderly) :
    Passage d d' :=
  ⟨clock, .append (fun t ht => ⟨hr t ht, .same clock rfl rfl⟩) tails orderly⟩

theorem still (hr : d.Regular) (clock : d.now ≤ d'.now) (tails : d'.tails = d.tails) :
    Passage d d' :=
  ⟨clock, .still (fun t ht => ⟨hr t ht, .same clock rfl rfl⟩) tails⟩

/-- What is left to show when one session is replaced. -/
theorem replace (hr : d.Regular) (ht : d.tails[n]? = some t) (now : d'.now = d.now)
    (tails : d'.tails = d.tails.set n t') (orderly : t'.session.Orderly)
    (ages : t.session.Ages d.now d.now t'.session) : Passage d d' where
  clock := now.ge
  tails := .set (fun t ht => ⟨hr t ht, .same now.ge rfl rfl⟩) ht tails ⟨orderly, now.symm ▸ ages⟩

end Passage

theorem Regular.stop_passage (hr : d.Regular) (ht : d.tails[n]? = some t) (now : d'.now = d.now)
    (tails : d'.tails = d.tails.set n { t with session := (t.session.stop d.now).2 }) :
    Passage d d' :=
  have orderly := hr t (List.mem_of_getElem? ht)
  .replace hr ht now tails (orderly.stop d.now) (.stop orderly d.now)

theorem Work.passage (work : Work d d') (hr : d.Regular) : Passage d d' := by
  cases work with
  | aside _ _ _ tails now => exact .still hr now tails
  | tended ht _ tails session _ _ _ now =>
    refine .replace hr ht now tails ?_ (.same le_rfl ?_ ?_)
    · rw [session]
      exact hr _ (List.mem_of_getElem? ht)
    · rw [session]
    · rw [session]
  | torn n reason =>
    have htears := teardown_tearsDown n reason d
    generalize (d.teardown n reason).2 = d' at htears
    cases htears with
    | absent => exact .still hr le_rfl rfl
    | again ht | first ht => exact hr.stop_passage ht rfl rfl

theorem passage_of_works (works : ReflTransGen Work d d') (hr : d.Regular) : Passage d d' := by
  induction works with
  | refl => exact .still hr le_rfl rfl
  | tail _ work ih => exact ih.trans (work.passage ih.regular)

theorem Begun.passage (begun : Begun source d d') (hr : d.Regular) : Passage d d' := by
  cases begun with
  | refused | refocused => exact .still hr le_rfl rfl
  | outrun _ _ connected =>
    obtain ⟨fresh, -⟩ := Connector.connect_fresh connected
    refine .grow hr le_rfl rfl fun t ht => ?_
    rcases List.mem_pair.mp ht with rfl | rfl
    · exact .fresh source 1 (Transport.fresh_mk _ _)
    · exact (Session.Orderly.fresh source _ fresh).stop d.now
  | entered _ _ connected =>
    obtain ⟨fresh, -⟩ := Connector.connect_fresh connected
    refine .grow hr le_rfl rfl fun t ht => ?_
    obtain rfl := List.mem_singleton.mp ht
    exact .calling source _ d.now fresh

theorem Finished.passage (h : Finished c n key t d d') (hr : d.Regular) (ht : d.tails[n]? = some t) :
    Passage d d' := by
  have orderly := hr t (List.mem_of_getElem? ht)
  cases h with
  | @opened stream transport _ _ starting answer =>
    have htransport : t.session.transport.finishOpen.2 = transport := by rw [answer]
    have hrun := orderly.run starting
    rw [htransport] at hrun
    exact .replace hr ht rfl rfl hrun (.same le_rfl rfl rfl)
  | failed =>
    have heard : t.session.Ages d.now d.now
        { t.session with transport := t.session.transport.finishOpen.2 } := .same le_rfl rfl rfl
    exact .replace hr ht rfl rfl (orderly.answer.stop d.now)
      (heard.trans (.stop orderly.answer d.now))

theorem Steady.move_passage (hs : d.Steady) (hr : d.Regular) (m : Move) : Passage d (d.move m) := by
  have hturns := hs.move_turns m
  generalize d.move m = d' at hturns
  cases hturns with
  | worked _ works => exact passage_of_works works hr
  | begun h => exact h.passage hr
  | unasked => exact .still hr le_rfl rfl
  | finished _ ht _ h => exact h.passage hr ht

theorem Steady.meet_passage (hs : d.Steady) (hr : d.Regular) (i : Incident) :
    Passage d (d.meet i) := by
  cases i with
  | move m => exact hs.move_passage hr m
  | unlist key => exact .still hr le_rfl rfl
  | halt key =>
    rcases halt_stops key d with same | ⟨n, t, -, ht, stopped⟩
    · rw [same]
      exact .still hr le_rfl rfl
    · rw [stopped]
      exact hr.stop_passage ht rfl rfl

theorem Steady.meets_passage (hs : d.Steady) (hr : d.Regular) (is : List Incident) :
    Passage d (d.meets is) := by
  induction is generalizing d with
  | nil => exact .still hr le_rfl rfl
  | cons i is ih =>
    have hfirst := hs.meet_passage hr i
    exact hfirst.trans (ih (hs.meet i) hfirst.regular)

theorem regular_make (policy : Policy) (connector : Connector) (workspace : Workspace) :
    (make policy connector workspace).Regular := fun _ h => absurd h List.not_mem_nil

/-! ### The records of a ticker -/

/-- What is recorded of how long a session has lasted when its ticker gets its turn. -/
def ticks (n : Nat) (d : Desk) : Incident → List Nat
  | .move (.tick k) => if k = n then (d.told (.tick k)).filterMap fun e => e.2.elapsed? else []
  | _ => []

/-- All that the ticker of a session records while a desk meets incidents, each with the
time at which it is recorded. -/
def ticked (n : Nat) : List Incident → Desk → List (Nat × Nat)
  | [], _ => []
  | i :: is, d => (d.ticks n i).map (d.now, ·) ++ ticked n is (d.meet i)

/-- A tick records nothing, or how long its session has lasted, which has not ended. -/
theorem Regular.told_tick (hr : d.Regular) (ht : d.tails[n]? = some t) :
    d.told (.tick n) = [] ∨ t.session.endedAt = none ∧
      d.told (.tick n) = [(t.key, .elapsed (t.session.duration d.now))] := by
  have hticks := tick_ticks n d
  simp only [told, Desk.move]
  generalize d.tick n = d' at hticks
  cases hticks with
  | idle | ended => simp [news, put]
  | told hu _ unfired =>
    rw [ht] at hu
    cases hu
    have orderly := hr t (List.mem_of_getElem? ht)
    have unstopped : t.session.phase ≠ .stopped := by
      rw [ne_eq, ← orderly.fired, unfired]
      exact Bool.false_ne_true
    exact .inr ⟨orderly.unended unstopped, news_one rfl⟩

theorem Regular.ticks_eq (hr : d.Regular) (ht : d.tails[n]? = some t) (i : Incident) :
    d.ticks n i = [] ∨ t.session.endedAt = none ∧ d.ticks n i = [t.session.duration d.now] := by
  unfold ticks
  split
  · rename_i k
    by_cases hk : k = n
    · subst hk
      rw [if_pos rfl]
      rcases hr.told_tick ht with none | ⟨lasting, one⟩
      · exact .inl (by rw [none]; rfl)
      · exact .inr ⟨lasting, by rw [one]; rfl⟩
    · exact .inl (if_neg hk)
  · exact .inl rfl

/-- What the ticker of a session records that began at some time: the time since then at
each tick, never less than before, and never more than what the session lasts in the end. -/
theorem Steady.ticked_within {start : Nat} (hs : d.Steady) (hr : d.Regular)
    (ht : d.tails[n]? = some t) (begun : t.session.startedAt = some start) (is : List Incident) :
    let records := d.ticked n is
    ∃ t' : Tail, (d.meets is).tails[n]? = some t' ∧ (records.map (·.2)).Pairwise (· ≤ ·) ∧
      t.session.duration d.now ≤ t'.session.duration (d.meets is).now ∧
      ∀ e ∈ records, e.2 = e.1 - start ∧ t.session.duration d.now ≤ e.2 ∧
        e.2 ≤ t'.session.duration (d.meets is).now := by
  induction is generalizing d t with
  | nil => exact ⟨t, ht, .nil, le_rfl, nofun⟩
  | cons i is ih =>
    have hfirst := hs.meet_passage hr i
    obtain ⟨t₁, ht₁, -, hages⟩ := hfirst.tails.old n t ht
    obtain ⟨t', ht', hsorted, hend, hlater⟩ :=
      ih (hs.meet i) hfirst.regular ht₁ (hages.begun start begun)
    have hgrown := hages.duration_le
    have hlater' : ∀ e ∈ (d.meet i).ticked n is, e.2 = e.1 - start ∧
        t.session.duration d.now ≤ e.2 ∧ e.2 ≤ t'.session.duration ((d.meet i).meets is).now := by
      intro e he
      obtain ⟨hvalue, hle, hle'⟩ := hlater e he
      exact ⟨hvalue, hgrown.trans hle, hle'⟩
    refine ⟨t', ht', ?_⟩
    rcases hr.ticks_eq ht i with none | ⟨lasting, one⟩
    · simp only [ticked, none, List.map_nil, List.nil_append]
      exact ⟨hsorted, hgrown.trans hend, hlater'⟩
    · have hvalue : t.session.duration d.now = d.now - start := by
        rw [Session.duration_begun begun, lasting, Option.getD_none]
      simp only [ticked, one, List.map_cons, List.map_nil, List.cons_append, List.nil_append,
        List.pairwise_cons, List.mem_map, List.mem_cons, forall_eq_or_imp]
      refine ⟨⟨?_, hsorted⟩, hgrown.trans hend, ⟨hvalue, le_rfl, hgrown.trans hend⟩, hlater'⟩
      rintro _ ⟨e, he, rfl⟩
      exact (hlater' e he).2.1

/-- A request that waits has begun a session at the time at which it was made. -/
theorem Steady.start_begins {due : Nat} (hs : d.Steady)
    (opening : (d.move (.start source)).calls[d.calls.length]? = some ⟨source.key, .opening n due⟩) :
    ∃ t, (d.move (.start source)).tails[n]? = some t ∧ t.session.startedAt = some d.now := by
  have hbegun := beginStart_begun hs.room source
  simp only [Desk.move] at opening ⊢
  generalize d.beginStart source = d' at hbegun opening
  cases hbegun with
  | refused | refocused | outrun => simp at opening
  | @entered transport =>
    obtain ⟨rfl, -⟩ : d.tails.length = n ∧ d.now + transport.delay = due := by simpa using opening
    exact ⟨_, List.getElem?_concat_length, rfl⟩

/-- What has ended lasts no longer, whatever happens on the desk. -/
theorem Steady.meets_settled (hs : d.Steady) (hr : d.Regular) (ht : d.tails[n]? = some t)
    (stopped : t.session.phase = .stopped) (is : List Incident) :
    ∃ t' : Tail, (d.meets is).tails[n]? = some t' ∧ t'.session.phase = .stopped ∧
      t'.session.duration (d.meets is).now = t.session.duration d.now := by
  have hpassage := hs.meets_passage hr is
  obtain ⟨t', ht', orderly, hages⟩ := hpassage.tails.old n t ht
  have ended := (hr t (List.mem_of_getElem? ht)).ended.mpr stopped
  obtain ⟨stop, hstop⟩ := Option.isSome_iff_exists.mp ended
  have ended' : t'.session.endedAt.isSome = true := by rw [(hages.ended stop hstop).1]; rfl
  exact ⟨t', ht', orderly.ended.mp ended', hages.duration_over ended⟩

/-- What a session has lasted never goes back. By itself it keeps time, whatever is done to
it. On a desk, from the request that began it on and whatever the desk meets: its ticker
records the time since the request, each record is no less than those before it, and
none exceeds what the session has lasted in the end; and once it has stopped, that is
final. -/
theorem durations_never_decrease :
    (∀ (source : Source) (budget delay now : Nat) (script : Option Script) (s : Session),
      Session.make source budget { script, delay } = .ok s →
      Clocked.KeepsTime { life := { session := s }, now }) ∧
    ∀ (policy : Policy) (connector : Connector) (workspace : Workspace) (before : List Incident)
      (source : Source) (n due : Nat) (is : List Incident),
      let d := (make policy connector workspace).meets before
      let d₁ := d.move (.start source)
      d₁.calls[d.calls.length]? = some ⟨source.key, .opening n due⟩ →
      let records := d₁.ticked n is
      let d₂ := d₁.meets is
      ∃ t, d₂.tails[n]? = some t ∧ (∀ e ∈ records, e.2 = e.1 - d.now) ∧
        (records.map (·.2)).Pairwise (· ≤ ·) ∧
        (∀ e ∈ records, e.2 ≤ t.session.duration d₂.now) ∧
        (t.session.phase = .stopped → ∀ later : List Incident,
          ∃ t', (d₂.meets later).tails[n]? = some t' ∧ t'.session.phase = .stopped ∧
            t'.session.duration (d₂.meets later).now = t.session.duration d₂.now) := by
  refine ⟨fun source budget delay now script s made => Clocked.keepsTime made now, ?_⟩
  intro policy connector workspace before source n due is d d₁ opening records d₂
  have hs : d.Steady := (steady_make policy connector workspace).meets before
  have hr : d.Regular := ((steady_make policy connector workspace).meets_passage
    (regular_make policy connector workspace) before).regular
  have hs₁ : d₁.Steady := hs.move (.start source)
  have hr₁ : d₁.Regular := (hs.move_passage hr (.start source)).regular
  obtain ⟨t₁, ht₁, begun⟩ := hs.start_begins opening
  obtain ⟨t, ht, hsorted, -, hwithin⟩ := hs₁.ticked_within hr₁ ht₁ begun is
  refine ⟨t, ht, fun e he => (hwithin e he).1, hsorted, fun e he => (hwithin e he).2.2, ?_⟩
  have hr₂ : d₂.Regular := (hs₁.meets_passage hr₁ is).regular
  exact fun stopped later => (hs₁.meets is).meets_settled hr₂ ht stopped later

/-- A session that waits for the service before it runs, whose ticker misses ticks, and that
someone else stops. -/
theorem durations_of_slow_session :
    let source : Source := { region := "eu-west-1", group := "app" }
    let s : Session := { source, budget := 100, transport := { script := none, delay := 5 } }
    let d := (make ⟨100, 1000, false⟩ { delay := 5 } {}).meets [.move (.pass 7)]
    let d₁ := d.move (.start source)
    let is : List Incident := [.move (.pass 5), .move (.answer 0), .move (.arm 0), .move (.tick 0),
      .move (.pass 2500), .move (.tick 0), .move (.pass 300), .halt source.key]
    let d₂ := d₁.meets is
    Session.make source 100 { script := none, delay := 5 } = .ok s ∧
      Clocked.KeepsTime { life := { session := s }, now := 7 } ∧
      d₁.calls[0]? = some ⟨source.key, .opening 0 12⟩ ∧
      d₁.ticked 0 is = [(12, 12 - d.now), (2512, 2512 - d.now)] ∧
      [12 - d.now, 2512 - d.now].Pairwise (· ≤ ·) ∧
      ∃ t, d₂.tails[0]? = some t ∧ 2512 - d.now ≤ t.session.duration d₂.now ∧
        t.session.phase = .stopped ∧
        ∃ t', (d₂.meets [.move (.pass 1000)]).tails[0]? = some t' ∧
          t'.session.duration (d₂.now + 1000) = t.session.duration d₂.now := by
  intro source s d d₁ is d₂
  have made : Session.make source 100 { script := none, delay := 5 } = .ok s := by
    subst s source
    rfl
  have opening : d₁.calls[0]? = some ⟨source.key, .opening 0 12⟩ := by
    subst d₁ d source
    rfl
  have recorded : d₁.ticked 0 is = [(12, 12 - d.now), (2512, 2512 - d.now)] := by decide
  obtain ⟨keeps, records⟩ := durations_never_decrease
  obtain ⟨t, ht, -, hsorted, hwithin, hsettled⟩ :=
    records ⟨100, 1000, false⟩ { delay := 5 } {} [.move (.pass 7)] source 0 12 is opening
  have stopped : d₂.phase? 0 = some .stopped := by decide
  have hphase : t.session.phase = .stopped := by
    simpa [phase?, show d₂.tails[0]? = some t from ht] using stopped
  obtain ⟨t', ht', -, hend⟩ := hsettled hphase [.move (.pass 1000)]
  rw [show (d.move (.start source)).ticked 0 is = _ from recorded] at hsorted hwithin
  exact ⟨made, keeps source 100 5 7 none s made, opening, recorded, hsorted, t, ht,
    hwithin (2512, 2512 - d.now) (by simp), hphase, t', ht', hend⟩

end Desk

end LogTail
