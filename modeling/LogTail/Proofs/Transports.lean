import LogTail.Proofs.Lifetime
import LogTail.Proofs.Live
import Mathlib.Data.List.Nodup

/-!
# What becomes of the transports

The connector hands out a transport when a session enters, and the session keeps it: it
is opened once, then and there, and closed once, when the session stops. So of the
transports handed out those are open whose sessions are on the roster, and no others.
-/
namespace LogTail

/-- The session of a tail has called the service, and its transport tells its phase. -/
structure Tail.Kept (t : Tail) : Prop where
  orderly : t.session.Orderly
  begun : t.session.startedAt.isSome = true

namespace Tail.Kept

variable {t t' : Tail}

theorem same (h : t.Kept) (session : t'.session = t.session) : t'.Kept :=
  ⟨session ▸ h.orderly, session ▸ h.begun⟩

theorem stop (h : t.Kept) (now : Nat) : Tail.Kept { t with session := (t.session.stop now).2 } :=
  ⟨h.orderly.stop now, by simpa using h.begun⟩

theorem answer (h : t.Kept) : Tail.Kept { t with
    session := { t.session with transport := t.session.transport.finishOpen.2 } } :=
  ⟨h.orderly.answer, h.begun⟩

theorem calling (source : Source) (budget now : Nat) {transport : Transport}
    (fresh : transport.Fresh) : Tail.Kept { session := .calling source budget transport now } :=
  ⟨.calling source budget now fresh, rfl⟩

theorem opens (h : t.Kept) : t.session.transport.opens = 1 := by
  simpa [h.begun] using h.orderly.opens

end Tail.Kept

namespace Desk

variable {d d' : Desk} {deed : Deed} {deeds : List Deed}

/-- Every session of the desk has called the service once. -/
def Kept (d : Desk) : Prop := ∀ t ∈ d.tails, t.Kept

theorem kept_make (policy : Policy) (connector : Connector) (workspace : Workspace) :
    (make policy connector workspace).Kept := by
  intro t ht
  cases ht

theorem Kept.set {n : Nat} {t' : Tail} (hk : d.Kept) (h : t'.Kept) :
    ∀ t ∈ d.tails.set n t', t.Kept := by
  intro t ht
  rcases List.mem_or_eq_of_mem_set ht with ht | rfl
  · exact hk t ht
  · exact h

theorem Act.kept (h : Act d deed d') (hk : d.Kept) : d'.Kept := by
  have hold {n : Nat} {t : Tail} (ht : d.tails[n]? = some t) : t.Kept :=
    hk t (List.mem_of_getElem? ht)
  cases h with
  | beside h => unfold Kept; rw [h.tails]; exact hk
  | tended ht h => exact hk.set ((hold ht).same h.session)
  | refused | refocused | cleared => exact hk
  | entered valid free connected =>
    obtain ⟨fresh, -⟩ := Connector.connect_fresh connected
    intro t ht
    rcases List.mem_append.mp ht with ht | ht
    · exact hk t ht
    · obtain rfl := List.mem_singleton.mp ht
      exact .calling _ _ _ fresh
  | opened hc ht starting answer document =>
    obtain rfl := congrArg Prod.snd answer
    exact hk.set ⟨(hold ht).orderly.run starting, (hold ht).begun⟩
  | failed fault hc ht starting answer requests =>
    subst answer
    exact hk.set ((hold ht).answer.stop _)
  | overtaken fault hc ht stopped answer =>
    subst answer
    exact hk.set (hold ht).answer
  | torn reason ht live => exact hk.set ((hold ht).stop _)
  | left ht | wrote ht | ticked next ht => exact hk.set ((hold ht).same rfl)

theorem Acts.kept (h : Acts d deeds d') (hk : d.Kept) : d'.Kept := by
  induction h with
  | nil => exact hk
  | cons first _ ih => exact ih (first.kept hk)

theorem Sound.moves_kept (hs : d.Sound) (hk : d.Kept) (ms : List Move) : (d.moves ms).Kept := by
  obtain ⟨deeds, ha⟩ := hs.moves_acts ms
  exact ha.kept hk

/-- A move makes the connector hand out a transport: it connects, and that does not fail. -/
def handsOut (m : Move) (d : Desk) : Bool :=
  d.connector.fault.isNone && decide (d.connector.connects < (d.move m).connector.connects)

/-- How many transports the connector hands out in a run. -/
def handedOut : List Move → Desk → Nat
  | [], _ => 0
  | m :: ms, d => (if d.handsOut m then 1 else 0) + handedOut ms (d.move m)

/-- Only a start connects. -/
theorem Act.unconnected (h : Act d deed d') (unreplied : ∀ key notice, deed ≠ .replied key notice)
    (known : ∀ n key, deed ≠ .entered n key) :
    d'.tails.length = d.tails.length ∧ d'.connector.connects = d.connector.connects := by
  cases h with
  | beside h => exact ⟨congrArg List.length h.tails, h.connects⟩
  | refused | refocused => exact absurd rfl (unreplied _ _)
  | entered => exact absurd rfl (known _ _)
  | cleared => exact ⟨rfl, rfl⟩
  | _ => exact ⟨List.length_set, rfl⟩

theorem Winds.unconnected (h : Winds d d') :
    d'.tails.length = d.tails.length ∧ d'.connector.connects = d.connector.connects := by
  obtain ⟨deeds, ha, hw⟩ := h
  induction ha with
  | nil => exact ⟨rfl, rfl⟩
  | cons first _ ih =>
    have hdeed := hw _ List.mem_cons_self
    obtain ⟨hlen, hconnects⟩ := first.unconnected (by rintro key notice rfl; exact hdeed)
      (by rintro n key rfl; exact hdeed)
    obtain ⟨hlen', hconnects'⟩ := ih fun deed hd => hw deed (List.mem_cons_of_mem _ hd)
    exact ⟨hlen'.trans hlen, hconnects'.trans hconnects⟩

/-- Each transport that is handed out goes with a new session. -/
theorem Sound.move_handsOut (hs : d.Sound) (m : Move) :
    (d.move m).tails.length = d.tails.length + if d.handsOut m then 1 else 0 := by
  have hcomes := hs.move_comes m
  unfold handsOut
  generalize d.move m = d' at hcomes
  have still (h : d'.tails.length = d.tails.length ∧
      d'.connector.connects = d.connector.connects) : d'.tails.length = d.tails.length +
        if d.connector.fault.isNone && decide (d.connector.connects < d'.connector.connects)
          then 1 else 0 := by
    simp [h.1, h.2]
  cases hcomes with
  | winds h => exact still h.unconnected
  | told h | answered h | wrote h => exact still (h.unconnected nofun nofun)
  | unasked => exact still ⟨rfl, rfl⟩
  | @replied source _ notice h =>
    generalize source.key = key at h
    cases h with
    | refocused => exact still ⟨rfl, rfl⟩
    | refused key fault rivals scripts unconnected =>
      rcases unconnected with unconnected | failing
      · exact still ⟨rfl, unconnected⟩
      · simp [Option.isNone_iff_eq_none, Option.isSome_iff_ne_none.mp failing]
  | @entered source _ n h =>
    generalize source.key = key at h
    cases h with
    | entered valid free connected =>
      obtain ⟨-, hconnects, hfault⟩ := Connector.connect_fresh connected
      simp [hconnects, hfault]

theorem Sound.moves_handedOut (hs : d.Sound) (ms : List Move) :
    (d.moves ms).tails.length = d.tails.length + d.handedOut ms := by
  induction ms generalizing d with
  | nil => rfl
  | cons m ms ih =>
    have hfirst := hs.move_handsOut m
    have hrest := ih (hs.move m)
    simp only [moves_cons, handedOut]
    omega

/-- The numbers on the roster are those of the live sessions. -/
theorem Sound.roster_length (hs : d.Sound) :
    d.roster.length = d.tails.countP fun t => t.session.phase.isLive := by
  have hentry := hs.mem_roster
  simp only [← Phase.isLive_iff] at hentry
  have hnodup : (d.roster.map (·.2)).Nodup := by
    refine List.Nodup.map_on ?_ (List.Nodup.of_map _ hs.ordered.nodup_keys)
    rintro ⟨key, n⟩ hn ⟨key', n'⟩ hn' rfl
    obtain ⟨t, ht, rfl, -⟩ := (hentry _ _).mp hn
    obtain ⟨u, hu, rfl, -⟩ := (hentry _ _).mp hn'
    rw [ht] at hu
    cases hu
    rfl
  have hmem (n : Nat) : n ∈ d.roster.map (·.2) ↔
      n ∈ d.tails.findIdxs fun t => t.session.phase.isLive := by
    rw [List.mem_findIdxs_iff_exists_getElem_pos]
    constructor
    · intro hn
      obtain ⟨⟨key, n'⟩, he, rfl⟩ := List.mem_map.mp hn
      obtain ⟨t, ht, -, live⟩ := (hentry _ _).mp he
      obtain ⟨hlt, rfl⟩ := List.getElem?_eq_some_iff.mp ht
      exact ⟨hlt, live⟩
    · rintro ⟨hlt, live⟩
      exact List.mem_map.mpr ⟨(d.tails[n].key, n),
        (hentry _ _).mpr ⟨_, List.getElem?_eq_getElem hlt, rfl, live⟩, rfl⟩
  have hperm := (List.perm_ext_iff_of_nodup hnodup List.nodup_findIdxs).mpr hmem
  rw [← List.length_map (·.2), hperm.length_eq, List.length_findIdxs]

theorem Sound.transports_eq (hs : d.Sound) :
    d.transports = d.tails.map (·.session.transport) := by
  rw [transports, List.filter_eq_self.mpr fun t ht => (hs.tails t ht).own]

/-- A transport is closed once if its session has stopped, and not at all before. -/
theorem Sound.closes_eq (hs : d.Sound) (hk : d.Kept) :
    d.closes = d.tails.countP fun t => t.session.phase = .stopped := by
  have hsum (tails : List Tail) (hk : ∀ t ∈ tails, t.Kept) :
      (tails.map (·.session.transport)).foldr (fun t n => t.closes + n) 0 =
        tails.countP fun t => t.session.phase = .stopped := by
    induction tails with
    | nil => rfl
    | cons t tails ih =>
      have hfirst := (hk t List.mem_cons_self).orderly.closes
      have hrest := ih fun u hu => hk u (List.mem_cons_of_mem _ hu)
      rw [List.map_cons, List.foldr_cons, hrest, hfirst, List.countP_cons]
      simp [Nat.add_comm]
  rw [closes, hs.transports_eq, hsum d.tails hk]

/-- Every session is on the roster or has given its transport back. -/
theorem Sound.tails_length (hs : d.Sound) (hk : d.Kept) :
    d.tails.length = d.closes + d.roster.length := by
  have hlive : d.tails.countP (fun t => t.session.phase.isLive) =
      d.tails.countP fun t => decide ¬ decide (t.session.phase = .stopped) = true := by
    refine List.countP_congr fun t ht => ?_
    obtain ⟨n, ht⟩ := List.mem_iff_getElem?.mp ht
    rcases hs.live_or_stopped ht with live | stopped
    · have hne : t.session.phase ≠ .stopped := by
        intro he
        rw [he] at live
        cases live
      simp [live, hne]
    · simp [stopped, Phase.isLive]
  rw [hs.closes_eq hk, hs.roster_length, hlive]
  exact List.length_eq_countP_add_countP _

theorem Sound.stopKey_roster (hs : d.Sound) (key j : Key) (reason : StopReason) :
    KeyMap.get? j (d.stopKey key reason).2.roster =
      if key = j then none else KeyMap.get? j d.roster := by
  unfold stopKey
  cases held : KeyMap.get? key d.roster with
  | none =>
    by_cases hj : key = j
    · subst hj
      simp [held]
    · simp [hj]
  | some n =>
    obtain ⟨t, ht, rfl, live⟩ := (hs.lists key n).mp held
    simp only [teardown_live ht live held]
    exact KeyMap.get?_erase t.key j d.roster

theorem Sound.stopKeys_roster (hs : d.Sound) (keys : List Key) (j : Key) :
    KeyMap.get? j (stopKeys keys d).2.roster = if j ∈ keys then none else KeyMap.get? j d.roster := by
  induction keys generalizing d with
  | nil => rfl
  | cons key rest ih =>
    have hfirst := winds_teardowns.stopKey key .shutdown d hs
    have hrest := ih (hfirst.sound hs)
    simp only [stopKeys, hrest, hs.stopKey_roster]
    by_cases hj : j ∈ rest
    · simp [hj]
    · simp [hj, eq_comm (a := j)]

theorem Sound.stopAll_roster (hs : d.Sound) : d.stopAll.2.roster = [] := by
  refine KeyMap.eq_nil_of_get? fun j => ?_
  rw [stopAll, hs.stopKeys_roster]
  split
  · rfl
  · exact KeyMap.get?_of_not_mem_keys ‹_›

/-- When no session is left on the roster, every transport has been closed. -/
theorem Sound.closed_of_empty (hs : d.Sound) (hk : d.Kept) (empty : d.roster = []) :
    ∀ t ∈ d.tails, t.session.transport.closes = 1 := by
  intro t ht
  obtain ⟨n, hn⟩ := List.mem_iff_getElem?.mp ht
  rcases hs.live_or_stopped hn with live | stopped
  · have held := hs.held hn live
    rw [empty] at held
    cases held
  · rw [(hk t ht).orderly.closes, if_pos stopped]

/-- After any moves the transports handed out are as many as were closed and sessions are
on the roster; each goes with a session and was opened at most once and closed at most
once, and the token had fired by then. Once all sessions have been stopped, or the desk
was given up, each has been closed. -/
theorem transports_accounted (policy : Policy) (connector : Connector) (workspace : Workspace)
    (ms : List Move) (alone : connector.rivals = []) :
    let first := make policy connector workspace
    let d := first.moves ms
    first.handedOut ms = d.closes + d.roster.length ∧
    d.transports.length = first.handedOut ms ∧
    (∀ t ∈ d.tails, t.session.transport ∈ d.transports ∧ t.session.transport.opens ≤ 1 ∧
      t.session.transport.closes ≤ 1 ∧ t.session.transport.earlyCloses = 0 ∧
      (0 < t.session.transport.closes → t.session.cancelled = true)) ∧
    ∀ m, m = .stopAll ∨ m = .drop → (d.move m).roster = [] ∧
      (d.move m).closes = first.handedOut (ms ++ [m]) ∧
      ∀ t ∈ (d.move m).transports, t.closes = 1 := by
  intro first d
  have hfirst : first.Sound := sound_make policy connector workspace alone
  have hs : d.Sound := hfirst.moves ms
  have hk : d.Kept := hfirst.moves_kept (kept_make policy connector workspace) ms
  have hcount (ms : List Move) : (first.moves ms).tails.length = first.handedOut ms := by
    have h := hfirst.moves_handedOut ms
    rwa [show first.tails.length = 0 from rfl, Nat.zero_add] at h
  refine ⟨?_, ?_, ?_, ?_⟩
  · rw [← hcount ms]
    exact hs.tails_length hk
  · rw [← hcount ms, hs.transports_eq, List.length_map]
  · intro t ht
    have orderly := (hk t ht).orderly
    refine ⟨?_, (hk t ht).opens.le, ?_, orderly.early, fun hclosed => ?_⟩
    · rw [hs.transports_eq]
      exact List.mem_map_of_mem ht
    · rw [orderly.closes]
      split <;> decide
    · rw [orderly.closes] at hclosed
      split at hclosed
      · exact orderly.fired.mpr ‹_›
      · cases hclosed
  · intro m hm
    have hs' : (d.move m).Sound := hs.move m
    have hk' : (d.move m).Kept := hs.moves_kept hk [m]
    have empty : (d.move m).roster = [] := by
      rcases hm with rfl | rfl
      · exact hs.stopAll_roster
      · have hclosed : Winds d { d with closed := true, dropped := true } :=
          .beside ⟨Nat.le_refl _, rfl, rfl, rfl, rfl, rfl, rfl, rfl, fun _ => rfl⟩
        exact (hclosed.sound hs).stopAll_roster
    have hmoves : (first.moves (ms ++ [m])) = d.move m := moves_append ms [m] first
    have hlength := hs'.tails_length hk'
    refine ⟨empty, ?_, ?_⟩
    · rw [← hcount, hmoves, hlength, empty, List.length_nil, Nat.add_zero]
    · intro t ht
      rw [hs'.transports_eq] at ht
      obtain ⟨u, hu, rfl⟩ := List.mem_map.mp ht
      exact hs'.closed_of_empty hk' empty u hu

/-- Of three connections one fails; of the two transports handed out the one whose start
was overtaken by a stop is closed, and the other is closed with the desk. -/
theorem transport_of_overtaken_start_closed :
    let source : Source := { region := "eu-west-1", group := "app" }
    let first := make ⟨100, 1000, false⟩ {} {}
    let ms : List Move := [.cut (.unavailable "down"), .start source, .start source,
      .stop source.key, .start source, .answer 2, .answer 1]
    let d := first.moves ms
    first.handedOut ms = 2 ∧ d.roster = [(source.key, 1)] ∧ d.closes = 1 ∧
      (d.move .drop).closes = 2 := by
  intro source first ms d
  obtain ⟨hcount, -, -, hall⟩ := transports_accounted ⟨100, 1000, false⟩ {} {} ms rfl
  have handed : first.handedOut ms = 2 := by decide
  have hroster : d.roster = [(source.key, 1)] := by decide
  have hcloses : first.handedOut ms = d.closes + d.roster.length := hcount
  obtain ⟨-, hdropped, -⟩ := hall .drop (.inr rfl)
  refine ⟨handed, hroster, ?_, ?_⟩
  · rw [handed, hroster] at hcloses
    exact (Nat.succ.inj hcloses).symm
  · have hafter : first.handedOut (ms ++ [.drop]) = 2 := by decide
    rw [← hafter]
    exact hdropped

end Desk

end LogTail
