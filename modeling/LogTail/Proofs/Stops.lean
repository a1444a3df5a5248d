import LogTail.Proofs.Window

/-!
# Stops and the sessions they are of

Every stop on record is that of one session, which was torn down, and every session that
is torn down has one stop on record and no more.
-/
namespace LogTail

/-- The session of a key that is torn down, with the reason. -/
def Deed.tornOf? (key : Key) : Deed → Option (Nat × StopReason)
  | torn n k reason => if k = key then some (n, reason) else none
  | _ => none

def Notice.isStop : Notice → Bool
  | stopped _ => true
  | _ => false

namespace Desk

variable {d d' : Desk} {deed : Deed} {deeds : List Deed} {n : Nat} {t : Tail} {key : Key}

theorem Acts.log (h : Acts d deeds d') : d'.log = (deeds.flatMap Deed.news).reverse ++ d.log := by
  induction h with
  | nil => rfl
  | @cons d d₁ d' deed deeds first _ ih =>
    have hone : deed.news.reverse = deed.news := by cases deed <;> rfl
    rw [ih, first.log, List.flatMap_cons, List.reverse_append, hone, List.append_assoc]

theorem news_of_log {told : List (Key × Notice)} (h : d'.log = told.reverse ++ d.log) :
    d'.news d.log.length = told := by
  have hlen : d'.log.length - d.log.length = told.reverse.length := by
    rw [h, List.length_append]
    omega
  rw [news, hlen, h, List.take_left, List.reverse_reverse]

theorem news_one {e : Key × Notice} (h : d'.log = e :: d.log) : d'.news d.log.length = [e] :=
  news_of_log h

theorem Acts.news (h : Acts d deeds d') : d'.news d.log.length = deeds.flatMap Deed.news :=
  news_of_log h.log

theorem Act.news (h : Act d deed d') : d'.news d.log.length = deed.news := by
  simpa using (Acts.one h).news

/-- What a run tells is what its first move tells and then the rest. -/
theorem Sound.news_cons (hs : d.Sound) (m : Move) (ms : List Move) :
    (d.moves (m :: ms)).news d.log.length =
      d.told m ++ ((d.move m).moves ms).news (d.move m).log.length := by
  obtain ⟨deeds, ha⟩ := (hs.move_comes m).acts
  obtain ⟨deeds', ha'⟩ := (hs.move m).moves_acts ms
  have htold : d.told m = deeds.flatMap Deed.news := ha.news
  rw [htold, ha'.news, ← List.flatMap_append]
  exact (ha.append ha').news

theorem isLive_iff : d.isLive n = true ↔
    ∃ t, d.tails[n]? = some t ∧ t.session.phase.isLive = true := by
  simp only [isLive, phase?]
  cases d.tails[n]? <;> simp

theorem key?_iff : d.key? n = some key ↔ ∃ t, d.tails[n]? = some t ∧ t.key = key := by
  simp [key?]

theorem phase?_iff {p : Phase} :
    d.phase? n = some p ↔ ∃ t, d.tails[n]? = some t ∧ t.session.phase = p := by
  simp [phase?]

theorem Act.key? (h : Act d deed d') (hs : d.Sound) (hk : d.key? n = some key) :
    d'.key? n = some key := by
  obtain ⟨t, ht, rfl⟩ := key?_iff.mp hk
  obtain ⟨t', ht', hk', -⟩ := h.fate hs ht
  exact key?_iff.mpr ⟨t', ht', hk'⟩

theorem Acts.key? (h : Acts d deeds d') (hs : d.Sound) (hk : d.key? n = some key) :
    d'.key? n = some key := by
  induction h with
  | nil => exact hk
  | cons first _ ih => exact ih (first.sound hs) (first.key? hs hk)

/-- Winding stops the session that it tears down and leaves the others. -/
theorem Act.isLive_winding (h : Act d deed d') (hs : d.Sound) (winding : deed.isWinding) (n : Nat) :
    d'.isLive n = true ↔ d.isLive n = true ∧ ∀ key reason, deed ≠ .torn n key reason := by
  constructor
  · intro hl
    obtain ⟨t', ht', live⟩ := isLive_iff.mp hl
    rcases h.origin hs ht' with ⟨-, rfl⟩ | ⟨t, ht, -, hfate⟩
    · cases winding
    · cases hfate with
      | kept same untorn => exact ⟨isLive_iff.mpr ⟨t, ht, same ▸ live⟩, untorn⟩
      | opened _ _ he | failed _ _ he =>
        subst he
        cases winding
      | torn _ stopped =>
        rw [stopped] at live
        cases live
  · rintro ⟨hl, untorn⟩
    obtain ⟨t, ht, live⟩ := isLive_iff.mp hl
    obtain ⟨t', ht', hk, hfate⟩ := h.fate hs ht
    cases hfate with
    | kept same => exact isLive_iff.mpr ⟨t', ht', same ▸ live⟩
    | opened _ _ he | failed _ _ he =>
      subst he
      cases winding
    | torn _ _ he => exact absurd he (untorn _ _)

/-- What is neither a stop nor an answer leaves live sessions alive. -/
theorem Act.isLive_kept (h : Act d deed d') (hs : d.Sound) (live : d.isLive n = true)
    (untorn : ∀ key reason, deed ≠ .torn n key reason)
    (unanswered : ∀ c key notice, deed ≠ .answered c key notice) : d'.isLive n = true := by
  obtain ⟨t, ht, live⟩ := isLive_iff.mp live
  obtain ⟨t', ht', hk, hfate⟩ := h.fate hs ht
  cases hfate with
  | kept same => exact isLive_iff.mpr ⟨t', ht', same ▸ live⟩
  | opened _ _ he | failed _ _ he => exact absurd he (unanswered _ _ _)
  | torn _ _ he => exact absurd he (untorn _ _)

/-- Each session is torn down once at most, and it is when it was live before and is not
afterwards. -/
theorem Acts.torn (h : Acts d deeds d') (hs : d.Sound) (winding : ∀ deed ∈ deeds, deed.isWinding)
    (key : Key) : ((deeds.filterMap (Deed.tornOf? key)).map (·.1)).Nodup ∧
      ∀ n, n ∈ (deeds.filterMap (Deed.tornOf? key)).map (·.1) ↔
        d.isLive n = true ∧ d'.isLive n = false ∧ d'.key? n = some key := by
  induction h with
  | nil =>
    refine ⟨by simp, fun n => ?_⟩
    constructor
    · intro hn
      cases hn
    · rintro ⟨live, dead, -⟩
      rw [live] at dead
      cases dead
  | @cons d d₁ d' deed deeds first rest ih =>
    have hw : deed.isWinding := winding deed (by simp)
    have hs₁ := first.sound hs
    obtain ⟨hnodup, hmem⟩ := ih hs₁ fun deed' h' => winding deed' (by simp [h'])
    have hlive := first.isLive_winding hs hw
    cases deed with
    | silent =>
      have hsame (n : Nat) : d₁.isLive n = d.isLive n := by
        rw [Bool.eq_iff_iff, hlive n]
        simp
      simp only [List.filterMap_cons, Deed.tornOf?]
      refine ⟨hnodup, fun n => ?_⟩
      rw [hmem n, hsame n]
    | torn m k reason =>
      obtain ⟨t, ht, hkey, tlive⟩ := first.torn_live
      have hm : d.isLive m = true := isLive_iff.mpr ⟨t, ht, tlive⟩
      have hmk : d'.key? m = some k := rest.key? hs₁ (first.key? hs (key?_iff.mpr ⟨t, ht, hkey⟩))
      have hgone : d₁.isLive m = false := by
        rw [← Bool.not_eq_true, hlive m]
        exact fun hm => hm.2 k reason rfl
      have hstays : d'.isLive m = false := by
        obtain ⟨t₁, ht₁, -, hfate⟩ := first.fate hs ht
        have stopped : t₁.session.phase = .stopped := by
          cases hfate with
          | kept _ untorn => exact absurd rfl (untorn _ _)
          | opened _ _ he | failed _ _ he => cases he
          | torn _ stopped => exact stopped
        obtain ⟨t', ht', -, stopped'⟩ := rest.stopped hs₁ ht₁ stopped
        simp [isLive, phase?, ht', stopped', Phase.isLive]
      have hother {n : Nat} (hn : n ≠ m) : d₁.isLive n = d.isLive n := by
        rw [Bool.eq_iff_iff, hlive n]
        constructor
        · exact fun h => h.1
        · exact fun h => ⟨h, fun k' r' he => hn (by cases he; rfl)⟩
      by_cases hk : k = key
      · subst hk
        simp only [List.filterMap_cons, Deed.tornOf?, if_true, List.map_cons, List.nodup_cons]
        refine ⟨⟨?_, hnodup⟩, fun n => ?_⟩
        · rw [hmem m, hgone]
          simp
        · rw [List.mem_cons, hmem n]
          by_cases hn : n = m
          · subst hn
            simp [hm, hstays, hmk]
          · rw [hother hn]
            simp [hn]
      · simp only [List.filterMap_cons, Deed.tornOf?, if_neg hk]
        refine ⟨hnodup, fun n => ?_⟩
        rw [hmem n]
        by_cases hn : n = m
        · subst hn
          simp [hgone, hmk, hk]
        · rw [hother hn]
    | _ => cases hw

/-- Of winding the stops that tear sessions down are recorded, and nothing else. -/
theorem about_winding (winding : ∀ deed ∈ deeds, deed.isWinding) (key : Key) :
    about key (deeds.flatMap Deed.news) =
      (deeds.filterMap (Deed.tornOf? key)).map fun s => .stopped s.2 := by
  induction deeds with
  | nil => rfl
  | cons deed deeds ih =>
    have hw := winding deed (by simp)
    have hrest := ih fun deed' h' => winding deed' (by simp [h'])
    rw [List.flatMap_cons, about_append, hrest]
    cases deed with
    | silent => rfl
    | torn n k reason =>
      by_cases hk : k = key
      · simp [Deed.tornOf?, Deed.news, about, hk]
      · simp [Deed.tornOf?, Deed.news, about, hk]
    | _ => cases hw

/-- The stops that a move records about a key are of the sessions of the key that it tears
down, one of each. -/
theorem Sound.move_stops (hs : d.Sound) (m : Move) (key : Key) :
    ∃ stops : List (Nat × StopReason),
      (about key (d.told m)).filter Notice.isStop = stops.map (fun s => .stopped s.2) ∧
      (stops.map (·.1)).Nodup ∧
      ∀ n, n ∈ stops.map (·.1) ↔ d.Tears n m ∧ (d.move m).key? n = some key := by
  have hcomes := hs.move_comes m
  -- a move that is one act and no stop
  have hone {deed : Deed} (h : Act d deed (d.move m)) (untorn : ∀ n k r, deed ≠ .torn n k r)
      (kept : ∀ n, ¬ d.Tears n m) : ∃ stops : List (Nat × StopReason),
        (about key (d.told m)).filter Notice.isStop = stops.map (fun s => .stopped s.2) ∧
        (stops.map (·.1)).Nodup ∧
        ∀ n, n ∈ stops.map (·.1) ↔ d.Tears n m ∧ (d.move m).key? n = some key := by
    have htold : d.told m = deed.news := h.news
    refine ⟨[], ?_, by simp, by simp [kept]⟩
    rw [htold, List.map_nil, List.filter_eq_nil_iff]
    intro x hx hstop
    cases x with
    | stopped reason =>
      obtain ⟨n, he⟩ := h.stopped_news (mem_about.mp hx)
      exact untorn _ _ _ he
    | _ => cases hstop
  have hkept {deed : Deed} (h : Act d deed (d.move m)) (untorn : ∀ n k r, deed ≠ .torn n k r)
      (unanswered : ∀ c k x, deed ≠ .answered c k x) (n : Nat) : ¬ d.Tears n m := by
    rintro ⟨-, live, dead⟩
    rw [h.isLive_kept hs live (untorn n) unanswered] at dead
    cases dead
  generalize hd : d.move m = d' at hcomes
  cases hcomes with
  | winds h other =>
    obtain ⟨deeds, ha, hw⟩ := h
    have htold : d.told m = deeds.flatMap Deed.news := by rw [told, hd, ha.news]
    obtain ⟨hnodup, hmem⟩ := ha.torn hs hw key
    refine ⟨deeds.filterMap (Deed.tornOf? key), ?_, hnodup, fun n => ?_⟩
    · rw [htold, about_winding hw, List.filter_eq_self]
      intro x hx
      obtain ⟨s, -, rfl⟩ := List.mem_map.mp hx
      rfl
    · rw [hmem n]
      simp [Tears, other, hd, and_assoc]
  | told h | replied h | entered h | wrote h =>
    rw [← hd] at h ⊢
    exact hone h nofun (hkept h nofun nofun)
  | unasked c =>
    have hsilent : Act d .silent (d.move (.answer c)) := by
      rw [hd]
      exact .beside ⟨Nat.le_refl _, rfl, rfl, rfl, rfl, rfl, rfl, rfl, fun _ => rfl⟩
    have hnone := hone hsilent nofun fun n ht => by cases ht.1
    rwa [hd] at hnone
  | answered h =>
    rw [← hd] at h ⊢
    exact hone h nofun fun n ht => by cases ht.1

theorem Sound.not_tornDown (hs : d.Sound) (ht : d.tails[n]? = some t)
    (stopped : t.session.phase = .stopped) (ms : List Move) : ¬ d.TornDown n ms := by
  induction ms generalizing d t with
  | nil => exact id
  | cons m ms ih =>
    rintro (⟨-, live, -⟩ | later)
    · rw [isLive, phase?, ht] at live
      simp [stopped, Phase.isLive] at live
    · obtain ⟨t', ht', -, stopped'⟩ := hs.move_stopped m ht stopped
      exact ih (hs.move m) ht' stopped' later

theorem Tears.stopped {m : Move} (h : d.Tears n m) (hs : d.Sound) :
    ∃ t', (d.move m).tails[n]? = some t' ∧ t'.session.phase = .stopped := by
  obtain ⟨-, live, dead⟩ := h
  obtain ⟨t, ht, -⟩ := isLive_iff.mp live
  obtain ⟨deeds, ha⟩ := (hs.move_comes m).acts
  obtain ⟨t', ht', -⟩ := key?_iff.mp (ha.key? hs (key?_iff.mpr ⟨t, ht, rfl⟩))
  rcases (hs.move m).live_or_stopped ht' with live' | stopped
  · rw [isLive_iff.mpr ⟨t', ht', live'⟩] at dead
    cases dead
  · exact ⟨t', ht', stopped⟩

/-- Over a run each session that is torn down is recorded as stopped once, and no other. -/
theorem Sound.moves_stops (hs : d.Sound) (ms : List Move) (key : Key) :
    ∃ stops : List (Nat × StopReason),
      (about key ((d.moves ms).news d.log.length)).filter Notice.isStop =
        stops.map (fun s => .stopped s.2) ∧
      (stops.map (·.1)).Nodup ∧
      ∀ n, n ∈ stops.map (·.1) ↔ d.TornDown n ms ∧ (d.moves ms).key? n = some key := by
  induction ms generalizing d with
  | nil => exact ⟨[], by simp [news, about], by simp, by simp [TornDown]⟩
  | cons m ms ih =>
    obtain ⟨stops, hstops, hnodup, hmem⟩ := hs.move_stops m key
    obtain ⟨stops', hstops', hnodup', hmem'⟩ := ih (hs.move m)
    obtain ⟨deeds, ha⟩ := (hs.move m).moves_acts ms
    refine ⟨stops ++ stops', ?_, ?_, fun n => ?_⟩
    · rw [hs.news_cons, about_append, List.filter_append, hstops, hstops', List.map_append]
    · rw [List.map_append]
      refine List.nodup_append.mpr ⟨hnodup, hnodup', ?_⟩
      rintro n hn m' hm' rfl
      -- what the move has torn down stays down
      obtain ⟨t', ht', stopped⟩ := ((hmem n).mp hn).1.stopped hs
      exact (hs.move m).not_tornDown ht' stopped ms ((hmem' n).mp hm').1
    · rw [List.map_append, List.mem_append, hmem n, hmem' n]
      constructor
      · rintro (⟨tears, hk⟩ | ⟨later, hk⟩)
        · exact ⟨.inl tears, ha.key? (hs.move m) hk⟩
        · exact ⟨.inr later, hk⟩
      · rintro ⟨tears | later, hk⟩
        · obtain ⟨t', ht', -⟩ := tears.stopped hs
          have hkey : (d.move m).key? n = some t'.key := key?_iff.mpr ⟨t', ht', rfl⟩
          have hfinal := ha.key? (hs.move m) hkey
          rw [moves_cons, hfinal] at hk
          exact .inl ⟨tears, hkey.trans hk⟩
        · exact .inr ⟨later, hk⟩

end Desk

end LogTail
