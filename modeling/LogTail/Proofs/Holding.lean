import LogTail.Proofs.Foreign

/-!
# Sessions that hold their keys

Someone else may take a key while the desk connects for it. But as long as nobody else
touches the sessions of the desk, each of them holds its key from its start to its stop.
-/
namespace LogTail.Desk

open Relation (ReflTransGen)

variable {d d' : Desk} {n : Nat} {t : Tail} {key : Key} {source : Source} {c : Nat}

/-- Every live session holds its key. -/
def Holding (d : Desk) : Prop := ∀ (n : Nat) (t : Tail), d.tails[n]? = some t →
  t.session.phase.isLive = true → KeyMap.get? t.key d.roster = some n

namespace Holding

/-- What is left to show when one session is replaced. -/
theorem replace (h : d.Holding) (tails : d'.tails = d.tails.set n t)
    (self : t.session.phase.isLive = true → KeyMap.get? t.key d'.roster = some n)
    (others : ∀ (key : Key) (m : Nat), m ≠ n → KeyMap.get? key d.roster = some m →
      KeyMap.get? key d'.roster = some m) : d'.Holding := by
  intro m u hu live
  rw [tails] at hu
  by_cases hm : m = n
  · subst hm
    obtain ⟨-, rfl⟩ : m < d.tails.length ∧ t = u := by simpa [List.getElem?_set] using hu
    exact self live
  · rw [List.getElem?_set_ne (Ne.symm hm)] at hu
    exact others u.key m hm (h m u hu live)

/-- What is left to show when sessions are added, of which the first takes a key. -/
theorem add (h : d.Holding) {more : List Tail} (free : KeyMap.get? key d.roster = none)
    (tails : d'.tails = d.tails ++ more)
    (roster : d'.roster = KeyMap.insert key d.tails.length d.roster)
    (newcomers : ∀ (i : Nat) (u : Tail), more[i]? = some u → u.session.phase.isLive = true →
      i = 0 ∧ u.key = key) : d'.Holding := by
  intro m u hu live
  rw [tails, List.getElem?_append] at hu
  rw [roster, KeyMap.get?_insert]
  split at hu
  · have held := h m u hu live
    have hne : key ≠ u.key := by
      rintro rfl
      rw [free] at held
      cases held
    rw [if_neg hne]
    exact held
  · rename_i later
    obtain ⟨first, rfl⟩ := newcomers _ u hu live
    rw [if_pos rfl]
    exact congrArg some (by omega)

theorem work (h : d.Holding) (work : Work d d') : d'.Holding := by
  cases work with
  | aside _ _ roster tails =>
    intro n t ht live
    rw [roster]
    exact h n t (tails ▸ ht) live
  | tended ht _ tails session _ _ roster =>
    refine h.replace tails (fun live => ?_) fun _ _ _ held => by rw [roster]; exact held
    have same := congrArg Session.key session
    rw [session] at live
    rw [roster, Tail.key, same]
    exact h _ _ ht live
  | torn n reason =>
    have htears := teardown_tearsDown n reason d
    generalize (d.teardown n reason).2 = d' at htears
    cases htears with
    | absent => exact h
    | again | first =>
      refine h.replace rfl (fun live => ?_) fun _ _ other => (get?_removeInstance_other other).mpr
      rw [Session.stop_phase] at live
      cases live

theorem begun (h : d.Holding) (begun : Begun source d d') : d'.Holding := by
  cases begun with
  | refused | refocused => exact h
  | @outrun transport _ _ _ free =>
    refine h.add free rfl rfl fun i u hu live => ?_
    -- neither the other's session nor the belated one is live
    have hdead : u = rivalOf source ∨ u = belated source d.policy.budget transport d.now := by
      simpa using List.mem_of_getElem? hu
    rcases hdead with rfl | rfl
    · cases live
    · rw [belated, Session.stop_phase] at live
      cases live
  | entered _ free =>
    refine h.add free rfl rfl fun i u hu live => ?_
    cases i with
    | zero =>
      cases hu
      exact ⟨rfl, rfl⟩
    | succ i => cases hu

theorem finished (h : d.Holding) (ht : d.tails[n]? = some t) (finished : Finished c n key t d d') :
    d'.Holding := by
  cases finished with
  | opened starting =>
    exact h.replace rfl (fun _ => h n t ht (by rw [starting]; rfl)) fun _ _ _ held => held
  | failed =>
    refine h.replace rfl (fun live => ?_) fun _ _ other => (get?_removeInstance_other other).mpr
    rw [Tail.forsake, Session.stop_phase] at live
    cases live

end Holding

/-- What holds of a desk whose sessions nobody else touches. -/
structure Intact (d : Desk) : Prop extends Steady d where
  holding : d.Holding

theorem intact_make (policy : Policy) (connector : Connector) (workspace : Workspace) :
    (make policy connector workspace).Intact where
  toSteady := steady_make policy connector workspace
  holding := by
    intro n t ht
    cases ht

namespace Intact

theorem works (hs : d.Intact) (works : ReflTransGen Work d d') : d'.Intact := by
  induction works with
  | refl => exact hs
  | tail _ work ih => exact ⟨work.wanes.steady ih.toSteady, ih.holding.work work⟩

theorem move (hs : d.Intact) (m : Move) : (d.move m).Intact := by
  have hsteady := hs.toSteady.move m
  have hturns := hs.move_turns m
  generalize d.move m = d' at hsteady hturns
  cases hturns with
  | worked _ works => exact hs.works works
  | begun h => exact ⟨hsteady, hs.holding.begun h⟩
  | unasked => exact hs
  | finished _ ht _ h => exact ⟨hsteady, hs.holding.finished ht h⟩

theorem moves (hs : d.Intact) (ms : List Move) : (d.moves ms).Intact := by
  induction ms generalizing d with
  | nil => exact hs
  | cons m ms ih => exact ih (hs.move m)

end Intact

/-- A key is free once its session was stopped. -/
theorem Steady.stopKey_free (hs : d.Steady) (key : Key) (reason : StopReason) :
    KeyMap.get? key (d.stopKey key reason).2.roster = none := by
  unfold stopKey
  cases held : KeyMap.get? key d.roster with
  | none => exact held
  | some n =>
    obtain ⟨t, ht, rfl⟩ := hs.listed key n held
    have htears := teardown_tearsDown n reason d
    simp only
    generalize (d.teardown n reason).2 = d' at htears
    cases htears with
    | absent missing =>
      rw [missing] at ht
      cases ht
    | again hu | first hu =>
      rw [ht] at hu
      cases hu
      rw [get?_removeInstance, if_pos ⟨rfl, held⟩]

end LogTail.Desk
