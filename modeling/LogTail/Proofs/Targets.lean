import LogTail.Proofs.Watching

/-!
# What bulk stops hit

A bulk stop goes over the keys that were on the roster when it began, and each stop on its
way takes one of them off. It may still go by what it saw at the beginning: a stop touches
no other key, and nobody's views. So it tears down its targets, each of them once, in the
order of their keys, and leaves nothing for a second time.
-/
namespace LogTail

namespace Desk

open Relation (ReflTransGen)

variable {d d' : Desk} {n : Nat} {t t' : Tail} {key : Key} {reason : StopReason} {keys : List Key}
  {source : Source} {c : Nat}

/-! ### The roster of a desk whose sessions nobody else touches -/

/-- The keys on the roster ascend, and no session on it has stopped. -/
structure Current (d : Desk) : Prop where
  ordered : KeyMap.Ordered d.roster
  going : ∀ (key : Key) (n : Nat) (t : Tail), KeyMap.get? key d.roster = some n →
    d.tails[n]? = some t → t.session.phase ≠ .stopped

namespace Current

/-- What is left to show when one session is replaced that goes on. -/
theorem replace (h : d.Current) (roster : d'.roster = d.roster) (tails : d'.tails = d.tails.set n t')
    (going : ∀ key, KeyMap.get? key d.roster = some n → t'.session.phase ≠ .stopped) : d'.Current where
  ordered := roster ▸ h.ordered
  going key m u held hu := by
    rw [roster] at held
    rw [tails] at hu
    by_cases hm : n = m
    · subst hm
      obtain ⟨-, rfl⟩ : n < d.tails.length ∧ t' = u := by simpa [List.getElem?_set] using hu
      exact going key held
    · rw [List.getElem?_set_ne hm] at hu
      exact h.going key m u held hu

/-- A session that is taken off the roster may stop. -/
theorem off (h : d.Current) (hs : d.Steady) (ht : d.tails[n]? = some t)
    (roster : d'.roster = (d.roster.removeInstance t.key n).2)
    (tails : d'.tails = d.tails.set n t') : d'.Current where
  ordered := by
    rw [roster, Roster.removeInstance]
    split
    · exact h.ordered.erase
    · exact h.ordered
  going key m u held hu := by
    rw [roster] at held
    have before := get?_of_removeInstance held
    have hm : n ≠ m := by
      rintro rfl
      obtain ⟨w, hw, hk⟩ := hs.listed key n before
      rw [ht] at hw
      cases hw
      rw [get?_removeInstance, if_pos ⟨hk, hk ▸ before⟩] at held
      cases held
    rw [tails, List.getElem?_set_ne hm] at hu
    exact h.going key m u before hu

/-- Of sessions that are added the first takes a key, and it has not stopped. -/
theorem add (h : d.Current) (hs : d.Steady) {more : List Tail}
    (tails : d'.tails = d.tails ++ t :: more) (going : t.session.phase ≠ .stopped)
    (roster : d'.roster = KeyMap.insert key d.tails.length d.roster) : d'.Current where
  ordered := roster ▸ h.ordered.insert
  going j m u held hu := by
    rw [roster, KeyMap.get?_insert] at held
    rw [tails] at hu
    split at held
    · obtain rfl := Option.some.inj held
      rw [List.getElem?_append_right (Nat.le_refl _), Nat.sub_self] at hu
      cases hu
      exact going
    · obtain ⟨w, hw, -⟩ := hs.listed j m held
      rw [List.getElem?_append_left (List.getElem?_eq_some_iff.mp hw).1] at hu
      exact h.going j m u held hu

theorem work (h : d.Current) (hs : d.Steady) (work : Work d d') : d'.Current := by
  cases work with
  | aside _ _ roster tails =>
    exact ⟨roster ▸ h.ordered, by rw [roster, tails]; exact h.going⟩
  | tended ht _ tails session _ _ roster =>
    exact h.replace roster tails fun key held => session ▸ h.going key _ _ held ht
  | torn n reason =>
    have htears := teardown_tearsDown n reason d
    generalize (d.teardown n reason).2 = d' at htears
    cases htears with
    | absent => exact h
    | again ht | first ht => exact h.off hs ht rfl rfl

theorem begun (h : d.Current) (hs : d.Steady) (begun : Begun source d d') : d'.Current := by
  cases begun with
  | refused | refocused => exact ⟨h.ordered, h.going⟩
  | outrun => exact h.add hs rfl (by simp [rivalOf]) rfl
  | entered => exact h.add hs rfl (by simp [Session.calling]) rfl

theorem finished (h : d.Current) (hs : d.Steady) (ht : d.tails[n]? = some t)
    (pending : t.Pending key) (finished : Finished c n key t d d') : d'.Current := by
  cases finished with
  | opened => exact h.replace rfl rfl fun _ _ => nofun
  | failed => exact h.off hs ht (by rw [pending.key]) rfl

end Current

/-- What holds of a desk whose sessions nobody else touches, and of its roster. -/
structure Tidy (d : Desk) : Prop extends Intact d, Current d

theorem tidy_make (policy : Policy) (connector : Connector) (workspace : Workspace) :
    (make policy connector workspace).Tidy where
  toIntact := intact_make policy connector workspace
  ordered := List.Pairwise.nil
  going := by
    intro key n t held ht
    cases ht

namespace Tidy

theorem works (hs : d.Tidy) (works : ReflTransGen Work d d') : d'.Tidy := by
  induction works with
  | refl => exact hs
  | tail _ work ih =>
    exact { toIntact := ih.toIntact.works (.single work),
            toCurrent := ih.toCurrent.work ih.toSteady work }

theorem move (hs : d.Tidy) (m : Move) : (d.move m).Tidy := by
  have hintact := hs.toIntact.move m
  have hturns := hs.move_turns m
  generalize d.move m = d' at hintact hturns
  cases hturns with
  | worked _ works => exact hs.works works
  | begun h => exact { toIntact := hintact, toCurrent := hs.toCurrent.begun hs.toSteady h }
  | unasked => exact hs
  | finished _ ht pending h =>
    exact { toIntact := hintact, toCurrent := hs.toCurrent.finished hs.toSteady ht pending h }

theorem moves (hs : d.Tidy) (ms : List Move) : (d.moves ms).Tidy := by
  induction ms generalizing d with
  | nil => exact hs
  | cons m ms ih => exact ih (hs.move m)

theorem stopKey (hs : d.Tidy) (key : Key) (reason : StopReason) : (d.stopKey key reason).2.Tidy :=
  hs.works (works_teardowns.stopKey key reason d)

/-- A key on the roster is of a session that has not stopped. -/
theorem listed_going (hs : d.Tidy) (held : KeyMap.get? key d.roster = some n) :
    ∃ t, d.tails[n]? = some t ∧ t.key = key ∧ t.session.phase ≠ .stopped := by
  obtain ⟨t, ht, hk⟩ := hs.listed key n held
  exact ⟨t, ht, hk, hs.going key n t held ht⟩

theorem stopKey_held (hs : d.Tidy) (ht : d.tails[n]? = some t)
    (held : KeyMap.get? t.key d.roster = some n) (reason : StopReason) :
    d.stopKey t.key reason = (true, { d with
      workspace := if d.policy.clearOnStop then d.workspace.clearDocument t.key else d.workspace
      roster := KeyMap.erase t.key d.roster
      tails := d.tails.set n { t with session := (t.session.stop d.now).2 }
      log := (t.key, .stopped reason) :: d.log }) := by
  simp only [Desk.stopKey, held]
  exact teardown_going ht (hs.going t.key n t held ht) held reason

end Tidy

/-! ### Tearing down the sessions of some keys -/

/-- What it comes to when the sessions that hold some keys are torn down, one after the
other. Nothing else of the desk changes. -/
structure Clearance (reason : StopReason) (keys : List Key) (d d' : Desk) : Prop where
  log : d'.log = (keys.map fun key => (key, Notice.stopped reason)).reverse ++ d.log
  roster : ∀ key, KeyMap.get? key d'.roster =
    if key ∈ keys then none else KeyMap.get? key d.roster
  tails : ∀ (n : Nat) (t : Tail), d.tails[n]? = some t → d'.tails[n]? = some
    (if t.key ∈ keys ∧ KeyMap.get? t.key d.roster = some n
      then { t with session := (t.session.stop d.now).2 } else t)
  workspace : d'.workspace = if d.policy.clearOnStop
    then keys.foldl (fun w key => w.clearDocument key) d.workspace else d.workspace
  rest : d' = { d with
    workspace := d'.workspace, roster := d'.roster, tails := d'.tails, log := d'.log }

namespace Clearance

theorem nil (reason : StopReason) (d : Desk) : Clearance reason [] d d where
  log := rfl
  roster := by simp
  tails := by simp
  workspace := by simp
  rest := rfl

/-- First one key, and then the others. -/
theorem cons (hs : d.Tidy) (held : KeyMap.get? key d.roster = some n) (fresh : key ∉ keys)
    (h : Clearance reason keys (d.stopKey key reason).2 d') :
    Clearance reason (key :: keys) d d' := by
  obtain ⟨t, ht, rfl⟩ := hs.listed key n held
  have hn : n < d.tails.length := (List.getElem?_eq_some_iff.mp ht).1
  rw [hs.stopKey_held ht held reason] at h
  have hroster := h.roster
  have htails := h.tails
  simp only [KeyMap.get?_erase] at hroster htails
  refine ⟨?_, fun j => ?_, fun m u hu => ?_, ?_, h.rest⟩
  · rw [h.log]
    simp
  · rw [hroster]
    by_cases hj : t.key = j
    · simp [hj]
    · simp [hj, Ne.symm hj]
  · by_cases hm : n = m
    · subst hm
      rw [ht] at hu
      cases hu
      have hself : t.key = Tail.key { t with session := (t.session.stop d.now).2 } :=
        (Session.stop_key _ _).symm
      rw [htails n _ (List.getElem?_set_self hn), ← hself, if_neg (fun hit => fresh hit.1),
        if_pos ⟨List.mem_cons_self, held⟩]
    · have hput : (d.tails.set n { t with session := (t.session.stop d.now).2 })[m]? = some u := by
        rw [List.getElem?_set_ne hm]
        exact hu
      rw [htails m u hput]
      by_cases hk : t.key = u.key
      · have hother : ¬ KeyMap.get? u.key d.roster = some m := by
          rw [← hk, held]
          exact fun he => hm (Option.some.inj he)
        simp [hk, hother]
      · simp [hk, Ne.symm hk]
  · rw [h.workspace]
    simp only [List.foldl_cons]
    split <;> rfl

/-- Whoever is on the roster can be torn down. -/
theorem one (reason : StopReason) (hs : d.Tidy) (held : KeyMap.get? key d.roster = some n) :
    Clearance reason [key] d (d.stopKey key reason).2 :=
  cons hs held (by simp) (nil reason _)

end Clearance

theorem stopKey_free (free : KeyMap.get? key d.roster = none) (reason : StopReason) :
    d.stopKey key reason = (false, d) := by
  simp [stopKey, free]

/-- Of different keys on the roster each is of one session, which is stopped in its turn. -/
theorem Tidy.stopKeys (hs : d.Tidy) (distinct : keys.Nodup)
    (held : ∀ key ∈ keys, KeyMap.contains key d.roster = true) :
    (Desk.stopKeys keys d).1 = keys.length ∧
      Clearance .shutdown keys d (Desk.stopKeys keys d).2 := by
  induction keys generalizing d with
  | nil => exact ⟨rfl, .nil .shutdown d⟩
  | cons key rest ih =>
    obtain ⟨fresh, distinct⟩ := List.nodup_cons.mp distinct
    obtain ⟨n, hn⟩ := KeyMap.contains_iff.mp (held key (by simp))
    have hone := Clearance.one .shutdown hs hn
    obtain ⟨t, ht, hk⟩ := hs.listed key n hn
    have hfirst : (d.stopKey key .shutdown).1 = true := by
      subst hk
      rw [hs.stopKey_held ht hn]
    have hrest : ∀ j ∈ rest, KeyMap.contains j (d.stopKey key .shutdown).2.roster = true := by
      intro j hj
      have hne : j ≠ key := by
        rintro rfl
        exact fresh hj
      rw [KeyMap.contains, hone.roster, if_neg (by simpa using hne)]
      exact held j (by simp [hj])
    obtain ⟨hcount, hall⟩ := ih (hs.stopKey key .shutdown) distinct hrest
    simp only [Desk.stopKeys, hfirst, if_true]
    exact ⟨congrArg (· + 1) hcount, .cons hs hn fresh hall⟩

/-- A stop says nothing about whether the document of another key is seen. -/
theorem Tidy.isUnviewed_other (hs : d.Tidy) {other : Key} (hne : key ≠ other) (reason : StopReason) :
    (d.stopKey key reason).2.isUnviewed other = d.isUnviewed other := by
  cases held : KeyMap.get? key d.roster with
  | none => rw [stopKey_free held]
  | some n =>
    have hone := Clearance.one reason hs held
    have hviews := Meanwhile.teardowns.stopKey key reason d
    have hroster : KeyMap.get? other (d.stopKey key reason).2.roster = KeyMap.get? other d.roster := by
      rw [hone.roster, if_neg (by simpa using Ne.symm hne)]
    unfold isUnviewed
    rw [hroster, hviews.workspace.count]
    cases hother : KeyMap.get? other d.roster with
    | none => rfl
    | some m =>
      obtain ⟨u, hu, rfl⟩ := hs.listed other m hother
      have hkept := hone.tails m u hu
      rw [if_neg (fun hit => hne (List.mem_singleton.mp hit.1).symm)] at hkept
      simp only [Option.bind_some, session?, hkept, hu]

theorem Tidy.stopUnviewedAmong (hs : d.Tidy) (distinct : keys.Nodup) :
    (Desk.stopUnviewedAmong keys d).1 = keys.filter (fun key => d.isUnviewed key) ∧
      Clearance .viewsClosed (keys.filter fun key => d.isUnviewed key) d
        (Desk.stopUnviewedAmong keys d).2 := by
  induction keys generalizing d with
  | nil => exact ⟨rfl, .nil .viewsClosed d⟩
  | cons key rest ih =>
    obtain ⟨fresh, distinct'⟩ := List.nodup_cons.mp distinct
    unfold Desk.stopUnviewedAmong
    by_cases unviewed : d.isUnviewed key = true
    · obtain ⟨runs, -⟩ := hs.isUnviewed_iff.mp unviewed
      obtain ⟨n, t, hn, ht, rfl, -⟩ := hs.held_of_runs runs
      have hfirst : (d.stopKey t.key .viewsClosed).1 = true := by rw [hs.stopKey_held ht hn]
      obtain ⟨hkeys, hrest⟩ := ih (hs.stopKey t.key .viewsClosed) distinct'
      have hsame : rest.filter (fun key => (d.stopKey t.key .viewsClosed).2.isUnviewed key) =
          rest.filter fun key => d.isUnviewed key := by
        refine List.filter_congr fun j hj => hs.isUnviewed_other ?_ .viewsClosed
        rintro rfl
        exact fresh hj
      rw [hsame] at hkeys hrest
      simp only [unviewed, if_true, hfirst, List.filter_cons_of_pos, hkeys, true_and]
      exact .cons hs hn (fun hmem => fresh (List.mem_filter.mp hmem).1) hrest
    · have hsame : (key :: rest).filter (fun key => d.isUnviewed key) =
          rest.filter fun key => d.isUnviewed key := List.filter_cons_of_neg unviewed
      rw [if_neg unviewed, hsame]
      exact ih hs distinct'

/-- Where every session that runs is seen there is nothing to stop. -/
theorem stopUnviewedAmong_none (none : ∀ key ∈ keys, d.isUnviewed key = false) :
    Desk.stopUnviewedAmong keys d = ([], d) := by
  induction keys with
  | nil => rfl
  | cons key rest ih =>
    have hrest := ih fun j hj => none j (by simp [hj])
    simp [Desk.stopUnviewedAmong, none key (by simp), hrest]

/-- What a request to stop sessions does to a desk, and what it does when it is made again. -/
structure HitsTargets (d : Desk) : Prop where
  listed : ∀ (key : Key) (n : Nat), KeyMap.get? key d.roster = some n →
    ∃ t, d.tails[n]? = some t ∧ t.key = key ∧ t.session.phase ≠ .stopped
  ascending : (KeyMap.keys d.roster).Pairwise (· < ·)
  /-- All that are on the roster are torn down, also those that start. -/
  all : let d' := d.stopAll.2
    d.stopAll.1 = d.roster.length ∧ Clearance .shutdown (KeyMap.keys d.roster) d d' ∧
      d'.roster = [] ∧ d'.stopAll = (0, d')
  /-- Those that run unseen are torn down, and no other session is touched. -/
  unviewed : let keys := d.stopUnviewed.1
    let d' := d.stopUnviewed.2
    (∀ key, key ∈ keys ↔ d.Runs key ∧ d.workspace.viewCount key = 0) ∧
      keys.Pairwise (· < ·) ∧ Clearance .viewsClosed keys d d' ∧
      (∀ (n : Nat) (t : Tail), d.tails[n]? = some t → d'.tails[n]? = some
        (if t.session.phase = .running ∧ d.workspace.viewCount t.key = 0
          then { t with session := (t.session.stop d.now).2 } else t)) ∧
      d'.stopUnviewed = ([], d')
  /-- The one that holds the key is torn down, if there is one. -/
  one : ∀ key, let d' := (d.stopKey key .explicit).2
    ((d.stopKey key .explicit).1 = true ↔ KeyMap.contains key d.roster = true) ∧
      (KeyMap.contains key d.roster = true → Clearance .explicit [key] d d') ∧
      KeyMap.contains key d'.roster = false ∧ d'.stopKey key .explicit = (false, d')

/-- A session is hit by a stop of the unviewed just when it runs unseen. -/
theorem Tidy.hit_iff (hs : d.Tidy) (ht : d.tails[n]? = some t)
    (hkeys : ∀ key, key ∈ keys ↔ d.Runs key ∧ d.workspace.viewCount key = 0) :
    t.key ∈ keys ∧ KeyMap.get? t.key d.roster = some n ↔
      t.session.phase = .running ∧ d.workspace.viewCount t.key = 0 := by
  rw [hkeys]
  constructor
  · rintro ⟨⟨runs, unseen⟩, held⟩
    obtain ⟨m, u, held', hu, -, running⟩ := hs.held_of_runs runs
    obtain rfl : m = n := Option.some.inj (held'.symm.trans held)
    rw [ht] at hu
    cases hu
    exact ⟨running, unseen⟩
  · rintro ⟨running, unseen⟩
    exact ⟨⟨⟨n, t, ht, rfl, running⟩, unseen⟩,
      hs.holding n t ht (Tail.Sound.live_of_running running)⟩

/-- Whatever moves a desk has made, also one that is not alone: its bulk stops tear down
their targets and nothing else, give back how many or which they were, and record each of
them once, in the order of the keys; so does a stop of one key; and when it is made again
at once each of them does nothing. The states are those that moves lead to: nobody stops a
session or takes it off the roster past the desk, after which the roster would hold a session
that has no more to be torn down. -/
theorem bulk_stops_hit_targets (policy : Policy) (connector : Connector) (workspace : Workspace)
    (ms : List Move) : HitsTargets ((make policy connector workspace).moves ms) := by
  have hs := (tidy_make policy connector workspace).moves ms
  generalize (make policy connector workspace).moves ms = d at hs
  have distinct : (KeyMap.keys d.roster).Nodup := hs.ordered.nodup_keys
  have ascending : (KeyMap.keys d.roster).Pairwise (· < ·) := List.pairwise_map.mpr hs.ordered
  refine ⟨fun key n => hs.listed_going, ascending, ?_, ?_, fun key => ?_⟩
  · obtain ⟨hcount, hall⟩ := hs.stopKeys distinct fun key => KeyMap.contains_of_mem_keys
    have empty : d.stopAll.2.roster = [] := by
      refine KeyMap.eq_nil_of_get? fun key => ?_
      rw [stopAll, hall.roster]
      split
      · rfl
      · rename_i absent
        exact KeyMap.get?_of_not_mem_keys absent
    have again : d.stopAll.2.stopAll = (0, d.stopAll.2) := by
      rw [stopAll, empty]
      rfl
    exact ⟨hcount.trans (List.length_map _), hall, empty, again⟩
  · obtain ⟨hkeys, hall⟩ := hs.stopUnviewedAmong distinct
    rw [← hkeys] at hall
    have hmem (key : Key) : key ∈ d.stopUnviewed.1 ↔ d.Runs key ∧ d.workspace.viewCount key = 0 := by
      rw [stopUnviewed, hkeys, List.mem_filter, hs.isUnviewed_iff, and_iff_right_iff_imp]
      rintro ⟨runs, -⟩
      obtain ⟨n, t, held, -⟩ := hs.held_of_runs runs
      exact KeyMap.mem_keys_of_get? held
    have hs' : d.stopUnviewed.2.Tidy := hs.works (works_teardowns.stopUnviewedAmong _ d)
    have again : d.stopUnviewed.2.stopUnviewed = ([], d.stopUnviewed.2) := by
      refine stopUnviewedAmong_none fun key _ => ?_
      rw [← Bool.not_eq_true, hs'.isUnviewed_iff]
      rintro ⟨runs, unseen⟩
      exact Nat.ne_of_gt (hs.stopUnviewed_viewed key runs) unseen
    refine ⟨hmem, ?_, hall, fun n t ht => ?_, again⟩
    · rw [stopUnviewed, hkeys]
      exact ascending.filter _
    · rw [stopUnviewed, hall.tails n t ht]
      exact congrArg some (if_congr (hs.hit_iff ht hmem) rfl rfl)
  · have free := hs.stopKey_free key .explicit
    have again := stopKey_free free .explicit
    cases held : KeyMap.get? key d.roster with
    | none =>
      rw [stopKey_free held]
      simp [KeyMap.contains, held, stopKey_free held]
    | some n =>
      obtain ⟨t, ht, rfl⟩ := hs.listed key n held
      have hfirst : (d.stopKey t.key .explicit).1 = true := by rw [hs.stopKey_held ht held]
      have hone := Clearance.one .explicit hs held
      simp only [hfirst, KeyMap.contains, held, free, Option.isSome_some, Option.isSome_none]
      exact ⟨trivial, fun _ => hone, trivial, again⟩

/-- One session runs unseen, one is seen and one still starts: the first is stopped alone,
and then the others together. -/
example :
    let source (group : String) : Source := { region := "eu-west-1", group }
    let d := (make ⟨100, 1000, false⟩ {} {}).moves [.start (source "b"), .start (source "a"),
      .start (source "c"), .answer 0, .answer 2, .closeView (source "c").key 1]
    d.stopUnviewed.1 = [(source "c").key] ∧ d.stopUnviewed.2.stopAll.1 = 2 ∧
      d.stopUnviewed.2.stopAll.2.log.take 2 =
        [((source "b").key, .stopped .shutdown), ((source "a").key, .stopped .shutdown)] := by
  decide

end Desk

end LogTail
