import LogTail.Desk.Request
import LogTail.Proofs.Lifetime
import LogTail.Proofs.Moves
import Mathlib.Logic.Relation

/-!
# A desk that is not alone

Others may take sessions off the roster, stop them, or take a key while the desk connects
for it. Then the roster need not list the live sessions any more. What remains is that
every request which waits for the service waits for a session of its own, which has not
run, and whose number stands on the roster under its key or not at all.
-/
namespace LogTail

/-- What may happen to a desk that is not alone. -/
inductive Incident where
  | move (m : Move)
  /-- Someone takes the session of a key off the roster. -/
  | unlist (key : Key)
  /-- Someone stops the session of a key, which stays on the roster. -/
  | halt (key : Key)
  deriving Repr, Inhabited

/-- A session for which a request waits: it was called for, it has not run, and nothing of
it is at work. -/
structure Tail.Pending (key : Key) (t : Tail) : Prop where
  key : t.key = key
  called : t.session.phase = .starting ∨ t.session.phase = .stopped
  orderly : t.session.Orderly
  unfed : t.feed = none
  unticked : t.ticker = .absent

namespace Tail.Pending

variable {t : Tail} {key : Key}

theorem stop (h : t.Pending key) (now : Nat) :
    Tail.Pending key { t with session := (t.session.stop now).2 } where
  key := (Session.stop_key now t.session).trans h.key
  called := .inr (Session.stop_phase now t.session)
  orderly := h.orderly.stop now
  unfed := h.unfed
  unticked := h.unticked

theorem calling (source : Source) (budget now : Nat) {transport : Transport}
    (fresh : transport.Fresh) :
    Tail.Pending source.key { session := .calling source budget transport now } where
  key := rfl
  called := .inl rfl
  orderly := .calling source budget now fresh
  unfed := rfl
  unticked := rfl

theorem forsake (h : t.Pending key) (now : Nat) : (t.forsake now).Pending key where
  key := (Session.stop_key now _).trans h.key
  called := .inr (Session.stop_phase now _)
  orderly := h.orderly.answer.stop now
  unfed := h.unfed
  unticked := h.unticked

end Tail.Pending

/-- The feed of a session stays with it, and so does the report that the feed has made. -/
def Tail.Feeds (t t' : Tail) : Prop :=
  ∀ f, t.feed = some f → ∃ f', t'.feed = some f' ∧ ∀ r, f.report = some r → f'.report = some r

namespace Tail.Feeds

variable {t t' t'' : Tail} {f f' : Feed}

theorem same (h : t'.feed = t.feed) : t.Feeds t' := fun f hf => ⟨f, h.trans hf, fun _ => id⟩

theorem going (hf : t.feed = some f) (going : f.report = none) (hf' : t'.feed = some f') :
    t.Feeds t' := by
  intro g hg
  rw [hf] at hg
  cases hg
  exact ⟨f', hf', fun r hr => by rw [going] at hr; cases hr⟩

theorem trans (h : t.Feeds t') (h' : t'.Feeds t'') : t.Feeds t'' := by
  intro f hf
  obtain ⟨f', hf', hr⟩ := h f hf
  obtain ⟨f'', hf'', hr'⟩ := h' f' hf'
  exact ⟨f'', hf'', fun r h => hr' r (hr r h)⟩

end Tail.Feeds

namespace Desk

open Relation (ReflTransGen)

def meet : Incident → Desk → Desk
  | .move m, d => d.move m
  | .unlist key, d => (d.serve (.unlist key)).2
  | .halt key, d => (d.serve (.stopSession key)).2

def meets (is : List Incident) (d : Desk) : Desk := is.foldl (fun d i => d.meet i) d

@[simp] theorem meets_nil (d : Desk) : d.meets [] = d := rfl

@[simp] theorem meets_cons (i : Incident) (is : List Incident) (d : Desk) :
    d.meets (i :: is) = (d.meet i).meets is := rfl

theorem meets_append (is is' : List Incident) (d : Desk) :
    d.meets (is ++ is') = (d.meets is).meets is' := List.foldl_append

variable {d d' : Desk} {c n : Nat} {t t' : Tail} {key : Key}

/-- What holds of a desk whoever else acts on it. -/
structure Steady (d : Desk) : Prop where
  room : 0 < d.policy.budget
  listed : ∀ (key : Key) (n : Nat), KeyMap.get? key d.roster = some n →
    ∃ t, d.tails[n]? = some t ∧ t.key = key
  waits : ∀ (c n : Nat) (key : Key), Opens d.calls c n key → ∃ t, d.tails[n]? = some t ∧ t.Pending key
  single : ∀ (c c' n : Nat) (key key' : Key),
    Opens d.calls c n key → Opens d.calls c' n key' → c = c'

theorem steady_make (policy : Policy) (connector : Connector) (workspace : Workspace) :
    (make policy connector workspace).Steady where
  room := Nat.lt_of_lt_of_le Nat.zero_lt_one (Nat.le_max_right policy.budget 1)
  listed := nofun
  waits := by rintro c n key ⟨due, h⟩; cases h
  single := by rintro c c' n key key' ⟨due, h⟩; cases h

/-- What becomes of each session that there was, and what is true of those that are new. -/
structure Tailwise (R : Tail → Tail → Prop) (P : Tail → Prop) (d d' : Desk) : Prop where
  old : ∀ (n : Nat) (t : Tail), d.tails[n]? = some t → ∃ t' : Tail, d'.tails[n]? = some t' ∧ R t t'
  new : ∀ (n : Nat) (t' : Tail), d'.tails[n]? = some t' → d.tails[n]? = none → P t'

namespace Tailwise

variable {R R' R'' : Tail → Tail → Prop} {P P' P'' : Tail → Prop} {d'' : Desk}

theorem trans (h : Tailwise R P d d') (h' : Tailwise R' P' d' d'')
    (both : ∀ t t' t'', R t t' → R' t' t'' → R'' t t'')
    (first : ∀ t' t'', P t' → R' t' t'' → P'' t'') (second : ∀ t'', P' t'' → P'' t'') :
    Tailwise R'' P'' d d'' where
  old n t ht := by
    obtain ⟨t', ht', hR⟩ := h.old n t ht
    obtain ⟨t'', ht'', hR'⟩ := h'.old n t' ht'
    exact ⟨t'', ht'', both t t' t'' hR hR'⟩
  new n t'' ht'' hn := by
    cases ht' : d'.tails[n]? with
    | none => exact second t'' (h'.new n t'' ht'' ht')
    | some t' =>
      obtain ⟨u, hu, hR'⟩ := h'.old n t' ht'
      rw [ht''] at hu
      cases hu
      exact first t' t'' (h.new n t' ht' hn) hR'

/-- What is left to show when sessions are added. -/
theorem append (same : ∀ t ∈ d.tails, R t t) {more : List Tail} (tails : d'.tails = d.tails ++ more)
    (new : ∀ t ∈ more, P t) : Tailwise R P d d' where
  old n t ht := by
    refine ⟨t, ?_, same t (List.mem_of_getElem? ht)⟩
    rw [tails, List.getElem?_append_left (List.getElem?_eq_some_iff.mp ht).1]
    exact ht
  new n t' ht' hn := by
    rw [tails, List.getElem?_append_right (List.getElem?_eq_none_iff.mp hn)] at ht'
    exact new t' (List.mem_of_getElem? ht')

theorem still (same : ∀ t ∈ d.tails, R t t) (tails : d'.tails = d.tails) : Tailwise R P d d' :=
  append same (tails.trans (List.append_nil _).symm) fun _ h => absurd h List.not_mem_nil

/-- What is left to show when one session is replaced. -/
theorem set (same : ∀ t ∈ d.tails, R t t) (ht : d.tails[n]? = some t)
    (tails : d'.tails = d.tails.set n t') (becomes : R t t') : Tailwise R P d d' where
  old m u hu := by
    rw [tails]
    by_cases hm : n = m
    · subst hm
      rw [ht] at hu
      cases hu
      exact ⟨t', List.getElem?_set_self (List.getElem?_eq_some_iff.mp ht).1, becomes⟩
    · exact ⟨u, by rw [List.getElem?_set_ne hm]; exact hu, same u (List.mem_of_getElem? hu)⟩
  new m u hu hm := by
    have hlt : m < (d.tails.set n t').length := (List.getElem?_eq_some_iff.mp (tails ▸ hu)).1
    rw [List.length_set] at hlt
    exact absurd hlt (Nat.not_lt.mpr (List.getElem?_eq_none_iff.mp hm))

end Tailwise

/-- No request is made or answered, nothing comes to the roster, and sessions for which
requests wait may be stopped but not run. -/
structure Wanes (d d' : Desk) : Prop where
  policy : d'.policy = d.policy
  calls : d'.calls = d.calls
  roster : ∀ key n, KeyMap.get? key d'.roster = some n → KeyMap.get? key d.roster = some n
  tails : ∀ (n : Nat) (t : Tail), d.tails[n]? = some t →
    ∃ t' : Tail, d'.tails[n]? = some t' ∧ t'.key = t.key ∧ ∀ key, t.Pending key → t'.Pending key

namespace Wanes

theorem still (policy : d'.policy = d.policy) (calls : d'.calls = d.calls)
    (roster : d'.roster = d.roster) (tails : d'.tails = d.tails) : Wanes d d' where
  policy := policy
  calls := calls
  roster := by rw [roster]; exact fun _ _ h => h
  tails := by rw [tails]; exact fun n t ht => ⟨t, ht, rfl, fun _ h => h⟩

theorem refl (d : Desk) : Wanes d d := still rfl rfl rfl rfl

theorem trans {d'' : Desk} (h : Wanes d d') (h' : Wanes d' d'') : Wanes d d'' where
  policy := h'.policy.trans h.policy
  calls := h'.calls.trans h.calls
  roster key n hn := h.roster key n (h'.roster key n hn)
  tails n t ht := by
    obtain ⟨u, hu, huk, hup⟩ := h.tails n t ht
    obtain ⟨t', ht', hk, hp⟩ := h'.tails n u hu
    exact ⟨t', ht', hk.trans huk, fun key h => hp key (hup key h)⟩

/-- What is left to show when one session is replaced. -/
theorem replace (ht : d.tails[n]? = some t) (tails : d'.tails = d.tails.set n t')
    (key : t'.key = t.key) (pending : ∀ key, t.Pending key → t'.Pending key)
    (policy : d'.policy = d.policy) (calls : d'.calls = d.calls) (roster : d'.roster = d.roster) :
    Wanes d d' where
  policy := policy
  calls := calls
  roster := by rw [roster]; exact fun _ _ h => h
  tails :=
    have same (t : Tail) (_ : t ∈ d.tails) :
        t.key = t.key ∧ ∀ key, t.Pending key → t.Pending key := ⟨rfl, fun _ => id⟩
    (Tailwise.set (P := fun _ => True) same ht tails ⟨key, pending⟩).old

theorem steady (h : Wanes d d') (hs : d.Steady) : d'.Steady where
  room := h.policy ▸ hs.room
  listed key n hn := by
    obtain ⟨t, ht, hk⟩ := hs.listed key n (h.roster key n hn)
    obtain ⟨t', ht', hk', -⟩ := h.tails n t ht
    exact ⟨t', ht', hk'.trans hk⟩
  waits c n key ho := by
    obtain ⟨t, ht, hp⟩ := hs.waits c n key (h.calls ▸ ho)
    obtain ⟨t', ht', -, hp'⟩ := h.tails n t ht
    exact ⟨t', ht', hp' key hp⟩
  single c c' n key key' ho ho' := hs.single c c' n key key' (h.calls ▸ ho) (h.calls ▸ ho')

end Wanes

theorem stop_wanes (ht : d.tails[n]? = some t) :
    Wanes d { d with tails := d.tails.set n { t with session := (t.session.stop d.now).2 } } :=
  .replace ht rfl (Session.stop_key d.now t.session) (fun _ h => h.stop d.now) rfl rfl rfl

theorem get?_removeInstance (key j : Key) (n : Nat) (r : Roster) :
    KeyMap.get? j (r.removeInstance key n).2 =
      if key = j ∧ KeyMap.get? key r = some n then none else KeyMap.get? j r := by
  unfold Roster.removeInstance
  by_cases held : KeyMap.get? key r = some n
  · simp [held, KeyMap.get?_erase]
  · simp [held]

theorem get?_removeInstance_other {j : Key} {m : Nat} {r : Roster} (other : m ≠ n) :
    KeyMap.get? j (r.removeInstance key n).2 = some m ↔ KeyMap.get? j r = some m := by
  rw [get?_removeInstance]
  split
  · rename_i held
    rw [← held.1, held.2]
    simp [Ne.symm other]
  · rfl

theorem get?_of_removeInstance {j : Key} {m : Nat} {r : Roster}
    (h : KeyMap.get? j (r.removeInstance key n).2 = some m) : KeyMap.get? j r = some m := by
  rw [get?_removeInstance] at h
  split at h
  · cases h
  · exact h

theorem unlist_wanes (key : Key) (n : Nat) (d : Desk) : Wanes d (d.unlist key n) where
  policy := rfl
  calls := rfl
  roster _ _ hm := get?_of_removeInstance hm
  tails _ t ht := ⟨t, ht, rfl, fun _ h => h⟩

theorem teardown_wanes (n : Nat) (reason : StopReason) (d : Desk) :
    Wanes d (d.teardown n reason).2 := by
  have htears := teardown_tearsDown n reason d
  generalize (d.teardown n reason).2 = d' at htears
  cases htears with
  | absent => exact .refl d
  | again ht => exact (stop_wanes ht).trans (unlist_wanes _ n _)
  | first ht => exact ((stop_wanes ht).trans (unlist_wanes _ n _)).trans (.still rfl rfl rfl rfl)

/-- What all moves but requests are made of. -/
inductive Work (d : Desk) : Desk → Prop where
  /-- Nothing happens to a session, the roster or a request. -/
  | aside {d' : Desk} (policy : d'.policy = d.policy) (calls : d'.calls = d.calls)
      (roster : d'.roster = d.roster) (tails : d'.tails = d.tails) (now : d.now ≤ d'.now) :
      Work d d'
  /-- A feed or a ticker of a session goes on or ends. -/
  | tended {d' : Desk} {n : Nat} {t t' : Tail} (ht : d.tails[n]? = some t)
      (busy : t.feed.isSome = true ∨ t.ticker ≠ .absent) (tails : d'.tails = d.tails.set n t')
      (session : t'.session = t.session) (policy : d'.policy = d.policy)
      (calls : d'.calls = d.calls) (roster : d'.roster = d.roster) (now : d'.now = d.now)
      (feed : t.Feeds t') : Work d d'
  | torn (n : Nat) (reason : StopReason) : Work d (d.teardown n reason).2

theorem Work.wanes (h : Work d d') : Wanes d d' := by
  cases h with
  | aside policy calls roster tails => exact .still policy calls roster tails
  | tended ht busy tails session policy calls roster =>
    -- nothing of a session is at work for which a request waits
    refine .replace ht tails (congrArg Session.key session) (fun _ pending => ?_) policy calls roster
    rcases busy with fed | ticking
    · rw [pending.unfed] at fed
      cases fed
    · exact absurd pending.unticked ticking
  | torn n reason => exact teardown_wanes n reason d

theorem works_teardowns : Teardowns (ReflTransGen Work) :=
  ⟨fun _ => .refl, .trans, fun n reason _ => .single (.torn n reason)⟩

theorem endFeed_works {f : Feed} (ht : d.tails[n]? = some t) (hf : t.feed = some f)
    (going : f.report = none) (f' : Feed) (exit : Exit) :
    ReflTransGen Work d (d.endFeed n t f' exit) := by
  have hput : Work d { d with
      channels := Channel.release f'.stream.channel? d.channels
      tails := d.tails.set n { t with feed := some { f' with report := some ⟨exit, f'.tally⟩ } } } :=
    .tended ht (.inl (by simp [hf])) rfl rfl rfl rfl rfl rfl (.going hf going rfl)
  exact (ReflTransGen.single hput).tail (.torn n .streamEnded)

theorem takeItem_works {f : Feed} (ht : d.tails[n]? = some t) (hf : t.feed = some f)
    (going : f.report = none) (f' : Feed) (i : Item) :
    ReflTransGen Work d (d.takeItem n t f' i) := by
  cases outcome : ({ document := (d.workspace.document? t.key).getD {}, tally := f'.tally } :
      Pump).take t.session.budget t.session.cancelled (some i) with
  | mk exit p =>
  simp only [takeItem, outcome]
  cases exit with
  | none =>
    exact .single (.tended ht (.inl (by simp [hf])) rfl rfl rfl rfl rfl rfl (.going hf going rfl))
  | some exit =>
    have hwrite : Work d { d with
        workspace := d.workspace.onDocument t.key fun _ => p.document
        log := (p.notices.map fun n => (t.key, n)).reverse ++ d.log } :=
      .aside rfl rfl rfl rfl le_rfl
    refine .head hwrite (endFeed_works (d := { d with
      workspace := d.workspace.onDocument t.key fun _ => p.document
      log := (p.notices.map fun n => (t.key, n)).reverse ++ d.log }) ht hf going _ exit)

theorem look_works (n : Nat) (d : Desk) : ReflTransGen Work d (d.look n).2 := by
  have hlooks := look_looks n d
  generalize d.look n = looked at hlooks
  cases hlooks with
  | idle | goes => exact .refl
  | ended feeding =>
    obtain ⟨ht, hf, going⟩ := feeding?_eq_some.mp feeding
    exact endFeed_works ht hf going _ _

theorem fetch_works (n : Nat) (heeds : Bool) (d : Desk) :
    ReflTransGen Work d (d.fetch n heeds).2 := by
  have hfetches := fetch_fetches n heeds d
  generalize d.fetch n heeds = fetched at hfetches
  cases hfetches with
  | idle => exact .refl
  | asked feeding =>
    obtain ⟨ht, hf, going⟩ := feeding?_eq_some.mp feeding
    exact .single (.tended ht (.inl (by simp [hf])) rfl rfl rfl rfl rfl rfl (.going hf going rfl))

theorem receive_works (n : Nat) (answer : Option Item) (d : Desk) :
    ReflTransGen Work d (d.receive n answer) := by
  have hreceives := receive_receives n answer d
  generalize d.receive n answer = d' at hreceives
  cases hreceives with
  | idle => exact .refl
  | closed feeding =>
    obtain ⟨ht, hf, going⟩ := feeding?_eq_some.mp feeding
    exact endFeed_works ht hf going _ _
  | item i feeding =>
    obtain ⟨ht, hf, going⟩ := feeding?_eq_some.mp feeding
    exact takeItem_works ht hf going _ i

theorem pull_works (n : Nat) (d : Desk) : ReflTransGen Work d (d.pull n) :=
  pull_chain .trans (look_works n) (fetch_works n true) (receive_works n) d

theorem arm_works (n : Nat) (d : Desk) : ReflTransGen Work d (d.arm n) := by
  have harms := arm_arms n d
  generalize d.arm n = d' at harms
  cases harms with
  | idle => exact .refl
  | armed ht fresh =>
    exact .single (.tended ht (.inr (by simp [fresh])) rfl rfl rfl rfl rfl rfl (.same rfl))

theorem tick_works (n : Nat) (d : Desk) : ReflTransGen Work d (d.tick n) := by
  have hticks := tick_ticks n d
  generalize d.tick n = d' at hticks
  cases hticks with
  | idle => exact .refl
  | ended ht ticking | told ht ticking =>
    exact .single (.tended ht (.inr (by simp [ticking])) rfl rfl rfl rfl rfl rfl (.same rfl))

theorem clear_works (key : Key) (d : Desk) : ReflTransGen Work d (d.clear key).2 := by
  have hclears := clear_clears key d
  generalize (d.clear key).2 = d' at hclears
  cases hclears with
  | idle => exact .refl
  | cleared => exact .single (.aside rfl rfl rfl rfl le_rfl)

theorem move_works {m : Move} (other : m.isRequest = false) (d : Desk) :
    ReflTransGen Work d (d.move m) := by
  cases m with
  | start | answer => cases other
  | stop key => exact works_teardowns.stopKey key .explicit d
  | stopAll => exact works_teardowns.stopKeys _ d
  | stopUnviewed => exact works_teardowns.stopUnviewedAmong _ d
  | clear key => exact clear_works key d
  | pull n => exact pull_works n d
  | arm n => exact arm_works n d
  | tick n => exact tick_works n d
  | wake n => exact works_teardowns.wake (fun _ _ => .single (.aside rfl rfl rfl rfl le_rfl)) n d
  | drop => exact works_teardowns.drop d (.single (.aside rfl rfl rfl rfl le_rfl))
  | pass ms => exact .single (.aside rfl rfl rfl rfl (Nat.le_add_right d.now ms))
  | await | watch | provide | cut | openView | closeView | scroll | send | closeSender =>
    exact .single (.aside rfl rfl rfl rfl le_rfl)

theorem wanes_of_works (works : ReflTransGen Work d d') : Wanes d d' := by
  induction works with
  | refl => exact .refl d
  | tail _ work ih => exact ih.trans work.wanes

theorem unlisted_wanes (key : Key) (d : Desk) : Wanes d (d.meet (.unlist key)) where
  policy := rfl
  calls := rfl
  roster j m hm := by
    have h := KeyMap.get?_erase key j d.roster
    rw [show KeyMap.get? j (KeyMap.erase key d.roster) = some m from hm] at h
    split at h
    · cases h
    · exact h.symm
  tails _ t ht := ⟨t, ht, rfl, fun _ h => h⟩

/-- Someone who stops the session of a key finds one to stop, or nothing happens. -/
theorem halt_stops (key : Key) (d : Desk) : d.meet (.halt key) = d ∨
    ∃ n t, KeyMap.get? key d.roster = some n ∧ d.tails[n]? = some t ∧ d.meet (.halt key) =
      { d with tails := d.tails.set n { t with session := (t.session.stop d.now).2 } } := by
  simp only [meet, serve, Roster.lookup]
  cases held : KeyMap.get? key d.roster with
  | none => exact .inl rfl
  | some n =>
    dsimp only
    unfold stopSession
    cases ht : d.tails[n]? with
    | none => exact .inl rfl
    | some t => exact .inr ⟨n, t, rfl, ht, rfl⟩

theorem halted_wanes (key : Key) (d : Desk) : Wanes d (d.meet (.halt key)) := by
  rcases halt_stops key d with same | ⟨n, t, -, ht, stopped⟩
  · rw [same]
    exact .refl d
  · rw [stopped]
    exact stop_wanes ht

theorem answered_other {calls : List Call} {c' : Nat} {a : Except Fault Started} (h : c' ≠ c) :
    (answered calls c' a)[c]? = calls[c]? := by
  simp [answered, h]

theorem opens_append_answered {calls : List Call} {k : Key} {a : Except Fault Started} :
    Opens (calls ++ [⟨k, .answered a⟩]) c n key ↔ Opens calls c n key := by
  rw [opens_append]
  simp

/-- What is left to show when sessions are added. -/
theorem Steady.grow (hs : d.Steady) {more : List Tail} (policy : d'.policy = d.policy)
    (tails : d'.tails = d.tails ++ more)
    (listed : ∀ (key : Key) (n : Nat), KeyMap.get? key d'.roster = some n →
      KeyMap.get? key d.roster = some n ∨ ∃ t, d'.tails[n]? = some t ∧ t.key = key)
    (waits : ∀ (c n : Nat) (key : Key), Opens d'.calls c n key →
      Opens d.calls c n key ∨ ∃ t, d'.tails[n]? = some t ∧ t.Pending key)
    (single : ∀ (c c' n : Nat) (key key' : Key),
      Opens d'.calls c n key → Opens d'.calls c' n key' → c = c') : d'.Steady := by
  have old {n : Nat} {t : Tail} (ht : d.tails[n]? = some t) : d'.tails[n]? = some t := by
    rw [tails, List.getElem?_append_left (List.getElem?_eq_some_iff.mp ht).1]
    exact ht
  exact {
    room := policy ▸ hs.room
    listed := fun key n hn => by
      rcases listed key n hn with hn | hnew
      · obtain ⟨t, ht, hk⟩ := hs.listed key n hn
        exact ⟨t, old ht, hk⟩
      · exact hnew
    waits := fun c n key ho => by
      rcases waits c n key ho with ho | hnew
      · obtain ⟨t, ht, hp⟩ := hs.waits c n key ho
        exact ⟨t, old ht, hp⟩
      · exact hnew
    single := single }

theorem Steady.begun {source : Source} (hs : d.Steady) (h : Begun source d d') : d'.Steady := by
  have single_answered {k : Key} {a : Except Fault Started} (c c' n : Nat) (key key' : Key)
      (ho : Opens (d.calls ++ [⟨k, .answered a⟩]) c n key)
      (ho' : Opens (d.calls ++ [⟨k, .answered a⟩]) c' n key') : c = c' :=
    hs.single c c' n key key' (opens_append_answered.mp ho) (opens_append_answered.mp ho')
  cases h with
  | refused why =>
    exact hs.grow rfl (List.append_nil _).symm (fun _ _ h => .inl h)
      (fun _ _ _ h => .inl (opens_append_answered.mp h)) single_answered
  | refocused held =>
    exact hs.grow rfl (List.append_nil _).symm (fun _ _ h => .inl h)
      (fun _ _ _ h => .inl (opens_append_answered.mp h)) single_answered
  | outrun =>
    refine hs.grow rfl rfl (fun key n hn => ?_)
      (fun _ _ _ h => .inl (opens_append_answered.mp h)) single_answered
    rw [KeyMap.get?_insert] at hn
    split at hn
    · cases hn
      exact .inr ⟨rivalOf source, by simp, ‹_›⟩
    · exact .inl hn
  | @entered transport connector valid free connected =>
    obtain ⟨unused, -⟩ := Connector.connect_fresh connected
    let u : Tail := { session := .calling source d.policy.budget transport d.now }
    have hnew : (d.tails ++ [u])[d.tails.length]? = some u := by simp
    -- the new request waits for a session that no older one knows
    have fresh (c : Nat) (key : Key) : ¬ Opens d.calls c d.tails.length key := by
      intro ho
      obtain ⟨t, ht, -⟩ := hs.waits c _ key ho
      simp at ht
    refine hs.grow rfl rfl (fun key n hn => ?_) (fun c n key ho => ?_) fun c c' n key key' ho ho' => ?_
    · rw [KeyMap.get?_insert] at hn
      split at hn
      · cases hn
        exact .inr ⟨u, hnew, ‹_›⟩
      · exact .inl hn
    · rcases opens_append.mp ho with ho | ⟨-, due, he⟩
      · exact .inl ho
      · cases he
        exact .inr ⟨u, hnew, .calling source d.policy.budget d.now unused⟩
    · rcases opens_append.mp ho with ho | ⟨rfl, due, he⟩
      · rcases opens_append.mp ho' with ho' | ⟨rfl, due, he⟩
        · exact hs.single c c' n key key' ho ho'
        · cases he
          exact (fresh _ _ ho).elim
      · rcases opens_append.mp ho' with ho' | ⟨rfl, -⟩
        · cases he
          exact (fresh _ _ ho').elim
        · rfl

/-- What a request leaves of its session is of no concern to the others. -/
theorem Steady.answer {a : Except Fault Started} (hs : d.Steady) (hc : Opens d.calls c n key)
    (ht : d.tails[n]? = some t) (policy : d'.policy = d.policy)
    (tails : d'.tails = d.tails.set n t') (same : t'.key = t.key)
    (roster : ∀ (key : Key) (m : Nat), KeyMap.get? key d'.roster = some m →
      KeyMap.get? key d.roster = some m)
    (calls : d'.calls = answered d.calls c a) : d'.Steady where
  room := policy ▸ hs.room
  listed j m hm := by
    obtain ⟨u, hu, hk⟩ := hs.listed j m (roster j m hm)
    rw [tails]
    by_cases hn : n = m
    · subst hn
      rw [ht] at hu
      cases hu
      exact ⟨t', List.getElem?_set_self (List.getElem?_eq_some_iff.mp ht).1, same.trans hk⟩
    · exact ⟨u, by rw [List.getElem?_set_ne hn]; exact hu, hk⟩
  waits c' m j ho := by
    obtain ⟨hne, ho⟩ := opens_answered.mp (calls ▸ ho)
    have hn : n ≠ m := by
      rintro rfl
      exact hne (hs.single c' c n j key ho hc)
    obtain ⟨u, hu, hp⟩ := hs.waits c' m j ho
    exact ⟨u, by rw [tails, List.getElem?_set_ne hn]; exact hu, hp⟩
  single c' c'' m j j' ho ho' := by
    rw [calls] at ho ho'
    exact hs.single c' c'' m j j' (opens_answered.mp ho).2 (opens_answered.mp ho').2

theorem Steady.finished (hs : d.Steady) (hc : Opens d.calls c n key) (ht : d.tails[n]? = some t)
    (h : Finished c n key t d d') : d'.Steady := by
  cases h with
  | opened starting answer document => exact hs.answer hc ht rfl rfl rfl (fun _ _ h => h) rfl
  | failed fault number requests unasked =>
    exact hs.answer hc ht rfl rfl (Session.stop_key _ _) (fun _ _ => get?_of_removeInstance) rfl

theorem Steady.finishStart (hs : d.Steady) (hc : Opens d.calls c n key) :
    ∃ t, d.tails[n]? = some t ∧ t.Pending key ∧ Finished c n key t d (d.finishStart c) := by
  obtain ⟨t, ht, pending⟩ := hs.waits c n key hc
  exact ⟨t, ht, pending, finishStart_finished hc ht pending.called⟩

/-- What a move comes to, whoever else acts on the desk. -/
inductive Turns (d : Desk) : Move → Desk → Prop where
  | worked {m : Move} {d' : Desk} (other : m.isRequest = false) (works : ReflTransGen Work d d') :
      Turns d m d'
  | begun {source : Source} {d' : Desk} (h : Begun source d d') : Turns d (.start source) d'
  /-- Nobody waits for the answer. -/
  | unasked (c : Nat) : Turns d (.answer c) d
  | finished {c n : Nat} {key : Key} {t : Tail} {d' : Desk} (hc : Opens d.calls c n key)
      (ht : d.tails[n]? = some t) (pending : t.Pending key) (h : Finished c n key t d d') :
      Turns d (.answer c) d'

theorem Steady.move_turns (hs : d.Steady) (m : Move) : Turns d m (d.move m) := by
  by_cases request : m.isRequest = false
  · exact .worked request (move_works request d)
  cases m with
  | start source => exact .begun (beginStart_begun hs.room source)
  | answer c =>
    by_cases asked : ∃ n key, Opens d.calls c n key
    · obtain ⟨n, key, hc⟩ := asked
      obtain ⟨t, ht, pending, hfinished⟩ := hs.finishStart hc
      exact .finished hc ht pending hfinished
    · rw [Desk.move, finishStart_unasked fun n key hc => asked ⟨n, key, hc⟩]
      exact .unasked c
  | _ => exact absurd rfl request

theorem Steady.move (hs : d.Steady) (m : Move) : (d.move m).Steady := by
  have hturns := hs.move_turns m
  generalize d.move m = d' at hturns
  cases hturns with
  | worked _ works => exact (wanes_of_works works).steady hs
  | begun h => exact hs.begun h
  | unasked => exact hs
  | finished hc ht _ h => exact hs.finished hc ht h

theorem Steady.meet (hs : d.Steady) (i : Incident) : (d.meet i).Steady := by
  cases i with
  | move m => exact hs.move m
  | unlist key => exact (unlisted_wanes key d).steady hs
  | halt key => exact (halted_wanes key d).steady hs

theorem Steady.meets (hs : d.Steady) (is : List Incident) : (d.meets is).Steady := by
  induction is generalizing d with
  | nil => exact hs
  | cons i is ih => exact ih (hs.meet i)

/-- The policy of a desk stays. -/
theorem Steady.meet_policy (hs : d.Steady) (i : Incident) : (d.meet i).policy = d.policy := by
  cases i with
  | unlist key => exact (unlisted_wanes key d).policy
  | halt key => exact (halted_wanes key d).policy
  | move m =>
    have hturns := hs.move_turns m
    simp only [Desk.meet]
    generalize d.move m = d' at hturns
    cases hturns with
    | worked _ works => exact (wanes_of_works works).policy
    | begun h => cases h <;> rfl
    | unasked => rfl
    | finished _ _ _ h => cases h <;> rfl

theorem Steady.meets_policy (hs : d.Steady) (is : List Incident) : (d.meets is).policy = d.policy := by
  induction is generalizing d with
  | nil => rfl
  | cons i is ih => exact (ih (hs.meet i)).trans (hs.meet_policy i)

/-- A request is as it was until the service answers it. -/
theorem Steady.meet_call {call : Call} (hs : d.Steady) (hc : d.calls[c]? = some call)
    {i : Incident} (other : i ≠ .move (.answer c)) : (d.meet i).calls[c]? = some call := by
  have kept (h : (d.meet i).calls = d.calls) : (d.meet i).calls[c]? = some call := by
    rw [h]
    exact hc
  cases i with
  | unlist key => exact kept (unlisted_wanes key d).calls
  | halt key => exact kept (halted_wanes key d).calls
  | move m =>
    have hturns := hs.move_turns m
    simp only [Desk.meet] at kept ⊢
    generalize d.move m = d' at hturns kept ⊢
    cases hturns with
    | worked _ works => exact kept (wanes_of_works works).calls
    | begun h =>
      have hlt := (List.getElem?_eq_some_iff.mp hc).1
      cases h <;>
      · rw [List.getElem?_append_left hlt]
        exact hc
    | unasked => exact hc
    | @finished c' _ _ _ _ _ _ _ h =>
      have hne : c' ≠ c := by
        rintro rfl
        exact other rfl
      cases h <;> exact (answered_other hne).trans hc

theorem Steady.meets_call {call : Call} (hs : d.Steady) (hc : d.calls[c]? = some call)
    (is : List Incident) (others : ∀ i ∈ is, i ≠ .move (.answer c)) :
    (d.meets is).calls[c]? = some call := by
  induction is generalizing d with
  | nil => exact hc
  | cons i is ih =>
    have hfirst := hs.meet_call hc (others i List.mem_cons_self)
    exact ih (hs.meet i) hfirst fun j hj => others j (List.mem_cons_of_mem _ hj)

end Desk

end LogTail
