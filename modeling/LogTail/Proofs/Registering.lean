import LogTail.Proofs.ByteOrder
import LogTail.Proofs.Sound
import LogTail.Roster
import Mathlib.Logic.Function.Basic

/-!
# What a roster stands for

Sessions are made, live and stop, several of one key among them, and whoever has a handle
on the roster registers them, takes them off, and asks for them. All handles are on the one
roster. It stands for a map from keys to sessions: the sessions that were registered and
that no removal has taken off since, each under its own key.
-/
namespace LogTail

/-- What a roster is asked. -/
inductive Query where
  | register (session : Nat)
  | lookup (key : Key)
  | remove (key : Key)
  | removeInstance (key : Key) (session : Nat)
  | contains (key : Key)
  | keys
  | count
  | snapshots
  deriving DecidableEq, Repr, Inhabited

inductive Answer where
  | registered
  | refused (fault : Fault)
  | found (session : Nat)
  | removed (session : Option Nat)
  | truth (b : Bool)
  | keys (ks : List Key)
  | count (n : Nat)
  | snapshots (list : List Snapshot)
  /-- There is no such session. -/
  | nobody
  deriving DecidableEq, Repr, Inhabited

/-- Sessions, each known by its place, and the roster on which they are entered. -/
structure Office where
  now : Nat := 0
  sessions : List Session := []
  roster : Roster := []
  /-- What was asked and answered, newest first. -/
  log : List (Query × Answer) := []
  deriving Repr, Inhabited

/-- What happens in an office. -/
inductive Event where
  | made (source : Source) (budget : Nat) (transport : Transport)
  | begun (session : Nat)
  | answered (session : Nat)
  | stopped (session : Nat)
  | passed (milliseconds : Nat)
  | asked (q : Query)
  deriving DecidableEq, Repr, Inhabited

namespace Session

theorem beginStart_key {now : Nat} {s s' : Session} (h : s.beginStart now = .ok s') :
    s'.key = s.key := by
  unfold beginStart at h
  split at h <;> cases h
  rfl

theorem finishStart_key (now : Nat) (s : Session) : (s.finishStart now).2.key = s.key := by
  cases answer : s.transport.finishOpen with
  | mk result transport =>
  cases result with
  | error fault =>
    simp only [finishStart, answer]
    exact stop_key now { s with transport }
  | ok stream =>
    simp only [finishStart, answer]
    split <;> rfl

end Session

namespace Office

def key? (n : Nat) (o : Office) : Option Key := o.sessions[n]?.map (·.key)

/-- The answer to a query, with the roster as it leaves it. -/
def serve (q : Query) (o : Office) : Answer × Roster :=
  match q with
  | .register n =>
    match o.sessions[n]? with
    | none => (.nobody, o.roster)
    | some s =>
      match o.roster.register s.key n with
      | .error fault => (.refused fault, o.roster)
      | .ok roster => (.registered, roster)
  | .lookup key =>
    match o.roster.lookup key with
    | .error fault => (.refused fault, o.roster)
    | .ok n => (.found n, o.roster)
  | .remove key =>
    let (n, roster) := o.roster.remove key
    (.removed n, roster)
  | .removeInstance key n =>
    let (n, roster) := o.roster.removeInstance key n
    (.removed n, roster)
  | .contains key => (.truth (KeyMap.contains key o.roster), o.roster)
  | .keys => (.keys (KeyMap.keys o.roster), o.roster)
  | .count => (.count o.roster.length, o.roster)
  | .snapshots =>
    (.snapshots (o.roster.filterMap fun (_, n) => o.sessions[n]?.map (Session.snapshot o.now)),
      o.roster)

def ask (q : Query) (o : Office) : Answer × Office :=
  let (a, roster) := o.serve q
  (a, { o with roster, log := (q, a) :: o.log })

/-- Changes a session, if it is there. -/
def alter (n : Nat) (f : Session → Session) (o : Office) : Office :=
  { o with sessions := o.sessions.modify n f }

def meet : Event → Office → Office
  | .made source budget transport, o =>
    match Session.make source budget transport with
    | .error _ => o
    | .ok s => { o with sessions := o.sessions ++ [s] }
  | .begun n, o => o.alter n fun s => (s.beginStart o.now).toOption.getD s
  | .answered n, o => o.alter n fun s => (s.finishStart o.now).2
  | .stopped n, o => o.alter n fun s => (s.stop o.now).2
  | .passed ms, o => { o with now := o.now + ms }
  | .asked q, o => (o.ask q).2

def meets (es : List Event) (o : Office) : Office := es.foldl (fun o e => o.meet e) o

/-- The map for which the roster stands. -/
def held (o : Office) : Key → Option Nat := fun key => KeyMap.get? key o.roster

/-- A session was registered, and nobody has taken it off since. -/
def Entered (log : List (Query × Answer)) (n : Nat) : Prop :=
  ∃ after before, log = after ++ (.register n, .registered) :: before ∧
    ∀ e ∈ after, e.2 ≠ .removed (some n)

/-- Every key that is held once, by their bytes. -/
structure Lists (o : Office) (ks : List Key) : Prop where
  ascending : ks.Pairwise fun a b => a.bytes < b.bytes
  held : ∀ key, key ∈ ks ↔ (o.held key).isSome

/-- What is answered and what map is left. -/
inductive Answers (o : Office) : Query → Answer → (Key → Option Nat) → Prop where
  | nobody {n : Nat} (unknown : o.key? n = none) : Answers o (.register n) .nobody o.held
  | registered {n : Nat} {key : Key} (known : o.key? n = some key) (free : o.held key = none) :
      Answers o (.register n) .registered (Function.update o.held key (some n))
  | occupied {n m : Nat} {key : Key} (known : o.key? n = some key) (taken : o.held key = some m) :
      Answers o (.register n) (.refused (.alreadyExists key.text)) o.held
  | found {n : Nat} {key : Key} (held : o.held key = some n) :
      Answers o (.lookup key) (.found n) o.held
  | missing {key : Key} (free : o.held key = none) :
      Answers o (.lookup key) (.refused (.notFound key.text)) o.held
  | removed (key : Key) :
      Answers o (.remove key) (.removed (o.held key)) (Function.update o.held key none)
  | removedInstance {key : Key} {n : Nat} (held : o.held key = some n) :
      Answers o (.removeInstance key n) (.removed (some n)) (Function.update o.held key none)
  | stale {key : Key} {n : Nat} (unheld : o.held key ≠ some n) :
      Answers o (.removeInstance key n) (.removed none) o.held
  | contains (key : Key) : Answers o (.contains key) (.truth (o.held key).isSome) o.held
  | keys {ks : List Key} (lists : o.Lists ks) : Answers o .keys (.keys ks) o.held
  | count {ks : List Key} (lists : o.Lists ks) : Answers o .count (.count ks.length) o.held
  | snapshots {list : List Snapshot} (lists : o.Lists (list.map (·.key)))
      (shown : ∀ x ∈ list, ∃ n s, o.held x.key = some n ∧ o.sessions[n]? = some s ∧
        x = s.snapshot o.now) :
      Answers o .snapshots (.snapshots list) o.held

variable {o : Office} {n : Nat} {key : Key} {q : Query} {a : Answer} {log : List (Query × Answer)}

theorem entered_cons {e : Query × Answer} : Entered (e :: log) n ↔
    e = (.register n, .registered) ∨ e.2 ≠ .removed (some n) ∧ Entered log n := by
  constructor
  · rintro ⟨after, before, hlog, quiet⟩
    cases after with
    | nil =>
      cases hlog
      exact .inl rfl
    | cons e' after =>
      cases hlog
      exact .inr ⟨quiet e (by simp), after, before, rfl, fun x hx => quiet x (by simp [hx])⟩
  · rintro (rfl | ⟨quiet, after, before, rfl, hafter⟩)
    · exact ⟨[], log, rfl, nofun⟩
    · refine ⟨e :: after, before, rfl, fun x hx => ?_⟩
      rcases List.mem_cons.mp hx with rfl | hx
      · exact quiet
      · exact hafter x hx

/-- Nobody comes to the roster by such an answer, and nobody leaves it. -/
theorem entered_quiet (unregistered : a ≠ .registered) (unremoved : ∀ m, a ≠ .removed (some m)) :
    Entered ((q, a) :: log) n ↔ Entered log n := by
  rw [entered_cons]
  simp [unregistered, unremoved]

/-- What holds in an office at any time. -/
structure Consistent (o : Office) : Prop where
  ordered : KeyMap.Ordered o.roster
  known : ∀ n, Entered o.log n → (o.key? n).isSome
  entries : ∀ key n, o.held key = some n ↔ o.key? n = some key ∧ Entered o.log n

theorem lists_keys (ordered : KeyMap.Ordered o.roster) : o.Lists (KeyMap.keys o.roster) where
  ascending := List.pairwise_map.mpr (ordered.imp Key.bytes_lt_iff.mpr)
  held key := by
    constructor
    · intro h
      obtain ⟨⟨k, m⟩, hmem, rfl⟩ := List.mem_map.mp h
      rw [held, ordered.get?_eq_some.mpr hmem]
      rfl
    · intro h
      obtain ⟨m, hm⟩ := Option.isSome_iff_exists.mp h
      exact KeyMap.mem_keys_of_get? hm

theorem held_insert (o : Office) (key : Key) (n : Nat) :
    (fun k => KeyMap.get? k (KeyMap.insert key n o.roster)) =
      Function.update o.held key (some n) := by
  funext k
  rw [KeyMap.get?_insert, Function.update_apply, held]
  simp only [eq_comm]

theorem held_erase (o : Office) (key : Key) :
    (fun k => KeyMap.get? k (KeyMap.erase key o.roster)) = Function.update o.held key none := by
  funext k
  rw [KeyMap.get?_erase, Function.update_apply, held]
  simp only [eq_comm]

/-- Each entry leads to a session of its key, so there is a snapshot for each. -/
theorem keys_of_snapshots {sessions : List Session} {r : Roster} (now : Nat)
    (own : ∀ e ∈ r, sessions[e.2]?.map (·.key) = some e.1) :
    (r.filterMap fun (_, n) => sessions[n]?.map (Session.snapshot now)).map (·.key) =
      KeyMap.keys r := by
  induction r with
  | nil => rfl
  | cons e r ih =>
    obtain ⟨k, n⟩ := e
    obtain ⟨s, hs, rfl⟩ := Option.map_eq_some_iff.mp (own (k, n) (by simp))
    have hrest := ih fun e he => own e (by simp [he])
    simp only [List.filterMap_cons, hs, Option.map_some, List.map_cons, KeyMap.keys]
    exact congrArg _ hrest

theorem Consistent.own (h : o.Consistent) {e : Key × Nat} (he : e ∈ o.roster) :
    o.sessions[e.2]?.map (·.key) = some e.1 :=
  ((h.entries e.1 e.2).mp (h.ordered.get?_eq_some.mpr he)).1

/-- The answer to a query, and the map that is left. -/
theorem Consistent.answers (h : o.Consistent) (q : Query) :
    Answers o q (o.serve q).1 fun k => KeyMap.get? k (o.serve q).2 := by
  cases q with
  | register n =>
    cases hn : o.sessions[n]? with
    | none =>
      simp only [serve, hn]
      exact .nobody (by simp [key?, hn])
    | some s =>
      have known : o.key? n = some s.key := by simp [key?, hn]
      cases taken : KeyMap.get? s.key o.roster with
      | none =>
        simp only [serve, hn, Roster.register, KeyMap.contains, taken]
        rw [if_neg (by simp)]
        simp only [held_insert]
        exact .registered known taken
      | some m =>
        simp only [serve, hn, Roster.register, KeyMap.contains, taken]
        exact .occupied known taken
  | lookup key =>
    cases taken : KeyMap.get? key o.roster with
    | none =>
      simp only [serve, Roster.lookup, taken]
      exact .missing taken
    | some m =>
      simp only [serve, Roster.lookup, taken]
      exact .found taken
  | remove key =>
    simp only [serve, Roster.remove, held_erase]
    exact .removed key
  | removeInstance key n =>
    by_cases holds : KeyMap.get? key o.roster = some n
    · simp only [serve, Roster.removeInstance, if_pos holds, held_erase]
      exact .removedInstance holds
    · simp only [serve, Roster.removeInstance, if_neg holds]
      exact .stale holds
  | contains key => exact .contains key
  | keys => exact .keys (lists_keys h.ordered)
  | count =>
    have hlength : (KeyMap.keys o.roster).length = o.roster.length := List.length_map _
    have hcount := Answers.count (lists_keys h.ordered)
    rw [hlength] at hcount
    exact hcount
  | snapshots =>
    have hkeys := keys_of_snapshots o.now fun e he => h.own he
    refine .snapshots (hkeys ▸ lists_keys h.ordered) fun x hx => ?_
    obtain ⟨⟨k, n⟩, he, hsnap⟩ := List.mem_filterMap.mp hx
    obtain ⟨s, hs, rfl⟩ := Option.map_eq_some_iff.mp hsnap
    have hown : s.key = k := by simpa [hs] using h.own he
    refine ⟨n, s, ?_, hs, rfl⟩
    show o.held s.key = some n
    rw [hown]
    exact h.ordered.get?_eq_some.mpr he

theorem ordered_serve (h : KeyMap.Ordered o.roster) (q : Query) : KeyMap.Ordered (o.serve q).2 := by
  cases q with
  | register n =>
    simp only [serve]
    split
    · exact h
    · rename_i s _
      simp only [Roster.register]
      by_cases taken : KeyMap.contains s.key o.roster
      · rw [if_pos taken]
        exact h
      · rw [if_neg taken]
        exact h.insert
  | lookup key =>
    simp only [serve]
    split <;> exact h
  | remove key => exact h.erase
  | removeInstance key n =>
    simp only [serve, Roster.removeInstance]
    split
    · exact h.erase
    · exact h
  | contains | keys | count | snapshots => exact h

/-- A session that was just registered is entered, and it was not before. -/
theorem Consistent.enters (hs : o.Consistent) {j : Nat} {k : Key} (known : o.key? j = some k)
    (free : o.held k = none) (key : Key) (n : Nat) :
    Function.update o.held k (some j) key = some n ↔
      o.key? n = some key ∧ Entered ((.register j, .registered) :: o.log) n := by
  have hcons : Entered ((.register j, .registered) :: o.log) n ↔ j = n ∨ Entered o.log n := by
    rw [entered_cons]
    simp
  rw [hcons, Function.update_apply]
  split
  · rename_i hk
    subst hk
    constructor
    · rintro ⟨⟩
      exact ⟨known, .inl rfl⟩
    · rintro ⟨hn, rfl | entered⟩
      · rfl
      · rw [(hs.entries key n).mpr ⟨hn, entered⟩] at free
        cases free
  · rename_i hk
    rw [hs.entries key n]
    constructor
    · exact fun ⟨hn, entered⟩ => ⟨hn, .inr entered⟩
    · rintro ⟨hn, rfl | entered⟩
      · rw [known] at hn
        cases hn
        exact absurd rfl hk
      · exact ⟨hn, entered⟩

/-- A session that was taken off is entered no more, and the others still are. -/
theorem Consistent.leaves (hs : o.Consistent) {j : Nat} {k : Key} (holds : o.held k = some j)
    (q : Query) (key : Key) (n : Nat) : Function.update o.held k none key = some n ↔
      o.key? n = some key ∧ Entered ((q, .removed (some j)) :: o.log) n := by
  have hcons : Entered ((q, .removed (some j)) :: o.log) n ↔ j ≠ n ∧ Entered o.log n := by
    rw [entered_cons]
    simp
  rw [hcons, Function.update_apply]
  split
  · rename_i hk
    subst hk
    constructor
    · rintro ⟨⟩
    · rintro ⟨hn, hne, entered⟩
      rw [(hs.entries key n).mpr ⟨hn, entered⟩] at holds
      cases holds
      exact absurd rfl hne
  · rename_i hk
    rw [hs.entries key n]
    constructor
    · rintro ⟨hn, entered⟩
      refine ⟨hn, ?_, entered⟩
      rintro rfl
      rw [((hs.entries k j).mp holds).1] at hn
      cases hn
      exact hk rfl
    · rintro ⟨hn, -, entered⟩
      exact ⟨hn, entered⟩

/-- Whatever is answered, the map that is left has the sessions that were registered and not
taken off. -/
theorem Answers.entries {m : Key → Option Nat} (h : Answers o q a m) (hs : o.Consistent)
    (key : Key) (n : Nat) : m key = some n ↔ o.key? n = some key ∧ Entered ((q, a) :: o.log) n := by
  have quiet (unregistered : a ≠ .registered) (unremoved : ∀ m, a ≠ .removed (some m)) :
      o.held key = some n ↔ o.key? n = some key ∧ Entered ((q, a) :: o.log) n := by
    rw [entered_quiet unregistered unremoved]
    exact hs.entries key n
  cases h with
  | nobody | occupied | found | missing | contains | keys | count | snapshots =>
    exact quiet nofun nofun
  | registered known free => exact hs.enters known free key n
  | removed k =>
    cases holds : o.held k with
    | none =>
      rw [holds] at quiet
      have same : Function.update o.held k none = o.held := by
        rw [← holds, Function.update_eq_self]
      rw [same]
      exact quiet nofun nofun
    | some j => exact hs.leaves holds _ key n
  | removedInstance holds => exact hs.leaves holds _ key n
  | stale => exact quiet nofun nofun

/-- Only a session that is there can be registered. -/
theorem Answers.known {m : Key → Option Nat} (h : Answers o q a m) (hs : o.Consistent) {n : Nat}
    (entered : Entered ((q, a) :: o.log) n) : (o.key? n).isSome := by
  rcases entered_cons.mp entered with he | ⟨-, before⟩
  · cases he
    cases h with
    | registered known => simp [known]
  · exact hs.known n before

theorem Consistent.ask (h : o.Consistent) (q : Query) : (o.ask q).2.Consistent where
  ordered := ordered_serve h.ordered q
  known _ entered := (h.answers q).known h entered
  entries := (h.answers q).entries h

/-- What is left to show when nobody asks. -/
theorem Consistent.unasked {o' : Office} (h : o.Consistent) (roster : o'.roster = o.roster)
    (log : o'.log = o.log) (keys : ∀ n key, o.key? n = some key → o'.key? n = some key) :
    o'.Consistent where
  ordered := by rw [roster]; exact h.ordered
  known n entered := by
    rw [log] at entered
    obtain ⟨key, hkey⟩ := Option.isSome_iff_exists.mp (h.known n entered)
    rw [keys n key hkey]
    rfl
  entries key n := by
    have hheld : o'.held = o.held := by
      funext k
      rw [held, roster, held]
    rw [hheld, h.entries, log]
    constructor
    · exact fun ⟨hkey, entered⟩ => ⟨keys n key hkey, entered⟩
    · rintro ⟨hkey, entered⟩
      obtain ⟨key', hkey'⟩ := Option.isSome_iff_exists.mp (h.known n entered)
      rw [keys n key' hkey'] at hkey
      cases hkey
      exact ⟨hkey', entered⟩

theorem Consistent.alter (h : o.Consistent) (n : Nat) {f : Session → Session}
    (same : ∀ s, (f s).key = s.key) : (o.alter n f).Consistent := by
  refine h.unasked rfl rfl fun m key hm => ?_
  obtain ⟨s, hs, rfl⟩ := Option.map_eq_some_iff.mp hm
  by_cases hn : n = m
  · subst hn
    simp [key?, Office.alter, hs, same]
  · simp [key?, Office.alter, List.getElem?_modify_ne _ _ hn, hs]

theorem Consistent.meet (h : o.Consistent) (e : Event) : (o.meet e).Consistent := by
  cases e with
  | made source budget transport =>
    simp only [Office.meet]
    split
    · exact h
    · rename_i s _
      refine h.unasked rfl rfl fun n key hn => ?_
      obtain ⟨s', hs', rfl⟩ := Option.map_eq_some_iff.mp hn
      have hlt := (List.getElem?_eq_some_iff.mp hs').1
      simp [key?, List.getElem?_append_left hlt, hs']
  | begun n =>
    refine h.alter n fun s => ?_
    cases begun : s.beginStart o.now with
    | error fault => rfl
    | ok s' => exact Session.beginStart_key begun
  | answered n => exact h.alter n (Session.finishStart_key o.now)
  | stopped n => exact h.alter n (Session.stop_key o.now)
  | passed ms => exact h.unasked rfl rfl fun _ _ hn => hn
  | asked q => exact h.ask q

theorem Consistent.meets (h : o.Consistent) (es : List Event) : (o.meets es).Consistent := by
  induction es generalizing o with
  | nil => exact h
  | cons e es ih => exact ih (h.meet e)

theorem consistent_empty : ({} : Office).Consistent where
  ordered := List.Pairwise.nil
  known n entered := by
    obtain ⟨after, before, hlog, -⟩ := entered
    simp at hlog
  entries key n := by
    constructor
    · rintro ⟨⟩
    · rintro ⟨⟨⟩, -⟩

/-- Whatever happens in an office that was empty, its roster holds just the sessions that were
registered and that no removal has taken off since, each under its own key, and answers
whatever it is asked by this map alone: it refuses a session just when its key is held, and
lists what it holds once each, by the bytes of the keys. So a removal that names a session
which is not entered does nothing, whoever has its key by now. -/
theorem roster_holds_registered (es : List Event) :
    let o := ({} : Office).meets es
    (∀ key n, o.held key = some n ↔ o.key? n = some key ∧ Entered o.log n) ∧
      (∀ q, Answers o q (o.ask q).1 (o.ask q).2.held) ∧
      ∀ key n, ¬ Entered o.log n → (o.ask (.removeInstance key n)).1 = .removed none ∧
        (o.ask (.removeInstance key n)).2.roster = o.roster := by
  intro o
  have h : o.Consistent := consistent_empty.meets es
  refine ⟨h.entries, h.answers, fun key n gone => ?_⟩
  have unheld : KeyMap.get? key o.roster ≠ some n := fun held => gone ((h.entries key n).mp held).2
  simp [Office.ask, serve, Roster.removeInstance, unheld]

/-- A removal that comes late does not take off the next session of the key. -/
example :
    let source : Source := { region := "eu-west-1", group := "app" }
    let transport : Transport := { script := some .silent }
    (({} : Office).meets [.made source 10 transport, .made source 10 transport,
      .asked (.register 0), .asked (.remove source.key), .asked (.register 1),
      .asked (.removeInstance source.key 0)]).held source.key = some 1 := by
  decide

end Office

end LogTail
