import LogTail.Proofs.Holding
import LogTail.Proofs.Identity
import LogTail.Proofs.Showing

/-!
# Requests that share a session

A session takes its key before it calls the service. Whoever asks for the key from then on
is led to its document and makes no connection, whether the service has answered yet or
not, until the session has given its key back. The desk need not be alone: someone else
may take a key while the desk connects for it.
-/
namespace LogTail

namespace Desk

variable {d d' : Desk} {c n : Nat} {key : Key} {m : Move} {source : Source}

/-- How many connections a run makes for those who ask for a key. -/
def connectsFor (key : Key) : List Move → Desk → Nat
  | [], _ => 0
  | m :: ms, d =>
    (if m.asked? = some key then (d.move m).connector.connects - d.connector.connects else 0) +
      connectsFor key ms (d.move m)

/-! ### A key that is held -/

theorem beginStart_held (valid : source.check = .ok ())
    (held : KeyMap.contains source.key d.roster = true) : d.beginStart source = { d with
      workspace := (d.workspace.focusDocument source.key).2
      log := (source.key, .refocused) :: d.log
      calls := d.calls ++ [⟨source.key, .answered (.ok .refocused)⟩] } := by
  simp only [beginStart, valid, if_pos held]
  rfl

/-- The roster of a desk loses sessions, and gains new ones. -/
theorem Steady.move_roster (hs : d.Steady) (m : Move) :
    d.tails.length ≤ (d.move m).tails.length ∧ ∀ key n,
      KeyMap.get? key (d.move m).roster = some n →
        KeyMap.get? key d.roster = some n ∨ d.tails.length ≤ n := by
  have hinsert (k : Key) (key : Key) (n : Nat)
      (held : KeyMap.get? key (KeyMap.insert k d.tails.length d.roster) = some n) :
      KeyMap.get? key d.roster = some n ∨ d.tails.length ≤ n := by
    rw [KeyMap.get?_insert] at held
    split at held
    · exact .inr (Nat.le_of_eq (Option.some.inj held))
    · exact .inl held
  have hturns := hs.move_turns m
  generalize d.move m = d' at hturns
  cases hturns with
  | worked _ works =>
    have hwanes := wanes_of_works works
    refine ⟨Nat.le_of_not_lt fun shorter => ?_, fun key n held => .inl (hwanes.roster key n held)⟩
    obtain ⟨t, ht, -⟩ := hwanes.tails _ _ (List.getElem?_eq_getElem shorter)
    rw [List.getElem?_eq_none (Nat.le_refl _)] at ht
    cases ht
  | @begun source _ h =>
    cases h with
    | refused | refocused => exact ⟨Nat.le_refl _, fun _ _ held => .inl held⟩
    | outrun | entered => exact ⟨by simp, hinsert source.key⟩
  | unasked => exact ⟨Nat.le_refl _, fun _ _ held => .inl held⟩
  | finished _ _ _ h =>
    cases h with
    | opened => exact ⟨by simp, fun _ _ held => .inl held⟩
    | failed => exact ⟨by simp, fun _ _ held => .inl (get?_of_removeInstance held)⟩

/-- A session that is there and holds its key after a run holds it before. -/
theorem Steady.held_before (hs : d.Steady) (hn : n < d.tails.length) (ms : List Move)
    (still : KeyMap.get? key (d.moves ms).roster = some n) : KeyMap.get? key d.roster = some n := by
  induction ms generalizing d with
  | nil => exact still
  | cons m ms ih =>
    obtain ⟨hlength, hroster⟩ := hs.move_roster m
    have hnext := ih (hs.move m) (Nat.lt_of_lt_of_le hn hlength) still
    exact (hroster key n hnext).resolve_right (Nat.not_le.mpr hn)

theorem Steady.connectsFor_held (hs : d.Steady) (valid : source.check = .ok ()) (ms : List Move)
    (hn : n < d.tails.length) (still : KeyMap.get? source.key (d.moves ms).roster = some n) :
    d.connectsFor source.key ms = 0 := by
  induction ms generalizing d with
  | nil => rfl
  | cons m ms ih =>
    have held := hs.held_before hn (m :: ms) still
    have hrest := ih (hs.move m) (Nat.lt_of_lt_of_le hn (hs.move_roster m).1) still
    rw [connectsFor, hrest, Nat.add_zero]
    split
    · rename_i asks
      cases m with
      | start other =>
        have same : other.key = source.key := Option.some.inj asks
        have hvalid : other.check = .ok () := (Source.check_of_key same).trans valid
        have hheld : KeyMap.contains other.key d.roster = true := by
          rw [same]
          exact KeyMap.contains_iff.mpr ⟨n, held⟩
        simp [Desk.move, beginStart_held hvalid hheld]
      | _ => cases asks
    · rfl

/-! ### A key that is free -/

/-- Sessions that are added have called the service as often as their transports tell. -/
theorem opens_grown {more : List Tail} (tails : d'.tails = d.tails ++ more) :
    d'.opens = d.opens +
      ((more.filter (·.own)).map (·.session.transport)).foldr (fun t n => t.opens + n) 0 := by
  have hsum (transports : List Transport) (k : Nat) :
      transports.foldr (fun t n => t.opens + n) k =
        k + transports.foldr (fun t n => t.opens + n) 0 := by
    induction transports with
    | nil => rfl
    | cons t rest ih =>
      rw [List.foldr_cons, ih, List.foldr_cons]
      omega
  rw [opens, transports, tails, List.filter_append, List.map_append, List.foldr_append, hsum]
  exact Nat.add_comm _ _

/-- A request for a free key connects once. It fails before it has called the service, or
finds that someone else has taken the key meanwhile, or its session takes the key and calls
once. -/
theorem Steady.beginStart_free (hs : d.Steady) (valid : source.check = .ok ())
    (free : KeyMap.contains source.key d.roster = false) :
    let d' := d.beginStart source
    d'.connector.connects = d.connector.connects + 1 ∧
      ((∃ fault, d'.calls = d.calls ++ [⟨source.key, .answered (.error fault)⟩] ∧
          d'.opens = d.opens) ∨
        (d'.connector.connects ∈ d.connector.rivals ∧
          d'.calls = d.calls ++ [⟨source.key, .answered (.ok .refocused)⟩] ∧ d'.opens = d.opens) ∨
        ∃ n due, d'.calls = d.calls ++ [⟨source.key, .opening n due⟩] ∧
          d'.opens = d.opens + 1 ∧ KeyMap.get? source.key d'.roster = some n) := by
  intro d'
  have hbegun : Begun source d d' := beginStart_begun hs.room source
  generalize d' = d' at hbegun
  have hconnects {answer : Except Fault Transport} {connector : Connector}
      (connected : d.connector.connect = (answer, connector)) :
      connector.connects = d.connector.connects + 1 := by
    rw [← d.connector.connect_connects, connected]
  cases hbegun with
  | @refused fault _ why =>
    rcases why with ⟨invalid, -⟩ | ⟨-, connected⟩
    · rw [valid] at invalid
      cases invalid
    · exact ⟨hconnects connected, .inl ⟨fault, rfl, rfl⟩⟩
  | refocused held =>
    rw [free] at held
    cases held
  | @outrun transport _ _ taken _ connected =>
    have unopened := (Connector.connect_fresh connected).1.opens
    refine ⟨hconnects connected, .inr (.inl ⟨taken, rfl, ?_⟩)⟩
    rw [opens_grown rfl]
    simp [rivalOf, belated, Session.stop, Transport.close, unopened]
  | entered _ _ connected =>
    have unopened := (Connector.connect_fresh connected).1.opens
    refine ⟨hconnects connected, .inr (.inr ⟨_, _, rfl, ?_, by simp [KeyMap.get?_insert]⟩)⟩
    rw [opens_grown rfl]
    simp [Session.calling, Transport.beginOpen, unopened]

/-! ### A request that succeeds -/

/-- A request succeeds only when the service answers it. -/
theorem Steady.opened_by_answer (hs : d.Steady)
    (done : (d.move m).calls[c]? = some ⟨key, .answered (.ok .opened)⟩)
    (undone : d.calls[c]? ≠ some ⟨key, .answered (.ok .opened)⟩) : m = .answer c := by
  refine Classical.byContradiction fun other => ?_
  cases hc : d.calls[c]? with
  | some call =>
    have hsame := hs.meet_call hc (i := .move m) (by simpa using other)
    rw [hc] at undone
    exact undone (hsame.symm.trans done)
  | none =>
    -- a request that has just been made waits, or it did not succeed
    have hturns := hs.move_turns m
    generalize d.move m = d' at hturns done
    cases hturns with
    | worked _ works =>
      rw [(wanes_of_works works).calls, hc] at done
      cases done
    | begun h =>
      have hlength : d.calls.length ≤ c := List.getElem?_eq_none_iff.mp hc
      cases h <;>
      · rw [List.getElem?_append_right hlength] at done
        have hlast := List.mem_singleton.mp (List.mem_of_getElem? done)
        simp at hlast
    | unasked =>
      rw [hc] at done
      cases done
    | @finished c' _ _ _ _ _ _ _ h =>
      have hne : c' ≠ c := by
        rintro rfl
        exact other rfl
      cases h <;>
      · rw [answered_other hne, hc] at done
        cases done

/-- A request that has succeeded leaves its session running on the roster, with its document
in front. -/
theorem Intact.opened_shows (hs : d.Intact)
    (done : (d.move (.answer c)).calls[c]? = some ⟨key, .answered (.ok .opened)⟩)
    (undone : d.calls[c]? ≠ some ⟨key, .answered (.ok .opened)⟩) :
    let d' := d.move (.answer c)
    ∃ n t, Opens d.calls c n key ∧ KeyMap.get? key d'.roster = some n ∧
      d'.tails[n]? = some t ∧ t.session.phase = .running ∧ t.session.transport.opens = 1 ∧
      d'.workspace.focused = some key ∧ (d'.workspace.document? key).isSome ∧
      0 < d'.workspace.viewCount key := by
  intro d'
  change d'.calls[c]? = _ at done
  have hturns : Turns d (.answer c) d' := hs.move_turns (.answer c)
  generalize d' = d' at hturns done
  cases hturns with
  | worked other => cases other
  | unasked => exact absurd done undone
  | @finished _ n k t _ hc ht pending h =>
    obtain ⟨due, hcall⟩ := hc
    have hn : n < d.tails.length := (List.getElem?_eq_some_iff.mp ht).1
    cases h with
    | failed => simp [answered, hcall] at done
    | @opened stream transport workspace handles starting answer document =>
      obtain rfl : k = key := by simpa [answered, hcall] using done
      have live : t.session.phase.isLive = true := by rw [starting]; rfl
      have held : KeyMap.get? k d.roster = some n := pending.key ▸ hs.holding n t ht live
      obtain ⟨-, there, focused, shown⟩ := Workspace.openDocument_shows document
      have opens : transport.opens = 1 := by
        obtain rfl := congrArg Prod.snd answer
        have hopens := pending.orderly.answer.opens
        rwa [pending.orderly.live live] at hopens
      exact ⟨n, _, ⟨due, hcall⟩, held, List.getElem?_set_self hn, rfl, opens, focused, there, shown⟩

/-- What becomes of requests for sources that mean the same as one does. -/
structure Shares (source : Source) (d : Desk) : Prop where
  /-- A request that finds their key held is led to its document, and makes neither a
  connection nor a call. -/
  held : ∀ other, source.Alike other → KeyMap.contains source.key d.roster = true →
    let d' := d.move (.start other)
    d'.calls = d.calls ++ [⟨source.key, .answered (.ok .refocused)⟩] ∧
      d'.connector = d.connector ∧ d'.opens = d.opens ∧ d'.roster = d.roster ∧
      ((d.workspace.document? source.key).isSome →
        d'.workspace.focused = some source.key ∧ 0 < d'.workspace.viewCount source.key)
  /-- One that finds it free connects once. It fails before it has called the service, or is
  led to a document if someone else has taken the key while it connected, or it takes the key
  and calls once. -/
  free : ∀ other, source.Alike other → KeyMap.contains source.key d.roster = false →
    let d' := d.move (.start other)
    d'.connector.connects = d.connector.connects + 1 ∧
      ((∃ fault, d'.calls = d.calls ++ [⟨source.key, .answered (.error fault)⟩] ∧
          d'.opens = d.opens) ∨
        (d'.connector.connects ∈ d.connector.rivals ∧
          d'.calls = d.calls ++ [⟨source.key, .answered (.ok .refocused)⟩] ∧ d'.opens = d.opens) ∨
        ∃ n due, d'.calls = d.calls ++ [⟨source.key, .opening n due⟩] ∧
          d'.opens = d.opens + 1 ∧ KeyMap.get? source.key d'.roster = some n)
  /-- As long as a session holds the key no connection is made for it. -/
  unconnected : ∀ ms n, KeyMap.get? source.key d.roster = some n →
    KeyMap.get? source.key (d.moves ms).roster = some n → d.connectsFor source.key ms = 0
  /-- A request that succeeds leaves its session, which called once, running on the roster
  with its document in front. -/
  opened : ∀ m c, (d.move m).calls[c]? = some ⟨source.key, .answered (.ok .opened)⟩ →
    d.calls[c]? ≠ some ⟨source.key, .answered (.ok .opened)⟩ →
    let d' := d.move m
    ∃ n t, m = .answer c ∧ Opens d.calls c n source.key ∧
      KeyMap.get? source.key d'.roster = some n ∧ d'.tails[n]? = some t ∧
      t.session.phase = .running ∧ t.session.transport.opens = 1 ∧
      d'.workspace.focused = some source.key ∧ (d'.workspace.document? source.key).isSome ∧
      0 < d'.workspace.viewCount source.key

/-- Whatever moves a desk has made, also one that is not alone, requests for the same share
one session. -/
theorem requests_share_session (policy : Policy) (connector : Connector) (workspace : Workspace)
    (ms : List Move) (source : Source) (valid : source.check = .ok ()) :
    Shares source ((make policy connector workspace).moves ms) := by
  have hs := (intact_make policy connector workspace).moves ms
  generalize (make policy connector workspace).moves ms = d at hs
  refine {
    held := fun other alike held => ?_
    free := fun other alike free => ?_
    unconnected := fun ms' n held still => ?_
    opened := fun m c done undone => ?_ }
  · have hvalid := (Source.check_of_key alike.key).symm.trans valid
    rw [alike.key] at held ⊢
    simp only [Desk.move, beginStart_held hvalid held]
    exact ⟨trivial, trivial, rfl, trivial, Workspace.focusDocument_shows⟩
  · have hvalid := (Source.check_of_key alike.key).symm.trans valid
    rw [alike.key] at free ⊢
    exact hs.beginStart_free hvalid free
  · obtain ⟨t, ht, -⟩ := hs.listed _ n held
    exact hs.connectsFor_held valid ms' (List.getElem?_eq_some_iff.mp ht).1 still
  · obtain rfl := hs.opened_by_answer done undone
    obtain ⟨n, t, hrest⟩ := hs.opened_shows done undone
    exact ⟨n, t, rfl, hrest⟩

/-- A second request, with a pattern that trims to nothing, meets the first before the
service has answered it. -/
theorem early_request_shared :
    let source : Source := { region := "eu-west-1", group := "app" }
    let other : Source := { source with pattern := some " " }
    let d := (make ⟨100, 1000, false⟩ {} {}).moves [.start source]
    (d.move (.start other)).calls = d.calls ++ [⟨source.key, .answered (.ok .refocused)⟩] ∧
      (d.move (.start other)).connector = d.connector ∧
      d.connectsFor source.key [.start other, .answer 0] = 0 ∧
      0 < (d.move (.answer 0)).workspace.viewCount source.key := by
  intro source other d
  have shares : Shares source d :=
    requests_share_session ⟨100, 1000, false⟩ {} {} [.start source] source (by decide)
  have alike : source.Alike other := Source.alike_iff.mpr (by decide)
  have held : KeyMap.get? source.key d.roster = some 0 := by decide
  have still : KeyMap.get? source.key (d.moves [.start other, .answer 0]).roster = some 0 := by decide
  obtain ⟨hcalls, hconnector, -⟩ := shares.held other alike (KeyMap.contains_iff.mpr ⟨0, held⟩)
  have waiting : d.calls[0]? = some ⟨source.key, .opening 0 0⟩ := by
    simp only [d, source]
    rfl
  have done : (d.move (.answer 0)).calls[0]? = some ⟨source.key, .answered (.ok .opened)⟩ := by
    simp only [d, source]
    rfl
  obtain ⟨n, t, -, -, -, -, -, -, -, -, shown⟩ :=
    shares.opened (.answer 0) 0 done (by rw [waiting]; simp)
  exact ⟨hcalls, hconnector, shares.unconnected _ 0 held still, shown⟩

end Desk

end LogTail
