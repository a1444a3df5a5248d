import LogTail.Proofs.Foreign
import LogTail.Proofs.Supply

/-!
# Who draws on a channel

Besides those who send into it, a channel is changed by the session that reads it, or that
will read it once it is opened. No two sessions share one if none did in the beginning,
whoever else acts on the desk, so what is sent to a session waits there for it alone.
-/
namespace LogTail

theorem Channel.getElem?_release {number : Option Nat} {c : Nat} (other : number ≠ some c)
    (channels : List Channel) : (release number channels)[c]? = channels[c]? := by
  cases number with
  | none => rfl
  | some n =>
    have hne : n ≠ c := fun h => other (congrArg some h)
    exact List.getElem?_modify_ne _ channels hne

namespace Desk

variable {d d' : Desk} {c n : Nat} {t : Tail} {k key : Key} {source : Source}

/-! ### What the halves of a start release -/

theorem undrawn_stopSession (n : Nat) (d : Desk) : Undrawn d (d.stopSession n).2 := by
  unfold stopSession
  cases ht : d.tails[n]? with
  | none => exact .refl d
  | some t => exact undrawn_put ht (pipe_stop d.now t)

/-- A start that comes too late for its key drops the script that it was given. -/
theorem beginStart_channels (room : 0 < d.policy.budget) (source : Source) :
    (d.beginStart source).channels = d.channels ∨ (d.beginStart source).channels =
      Channel.release (d.connector.scripts.headD .silent).channel? d.channels := by
  simp only [beginStart]
  cases valid : source.check with
  | error fault => exact .inl rfl
  | ok u =>
    by_cases held : KeyMap.contains source.key d.roster
    · simp only [if_pos held]
      exact .inl rfl
    · have free := KeyMap.get?_of_not_contains held
      simp only [if_neg held]
      cases connected : d.connector.connect with
      | mk answer connector =>
      cases answer with
      | error fault => exact .inl rfl
      | ok transport =>
        have hchannel : transport.channel? = (d.connector.scripts.headD .silent).channel? := by
          rw [Transport.channel?, (Connector.connect_ok connected).1]
          rfl
        have hmake := make_valid valid room transport
        by_cases taken : connector.connects ∈ connector.rivals
        · have hrival := admitRival_taken (d := { d with connector }) valid free taken
          have hheld : KeyMap.contains source.key
              (KeyMap.insert source.key d.tails.length d.roster) = true := by
            simp [KeyMap.contains, KeyMap.get?_insert]
          simp only [hrival, hmake]
          rw [enter_held _ hheld, ← hchannel]
          exact .inr rfl
        · simp only [admitRival, if_neg taken, hmake, enter, Roster.register, if_neg held]
          exact .inl rfl

/-- A start that has failed drops the stream, or the script that it was to be made from. -/
theorem finishStart_channels (hc : Opens d.calls c n key) (ht : d.tails[n]? = some t)
    (called : t.session.phase = .starting ∨ t.session.phase = .stopped) :
    (d.finishStart c).channels = d.channels ∨
      (d.finishStart c).channels = Channel.release t.session.transport.channel? d.channels := by
  obtain ⟨due, hc⟩ := hc
  simp only [finishStart, hc, ht]
  rcases called with starting | stopped
  · cases answer : t.session.transport.finishOpen with
    | mk result transport =>
    cases result with
    | error fault =>
      simp only [Session.finishStartOn_error answer]
      exact .inr rfl
    | ok stream =>
      have hchannel : stream.channel? = t.session.transport.channel? :=
        channel?_finishOpen (congrArg Prod.fst answer)
      simp only [Session.finishStartOn_ok starting answer, welcome, ← hchannel]
      split
      · exact .inr (congrArg (Channel.release stream.channel?) (undrawn_stopSession n _).channels)
      · exact .inl rfl
  · obtain ⟨fault, hfin⟩ := Session.finishStartOn_stopped stopped d.now d.channels
    simp only [hfin]
    exact .inr rfl

/-! ### What a pull draws on -/

theorem takeItem_channels (n : Nat) (t : Tail) (f : Feed) (i : Item) (d : Desk) :
    (d.takeItem n t f i).channels = d.channels ∨
      (d.takeItem n t f i).channels = Channel.release f.stream.channel? d.channels := by
  cases outcome : ({ document := (d.workspace.document? t.key).getD {}, tally := f.tally } :
      Pump).take t.session.budget t.session.cancelled (some i) with
  | mk exit p =>
  simp only [takeItem, outcome]
  cases exit with
  | none => exact .inl rfl
  | some exit => exact .inr (endFeed_pipes n t { f with tally := p.tally } exit _).2.1

theorem getElem?_of_released {number : Option Nat}
    (h : d'.channels = d.channels ∨ d'.channels = Channel.release number d.channels)
    (other : number ≠ some c) : d'.channels[c]? = d.channels[c]? := by
  rcases h with h | h
  · rw [h]
  · rw [h, Channel.getElem?_release other]

/-- A pull touches the channel of its own stream only. -/
theorem pull_channels (ht : d.tails[n]? = some t) (apart : c ∉ channelsOf t.pipe) :
    (d.pull n).channels[c]? = d.channels[c]? := by
  have hown {f : Feed} (hf : t.feed = some f) : f.stream.channel? ≠ some c := by
    intro hc
    exact apart (by simp [channelsOf, Tail.pipe, hf, hc])
  have hpulls := pull_pulls n d
  generalize d.pull n = d' at hpulls
  cases hpulls with
  | idle => rfl
  | cancelled ht' hf =>
    cases ht.symm.trans ht'
    rw [(endFeed_pipes n t _ .cancelled d).2.1, Channel.getElem?_release (hown hf)]
  | waits ht' hf _ _ poll =>
    cases ht.symm.trans ht'
    exact (Stream.poll_polled poll).others c (hown hf)
  | @closed _ f stream channels ht' hf _ _ poll =>
    cases ht.symm.trans ht'
    have hpoll := Stream.poll_polled poll
    have hother : stream.channel? ≠ some c := hpoll.channel ▸ hown hf
    rw [(endFeed_pipes n t _ .closed _).2.1, Channel.getElem?_release hother]
    exact hpoll.others c (hown hf)
  | @item _ f stream channels i ht' hf _ _ poll =>
    cases ht.symm.trans ht'
    have hpoll := Stream.poll_polled poll
    have hother : stream.channel? ≠ some c := hpoll.channel ▸ hown hf
    have htaken := takeItem_channels n t { f with stream } i { d with channels }
    exact (getElem?_of_released htaken hother).trans (hpoll.others c (hown hf))

/-! ### No channel comes to have two readers -/

theorem length_of_released {number : Option Nat}
    (h : d'.channels = d.channels ∨ d'.channels = Channel.release number d.channels) :
    d'.channels.length = d.channels.length := by
  rcases h with h | h
  · rw [h]
  · rw [h, Channel.length_release]

/-- The script that a session was given had no reader before. -/
theorem Supplied.connect (hp : d.Supplied) (source : Source) {transport : Transport}
    {connector : Connector} (connected : d.connector.connect = (.ok transport, connector)) :
    ({ d with
      connector
      tails := d.tails ++ [{ session := .calling source d.policy.budget transport d.now }] } :
        Desk).Supplied := by
  obtain ⟨hscript, hscripts⟩ := Connector.connect_ok connected
  have hflow : Flow d (.start source) { d with
      connector
      tails := d.tails ++ [{ session := .calling source d.policy.budget transport d.now }] } := by
    refine .connected hscripts ?_ rfl
    simp [pipes, Tail.pipe, Session.calling, Transport.beginOpen, hscript]
  exact hflow.supplied hp

theorem supplied_beginStart (room : 0 < d.policy.budget) (hp : d.Supplied) (source : Source) :
    (d.beginStart source).Supplied := by
  have hlength := length_of_released (beginStart_channels room source)
  have hbegun := beginStart_begun room source
  generalize d.beginStart source = d' at hbegun hlength
  cases hbegun with
  | @refused fault connector why =>
    have hscripts : connector.scripts = d.connector.scripts := by
      rcases why with ⟨-, rfl⟩ | ⟨-, connected⟩
      · rfl
      · exact (Connector.connect_error connected).1
    refine hp.of_sublist ?_ hlength
    simp only [readers, hscripts]
    exact .refl _
  | refocused => exact hp.of_sublist (.refl _) hlength
  | @outrun transport connector channels taken free connected =>
    -- the session of someone else reads no channel, and the belated one reads that of its script
    refine (hp.connect source connected).of_perm (.of_eq ?_) hlength
    have hrival : channelsOf (rivalOf source).pipe = [] := rfl
    have hbelated :
        (belated source d.policy.budget transport d.now).pipe = (transport.script, none) :=
      pipe_stop d.now { session := { source, budget := d.policy.budget, transport } }
    have hcalling : Tail.pipe { session := .calling source d.policy.budget transport d.now } =
      (transport.script, none) := rfl
    simp [readers, pipes, hrival, hbelated, hcalling]
  | @entered transport connector valid free connected =>
    exact (hp.connect source connected).of_sublist (.refl _) rfl

theorem Steady.supplied_meet (hs : d.Steady) (hp : d.Supplied) (i : Incident) :
    (d.meet i).Supplied := by
  cases i with
  | unlist k => exact hp.of_sublist (.refl _) rfl
  | halt k =>
    simp only [Desk.meet, serve]
    split
    · exact hp
    · exact (undrawn_stopSession _ d).supplied hp
  | move m =>
    by_cases request : m.isRequest = false
    · exact (aside_flow request d).supplied hp
    cases m with
    | start source => exact supplied_beginStart hs.room hp source
    | answer c =>
      have hturns := hs.move_turns (.answer c)
      simp only [Desk.meet]
      generalize d.move (.answer c) = d' at hturns
      cases hturns with
      | worked other => exact absurd other request
      | unasked => exact hp
      | finished hc ht pending h => exact (h.flow ht pending.unfed).supplied hp
    | _ => exact absurd rfl request

theorem Steady.supplied_meets (hs : d.Steady) (hp : d.Supplied) (is : List Incident) :
    (d.meets is).Supplied := by
  induction is generalizing d with
  | nil => exact hp
  | cons i is ih => exact ih (hs.meet i) (hs.supplied_meet hp i)

end Desk

end LogTail
