import LogTail.Proofs.Moves

/-!
# What moves do to streams

A pull hands over what its stream holds first. Apart from pulls, only an answer that opens
a session and an item that is sent do anything to what streams hold.
-/
namespace LogTail

def Pull.items : Pull → List Item
  | .item i => [i]
  | .ended | .waits => []

namespace Stream

/-- What a stream holds, in the order in which it will be pulled. -/
def stock (channels : List Channel) : Stream → List Item
  | scripted items _ waiting => (waiting.toList ++ items).map (·.2)
  | channel c => (channels[c]?).elim [] Channel.items

variable {s s' : Stream} {channels channels' : List Channel} {found : Pull} {now : Nat}

/-- A pull hands over what is first in stock, or nothing; the stream goes on reading the
channel that it reads, and no other is touched. -/
structure Polled (channels : List Channel) (s : Stream) (found : Pull) (s' : Stream)
    (channels' : List Channel) : Prop where
  stock : found.items ++ s'.stock channels' = s.stock channels
  channel : s'.channel? = s.channel?
  length : channels'.length = channels.length
  others : ∀ c, s.channel? ≠ some c → channels'[c]? = channels[c]?

theorem pollChannel_items (c : Channel) :
    (pollChannel false c).1.items ++ (pollChannel false c).2.items = c.items := by
  cases hi : c.items with
  | nil => cases hsend : c.sending <;> simp [pollChannel, hi, hsend, Pull.items]
  | cons i rest => simp [pollChannel, hi, Pull.items]

theorem poll_polled (h : s.poll now false channels = (found, s', channels')) :
    Polled channels s found s' channels' := by
  cases s with
  | channel n =>
    simp only [poll] at h
    cases hc : channels[n]? with
    | none =>
      simp only [hc] at h
      cases h
      exact ⟨rfl, rfl, rfl, fun _ _ => rfl⟩
    | some c =>
      have hn : n < channels.length := (List.getElem?_eq_some_iff.mp hc).1
      simp only [hc] at h
      cases h
      refine ⟨?_, rfl, by simp, fun j hj => ?_⟩
      · simpa [stock, List.getElem?_set_self hn, hc] using pollChannel_items c
      · have hne : n ≠ j := fun he => hj (by rw [he]; rfl)
        exact List.getElem?_set_ne hne
  | scripted items held waiting =>
    cases waiting with
    | some w =>
      obtain ⟨due, i⟩ := w
      simp only [poll] at h
      by_cases come : due ≤ now
      · simp only [come, if_true] at h
        cases h
        exact ⟨rfl, rfl, rfl, fun _ _ => rfl⟩
      · simp only [come, if_false] at h
        cases h
        exact ⟨rfl, rfl, rfl, fun _ _ => rfl⟩
    | none =>
      cases items with
      | nil =>
        cases held <;>
        · cases h
          exact ⟨rfl, rfl, rfl, fun _ _ => rfl⟩
      | cons first rest =>
        obtain ⟨delay, i⟩ := first
        simp only [poll] at h
        by_cases come : delay = 0
        · simp only [come, if_true] at h
          cases h
          exact ⟨rfl, rfl, rfl, fun _ _ => rfl⟩
        · simp only [come, if_false] at h
          cases h
          exact ⟨rfl, rfl, rfl, fun _ _ => rfl⟩

/-- The stock depends on the channel that the stream reads. -/
theorem stock_congr (h : ∀ c, s.channel? = some c →
    (channels'[c]?).map Channel.items = (channels[c]?).map Channel.items) :
    s.stock channels' = s.stock channels := by
  cases s with
  | scripted => rfl
  | channel c =>
    have hc := h c rfl
    simp only [stock]
    cases hnew : channels'[c]? <;> cases hold : channels[c]? <;> simp_all

end Stream

/-- What concerns streams in a session: the script that its transport still holds, and
its feed. -/
def Tail.pipe (t : Tail) : Option Script × Option Feed := (t.session.transport.script, t.feed)

namespace Desk

variable {d d' : Desk} {n : Nat} {t t' : Tail} {key : Key} {reason : StopReason}

def pipes (d : Desk) : List (Option Script × Option Feed) := d.tails.map Tail.pipe

/-- Nothing was done to a stream, to a script or to a channel. -/
structure Undrawn (d d' : Desk) : Prop where
  scripts : d'.connector.scripts = d.connector.scripts
  channels : d'.channels = d.channels
  pipes : d'.pipes = d.pipes

namespace Undrawn

theorem refl (d : Desk) : Undrawn d d := ⟨rfl, rfl, rfl⟩

theorem trans {d'' : Desk} (h : Undrawn d d') (h' : Undrawn d' d'') : Undrawn d d'' :=
  ⟨h'.scripts.trans h.scripts, h'.channels.trans h.channels, h'.pipes.trans h.pipes⟩

end Undrawn

theorem pipes_set (ht : d.tails[n]? = some t) (same : t'.pipe = t.pipe) :
    (d.tails.set n t').map Tail.pipe = d.tails.map Tail.pipe := by
  obtain ⟨hn, hget⟩ := List.getElem?_eq_some_iff.mp ht
  have hn' : n < (d.tails.map Tail.pipe).length := by simpa using hn
  have hsame : t'.pipe = (d.tails.map Tail.pipe)[n] := by
    rw [List.getElem_map, hget, same]
  rw [List.map_set, hsame, List.set_getElem_self]

theorem undrawn_put (ht : d.tails[n]? = some t) (same : t'.pipe = t.pipe) :
    Undrawn d (d.put n t') :=
  ⟨rfl, rfl, pipes_set ht same⟩

theorem pipe_stop (now : Nat) (t : Tail) :
    Tail.pipe { t with session := (t.session.stop now).2 } = t.pipe := by
  unfold Tail.pipe Session.stop
  split <;> rfl

theorem undrawn_teardown (n : Nat) (reason : StopReason) (d : Desk) :
    Undrawn d (d.teardown n reason).2 := by
  have htears := teardown_tearsDown n reason d
  generalize (d.teardown n reason).2 = d' at htears
  cases htears with
  | absent => exact .refl d
  | @again t ht | @first t ht => exact ⟨rfl, rfl, pipes_set ht (pipe_stop d.now t)⟩

theorem undrawn_teardowns : Teardowns Undrawn := ⟨.refl, .trans, undrawn_teardown⟩

theorem undrawn_arm (n : Nat) (d : Desk) : Undrawn d (d.arm n) := by
  have harms := arm_arms n d
  generalize d.arm n = d' at harms
  cases harms with
  | idle => exact .refl d
  | armed ht => exact undrawn_put ht rfl

theorem undrawn_tick (n : Nat) (d : Desk) : Undrawn d (d.tick n) := by
  have hticks := tick_ticks n d
  generalize d.tick n = d' at hticks
  cases hticks with
  | idle => exact .refl d
  | ended ht => exact undrawn_put ht rfl
  | told ht => exact ⟨rfl, rfl, pipes_set ht rfl⟩

theorem undrawn_clear (key : Key) (d : Desk) : Undrawn d (d.clear key).2 := by
  have hclears := clear_clears key d
  generalize (d.clear key).2 = d' at hclears
  cases hclears with
  | idle => exact .refl d
  | cleared => exact ⟨rfl, rfl, rfl⟩

/-- What a move comes to for the streams. -/
inductive Flow (d : Desk) : Move → Desk → Prop where
  | still {m : Move} {d' : Desk} (h : Undrawn d d') (untaken : d.taken? m = none)
      (unsent : ∀ c i, m ≠ .send c i) : Flow d m d'
  | sent (c : Nat) (i : Item) : Flow d (.send c i) (d.onChannel c (Channel.send i))
  | shut (c : Nat) : Flow d (.closeSender c) (d.onChannel c fun ch => { ch with sending := false })
  | provided (plan : Plan) : Flow d (.provide plan) (d.provide plan)
  | connected {source : Source} {d' : Desk} (scripts : d'.connector.scripts = d.connector.scripts.tail)
      (pipes : d'.pipes = d.pipes ++ [(some (d.connector.scripts.headD .silent), none)])
      (channels : d'.channels = d.channels) : Flow d (.start source) d'
  | answered {c n : Nat} {d' : Desk} {script : Option Script} (feed : Option Feed)
      (number : Option Nat) (pipe : d.pipes[n]? = some (script, none)) (pipes : d'.pipes = d.pipes.set n (none, feed))
      (from_script : ∀ f, feed = some f → f.stream.channel? = script.bind Script.channel?)
      (scripts : d'.connector.scripts = d.connector.scripts)
      (channels : d'.channels = Channel.release number d.channels) : Flow d (.answer c) d'
  | pulled {n : Nat} {d' : Desk} {script : Option Script} {f : Feed} {channels : List Channel}
      (f' : Feed) (number : Option Nat) (found : Option Item) (pipe : d.pipes[n]? = some (script, some f))
      (going : f.report = none) (pipes : d'.pipes = d.pipes.set n (script, some f'))
      (taken : d.taken? (.pull n) = found.map fun i => (n, i))
      (stock : found.toList ++ f'.stream.stock channels = f.stream.stock d.channels)
      (same : f'.stream.channel? = f.stream.channel?) (length : channels.length = d.channels.length)
      (others : ∀ c, f.stream.channel? ≠ some c → channels[c]? = d.channels[c]?)
      (scripts : d'.connector.scripts = d.connector.scripts)
      (released : d'.channels = Channel.release number channels) : Flow d (.pull n) d'

theorem pipes_getElem? (ht : d.tails[n]? = some t) : d.pipes[n]? = some t.pipe := by
  simp [pipes, ht]

/-- A stream reads the channel of the script that it was made from. -/
theorem channel?_finishOpen {transport : Transport} {stream : Stream}
    (h : transport.finishOpen.1 = .ok stream) :
    stream.channel? = transport.script.bind Script.channel? := by
  unfold Transport.finishOpen at h
  split at h <;> cases h
  · rename_i he
    rw [he]
    rfl
  · rename_i he
    rw [he]
    rfl

theorem Sound.start_flow (hs : d.Sound) (source : Source) :
    Flow d (.start source) (d.move (.start source)) := by
  rcases hs.start_acts source with ⟨key, notice, h⟩ | ⟨n, key, h⟩
  all_goals generalize d.move (.start source) = d' at h
  · cases h with
    | refused key fault rivals scripts => exact .still ⟨scripts, rfl, rfl⟩ rfl nofun
    | refocused held => exact .still ⟨rfl, rfl, rfl⟩ rfl nofun
  · cases h with
    | entered valid free connected =>
      obtain ⟨hscript, hscripts⟩ := Connector.connect_ok connected
      refine .connected hscripts ?_ rfl
      simp [pipes, Tail.pipe, Session.calling, Transport.beginOpen, hscript]

/-- The service answers for a session that has no feed yet. -/
theorem Finished.flow {c : Nat} (h : Finished c n key t d d') (ht : d.tails[n]? = some t)
    (unfed : t.feed = none) : Flow d (.answer c) d' := by
  have hpipe : d.pipes[n]? = some (t.session.transport.script, none) := by
    rw [pipes_getElem? ht, Tail.pipe, unfed]
  cases h with
  | @opened stream transport workspace handles starting answer document =>
    have hscript : transport.script = none := by
      have he := congrArg (fun x => x.2.script) answer
      exact he.symm
    have hchannel := channel?_finishOpen (congrArg Prod.fst answer)
    refine .answered (some { stream }) none hpipe ?_ (fun f hf => ?_) rfl rfl
    · simp [pipes, List.map_set, Tail.pipe, hscript]
    · cases hf
      exact hchannel
  | failed fault number =>
    refine .answered none number hpipe ?_ (fun f hf => by cases hf) rfl rfl
    have hforsaken : (t.forsake d.now).pipe = (none, none) := by
      refine (pipe_stop d.now { t with
        session := { t.session with transport := t.session.transport.finishOpen.2 } }).trans ?_
      rw [Tail.pipe, unfed]
      rfl
    simp [pipes, List.map_set, hforsaken]

theorem Sound.answer_flow (hs : d.Sound) (c : Nat) :
    Flow d (.answer c) (d.move (.answer c)) := by
  by_cases asked : ∃ n key, Opens d.calls c n key
  · obtain ⟨n, key, hc⟩ := asked
    obtain ⟨t, ht, -, unfed, called⟩ := hs.called hc
    exact (finishStart_finished hc ht called).flow ht unfed
  · rw [Desk.move, finishStart_unasked fun n key hc => asked ⟨n, key, hc⟩]
    exact .still (.refl d) rfl (by simp)

/-- A feed that ends keeps its stream, whose channel is no longer read. -/
theorem endFeed_pipes (n : Nat) (t : Tail) (f : Feed) (exit : Exit) (d : Desk) :
    (d.endFeed n t f exit).connector.scripts = d.connector.scripts ∧
      (d.endFeed n t f exit).channels = Channel.release f.stream.channel? d.channels ∧
      (d.endFeed n t f exit).pipes = d.pipes.set n
        (t.session.transport.script, some { f with report := some ⟨exit, f.tally⟩ }) := by
  have hpipe : Tail.pipe { t with feed := some { f with report := some ⟨exit, f.tally⟩ } } =
    (t.session.transport.script, some { f with report := some ⟨exit, f.tally⟩ }) := rfl
  have h := undrawn_teardown n .streamEnded { d with
    channels := Channel.release f.stream.channel? d.channels
    tails := d.tails.set n { t with feed := some { f with report := some ⟨exit, f.tally⟩ } } }
  refine ⟨h.scripts, h.channels, h.pipes.trans ?_⟩
  rw [pipes, List.map_set, hpipe]
  rfl

theorem pull_flow (n : Nat) (d : Desk) : Flow d (.pull n) (d.pull n) := by
  have hpulls := pull_pulls n d
  have unsent : ∀ c i, Move.pull n ≠ .send c i := by simp
  have hpipe {t : Tail} {f : Feed} (ht : d.tails[n]? = some t) (hf : t.feed = some f) :
      d.pipes[n]? = some (t.session.transport.script, some f) := by
    rw [pipes_getElem? ht, Tail.pipe, hf]
  generalize d.pull n = d' at hpulls
  cases hpulls with
  | idle unpulled => exact .still (.refl d) (taken?_unpulled unpulled) unsent
  | @cancelled t f ht hf going fired unpulled =>
    obtain ⟨hscripts, hchannels, hpipes⟩ := endFeed_pipes n t f .cancelled d
    exact .pulled _ _ none (hpipe ht hf) going hpipes (taken?_unpulled unpulled) rfl rfl rfl
      (fun _ _ => rfl) hscripts hchannels
  | @waits t f stream channels ht hf going unfired poll untaken =>
    have hpoll := Stream.poll_polled poll
    refine .pulled { f with stream } none none (hpipe ht hf) going ?_ untaken hpoll.stock
      hpoll.channel hpoll.length hpoll.others rfl rfl
    simp [pipes, put, List.map_set, Tail.pipe]
  | @closed t f stream channels ht hf going unfired poll untaken =>
    have hpoll := Stream.poll_polled poll
    obtain ⟨hscripts, hchannels, hpipes⟩ :=
      endFeed_pipes n t { f with stream } .closed { d with channels }
    exact .pulled _ _ none (hpipe ht hf) going hpipes untaken hpoll.stock hpoll.channel hpoll.length
      hpoll.others hscripts hchannels
  | @item t f stream channels i ht hf going unfired poll taken =>
    have hpoll := Stream.poll_polled poll
    cases outcome : ({ document := (d.workspace.document? t.key).getD {}, tally := f.tally } : Pump).take
      t.session.budget t.session.cancelled (some i) with
    | mk exit p =>
    simp only [takeItem, outcome]
    cases exit with
    | none =>
      refine .pulled { f with stream, tally := p.tally } none (some i) (hpipe ht hf) going ?_ taken
        hpoll.stock hpoll.channel hpoll.length hpoll.others rfl rfl
      simp [pipes, put, List.map_set, Tail.pipe]
    | some exit =>
      obtain ⟨hscripts, hchannels, hpipes⟩ := endFeed_pipes n t { f with stream, tally := p.tally } exit
        { d with
          channels
          workspace := d.workspace.onDocument t.key fun _ => p.document
          log := (p.notices.map fun x => (t.key, x)).reverse ++ d.log }
      exact .pulled _ _ (some i) (hpipe ht hf) going hpipes taken hpoll.stock hpoll.channel
        hpoll.length hpoll.others hscripts hchannels

/-- Whoever else acts on the desk, one of these happens to its streams at every move but a
request and its answer. -/
theorem aside_flow {m : Move} (other : m.isRequest = false) (d : Desk) : Flow d m (d.move m) := by
  cases m with
  | start | answer => cases other
  | pull n => exact pull_flow n d
  | send c i => exact .sent c i
  | closeSender c => exact .shut c
  | provide plan => exact .provided plan
  | stop key => exact .still (undrawn_teardowns.stopKey key .explicit d) rfl nofun
  | stopAll => exact .still (undrawn_teardowns.stopKeys _ d) rfl nofun
  | stopUnviewed => exact .still (undrawn_teardowns.stopUnviewedAmong _ d) rfl nofun
  | clear key => exact .still (undrawn_clear key d) rfl nofun
  | arm n => exact .still (undrawn_arm n d) rfl nofun
  | tick n => exact .still (undrawn_tick n d) rfl nofun
  | wake n => exact .still (undrawn_teardowns.wake (fun _ _ => ⟨rfl, rfl, rfl⟩) n d) rfl nofun
  | drop => exact .still (undrawn_teardowns.drop d ⟨rfl, rfl, rfl⟩) rfl nofun
  | await | watch | pass | cut | openView | closeView | scroll =>
    exact .still ⟨rfl, rfl, rfl⟩ rfl nofun

/-- Whatever move a sound desk makes, one of these happens to its streams. -/
theorem Sound.move_flow (hs : d.Sound) (m : Move) : Flow d m (d.move m) := by
  by_cases request : m.isRequest = false
  · exact aside_flow request d
  cases m with
  | start source => exact hs.start_flow source
  | answer c => exact hs.answer_flow c
  | _ => exact absurd rfl request

end Desk

end LogTail
