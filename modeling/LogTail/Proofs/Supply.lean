import LogTail.Proofs.Flow
import Mathlib.Data.List.Nodup

/-!
# What streams supply

The items that a feed has taken, followed by those that its stream still holds, are what
the stream was given, in the order it was given them. For this no two readers may share a
channel, and none do if none shared one in the beginning.
-/
namespace LogTail

/-- The records of an item that is an update. -/
def Item.update? : Item → Option (Bool × List Record)
  | .frame (.update sampled records) => some (sampled, records)
  | _ => none

/-- The channels that a session reads, or will read once it is opened. -/
def channelsOf (p : Option Script × Option Feed) : List Nat :=
  (p.1.bind Script.channel?).toList ++ (p.2.bind fun f => f.stream.channel?).toList

theorem flatMap_set_sublist {α β : Type} {f : α → List β} {l : List α} {n : Nat} {a b : α}
    (h : l[n]? = some a) (hab : (f b).Sublist (f a)) :
    ((l.set n b).flatMap f).Sublist (l.flatMap f) := by
  induction l generalizing n with
  | nil => cases h
  | cons x l ih =>
    cases n with
    | zero =>
      cases h
      simp only [List.set_cons_zero, List.flatMap_cons]
      exact hab.append (.refl _)
    | succ n =>
      simp only [List.set_cons_succ, List.flatMap_cons]
      exact (List.Sublist.refl _).append (ih h)

namespace Desk

variable {d d' : Desk} {m : Move} {n : Nat} {key : Key}

/-- The channels that are or will be read, of the scripts to come and of all sessions. -/
def readers (d : Desk) : List Nat :=
  d.connector.scripts.filterMap Script.channel? ++ d.pipes.flatMap channelsOf

/-- No channel has two readers. -/
structure Supplied (d : Desk) : Prop where
  apart : d.readers.Nodup
  there : ∀ c ∈ d.readers, c < d.channels.length

/-- The stream that the feed of a session reads. -/
def stream? (n : Nat) (d : Desk) : Option Stream :=
  (d.tails[n]?.bind (·.feed)).map (·.stream)

/-- What the stream of a session holds. -/
def stock (n : Nat) (d : Desk) : List Item := (d.stream? n).elim [] (Stream.stock d.channels)

/-- What a move gives to the stream of a session: all that the stream holds when the feed
begins, and from then on what is sent into its channel while that takes items. -/
def gives (n : Nat) (m : Move) (d : Desk) : List Item :=
  match d.stream? n, m with
  | none, _ => (d.move m).stock n
  | some (.channel c), .send c' i =>
    if c = c' ∧ (d.channels[c]?).any Channel.accepts then [i] else []
  | _, _ => []

/-- What a run gives to the stream of a session. -/
def given (n : Nat) : List Move → Desk → List Item
  | [], _ => []
  | m :: ms, d => d.gives n m ++ given n ms (d.move m)

def takes (n : Nat) (m : Move) (d : Desk) : List Item :=
  match d.taken? m with
  | some (k, i) => if k = n then [i] else []
  | none => []

/-- What the feed of a session takes over a run. -/
def taken (n : Nat) : List Move → Desk → List Item
  | [], _ => []
  | m :: ms, d => d.takes n m ++ taken n ms (d.move m)

namespace Supplied

theorem of_sublist (hs : d.Supplied) (h : d'.readers.Sublist d.readers)
    (length : d'.channels.length = d.channels.length) : d'.Supplied where
  apart := hs.apart.sublist h
  there c hc := by
    rw [length]
    exact hs.there c (h.subset hc)

/-- Two sessions read different channels. -/
theorem distinct (hs : d.Supplied) {k : Nat} {p q : Option Script × Option Feed} {c : Nat}
    (hp : d.pipes[k]? = some p) (hq : d.pipes[n]? = some q) (hne : k ≠ n) (hc : c ∈ channelsOf p) :
    c ∉ channelsOf q := by
  intro hc'
  have hflat := List.Nodup.of_append_right hs.apart
  have hpairs := (List.nodup_flatMap.mp hflat).2
  rw [List.pairwise_iff_getElem] at hpairs
  obtain ⟨hk, rfl⟩ := List.getElem?_eq_some_iff.mp hp
  obtain ⟨hn, rfl⟩ := List.getElem?_eq_some_iff.mp hq
  rcases Nat.lt_or_gt_of_ne hne with hlt | hlt
  · exact hpairs k n hk hn hlt hc hc'
  · exact hpairs n k hn hk hlt hc' hc

end Supplied

theorem Supplied.of_perm (hs : d.Supplied) (h : d'.readers.Perm d.readers)
    (length : d'.channels.length = d.channels.length) : d'.Supplied where
  apart := h.nodup_iff.mpr hs.apart
  there c hc := by
    rw [length]
    exact hs.there c (h.mem_iff.mp hc)

theorem supplied_make (policy : Policy) (connector : Connector) (workspace : Workspace)
    (unshared : ∀ s ∈ connector.scripts, s.channel? = none) :
    (make policy connector workspace).Supplied := by
  have hnone : (make policy connector workspace).readers = [] := by
    simp [readers, pipes, make]
    exact unshared
  exact ⟨by simp [hnone], by simp [hnone]⟩

/-- A channel that is laid is new. -/
theorem Supplied.provide (hs : d.Supplied) (plan : Plan) : (d.provide plan).Supplied := by
  cases plan with
  | refuse fault => exact hs.of_perm (.of_eq (by simp [readers, Desk.provide, Plan.lay, Script.channel?, pipes])) rfl
  | scripted items held =>
    exact hs.of_perm (.of_eq (by simp [readers, Desk.provide, Plan.lay, Script.channel?, pipes])) rfl
  | channel items =>
    have hreaders : (d.provide (.channel items)).readers.Perm (d.channels.length :: d.readers) := by
      have he : (d.provide (.channel items)).readers =
          d.connector.scripts.filterMap Script.channel? ++
            d.channels.length :: d.pipes.flatMap channelsOf := by
        simp [readers, Desk.provide, Plan.lay, Script.channel?, pipes]
      rw [he]
      exact List.perm_middle
    have hlength : (d.provide (.channel items)).channels.length = d.channels.length + 1 := by
      simp [Desk.provide, Plan.lay]
    have hnew : d.channels.length ∉ d.readers := fun hc => Nat.lt_irrefl _ (hs.there _ hc)
    exact {
      apart := hreaders.nodup_iff.mpr (List.nodup_cons.mpr ⟨hnew, hs.apart⟩)
      there := by
        intro c hc
        rw [hlength]
        rcases List.mem_cons.mp (hreaders.mem_iff.mp hc) with rfl | hc
        · omega
        · have hlt := hs.there c hc
          omega }

theorem Undrawn.supplied (h : Undrawn d d') (hs : d.Supplied) : d'.Supplied := by
  refine hs.of_sublist ?_ (by rw [h.channels])
  rw [readers, h.scripts, h.pipes]
  exact .refl _

theorem Flow.supplied (h : Flow d m d') (hs : d.Supplied) : d'.Supplied := by
  cases h with
  | still h => exact h.supplied hs
  | sent c i => exact hs.of_sublist (.refl _) (List.length_modify ..)
  | shut c => exact hs.of_sublist (.refl _) (List.length_modify ..)
  | provided plan => exact hs.provide plan
  | connected scripts pipes channels =>
    refine hs.of_perm ?_ (by rw [channels])
    rw [readers, scripts, pipes, readers, List.flatMap_append]
    cases hscripts : d.connector.scripts with
    | nil => simp [channelsOf, Script.silent, Script.channel?]
    | cons s rest =>
      -- the channel of the script goes from the front to the back
      have hone : [(some s, (none : Option Feed))].flatMap channelsOf = s.channel?.toList := by
        simp [channelsOf]
      have hall : (s :: rest).filterMap Script.channel? =
          s.channel?.toList ++ rest.filterMap Script.channel? := by
        cases hc : s.channel? <;> simp [hc]
      have hmoved : (rest.filterMap Script.channel? ++ d.pipes.flatMap channelsOf ++ s.channel?.toList).Perm
          (s.channel?.toList ++ (rest.filterMap Script.channel? ++ d.pipes.flatMap channelsOf)) :=
        List.perm_append_comm
      rw [List.headD_cons, List.tail_cons, hone, hall, ← List.append_assoc, List.append_assoc]
      simpa only [List.append_assoc] using hmoved
  | answered feed number pipe pipes from_script scripts channels =>
    refine hs.of_sublist ?_ (by rw [channels, Channel.length_release])
    rw [readers, scripts, pipes]
    refine (List.Sublist.refl _).append (flatMap_set_sublist pipe ?_)
    cases feed with
    | none => simp [channelsOf]
    | some f => simp [channelsOf, from_script f rfl]
  | pulled f' number found pipe going pipes taken stock same length others scripts released =>
    refine hs.of_sublist ?_ (by rw [released, Channel.length_release, length])
    rw [readers, scripts, pipes]
    refine (List.Sublist.refl _).append (flatMap_set_sublist pipe ?_)
    simp [channelsOf, same]

theorem stream?_eq (n : Nat) (d : Desk) :
    d.stream? n = (d.pipes[n]?.bind (·.2)).map (·.stream) := by
  cases ht : d.tails[n]? <;> simp [stream?, pipes, ht, Tail.pipe]

theorem stream?_of_pipe {script : Option Script} {feed : Option Feed}
    (h : d.pipes[n]? = some (script, feed)) : d.stream? n = feed.map (·.stream) := by
  simp [stream?_eq, h]

theorem channel_reader {c : Nat} (h : d.stream? n = some (.channel c)) :
    ∃ p, d.pipes[n]? = some p ∧ c ∈ channelsOf p := by
  rw [stream?_eq] at h
  obtain ⟨f, hf, hstream⟩ := Option.map_eq_some_iff.mp h
  obtain ⟨p, hp, hfeed⟩ := Option.bind_eq_some_iff.mp hf
  exact ⟨p, hp, by simp [channelsOf, hfeed, hstream, Stream.channel?]⟩

theorem stock_same (hstream : d'.stream? n = d.stream? n)
    (hitems : ∀ c, d.stream? n = some (.channel c) →
      (d'.channels[c]?).map Channel.items = (d.channels[c]?).map Channel.items) :
    d'.stock n = d.stock n := by
  unfold stock
  rw [hstream]
  cases hs : d.stream? n with
  | none => rfl
  | some s =>
    refine Stream.stock_congr fun c hc => hitems c ?_
    cases s with
    | scripted => cases hc
    | channel => cases hc; exact hs

theorem gives_nothing (h : d.stream? n = none → (d.move m).stream? n = none)
    (unsent : ∀ c i, m ≠ .send c i) : d.gives n m = [] := by
  unfold gives
  cases hs : d.stream? n with
  | none => simp [stock, h hs]
  | some s =>
    cases s with
    | scripted => rfl
    | channel c =>
      cases m with
      | send c' i => exact absurd rfl (unsent c' i)
      | _ => rfl

theorem takes_nothing (h : d.taken? m = none) (n : Nat) : d.takes n m = [] := by
  simp [takes, h]

theorem items_modify {f : Channel → Channel} {channels : List Channel} (c j : Nat)
    (h : c = j → ∀ ch, channels[j]? = some ch → (f ch).items = ch.items) :
    ((channels.modify c f)[j]?).map Channel.items = (channels[j]?).map Channel.items := by
  by_cases hc : c = j
  · subst hc
    cases hch : channels[c]? with
    | none => simp [hch]
    | some ch => simp [hch, h rfl ch hch]
  · simp [List.getElem?_modify_ne, hc]

/-- An item that is sent goes to the end of what is there, if it is accepted. -/
theorem send_conserves (c : Nat) (i : Item) (d : Desk) (n : Nat) :
    (d.onChannel c (Channel.send i)).stock n = d.stock n ++ d.gives n (.send c i) := by
  have hstream : (d.onChannel c (Channel.send i)).stream? n = d.stream? n := rfl
  have hmove : d.move (.send c i) = d.onChannel c (Channel.send i) := rfl
  cases hs : d.stream? n with
  | none => simp [stock, gives, hmove, hstream, hs]
  | some s =>
    cases s with
    | scripted => simp [stock, gives, hstream, hs, Stream.stock]
    | channel j =>
      have hitems (h : c = j → ∀ ch, d.channels[j]? = some ch → ch.accepts = false) :
          (d.onChannel c (Channel.send i)).stock n = d.stock n := by
        refine stock_same hstream fun j' hj' => items_modify c j' fun he ch hch => ?_
        rw [hs] at hj'
        cases hj'
        simp [Channel.send, h he ch hch]
      by_cases hj : j = c
      · subst hj
        cases hch : d.channels[j]? with
        | none =>
          rw [hitems (by simp [hch])]
          simp [gives, hs, hch]
        | some ch =>
          cases hopen : ch.accepts with
          | false =>
            rw [hitems (by simp [hch, hopen])]
            simp [gives, hs, hch, hopen]
          | true =>
            have hafter : (d.onChannel j (Channel.send i)).stock n = ch.items ++ [i] := by
              rw [stock, hstream, hs]
              simp [onChannel, Stream.stock, hch, Channel.send, hopen]
            rw [hafter]
            simp [stock, gives, hs, Stream.stock, hch, hopen]
      · rw [hitems fun he => absurd he.symm hj]
        simp [gives, hs, hj]

/-- A move that leaves alone the stream of a session and what was sent into its channel. -/
theorem conserves_apart (hstream : (d.move m).stream? n = d.stream? n)
    (htakes : d.takes n m = []) (unsent : ∀ c i, m ≠ .send c i)
    (hitems : ∀ c, d.stream? n = some (.channel c) →
      ((d.move m).channels[c]?).map Channel.items = (d.channels[c]?).map Channel.items) :
    d.takes n m ++ (d.move m).stock n = d.stock n ++ d.gives n m := by
  have hgives : d.gives n m = [] := gives_nothing (fun hn => hstream.trans hn) unsent
  rw [htakes, hgives, List.append_nil, List.nil_append]
  exact stock_same hstream hitems

theorem Flow.conserves (h : Flow d m (d.move m)) (hs : d.Supplied) (n : Nat) :
    d.takes n m ++ (d.move m).stock n = d.stock n ++ d.gives n m := by
  generalize hd : d.move m = d' at h
  cases h with
  | still h untaken unsent =>
    subst hd
    have hstream : (d.move m).stream? n = d.stream? n := by rw [stream?_eq, h.pipes, ← stream?_eq]
    exact conserves_apart hstream (takes_nothing untaken n) unsent fun c _ => by rw [h.channels]
  | sent c i => exact send_conserves c i d n
  | shut c =>
    exact conserves_apart rfl (takes_nothing rfl n) (by simp) fun j _ => items_modify c j fun _ _ _ => rfl
  | provided plan =>
    refine conserves_apart rfl (takes_nothing rfl n) (by simp) fun c hc => ?_
    obtain ⟨p, hp, hcp⟩ := channel_reader hc
    have hlt : c < d.channels.length := hs.there c (by
      rw [readers]
      exact List.mem_append_right _ (List.mem_flatMap.mpr ⟨p, List.mem_of_getElem? hp, hcp⟩))
    cases plan with
    | refuse | scripted => rfl
    | channel items => simp [Desk.move, provide, Plan.lay, List.getElem?_append_left hlt]
  | @connected source _ scripts pipes channels =>
    subst hd
    have hstream : (d.move (.start source)).stream? n = d.stream? n := by
      rw [stream?_eq, stream?_eq, pipes, List.getElem?_append]
      by_cases hn : n < d.pipes.length
      · rw [if_pos hn]
      · have hnone : d.pipes[n]? = none := List.getElem?_eq_none (Nat.le_of_not_lt hn)
        rw [if_neg hn, hnone]
        cases n - d.pipes.length <;> rfl
    exact conserves_apart hstream (takes_nothing rfl n) (by simp) fun c _ => by rw [channels]
  | @answered c k _ script feed number pipe pipes from_script scripts channels =>
    subst hd
    by_cases hk : k = n
    · -- what the stream holds when it is opened is given to it
      subst hk
      have hnone : d.stream? k = none := stream?_of_pipe pipe
      rw [takes_nothing rfl]
      simp [stock, gives, hnone]
    · have hstream : (d.move (.answer c)).stream? n = d.stream? n := by
        rw [stream?_eq, stream?_eq, pipes, List.getElem?_set_ne hk]
      refine conserves_apart hstream (takes_nothing rfl n) (by simp) fun j _ => ?_
      rw [channels, Channel.items_release]
  | @pulled k _ script f channels' f' number found pipe going pipes taken stock same length others
      scripts released =>
    subst hd
    have hk : k < d.pipes.length := (List.getElem?_eq_some_iff.mp pipe).1
    by_cases hkn : k = n
    · subst hkn
      have hbefore : d.stream? k = some f.stream := stream?_of_pipe pipe
      have hafter : (d.move (.pull k)).stream? k = some f'.stream :=
        stream?_of_pipe (by rw [pipes, List.getElem?_set_self hk])
      have hgives : d.gives k (.pull k) = [] :=
        gives_nothing (fun hn => by rw [hbefore] at hn; cases hn) (by simp)
      have hstock : (d.move (.pull k)).stock k = f'.stream.stock channels' := by
        rw [Desk.stock, hafter, released]
        exact Stream.stock_congr fun c _ => Channel.items_release number channels' c
      have htakes : d.takes k (.pull k) = found.toList := by
        cases found <;> simp [takes, taken]
      rw [hgives, List.append_nil, htakes, hstock, stock, Desk.stock, hbefore]
      rfl
    · have hstream : (d.move (.pull k)).stream? n = d.stream? n := by
        rw [stream?_eq, stream?_eq, pipes, List.getElem?_set_ne hkn]
      have htakes : d.takes n (.pull k) = [] := by
        cases found <;> simp [takes, taken, hkn]
      refine conserves_apart hstream htakes (by simp) fun c hc => ?_
      -- the channel is another's
      obtain ⟨p, hp, hcp⟩ := channel_reader hc
      have hother : f.stream.channel? ≠ some c := by
        intro he
        have hck : c ∈ channelsOf (script, some f) := by simp [channelsOf, he]
        exact hs.distinct pipe hp hkn hck hcp
      rw [released, Channel.items_release, others c hother]

theorem Sound.supplied_move (hs : d.Sound) (hp : d.Supplied) (m : Move) : (d.move m).Supplied :=
  (hs.move_flow m).supplied hp

/-- Over a run a feed takes what its stream was given, from the first item on, and what it
has not taken is still there. -/
theorem Sound.taken_stock (hs : d.Sound) (hp : d.Supplied) (n : Nat) (ms : List Move) :
    d.taken n ms ++ (d.moves ms).stock n = d.stock n ++ d.given n ms := by
  induction ms generalizing d with
  | nil => simp [taken, given]
  | cons m ms ih =>
    have hmove := (hs.move_flow m).conserves hp n
    have hrest := ih (hs.move m) (hs.supplied_move hp m)
    calc d.taken n (m :: ms) ++ (d.moves (m :: ms)).stock n
        = d.takes n m ++ ((d.move m).taken n ms ++ ((d.move m).moves ms).stock n) := by
          simp [taken]
      _ = (d.takes n m ++ (d.move m).stock n) ++ (d.move m).given n ms := by
          rw [hrest, List.append_assoc]
      _ = d.stock n ++ d.given n (m :: ms) := by
          rw [hmove, given, List.append_assoc]

theorem report?_eq (n : Nat) (d : Desk) : d.report? n = (d.pipes[n]?.bind (·.2)).bind (·.report) := by
  cases ht : d.tails[n]? <;> simp [report?, pipes, ht, Tail.pipe]

/-- A feed that has ended stays so. -/
theorem Flow.reported (h : Flow d m d') (hr : (d.report? n).isSome = true) :
    (d'.report? n).isSome = true := by
  rw [report?_eq] at hr ⊢
  cases h with
  | still h => rw [h.pipes]; exact hr
  | sent | shut | provided => exact hr
  | connected scripts pipes channels =>
    have hn : n < d.pipes.length := by
      refine Classical.byContradiction fun hn => ?_
      rw [List.getElem?_eq_none (Nat.le_of_not_lt hn)] at hr
      cases hr
    rw [pipes, List.getElem?_append_left hn]
    exact hr
  | @answered c k _ script feed number pipe pipes from_script scripts channels =>
    by_cases hk : k = n
    · subst hk
      rw [pipe] at hr
      cases hr
    · rw [pipes, List.getElem?_set_ne hk]
      exact hr
  | @pulled k _ script f channels f' number found pipe going pipes =>
    by_cases hk : k = n
    · subst hk
      rw [pipe] at hr
      simp [going] at hr
    · rw [pipes, List.getElem?_set_ne hk]
      exact hr

/-- A feed takes nothing once it has ended. -/
theorem report?_of_taken {i : Item} (h : d.taken? m = some (n, i)) : d.report? n = none := by
  obtain ⟨⟨k, f⟩, hpuller, hi⟩ := Option.bind_eq_some_iff.mp h
  have hk : k = n := by
    simp only at hi
    split at hi <;> cases hi
    rfl
  subst hk
  cases m with
  | pull j =>
    obtain ⟨t, ht, hfeed⟩ := Option.bind_eq_some_iff.mp hpuller
    obtain ⟨f', hf', he⟩ := Option.map_eq_some_iff.mp hfeed
    cases he
    obtain ⟨hf, hgoing⟩ := Option.filter_eq_some_iff.mp hf'
    have hnone : f.report = none := by
      simp only [Bool.and_eq_true, Option.isNone_iff_eq_none] at hgoing
      exact hgoing.1
    simp [report?, ht, hf, hnone]
  | _ => cases hpuller

theorem takes_reported (hr : (d.report? n).isSome = true) (m : Move) : d.takes n m = [] := by
  unfold takes
  split
  · rename_i k i ht
    split
    · rename_i hk
      subst hk
      rw [report?_of_taken ht] at hr
      cases hr
    · rfl
  · rfl

/-- The update that a move applies to the document of a session. -/
def applies (n : Nat) (m : Move) (d : Desk) : List (Bool × List Record) :=
  match d.applied? m with
  | some (k, sampled, records) => if k = n then [(sampled, records)] else []
  | none => []

/-- The updates that were applied over a run for a session, in their order. -/
def applied (n : Nat) : List Move → Desk → List (Bool × List Record)
  | [], _ => []
  | m :: ms, d => d.applies n m ++ applied n ms (d.move m)

theorem applies_untaken (h : d.takes n m = []) : d.applies n m = [] := by
  unfold applies applied?
  unfold takes at h
  cases ht : d.taken? m with
  | none => rfl
  | some x =>
    obtain ⟨k, i⟩ := x
    have hk : k ≠ n := by
      rintro rfl
      simp [ht] at h
    rcases i with f | f
    · rcases f with f | ⟨sampled, records⟩ | f
      · rfl
      · by_cases hgoing : ((d.move m).report? k).isNone
        · simp [hgoing, hk]
        · simp [hgoing]
      · rfl
    · rfl

theorem takes_some (h : d.takes n m ≠ []) : ∃ i, d.taken? m = some (n, i) ∧ d.takes n m = [i] := by
  unfold takes at h ⊢
  cases ht : d.taken? m with
  | none => simp [ht] at h
  | some x =>
    obtain ⟨k, i⟩ := x
    by_cases hk : k = n
    · subst hk
      exact ⟨i, rfl, by simp⟩
    · simp [ht, hk] at h

/-- While a feed goes on, what it takes is applied if it is an update. -/
theorem applies_going {i : Item} (h : d.taken? m = some (n, i))
    (going : (d.move m).report? n = none) : d.applies n m = [i].filterMap Item.update? := by
  rcases i with f | f
  · rcases f with f | ⟨sampled, records⟩ | f
    · simp [applies, applied?_other h, Item.update?]
    · simp [applies, applied?_update h going, Item.update?]
    · simp [applies, applied?_other h, Item.update?]
  · simp [applies, applied?_other h, Item.update?]

theorem Sound.taken_reported (hs : d.Sound) (hr : (d.report? n).isSome = true) (ms : List Move) :
    d.taken n ms = [] ∧ d.applied n ms = [] := by
  induction ms generalizing d with
  | nil => exact ⟨rfl, rfl⟩
  | cons m ms ih =>
    obtain ⟨htaken, happlied⟩ := ih (hs.move m) ((hs.move_flow m).reported hr)
    have htakes := takes_reported hr m
    simp [taken, applied, htakes, applies_untaken htakes, htaken, happlied]

/-- The updates that are applied for a session are those among the first items that its
feed takes, all of them and in their order. -/
theorem Sound.applied_prefix (hs : d.Sound) (n : Nat) (ms : List Move) :
    ∃ first, first <+: d.taken n ms ∧ d.applied n ms = first.filterMap Item.update? := by
  induction ms generalizing d with
  | nil => exact ⟨[], List.prefix_rfl, rfl⟩
  | cons m ms ih =>
    obtain ⟨first, hfirst, happlied⟩ := ih (hs.move m)
    by_cases htakes : d.takes n m = []
    · exact ⟨first, by simpa [taken, htakes] using hfirst, by
        simpa [applied, applies_untaken htakes] using happlied⟩
    obtain ⟨i, htaken, hi⟩ := takes_some htakes
    cases going : (d.move m).report? n with
    | some r =>
      -- the feed ended with this item, which was not applied
      have hended : ((d.move m).report? n).isSome = true := by simp [going]
      have hnone : d.applies n m = [] := by simp [applies, applied?_ended htaken hended]
      obtain ⟨-, hrest⟩ := (hs.move m).taken_reported hended ms
      exact ⟨[], List.nil_prefix, by simp [applied, hnone, hrest]⟩
    | none =>
      refine ⟨i :: first, ?_, ?_⟩
      · rw [taken, hi]
        exact (List.prefix_append_right_inj [i]).mpr hfirst
      · rw [applied, applies_going htaken going, happlied, ← List.filterMap_append]
        rfl

end Desk

end LogTail
