import LogTail.Proofs.Following

/-!
# Batches

Entries that come in several batches leave the same lines, move the same views to the same
places and are counted the same as when they come in one.
-/
namespace LogTail

namespace Appended

/-- What two appends brought and trimmed together. -/
def add (a b : Appended) : Appended := ⟨a.lines + b.lines, a.trimmed + b.trimmed⟩

end Appended

namespace Document

/-- Follows batches one after the other, up to one that is refused, and adds up what they
brought and trimmed. -/
def followEach (budget : Nat) : List (List Entry) → Document → Except Fault Appended × Document
  | [], d => (.ok {}, d)
  | batch :: batches, d =>
    match d.follow budget batch with
    | (.error fault, d) => (.error fault, d)
    | (.ok a, d) =>
      match followEach budget batches d with
      | (.error fault, d) => (.error fault, d)
      | (.ok b, d) => (.ok (a.add b), d)

/-- A buffer has taken in some lines, and this is what was answered. -/
structure Grown (budget : Nat) (new : List String) (b : Buffer) (a : Appended) (b' : Buffer) :
    Prop where
  answered : a = ⟨new.length, b.count + new.length - budget⟩
  lines : b'.lines = (b.lines ++ new).rtake budget
  views : budget < UInt64.size → ∀ id v, b.view? id = some v → v.Settled b.count →
    b'.view? id = some (v.follow b.count b'.count)

variable {d : Document} {budget : Nat} {b b' b'' : Buffer} {a a' : Appended} {new more : List String}

namespace Grown

theorem count (h : Grown budget new b a b') : b'.count = min (b.count + new.length) budget := by
  rw [Buffer.count, h.lines, ← Buffer.count_grow]
  rfl

theorem refl (room : b.count ≤ budget) : Grown budget [] b {} b where
  answered := by rw [List.length_nil, Nat.add_zero, Nat.sub_eq_zero_of_le room]
  lines := by
    have hnone : b.lines.length - budget = 0 := Nat.sub_eq_zero_of_le room
    rw [List.append_nil, List.rtake, hnone, List.drop_zero]
  views _ id v hv _ := by rw [View.follow_self, hv]

theorem trans (first : Grown budget new b a b') (second : Grown budget more b' a' b'')
    (hs : b.Sound) (room : b.count ≤ budget) : Grown budget (new ++ more) b (a.add a') b'' where
  answered := by
    simp only [first.answered, second.answered, first.count, Appended.add, List.length_append,
      Appended.mk.injEq, true_and]
    omega
  lines := by rw [second.lines, first.lines, rtake_rtake_append, List.append_assoc]
  views inside id v hv settled := by
    have tall := hs.tall_of_view? hv
    have hfirst : b.count ≤ b'.count := by
      rw [first.count]
      omega
    have hsecond : b'.count ≤ b''.count := by
      rw [second.count, first.count]
      omega
    have hlast : b''.count < UInt64.size := by
      rw [second.count]
      omega
    have hv' := first.views inside id v hv settled
    rw [second.views inside id _ hv' (settled.follow tall (hsecond.trans_lt hlast) hfirst),
      settled.follow_follow tall hlast hfirst hsecond]

/-- The lines that were taken in settle what becomes of the buffer. -/
theorem unique (h : Grown budget new b a b') (h' : Grown budget new b a' b'') :
    a = a' ∧ b'.lines = b''.lines ∧ (budget < UInt64.size →
      ∀ id v, b.view? id = some v → v.Settled b.count →
        ∃ v', b'.view? id = some v' ∧ b''.view? id = some v') := by
  refine ⟨h.answered.trans h'.answered.symm, h.lines.trans h'.lines.symm,
    fun inside id v hv settled => ⟨_, h.views inside id v hv settled, ?_⟩⟩
  rw [h'.views inside id v hv settled, h.count, h'.count]

end Grown

theorem grown_follow {batch : List Entry} (budget : Nat) (hs : d.buffer.Sound)
    (willing : d.refusals = []) (filled : batch ≠ []) (written : ∀ e ∈ batch, e.Written) :
    ∃ a d', d.follow budget batch = (.ok a, d') ∧ d'.refusals = [] ∧ d'.buffer.Sound ∧
      Grown budget (linesOfBatch batch) d.buffer a d'.buffer := by
  have accepted : d.tries + 1 ∉ d.refusals := by simp [willing]
  refine ⟨_, _, follow_eq hs filled written accepted, willing, hs.grow budget _, rfl, rfl, ?_⟩
  intro _ id v hv _
  rw [Buffer.view?_grow, hv]
  rfl

theorem grown_followEach {batches : List (List Entry)} (hs : d.buffer.Sound)
    (willing : d.refusals = []) (room : d.buffer.count ≤ budget)
    (filled : ∀ batch ∈ batches, batch ≠ []) (written : ∀ batch ∈ batches, ∀ e ∈ batch, e.Written) :
    ∃ a d', d.followEach budget batches = (.ok a, d') ∧
      Grown budget (linesOfBatch batches.flatten) d.buffer a d'.buffer := by
  induction batches generalizing d with
  | nil => exact ⟨_, _, rfl, .refl room⟩
  | cons batch batches ih =>
    obtain ⟨a, d₁, hfollow, willing₁, hs₁, first⟩ :=
      grown_follow budget hs willing (filled batch (by simp)) (written batch (by simp))
    -- trimming leaves room enough for the batches that are still to come
    have room₁ : d₁.buffer.count ≤ budget := by
      rw [first.count]
      exact Nat.min_le_right _ _
    obtain ⟨a', d₂, hrest, rest⟩ := ih hs₁ willing₁ room₁
      (fun batch' h => filled batch' (by simp [h])) fun batch' h => written batch' (by simp [h])
    refine ⟨a.add a', d₂, by simp only [followEach, hfollow, hrest], ?_⟩
    rw [List.flatten_cons, linesOfBatch_append]
    exact first.trans rest hs room

/-- A batch without entries changes nothing. -/
theorem follow_nil (hs : d.buffer.Sound) : d.follow budget [] = (.ok {}, d) := by
  have hstay : d.buffer.views.map (View.follow d.buffer.count d.buffer.count) = d.buffer.views :=
    (List.map_congr_left fun v _ => View.follow_self _ v).trans (List.map_id _)
  simp only [follow, append, planAppend, if_true, onBuffer, Buffer.revealEnd_followers hs rfl, hstay]

/-- However the entries of a sequence are split into batches, following the batches in turn
brings and trims as many lines as following all entries at once: it brings all of theirs, and
trims what is above the budget in the end. It leaves the same lines, the last ones, and the
same window in every view that showed a line, or stood at the top of a document without
lines, when it began, the budget being a machine word. -/
theorem batching_makes_no_difference (as : List Buffer.Action) {budget : Nat}
    {batches : List (List Entry)} (room : (Buffer.run as {}).count ≤ budget)
    (filled : ∀ batch ∈ batches, batch ≠ []) (written : ∀ batch ∈ batches, ∀ e ∈ batch, e.Written) :
    let b := Buffer.run as {}
    let each := followEach budget batches { buffer := b }
    let once := follow budget batches.flatten { buffer := b }
    let new := linesOfBatch batches.flatten
    (∃ total, each.1 = .ok total ∧ once.1 = .ok total ∧
      total = ⟨new.length, b.count + new.length - budget⟩) ∧
    each.2.buffer.lines = once.2.buffer.lines ∧
    each.2.buffer.lines = (b.lines ++ new).rtake budget ∧
    (budget < UInt64.size → ∀ id v, b.view? id = some v → v.Settled b.count →
      ∃ v', each.2.buffer.view? id = some v' ∧ once.2.buffer.view? id = some v') := by
  intro b each once new
  have hs : b.Sound := Buffer.sound_empty.run as
  obtain ⟨a, d, heach, grownEach⟩ :=
    grown_followEach (d := { buffer := b }) hs rfl room filled written
  have hdone : ∃ a' d', once = (.ok a', d') ∧
      Grown budget (linesOfBatch batches.flatten) b a' d'.buffer := by
    by_cases hnil : batches.flatten = []
    · refine ⟨{}, { buffer := b }, ?_, ?_⟩
      · simp only [once, hnil]
        exact follow_nil hs
      · rw [hnil]
        exact .refl room
    · have written' : ∀ e ∈ batches.flatten, e.Written := by
        intro e he
        obtain ⟨batch, hbatch, he⟩ := List.mem_flatten.mp he
        exact written batch hbatch e he
      obtain ⟨a', d', honce, -, -, grown⟩ :=
        grown_follow (d := { buffer := b }) budget hs rfl hnil written'
      exact ⟨a', d', honce, grown⟩
  obtain ⟨a', d', honce, grownOnce⟩ := hdone
  obtain ⟨rfl, hlines, hviews⟩ := grownEach.unique grownOnce
  have heach' : each = (.ok a, d) := heach
  rw [heach', honce]
  exact ⟨⟨a, rfl, rfl, grownEach.answered⟩, hlines, grownEach.lines, hviews⟩

/-- Two batches that are trimmed one after the other, before a view at the end and a reader. -/
theorem two_batches_leave_what_one_does :
    let as : List Buffer.Action :=
      [.openView 2, .openView 3, .commit [.insert 0 "a\nb\nc\nd\n"], .scrollTo 2 1]
    let batches : List (List Entry) := [[⟨"00:00:00\tx\n"⟩], [⟨"00:00:00\ty\n"⟩, ⟨"00:00:00\tz\n"⟩]]
    let b := Buffer.run as {}
    let each := followEach 5 batches { buffer := b }
    let once := follow 5 batches.flatten { buffer := b }
    b.count ≤ 5 ∧ (∀ batch ∈ batches, batch ≠ []) ∧ (∀ batch ∈ batches, ∀ e ∈ batch, e.Written) ∧
      (∃ total, each.1 = .ok total ∧ once.1 = .ok total) ∧
      each.2.buffer.lines = once.2.buffer.lines ∧
      (∃ v', each.2.buffer.view? 2 = some v' ∧ once.2.buffer.view? 2 = some v') ∧
      each.1 = .ok ⟨3, 2⟩ ∧ each.2.buffer.views = [⟨1, 0, 2⟩, ⟨2, 2, 3⟩] := by
  intro as batches
  have room : (Buffer.run as {}).count ≤ 5 := by decide
  have filled : ∀ batch ∈ batches, batch ≠ [] := by decide
  have written : ∀ batch ∈ batches, ∀ e ∈ batch, e.Written := by
    intro batch hbatch e he
    have hmem : e ∈ batches.flatten := List.mem_flatten_of_mem hbatch he
    simp only [batches, List.flatten_cons, List.flatten_nil, List.cons_append, List.nil_append,
      List.mem_cons, List.not_mem_nil, or_false] at hmem
    rcases hmem with rfl | rfl | rfl
    · exact ⟨{ time := some 0, message := some "x" }, by decide⟩
    · exact ⟨{ time := some 0, message := some "y" }, by decide⟩
    · exact ⟨{ time := some 0, message := some "z" }, by decide⟩
  have shown : (Buffer.run as {}).view? 2 = some ⟨2, 1, 3⟩ := by decide
  have settled : View.Settled (Buffer.run as {}).count ⟨2, 1, 3⟩ := .inl (by decide)
  obtain ⟨⟨total, inTurn, atOnce, -⟩, lines, -, views⟩ :=
    batching_makes_no_difference as room filled written
  exact ⟨room, filled, written, ⟨total, inTurn, atOnce⟩, lines, views (by decide) 2 _ shown settled,
    by decide, by decide⟩

end Document

end LogTail
