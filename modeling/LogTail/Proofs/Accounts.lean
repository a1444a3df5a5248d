import LogTail.Proofs.Append
import LogTail.Proofs.Runs
import Mathlib.Algebra.GroupWithZero.Nat

/-!
# Accounts of a run

What the counts, the edits and the notices of a run come to. Every frame that is pulled is
counted, and its records with it. Only the last one may not come to its end: when it has an
entry, and its edit is refused or the token has fired before. It then makes no edit, and there is
no notice of it.
-/
namespace LogTail

namespace Frame

def isAccepted : Frame → Bool
  | accepted .. => true
  | _ => false

def isUpdate : Frame → Bool
  | update .. => true
  | _ => false

def isUnknown : Frame → Bool
  | unknown _ => true
  | _ => false

/-- A record of the batch has an entry, so that there is something to write. -/
def writes : Frame → Bool
  | update _ records => entriesOf records ≠ []
  | _ => false

def recordCount : Frame → Nat
  | update _ records => records.length
  | _ => 0

/-- What is told of the frame. -/
def notice? : Frame → Option Notice
  | update sampled records => some (.update sampled records.length)
  | _ => none

end Frame

def Item.frame? : Item → Option Frame
  | frame f => some f
  | fault _ => none

namespace Document

variable {d : Document} {batch : List Entry}

/-- A batch that is not refused makes one edit, and the lines add up. -/
theorem follow_accepted (budget : Nat) (h : batch ≠ []) (written : ∀ e ∈ batch, e.Written)
    (accepted : d.tries + 1 ∉ d.refusals) : ∃ a d', d.follow budget batch = (.ok a, d') ∧
      d'.buffer.count + a.trimmed = d.buffer.count + a.lines ∧
      d'.buffer.edits = d.buffer.edits + 1 ∧ d'.tries = d.tries + 1 ∧ d'.refusals = d.refusals := by
  refine ⟨_, _, follow_of_append (append_eq h (linesOf_batch written) accepted), ?_,
    edits_revealEnd _ _, rfl, rfl⟩
  simp only [onBuffer, Buffer.count, lines_revealEnd, List.rtake, List.length_drop,
    List.length_append]
  omega

end Document

namespace Pump

variable {n : Nat} {s : Signal} {f : Frame} {p q r : Pump}
  {pulled done more later : List Frame}

/-- What frames add to the books of a pump when all of `pulled` were pulled and those of
`done` came to their end. -/
structure Books (pulled done : List Frame) (p q : Pump) : Prop where
  frames : q.tally.frames = p.tally.frames + pulled.length
  updates : q.tally.updates = p.tally.updates + pulled.countP Frame.isUpdate
  unrecognized : q.tally.unrecognized = p.tally.unrecognized + pulled.countP Frame.isUnknown
  records : q.tally.records = p.tally.records + (pulled.map Frame.recordCount).sum
  /-- The lines that are there and those that were trimmed are those that were there or came. -/
  lines : q.document.buffer.count + q.tally.trimmed + p.tally.appended =
    p.document.buffer.count + p.tally.trimmed + q.tally.appended
  edits : q.document.buffer.edits = p.document.buffer.edits + done.countP Frame.writes
  notices : q.notices = p.notices ++ done.filterMap Frame.notice?

namespace Books

theorem refl (p : Pump) : Books [] [] p p where
  frames := rfl
  updates := rfl
  unrecognized := rfl
  records := rfl
  lines := rfl
  edits := rfl
  notices := (List.append_nil _).symm

theorem trans (first : Books pulled done p q) (second : Books more later q r) :
    Books (pulled ++ more) (done ++ later) p r where
  frames := by rw [second.frames, first.frames, List.length_append, Nat.add_assoc]
  updates := by rw [second.updates, first.updates, List.countP_append, Nat.add_assoc]
  unrecognized := by rw [second.unrecognized, first.unrecognized, List.countP_append, Nat.add_assoc]
  records := by
    rw [second.records, first.records, List.map_append, List.sum_append, Nat.add_assoc]
  lines := by
    have hfirst := first.lines
    have hsecond := second.lines
    omega
  edits := by rw [second.edits, first.edits, List.countP_append, Nat.add_assoc]
  notices := by rw [second.notices, first.notices, List.filterMap_append, List.append_assoc]

end Books

/-- The frame that comes behind those of `before` does not come to its end: it has an entry to
write, and the token has fired by the time it is handed over, or its edit is refused. The run
starts with pull `n` and with the document `d`; each frame before took one pull, and one try
of an edit if it had an entry. -/
def CutOff (s : Signal) (n : Nat) (d : Document) (before : List Frame) (f : Frame) : Prop :=
  f.writes = true ∧ (s.reaches (n + before.length) = true ∨
    d.tries + before.countP Frame.writes + 1 ∈ d.refusals)

instance (s : Signal) (n : Nat) (d : Document) (before : List Frame) :
    DecidablePred (CutOff s n d before) := fun _ => inferInstanceAs (Decidable (_ ∧ _))

/-- A frame before counts as a pull, and as an edit if it has an entry. -/
theorem cutOff_cons {d d' : Document} {before : List Frame} {g : Frame}
    (tries : d'.tries = d.tries + [f].countP Frame.writes) (refusals : d'.refusals = d.refusals) :
    CutOff s n d (f :: before) g ↔ CutOff s (n + 1) d' before g := by
  have hpull : n + (f :: before).length = n + 1 + before.length := by
    rw [List.length_cons]
    omega
  have hedit : d.tries + (f :: before).countP Frame.writes + 1 =
      d'.tries + before.countP Frame.writes + 1 := by
    rw [tries, ← List.singleton_append, List.countP_append]
    omega
  rw [CutOff, CutOff, hpull, hedit, refusals]

/-- What taking a frame comes to. -/
inductive Taking (s : Signal) (n : Nat) (p : Pump) (f : Frame) : Option Exit × Pump → Prop where
  | ended {q : Pump} (free : ¬ CutOff s n p.document [] f) (books : Books [f] [f] p q)
      (tries : q.document.tries = p.document.tries + [f].countP Frame.writes)
      (refusals : q.document.refusals = p.document.refusals) : Taking s n p f (none, q)
  | cut {exit : Exit} {q : Pump} (cutOff : CutOff s n p.document [] f)
      (books : Books [f] [] p q) : Taking s n p f (some exit, q)

theorem update_taking (budget : Nat) (s : Signal) (n : Nat) (p : Pump) (sampled : Bool)
    (records : List Record) : Taking s n p (.update sampled records)
      (p.take budget (s.reaches n) (some (.frame (.update sampled records)))) := by
  by_cases empty : entriesOf records = []
  · have idle : (Frame.update sampled records).writes = false := by simp [Frame.writes, empty]
    simp only [take, handle, write, empty, if_true]
    exact .ended (fun h => by simp [h.1] at idle)
      ⟨rfl, rfl, rfl, rfl, rfl, by simp [idle]; rfl, rfl⟩ (by simp [idle]; rfl) rfl
  have busy : (Frame.update sampled records).writes = true := by simp [Frame.writes, empty]
  cases fired : s.reaches n with
  | true =>
    simp only [take, handle, write, empty, if_false, if_true]
    exact .cut ⟨busy, .inl fired⟩ ⟨rfl, rfl, rfl, rfl, rfl, rfl, (List.append_nil _).symm⟩
  | false =>
    by_cases refused : p.document.tries + 1 ∈ p.document.refusals
    · obtain ⟨fault, hfollow⟩ := Document.follow_refused budget empty refused
      simp only [take, handle, write, count, empty, if_false, Bool.false_eq_true, hfollow]
      exact .cut ⟨busy, .inr refused⟩ ⟨rfl, rfl, rfl, rfl, rfl, rfl, (List.append_nil _).symm⟩
    · obtain ⟨a, d, hfollow, lines, edits, tries, refusals⟩ :=
        Document.follow_accepted budget empty (fun _ => Entry.written_of_mem) refused
      have free : ¬ CutOff s n p.document [] (.update sampled records) := by
        rintro ⟨-, reached | refused'⟩
        · exact Bool.false_ne_true (fired.symm.trans reached)
        · exact refused refused'
      simp only [take, handle, write, count, tell, empty, if_false, Bool.false_eq_true, hfollow]
      refine .ended free ⟨rfl, rfl, rfl, rfl, ?_, ?_, rfl⟩ ?_ refusals
      · dsimp only
        omega
      · simp [edits, busy]
      · simp [tries, busy]

theorem take_taking (budget : Nat) (s : Signal) (n : Nat) (p : Pump) (f : Frame) :
    Taking s n p f (p.take budget (s.reaches n) (some (.frame f))) := by
  cases f with
  | update sampled records => exact update_taking budget s n p sampled records
  | accepted groups request =>
    exact .ended (fun h => by cases h.1)
      ⟨rfl, rfl, rfl, rfl, rfl, rfl, (List.append_nil _).symm⟩ rfl rfl
  | unknown shape =>
    exact .ended (fun h => by cases h.1)
      ⟨rfl, rfl, rfl, rfl, rfl, rfl, (List.append_nil _).symm⟩ rfl rfl

/-- The frames among some items. -/
def framesOf (items : List Item) : List Frame := items.filterMap Item.frame?

/-- A run keeps its books: of the frames it pulls each comes to its end but the last, which may
be cut off. -/
theorem runFrom_books (budget : Nat) (s : Signal) (n : Nat) (items : List Item) (p : Pump) :
    ∃ (done : List Frame) (last : Option Frame),
      framesOf (items.take ((runFrom budget s n items p).pulls - n)) = done ++ last.toList ∧
      Books (done ++ last.toList) done p (runFrom budget s n items p).pump ∧
      (∀ before f later, done = before ++ f :: later → ¬ CutOff s n p.document before f) ∧
      ∀ f ∈ last, CutOff s n p.document done f := by
  induction items generalizing n p with
  | nil =>
    refine ⟨[], none, by simp [framesOf], ?_, by simp, by simp⟩
    cases unfired : s.stops n with
    | true => simpa [runFrom_stopped unfired] using Books.refl p
    | false => simpa [runFrom_nil unfired] using Books.refl p
  | cons i items ih =>
    cases unfired : s.stops n with
    | true =>
      rw [runFrom_stopped unfired]
      exact ⟨[], none, by simp [framesOf], .refl p, by simp, by simp⟩
    | false =>
      cases i with
      | fault e =>
        rw [runFrom_ended unfired rfl]
        exact ⟨[], none, by simp [framesOf, Item.frame?], .refl p, by simp, by simp⟩
      | frame f =>
        have htaking := take_taking budget s n p f
        cases h : p.take budget (s.reaches n) (some (.frame f)) with
        | mk ending q =>
        rw [h] at htaking
        cases htaking with
        | cut cutOff books =>
          rw [runFrom_ended unfired h]
          exact ⟨[], some f, by simp [framesOf, Item.frame?], books, by simp, by simpa using cutOff⟩
        | ended free books tries refusals =>
          obtain ⟨done, last, hpulled, hbooks, hdone, hlast⟩ := ih (n + 1) q
          have hle := le_pulls budget s (n + 1) items q
          have hsub : (runFrom budget s (n + 1) items q).pulls - n =
              (runFrom budget s (n + 1) items q).pulls - (n + 1) + 1 := by omega
          rw [runFrom_next unfired h, hsub, List.take_succ_cons]
          refine ⟨f :: done, last, ?_, books.trans hbooks, ?_, ?_⟩
          · rw [List.cons_append, ← hpulled]
            rfl
          · intro before g later hg
            cases before with
            | nil =>
              cases hg
              exact free
            | cons f' before =>
              cases hg
              rw [cutOff_cons tries refusals]
              exact hdone before g later rfl
          · intro g hg
            rw [cutOff_cons tries refusals]
            exact hlast g hg

/-- Of the frames that were pulled those that came to their end: all of them, or all but the
last if that was cut off. -/
def finished (s : Signal) (d : Document) (pulled : List Frame) : List Frame :=
  if ∃ f ∈ pulled.getLast?, CutOff s 0 d pulled.dropLast f then pulled.dropLast else pulled

theorem finished_eq {d : Document} {last : Option Frame}
    (hdone : ∀ before f later, done = before ++ f :: later → ¬ CutOff s 0 d before f)
    (hlast : ∀ f ∈ last, CutOff s 0 d done f) : finished s d (done ++ last.toList) = done := by
  cases last with
  | some f =>
    have hf : CutOff s 0 d done f := hlast f rfl
    simp [finished, hf]
  | none =>
    rw [Option.toList_none, List.append_nil, finished, if_neg]
    rintro ⟨f, hf, cutOff⟩
    have hsplit : done = done.dropLast ++ [f] := (List.dropLast_append_getLast? f hf).symm
    exact hdone done.dropLast f [] hsplit cutOff

theorem length_eq_countP (frames : List Frame) : frames.length =
    frames.countP Frame.isAccepted + frames.countP Frame.isUpdate + frames.countP Frame.isUnknown := by
  induction frames with
  | nil => rfl
  | cons f rest ih =>
    have hkind : (if f.isAccepted then 1 else 0) + (if f.isUpdate then 1 else 0) +
        (if f.isUnknown then 1 else 0) = 1 := by cases f <;> rfl
    simp only [List.length_cons, List.countP_cons, ih]
    omega

/-- The report of a run adds up, whenever its token fires and whichever edits are refused. It
counts the frames that were pulled, each by its kind, and the records of all the updates among
them. What it says it appended less what it says it trimmed is the change of the line count.
The document made one edit for each update with an entry that came to its end. And the notices
of the run are one for each update that was pulled, in order, with all of its records; only the
last frame that was pulled is not told of, if it has an entry and the token had fired when it
was handed over, or its edit was refused. -/
theorem run_adds_up (budget : Nat) (s : Signal) (items : List Item) (p : Pump) :
    let o := p.run budget s items
    let t := o.pump.tally
    let pulled := framesOf (items.take o.pulls)
    let done := finished s p.document pulled
    t.frames = pulled.length ∧
    t.frames = pulled.countP Frame.isAccepted + t.updates + t.unrecognized ∧
    t.updates = pulled.countP Frame.isUpdate ∧ t.unrecognized = pulled.countP Frame.isUnknown ∧
    t.records = (pulled.map Frame.recordCount).sum ∧
    (t.appended : Int) - t.trimmed = o.pump.document.buffer.count - p.document.buffer.count ∧
    o.pump.document.buffer.edits = p.document.buffer.edits + done.countP Frame.writes ∧
    o.pump.notices = p.notices ++ done.filterMap Frame.notice? := by
  intro o t pulled done
  obtain ⟨done', last, hpulled, books, hdone, hlast⟩ :=
    runFrom_books budget s 0 items { p with tally := {} }
  have hpulled' : pulled = done' ++ last.toList := hpulled
  have hfinished : done = done' := by
    rw [← finished_eq hdone hlast, ← hpulled']
  rw [← hpulled', ← hfinished] at books
  have hframes : t.frames = pulled.length := books.frames.trans (Nat.zero_add _)
  have hupdates : t.updates = pulled.countP Frame.isUpdate := books.updates.trans (Nat.zero_add _)
  have hunknown : t.unrecognized = pulled.countP Frame.isUnknown :=
    books.unrecognized.trans (Nat.zero_add _)
  have hlines : o.pump.document.buffer.count + t.trimmed + 0 =
      p.document.buffer.count + 0 + t.appended := books.lines
  refine ⟨hframes, ?_, hupdates, hunknown, books.records.trans (Nat.zero_add _), by omega,
    books.edits, books.notices⟩
  rw [hframes, hupdates, hunknown]
  exact length_eq_countP pulled

example :
    let o := ({} : Pump).run 5 (.during 1)
      [.frame (.update false [{ time := some 0, message := some "a" }, {}]),
       .frame (.update true [{ time := some 0, message := some "b" }])]
    o.pump.tally = { frames := 2, updates := 2, records := 3, appended := 1 } ∧
      o.pump.notices = [.update false 2] := by decide

end Pump

end LogTail
