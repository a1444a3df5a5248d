import LogTail.Proofs.Append
import LogTail.Proofs.Stops
import LogTail.Proofs.Supply

/-!
# What is written into the documents

A document holds the last lines, as many as the budget allows, of what was applied to it
since it was last cleared.
-/
namespace LogTail.Desk

variable {d d' : Desk} {deed : Deed} {deeds : List Deed} {n : Nat} {key : Key}

/-- Whether a document is cleared by what is recorded: a clearing of its key, or a stop,
if the policy says so. -/
def clearing (onStop : Bool) (key : Key) (news : List (Key × Notice)) : Bool :=
  (about key news).any fun x => x = .cleared || onStop && x.isStop

/-- The lines that a move adds to the document of a key: those of the update it applies. -/
def adds (key : Key) (m : Move) (d : Desk) : List String :=
  match d.applied? m with
  | some (n, _, records) => if d.key? n = some key then linesOfRecords records else []
  | none => []

/-- The lines of all updates that were applied to the document of a key since it was last
cleared, those of before the run first. -/
def written (key : Key) : List Move → Desk → List String → List String
  | [], _, before => before
  | m :: ms, d, before =>
    let kept := if clearing d.policy.clearOnStop key (d.told m) then [] else before
    written key ms (d.move m) (kept ++ d.adds key m)

/-- The lines of the document of a key, none if there is no document. -/
def lines (key : Key) (d : Desk) : List String := (d.workspace.lines? key).getD []

@[simp] theorem clearing_append (onStop : Bool) (key : Key) (xs ys : List (Key × Notice)) :
    clearing onStop key (xs ++ ys) = (clearing onStop key xs || clearing onStop key ys) := by
  simp [clearing]

theorem clearing_nil (onStop : Bool) (key : Key) : clearing onStop key [] = false := rfl

theorem clearing_one {x : Notice} (hx : x ≠ .cleared ∧ x.isStop = false) (onStop : Bool)
    (k key : Key) : clearing onStop key [(k, x)] = false := by
  by_cases hk : k = key
  · simp [clearing, about, hk, hx.1, hx.2]
  · simp [clearing, about, hk]

theorem clearing_cleared (onStop : Bool) (k key : Key) :
    clearing onStop key [(k, .cleared)] = decide (k = key) := by
  by_cases hk : k = key
  · simp [clearing, about, hk]
  · simp [clearing, about, hk]

theorem clearing_stopped (onStop : Bool) (k key : Key) (reason : StopReason) :
    clearing onStop key [(k, .stopped reason)] = (onStop && decide (k = key)) := by
  by_cases hk : k = key
  · simp [clearing, about, hk, Notice.isStop]
  · simp [clearing, about, hk]

theorem lines_clearDocument (k key : Key) (w : Workspace) :
    ((w.clearDocument k).lines? key).getD [] = if k = key then [] else (w.lines? key).getD [] := by
  rw [Workspace.lines?_clearDocument]
  by_cases hk : k = key
  · cases w.lines? key <;> simp [hk]
  · simp [hk]

/-- An act that writes nothing leaves the lines of a document or clears it. -/
theorem Act.lines (h : Act d deed d') (unwritten : ∀ n k sampled records,
    deed ≠ .wrote n k sampled records) (key : Key) :
    d'.lines key = if clearing d.policy.clearOnStop key deed.news then [] else d.lines key := by
  cases h with
  | beside h => simp [Desk.lines, h.lines, Deed.news, clearing_nil]
  | tended | entered | left => rfl
  | refused | overtaken => simp [Desk.lines, Deed.news, clearing_one, Notice.isStop]
  | failed fault hc ht starting answer requests =>
    obtain ⟨r, rfl⟩ := requests
    simp [Desk.lines, Deed.news, clearing_one, Notice.isStop, Workspace.lines?, Workspace.document?]
  | ticked => simp [Desk.lines, Deed.news, clearing_one, Notice.isStop]
  | refocused => simp [Desk.lines, Deed.news, clearing_one, Notice.isStop]
  | @opened c n k t stream transport workspace handles hc ht starting answer document =>
    have hkeep : clearing d.policy.clearOnStop key [(k, .started)] = false :=
      clearing_one (by simp [Notice.isStop]) _ _ _
    simp only [Desk.lines, Deed.news, hkeep, Workspace.lines?_openDocument document]
    by_cases hk : k = key <;> simp [hk]
  | @torn n t reason ht live =>
    simp only [Desk.lines, Deed.news, clearing_stopped]
    by_cases onStop : d.policy.clearOnStop
    · simp [onStop, lines_clearDocument]
    · simp [onStop]
  | cleared held => simp [Desk.lines, Deed.news, clearing_cleared, lines_clearDocument]
  | wrote => exact absurd rfl (unwritten _ _ _ _)

theorem Acts.lines (h : Acts d deeds d') (unwritten : ∀ deed ∈ deeds, ∀ n k sampled records,
    deed ≠ .wrote n k sampled records) (key : Key) : d'.lines key =
      if clearing d.policy.clearOnStop key (deeds.flatMap Deed.news) then [] else d.lines key := by
  induction h with
  | nil => rfl
  | @cons d d₁ d' deed deeds first _ ih =>
    have hfirst := first.lines (unwritten deed (by simp)) key
    have hrest := ih fun deed' h' => unwritten deed' (by simp [h'])
    rw [hrest, hfirst, first.policy, List.flatMap_cons, clearing_append]
    by_cases now : clearing d.policy.clearOnStop key deed.news <;> simp [now]

/-- An update leaves the last lines of what the document held and of what it brings. -/
theorem Act.lines_wrote {k : Key} {sampled : Bool} {records : List Record} {before : List String}
    (h : Act d (.wrote n k sampled records) d') (hs : d.Sound)
    (hb : d.lines key = before.rtake d.policy.budget) : d.key? n = some k ∧
      d'.lines key = (before ++ if k = key then linesOfRecords records else []).rtake d.policy.budget := by
  cases h with
  | @wrote _ t f stream tally channels doc doc' _ _ ht running hf document h =>
    refine ⟨key?_iff.mpr ⟨t, ht, rfl⟩, ?_⟩
    have hbudget : t.session.budget = d.policy.budget := hs.budget t (List.mem_of_getElem? ht)
    have hold : d.lines t.key = doc.buffer.lines := by
      simp [Desk.lines, Workspace.lines?, document]
    simp only [Desk.lines, Workspace.lines?_onDocument]
    by_cases hk : t.key = key
    · subst hk
      rw [hold] at hb
      simp only [if_true, document, Option.map_some, Option.getD_some]
      rcases h with ⟨hnone, rfl⟩ | ⟨hsome, a, followed⟩
      · rw [hb, linesOfRecords_nil hnone, List.append_nil]
      · rw [Document.follow_ok_lines hsome followed, hb, hbudget, rtake_rtake_append]
    · simp only [if_neg hk, List.append_nil]
      exact hb

/-- One move keeps a document at the last lines of what is applied to it. -/
theorem Sound.move_lines (hs : d.Sound) (m : Move) {before : List String}
    (hb : d.lines key = before.rtake d.policy.budget) :
    (d.move m).lines key = ((if clearing d.policy.clearOnStop key (d.told m) then [] else before) ++
      d.adds key m).rtake d.policy.budget := by
  have hcomes := hs.move_comes m
  have hacts {deeds : List Deed} (h : Acts d deeds (d.move m)) (hnone : d.applied? m = none)
      (unwritten : ∀ deed ∈ deeds, ∀ n k sampled records, deed ≠ .wrote n k sampled records) :
      (d.move m).lines key = ((if clearing d.policy.clearOnStop key (d.told m) then [] else before) ++
        d.adds key m).rtake d.policy.budget := by
    rw [h.lines unwritten key, hb, told, h.news, adds, hnone, List.append_nil]
    split
    · simp
    · rfl
  generalize hd : d.move m = d' at hcomes
  cases hcomes with
  | winds h other hnone =>
    obtain ⟨deeds, ha, hw⟩ := h
    rw [← hd] at ha ⊢
    refine hacts ha hnone fun deed hdeed n k sampled records he => ?_
    have hwind := hw deed hdeed
    rw [he] at hwind
    exact hwind
  | told h other hnone =>
    rw [← hd] at h ⊢
    exact hacts (.one h) hnone (by simp)
  | replied h | entered h | answered h =>
    rw [← hd] at h ⊢
    exact hacts (.one h) rfl (by simp)
  | unasked c =>
    have hnil : Acts d [] (d.move (.answer c)) := by
      rw [hd]
      exact .nil d
    have hsame := hacts hnil rfl (by simp)
    rwa [hd] at hsame
  | @wrote n _ k sampled records h happlied =>
    rw [← hd] at h ⊢
    obtain ⟨hk, hlines⟩ := h.lines_wrote hs hb
    have htold : d.told (.pull n) = [(k, .update sampled records.length)] := h.news
    rw [hlines, htold, clearing_one (by simp [Notice.isStop]), adds, happlied]
    simp [hk]

theorem Sound.moves_policy (hs : d.Sound) (ms : List Move) : (d.moves ms).policy = d.policy := by
  obtain ⟨deeds, ha⟩ := hs.moves_acts ms
  exact ha.policy

/-- Over a whole run a document holds the last lines of what was applied to it since it
was last cleared. -/
theorem Sound.moves_lines (hs : d.Sound) (ms : List Move) {before : List String}
    (hb : d.lines key = before.rtake d.policy.budget) :
    (d.moves ms).lines key = (d.written key ms before).rtake d.policy.budget := by
  induction ms generalizing d before with
  | nil => exact hb
  | cons m ms ih =>
    have hpolicy : (d.move m).policy = d.policy := hs.moves_policy [m]
    have hmove := hs.move_lines m hb
    rw [← hpolicy] at hmove
    have hrest := ih (hs.move m) hmove
    rw [hpolicy] at hrest
    exact hrest

theorem lines_make (policy : Policy) (connector : Connector) {workspace : Workspace}
    (blank : ∀ key lines, workspace.lines? key = some lines → lines = []) (key : Key) :
    (make policy connector workspace).lines key = [] := by
  show (workspace.lines? key).getD [] = []
  cases hl : workspace.lines? key with
  | none => rfl
  | some lines => exact blank key lines hl

end LogTail.Desk
