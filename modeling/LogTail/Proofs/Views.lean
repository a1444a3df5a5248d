import LogTail.Document.Buffer
import Mathlib.Data.Nat.Dist

/-!
# Views that follow

What becomes of one view when lines are added to its document. It goes along if it stood at
the end and stays where it is if not, and how many steps the document grew in makes no
difference to it. Windows are reckoned with as numbers here; where one ends past the last
machine word it shows nothing, and only of the others is it said where they go.
-/
namespace LogTail

theorem LineRange.contains_iff {r : LineRange} {line : Nat} :
    r.contains line = true ↔ r.start ≤ line ∧ line < r.stop := by
  simp [contains]

theorem LineRange.isEmpty_eq_false {r : LineRange} : r.isEmpty = false ↔ r.start < r.stop := by
  rw [isEmpty, decide_eq_false_iff_not, length]
  omega

namespace View

variable {v : View} {top : UInt64} {line old mid new : Nat}

/-- The window ends at a machine word, so it ends where it should. -/
def Fits (v : View) : Prop := v.top.toNat + v.height.toNat < UInt64.size

/-- The window has the line in it. -/
def Shows (line : Nat) (v : View) : Prop := v.top.toNat ≤ line ∧ line < v.bottom.toNat

/-- The view shows a line, or stands at the top of a document without lines. -/
def Settled (count : Nat) (v : View) : Prop :=
  (v.range count).isEmpty = false ∨ count = 0 ∧ v.top = 0

/-- The view after its document has grown from `old` to `new` lines: it goes along to the
last line if it stood at the end. -/
def follow (old new : Nat) (v : View) : View :=
  if v.atBottom old ∧ 0 < new then v.reveal (.ofNat (new - 1)) else v

@[simp] theorem reveal_id (line : UInt64) (v : View) : (v.reveal line).id = v.id := by
  unfold reveal
  split
  · rfl
  · split <;> rfl

@[simp] theorem reveal_height (line : UInt64) (v : View) : (v.reveal line).height = v.height := by
  unfold reveal
  split
  · rfl
  · split <;> rfl

@[simp] theorem follow_id (old new : Nat) (v : View) : (v.follow old new).id = v.id := by
  unfold follow
  split <;> simp

@[simp] theorem follow_height (old new : Nat) (v : View) : (v.follow old new).height = v.height := by
  unfold follow
  split <;> simp

theorem tall_toNat (tall : 0 < v.height) : 0 < v.height.toNat := UInt64.lt_iff_toNat_lt.mp tall

/-- The height that a view is opened with. -/
theorem toNat_max_one (height : UInt64) : (max height 1).toNat = max height.toNat 1 := by
  have hmax : max height 1 = if height ≤ 1 then 1 else height := rfl
  simp only [hmax, UInt64.le_iff_toNat_le, apply_ite UInt64.toNat, Nat.max_def, UInt64.toNat_one]

/-! ### Windows that fit -/

theorem Fits.bottom (h : v.Fits) : v.bottom.toNat = v.top.toNat + v.height.toNat := by
  rw [View.bottom, UInt64.toNat_add, Nat.mod_eq_of_lt h]

/-- A window that does not fit ends before it begins. -/
theorem bottom_lt_top (h : ¬ v.Fits) : v.bottom.toNat < v.top.toNat := by
  have htop := v.top.toNat_lt_size
  have hheight := v.height.toNat_lt_size
  simp only [Fits, View.bottom, UInt64.toNat_add, UInt64.size] at *
  omega

theorem Shows.fits (h : v.Shows line) : v.Fits := by
  by_contra hv
  have hbottom := bottom_lt_top hv
  simp only [Shows] at h
  omega

theorem shows_iff : v.Shows line ↔
    v.Fits ∧ v.top.toNat ≤ line ∧ line < v.top.toNat + v.height.toNat := by
  constructor
  · intro h
    exact ⟨h.fits, by rwa [← h.fits.bottom]⟩
  · rintro ⟨fits, h⟩
    rwa [← fits.bottom] at h

/-- A window at the top of a document fits. -/
theorem fits_of_top_eq_zero (h : v.top = 0) : v.Fits := by
  rw [Fits, h, UInt64.toNat_zero, Nat.zero_add]
  exact v.height.toNat_lt_size

/-! ### What a view shows -/

theorem range_contains (h : line < new) : (v.range new).contains line = true ↔ v.Shows line := by
  simp only [LineRange.contains_iff, range, Shows]
  omega

theorem range_isEmpty (tall : 0 < v.height) :
    (v.range new).isEmpty = false ↔ v.Fits ∧ v.top.toNat < new := by
  have htall := tall_toNat tall
  rw [LineRange.isEmpty_eq_false, range]
  by_cases hv : v.Fits
  · have hbottom := hv.bottom
    simp only [hv, true_and]
    omega
  · have hbottom := bottom_lt_top hv
    simp only [hv, false_and, iff_false]
    omega

theorem settled_iff (tall : 0 < v.height) :
    v.Settled new ↔ v.Fits ∧ (v.top.toNat < new ∨ new = 0 ∧ v.top = 0) := by
  rw [Settled, range_isEmpty tall, and_or_left]
  refine or_congr_right ⟨fun h => ⟨fits_of_top_eq_zero h.2, h⟩, And.right⟩

theorem atBottom_iff : v.atBottom old = true ↔ old = 0 ∨ v.Shows (old - 1) := by
  unfold atBottom
  split
  · simp [*]
  · rw [range_contains (by omega)]
    simp [*]

/-! ### Revealing -/

variable {word : UInt64}

theorem reveal_of_shows (h : v.Shows word.toNat) : v.reveal word = v := by
  obtain ⟨above, below⟩ := h
  simp only [reveal, UInt64.lt_iff_toNat_lt, UInt64.le_iff_toNat_le]
  rw [if_neg (by omega), if_neg (by omega)]

/-- To a line that is not above it a window that fits moves down only. -/
theorem top_reveal_of_le (fits : v.Fits) (h : v.top.toNat ≤ word.toNat)
    (inside : word.toNat + 1 < UInt64.size) :
    (v.reveal word).top.toNat = max v.top.toNat (word.toNat + 1 - v.height.toNat) := by
  have hbottom := fits.bottom
  have hheight := v.height.toNat_lt_size
  simp only [UInt64.size] at inside hheight
  simp only [reveal, UInt64.lt_iff_toNat_lt, UInt64.le_iff_toNat_le]
  rw [if_neg (by omega)]
  split
  · simp only [UInt64.toNat_sub, UInt64.toNat_add, UInt64.toNat_one]
    omega
  · omega

theorem top_reveal_of_lt (h : word.toNat < v.top.toNat) : (v.reveal word).top = word := by
  rw [reveal, if_pos (UInt64.lt_iff_toNat_lt.mpr h)]

theorem shows_reveal (tall : 0 < v.height) (fits : v.Fits) (inside : word.toNat + 1 < UInt64.size) :
    (v.reveal word).Shows word.toNat := by
  have htall := tall_toNat tall
  rw [shows_iff, Fits, reveal_height]
  simp only [Fits] at fits
  rcases Nat.lt_or_ge word.toNat v.top.toNat with above | below
  · rw [top_reveal_of_lt above]
    omega
  · rw [top_reveal_of_le fits below inside]
    omega

/-- No window with the line in it is nearer to the old one. -/
theorem reveal_nearest (fits : v.Fits) (inside : word.toNat + 1 < UInt64.size)
    (h : Shows word.toNat { v with top }) :
    Nat.dist (v.reveal word).top.toNat v.top.toNat ≤ Nat.dist top.toNat v.top.toNat := by
  obtain ⟨-, above, below⟩ := shows_iff.mp h
  simp only at above below
  unfold Nat.dist
  rcases Nat.lt_or_ge word.toNat v.top.toNat with hword | hword
  · rw [top_reveal_of_lt hword]
    omega
  · rw [top_reveal_of_le fits hword inside]
    omega

/-! ### Following -/

theorem follow_of_atBottom (h : v.atBottom old = true) (hn : 0 < new) :
    v.follow old new = v.reveal (.ofNat (new - 1)) :=
  if_pos ⟨h, hn⟩

theorem follow_of_not_atBottom (h : v.atBottom old = false) (new : Nat) : v.follow old new = v :=
  if_neg fun hb => by simp [h] at hb

/-- The last of `new` lines has a machine word for its number. -/
theorem lastLine (inside : new < UInt64.size) : (UInt64.ofNat (new - 1)).toNat = new - 1 :=
  UInt64.toNat_ofNat_of_lt' (by omega)

@[simp] theorem follow_self (n : Nat) (v : View) : v.follow n n = v := by
  unfold follow
  split
  · rename_i h
    have hends := (atBottom_iff.mp h.1).resolve_left (Nat.ne_of_gt h.2)
    have hword : (UInt64.ofNat (n - 1)).toNat = n - 1 :=
      UInt64.toNat_ofNat_of_lt' (hends.2.trans v.bottom.toNat_lt_size)
    exact reveal_of_shows (by rwa [hword])
  · rfl

/-- A view at the end of a document that has grown shows the new last line, if its window fits. -/
theorem shows_follow (tall : 0 < v.height) (fits : v.Fits) (h : v.atBottom old = true)
    (hn : 0 < new) (inside : new < UInt64.size) : (v.follow old new).Shows (new - 1) := by
  have hword := lastLine inside
  have hreveal := @shows_reveal v (.ofNat (new - 1)) tall fits (by omega)
  rwa [hword, ← follow_of_atBottom h hn] at hreveal

/-- A view that stood at the end of a document still does when the document has grown. -/
theorem atBottom_follow (tall : 0 < v.height) (fits : v.Fits) (h : v.atBottom old = true)
    (inside : new < UInt64.size) : (v.follow old new).atBottom new = true := by
  rw [atBottom_iff]
  rcases Nat.eq_zero_or_pos new with hn | hn
  · exact .inl hn
  · exact .inr (shows_follow tall fits h hn inside)

theorem Fits.follow (fits : v.Fits) (tall : 0 < v.height) (inside : new < UInt64.size) :
    (v.follow old new).Fits := by
  by_cases h : v.atBottom old ∧ 0 < new
  · exact (shows_follow tall fits h.1 h.2 inside).fits
  · rwa [View.follow, if_neg h]

/-- How a view `v` of a document of `old` lines has come out as `v'` when the document has
grown to `new` lines and keeps no more than `budget`. -/
structure Follows (budget old new : Nat) (v v' : View) : Prop where
  id : v'.id = v.id
  height : v'.height = v.height
  /-- From the end a window that fits goes to the new end, -/
  shows : v.Fits → v.atBottom old = true → (v'.range new).contains (new - 1) = true
  /-- without moving if that was in the window already, -/
  stays : v.atBottom old = true → v.Shows (new - 1) → v'.top = v.top
  /-- and else no further than it takes. -/
  nearest : v.Fits → v.atBottom old = true → ∀ top, Shows (new - 1) { v with top } →
    Nat.dist v'.top.toNat v.top.toNat ≤ Nat.dist top.toNat v.top.toNat
  /-- From elsewhere it does not move, -/
  still : v.atBottom old = false → v'.top = v.top
  /-- and what it showed of a document within the budget is what it shows, short of the end. -/
  reads : v.atBottom old = false → (v.range old).isEmpty = false → old ≤ budget →
    v'.range new = v.range old ∧ v'.atBottom new = false

/-- A view away from the end that shows a line ends above the last line. -/
theorem window_of_not_atBottom (tall : 0 < v.height) (away : v.atBottom old = false)
    (shown : (v.range old).isEmpty = false) : v.top.toNat < old ∧ v.bottom.toNat < old := by
  obtain ⟨-, htop⟩ := (range_isEmpty tall).mp shown
  have hends : ¬(old = 0 ∨ v.Shows (old - 1)) := by
    rw [← atBottom_iff, away]
    simp
  simp only [Shows] at hends
  omega

theorem follows {budget : Nat} (tall : 0 < v.height) (hn : 0 < new) (inside : new < UInt64.size)
    (grown : min old budget ≤ new) : Follows budget old new v (v.follow old new) where
  id := follow_id old new v
  height := follow_height old new v
  shows fits h := by
    rw [range_contains (by omega)]
    exact shows_follow tall fits h hn inside
  stays h shown := by
    rw [follow_of_atBottom h hn, reveal_of_shows (by rwa [lastLine inside])]
  nearest fits h top shown := by
    have hword := lastLine inside
    rw [follow_of_atBottom h hn]
    exact reveal_nearest fits (by omega) (by rwa [hword])
  still h := by rw [follow_of_not_atBottom h]
  reads away shown room := by
    have hwindow := window_of_not_atBottom tall away shown
    rw [follow_of_not_atBottom away]
    refine ⟨?_, ?_⟩
    · simp only [range, LineRange.mk.injEq]
      omega
    · rw [← Bool.not_eq_true, atBottom_iff, Shows]
      omega

/-- A settled view at the end moves down with it. -/
theorem Settled.top_follow (h : v.Settled old) (tall : 0 < v.height) (inside : new < UInt64.size)
    (atEnd : v.atBottom old = true) (grown : old ≤ new) :
    (v.follow old new).top.toNat = max v.top.toNat (new - v.height.toNat) := by
  rcases Nat.eq_zero_or_pos new with rfl | hn
  · rw [View.follow, if_neg (by simp), Nat.zero_sub, max_eq_left (Nat.zero_le _)]
  · obtain ⟨fits, hsettled⟩ := (settled_iff tall).mp h
    have hword := lastLine inside
    have htop : v.top.toNat ≤ new - 1 := by
      rcases hsettled with htop | ⟨-, htop⟩
      · omega
      · simp [htop]
    rw [follow_of_atBottom atEnd hn, top_reveal_of_le fits (by omega) (by omega), hword,
      Nat.sub_add_cancel hn]

theorem Settled.shown (h : v.Settled old) (away : v.atBottom old = false) :
    (v.range old).isEmpty = false := by
  rcases h with shown | ⟨rfl, -⟩
  · exact shown
  · simp [atBottom] at away

theorem Settled.follow (h : v.Settled old) (tall : 0 < v.height) (inside : new < UInt64.size)
    (grown : old ≤ new) : (v.follow old new).Settled new := by
  obtain ⟨fits, hsettled⟩ := (settled_iff tall).mp h
  refine (settled_iff (by rwa [follow_height])).mpr ⟨fits.follow tall inside, ?_⟩
  cases atEnd : v.atBottom old with
  | true =>
    have htop := h.top_follow tall inside atEnd grown
    have htall := tall_toNat tall
    rcases hsettled with hold | ⟨rfl, hzero⟩
    · omega
    · rw [hzero, UInt64.toNat_zero] at htop
      rcases Nat.eq_zero_or_pos new with rfl | hn
      · exact .inr ⟨rfl, UInt64.toNat_inj.mp (by simpa using htop)⟩
      · omega
  | false =>
    have hwindow := window_of_not_atBottom tall atEnd (h.shown atEnd)
    rw [follow_of_not_atBottom atEnd]
    omega

theorem eq_of_top {u : View} (id : u.id = v.id) (height : u.height = v.height)
    (top : u.top.toNat = v.top.toNat) : u = v := by
  cases u
  cases v
  rw [mk.injEq]
  exact ⟨id, UInt64.toNat_inj.mp top, height⟩

/-- Two steps of growth move a settled view as one does. -/
theorem Settled.follow_follow (h : v.Settled old) (tall : 0 < v.height) (inside : new < UInt64.size)
    (first : old ≤ mid) (second : mid ≤ new) :
    (v.follow old mid).follow mid new = v.follow old new := by
  have hinside : mid < UInt64.size := by omega
  cases atEnd : v.atBottom old with
  | true =>
    -- each step takes the top to its maximum with the lowest window, and the last one is the lowest
    have fits := ((settled_iff tall).mp h).1
    have hmid := h.follow tall hinside first
    have hend := atBottom_follow tall fits atEnd hinside
    refine eq_of_top (by simp) (by simp) ?_
    rw [hmid.top_follow (by simpa using tall) inside hend second,
      h.top_follow tall hinside atEnd first, h.top_follow tall inside atEnd (first.trans second),
      follow_height]
    omega
  | false =>
    have hwindow := window_of_not_atBottom tall atEnd (h.shown atEnd)
    have haway : v.atBottom mid = false := by
      rw [← Bool.not_eq_true, atBottom_iff, Shows]
      omega
    rw [follow_of_not_atBottom atEnd, follow_of_not_atBottom haway, follow_of_not_atBottom atEnd]

end View

end LogTail
