import LogTail.Source

/-!
# Maps by key

A finite map from keys, held as a list of entries in strictly ascending order of
their keys. `get?` is the view: every operation is described by what it does to
`get?` at each key, and these laws hold of every list; the order is a law apart.
-/
namespace LogTail

namespace Key

theorem lt_irrefl (k : Key) : ¬ k < k := String.lt_irrefl k.text

theorem lt_trans {a b c : Key} (hab : a < b) (hbc : b < c) : a < c := String.lt_trans hab hbc

theorem lt_of_not_lt {a b : Key} (h : ¬ a < b) (hne : a ≠ b) : b < a := by
  have hle : b.text ≤ a.text := String.not_lt.mp h
  refine String.not_le.mp fun hge => hne ?_
  obtain ⟨a⟩ := a
  obtain ⟨b⟩ := b
  exact congrArg Key.mk (String.le_antisymm hge hle)

end Key

abbrev KeyMap (α : Type) := List (Key × α)

namespace KeyMap

variable {α β : Type}

def get? (k : Key) : KeyMap α → Option α
  | [] => none
  | (j, a) :: rest => if j = k then some a else get? k rest

def contains (k : Key) (m : KeyMap α) : Bool := (get? k m).isSome

/-- The new entry takes the place of an old one with its key. -/
def insert (k : Key) (a : α) : KeyMap α → KeyMap α
  | [] => [(k, a)]
  | (j, b) :: rest =>
    if j = k then (k, a) :: rest
    else if k < j then (k, a) :: (j, b) :: rest
    else (j, b) :: insert k a rest

def erase (k : Key) : KeyMap α → KeyMap α
  | [] => []
  | (j, b) :: rest => if j = k then erase k rest else (j, b) :: erase k rest

/-- Changes the value at a key, if there is one. -/
def adjust (k : Key) (f : α → α) : KeyMap α → KeyMap α
  | [] => []
  | (j, b) :: rest => (j, if j = k then f b else b) :: adjust k f rest

def keys (m : KeyMap α) : List Key := m.map (·.1)

/-- Keys strictly ascend. -/
def Ordered (m : KeyMap α) : Prop := m.Pairwise fun a b => a.1 < b.1

theorem get?_insert (k j : Key) (a : α) (m : KeyMap α) :
    get? j (insert k a m) = if k = j then some a else get? j m := by
  fun_induction insert k a m <;> grind [get?]

theorem get?_erase (k j : Key) (m : KeyMap α) :
    get? j (erase k m) = if k = j then none else get? j m := by
  fun_induction erase k m <;> grind [get?]

theorem get?_adjust (k j : Key) (f : α → α) (m : KeyMap α) :
    get? j (adjust k f m) = if k = j then (get? j m).map f else get? j m := by
  fun_induction adjust k f m <;> grind [get?]

@[simp] theorem keys_adjust (k : Key) (f : α → α) (m : KeyMap α) :
    keys (adjust k f m) = keys m := by
  induction m with
  | nil => rfl
  | cons e rest ih => simpa [adjust, keys] using ih

theorem mem_erase {k : Key} {e : Key × α} {m : KeyMap α} (h : e ∈ erase k m) : e ∈ m := by
  fun_induction erase k m <;> grind

theorem mem_insert {k : Key} {a : α} {e : Key × α} {m : KeyMap α} (h : e ∈ insert k a m) :
    e = (k, a) ∨ e ∈ m := by
  fun_induction insert k a m <;> grind

theorem Ordered.erase {k : Key} {m : KeyMap α} (h : Ordered m) : Ordered (erase k m) := by
  induction m with
  | nil => exact h
  | cons e rest ih =>
    obtain ⟨hd, tl⟩ := List.pairwise_cons.mp h
    simp only [KeyMap.erase]
    split
    · exact ih tl
    · exact List.pairwise_cons.mpr ⟨fun x hx => hd x (mem_erase hx), ih tl⟩

theorem Ordered.insert {k : Key} {a : α} {m : KeyMap α} (h : Ordered m) :
    Ordered (insert k a m) := by
  induction m with
  | nil => exact List.pairwise_singleton _ _
  | cons e rest ih =>
    obtain ⟨j, b⟩ := e
    obtain ⟨hd, tl⟩ := List.pairwise_cons.mp h
    simp only [KeyMap.insert]
    by_cases hjk : j = k
    · subst hjk
      rw [if_pos rfl]
      exact List.pairwise_cons.mpr ⟨hd, tl⟩
    rw [if_neg hjk]
    by_cases hkj : k < j
    · rw [if_pos hkj]
      refine List.pairwise_cons.mpr ⟨fun x hx => ?_, h⟩
      rcases List.mem_cons.mp hx with rfl | hx
      · exact hkj
      · exact Key.lt_trans hkj (hd x hx)
    · rw [if_neg hkj]
      refine List.pairwise_cons.mpr ⟨fun x hx => ?_, ih tl⟩
      rcases mem_insert hx with rfl | hx
      · exact Key.lt_of_not_lt hkj (Ne.symm hjk)
      · exact hd x hx

/-- In an ordered map no key has two entries. -/
theorem Ordered.get?_eq_some {k : Key} {a : α} {m : KeyMap α} (h : Ordered m) :
    get? k m = some a ↔ (k, a) ∈ m := by
  induction m with
  | nil => simp [get?]
  | cons e rest ih =>
    obtain ⟨j, b⟩ := e
    obtain ⟨hd, tl⟩ := List.pairwise_cons.mp h
    by_cases hjk : j = k
    · subst hjk
      have hnot : (j, a) ∉ rest := fun hmem => Key.lt_irrefl j (hd _ hmem)
      simp [get?, hnot, eq_comm]
    · simp [get?, hjk, Ne.symm hjk, ih tl]

theorem Ordered.filter {m : KeyMap α} (h : Ordered m) (p : Key × α → Bool) :
    Ordered (m.filter p) := List.Pairwise.filter p h

theorem Ordered.get?_filter {k : Key} {a : α} {m : KeyMap α} (h : Ordered m) (p : Key × α → Bool) :
    get? k (m.filter p) = some a ↔ get? k m = some a ∧ p (k, a) = true := by
  rw [(h.filter p).get?_eq_some, h.get?_eq_some, List.mem_filter]

theorem mem_keys_of_get? {k : Key} {a : α} {m : KeyMap α} (h : get? k m = some a) : k ∈ keys m := by
  induction m with
  | nil => cases h
  | cons e rest ih =>
    simp only [get?] at h
    split at h
    · rename_i hk
      exact hk ▸ List.mem_cons_self
    · exact List.mem_cons_of_mem _ (ih h)

theorem Ordered.nodup_keys {m : KeyMap α} (h : Ordered m) : (keys m).Nodup := by
  refine List.pairwise_map.mpr (h.imp fun {a b} hab heq => ?_)
  rw [heq] at hab
  exact Key.lt_irrefl _ hab

theorem eq_nil_of_get? {m : KeyMap α} (h : ∀ k, get? k m = none) : m = [] := by
  cases m with
  | nil => rfl
  | cons e rest =>
    have he := h e.1
    simp [get?] at he

theorem contains_of_mem_keys {k : Key} {m : KeyMap α} (h : k ∈ keys m) : contains k m = true := by
  induction m with
  | nil => cases h
  | cons e rest ih =>
    by_cases he : e.1 = k
    · simp [contains, get?, he]
    · have hrest : k ∈ keys rest := (List.mem_cons.mp h).resolve_left (Ne.symm he)
      simpa [contains, get?, he] using ih hrest

theorem contains_iff {k : Key} {m : KeyMap α} : contains k m = true ↔ ∃ a, get? k m = some a :=
  Option.isSome_iff_exists

theorem get?_of_not_contains {k : Key} {m : KeyMap α} (h : ¬ contains k m = true) :
    get? k m = none := by
  simpa [contains] using h

theorem get?_of_not_mem_keys {k : Key} {m : KeyMap α} (h : k ∉ keys m) : get? k m = none := by
  cases held : get? k m with
  | none => rfl
  | some a => exact absurd (mem_keys_of_get? held) h

end KeyMap

end LogTail
