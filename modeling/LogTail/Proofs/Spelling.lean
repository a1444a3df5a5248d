import LogTail.Logging
import Mathlib.Data.List.Forall2

/-!
# How a name may be spelled

Neither the blanks around the name of a level or a format nor the case of its letters make
a difference.
-/
namespace LogTail

namespace Text

/-- From the first letter to the last one there are no blanks. -/
theorem isBlank_among_letters {c : Char} (low : 65 ≤ c.toNat) (high : c.toNat ≤ 122) :
    isBlank c = false := by
  simp only [isBlank, Bool.or_eq_false_iff, Bool.and_eq_false_iff, decide_eq_false_iff_not,
    beq_eq_false_iff_ne]
  omega

theorem isBlank_toLower (c : Char) : isBlank c.toLower = isBlank c := by
  unfold Char.toLower
  split
  · rename_i capital
    have low : 65 ≤ c.toNat := capital.1
    have high : c.toNat ≤ 90 := capital.2
    have hnat : (c.val + ('a'.val - 'A'.val)).toNat = c.toNat + 32 := by
      rw [UInt32.toNat_add]
      exact Nat.mod_eq_of_lt (Nat.lt_of_le_of_lt (Nat.add_le_add_right high 32) (by decide))
    rw [isBlank_among_letters low (by omega)]
    refine isBlank_among_letters ?_ ?_
    · show 65 ≤ (c.val + ('a'.val - 'A'.val)).toNat
      omega
    · show (c.val + ('a'.val - 'A'.val)).toNat ≤ 122
      omega
  · rfl

theorem trim_blank_append {p : List Char} (blank : ∀ c ∈ p, isBlank c = true) (s : List Char) :
    trim (p ++ s) = trim s := by
  rw [trim, trimStart, List.dropWhile_append_of_pos blank, trim, trimStart]

theorem trimEnd_append_blank {q : List Char} (blank : ∀ c ∈ q, isBlank c = true) (s : List Char) :
    trimEnd (s ++ q) = trimEnd s := by
  have hreverse : ∀ c ∈ q.reverse, isBlank c = true := fun c hc => blank c (List.mem_reverse.mp hc)
  rw [trimEnd, List.reverse_append, List.dropWhile_append_of_pos hreverse, trimEnd]

theorem trim_append_blank {q : List Char} (blank : ∀ c ∈ q, isBlank c = true) (s : List Char) :
    trim (s ++ q) = trim s := by
  cases hs : (trimStart s).isEmpty with
  | true =>
    -- all of it is blank
    have hall : s.all isBlank = true := (trimStart_eq_nil_iff s).mp (List.isEmpty_iff.mp hs)
    rw [(trim_eq_nil_iff s).mpr hall, trim_eq_nil_iff, List.all_append, hall]
    simpa using blank
  | false =>
    have hstart : trimStart (s ++ q) = trimStart s ++ q := by
      unfold trimStart at hs ⊢
      rw [List.dropWhile_append, if_neg (by rw [hs]; decide)]
    rw [trim, hstart, trimEnd_append_blank blank, trim]

theorem trim_map {f : Char → Char} (same : ∀ c, isBlank (f c) = isBlank c) (s : List Char) :
    trim (s.map f) = (trim s).map f := by
  have hcomp : isBlank ∘ f = isBlank := funext same
  have hdrop (s : List Char) : (s.map f).dropWhile isBlank = (s.dropWhile isBlank).map f := by
    rw [List.dropWhile_map, hcomp]
  rw [trim, trimStart, hdrop, trimEnd, ← List.map_reverse, hdrop, ← List.map_reverse, trim,
    trimStart, trimEnd]

end Text

/-- Two names have the same letters but for their case, and blanks or nothing around them. -/
def SameSpelling (a b : String) : Prop :=
  ∃ p s q p' t q' : List Char, a.toList = p ++ s ++ q ∧ b.toList = p' ++ t ++ q' ∧
    (∀ c ∈ p ++ q ++ p' ++ q', Text.isBlank c = true) ∧
    List.Forall₂ (fun c d => c.toLower = d.toLower) s t

theorem plainName_eq {a : String} {p s q : List Char} (ha : a.toList = p ++ s ++ q)
    (hp : ∀ c ∈ p, Text.isBlank c = true) (hq : ∀ c ∈ q, Text.isBlank c = true) :
    plainName a = String.ofList (Text.trim (s.map Char.toLower)) := by
  rw [plainName, ha, Text.trim_append_blank hq, Text.trim_blank_append hp,
    Text.trim_map Text.isBlank_toLower]

theorem SameSpelling.plainName {a b : String} (h : SameSpelling a b) :
    plainName a = plainName b := by
  obtain ⟨p, s, q, p', t, q', ha, hb, blank, same⟩ := h
  have hlower : s.map Char.toLower = t.map Char.toLower := by
    rwa [← List.forall₂_eq_eq_eq, List.forall₂_map_left_iff, List.forall₂_map_right_iff]
  rw [plainName_eq ha, plainName_eq hb, hlower]
  all_goals
    intro c hc
    exact blank c (by simp [hc])

/-- However a name is spelled, it names the same level and the same format, or none. -/
theorem SameSpelling.names {a b : String} (h : SameSpelling a b) :
    Level.ofName? a = Level.ofName? b ∧ Format.ofName? a = Format.ofName? b := by
  simp only [Level.ofName?, Format.ofName?, h.plainName, and_self]

end LogTail
