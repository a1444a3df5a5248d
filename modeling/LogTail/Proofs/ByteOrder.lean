import LogTail.KeyMap
import Mathlib.Tactic.SplitIfs

/-!
# The order of texts and of their bytes

Texts are ordered code point by code point. A code point of a higher number has a greater
encoding, which differs before either ends, so the bytes of texts are ordered as the texts
are.
-/
namespace LogTail

namespace Text

open String (utf8EncodeChar)

theorem code_lt {c : Char} : c.val.toNat < 0x110000 := by
  rcases c.valid with h | ⟨-, h⟩
  · exact Nat.lt_trans h (by decide)
  · exact h

/-- Of two numbers to the base 64 the greater one has a greater digit, and the same digits
before it. -/
theorem digits_lt {v w : Nat} (h : v < w) :
    v / 262144 < w / 262144 ∨
      v / 262144 = w / 262144 ∧ (v / 4096 % 64 < w / 4096 % 64 ∨
        v / 4096 % 64 = w / 4096 % 64 ∧ (v / 64 % 64 < w / 64 % 64 ∨
          v / 64 % 64 = w / 64 % 64 ∧ v % 64 < w % 64)) := by
  have last {v w : Nat} (h : v < w) :
      v / 64 < w / 64 ∨ v / 64 = w / 64 ∧ v % 64 < w % 64 := by omega
  have hv₂ : v / 4096 = v / 64 / 64 := by omega
  have hv₃ : v / 262144 = v / 64 / 64 / 64 := by omega
  have hw₂ : w / 4096 = w / 64 / 64 := by omega
  have hw₃ : w / 262144 = w / 64 / 64 / 64 := by omega
  rw [hv₂, hv₃, hw₂, hw₃]
  rcases last h with h | ⟨he, h⟩
  · rcases last h with h | ⟨he, h⟩
    · rcases last h with h | ⟨he, h⟩
      · exact .inl h
      · exact .inr ⟨he, .inl h⟩
    · exact .inr ⟨by rw [he], .inr ⟨by rw [he], .inl h⟩⟩
  · exact .inr ⟨by rw [he], .inr ⟨by rw [he], .inr ⟨by rw [he], h⟩⟩⟩

theorem head_lt {a b : Nat} {s t : List UInt8} (hb : b < 256) (h : a < b) :
    UInt8.ofNat a :: s < UInt8.ofNat b :: t := by
  rw [List.cons_lt_cons_iff, UInt8.lt_iff_toNat_lt, UInt8.toNat_ofNat', UInt8.toNat_ofNat']
  exact .inl (by omega)

theorem tail_lt {a b : Nat} {s t : List UInt8} (same : a = b) (h : s < t) :
    UInt8.ofNat a :: s < UInt8.ofNat b :: t :=
  List.cons_lt_cons_iff.mpr (.inr ⟨by rw [same], h⟩)

/-- Whatever follows, the smaller character makes the smaller bytes. -/
theorem encode_append_lt {c d : Char} (h : c < d) (s t : List UInt8) :
    utf8EncodeChar c ++ s < utf8EncodeChar d ++ t := by
  have hlt : c.val.toNat < d.val.toNat := h
  have hmax : d.val.toNat < 0x110000 := code_lt
  have hdigits := digits_lt hlt
  unfold utf8EncodeChar
  generalize c.val.toNat = v at hlt hdigits
  generalize d.val.toNat = w at hlt hmax hdigits
  simp only
  split_ifs
  -- of unequal lengths the longer encoding has the greater first byte
  all_goals try first | omega | exact head_lt (by omega) (by omega)
  · rcases hdigits with h | ⟨-, h | ⟨-, h | ⟨he₁, h⟩⟩⟩
    · omega
    · omega
    · exact head_lt (by omega) (by omega)
    · exact tail_lt (by omega) (head_lt (by omega) (by omega))
  · rcases hdigits with h | ⟨-, h | ⟨he₂, h | ⟨he₁, h⟩⟩⟩
    · omega
    · exact head_lt (by omega) (by omega)
    · exact tail_lt (by omega) (head_lt (by omega) (by omega))
    · exact tail_lt (by omega) (tail_lt (by omega) (head_lt (by omega) (by omega)))
  · rcases hdigits with h | ⟨he₃, h | ⟨he₂, h | ⟨he₁, h⟩⟩⟩
    · exact head_lt (by omega) (by omega)
    · exact tail_lt (by omega) (head_lt (by omega) (by omega))
    · exact tail_lt (by omega) (tail_lt (by omega) (head_lt (by omega) (by omega)))
    · exact tail_lt (by omega)
        (tail_lt (by omega) (tail_lt (by omega) (head_lt (by omega) (by omega))))

/-- The bytes of characters are ordered as the characters are. -/
theorem encode_lt {s t : List Char} (h : s < t) :
    s.flatMap utf8EncodeChar < t.flatMap utf8EncodeChar := by
  induction t generalizing s with
  | nil => exact absurd h (List.not_lt_nil s)
  | cons d t ih =>
    cases s with
    | nil =>
      have hlength : 0 < (utf8EncodeChar d).length := by
        rw [String.length_utf8EncodeChar]
        exact d.utf8Size_pos
      obtain ⟨b, rest, hb⟩ := List.exists_cons_of_length_pos hlength
      rw [List.flatMap_cons, hb]
      exact List.nil_lt_cons b _
    | cons c s =>
      rw [List.flatMap_cons, List.flatMap_cons]
      rcases List.cons_lt_cons_iff.mp h with hcd | ⟨rfl, hst⟩
      · exact encode_append_lt hcd _ _
      · exact List.append_left_lt (ih hst)

end Text

namespace Key

/-- The bytes in which a key is written. -/
def bytes (k : Key) : List UInt8 := k.text.toByteArray.data.toList

theorem bytes_eq (k : Key) : k.bytes = k.text.toList.flatMap String.utf8EncodeChar := by
  rw [bytes, ← String.utf8Encode_toList, List.utf8Encode, List.toList_data_toByteArray]

/-- Keys are ordered as their bytes are. -/
theorem bytes_lt_iff {a b : Key} : a.bytes < b.bytes ↔ a < b := by
  have up {a b : Key} (h : a < b) : a.bytes < b.bytes := by
    rw [bytes_eq, bytes_eq]
    exact Text.encode_lt h
  refine ⟨fun h => ?_, up⟩
  refine Decidable.byContradiction fun hnot => ?_
  by_cases same : a = b
  · subst same
    exact List.lt_irrefl a.bytes h
  · exact List.lt_asymm h (up (lt_of_not_lt hnot same))

end Key

end LogTail
