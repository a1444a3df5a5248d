import LogTail.Source

/-!
# What a key identifies

The text of a key can be taken apart in one way only: an escaped part holds no delimiter
but the percent sign, so that the first delimiter of a kind is the one that was put there.
Hence two sources have the same key just when they mean the same to the log service.
-/
namespace LogTail

namespace Key

/-- Where one part ends and the next begins can be seen if the next begins with a mark
that the part does not hold. -/
theorem cut_unique {m : Char} {xs ys rest rest' : List Char} (hx : m ∉ xs) (hy : m ∉ ys)
    (hr : ∀ c ∈ rest.head?, c = m) (hr' : ∀ c ∈ rest'.head?, c = m)
    (same : xs ++ rest = ys ++ rest') : xs = ys ∧ rest = rest' := by
  rcases List.append_eq_append_iff.mp same with ⟨more, rfl, rfl⟩ | ⟨more, rfl, rfl⟩
  · cases more with
    | nil => simp
    | cons c more =>
      obtain rfl : c = m := hr c rfl
      simp at hy
  · cases more with
    | nil => simp
    | cons c more =>
      obtain rfl : c = m := hr' c rfl
      simp at hx

theorem escapeChar_plain {c : Char} (h : c ∉ delimiters) : escapeChar c = [c] := by
  simp [escapeChar, h]

/-- All escapes have the same length and begin with the percent sign. -/
theorem escapeChar_delimiter (c : Char) (hc : c ∈ delimiters) :
    (escapeChar c).length = 3 ∧ (escapeChar c).head? = some '%' := by
  have hall : (delimiters.all fun c =>
      (escapeChar c).length == 3 && (escapeChar c).head? == some '%') = true := by decide
  simpa using List.all_eq_true.mp hall c hc

theorem escapeChar_inj (c : Char) (hc : c ∈ delimiters) (d : Char) (hd : d ∈ delimiters)
    (same : escapeChar c = escapeChar d) : c = d := by
  have hall : (delimiters.all fun c => delimiters.all fun d =>
      escapeChar c != escapeChar d || c == d) = true := by decide
  simpa [same] using List.all_eq_true.mp (List.all_eq_true.mp hall c hc) d hd

theorem not_mem_escapeChar (m : Char) (hm : m ∈ delimiters) (hne : m ≠ '%') (c : Char)
    (hc : c ∈ delimiters) : m ∉ escapeChar c := by
  have hall : (delimiters.all fun m => delimiters.all fun c =>
      m == '%' || !(escapeChar c).contains m) = true := by decide
  simpa [hne] using List.all_eq_true.mp (List.all_eq_true.mp hall m hm) c hc

/-- The first character of a text can be read off the escaped text. -/
theorem escapeChar_append_inj {c d : Char} {xs ys : List Char}
    (same : escapeChar c ++ xs = escapeChar d ++ ys) : c = d ∧ xs = ys := by
  -- a plain character is never the percent sign with which an escape begins
  have apart {c d : Char} {xs ys : List Char} (hc : c ∈ delimiters) (hd : d ∉ delimiters)
      (same : escapeChar c ++ xs = escapeChar d ++ ys) : False := by
    have hhead := congrArg List.head? same
    rw [escapeChar_plain hd, List.head?_append, (escapeChar_delimiter c hc).2] at hhead
    cases hhead
    exact hd (by decide)
  by_cases hc : c ∈ delimiters
  · by_cases hd : d ∈ delimiters
    · have hlen : (escapeChar c).length = (escapeChar d).length := by
        rw [(escapeChar_delimiter c hc).1, (escapeChar_delimiter d hd).1]
      obtain ⟨hsame, hrest⟩ := List.append_inj same hlen
      exact ⟨escapeChar_inj c hc d hd hsame, hrest⟩
    · exact (apart hc hd same).elim
  · by_cases hd : d ∈ delimiters
    · exact (apart hd hc same.symm).elim
    · rw [escapeChar_plain hc, escapeChar_plain hd] at same
      exact List.cons.inj same

theorem escape_injective {s t : List Char} (same : escape s = escape t) : s = t := by
  have escape_ne_nil (c : Char) (r : List Char) : escape (c :: r) ≠ escape [] := by
    by_cases hc : c ∈ delimiters
    · have hlen := (escapeChar_delimiter c hc).1
      intro h
      have hnil := congrArg List.length h
      simp [escape, hlen] at hnil
    · simp [escape, escapeChar_plain hc]
  induction s generalizing t with
  | nil =>
    cases t with
    | nil => rfl
    | cons d t => exact absurd same.symm (escape_ne_nil d t)
  | cons c s ih =>
    cases t with
    | nil => exact absurd same (escape_ne_nil c s)
    | cons d t =>
      obtain ⟨rfl, hrest⟩ := escapeChar_append_inj same
      rw [ih hrest]

/-- An escaped text holds no delimiter but the percent sign. -/
theorem not_mem_escape {mark : Char} (hm : mark ∈ delimiters) (hne : mark ≠ '%') (s : List Char) :
    mark ∉ escape s := by
  intro h
  obtain ⟨c, -, hmem⟩ := List.mem_flatMap.mp h
  by_cases hc : c ∈ delimiters
  · exact not_mem_escapeChar mark hm hne c hc hmem
  · rw [escapeChar_plain hc, List.mem_singleton] at hmem
    exact hc (hmem ▸ hm)

end Key

namespace StreamChoice

theorem eq_of_kind_of_value {a b : StreamChoice} (kind : a.kind = b.kind)
    (value : a.value? = b.value?) : a = b := by
  cases a <;> cases b <;> simp_all [StreamChoice.kind, value?]

theorem not_mem_kind : ∀ c : StreamChoice, ':' ∉ c.kind.toList ∧ '&' ∉ c.kind.toList
  | all | startingWith _ | exactly _ => by simp only [kind]; decide

end StreamChoice

namespace Source

open Key

variable {s t : Source}

/-- An optional part shows by the mark in front of it. -/
def marked (lead : List Char) : Option String → List Char
  | none => []
  | some v => lead ++ escape v.toList

theorem head?_marked {m : Char} {lead : List Char} (v : Option String) :
    ∀ c ∈ (marked (m :: lead) v).head?, c = m := by
  cases v <;> simp [marked]

theorem marked_injective {lead : List Char} {v w : Option String} (hl : lead ≠ [])
    (same : marked lead v = marked lead w) : v = w := by
  cases v with
  | none =>
    cases w with
    | none => rfl
    | some w => simp [marked, hl] at same
  | some v =>
    cases w with
    | none => simp [marked, hl] at same
    | some w =>
      have hvalue := escape_injective (List.append_cancel_left same)
      rw [String.toList_inj.mp hvalue]

theorem streamsPart_eq (c : StreamChoice) :
    streamsPart c = c.kind.toList ++ marked [':'] c.value? := by
  cases c <;> rfl

theorem patternPart_eq (p : Option String) : patternPart p = marked "&filter=".toList p := by
  cases p <;> rfl

theorem streamsPart_injective {a b : StreamChoice} (same : streamsPart a = streamsPart b) :
    a = b := by
  rw [streamsPart_eq, streamsPart_eq] at same
  obtain ⟨hkind, hvalue⟩ := cut_unique a.not_mem_kind.1 b.not_mem_kind.1 (head?_marked _)
    (head?_marked _) same
  exact StreamChoice.eq_of_kind_of_value (String.toList_inj.mp hkind)
    (marked_injective (by simp) hvalue)

theorem not_mem_streamsPart (c : StreamChoice) : '&' ∉ streamsPart c := by
  have hvalue : '&' ∉ marked [':'] c.value? := by
    cases c.value? with
    | none => simp [marked]
    | some v => simpa [marked] using not_mem_escape (by decide) (by decide) v.toList
  rw [streamsPart_eq, List.mem_append, not_or]
  exact ⟨c.not_mem_kind.2, hvalue⟩

/-- The parts of a key can be read off its text, one after the other. -/
theorem keyText_injective (same : s.keyText = t.keyText) :
    s.region = t.region ∧ s.group = t.group ∧ s.effectiveStreams = t.effectiveStreams ∧
      s.effectivePattern = t.effectivePattern := by
  have plain (part : String) {mark : Char} (hm : mark ∈ delimiters) (hne : mark ≠ '%') :
      mark ∉ escape part.toList := not_mem_escape hm hne _
  simp only [keyText, List.append_assoc, List.cons_append] at same
  have hparts := (List.cons.inj (List.append_cancel_left same)).2
  obtain ⟨hregion, hparts⟩ := cut_unique (m := ':') (plain _ (by decide) (by decide))
    (plain _ (by decide) (by decide)) (by simp) (by simp) hparts
  obtain ⟨hgroup, hparts⟩ := cut_unique (m := '?') (plain _ (by decide) (by decide))
    (plain _ (by decide) (by decide)) (by simp) (by simp) (List.cons.inj hparts).2
  have htail := List.append_cancel_left hparts
  rw [patternPart_eq, patternPart_eq] at htail
  obtain ⟨hstreams, hpattern⟩ := cut_unique (not_mem_streamsPart _) (not_mem_streamsPart _)
    (head?_marked (m := '&') _) (head?_marked (m := '&') _) htail
  exact ⟨String.toList_inj.mp (escape_injective hregion), String.toList_inj.mp (escape_injective hgroup),
    streamsPart_injective hstreams, marked_injective (by decide) hpattern⟩

theorem key_eq_iff : s.key = t.key ↔ s.region = t.region ∧ s.group = t.group ∧
    s.effectiveStreams = t.effectiveStreams ∧ s.effectivePattern = t.effectivePattern := by
  constructor
  · intro same
    have htext : String.ofList s.keyText = String.ofList t.keyText := congrArg Key.text same
    exact keyText_injective (String.ofList_injective htext)
  · rintro ⟨hregion, hgroup, hstreams, hpattern⟩
    simp only [key, keyText, hregion, hgroup, hstreams, hpattern]

/-- Two sources mean the same to the log service. -/
structure Alike (s t : Source) : Prop where
  region : s.region = t.region
  group : s.group = t.group
  /-- To choose all streams is to choose none. -/
  streams : ∀ c, c ≠ .all → (s.streams = some c ↔ t.streams = some c)
  /-- A pattern that trims to nothing is no pattern, and any other is taken as it stands. -/
  pattern : ∀ p, Text.trim p.toList ≠ [] → (s.pattern = some p ↔ t.pattern = some p)

theorem effectiveStreams_eq {c : StreamChoice} (hc : c ≠ .all) :
    s.effectiveStreams = c ↔ s.streams = some c := by
  unfold effectiveStreams
  cases s.streams with
  | none => simp [Ne.symm hc]
  | some d => simp

theorem effectivePattern_eq_some {p : String} :
    s.effectivePattern = some p ↔ s.pattern = some p ∧ Text.trim p.toList ≠ [] := by
  have hblank : (!Text.isAllBlank p) = true ↔ Text.trim p.toList ≠ [] := by
    rw [Ne, Text.trim_eq_nil_iff, Text.isAllBlank]
    simp
  rw [effectivePattern, Option.filter_eq_some_iff, hblank]

theorem effectiveStreams_eq_iff : s.effectiveStreams = t.effectiveStreams ↔
    ∀ c, c ≠ .all → (s.streams = some c ↔ t.streams = some c) := by
  constructor
  · intro same c hc
    rw [← effectiveStreams_eq hc, ← effectiveStreams_eq hc, same]
  · intro agree
    by_cases hs : s.effectiveStreams = .all
    · by_cases ht : t.effectiveStreams = .all
      · rw [hs, ht]
      · have hchosen := (agree _ ht).mpr ((effectiveStreams_eq ht).mp rfl)
        exact (effectiveStreams_eq ht).mpr hchosen
    · have hchosen := (agree _ hs).mp ((effectiveStreams_eq hs).mp rfl)
      exact ((effectiveStreams_eq hs).mpr hchosen).symm

theorem effectivePattern_eq_iff : s.effectivePattern = t.effectivePattern ↔
    ∀ p, Text.trim p.toList ≠ [] → (s.pattern = some p ↔ t.pattern = some p) := by
  rw [Option.ext_iff]
  simp only [effectivePattern_eq_some, and_congr_left_iff]

theorem alike_iff : s.Alike t ↔ s.region = t.region ∧ s.group = t.group ∧
    s.effectiveStreams = t.effectiveStreams ∧ s.effectivePattern = t.effectivePattern := by
  rw [effectiveStreams_eq_iff, effectivePattern_eq_iff]
  exact ⟨fun h => ⟨h.region, h.group, h.streams, h.pattern⟩,
    fun ⟨region, group, streams, pattern⟩ => ⟨region, group, streams, pattern⟩⟩

theorem Alike.key (h : s.Alike t) : s.key = t.key := key_eq_iff.mpr (alike_iff.mp h)

/-- Whether a source can be tailed can be told from its key. -/
theorem check_of_key (same : s.key = t.key) : s.check = t.check := by
  obtain ⟨hregion, hgroup, hstreams, -⟩ := key_eq_iff.mp same
  simp only [check, hregion, hgroup, hstreams]

/-- Two sources have the same key just when they mean the same, which is when their regions,
their groups, and what counts of their stream choices and patterns are the same; and then
both can be tailed, or neither can and for the same reason. -/
theorem same_key_iff_alike (s t : Source) :
    (s.key = t.key ↔ s.Alike t) ∧
    (s.Alike t ↔ s.region = t.region ∧ s.group = t.group ∧
      s.effectiveStreams = t.effectiveStreams ∧ s.effectivePattern = t.effectivePattern) ∧
    (s.key = t.key → s.check = t.check) :=
  ⟨key_eq_iff.trans alike_iff.symm, alike_iff, check_of_key⟩

/-- A group that looks like an escape is escaped in turn. -/
example : ({ region := "eu", group := "a%3Ab" } : Source).key.text =
    "livetail:eu:a%253Ab?streams=all" := by decide

end Source

end LogTail
