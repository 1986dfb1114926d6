import NativeBindings.Proofs.Text.Bytes
import NativeBindings.Text.Quotation

/-!
# Quoted occurrences

A text is looked for between two quotes of one kind inside a span of another text. What is found is
the span of the text itself, without the quotes: the first occurrence in double quotes, or the first
one in single quotes if there is none. Nothing is found only if there is neither, or if the span is
no span of whole characters.

## Main definitions

- `IsQuoted` — a span that holds a text with a quote on each side
- `IsFirstQuoted` — the first one of them

## Main statements

- `exists_occurrence?_append` — every occurrence is found, or one in front of it
- `isQuoted_iff_region` — quoted occurrences are occurrences of the text with its quotes
- `finds_quoted?` — what is found, and when nothing is
-/

namespace NativeBindings

/-- The span is inside another one and holds the text, and the bytes on both sides of it are the
quote. -/
structure IsQuoted (quote : Char) (source : List Char) (within : Span) (text : List Char)
    (span : Span) : Prop where
  start_lt : within.start < span.start
  stop_lt : span.stop < within.stop
  holds : span.Holds source text
  opening : (utf8 source)[span.start - 1]? = some quote.toUInt8
  closing : (utf8 source)[span.stop]? = some quote.toUInt8

/-- The first span that holds the text in quotes. -/
structure IsFirstQuoted (quote : Char) (source : List Char) (within : Span) (text : List Char)
    (span : Span) : Prop where
  isQuoted : IsQuoted quote source within text span
  start_le : ∀ other, IsQuoted quote source within text other → span.start ≤ other.start

variable {quote : Char} {source region text pattern s : List Char} {within span : Span} {n : Nat}

/-! ## Occurrences -/

theorem append_of_occurrence? (h : occurrence? pattern s = some n) :
    ∃ before behind, s = before ++ (pattern ++ behind) ∧ before.length = n := by
  induction s generalizing n with
  | nil =>
    rw [occurrence?] at h
    split at h
    next hnil =>
      cases h
      exact ⟨[], [], by rw [List.isEmpty_iff.1 hnil]; rfl, rfl⟩
    next => cases h
  | cons c s ih =>
    rw [occurrence?] at h
    split at h
    next hprefix =>
      cases h
      obtain ⟨behind, hbehind⟩ := List.isPrefixOf_iff_prefix.1 hprefix
      exact ⟨[], behind, hbehind.symm, rfl⟩
    next =>
      obtain ⟨m, hm, rfl⟩ := Option.map_eq_some_iff.1 h
      obtain ⟨before, behind, rfl, rfl⟩ := ih hm
      exact ⟨c :: before, behind, rfl, rfl⟩

/-- An occurrence is found if there is none in front of it. -/
theorem exists_occurrence?_append (pattern before behind : List Char) :
    ∃ n, occurrence? pattern (before ++ (pattern ++ behind)) = some n ∧ n ≤ before.length := by
  induction before with
  | nil =>
    refine ⟨0, ?_, Nat.le_refl 0⟩
    rw [List.nil_append]
    cases h : pattern ++ behind with
    | nil =>
      rw [occurrence?, List.append_eq_nil_iff.1 h |>.1]
      rfl
    | cons c s => rw [occurrence?, if_pos (List.isPrefixOf_iff_prefix.2 ⟨behind, h⟩)]
  | cons c before ih =>
    rw [List.cons_append, occurrence?]
    split
    · exact ⟨0, rfl, Nat.zero_le _⟩
    · obtain ⟨n, hn, hle⟩ := ih
      exact ⟨n + 1, by rw [hn]; rfl, Nat.succ_le_succ hle⟩

/-! ## Quotes -/

theorem byteLength_concat (hquote : quote.utf8Size = 1) (s : List Char) :
    byteLength (s ++ [quote]) = byteLength s + 1 := by
  rw [byteLength_append, byteLength_cons, hquote, byteLength_nil]

/-- A span in quotes is the text between two quotes. -/
theorem isQuoted_iff (hquote : quote.utf8Size = 1) :
    IsQuoted quote source within text span ↔
      ∃ before behind, source = before ++ (quote :: (text ++ [quote]) ++ behind) ∧
        within.start ≤ byteLength before ∧
        byteLength before + byteLength (quote :: (text ++ [quote])) ≤ within.stop ∧
        span = ⟨byteLength before + 1, byteLength before + 1 + byteLength text⟩ := by
  have hquotes : byteLength (quote :: (text ++ [quote])) = 1 + (byteLength text + 1) := by
    rw [byteLength_cons, byteLength_concat hquote, hquote]
  rw [hquotes]
  constructor
  · rintro ⟨hstart, hstop, ⟨front, back, rfl, rfl⟩, hopening, hclosing⟩
    have hfront : front ≠ [] := by
      rintro rfl
      exact Nat.not_lt_zero _ hstart
    rw [List.append_assoc, getElem?_utf8_pred_iff hquote hfront] at hopening
    rw [← byteLength_append, getElem?_utf8_byteLength_iff hquote] at hclosing
    obtain ⟨before, rfl⟩ := List.getLast?_eq_some_iff.1 hopening
    obtain ⟨behind, rfl⟩ := List.head?_eq_some_iff.1 hclosing
    rw [byteLength_concat hquote] at hstart hstop ⊢
    dsimp only at hstart hstop
    exact ⟨before, behind, by simp, by omega, by omega, rfl⟩
  · rintro ⟨before, behind, rfl, hstart, hstop, rfl⟩
    have hsource : before ++ (quote :: (text ++ [quote]) ++ behind) =
        before ++ [quote] ++ text ++ (quote :: behind) := by simp
    rw [hsource, ← byteLength_concat hquote]
    refine ⟨?_, ?_, ⟨_, _, rfl, rfl⟩, ?_, ?_⟩
    · rw [byteLength_concat hquote]
      exact Nat.lt_succ_of_le hstart
    · rw [byteLength_concat hquote]
      dsimp only
      omega
    · rw [List.append_assoc, getElem?_utf8_pred_iff hquote (by simp)]
      exact List.getLast?_concat
    · rw [← byteLength_append, getElem?_utf8_byteLength_iff hquote]
      rfl

/-- The spans in quotes are where the text with its quotes occurs in what the outer span holds. -/
theorem isQuoted_iff_region (hquote : quote.utf8Size = 1) (hregion : within.Holds source region) :
    IsQuoted quote source within text span ↔
      ∃ before behind, region = before ++ (quote :: (text ++ [quote]) ++ behind) ∧
        span = ⟨within.start + (byteLength before + 1),
          within.start + (byteLength before + 1) + byteLength text⟩ := by
  obtain ⟨front, back, rfl, rfl⟩ := hregion
  rw [isQuoted_iff hquote]
  constructor
  · rintro ⟨before, behind, hsource, hstart, hstop, rfl⟩
    rw [List.append_assoc] at hsource
    obtain ⟨between, rfl, hrest⟩ := exists_append_of_byteLength_le hsource hstart
    rw [← List.append_assoc between] at hrest
    obtain ⟨behind', rfl, -⟩ := exists_append_of_byteLength_le hrest.symm (by
      rw [byteLength_append] at hstop ⊢
      dsimp only at hstop
      omega)
    refine ⟨between, behind', List.append_assoc _ _ _, ?_⟩
    rw [byteLength_append, Nat.add_assoc]
  · rintro ⟨before, behind, rfl, rfl⟩
    refine ⟨front ++ before, behind ++ back, by simp, ?_, ?_, ?_⟩
    · simp
    · simp
      omega
    · simp [Nat.add_assoc]

/-! ## Quoted texts -/

theorem isFirstQuoted_of_quotedBy? (hquote : quote.utf8Size = 1)
    (hregion : within.Holds source region) {offset : Nat}
    (h : quotedBy? quote text region = some offset) :
    IsFirstQuoted quote source within text
      ⟨within.start + offset, within.start + offset + byteLength text⟩ := by
  obtain ⟨n, hn, rfl⟩ := Option.map_eq_some_iff.1 h
  obtain ⟨before, behind, hsplit, rfl⟩ := append_of_occurrence? hn
  have htake : region.take before.length = before := by rw [hsplit, List.take_left']; rfl
  rw [htake]
  refine ⟨(isQuoted_iff_region hquote hregion).2 ⟨before, behind, hsplit, rfl⟩, ?_⟩
  intro other hother
  obtain ⟨before', behind', hsplit', rfl⟩ := (isQuoted_iff_region hquote hregion).1 hother
  obtain ⟨m, hm, hle⟩ := exists_occurrence?_append (quote :: (text ++ [quote])) before' behind'
  rw [← hsplit', hn, Option.some_inj] at hm
  -- a start of the region with fewer characters has fewer bytes
  have hprefix : before <+: before' :=
    List.prefix_of_prefix_length_le ⟨_, hsplit.symm⟩ ⟨_, hsplit'.symm⟩ (hm ▸ hle)
  obtain ⟨between, rfl⟩ := hprefix
  rw [byteLength_append]
  dsimp only
  omega

theorem not_isQuoted_of_quotedBy?_eq_none (hquote : quote.utf8Size = 1)
    (hregion : within.Holds source region) (h : quotedBy? quote text region = none) (span : Span) :
    ¬ IsQuoted quote source within text span := by
  intro hquoted
  obtain ⟨before, behind, rfl, -⟩ := (isQuoted_iff_region hquote hregion).1 hquoted
  obtain ⟨n, hn, -⟩ := exists_occurrence?_append (quote :: (text ++ [quote])) before behind
  rw [quotedBy?, hn] at h
  cases h

theorem IsFirstQuoted.eq {span' : Span} (h : IsFirstQuoted quote source within text span)
    (h' : IsFirstQuoted quote source within text span') : span = span' := by
  have hle := h.start_le span' h'.isQuoted
  have hge := h'.start_le span h.isQuoted
  obtain ⟨before, behind, -, rfl⟩ := h.isQuoted.holds
  obtain ⟨before', behind', -, rfl⟩ := h'.isQuoted.holds
  have hlength : byteLength before = byteLength before' := Nat.le_antisymm hle hge
  rw [hlength]

theorem quotedBy?_eq_some_iff (quote : Char) (hquote : quote.utf8Size = 1)
    (hregion : within.Holds source region) :
    (∃ offset, quotedBy? quote text region = some offset ∧
        ⟨within.start + offset, within.start + offset + byteLength text⟩ = span) ↔
      IsFirstQuoted quote source within text span := by
  constructor
  · rintro ⟨offset, hoffset, rfl⟩
    exact isFirstQuoted_of_quotedBy? hquote hregion hoffset
  · intro hfirst
    cases hoffset : quotedBy? quote text region with
    | none =>
      exact absurd hfirst.isQuoted (not_isQuoted_of_quotedBy?_eq_none hquote hregion hoffset span)
    | some offset =>
      exact ⟨offset, rfl, (isFirstQuoted_of_quotedBy? hquote hregion hoffset).eq hfirst⟩

theorem quotedBy?_eq_none_iff (quote : Char) (hquote : quote.utf8Size = 1)
    (hregion : within.Holds source region) :
    quotedBy? quote text region = none ↔ ∀ span, ¬ IsQuoted quote source within text span := by
  constructor
  · exact not_isQuoted_of_quotedBy?_eq_none hquote hregion
  · intro hnone
    cases hoffset : quotedBy? quote text region with
    | none => rfl
    | some offset =>
      exact absurd (isFirstQuoted_of_quotedBy? hquote hregion hoffset).isQuoted (hnone _)

theorem quoted?_eq_map (hregion : within.Holds source region) :
    quoted? source within text =
      ((quotedBy? '"' text region).or (quotedBy? '\'' text region)).map fun offset =>
        ⟨within.start + offset, within.start + offset + byteLength text⟩ := by
  rw [quoted?, Span.slice?_eq_some_iff.2 hregion, Option.map_eq_bind]
  rfl

/-- In a span of whole characters, the text is found where it first stands in double quotes, or else
where it first stands in single quotes. -/
theorem quoted?_eq_some_iff (hregion : within.Holds source region) :
    quoted? source within text = some span ↔
      IsFirstQuoted '"' source within text span ∨
        (∀ other, ¬ IsQuoted '"' source within text other) ∧
          IsFirstQuoted '\'' source within text span := by
  rw [quoted?_eq_map hregion, ← quotedBy?_eq_some_iff '"' rfl hregion,
    ← quotedBy?_eq_some_iff '\'' rfl hregion, ← quotedBy?_eq_none_iff '"' rfl hregion]
  cases quotedBy? '"' text region <;> simp

theorem quoted?_eq_none_iff (hregion : within.Holds source region) :
    quoted? source within text = none ↔
      ∀ quote ∈ ['"', '\''], ∀ span, ¬ IsQuoted quote source within text span := by
  rw [quoted?_eq_map hregion, Option.map_eq_none_iff, Option.or_eq_none_iff,
    quotedBy?_eq_none_iff _ rfl hregion, quotedBy?_eq_none_iff _ rfl hregion]
  simp

/-- What is found in a span of whole characters is the first text in double quotes, or else the first
one in single quotes. Nothing is found only if the text is in neither, or if the span is not one of
whole characters. -/
theorem finds_quoted? (source : List Char) (within : Span) (text : List Char) :
    (∀ span, quoted? source within text = some span ↔
      (∃ region, within.Holds source region) ∧
        (IsFirstQuoted '"' source within text span ∨
          (∀ other, ¬ IsQuoted '"' source within text other) ∧
            IsFirstQuoted '\'' source within text span)) ∧
    (quoted? source within text = none ↔
      (¬ ∃ region, within.Holds source region) ∨
        ∀ quote ∈ ['"', '\''], ∀ span, ¬ IsQuoted quote source within text span) := by
  by_cases hwithin : ∃ region, within.Holds source region
  · obtain ⟨region, hregion⟩ := hwithin
    have hexists : ∃ region, within.Holds source region := ⟨region, hregion⟩
    constructor
    · intro span
      rw [quoted?_eq_some_iff hregion, and_iff_right hexists]
    · rw [quoted?_eq_none_iff hregion, or_iff_right (not_not_intro hexists)]
  · have hslice : within.slice? source = none := by
      rw [Option.eq_none_iff_forall_ne_some]
      exact fun region h => hwithin ⟨region, Span.slice?_eq_some_iff.1 h⟩
    have hnone : quoted? source within text = none := by rw [quoted?, hslice]; rfl
    constructor
    · intro span
      rw [hnone]
      exact ⟨nofun, fun h => absurd h.1 hwithin⟩
    · exact ⟨fun _ => .inl hwithin, fun _ => hnone⟩

/-- Double quotes come first, wherever they stand. -/
example : quoted? "é='x',\"x\"".toList ⟨2, 10⟩ ['x'] = some ⟨8, 9⟩ := by decide

end NativeBindings
