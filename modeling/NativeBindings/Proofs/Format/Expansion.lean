import NativeBindings.Proofs.Format.Grammar
import NativeBindings.Proofs.Format.Specifier

/-!
# Expansion of composite templates

A template has a text if and only if it follows the grammar, all its items name arguments, and the
arguments accept the specifiers. The text is made of the texts of the pieces in their order.
Otherwise the error is that of the leftmost place where one of these conditions fails.

## Main definitions

- `Template.Piece.Fits` — the arguments have a text for a piece
- `Template.IsExpansion` — the texts of a sequence of pieces
- `Template.FailsWith` — where a template has no text, and why
- `Template.FollowsGrammar` — what the grammar says of the value of a template

## Main statements

- `Template.expand_append` — a template that has a text does not change what follows it
- `followsGrammar_format` — the value of a template follows its grammar
- `format_composes` — templates compose, and every text is the value of a template
-/

namespace NativeBindings

namespace Template

variable {args : List FormatArgument} {sym : NumberSymbols}

/-- `out` is `text` with just enough blanks on the left for a positive width, on the right for a
negative one. -/
structure IsPadded (width : Int) (text out : List Char) : Prop where
  length_eq : out.length = max width.natAbs text.length
  exists_blanks : ∃ k, out =
    if 0 < width then List.replicate k ' ' ++ text else text ++ List.replicate k ' '

/-- The arguments have a text for a piece. -/
def Piece.Fits (args : List FormatArgument) : Piece → Prop
  | .literal _ | .brace _ => True
  | .item i => ∃ arg, args[i.index]? = some arg ∧ arg.Accepts i.specifier

/-- The text that a piece stands for. -/
inductive HasText (args : List FormatArgument) (sym : NumberSymbols) : Piece → List Char → Prop
  | literal (c : Char) : HasText args sym (.literal c) [c]
  | brace (c : Char) : HasText args sym (.brace c) [c]
  | item {i : Item} {arg : FormatArgument} {text out : List Char} (harg : args[i.index]? = some arg)
      (htext : arg.text sym i.specifier = .ok text) (hpad : IsPadded i.width text out) :
      HasText args sym (.item i) out

/-- The texts of a sequence of pieces, one after the other. -/
inductive IsExpansion (args : List FormatArgument) (sym : NumberSymbols) :
    List Piece → List Char → Prop
  | nil : IsExpansion args sym [] []
  | cons {p ps text out} (hp : HasText args sym p text) (hps : IsExpansion args sym ps out) :
      IsExpansion args sym (p :: ps) (text ++ out)

/-- Why an item has no text. -/
inductive Lacks (args : List FormatArgument) : Piece → FormatError → Prop
  | argument {i : Item} (h : args.length ≤ i.index) : Lacks args (.item i) .indexOutOfRange
  | format {i : Item} {arg : FormatArgument} (harg : args[i.index]? = some arg)
      (h : ¬arg.Accepts i.specifier) : Lacks args (.item i) .invalidSpecifier

/-- Why `s` cannot be expanded at its beginning. -/
inductive Fails (args : List FormatArgument) : List Char → FormatError → Prop
  | unreadable {s : List Char} (hs : s ≠ [])
      (h : ∀ p text rest, IsPiece p text → s ≠ text ++ rest) : Fails args s .invalidTemplate
  | lacks {p : Piece} {text : List Char} {e : FormatError} (hp : IsPiece p text)
      (h : Lacks args p e) (rest : List Char) : Fails args (text ++ rest) e

/-- Behind pieces that the arguments have texts for, the template cannot be expanded. -/
def FailsWith (args : List FormatArgument) (template : List Char) (e : FormatError) : Prop :=
  ∃ ps before rest, template = before ++ rest ∧ IsTemplate ps before ∧ (∀ p ∈ ps, p.Fits args) ∧
    Fails args rest e

/-- What the grammar says of the value of a template. -/
structure FollowsGrammar (args : List FormatArgument) (sym : NumberSymbols) (template : List Char)
    (value : Except FormatError String) : Prop where
  /-- There is a text if and only if the arguments fit a sequence of pieces. -/
  isOk_iff : (∃ out, value = .ok out) ↔
    ∃ ps, IsTemplate ps template ∧ ∀ p ∈ ps, p.Fits args
  /-- The text is the expansion of the pieces. -/
  isExpansion : ∀ ps out, IsTemplate ps template → value = .ok out →
    IsExpansion args sym ps out.toList
  /-- The error is that of the leftmost piece that fails. -/
  eq_error_iff : ∀ e, value = .error e ↔ FailsWith args template e

/-! ## One piece -/

theorem isPadded_pad (width : Int) (text : List Char) : IsPadded width text (pad width text) := by
  constructor
  · unfold pad
    dsimp only
    split <;> simp <;> omega
  · exact ⟨width.natAbs - text.length, rfl⟩

/-- The text of a piece. -/
def Piece.text (args : List FormatArgument) (sym : NumberSymbols) :
    Piece → Except FormatError (List Char)
  | .literal c => .ok [c]
  | .brace c => .ok [c]
  | .item i => i.text args sym

theorem Piece.exists_text (sym : NumberSymbols) {p : Piece} (h : p.Fits args) :
    ∃ t, p.text args sym = .ok t ∧ HasText args sym p t := by
  cases p with
  | literal c => exact ⟨_, rfl, .literal c⟩
  | brace c => exact ⟨_, rfl, .brace c⟩
  | item i =>
    obtain ⟨arg, harg, haccepts⟩ := h
    obtain ⟨t, ht⟩ := FormatArgument.exists_text sym haccepts
    refine ⟨pad i.width t, ?_, .item harg ht (isPadded_pad i.width t)⟩
    rw [text, Item.text, harg]
    show (arg.text sym i.specifier >>= fun t => .ok (pad i.width t)) = _
    rw [ht]
    rfl

theorem Piece.text_eq_error {p : Piece} {e : FormatError} (h : Lacks args p e) :
    p.text args sym = .error e := by
  cases h with
  | argument h =>
    rw [text, Item.text, List.getElem?_eq_none h]
    rfl
  | @format i arg harg h =>
    rw [text, Item.text, harg]
    show (arg.text sym i.specifier >>= fun t => .ok (pad i.width t)) = _
    rw [FormatArgument.text_eq_error h]
    rfl

theorem Piece.fits_or_lacks (args : List FormatArgument) (p : Piece) :
    p.Fits args ∨ ∃ e, Lacks args p e := by
  cases p with
  | literal c | brace c => exact .inl trivial
  | item i =>
    cases harg : args[i.index]? with
    | none => exact .inr ⟨_, .argument (List.getElem?_eq_none_iff.1 harg)⟩
    | some arg =>
      by_cases h : arg.Accepts i.specifier
      · exact .inl ⟨arg, harg, h⟩
      · exact .inr ⟨_, .format harg h⟩

/-! ## The first piece of a template -/

theorem expand_of_piece? {p : Piece} {s rest : List Char} (h : piece? s = some (p, rest)) :
    expand args sym s =
      (p.text args sym).bind fun t => (expand args sym rest).map (t ++ ·) := by
  unfold piece? at h
  split at h
  next => simp at h
  next =>
    cases h
    rw [expand]
    rfl
  next =>
    cases h
    rw [expand]
    rfl
  next => simp at h
  next hopen =>
    simp only [Option.map_eq_some_iff, Prod.exists, Prod.mk.injEq] at h
    obtain ⟨i, after, hi, rfl, rfl⟩ := h
    rw [expand]
    · split
      next hnone => simp [hi] at hnone
      next i' after' hsome =>
        rw [hi] at hsome
        cases hsome
        rfl
    · exact hopen
  next c cs h1 h2 hclose hopen =>
    cases h
    rw [expand] <;> first | assumption | rfl

theorem expand_of_piece?_eq_none {s : List Char} (hs : s ≠ []) (h : piece? s = none) :
    expand args sym s = .error .invalidTemplate := by
  unfold piece? at h
  split at h
  next => exact absurd rfl hs
  next => simp at h
  next => simp at h
  next hclose => rw [expand]; exact hclose
  next hopen =>
    simp only [Option.map_eq_none_iff] at h
    rw [expand]
    · split
      next => rfl
      next hsome => simp [h] at hsome
    · exact hopen
  next => simp at h

theorem expand_of_fails {s : List Char} {e : FormatError} (h : Fails args s e) :
    expand args sym s = .error e := by
  cases h with
  | unreadable hs h => exact expand_of_piece?_eq_none hs (piece?_eq_none_iff.2 h)
  | lacks hp h rest =>
    rw [expand_of_piece? (piece?_append hp rest), Piece.text_eq_error h]
    rfl

/-! ## Whole templates -/

theorem expand_append (sym : NumberSymbols) {ps : List Piece} {s : List Char}
    (hs : IsTemplate ps s) (hfits : ∀ p ∈ ps, p.Fits args) :
    ∃ out, IsExpansion args sym ps out ∧
      ∀ rest, expand args sym (s ++ rest) = (expand args sym rest).map (out ++ ·) := by
  induction hs with
  | nil =>
    refine ⟨[], .nil, fun rest => ?_⟩
    cases hrest : expand args sym rest <;> simp [hrest, Except.map]
  | @cons p ps text after hp hps ih =>
    obtain ⟨t, htext, hhas⟩ := Piece.exists_text sym (hfits p List.mem_cons_self)
    obtain ⟨out, hout, hexpand⟩ := ih fun q hq => hfits q (List.mem_cons_of_mem _ hq)
    refine ⟨t ++ out, .cons hhas hout, fun rest => ?_⟩
    rw [List.append_assoc, expand_of_piece? (piece?_append hp _), htext, hexpand]
    cases expand args sym rest <;> simp [Except.bind, Except.map]

theorem expand_of_isTemplate (sym : NumberSymbols) {ps : List Piece} {s : List Char}
    (hs : IsTemplate ps s) (hfits : ∀ p ∈ ps, p.Fits args) :
    ∃ out, IsExpansion args sym ps out ∧ expand args sym s = .ok out := by
  obtain ⟨out, hout, hexpand⟩ := expand_append sym hs hfits
  refine ⟨out, hout, ?_⟩
  have h := hexpand []
  rw [List.append_nil, expand] at h
  simpa [Except.map] using h

theorem expand_of_failsWith (sym : NumberSymbols) {s : List Char} {e : FormatError}
    (h : FailsWith args s e) :
    expand args sym s = .error e := by
  obtain ⟨ps, before, rest, rfl, hps, hfits, hfails⟩ := h
  obtain ⟨out, -, hexpand⟩ := expand_append sym hps hfits
  rw [hexpand, expand_of_fails hfails]
  rfl

/-- Every template is a sequence of pieces that the arguments fit, or fails behind one. -/
theorem isTemplate_or_failsWith (args : List FormatArgument) (s : List Char) :
    (∃ ps, IsTemplate ps s ∧ ∀ p ∈ ps, p.Fits args) ∨ ∃ e, FailsWith args s e := by
  -- By induction on the length: behind a piece that has a text, the rest is shorter.
  induction hn : s.length using Nat.strongRecOn generalizing s with
  | _ n ih =>
    by_cases hnil : s = []
    · subst hnil
      exact .inl ⟨[], .nil, by simp⟩
    cases hread : piece? s with
    | none =>
      exact .inr ⟨_, [], [], s, rfl, .nil, by simp, .unreadable hnil (piece?_eq_none_iff.1 hread)⟩
    | some read =>
      obtain ⟨p, rest⟩ := read
      obtain ⟨text, rfl, hp⟩ := exists_of_piece? hread
      rcases p.fits_or_lacks args with hfits | ⟨e, hlacks⟩
      · have hpos := List.length_pos_iff.2 hp.ne_nil
        have hshorter : rest.length < n := by
          rw [← hn, List.length_append]
          omega
        rcases ih rest.length hshorter rest rfl with ⟨ps, hps, hall⟩ | ⟨e, ps, before, after, rfl,
          hps, hall, hfails⟩
        · exact .inl ⟨p :: ps, .cons hp hps, List.forall_mem_cons.2 ⟨hfits, hall⟩⟩
        · refine .inr ⟨e, p :: ps, text ++ before, after, ?_, .cons hp hps, ?_, hfails⟩
          · rw [List.append_assoc]
          · exact List.forall_mem_cons.2 ⟨hfits, hall⟩
      · exact .inr ⟨e, [], [], text ++ rest, rfl, .nil, by simp, .lacks hp hlacks rest⟩

/-! ## Doubled braces -/

/-- A character with braces written twice. -/
def doubledChar (c : Char) : List Char := if c = '\x7b' ∨ c = '\x7d' then [c, c] else [c]

/-- The template whose value is the given text, whatever the arguments are. -/
def doubled (s : String) : String := .ofList (s.toList.flatMap doubledChar)

theorem expand_doubledChar (c : Char) (rest : List Char) :
    expand args sym (doubledChar c ++ rest) = (expand args sym rest).map (c :: ·) := by
  unfold doubledChar
  split
  next hbrace =>
    rcases hbrace with rfl | rfl
    · exact expand_of_piece? (piece?_append .opening rest)
    · exact expand_of_piece? (piece?_append .closing rest)
  next hbrace =>
    rw [not_or] at hbrace
    exact expand_of_piece? (piece?_append (.literal hbrace.1 hbrace.2) rest)

theorem expand_flatMap_doubledChar (s : List Char) :
    expand args sym (s.flatMap doubledChar) = .ok s := by
  induction s with
  | nil => rw [List.flatMap_nil, expand]
  | cons c cs ih =>
    rw [List.flatMap_cons, expand_doubledChar, ih]
    rfl

end Template

/-! ## Values of templates -/

open Template

theorem followsGrammar_of_isTemplate {ps : List Piece} {template : String}
    {args : List FormatArgument} (culture : Culture) (hps : IsTemplate ps template.toList)
    (hfits : ∀ p ∈ ps, p.Fits args) :
    FollowsGrammar args culture.symbols template.toList (format template args culture) := by
  obtain ⟨out, hout, hexpand⟩ := expand_of_isTemplate culture.symbols hps hfits
  have hvalue : format template args culture = .ok (.ofList out) := by
    rw [format, hexpand]
    rfl
  refine ⟨⟨fun _ => ⟨ps, hps, hfits⟩, fun _ => ⟨_, hvalue⟩⟩, ?_, ?_⟩
  · intro qs text hqs htext
    rw [hvalue, Except.ok.injEq] at htext
    rw [hqs.unique hps, ← htext, String.toList_ofList]
    exact hout
  · intro e
    constructor
    · intro herror
      simp [hvalue] at herror
    · intro herror
      have := expand_of_failsWith culture.symbols herror
      simp [hexpand] at this

theorem followsGrammar_of_failsWith {e : FormatError} {template : String}
    {args : List FormatArgument} (culture : Culture) (hfails : FailsWith args template.toList e) :
    FollowsGrammar args culture.symbols template.toList (format template args culture) := by
  have hexpand := expand_of_failsWith culture.symbols hfails
  have hvalue : format template args culture = .error e := by
    rw [format, hexpand]
    rfl
  refine ⟨⟨?_, ?_⟩, ?_, ?_⟩
  · rintro ⟨out, hout⟩
    simp [hvalue] at hout
  · rintro ⟨ps, hps, hfits⟩
    obtain ⟨out, -, hok⟩ := expand_of_isTemplate culture.symbols hps hfits
    simp [hexpand] at hok
  · intro ps out _ hout
    simp [hvalue] at hout
  · intro e'
    rw [hvalue, Except.error.injEq]
    constructor
    · rintro rfl
      exact hfails
    · intro hfails'
      rw [expand_of_failsWith culture.symbols hfails'] at hexpand
      exact (Except.error.inj hexpand).symm

theorem followsGrammar_format (template : String) (args : List FormatArgument)
    (culture : Culture) :
    FollowsGrammar args culture.symbols template.toList (format template args culture) := by
  rcases isTemplate_or_failsWith args template.toList with ⟨ps, hps, hfits⟩ | ⟨e, hfails⟩
  · exact followsGrammar_of_isTemplate culture hps hfits
  · exact followsGrammar_of_failsWith culture hfails

-- The missing argument comes before the brace that ends no item.
example : format "a\x7b1\x7d\x7d" [.string "x"] .invariant = .error .indexOutOfRange := by
  decide +kernel

/-- Templates compose, and every text is the value of a template. -/
theorem format_composes (args : List FormatArgument) (culture : Culture) :
    (∀ a b x : String, format a args culture = .ok x →
      format (a ++ b) args culture = (format b args culture).map (x ++ ·)) ∧
    ∀ s : String, format (doubled s) args culture = .ok s := by
  constructor
  · intro a b x ha
    -- `a` has a value, so it is a sequence of pieces that reading does not look beyond.
    rcases isTemplate_or_failsWith args a.toList with ⟨ps, hps, hfits⟩ | ⟨e, hfails⟩
    · obtain ⟨out, -, hexpand⟩ := expand_append culture.symbols hps hfits
      have hout : x = .ofList out := by
        have hnil := hexpand []
        rw [List.append_nil, expand] at hnil
        rw [format, hnil] at ha
        simpa [Except.map] using ha.symm
      rw [format, String.toList_append, hexpand, format, hout]
      cases expand args culture.symbols b.toList <;> simp [Except.map]
    · rw [format, expand_of_failsWith culture.symbols hfails] at ha
      simp [Except.map] at ha
  · intro s
    rw [format, doubled, String.toList_ofList, expand_flatMap_doubledChar]
    simp [Except.map]

/-- An item stands at the end of a template whose successor names a missing argument. -/
theorem format_composes_item :
    format "\x7b\x7b\x7b0,-3\x7d" [.string "x"] .invariant = .ok "\x7bx  " ∧
      format ("\x7b\x7b\x7b0,-3\x7d" ++ "\x7d\x7d\x7b1\x7d") [.string "x"] .invariant =
        .error .indexOutOfRange ∧
      format (doubled "\x7b0\x7d") [.string "x"] .invariant = .ok "\x7b0\x7d" := by
  have hitem : format "\x7b\x7b\x7b0,-3\x7d" [.string "x"] .invariant = .ok "\x7bx  " := by
    decide +kernel
  have hcomposes := format_composes [.string "x"] .invariant
  refine ⟨hitem, ?_, hcomposes.2 _⟩
  rw [hcomposes.1 _ "\x7d\x7d\x7b1\x7d" _ hitem]
  decide +kernel

end NativeBindings
