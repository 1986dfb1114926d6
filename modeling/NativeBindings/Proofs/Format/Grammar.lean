import NativeBindings.Format.Template
import NativeBindings.Proofs.Text.Scanning

/-!
# The grammar of composite templates

A template is a sequence of pieces: characters other than braces, braces written twice, and items.
No piece is the beginning of another, so a template has at most one sequence of pieces, and what
follows a piece does not matter for reading it.

## Main definitions

- `Template.IsPiece` — the written forms of a piece
- `Template.piece?` — reads the first piece of a text
- `Template.IsTemplate` — the texts of a sequence of pieces

## Main statements

- `Template.IsTemplate.unique` — a template has only one sequence of pieces
-/

namespace NativeBindings
namespace Template

/-- A part of a template. -/
inductive Piece where
  | literal (c : Char)
  /-- A brace that is written twice. -/
  | brace (c : Char)
  | item (i : Item)
  deriving DecidableEq

/-- `text` is a number below 1000000. -/
structure IsNumber (n : Nat) (text : List Char) : Prop where
  ne_nil : text ≠ []
  isDigit : ∀ c ∈ text, Numeral.isDigit c = true
  read_eq : Numeral.read text = n
  lt : n < 1000000

/-- The written forms of the width of an item. -/
inductive IsWidth : Int → List Char → Prop
  | absent : IsWidth 0 []
  | before {n text} (i j : Nat) (h : IsNumber n text) :
      IsWidth n (',' :: (List.replicate i ' ' ++ text ++ List.replicate j ' '))
  | behind {n text} (i j : Nat) (h : IsNumber n text) :
      IsWidth (-n) (',' :: (List.replicate i ' ' ++ '-' :: text ++ List.replicate j ' '))

/-- The written forms of the specifier of an item. -/
inductive IsSpecifier : List Char → List Char → Prop
  | absent : IsSpecifier [] []
  | present {spec} (h : ∀ c ∈ spec, c ≠ '\x7b' ∧ c ≠ '\x7d') : IsSpecifier spec (':' :: spec)

/-- The written forms of a piece. -/
inductive IsPiece : Piece → List Char → Prop
  | literal {c} (hopen : c ≠ '\x7b') (hclose : c ≠ '\x7d') : IsPiece (.literal c) [c]
  | opening : IsPiece (.brace '\x7b') ['\x7b', '\x7b']
  | closing : IsPiece (.brace '\x7d') ['\x7d', '\x7d']
  | item {i index width spec} (k : Nat) (hindex : IsNumber i.index index)
      (hwidth : IsWidth i.width width) (hspec : IsSpecifier i.specifier spec) :
      IsPiece (.item i) ('\x7b' :: (index ++ List.replicate k ' ' ++ width ++ spec ++ ['\x7d']))

/-- The first piece of a text, and what follows it. -/
def piece? : List Char → Option (Piece × List Char)
  | [] => none
  | '\x7b' :: '\x7b' :: rest => some (.brace '\x7b', rest)
  | '\x7d' :: '\x7d' :: rest => some (.brace '\x7d', rest)
  | '\x7d' :: _ => none
  | '\x7b' :: rest => (item? rest).map fun (i, after) => (.item i, after)
  | c :: rest => some (.literal c, rest)

/-- The texts of a sequence of pieces. -/
inductive IsTemplate : List Piece → List Char → Prop
  | nil : IsTemplate [] []
  | cons {p ps text rest} (hp : IsPiece p text) (hps : IsTemplate ps rest) :
      IsTemplate (p :: ps) (text ++ rest)

/-! ## Numbers and blanks -/

theorem skipBlanks_replicate (k : Nat) {rest : List Char} (h : StopsAt (· = ' ') rest) :
    skipBlanks (List.replicate k ' ' ++ rest) = rest := by
  rw [skipBlanks, List.dropWhile_append_of_pos (by simp)]
  cases rest with
  | nil => rfl
  | cons c cs => rw [List.dropWhile_cons_of_neg (by simpa using h c rfl)]

theorem exists_eq_replicate_skipBlanks (s : List Char) :
    ∃ k, s = List.replicate k ' ' ++ skipBlanks s := by
  refine ⟨(s.takeWhile (· = ' ')).length, ?_⟩
  have hblank : ∀ c ∈ s.takeWhile (· = ' '), c = ' ' := by
    intro c hc
    simpa using List.mem_takeWhile_imp hc
  rw [← List.eq_replicate_of_mem hblank, skipBlanks, List.takeWhile_append_dropWhile]

theorem number?_append {n : Nat} {text rest : List Char} (h : IsNumber n text)
    (hrest : StopsAt Numeral.isDigit rest) : number? (text ++ rest) = some (n, rest) := by
  have hlt : ¬1000000 ≤ n := Nat.not_le.2 h.lt
  simp [number?, takeWhile_append_of_stopsAt h.isDigit hrest, h.read_eq, h.ne_nil, maxItemValue,
    hlt]

theorem exists_of_number? {n : Nat} {s rest : List Char} (h : number? s = some (n, rest)) :
    ∃ text, s = text ++ rest ∧ IsNumber n text := by
  unfold number? at h
  dsimp only at h
  split at h
  · simp at h
  next hs =>
    simp only [Bool.or_eq_true, List.isEmpty_iff, decide_eq_true_eq, not_or, Nat.not_le] at hs
    simp only [Option.some.injEq, Prod.mk.injEq] at h
    obtain ⟨hread, rfl⟩ := h
    refine ⟨s.takeWhile Numeral.isDigit, ?_, hs.1, ?_, hread, hread ▸ hs.2⟩
    · exact (List.prefix_iff_eq_append.1 (List.takeWhile_prefix _)).symm
    · intro c hc
      exact List.mem_takeWhile_imp hc

/-! ## Items -/

/-- `s` goes on with a specifier or ends the item. -/
def EndsWidth (s : List Char) : Prop := ∃ c cs, s = c :: cs ∧ (c = ':' ∨ c = '\x7d')

theorem EndsWidth.stopsAt_isDigit {s : List Char} (h : EndsWidth s) (k : Nat) :
    StopsAt Numeral.isDigit (List.replicate k ' ' ++ s) := by
  obtain ⟨c, cs, rfl, hc⟩ := h
  apply stopsAt_replicate_append (by decide)
  apply stopsAt_cons
  rcases hc with rfl | rfl <;> decide

theorem EndsWidth.stopsAt_blank {s : List Char} (h : EndsWidth s) : StopsAt (· = ' ') s := by
  obtain ⟨c, cs, rfl, hc⟩ := h
  apply stopsAt_cons
  rcases hc with rfl | rfl <;> decide

theorem IsNumber.exists_cons {n : Nat} {text : List Char} (h : IsNumber n text) :
    ∃ c cs, text = c :: cs ∧ Numeral.isDigit c = true := by
  obtain ⟨c, cs, rfl⟩ := List.exists_cons_of_ne_nil h.ne_nil
  exact ⟨c, cs, rfl, h.isDigit c List.mem_cons_self⟩

theorem IsNumber.stopsAt_blank {n : Nat} {text : List Char} (h : IsNumber n text)
    (rest : List Char) : StopsAt (· = ' ') (text ++ rest) := by
  obtain ⟨c, cs, rfl, hc⟩ := h.exists_cons
  apply stopsAt_cons
  apply decide_eq_false
  rintro rfl
  exact absurd hc (by decide)

theorem width?_append {w : Int} {text rest : List Char} (h : IsWidth w text)
    (hrest : EndsWidth rest) : width? (text ++ rest) = some (w, rest) := by
  cases h with
  | absent =>
    obtain ⟨c, cs, rfl, hc⟩ := hrest
    rcases hc with rfl | rfl <;> rfl
  | @before n text i j h =>
    have hnumber := number?_append h (hrest.stopsAt_isDigit j)
    have hskip := skipBlanks_replicate i (h.stopsAt_blank (List.replicate j ' ' ++ rest))
    obtain ⟨c, cs, rfl, hc⟩ := h.exists_cons
    -- A digit is not taken for the sign of a width.
    have hminus : c ≠ '-' := by
      rintro rfl
      exact absurd hc (by decide)
    simp only [List.cons_append, List.append_assoc] at hskip hnumber ⊢
    simp only [width?, hskip]
    split
    next heq => exact absurd (List.cons.inj heq).1 hminus
    next => simp [hnumber, skipBlanks_replicate j hrest.stopsAt_blank]
  | @behind n text i j h =>
    have hnumber := number?_append h (hrest.stopsAt_isDigit j)
    have hstops : StopsAt (· = ' ') ('-' :: (text ++ (List.replicate j ' ' ++ rest))) :=
      stopsAt_cons (by decide) _
    have hskip := skipBlanks_replicate i hstops
    simp only [List.cons_append, List.append_assoc] at hskip hnumber ⊢
    simp only [width?, hskip, hnumber, Option.map_some,
      skipBlanks_replicate j hrest.stopsAt_blank]

theorem exists_of_width? {w : Int} {s rest : List Char} (h : width? s = some (w, rest)) :
    ∃ text, s = text ++ rest ∧ IsWidth w text := by
  unfold width? at h
  split at h
  next tail =>
    obtain ⟨i, hi⟩ := exists_eq_replicate_skipBlanks tail
    split at h
    next digits hdigits =>
      simp only [Option.map_eq_some_iff, Prod.exists, Prod.mk.injEq] at h
      obtain ⟨n, after, hn, rfl, rfl⟩ := h
      obtain ⟨text, rfl, htext⟩ := exists_of_number? hn
      obtain ⟨j, hj⟩ := exists_eq_replicate_skipBlanks after
      refine ⟨_, ?_, .behind i j htext⟩
      rw [hdigits] at hi
      simp only [List.cons_append, List.append_assoc, ← hj, ← hi]
    next =>
      simp only [Option.map_eq_some_iff, Prod.exists, Prod.mk.injEq] at h
      obtain ⟨n, after, hn, rfl, rfl⟩ := h
      obtain ⟨text, htail, htext⟩ := exists_of_number? hn
      obtain ⟨j, hj⟩ := exists_eq_replicate_skipBlanks after
      refine ⟨_, ?_, .before i j htext⟩
      rw [htail] at hi
      simp only [List.cons_append, List.append_assoc, ← hj, ← hi]
  next =>
    cases h
    exact ⟨[], rfl, .absent⟩

theorem specifier?_append {spec text : List Char} (h : IsSpecifier spec text)
    (rest : List Char) : specifier? (text ++ '\x7d' :: rest) = some (spec, rest) := by
  cases h with
  | absent => rfl
  | present h =>
    have hspec : ∀ c ∈ spec, decide (c ≠ '\x7b' ∧ c ≠ '\x7d') = true :=
      fun c hc => decide_eq_true (h c hc)
    have hstops : StopsAt (fun c => c ≠ '\x7b' ∧ c ≠ '\x7d') ('\x7d' :: rest) :=
      stopsAt_cons (by decide) _
    simp only [List.cons_append, specifier?, takeWhile_append_of_stopsAt hspec hstops,
      List.drop_left]

theorem exists_of_specifier? {s spec rest : List Char} (h : specifier? s = some (spec, rest)) :
    ∃ text, s = text ++ '\x7d' :: rest ∧ IsSpecifier spec text := by
  unfold specifier? at h
  split at h
  next tail =>
    dsimp only at h
    split at h
    next after hafter =>
      cases h
      refine ⟨_, ?_, .present fun c hc => ?_⟩
      · rw [List.cons_append, ← hafter]
        exact congrArg _ (List.prefix_iff_eq_append.1 (List.takeWhile_prefix _)).symm
      · have hkept := List.mem_takeWhile_imp hc
        exact of_decide_eq_true hkept
    next => simp at h
  next after =>
    cases h
    exact ⟨[], rfl, .absent⟩
  next => simp at h

theorem IsSpecifier.endsWidth {spec text : List Char} (h : IsSpecifier spec text)
    (rest : List Char) : EndsWidth (text ++ '\x7d' :: rest) := by
  cases h with
  | absent => exact ⟨_, _, rfl, .inr rfl⟩
  | present => exact ⟨_, _, rfl, .inl rfl⟩

theorem IsWidth.stopsAt {w : Int} {text rest : List Char} (h : IsWidth w text)
    (hrest : EndsWidth rest) (k : Nat) :
    StopsAt Numeral.isDigit (List.replicate k ' ' ++ (text ++ rest)) ∧
      StopsAt (· = ' ') (text ++ rest) := by
  cases h with
  | absent => exact ⟨hrest.stopsAt_isDigit k, hrest.stopsAt_blank⟩
  | before i j h | behind i j h =>
    constructor
    · exact stopsAt_replicate_append (by decide) k (stopsAt_cons (by decide) _)
    · exact stopsAt_cons (by decide) _

theorem item?_append {i : Item} {index width spec : List Char} (k : Nat)
    (hindex : IsNumber i.index index) (hwidth : IsWidth i.width width)
    (hspec : IsSpecifier i.specifier spec) (rest : List Char) :
    item? (index ++ List.replicate k ' ' ++ width ++ spec ++ '\x7d' :: rest) = some (i, rest) := by
  have hends := hspec.endsWidth rest
  have hstops := hwidth.stopsAt hends k
  have hnumber := number?_append hindex hstops.1
  simp only [List.append_assoc] at hnumber ⊢
  simp only [item?, hnumber, skipBlanks_replicate k hstops.2, width?_append hwidth hends,
    specifier?_append hspec, Option.bind_eq_bind, Option.bind_some]

theorem exists_of_item? {i : Item} {s rest : List Char} (h : item? s = some (i, rest)) :
    ∃ text, '\x7b' :: s = text ++ rest ∧ IsPiece (.item i) text := by
  simp only [item?, bind, Option.bind_eq_some_iff] at h
  obtain ⟨⟨index, afterIndex⟩, hi, ⟨width, afterWidth⟩, hw, ⟨spec, after⟩, hs, h⟩ := h
  cases h
  obtain ⟨indexText, rfl, hindex⟩ := exists_of_number? hi
  obtain ⟨k, hk⟩ := exists_eq_replicate_skipBlanks afterIndex
  obtain ⟨widthText, hskip, hwidth⟩ := exists_of_width? hw
  obtain ⟨specText, rfl, hspec⟩ := exists_of_specifier? hs
  refine ⟨_, ?_, .item k hindex hwidth hspec⟩
  rw [hk, hskip]
  simp

/-! ## Pieces -/

/-- A piece is read whatever follows it. -/
theorem piece?_append {p : Piece} {text : List Char} (h : IsPiece p text) (rest : List Char) :
    piece? (text ++ rest) = some (p, rest) := by
  cases h with
  | @literal c hopen hclose =>
    show piece? (c :: rest) = _
    unfold piece?
    split <;> simp_all
  | opening => rfl
  | closing => rfl
  | item k hindex hwidth hspec =>
    have hitem := item?_append k hindex hwidth hspec rest
    obtain ⟨c, cs, rfl, hc⟩ := hindex.exists_cons
    have hopen : c ≠ '\x7b' := by
      rintro rfl
      exact absurd hc (by decide)
    simp only [List.cons_append, List.append_assoc, List.nil_append] at hitem ⊢
    rw [piece?, hitem]
    · rfl
    · rintro _ ⟨⟩
      exact hopen rfl

theorem exists_of_piece? {p : Piece} {s rest : List Char} (h : piece? s = some (p, rest)) :
    ∃ text, s = text ++ rest ∧ IsPiece p text := by
  unfold piece? at h
  split at h
  next => simp at h
  next =>
    cases h
    exact ⟨_, rfl, .opening⟩
  next =>
    cases h
    exact ⟨_, rfl, .closing⟩
  next => simp at h
  next =>
    simp only [Option.map_eq_some_iff, Prod.exists, Prod.mk.injEq] at h
    obtain ⟨i, after, hi, rfl, rfl⟩ := h
    exact exists_of_item? hi
  next c cs _ _ hclose hopen =>
    cases h
    refine ⟨[c], rfl, .literal ?_ ?_⟩
    · rintro rfl
      exact hopen rfl
    · rintro rfl
      exact hclose rfl

theorem piece?_eq_none_iff {s : List Char} :
    piece? s = none ↔ ∀ p text rest, IsPiece p text → s ≠ text ++ rest := by
  constructor
  · rintro h p text rest hp rfl
    rw [piece?_append hp] at h
    simp at h
  · intro h
    cases hs : piece? s with
    | none => rfl
    | some read =>
      obtain ⟨text, heq, hp⟩ := exists_of_piece? hs
      exact absurd heq (h _ _ _ hp)

theorem IsPiece.ne_nil {p : Piece} {text : List Char} (h : IsPiece p text) : text ≠ [] := by
  cases h <;> simp

theorem IsTemplate.unique {ps qs : List Piece} {s : List Char} (hp : IsTemplate ps s)
    (hq : IsTemplate qs s) : ps = qs := by
  induction hp generalizing qs with
  | nil =>
    generalize hs : ([] : List Char) = s at hq
    cases hq with
    | nil => rfl
    | cons hq _ => exact absurd (List.append_eq_nil_iff.1 hs.symm).1 hq.ne_nil
  | @cons p ps text rest hp hps ih =>
    generalize hs : text ++ rest = s at hq
    cases hq with
    | nil => exact absurd (List.append_eq_nil_iff.1 hs).1 hp.ne_nil
    | @cons q qs text' rest' hq hqs =>
      -- Reading finds both first pieces, so they are one.
      have hread := piece?_append hp rest
      rw [hs, piece?_append hq] at hread
      simp only [Option.some.injEq, Prod.mk.injEq] at hread
      obtain ⟨rfl, rfl⟩ := hread
      rw [ih hqs]

end Template
end NativeBindings
