import NativeBindings.CSharp.Literal
import NativeBindings.Proofs.Number.HexDigit
import NativeBindings.Toml.Token

/-!
# Reading string literals

A regular string literal of C# is read from its first character to its last: a backslash takes the
characters of its escape sequence with it, and the first double quote that no backslash takes ends
the literal. Every text is written as a literal that reads as that text again.

The reader knows the simple escape sequences and those with four hexadecimal digits. Each character
is written in one of the three ways that the reader distinguishes (`Literal.Writes`), and what holds
of a literal is shown for each of them.

## Main definitions

- `Literal.decode?` — the text that a literal stands for
- `Literal.escapesNext` — the next character belongs to an escape sequence
- `Literal.IsLiteral` — a literal of a text
- `ConstantType.Expresses` — the expression of a text, and its literal

## Main statements

- `Literal.writes_escape` — how a character is written
- `Literal.decode?_quote` — the literal of a text is read as that text
- `ConstantType.expresses_quote` — expressions of constant members
-/

namespace NativeBindings

/-! ## Code points -/

namespace Toml

variable {c : Char}

theorem codePoint?_text (upper : Bool) (width : Nat) (c : Char) :
    codePoint? (Numeral.padZeros width (Numeral.text 16 upper c.toNat)) = some c := by
  have hbase : 1 < 16 := by decide
  obtain ⟨ds, hds, -, hvalue⟩ := mapM_hexDigit?_padZeros hbase le_rfl upper width c.toNat
  have hvalid : c.toNat.isValidChar := c.valid
  simp only [codePoint?, hds, hvalue, Option.bind_eq_bind, Option.bind_some, if_pos hvalid,
    Char.ofNat_toNat]

theorem exists_hexDigit?_of_codePoint? {ds : List Char} (h : codePoint? ds = some c) :
    ∀ d ∈ ds, ∃ n, hexDigit? d = some n := by
  simp only [codePoint?, Option.bind_eq_bind, Option.bind_eq_some_iff] at h
  obtain ⟨ns, hds, _⟩ := h
  exact exists_hexDigit?_of_mapM hds

end Toml

namespace Literal

/-! ## Literals and their texts -/

variable {c d : Char} {s pre post word : List Char}

/-- `c` ends a line of source text. -/
def isLineTerminator (c : Char) : Bool :=
  c.toNat ∈ [0x0a, 0x0d, 0x85, 0x2028, 0x2029]

/-- `c` stands for itself in a literal. -/
def isPlain (c : Char) : Bool := c != '"' && c != '\\' && !isLineTerminator c

/-- The character that a letter stands for behind a backslash. -/
def simpleCharacter? : Char → Option Char
  | '\'' => some '\''
  | '"' => some '"'
  | '\\' => some '\\'
  | '0' => some '\x00'
  | 'a' => some '\x07'
  | 'b' => some '\x08'
  | 'f' => some '\x0c'
  | 'n' => some '\x0a'
  | 'r' => some '\x0d'
  | 't' => some '\x09'
  | 'v' => some '\x0b'
  | _ => none

/-- The text of a literal whose opening quote has been read. -/
def decodeTail? : List Char → Option (List Char)
  | [] => none
  | ['"'] => some []
  | '\\' :: 'u' :: w :: x :: y :: z :: rest =>
    (Toml.codePoint? [w, x, y, z]).bind fun c => (decodeTail? rest).map (c :: ·)
  | '\\' :: letter :: rest =>
    (simpleCharacter? letter).bind fun c => (decodeTail? rest).map (c :: ·)
  | c :: rest => if isPlain c then (decodeTail? rest).map (c :: ·) else none

/-- The text that a literal stands for. -/
def decode? (literal : String) : Option String :=
  match literal.toList with
  | '"' :: rest => (decodeTail? rest).map String.ofList
  | _ => none

/-- Behind `s`, the next character belongs to an escape sequence: a backslash that does not itself
belong to one comes last. -/
def escapesNext (s : List Char) : Bool := s.foldl (fun escaped c => c == '\\' && !escaped) false

/-- `literal` is one literal, closed by the only double quote in it that is not escaped, of
characters that can stand in a line, and is read as `value`. -/
structure IsLiteral (value literal : String) : Prop where
  enclosed : ∃ inside, literal.toList = '"' :: (inside ++ ['"']) ∧ escapesNext inside = false ∧
    ∀ pre post, inside = pre ++ '"' :: post → escapesNext pre = true
  printed : ∀ c ∈ literal.toList, isControl c = false ∧ isLineTerminator c = false
  decoded : decode? literal = some value

/-- The ways to write a character. -/
inductive Writes (c : Char) : List Char → Prop
  | plain : isPlain c = true → isControl c = false → Writes c [c]
  | simple {letter : Char} : simpleCharacter? letter = some c → Writes c ['\\', letter]
  | unicode {w x y z : Char} :
      Toml.codePoint? [w, x, y, z] = some c → Writes c ['\\', 'u', w, x, y, z]

/-! ## How a character is written -/

theorem simpleCharacter?_of_simpleEscape? (h : simpleEscape? c = some d) :
    simpleCharacter? d = some c := by
  rw [← Char.ofNat_toNat c]
  unfold simpleEscape? at h
  split at h <;> cases h
  all_goals
    rename_i hc
    rw [hc]
    rfl

theorem isPlain_eq_true_iff :
    isPlain c = true ↔ c ≠ '"' ∧ c ≠ '\\' ∧ isLineTerminator c = false := by
  simp only [isPlain, Bool.and_eq_true, bne_iff_ne, Bool.not_eq_true', and_assoc]

theorem isPlain_of_simpleEscape?_eq_none (h : simpleEscape? c = none)
    (hc : isControl c = false) (hline : c.toNat ≠ 0x2028) (hpar : c.toNat ≠ 0x2029) :
    isPlain c = true := by
  refine isPlain_eq_true_iff.2 ⟨?_, ?_, ?_⟩
  · rintro rfl
    exact absurd h (by decide)
  · rintro rfl
    exact absurd h (by decide)
  · simp only [isControl, Bool.or_eq_false_iff, Bool.and_eq_false_iff, decide_eq_false_iff_not]
      at hc
    simp only [isLineTerminator, List.mem_cons, List.not_mem_nil, or_false,
      decide_eq_false_iff_not]
    omega

/-- Every character is written in one of the three ways. -/
theorem writes_escape (c : Char) : Writes c (escape c) := by
  unfold escape
  split
  next letter h => exact .simple (simpleCharacter?_of_simpleEscape? h)
  next h =>
    split
    next hc =>
      have hlt : c.toNat < 16 ^ 4 := by
        simp only [isControl, Bool.or_eq_true, Bool.and_eq_true, decide_eq_true_eq,
          beq_iff_eq] at hc
        omega
      have hlength : (Numeral.padZeros 4 (Numeral.text 16 true c.toNat)).length = 4 := by
        have := Numeral.length_text_le (by decide) true (by decide) hlt
        rw [Numeral.length_padZeros]
        omega
      obtain ⟨w, x, y, z, hdigits⟩ := List.length_eq_four.1 hlength
      rw [hdigits]
      apply Writes.unicode
      rw [← hdigits]
      exact Toml.codePoint?_text true 4 c
    next hc =>
      simp only [Bool.or_eq_true, beq_iff_eq, not_or, Bool.not_eq_true] at hc
      obtain ⟨⟨hcontrol, hline⟩, hpar⟩ := hc
      exact .plain (isPlain_of_simpleEscape?_eq_none h hcontrol hline hpar) hcontrol

/-! ## What the three ways have in common -/

theorem printed_of_simpleCharacter? (h : simpleCharacter? d = some c) :
    isControl d = false ∧ isLineTerminator d = false := by
  unfold simpleCharacter? at h
  split at h
  all_goals first
    | decide
    | cases h

theorem isPlain_of_hexDigit? {n : Nat} (h : Toml.hexDigit? d = some n) :
    isPlain d = true ∧ isControl d = false := by
  obtain ⟨hlow, hhigh⟩ := Toml.toNat_of_hexDigit? h
  refine ⟨isPlain_eq_true_iff.2 ⟨?_, ?_, ?_⟩, ?_⟩
  · rintro rfl
    cases h
  · rintro rfl
    cases h
  · simp only [isLineTerminator, List.mem_cons, List.not_mem_nil, or_false,
      decide_eq_false_iff_not]
    omega
  · simp only [isControl, Bool.or_eq_false_iff, Bool.and_eq_false_iff, decide_eq_false_iff_not]
    omega

theorem isPlain_of_codePoint? {ds : List Char} (h : Toml.codePoint? ds = some c) :
    ∀ d ∈ ds, isPlain d = true ∧ isControl d = false := by
  intro d hd
  obtain ⟨n, hn⟩ := Toml.exists_hexDigit?_of_codePoint? h d hd
  exact isPlain_of_hexDigit? hn

theorem escapesNext_append (h : escapesNext s = false) (t : List Char) :
    escapesNext (s ++ t) = escapesNext t := by
  unfold escapesNext at h ⊢
  rw [List.foldl_append, h]

theorem escapesNext_of_isPlain (h : ∀ c ∈ s, isPlain c = true) : escapesNext s = false := by
  induction s with
  | nil => rfl
  | cons c s ih =>
    obtain ⟨hc, hs⟩ := List.forall_mem_cons.1 h
    have hne : (c == '\\') = false := beq_eq_false_iff_ne.2 (isPlain_eq_true_iff.1 hc).2.1
    rw [← List.singleton_append, escapesNext_append ?_ s, ih hs]
    simp [escapesNext, hne]

namespace Writes

theorem printed (h : Writes c word) :
    ∀ d ∈ word, isControl d = false ∧ isLineTerminator d = false := by
  have hbackslash : isControl '\\' = false ∧ isLineTerminator '\\' = false := by decide
  have hletter : isControl 'u' = false ∧ isLineTerminator 'u' = false := by decide
  cases h with
  | plain hplain hcontrol =>
    exact List.forall_mem_singleton.2 ⟨hcontrol, (isPlain_eq_true_iff.1 hplain).2.2⟩
  | simple h =>
    exact List.forall_mem_cons.2 ⟨hbackslash,
      List.forall_mem_singleton.2 (printed_of_simpleCharacter? h)⟩
  | unicode h =>
    refine List.forall_mem_cons.2 ⟨hbackslash, List.forall_mem_cons.2 ⟨hletter, ?_⟩⟩
    intro d hd
    obtain ⟨hplain, hcontrol⟩ := isPlain_of_codePoint? h d hd
    exact ⟨hcontrol, (isPlain_eq_true_iff.1 hplain).2.2⟩

theorem decodeTail?_append (h : Writes c word) (rest : List Char) :
    decodeTail? (word ++ rest) = (decodeTail? rest).map (c :: ·) := by
  cases h with
  | plain hplain _ =>
    obtain ⟨hquote, hbackslash, _⟩ := isPlain_eq_true_iff.1 hplain
    rw [List.singleton_append, decodeTail?, if_pos hplain]
    · intro h
      exact absurd h hquote
    · intro _ _ _ _ _ h
      exact absurd h hbackslash
    · intro _ _ h
      exact absurd h hbackslash
  | @simple letter hletter =>
    have hne : letter ≠ 'u' := by
      rintro rfl
      cases hletter
    rw [List.cons_append, List.singleton_append, decodeTail?, hletter, Option.bind_some]
    intro w x y z rest' hu
    exact absurd hu hne
  | unicode hpoint =>
    simp only [List.cons_append, List.nil_append, decodeTail?, hpoint, Option.bind_some]

theorem escapesNext_eq_false (h : Writes c word) : escapesNext word = false := by
  cases h with
  | plain hplain _ => exact escapesNext_of_isPlain (List.forall_mem_singleton.2 hplain)
  | simple _ => simp [escapesNext]
  | @unicode w x y z hpoint =>
    have hdigits : escapesNext [w, x, y, z] = false :=
      escapesNext_of_isPlain fun d hd => (isPlain_of_codePoint? hpoint d hd).1
    exact escapesNext_append (s := ['\\', 'u']) rfl _ ▸ hdigits

/-- The only double quote in a word is the one behind a backslash. -/
theorem escapesNext_of_quote (h : Writes c (pre ++ '"' :: post)) : escapesNext pre = true := by
  have hquote : isPlain '"' = false := by decide
  generalize hword : pre ++ '"' :: post = word at h
  have hmem : '"' ∈ word := by
    rw [← hword]
    exact List.mem_append_right _ List.mem_cons_self
  cases h with
  | plain hplain _ =>
    rw [← List.mem_singleton.1 hmem, hquote] at hplain
    cases hplain
  | @simple letter _ =>
    rcases pre with _ | ⟨a, _ | ⟨b, pre⟩⟩
    · cases hword
    · cases hword
      rfl
    · have := congrArg List.length hword
      simp at this
  | unicode hpoint =>
    have hplain := isPlain_of_codePoint? hpoint '"' (by simpa using hmem)
    rw [hquote] at hplain
    cases hplain.1

end Writes

theorem printed_body (s : List Char) :
    ∀ d ∈ body s, isControl d = false ∧ isLineTerminator d = false := by
  intro d hd
  obtain ⟨c, _, hdc⟩ := List.mem_flatMap.1 hd
  exact (writes_escape c).printed d hdc

theorem decodeTail?_body (s : List Char) : decodeTail? (body s ++ ['"']) = some s := by
  induction s with
  | nil => rfl
  | cons c s ih =>
    rw [body, List.flatMap_cons, List.append_assoc, (writes_escape c).decodeTail?_append]
    exact congrArg (Option.map (c :: ·)) ih

theorem decode?_quote (s : String) : decode? (quote s) = some s := by
  rw [decode?, quote, String.toList_ofList]
  show (decodeTail? (body s.toList ++ ['"'])).map String.ofList = some s
  rw [decodeTail?_body, Option.map_some, String.ofList_toList]

-- A backslash of the text keeps the letter behind it from starting an escape sequence.
example : decode? "\"\\\\u0041\\u0041\"" = some "\\u0041A" := by decide +kernel

theorem escapesNext_body (s : List Char) : escapesNext (body s) = false := by
  induction s with
  | nil => rfl
  | cons c s ih =>
    rw [body, List.flatMap_cons, escapesNext_append (writes_escape c).escapesNext_eq_false]
    exact ih

theorem escapesNext_of_body (h : body s = pre ++ '"' :: post) : escapesNext pre = true := by
  induction s generalizing pre with
  | nil => simp [body] at h
  | cons c s ih =>
    rw [body, List.flatMap_cons] at h
    -- the quote stands behind the word of `c` or in it; no word leaves an escape sequence open
    rcases List.append_eq_append_iff.1 h with ⟨pre', rfl, hs⟩ | ⟨word, hc, hs⟩
    · rw [escapesNext_append (writes_escape c).escapesNext_eq_false]
      exact ih hs
    · cases word with
      | nil =>
        have hopen : escapesNext [] = true := ih hs.symm
        cases hopen
      | cons d word =>
        rw [List.cons_append, List.cons.injEq] at hs
        have hwrites : Writes c (pre ++ '"' :: word) := by
          rw [hs.1, ← hc]
          exact writes_escape c
        exact hwrites.escapesNext_of_quote

theorem isLiteral_quote (s : String) : IsLiteral s (quote s) where
  enclosed :=
    ⟨body s.toList, String.toList_ofList, escapesNext_body _, fun _ _ => escapesNext_of_body⟩
  printed := by
    have hquote : isControl '"' = false ∧ isLineTerminator '"' = false := by decide
    intro c hc
    rw [quote, String.toList_ofList] at hc
    rcases List.mem_cons.1 hc with rfl | hc
    · exact hquote
    rcases List.mem_append.1 hc with hc | hc
    · exact printed_body _ c hc
    · rw [List.mem_singleton.1 hc]
      exact hquote
  decoded := decode?_quote s

end Literal

namespace ConstantType

/-- The expression for the empty text. -/
def emptyForm : ConstantType → String
  | string | nullableString => "string.Empty"
  | charSpan | byteSpan => "[]"

/-- A literal of characters becomes one of bytes by a suffix. -/
def suffix : ConstantType → String
  | string | nullableString | charSpan => ""
  | byteSpan => "u8"

/-- `expression` is the empty form for the empty text alone, and for any other text its literal. -/
structure Expresses (kind : ConstantType) (value literal expression : String) : Prop where
  isLiteral : Literal.IsLiteral value literal
  of_empty : expression = kind.emptyForm ↔ value = ""
  of_nonempty : value ≠ "" → expression = literal ++ kind.suffix

theorem expression_of_ne_empty (kind : ConstantType) {value : String} (h : value ≠ "") :
    kind.expression value = Literal.quote value ++ kind.suffix := by
  have hempty : value.isEmpty = false := by simpa using h
  cases kind <;> simp [expression, suffix, hempty]

theorem expression_ne_emptyForm (kind : ConstantType) {value : String} (h : value ≠ "") :
    kind.expression value ≠ kind.emptyForm := by
  rw [expression_of_ne_empty kind h]
  intro heq
  have hhead := congrArg (fun t => t.toList.head?) heq
  simp only [Literal.quote, String.toList_append, String.toList_ofList, List.cons_append,
    List.head?_cons] at hhead
  cases kind <;> simp [emptyForm] at hhead

theorem expresses_quote (kind : ConstantType) (value : String) :
    kind.Expresses value (Literal.quote value) (kind.expression value) where
  isLiteral := Literal.isLiteral_quote value
  of_empty := by
    constructor
    · intro h
      by_contra hne
      exact expression_ne_emptyForm kind hne h
    · rintro rfl
      cases kind <;> rfl
  of_nonempty := expression_of_ne_empty kind

end ConstantType
end NativeBindings
