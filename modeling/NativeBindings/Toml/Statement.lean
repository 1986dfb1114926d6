import NativeBindings.Toml.Token

/-!
# TOML statements

A document is a list of statements, one to a line: headers, and keys with their values. Values can
run over several lines.

## Main definitions

- `Toml.value?` — a value, with its place
- `Toml.Statement` — the statements
- `Toml.statements?` — the statements of a document
-/

namespace NativeBindings
namespace Toml

/-- The tokens that follow a part of others. -/
abbrev Rest (ts : List PlacedToken) := { r : List PlacedToken // r.length < ts.length }

/-- The place of a part of some tokens. -/
def placeOf (ts rest : List PlacedToken) : Span :=
  let part := ts.take (ts.length - rest.length)
  ⟨(part.head?.map (·.span.start)).getD 0, (part.getLast?.map (·.span.stop)).getD 0⟩

/-- The tokens behind blanks. -/
def skipBlanks (ts : List PlacedToken) : List PlacedToken :=
  ts.dropWhile (·.token == .blank)

/-- The tokens behind blanks and line ends. -/
def skipLines (ts : List PlacedToken) : List PlacedToken :=
  ts.dropWhile fun t => t.token == .blank || t.token == .newline

theorem length_skipBlanks (ts : List PlacedToken) : (skipBlanks ts).length ≤ ts.length :=
  (List.dropWhile_sublist _).length_le

theorem length_lt_of_skipBlanks {ts rest : List PlacedToken} {t : PlacedToken}
    (h : skipBlanks ts = t :: rest) : rest.length < ts.length :=
  Nat.lt_of_lt_of_le (by rw [h]; exact Nat.lt_succ_self _) (length_skipBlanks ts)

theorem length_skipLines (ts : List PlacedToken) : (skipLines ts).length ≤ ts.length :=
  (List.dropWhile_sublist _).length_le

/-- `c` can stand in a bare key. -/
def isKeyChar (c : Char) : Bool :=
  Numeral.isDigit c || ('a' ≤ c && c ≤ 'z') || ('A' ≤ c && c ≤ 'Z') || c == '_' || c == '-'

/-- The part of a key that a token stands for. -/
def keyPart? : Token → Option String
  | .word s => if s.all isKeyChar then some (.ofList s) else none
  | .text s false => some s
  | _ => none

/-- How many parts a key can have. -/
def maxKeyParts : Nat := 80

/-- How many arrays and inline tables can contain each other. -/
def maxDepth : Nat := 80

/-- The parts of a dotted key, with blanks around them. -/
def parts? (ts : List PlacedToken) : Option (List String × Rest ts) :=
  match hs : skipBlanks ts with
  | [] => none
  | t :: behind =>
    have hb := length_lt_of_skipBlanks hs
    match keyPart? t.token with
    | none => none
    | some part =>
      match hn : skipBlanks behind with
      | ⟨.point, _⟩ :: more =>
        have hm := length_lt_of_skipBlanks hn
        match parts? more with
        | none => none
        | some (parts, rest) => some (part :: parts, ⟨rest, Nat.lt_trans rest.2 (Nat.lt_trans hm hb)⟩)
      | _ =>
        some ([part], ⟨skipBlanks behind, Nat.lt_of_le_of_lt (length_skipBlanks behind) hb⟩)
termination_by ts.length

/-- A dotted key that does not have too many parts. -/
def key? (ts : List PlacedToken) : Option (List String × Rest ts) :=
  (parts? ts).filter fun (parts, _) => parts.length ≤ maxKeyParts

/-- The word at the start of some tokens, in which points can stand. -/
def word : List PlacedToken → List Char × List PlacedToken
  | ⟨.word s, _⟩ :: ts => (s ++ (word ts).1, (word ts).2)
  | ⟨.point, _⟩ :: ts => ('.' :: (word ts).1, (word ts).2)
  | ts => ([], ts)

theorem length_word (ts : List PlacedToken) : (word ts).2.length ≤ ts.length := by
  fun_induction word ts with
  | case1 | case2 =>
    rename_i ih
    exact Nat.le_succ_of_le ih
  | case3 => exact Nat.le_refl _

mutual

/-- A value and what follows it; `depth` is how many arrays and tables can still be opened. -/
def value? (depth : Nat) (ts : List PlacedToken) : Option (Value × Rest ts) :=
  match depth, ts with
  | _, ⟨.text s _, _⟩ :: rest => some (.string s, ⟨rest, Nat.lt_succ_self _⟩)
  | depth + 1, ⟨.openBracket, _⟩ :: behind =>
    (items? depth behind).map fun (items, rest) =>
      (.array false items, ⟨rest, Nat.lt_succ_of_lt rest.2⟩)
  | depth + 1, ⟨.openBrace, _⟩ :: behind =>
    (entries? depth [] behind).map fun (entries, rest) =>
      (.table .inline entries, ⟨rest, Nat.lt_succ_of_lt rest.2⟩)
  | _, ⟨.word s, _⟩ :: behind =>
    (scalar? (s ++ (word behind).1)).map fun v =>
      (v, ⟨(word behind).2, Nat.lt_succ_of_le (length_word behind)⟩)
  | _, _ => none
termination_by (ts.length, 0)

/-- The items of an array up to its closing bracket, and what follows it. -/
def items? (depth : Nat) (ts : List PlacedToken) : Option (List (Span × Value) × Rest ts) :=
  have hs := length_skipLines ts
  match ht : skipLines ts with
  | [] => none
  | ⟨.closeBracket, _⟩ :: rest =>
    some ([], ⟨rest, by simp only [ht, List.length_cons] at hs; omega⟩)
  | t :: behind =>
    match value? depth (t :: behind) with
    | none => none
    | some (v, rest) =>
      have hr : rest.1.length < ts.length := by
        have := rest.2
        rw [ht] at hs
        omega
      have hn := length_skipLines rest
      let item := (placeOf (t :: behind) rest, v)
      match hl : skipLines rest with
      | ⟨.closeBracket, _⟩ :: last =>
        some ([item], ⟨last, by simp only [hl, List.length_cons] at hn; omega⟩)
      | ⟨.comma, _⟩ :: more =>
        have hm : more.length < ts.length := by
          simp only [hl, List.length_cons] at hn
          omega
        (items? depth more).map fun (items, last) => (item :: items, ⟨last, Nat.lt_trans last.2 hm⟩)
      | _ => none
termination_by (ts.length, 1)
decreasing_by
  · rw [ht] at hs
    exact Prod.Lex.right' _ (by simpa using hs) Nat.zero_lt_one
  · exact Prod.Lex.left _ _ hm

/-- The entries of an inline table up to its closing brace, and what follows it. -/
def entries? (depth : Nat) (es : Entries) (ts : List PlacedToken) : Option (Entries × Rest ts) :=
  have hs := length_skipLines ts
  match ht : skipLines ts with
  | [] => none
  | ⟨.closeBrace, _⟩ :: rest =>
    some (es, ⟨rest, by simp only [ht, List.length_cons] at hs; omega⟩)
  | t :: behind =>
    match key? (t :: behind) with
    | none => none
    | some (parts, named) =>
      have he := length_skipLines named
      match hq : skipLines named with
      | ⟨.equals, _⟩ :: assigned =>
        have ha : (skipLines assigned).length < ts.length := by
          have hk := named.2
          have := length_skipLines assigned
          simp only [ht, hq, List.length_cons] at hs he hk
          omega
        match value? depth (skipLines assigned) with
        | none => none
        | some (v, rest) =>
          match es.assign? v parts with
          | none => none
          | some es =>
            have hn := length_skipLines rest
            match hl : skipLines rest with
            | ⟨.closeBrace, _⟩ :: last =>
              some (es, ⟨last, by
                have := rest.2
                simp only [hl, List.length_cons] at hn
                omega⟩)
            | ⟨.comma, _⟩ :: more =>
              have hm : more.length < ts.length := by
                have := rest.2
                simp only [hl, List.length_cons] at hn
                omega
              (entries? depth es more).map fun (es, last) => (es, ⟨last, Nat.lt_trans last.2 hm⟩)
            | _ => none
      | _ => none
termination_by (ts.length, 1)
decreasing_by
  · exact Prod.Lex.left _ _ ha
  · exact Prod.Lex.left _ _ hm

end

/-- A statement. -/
inductive Statement where
  /-- A dotted key with its value. -/
  | assignment (key : List String) (value : Value)
  /-- A header in single brackets. -/
  | table (key : List String)
  /-- A header in double brackets, with its place. -/
  | item (key : List String) (place : Span)

/-- The statement at the start of some tokens, and what follows it. -/
def statement? (ts : List PlacedToken) : Option (Statement × Rest ts) :=
  match ts with
  | ⟨.openBracket, first⟩ :: ⟨.openBracket, second⟩ :: behind =>
    match key? behind with
    | some (parts, ⟨⟨.closeBracket, _⟩ :: ⟨.closeBracket, _⟩ :: rest, hr⟩) =>
      let place := placeOf (⟨.openBracket, first⟩ :: ⟨.openBracket, second⟩ :: behind) rest
      some (.item parts place, ⟨rest, by simp only [List.length_cons] at hr ⊢; omega⟩)
    | _ => none
  | ⟨.openBracket, _⟩ :: behind =>
    match key? behind with
    | some (parts, ⟨⟨.closeBracket, _⟩ :: rest, hr⟩) =>
      some (.table parts, ⟨rest, by simp only [List.length_cons] at hr ⊢; omega⟩)
    | _ => none
  | ts =>
    match key? ts with
    | some (parts, ⟨⟨.equals, _⟩ :: assigned, ha⟩) =>
      (value? maxDepth (skipBlanks assigned)).map fun (v, rest) =>
        (.assignment parts v, ⟨rest, by
          have := rest.2
          have := length_skipBlanks assigned
          simp only [List.length_cons] at ha
          omega⟩)
    | _ => none

/-- The statements of a document, each with its line to itself. -/
def statements? (ts : List PlacedToken) : Option (List Statement) :=
  have hs := length_skipLines ts
  match ht : skipLines ts with
  | [] => some []
  | t :: behind =>
    match statement? (t :: behind) with
    | none => none
    | some (s, rest) =>
      have hb := length_skipBlanks rest
      match hl : skipBlanks rest with
      | [] => some [s]
      | ⟨.newline, _⟩ :: more =>
        have : more.length < ts.length := by
          have := rest.2
          simp only [ht, hl, List.length_cons] at hb hs this
          omega
        (statements? more).map (s :: ·)
      | _ => none
termination_by ts.length

end Toml
end NativeBindings
