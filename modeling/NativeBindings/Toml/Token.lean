import NativeBindings.Toml.Scalar

/-!
# TOML tokens

A document is cut into tokens before it is read. Strings are decoded here; a word between the other
tokens is a bare key or an unquoted value, which only its surroundings tell.

## Main definitions

- `Toml.Token` — the tokens
- `Toml.basicText?`, `Toml.longBasicText?`, `Toml.literalText?`, `Toml.longLiteralText?` — the four
  forms of a string
- `Toml.tokens?` — the tokens of a document with their places
-/

namespace NativeBindings
namespace Toml

/-- A token. -/
inductive Token where
  /-- Characters without a meaning of their own. -/
  | word (s : List Char)
  /-- A string; `long` if it is one of the forms that can hold line ends. -/
  | text (s : String) (long : Bool)
  | point
  | equals
  | comma
  | openBracket
  | closeBracket
  | openBrace
  | closeBrace
  /-- Blanks or a comment. -/
  | blank
  | newline
  deriving DecidableEq

/-- A token with its place. -/
structure PlacedToken where
  token : Token
  span : Span
  deriving DecidableEq

/-- `c` can stand in a string or a comment as it is. -/
def isTextChar (c : Char) : Bool := c == '\t' || (0x20 ≤ c.toNat && c.toNat != 0x7f)

/-- The character with the code point that hexadecimal digits give. -/
def codePoint? (ds : List Char) : Option Char := do
  let n := Numeral.value 16 (← ds.mapM hexDigit?)
  if n.isValidChar then some (Char.ofNat n) else none

/-- The character that a letter stands for behind a backslash. -/
def namedEscape? : Char → Option Char
  | 'b' => some '\x08'
  | 't' => some '\t'
  | 'n' => some '\n'
  | 'f' => some '\x0c'
  | 'r' => some '\r'
  | 'e' => some '\x1b'
  | '"' => some '"'
  | '\\' => some '\\'
  | _ => none

/-- A decoded text and what follows it. -/
abbrev Decoded := Option (List Char × List Char)

/-- Puts a character in front of a decoded text. -/
def Decoded.cons (c : Option Char) (d : Decoded) : Decoded := do
  let c ← c
  let (text, rest) ← d
  some (c :: text, rest)

/-- The text up to a double quote. -/
def basicText? : List Char → Decoded
  | [] => none
  | '"' :: rest => some ([], rest)
  | '\\' :: 'x' :: a :: b :: rest => .cons (codePoint? [a, b]) (basicText? rest)
  | '\\' :: 'u' :: a :: b :: c :: d :: rest => .cons (codePoint? [a, b, c, d]) (basicText? rest)
  | '\\' :: 'U' :: a :: b :: c :: d :: e :: f :: g :: h :: rest =>
    .cons (codePoint? [a, b, c, d, e, f, g, h]) (basicText? rest)
  | '\\' :: c :: rest => .cons (namedEscape? c) (basicText? rest)
  | c :: rest => if isTextChar c then .cons (some c) (basicText? rest) else none

/-- The text up to a single quote; nothing is escaped in it. -/
def literalText? : List Char → Decoded
  | [] => none
  | '\'' :: rest => some ([], rest)
  | c :: rest => if isTextChar c then .cons (some c) (literalText? rest) else none

/-- Where a long string stands in joining lines. -/
inductive Joining where
  | none
  /-- Behind a backslash and blanks, which must end the line. -/
  | lineEnd
  /-- Behind a line end that a backslash has taken away, as all blank characters that follow. -/
  | lineStart
  deriving DecidableEq

/-- The text up to three double quotes, of which two more can be the last of the text. -/
def longBasicText? : Joining → List Char → Decoded
  | _, [] => none
  | .lineEnd, c :: rest =>
    if c = ' ' ∨ c = '\t' then longBasicText? .lineEnd rest
    else if c = '\n' then longBasicText? .lineStart rest
    else if c = '\r' ∧ rest.head? = some '\n' then longBasicText? .lineEnd rest
    else none
  | _, '"' :: '"' :: '"' :: '"' :: '"' :: rest => some (['"', '"'], rest)
  | _, '"' :: '"' :: '"' :: '"' :: rest => some (['"'], rest)
  | _, '"' :: '"' :: '"' :: rest => some ([], rest)
  | _, '\\' :: 'x' :: a :: b :: rest =>
    .cons (codePoint? [a, b]) (longBasicText? .none rest)
  | _, '\\' :: 'u' :: a :: b :: c :: d :: rest =>
    .cons (codePoint? [a, b, c, d]) (longBasicText? .none rest)
  | _, '\\' :: 'U' :: a :: b :: c :: d :: e :: f :: g :: h :: rest =>
    .cons (codePoint? [a, b, c, d, e, f, g, h]) (longBasicText? .none rest)
  | _, '\\' :: c :: rest =>
    if c = ' ' ∨ c = '\t' then longBasicText? .lineEnd rest
    else if c = '\n' then longBasicText? .lineStart rest
    else if c = '\r' ∧ rest.head? = some '\n' then longBasicText? .lineEnd rest
    else .cons (namedEscape? c) (longBasicText? .none rest)
  | joining, c :: rest =>
    if c = '\r' ∧ rest.head? ≠ some '\n' then none
    else if joining = .lineStart ∧ (c = ' ' ∨ c = '\t' ∨ c = '\n' ∨ c = '\r') then
      longBasicText? .lineStart rest
    else if isTextChar c ∨ c = '\n' ∨ c = '\r' then
      .cons (some c) (longBasicText? .none rest)
    else none

/-- The text up to three single quotes, of which two more can be the last of the text. -/
def longLiteralText? : List Char → Decoded
  | [] => none
  | '\'' :: '\'' :: '\'' :: '\'' :: '\'' :: rest => some (['\'', '\''], rest)
  | '\'' :: '\'' :: '\'' :: '\'' :: rest => some (['\''], rest)
  | '\'' :: '\'' :: '\'' :: rest => some ([], rest)
  | c :: rest =>
    if isTextChar c ∨ c = '\n' ∨ (c = '\r' ∧ rest.head? = some '\n') then
      .cons (some c) (longLiteralText? rest)
    else none

/-- A long string without the line end that directly follows the opening quotes. -/
def skipLineEnd : List Char → List Char
  | '\n' :: s => s
  | '\r' :: '\n' :: s => s
  | s => s

/-- `c` ends a word. -/
def endsWord (c : Char) : Bool :=
  [' ', '\t', '\n', '\r', '#', '"', '\'', '.', '=', ',', '[', ']', '\x7b', '\x7d'].contains c

/-- The word that starts with a character, and what follows it. A date reaches over a space into the
time behind it. -/
def wordFrom (c : Char) (s : List Char) : List Char × List Char :=
  let word := c :: s.takeWhile (!endsWord ·)
  match s.dropWhile (!endsWord ·) with
  | ' ' :: d :: rest =>
    if DateTime.isDate word && Numeral.isDigit d then
      (word ++ ' ' :: d :: rest.takeWhile (!endsWord ·), rest.dropWhile (!endsWord ·))
    else (word, ' ' :: d :: rest)
  | rest => (word, rest)

/-- The comment up to the end of the line, and the rest. -/
def comment? (s : List Char) : Option (List Char) :=
  let line := s.takeWhile (· ≠ '\n')
  let rest := s.drop line.length
  let body := ((dropEnd? ['\r'] line).filter fun _ => !rest.isEmpty).getD line
  if body.all isTextChar then some rest else none

/-- The first token of a text that is not empty, and the rest. -/
def firstToken? : List Char → Option (Token × List Char)
  | [] => none
  | '.' :: s => some (.point, s)
  | '=' :: s => some (.equals, s)
  | ',' :: s => some (.comma, s)
  | '[' :: s => some (.openBracket, s)
  | ']' :: s => some (.closeBracket, s)
  | '\x7b' :: s => some (.openBrace, s)
  | '\x7d' :: s => some (.closeBrace, s)
  | ' ' :: s => some (.blank, s)
  | '\t' :: s => some (.blank, s)
  | '\n' :: s => some (.newline, s)
  | '\r' :: '\n' :: s => some (.newline, s)
  | '\r' :: _ => none
  | '#' :: s => (comment? s).map fun rest => (.blank, rest)
  | '"' :: '"' :: '"' :: s =>
    (longBasicText? .none (skipLineEnd s)).map fun (t, rest) => (.text (.ofList t) true, rest)
  | '"' :: s => (basicText? s).map fun (t, rest) => (.text (.ofList t) false, rest)
  | '\'' :: '\'' :: '\'' :: s =>
    (longLiteralText? (skipLineEnd s)).map fun (t, rest) => (.text (.ofList t) true, rest)
  | '\'' :: s => (literalText? s).map fun (t, rest) => (.text (.ofList t) false, rest)
  | c :: s =>
    let (word, rest) := wordFrom c s
    some (.word word, rest)

theorem Decoded.eq_some_of_cons {c : Option Char} {d : Decoded} {text rest : List Char}
    (h : Decoded.cons c d = some (text, rest)) : ∃ tail, d = some (tail, rest) := by
  obtain ⟨_, _, h⟩ := Option.bind_eq_some_iff.1 h
  obtain ⟨⟨tail, _⟩, hd, h⟩ := Option.bind_eq_some_iff.1 h
  exact ⟨tail, by rw [hd, (Prod.mk.inj (Option.some.inj h)).2]⟩

theorem length_basicText? {s text rest : List Char} (h : basicText? s = some (text, rest)) :
    rest.length < s.length := by
  fun_induction basicText? s generalizing text with
  | case1 => cases h
  | case2 => simp_all
  | case3 | case4 | case5 | case6 | case7 =>
    rename_i ih
    obtain ⟨_, hd⟩ := Decoded.eq_some_of_cons h
    have := ih hd
    simp only [List.length_cons]
    omega
  | case8 => cases h

theorem length_literalText? {s text rest : List Char} (h : literalText? s = some (text, rest)) :
    rest.length < s.length := by
  fun_induction literalText? s generalizing text with
  | case1 => cases h
  | case2 => simp_all
  | case3 =>
    rename_i ih
    obtain ⟨_, hd⟩ := Decoded.eq_some_of_cons h
    exact Nat.lt_succ_of_lt (ih hd)
  | case4 => cases h

theorem length_longBasicText? {joining : Joining} {s text rest : List Char}
    (h : longBasicText? joining s = some (text, rest)) : rest.length < s.length := by
  fun_induction longBasicText? joining s generalizing text with
  | case1 | case5 | case16 | case19 => cases h
  | case2 | case3 | case4 | case12 | case13 | case14 | case17 =>
    rename_i ih
    have := ih h
    simp only [List.length_cons]
    omega
  | case6 | case7 | case8 =>
    cases h
    simp only [List.length_cons]
    omega
  | case9 | case10 | case11 | case15 | case18 =>
    rename_i ih
    obtain ⟨_, hd⟩ := Decoded.eq_some_of_cons h
    have := ih hd
    simp only [List.length_cons]
    omega

theorem length_longLiteralText? {s text rest : List Char}
    (h : longLiteralText? s = some (text, rest)) : rest.length < s.length := by
  fun_induction longLiteralText? s generalizing text with
  | case1 => cases h
  | case2 | case3 | case4 =>
    cases h
    simp only [List.length_cons]
    omega
  | case5 =>
    rename_i ih
    obtain ⟨_, hd⟩ := Decoded.eq_some_of_cons h
    exact Nat.lt_succ_of_lt (ih hd)
  | case6 => cases h

theorem length_skipLineEnd (s : List Char) : (skipLineEnd s).length ≤ s.length := by
  fun_cases skipLineEnd s with
  | case1 | case2 =>
    simp only [List.length_cons]
    omega
  | case3 => exact Nat.le_refl _

theorem length_wordFrom (c : Char) (s : List Char) : (wordFrom c s).2.length ≤ s.length := by
  have hs : (s.dropWhile (!endsWord ·)).length ≤ s.length := (List.dropWhile_sublist _).length_le
  unfold wordFrom
  split
  next d rest h =>
    rw [h] at hs
    dsimp only
    split
    · have hr : rest.length ≤ s.length :=
        Nat.le_of_succ_le (Nat.le_of_succ_le hs)
      exact Nat.le_trans (List.dropWhile_sublist _).length_le hr
    · exact hs
  next => exact hs

theorem length_comment? {s rest : List Char} (h : comment? s = some rest) :
    rest.length ≤ s.length := by
  simp only [comment?] at h
  split at h
  · cases h
    simp
  · cases h

/-- A token takes at least one character. -/
theorem length_firstToken? {s rest : List Char} {t : Token} (h : firstToken? s = some (t, rest)) :
    rest.length < s.length := by
  unfold firstToken? at h
  split at h
  case h_1 | h_13 => cases h
  case h_14 s =>
    obtain ⟨r, hr, he⟩ := Option.map_eq_some_iff.1 h
    obtain ⟨rfl, rfl⟩ := Prod.mk.inj he
    exact Nat.lt_succ_of_le (length_comment? hr)
  case h_15 s =>
    obtain ⟨r, hr, he⟩ := Option.map_eq_some_iff.1 h
    have := length_longBasicText? hr
    have := length_skipLineEnd s
    cases he
    simp only [List.length_cons]
    omega
  case h_17 s =>
    obtain ⟨r, hr, he⟩ := Option.map_eq_some_iff.1 h
    have := length_longLiteralText? hr
    have := length_skipLineEnd s
    cases he
    simp only [List.length_cons]
    omega
  case h_16 s =>
    obtain ⟨r, hr, he⟩ := Option.map_eq_some_iff.1 h
    cases he
    exact Nat.lt_succ_of_lt (length_basicText? hr)
  case h_18 s =>
    obtain ⟨r, hr, he⟩ := Option.map_eq_some_iff.1 h
    cases he
    exact Nat.lt_succ_of_lt (length_literalText? hr)
  case h_19 =>
    cases h
    exact Nat.lt_succ_of_le (length_wordFrom _ _)
  all_goals
    cases h
    simp only [List.length_cons]
    omega

/-- The tokens of a text that starts at the given offset. -/
def tokensFrom? (offset : Nat) (s : List Char) : Option (List PlacedToken) :=
  if s.isEmpty then some []
  else
    match h : firstToken? s with
    | none => none
    | some (t, rest) =>
      let stop := offset + byteLength (s.take (s.length - rest.length))
      have := length_firstToken? h
      (tokensFrom? stop rest).map (⟨t, offset, stop⟩ :: ·)
termination_by s.length

/-- The tokens of a document; a byte order mark in front of them is left out. -/
def tokens? : List Char → Option (List PlacedToken)
  | '﻿' :: s => tokensFrom? (byteLength ['﻿']) s
  | s => tokensFrom? 0 s

end Toml
end NativeBindings
