import NativeBindings.Format.Pattern
import NativeBindings.Format.Standard

/-!
# Composite templates

A template is text in which braces are written twice, and items `{index[,width][:specifier]}` stand
for arguments.

## Main definitions

- `FormatArgument` — a constant argument
- `Template.item?` — reads an item behind its opening brace
- `Template.expand` — the text of a template
-/

namespace NativeBindings

/-- A constant argument of a template. -/
inductive FormatArgument where
  | null
  | bool (value : Bool)
  | int (value : Int64)
  | uint (value : UInt64)
  | float (value : Binary64)
  | char (value : Char)
  | string (value : String)
  deriving DecidableEq

/-- A finite number written as a specifier asks for. -/
def Number.text (sym : NumberSymbols) (n : Number) (spec : List Char) :
    Except FormatError (List Char) := do
  match ← Specifier.read spec with
  | .standard letter precision => Standard.text sym n letter precision
  | .pattern chars => .ok (Pattern.text sym n chars)

/-- The text of an argument; only numbers look at the specifier, and of these only finite ones. -/
def FormatArgument.text (sym : NumberSymbols) (spec : List Char) :
    FormatArgument → Except FormatError (List Char)
  | .null => .ok []
  | .string s => .ok s.toList
  | .char c => .ok [c]
  | .bool b => .ok (if b then "True" else "False").toList
  | .int v => (Number.ofInt64 v).text sym spec
  | .uint v => (Number.ofUInt64 v).text sym spec
  | .float x =>
    match x.decode with
    | .notANumber => .ok sym.notANumber
    | .infinite negative => .ok (if negative then sym.negativeInfinity else sym.positiveInfinity)
    | .finite s m q => (Number.binary s m q).text sym spec

namespace Template

/-- Indices and widths are below this. -/
def maxItemValue : Nat := 1000000

/-- An item of a template. -/
structure Item where
  index : Nat
  /-- The least number of characters; a negative width puts the padding behind the text. -/
  width : Int
  specifier : List Char
  deriving DecidableEq

/-- Blanks at the start of `s` left out. -/
def skipBlanks (s : List Char) : List Char := s.dropWhile (· = ' ')

/-- A non-empty decimal number below `maxItemValue`, and what follows it. -/
def number? (s : List Char) : Option (Nat × List Char) :=
  let ds := s.takeWhile Numeral.isDigit
  let n := Numeral.read ds
  if ds.isEmpty || maxItemValue ≤ n then none else some (n, s.drop ds.length)

/-- The width behind a comma, zero without one, and what follows it. -/
def width? (s : List Char) : Option (Int × List Char) :=
  match s with
  | ',' :: rest =>
    match skipBlanks rest with
    | '-' :: digits => (number? digits).map fun (n, after) => (-(n : Int), skipBlanks after)
    | digits => (number? digits).map fun (n, after) => ((n : Int), skipBlanks after)
  | _ => some (0, s)

/-- The specifier behind a colon, empty without one, and what follows the closing brace. -/
def specifier? (s : List Char) : Option (List Char × List Char) :=
  match s with
  | ':' :: rest =>
    let spec := rest.takeWhile fun c => c ≠ '\x7b' ∧ c ≠ '\x7d'
    match rest.drop spec.length with
    | '\x7d' :: after => some (spec, after)
    | _ => none
  | '\x7d' :: after => some ([], after)
  | _ => none

/-- The item that starts behind an opening brace, and what follows its closing brace. -/
def item? (s : List Char) : Option (Item × List Char) := do
  let (index, afterIndex) ← number? s
  let (width, afterWidth) ← width? (skipBlanks afterIndex)
  let (specifier, rest) ← specifier? afterWidth
  some (⟨index, width, specifier⟩, rest)

theorem length_skipBlanks (s : List Char) : (skipBlanks s).length ≤ s.length :=
  (List.dropWhile_sublist _).length_le

theorem number?_length {s rest : List Char} {n : Nat} (h : number? s = some (n, rest)) :
    rest.length ≤ s.length := by
  unfold number? at h
  dsimp only at h
  split at h
  · simp at h
  · simp only [Option.some.injEq, Prod.mk.injEq] at h
    rw [← h.2, List.length_drop]
    omega

theorem width?_length {s rest : List Char} {w : Int} (h : width? s = some (w, rest)) :
    rest.length ≤ s.length := by
  unfold width? at h
  split at h
  next tail =>
    have hb := length_skipBlanks tail
    rw [List.length_cons]
    split at h
    next digits heq =>
      simp only [Option.map_eq_some_iff, Prod.exists, Prod.mk.injEq] at h
      obtain ⟨n, after, hn, -, rfl⟩ := h
      have h1 := number?_length hn
      have h2 := length_skipBlanks after
      rw [heq, List.length_cons] at hb
      omega
    next =>
      simp only [Option.map_eq_some_iff, Prod.exists, Prod.mk.injEq] at h
      obtain ⟨n, after, hn, -, rfl⟩ := h
      have h1 := number?_length hn
      have h2 := length_skipBlanks after
      omega
  · simp only [Option.some.injEq, Prod.mk.injEq] at h
    obtain ⟨-, rfl⟩ := h
    exact Nat.le_refl _

theorem specifier?_length {s spec rest : List Char} (h : specifier? s = some (spec, rest)) :
    rest.length < s.length := by
  unfold specifier? at h
  split at h
  next tail =>
    dsimp only at h
    split at h
    next after hd =>
      simp only [Option.some.injEq, Prod.mk.injEq] at h
      rw [← h.2]
      have hl := congrArg List.length hd
      simp only [List.length_drop, List.length_cons] at hl ⊢
      omega
    · simp at h
  next after =>
    simp only [Option.some.injEq, Prod.mk.injEq] at h
    rw [← h.2]
    simp
  · simp at h

theorem item?_length {s rest : List Char} {item : Item} (h : item? s = some (item, rest)) :
    rest.length < s.length := by
  simp only [item?, bind, Option.bind_eq_some_iff] at h
  obtain ⟨⟨index, afterIndex⟩, hi, ⟨width, afterWidth⟩, hw, ⟨spec, after⟩, hs, h⟩ := h
  simp only [Option.some.injEq, Prod.mk.injEq] at h
  dsimp only at hw hs
  have h1 := number?_length hi
  have h2 := length_skipBlanks afterIndex
  have h3 := width?_length hw
  have h4 := specifier?_length hs
  rw [← h.2]
  omega

/-- `text` with blanks in front of it for a positive width, behind it for a negative one. -/
def pad (width : Int) (text : List Char) : List Char :=
  let padding := List.replicate (width.natAbs - text.length) ' '
  if 0 < width then padding ++ text else text ++ padding

/-- The text that an item stands for. -/
def Item.text (item : Item) (args : List FormatArgument) (sym : NumberSymbols) :
    Except FormatError (List Char) := do
  let arg ← (args[item.index]?).elim (.error .indexOutOfRange) .ok
  let text ← arg.text sym item.specifier
  .ok (pad item.width text)

/-- The text of a template, or the error of its leftmost part that has none. -/
def expand (args : List FormatArgument) (sym : NumberSymbols) :
    List Char → Except FormatError (List Char)
  | [] => .ok []
  | '\x7b' :: '\x7b' :: rest => do .ok ('\x7b' :: (← expand args sym rest))
  | '\x7d' :: '\x7d' :: rest => do .ok ('\x7d' :: (← expand args sym rest))
  | '\x7d' :: _ => .error .invalidTemplate
  | '\x7b' :: rest =>
    match h : item? rest with
    | none => .error .invalidTemplate
    | some (item, after) =>
      have := item?_length h
      do
        let text ← item.text args sym
        .ok (text ++ (← expand args sym after))
  | c :: rest => do .ok (c :: (← expand args sym rest))
termination_by s => s.length

end Template

/-- The value of a composite template. -/
def format (template : String) (args : List FormatArgument) (culture : Culture) :
    Except FormatError String :=
  (Template.expand args culture.symbols template.toList).map String.ofList

end NativeBindings
