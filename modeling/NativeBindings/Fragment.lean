/-!
# Fragments of generated text

Generated text is put together from fragments, which know nothing of the depth at which they will
stand. A fragment at a depth is a list of lines, each with its own indentation.

## Main definitions

- `Fragment` — lines, directives, blocks and sequences
- `Fragment.lines` — the lines of a fragment at a depth
- `Page` — a text under construction
-/

namespace NativeBindings

/-- A piece of generated text. -/
inductive Fragment where
  /-- A line at the depth of its surroundings. -/
  | line (text : String)
  /-- A line at column zero. -/
  | directive (text : String)
  | blank
  /-- An opening line, a deeper body and perhaps a closing line. -/
  | block (header : String) (body : List Fragment) (close : Option String)
  | sequence (parts : List Fragment)

/-- A line with its number of indentation units. -/
structure IndentedLine where
  depth : Nat
  text : String
  deriving DecidableEq

namespace Fragment

/-- A header line and a block in braces. -/
def braced (header : String) (body : List Fragment) : Fragment :=
  .sequence [.line header, .block "\x7b" body (some "\x7d")]

/-- The fragments with a blank line between them. -/
def separated : List Fragment → List Fragment
  | [] => []
  | [f] => [f]
  | f :: fs => f :: .blank :: separated fs

mutual

/-- The lines of a fragment at a depth. -/
def lines (depth : Nat) : Fragment → List IndentedLine
  | line text => [⟨depth, text⟩]
  | directive text => [⟨0, text⟩]
  | blank => [⟨0, ""⟩]
  | block header body close =>
    ⟨depth, header⟩ :: (linesOfAll (depth + 1) body ++
      (close.map (IndentedLine.mk depth)).toList)
  | sequence parts => linesOfAll depth parts

/-- The lines of several fragments at a depth. -/
def linesOfAll (depth : Nat) : List Fragment → List IndentedLine
  | [] => []
  | f :: fs => f.lines depth ++ linesOfAll depth fs

end

theorem linesOfAll_append (depth : Nat) (fs gs : List Fragment) :
    linesOfAll depth (fs ++ gs) = linesOfAll depth fs ++ linesOfAll depth gs := by
  induction fs with
  | nil => rfl
  | cons f fs ih => simp [linesOfAll, ih, List.append_assoc]

end Fragment

/-- One unit of indentation. -/
inductive Indentation where
  | tab
  /-- Two or eight blanks as asked for; any other width gives four. -/
  | blanks (width : Nat)
  deriving DecidableEq

/-- The text of one unit. -/
def Indentation.unit : Indentation → List Char
  | tab => ['\t']
  | blanks width => List.replicate (if width = 2 ∨ width = 8 then width else 4) ' '

/-- The text of a line with its end. -/
def IndentedLine.render (unit : List Char) (l : IndentedLine) : List Char :=
  (List.replicate l.depth unit).flatten ++ l.text.toList ++ ['\n']

/-- A text under construction. -/
structure Page where
  indentation : Indentation := .tab
  /-- The depth at which the next fragment will stand. -/
  depth : Nat := 0
  text : List Char := []
  deriving DecidableEq

namespace Page

def indent (p : Page) : Page := { p with depth := p.depth + 1 }

/-- Depth zero stays as it is. -/
def dedent (p : Page) : Page := { p with depth := p.depth - 1 }

/-- Adds fragments at the current depth. -/
def emit (p : Page) (fs : List Fragment) : Page :=
  { p with
    text := p.text ++ ((Fragment.linesOfAll p.depth fs).map (·.render p.indentation.unit)).flatten }

@[simp] theorem depth_emit (p : Page) (fs : List Fragment) : (p.emit fs).depth = p.depth := rfl

end Page

/-- The text of fragments at depth zero, indented with tabs. -/
def Fragment.render (fs : List Fragment) : String := .ofList (({} : Page).emit fs).text

end NativeBindings
