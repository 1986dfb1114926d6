import NativeBindings.Fragment

/-!
# Indentation of generated text

Fragments are added to a page as if a writer went through them: line by line, one unit deeper for the
body of a block, and back again behind it. The writer ends at the depth where it began, and does not
see how fragments are grouped in sequences. What it writes at a depth is what it writes at depth
zero, with the units of this depth in front of all lines but directives and blank ones.

## Main definitions

- `Page.writeAll` — adds fragments line by line
- `Fragment.Regroups` — fragments that differ only in what is wrapped in sequences
- `Fragment.rowsAll` — the lines at depth zero, each with whether it moves with its surroundings

## Main statements

- `Page.writeAll_eq_emit` — fragments are added line by line
- `Fragment.Regroups.emit_eq` — sequences do not matter
- `Fragment.render_linesOfAll` — the lines at a depth
- `Page.indents_emit` — all of it, for all fragments on all pages
-/

namespace NativeBindings

/-! ## Writing line by line -/

namespace Page

/-- Adds a line with the given number of indentation units. -/
def push (p : Page) (depth : Nat) (text : String) : Page :=
  { p with text := p.text ++ (IndentedLine.mk depth text).render p.indentation.unit }

mutual

/-- Adds a fragment line by line. -/
def write (p : Page) : Fragment → Page
  | .line text => p.push p.depth text
  | .directive text => p.push 0 text
  | .blank => p.push 0 ""
  | .block header body close =>
    let behind := (writeAll (p.push p.depth header).indent body).dedent
    close.elim behind fun text => behind.push behind.depth text
  | .sequence parts => writeAll p parts

/-- Adds fragments one after the other. -/
def writeAll (p : Page) : List Fragment → Page
  | [] => p
  | f :: fs => writeAll (write p f) fs

end

theorem emit_nil (p : Page) : p.emit [] = p := by
  simp [emit, Fragment.linesOfAll]

theorem emit_append (p : Page) (fs gs : List Fragment) : p.emit (fs ++ gs) = (p.emit fs).emit gs := by
  simp [emit, Fragment.linesOfAll_append]

theorem emit_append_cons (p : Page) (front : List Fragment) (f : Fragment) (back : List Fragment) :
    p.emit (front ++ f :: back) = ((p.emit front).emit [f]).emit back := by
  rw [← emit_append, ← emit_append, List.singleton_append]

theorem emit_sequence (p : Page) (parts : List Fragment) : p.emit [.sequence parts] = p.emit parts := by
  simp [emit, Fragment.linesOfAll, Fragment.lines]

/-- The body of a block stands one unit deeper, and what follows it does not. -/
theorem emit_block (p : Page) (header : String) (body : List Fragment) (close : Option String) :
    p.emit [.block header body close] =
      let behind := ((p.push p.depth header).indent.emit body).dedent
      close.elim behind fun text => behind.push behind.depth text := by
  cases close <;> simp [emit, push, indent, dedent, Fragment.linesOfAll, Fragment.lines]

mutual

theorem write_eq_emit (p : Page) (f : Fragment) : p.write f = p.emit [f] := by
  match f with
  | .line text | .directive text | .blank =>
    simp [write, emit, push, Fragment.linesOfAll, Fragment.lines]
  | .block header body close => rw [write, emit_block, writeAll_eq_emit]
  | .sequence parts => rw [write, emit_sequence, writeAll_eq_emit]

/-- Going through fragments line by line adds their lines. -/
theorem writeAll_eq_emit (p : Page) (fs : List Fragment) : p.writeAll fs = p.emit fs := by
  match fs with
  | [] => rw [writeAll, emit_nil]
  | f :: fs => rw [writeAll, write_eq_emit, writeAll_eq_emit, ← emit_append, List.singleton_append]

end

end Page

namespace Fragment

/-! ## Sequences -/

/-- The fragments are the same if sequences are opened, in the bodies of blocks as well. -/
inductive Regroups : List Fragment → List Fragment → Prop
  | refl (fs : List Fragment) : Regroups fs fs
  | symm {fs gs : List Fragment} : Regroups fs gs → Regroups gs fs
  | trans {fs gs hs : List Fragment} : Regroups fs gs → Regroups gs hs → Regroups fs hs
  | wrap (front run back : List Fragment) :
    Regroups (front ++ run ++ back) (front ++ sequence run :: back)
  | block (front back : List Fragment) (header : String) (close : Option String)
    {body body' : List Fragment} : Regroups body body' →
    Regroups (front ++ block header body close :: back) (front ++ block header body' close :: back)

theorem Regroups.emit_eq {fs gs : List Fragment} (h : Regroups fs gs) (p : Page) :
    p.emit gs = p.emit fs := by
  induction h generalizing p with
  | refl => rfl
  | symm _ ih => exact (ih p).symm
  | trans _ _ ih ih' => exact (ih' p).trans (ih p)
  | wrap front run back =>
    rw [Page.emit_append_cons, Page.emit_sequence, Page.emit_append, Page.emit_append]
  | block front back header close _ ih =>
    rw [Page.emit_append_cons, Page.emit_append_cons, Page.emit_block, Page.emit_block, ih]

/-! ## Depth -/

/-- A line of generated text with its end, as it stands at depth zero. -/
structure Row where
  /-- The line stands as deep as its surroundings. -/
  moves : Bool
  text : List Char
  deriving DecidableEq

/-- The line when its surroundings stand the given number of units deeper. -/
def Row.shift (unit : List Char) (n : Nat) (r : Row) : Row :=
  if r.moves then ⟨true, (List.replicate n unit).flatten ++ r.text⟩ else r

mutual

/-- The lines of a fragment at depth zero. -/
def rows (unit : List Char) : Fragment → List Row
  | line text => [⟨true, text.toList ++ ['\n']⟩]
  | directive text => [⟨false, text.toList ++ ['\n']⟩]
  | blank => [⟨false, ['\n']⟩]
  | block header body close =>
    ⟨true, header.toList ++ ['\n']⟩ :: ((rowsAll unit body).map (Row.shift unit 1) ++
      (close.map fun text => ⟨true, text.toList ++ ['\n']⟩).toList)
  | sequence parts => rowsAll unit parts

/-- The lines of several fragments at depth zero. -/
def rowsAll (unit : List Char) : List Fragment → List Row
  | [] => []
  | f :: fs => rows unit f ++ rowsAll unit fs

end

variable {unit : List Char}

@[simp] theorem Row.shift_zero (unit : List Char) (r : Row) : r.shift unit 0 = r := by
  rcases r with ⟨_ | _, text⟩ <;> simp [shift]

theorem Row.shift_shift (unit : List Char) (m n : Nat) (r : Row) :
    (r.shift unit m).shift unit n = r.shift unit (n + m) := by
  have hunits : (List.replicate n unit).flatten ++ (List.replicate m unit).flatten =
      (List.replicate (n + m) unit).flatten := by
    rw [← List.flatten_append, List.replicate_append_replicate]
  rcases r with ⟨_ | _, text⟩
  · rfl
  · simp [shift, ← hunits]

theorem render_mk (depth : Nat) (text : String) :
    (IndentedLine.mk depth text).render unit =
      (Row.shift unit depth ⟨true, text.toList ++ ['\n']⟩).text := by
  rw [IndentedLine.render, List.append_assoc]
  rfl

mutual

theorem render_lines (depth : Nat) (f : Fragment) :
    (f.lines depth).map (·.render unit) = (f.rows unit).map fun r => (r.shift unit depth).text := by
  match f with
  | line text => rw [lines, rows, List.map_singleton, List.map_singleton, render_mk]
  | directive text => rfl
  | blank => rfl
  | block header body close =>
    have hbody := render_linesOfAll (depth + 1) body
    have hclose : (close.map (IndentedLine.mk depth)).toList.map (·.render unit) =
        (close.map fun text => Row.mk true (text.toList ++ ['\n'])).toList.map fun r =>
          (r.shift unit depth).text := by
      cases close with
      | none => rfl
      | some text => exact congrArg (fun line => [line]) (render_mk depth text)
    simp only [lines, rows, List.map_cons, List.map_append, List.map_map, Function.comp_def,
      render_mk, hbody, hclose, Row.shift_shift]
  | sequence parts => rw [lines, rows, render_linesOfAll]

/-- The lines at a depth are those at depth zero, moved. -/
theorem render_linesOfAll (depth : Nat) (fs : List Fragment) :
    (linesOfAll depth fs).map (·.render unit) =
      (rowsAll unit fs).map fun r => (r.shift unit depth).text := by
  match fs with
  | [] => rfl
  | f :: fs => rw [linesOfAll, rowsAll, List.map_append, List.map_append, render_lines,
      render_linesOfAll]

end

end Fragment

namespace Page

/-- The text that fragments add at a depth. -/
theorem text_emit (p : Page) (fs : List Fragment) :
    (p.emit fs).text = p.text ++ (Fragment.rowsAll p.indentation.unit fs).flatMap fun r =>
      (r.shift p.indentation.unit p.depth).text := by
  rw [emit, Fragment.render_linesOfAll, List.flatMap_def]

/-- Fragments are added line by line and leave the depth as it was. Those behind each other are added
one after the other, and sequences around them do not matter. Lines stand as deep as the page, but
for directives and blank lines, which stand where they stand at depth zero. -/
theorem indents_emit (p : Page) (fs : List Fragment) :
    p.writeAll fs = p.emit fs ∧ (p.writeAll fs).depth = p.depth ∧
      (∀ gs, p.emit (fs ++ gs) = (p.emit fs).emit gs) ∧
      (∀ gs, Fragment.Regroups fs gs → p.emit gs = p.emit fs) ∧
      ({ p with depth := 0 }.emit fs).text =
        p.text ++ (Fragment.rowsAll p.indentation.unit fs).flatMap Fragment.Row.text ∧
      (p.emit fs).text = p.text ++ (Fragment.rowsAll p.indentation.unit fs).flatMap fun r =>
        (r.shift p.indentation.unit p.depth).text := by
  refine ⟨p.writeAll_eq_emit fs, ?_, p.emit_append fs, fun gs h => h.emit_eq p, ?_, p.text_emit fs⟩
  · rw [writeAll_eq_emit, depth_emit]
  · simpa using text_emit { p with depth := 0 } fs

/-- A page of depth one, and a block on it that is wrapped in sequences from outside and from
inside. -/
theorem indents_emit_wrapped :
    let p : Page := { depth := 1 }
    let body : List Fragment := [.directive "#line 1", .line "x = 1;"]
    let block : List Fragment → Fragment := fun body => .block "\x7b" body (some "\x7d")
    let fs := [.line "unsafe", block body, .blank]
    let gs := [.sequence [.line "unsafe", block [.sequence body]], .blank]
    Fragment.Regroups fs gs ∧ p.emit gs = p.emit fs ∧ (p.emit gs).depth = 1 ∧
      (p.emit gs).text = "\tunsafe\n\t\x7b\n#line 1\n\t\tx = 1;\n\t\x7d\n\n".toList := by
  intro p body block fs gs
  have hinside : Fragment.Regroups fs [.line "unsafe", block [.sequence body], .blank] :=
    .block [.line "unsafe"] [.blank] _ _ (.wrap [] body [])
  have houtside : Fragment.Regroups [.line "unsafe", block [.sequence body], .blank] gs :=
    .wrap [] [.line "unsafe", block [.sequence body]] [.blank]
  have hgroups := hinside.trans houtside
  obtain ⟨-, -, -, hemit, -⟩ := p.indents_emit fs
  exact ⟨hgroups, hemit gs hgroups, rfl, by decide +kernel⟩

end Page
end NativeBindings
