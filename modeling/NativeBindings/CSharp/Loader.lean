import NativeBindings.CSharp.Accessor
import NativeBindings.CSharp.Literal

/-!
# Loaders

Each library has a class with a field for every slot and an initializer, which loads the library and
resolves the slots. A library whose imports all have conditions is only loaded if one of them holds.

## Main definitions

- `SharedSlot.declaration` — the field of a slot, with a comment
- `attempt` — one try to load or resolve something, with error handling
- `Loader.libraryClass` — the class of a library
-/

namespace NativeBindings

/-- The field of a slot below a comment that lists its importers. -/
def SharedSlot.declaration (s : SharedSlot) (condition : Option NamedType) : List Fragment :=
  .line ("// Symbol: " ++ s.symbolName) ::
    (condition.map fun c => Fragment.line ("// Condition: " ++ c.name)).toList ++
    .line "// imported by:" ::
    s.importers.map (fun i => .line ("//  - " ++ i.signature)) ++
    [.line ("internal static global::System.IntPtr " ++ s.slot.field ++ ";")]

/-- A loop around one action, which leaves it if nothing is thrown. Otherwise `handler` decides: if
it declines, the initializer returns; if not, the action is tried again if `retry` is set. A blank
`name` is not tried at all. -/
def attempt (preamble : List Fragment) (name action handler : String) (retry : Bool) : Fragment :=
  .sequence
    [.braced "do" <| preamble ++
      [.braced ("if (!string.IsNullOrWhiteSpace(" ++ name ++ "))")
        [.braced "try" [.line action, .blank, .line "break;"],
         .braced "catch (global::System.Exception exception)"
           [.line "info = global::System.Runtime.ExceptionServices.ExceptionDispatchInfo.Capture(exception);"]],
       .braced "else" [.line "info = null;"],
       .blank,
       .braced ("if (!" ++ handler ++ ")") [.line "return;"]],
     .line (if retry then "while (true);" else "while (false);")]

/-- What loaders need to know: the namespace of the marker types and the tool. -/
structure Loader where
  markerNamespace : String
  tool : Tool
  deriving DecidableEq

namespace Loader

/-- A method of the library interface, for a library. -/
def libraryMethod (l : Loader) (method : String) (library : NamedType) : String :=
  "global::" ++ l.markerNamespace ++ ".INativeImportLibrary." ++ method ++ "<" ++
    library.qualified ++ ">"

/-- The evaluation of a condition. -/
def evaluate (l : Loader) (condition : NamedType) : String :=
  "global::" ++ l.markerNamespace ++ ".INativeImportCondition.Evaluate<" ++
    condition.qualified ++ ">()"

/-- The attempt to load a library. -/
def loadLibrary (l : Loader) (g : LibrarySlots) : Fragment :=
  attempt
    [.line ("(libraryName, searchPath) = " ++
       l.libraryMethod "GetLibraryNameAndSearchPath" g.library ++ "();"),
     .blank]
    "libraryName"
    ("libraryHandle = global::System.Runtime.InteropServices.NativeLibrary.Load(libraryName, typeof(global::" ++
      Slot.libraryClass g.index ++ ").Assembly, searchPath);")
    (l.libraryMethod "HandleLibraryImportError" g.library ++ "(libraryName, searchPath, info)")
    true

/-- The attempt to resolve a slot. -/
def resolveSlot (l : Loader) (library : NamedType) (s : SharedSlot) : Fragment :=
  let name := Literal.quote s.symbolName
  attempt [] name
    (s.slot.field ++
      " = global::System.Runtime.InteropServices.NativeLibrary.GetExport(libraryHandle, " ++
      name ++ ");")
    (l.libraryMethod "HandleSymbolImportError" library ++ "(" ++ name ++ ", info)")
    false

/-- The local variable of a condition. -/
def conditionLocal (i : Nat) : String := s!"b{i}"

/-- Evaluates all conditions and returns if none of them holds. -/
def precheck (l : Loader) (g : LibrarySlots) : List Fragment :=
  let gates := g.conditional.zipIdx
  gates.map (fun (c, i) =>
      .line ("var " ++ conditionLocal i ++ " = " ++ l.evaluate c.condition ++ ";")) ++
    [.blank,
     .braced ("if (!(" ++ joined " || " (gates.map fun (_, i) => conditionLocal i) ++ "))")
       [.line "return;"],
     .blank]

/-- Resolves the slots behind a condition. -/
def gated (l : Loader) (g : LibrarySlots) (c : GatedSlots) (i : Nat) : List Fragment :=
  let test := if g.hasUnconditional then l.evaluate c.condition else conditionLocal i
  [.blank,
   .braced ("if (" ++ test ++ ")") (Fragment.separated (c.slots.map (l.resolveSlot g.library)))]

/-- The statements of the initializer of a library. -/
def initializer (l : Loader) (g : LibrarySlots) : List Fragment :=
  (if g.hasUnconditional then [] else l.precheck g) ++
    [.line "global::System.Runtime.ExceptionServices.ExceptionDispatchInfo? info;",
     .line "string? libraryName;",
     .line "global::System.Runtime.InteropServices.DllImportSearchPath? searchPath;",
     .line "global::System.IntPtr libraryHandle;",
     .blank,
     l.loadLibrary g] ++
    g.unconditional.flatMap (fun s => [.blank, l.resolveSlot g.library s]) ++
    g.conditional.zipIdx.flatMap (fun (c, i) => l.gated g c i) ++
    [.blank,
     .line (l.libraryMethod "AfterSuccessfullyLoaded" g.library ++ "(libraryName, searchPath);")]

/-- The class of a library. -/
def libraryClass (l : Loader) (g : LibrarySlots) : List Fragment :=
  [.line (UnitText.generatedCode l.tool),
   .braced ("file static class " ++ Slot.libraryClass g.index) <|
     g.slots.flatMap (fun (condition, s) => s.declaration condition ++ [.blank]) ++
     [.line "[global::System.Runtime.CompilerServices.SkipLocalsInit]",
      .line "[global::System.Runtime.CompilerServices.ModuleInitializer]",
      .braced "internal static void ModuleInitializer()" (l.initializer g)]]

/-- The unit with the classes of all libraries and the accessors of all bindings. -/
def unitText (l : Loader) (tree : DeclarationTree Binding) (slots : SlotTable) : String :=
  UnitText.page <|
    slots.libraries.flatMap (fun g => l.libraryClass g ++ [.blank]) ++
      tree.fragments (Binding.printer l.tool)

end Loader
end NativeBindings
