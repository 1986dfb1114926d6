import NativeBindings.CSharp.Loader
import NativeBindings.Proofs.Fragment.Nesting
import NativeBindings.Proofs.SlotTable.Numbering

/-!
# Classes of libraries

The class of a library has a field for each of its slots and resolves all of them in its
initializer. Slots without a condition are resolved first; the others follow, those of a condition
behind a test of it. If there are no slots of the first kind, all conditions are evaluated in
advance and the initializer returns if none of them holds.

The statements are told apart by the texts that they start with, which clash for statements of
different kinds.

## Main definitions

- `attemptHeaders` — the blocks around the action of an attempt
- `Loader.classLines` — the lines of a class, with the headers around them
- `Loader.ResolvesSlots` — what a class does for the slots of its library

## Main statements

- `Loader.filter_classLines` — the lines of a class that start with a given text
- `Loader.resolvesSlots_registerAll` — classes resolve the slots that requests have filled
-/

namespace NativeBindings

open Fragment

variable {p : String} {headers : List String}

/-! ## Attempts -/

/-- How the lines of an attempt start, its preamble and its action apart. -/
def attemptTexts : List String :=
  ["do", "\x7b", "\x7d", "if (!", "try", "break;", "catch (", "info = ", "else", "return;",
    "while ("]

/-- The headers around the action of an attempt. -/
def attemptHeaders (name : String) : List String :=
  ["do", "if (!string.IsNullOrWhiteSpace(" ++ name ++ "))", "try"]

/-- Of the lines of an attempt only those of the preamble and the action can start with a text that
clashes with all others. -/
theorem linesFrom_attempt (hp : attemptTexts.all (clash p) = true) (preamble : List Fragment)
    (name action handler : String) (retry : Bool) :
    linesFrom p headers [attempt preamble name action handler retry] =
      linesFrom p (headers ++ ["do"]) preamble ++
        linesFrom p (headers ++ attemptHeaders name) [line action] := by
  have hline : ∀ q s, q ∈ attemptTexts → startsWith q s = true → startsWith p s = false :=
    fun q s hq => startsWith_eq_false_of_clash (List.all_eq_true.1 hp q hq)
  have hblank : startsWith p "" = false :=
    startsWith_empty_of_clash (List.all_eq_true.1 hp "do" (by decide))
  have hopening := hline "\x7b" "\x7b" (by decide) (by decide)
  have hclosing := hline "\x7d" "\x7d" (by decide) (by decide)
  have hdo := hline "do" "do" (by decide) (by decide)
  have htry := hline "try" "try" (by decide) (by decide)
  have hbreak := hline "break;" "break;" (by decide) (by decide)
  have hcatch := hline "catch (" "catch (global::System.Exception exception)" (by decide)
    (startsWith_of_literals rfl rfl rfl)
  have hcapture := hline "info = "
    "info = global::System.Runtime.ExceptionServices.ExceptionDispatchInfo.Capture(exception);"
    (by decide) (startsWith_of_literals rfl rfl rfl)
  have helse := hline "else" "else" (by decide) (by decide)
  have hnone := hline "info = " "info = null;" (by decide) (by decide)
  have hreturn := hline "return;" "return;" (by decide) (by decide)
  have hname : ∀ s, startsWith p ("if (!string.IsNullOrWhiteSpace(" ++ s) = false := fun s =>
    hline "if (!" _ (by decide)
      (startsWith_append_of_startsWith (startsWith_of_literals rfl rfl rfl) s)
  have hhandler : ∀ s, startsWith p ("if (!" ++ s) = false := fun s =>
    hline "if (!" _ (by decide) (startsWith_append_self _ s)
  have hwhile : startsWith p (if retry then "while (true);" else "while (false);") = false := by
    refine hline "while (" _ (by decide) ?_
    cases retry <;> decide
  simp only [attempt, linesFrom_sequence_braced, linesFrom_cons_cons, linesFrom_append,
    linesFrom_braced hopening hclosing, linesFrom_line, linesFrom_blank hblank,
    String.append_assoc, hdo, htry, hbreak, hcatch, hcapture, helse, hnone, hreturn, hname,
    hhandler, hwhile, attemptHeaders]
  simp

theorem linesAt_attempt (hp : ["do", "\x7b", "\x7d", "while ("].all (clash p) = true)
    (preamble : List Fragment) (name action handler : String) (retry : Bool) :
    linesAt p headers [attempt preamble name action handler retry] = [] := by
  have hclash : ∀ q, q ∈ ["do", "\x7b", "\x7d", "while ("] → clash p q = true :=
    List.all_eq_true.1 hp
  have hopening := startsWith_of_clash (hclash "\x7b" (by decide))
  have hclosing := startsWith_of_clash (hclash "\x7d" (by decide))
  have hdo := startsWith_of_clash (hclash "do" (by decide))
  have hwhile : startsWith p (if retry then "while (true);" else "while (false);") = false := by
    refine startsWith_eq_false_of_clash (hclash "while (" (by decide)) ?_
    cases retry <;> decide
  rw [attempt, linesAt_sequence_braced, linesAt_cons_cons,
    linesAt_braced hopening hclosing, linesAt_line, linesAt_line]
  simp only [hdo, hwhile, Bool.false_eq_true, if_false, List.append_nil]

namespace Loader

variable (l : Loader) (g : LibrarySlots)

def classHeader : String := "file static class " ++ Slot.libraryClass g.index

/-- The headers around the statements of the initializer. -/
def statementHeaders : List String := [classHeader g, "internal static void ModuleInitializer()"]

def fieldDeclaration (k : Nat) : String := s!"internal static global::System.IntPtr _Sym{k};"

/-- The assignment that resolves a slot. -/
def resolution (s : SharedSlot) : String :=
  s.slot.field ++
    " = global::System.Runtime.InteropServices.NativeLibrary.GetExport(libraryHandle, " ++
      Literal.quote s.symbolName ++ ");"

/-- The test in front of the slots behind the condition at position `i`. -/
def gateHeader (c : GatedSlots) (i : Nat) : String :=
  "if (" ++ (if g.hasUnconditional then l.evaluate c.condition else conditionLocal i) ++ ")"

/-- The test in front of everything else, if all slots have conditions. -/
def precheckHeader : String :=
  "if (!(" ++ joined " || " ((List.range g.conditional.length).map conditionLocal) ++ "))"

/-- The statement that evaluates the condition at position `i` in advance. -/
def localDeclaration (c : GatedSlots) (i : Nat) : String :=
  "var " ++ conditionLocal i ++ " = " ++ l.evaluate c.condition ++ ";"

def finishCall : String :=
  l.libraryMethod "AfterSuccessfullyLoaded" g.library ++ "(libraryName, searchPath);"

theorem finishCall_eq : l.finishCall g = "global::" ++ (l.markerNamespace ++
    (".INativeImportLibrary." ++ ("AfterSuccessfullyLoaded" ++ ("<" ++ (g.library.qualified ++
      (">" ++ "(libraryName, searchPath);")))))) := by
  show "global::" ++ l.markerNamespace ++ ".INativeImportLibrary." ++ "AfterSuccessfullyLoaded" ++
    "<" ++ g.library.qualified ++ ">" ++ "(libraryName, searchPath);" = _
  simp only [String.append_assoc]

/-- How a call after a library was loaded starts. -/
def finishStart : String :=
  "global::" ++ l.markerNamespace ++ ".INativeImportLibrary.AfterSuccessfullyLoaded<"

/-- The lines of the class of a library. -/
def classLines : List NestedLine := nestedAll [] (l.libraryClass g)

/-! ## The initializer -/

theorem startsWith_resolution (s : SharedSlot) : startsWith "_Sym" (resolution s) = true := by
  have hfield : resolution s = "_Sym" ++ (toString s.slot.symbol ++
      " = global::System.Runtime.InteropServices.NativeLibrary.GetExport(libraryHandle, " ++
      Literal.quote s.symbolName ++ ");") := by
    simp only [resolution, Slot.field, String.append_assoc]
    rfl
  rw [hfield, startsWith_append_self]

theorem linesFrom_resolveSlot (hp : attemptTexts.all (clash p) = true) (library : NamedType)
    (s : SharedSlot) :
    linesFrom p headers [l.resolveSlot library s] =
      linesFrom p (headers ++ attemptHeaders (Literal.quote s.symbolName))
        [line (resolution s)] := by
  rw [resolveSlot, linesFrom_attempt hp, linesFrom_nil, List.nil_append]
  rfl

def opening : List Fragment :=
  [.line "global::System.Runtime.ExceptionServices.ExceptionDispatchInfo? info;",
   .line "string? libraryName;",
   .line "global::System.Runtime.InteropServices.DllImportSearchPath? searchPath;",
   .line "global::System.IntPtr libraryHandle;",
   .blank,
   l.loadLibrary g]

/-- The statements in front of the first test of a condition. -/
def ungated : List Fragment :=
  (if g.hasUnconditional then [] else l.precheck g) ++ l.opening g ++
    g.unconditional.flatMap fun s => [.blank, l.resolveSlot g.library s]

/-- The statements from the first test of a condition on. -/
def gates : List Fragment :=
  g.conditional.zipIdx.flatMap (fun (c, i) => l.gated g c i) ++ [.blank, .line (l.finishCall g)]

theorem initializer_eq : l.initializer g = l.ungated g ++ l.gates g := by
  rw [ungated, gates, ← List.append_assoc]
  rfl

/-- How the lines in front of the first slot start, the pre-check apart. -/
def openingTexts : List String := ["global::", "string? ", "(library", "library"]

theorem linesFrom_opening (hp : attemptTexts.all (clash p) = true)
    (hopening : openingTexts.all (clash p) = true) : linesFrom p headers (l.opening g) = [] := by
  have hblank : startsWith p "" = false :=
    startsWith_empty_of_clash (List.all_eq_true.1 hp "do" (by decide))
  have hline : ∀ q s, q ∈ openingTexts → startsWith q s = true → startsWith p s = false :=
    fun q s hq => startsWith_eq_false_of_clash (List.all_eq_true.1 hopening q hq)
  have hinfo := hline "global::"
    "global::System.Runtime.ExceptionServices.ExceptionDispatchInfo? info;" (by decide)
    (startsWith_of_literals rfl rfl rfl)
  have hname := hline "string? " "string? libraryName;" (by decide) (by decide)
  have hpath := hline "global::"
    "global::System.Runtime.InteropServices.DllImportSearchPath? searchPath;"
    (by decide) (startsWith_of_literals rfl rfl rfl)
  have hhandle := hline "global::" "global::System.IntPtr libraryHandle;" (by decide)
    (startsWith_of_literals rfl rfl rfl)
  have hquery : ∀ s, startsWith p ("(libraryName, searchPath) = " ++ s) = false := fun s =>
    hline "(library" _ (by decide)
      (startsWith_append_of_startsWith (startsWith_of_literals rfl rfl rfl) s)
  have hload : ∀ s, startsWith p
      ("libraryHandle = global::System.Runtime.InteropServices.NativeLibrary.Load(libraryName, typeof(global::" ++ s) = false :=
    fun s => hline "library" _ (by decide)
      (startsWith_append_of_startsWith (startsWith_of_literals rfl rfl rfl) s)
  simp only [opening, loadLibrary, linesFrom_cons_cons, linesFrom_attempt hp, linesFrom_line,
    linesFrom_blank hblank, String.append_assoc, hinfo, hname, hpath, hhandle, hquery, hload]
  rfl

theorem linesFrom_precheck (hp : attemptTexts.all (clash p) = true) :
    linesFrom p headers (l.precheck g) = g.conditional.zipIdx.flatMap fun (c, i) =>
      linesFrom p headers [line (l.localDeclaration c i)] := by
  have hclash : ∀ q, q ∈ attemptTexts → clash p q = true := List.all_eq_true.1 hp
  have hblank := startsWith_empty_of_clash (hclash "do" (by decide))
  have hopening := startsWith_of_clash (hclash "\x7b" (by decide))
  have hclosing := startsWith_of_clash (hclash "\x7d" (by decide))
  have hreturn := startsWith_of_clash (hclash "return;" (by decide))
  have hif : ∀ s, startsWith p ("if (!(" ++ s) = false := by
    intro s
    rw [show "if (!(" = "if (!" ++ "(" by decide, String.append_assoc]
    exact startsWith_append_of_clash (hclash "if (!" (by decide)) _
  simp only [precheck, linesFrom_append, linesFrom_map, linesFrom_cons_cons,
    linesFrom_blank hblank, linesFrom_braced hopening hclosing, linesFrom_line,
    String.append_assoc, hif, hreturn]
  simp [localDeclaration, String.append_assoc]

theorem linesFrom_ungated (hp : attemptTexts.all (clash p) = true) :
    linesFrom p headers (l.ungated g) =
      (if g.hasUnconditional then [] else g.conditional.zipIdx.flatMap fun (c, i) =>
        linesFrom p headers [line (l.localDeclaration c i)]) ++
      linesFrom p headers (l.opening g) ++
      g.unconditional.flatMap fun s => linesFrom p
        (headers ++ attemptHeaders (Literal.quote s.symbolName)) [line (resolution s)] := by
  have hblank := startsWith_empty_of_clash (List.all_eq_true.1 hp "do" (by decide))
  simp only [ungated, linesFrom_append, linesFrom_flatMap, linesFrom_cons_cons,
    linesFrom_blank hblank, linesFrom_resolveSlot l hp, List.nil_append]
  split
  · rfl
  · rw [linesFrom_precheck l g hp]

theorem linesFrom_gates (hp : attemptTexts.all (clash p) = true)
    (hgate : clash p "if (" = true) :
    linesFrom p headers (l.gates g) =
      g.conditional.zipIdx.flatMap (fun (c, i) => c.slots.flatMap fun s => linesFrom p
        (headers ++ [l.gateHeader g c i] ++ attemptHeaders (Literal.quote s.symbolName))
        [line (resolution s)]) ++
      linesFrom p headers [line (l.finishCall g)] := by
  have hclash : ∀ q, q ∈ attemptTexts → clash p q = true := List.all_eq_true.1 hp
  have hblank := startsWith_empty_of_clash hgate
  have hopening := startsWith_of_clash (hclash "\x7b" (by decide))
  have hclosing := startsWith_of_clash (hclash "\x7d" (by decide))
  have hgated : ∀ c i, linesFrom p headers (l.gated g c i) = c.slots.flatMap fun s => linesFrom p
      (headers ++ [l.gateHeader g c i] ++ attemptHeaders (Literal.quote s.symbolName))
      [line (resolution s)] := by
    intro c i
    have hif : startsWith p (l.gateHeader g c i) = false := by
      rw [gateHeader, String.append_assoc]
      exact startsWith_append_of_clash hgate _
    have hbraced : l.gated g c i = [.blank, .braced (l.gateHeader g c i)
      (separated (c.slots.map (l.resolveSlot g.library)))] := rfl
    simp only [hbraced, linesFrom_cons_cons, linesFrom_blank hblank,
      linesFrom_braced hopening hclosing, linesFrom_line, hif, linesFrom_separated hblank,
      linesFrom_map, linesFrom_resolveSlot l hp]
    simp
  simp only [gates, linesFrom_append, linesFrom_flatMap, linesFrom_cons_cons,
    linesFrom_blank hblank, hgated, List.nil_append]

theorem attempts_ungated : linesFrom "_Sym" headers (l.ungated g) =
    g.unconditional.map fun s =>
      ⟨headers ++ attemptHeaders (Literal.quote s.symbolName), resolution s⟩ := by
  rw [linesFrom_ungated l g (by decide), linesFrom_opening l g (by decide) (by decide)]
  simp (disch := decide) only [linesFrom_line, localDeclaration, String.append_assoc,
    startsWith_append_of_clash, startsWith_resolution]
  simp [List.map_eq_flatMap]

theorem attempts_gates : linesFrom "_Sym" headers (l.gates g) =
    g.conditional.zipIdx.flatMap fun (c, i) => c.slots.map fun s =>
      ⟨headers ++ [l.gateHeader g c i] ++ attemptHeaders (Literal.quote s.symbolName),
        resolution s⟩ := by
  rw [linesFrom_gates l g (by decide) (by decide)]
  simp (disch := decide) only [linesFrom_line, finishCall_eq, startsWith_append_of_clash,
    startsWith_resolution]
  simp [List.map_eq_flatMap]

/-- Locals are declared in the pre-check, and nowhere else. -/
theorem locals_initializer : linesFrom "var " headers (l.initializer g) =
    if g.hasUnconditional then [] else g.conditional.zipIdx.map fun (c, i) =>
      ⟨headers, l.localDeclaration c i⟩ := by
  have hresolution : ∀ s, startsWith "var " (resolution s) = false := fun s =>
    startsWith_eq_false_of_clash (by decide) (startsWith_resolution s)
  rw [initializer_eq, linesFrom_append, linesFrom_ungated l g (by decide),
    linesFrom_opening l g (by decide) (by decide), linesFrom_gates l g (by decide) (by decide)]
  simp (disch := decide) only [linesFrom_line, localDeclaration, finishCall_eq, String.append_assoc,
    startsWith_append_of_clash, hresolution, startsWith_append_self]
  simp [List.map_eq_flatMap]

theorem fields_initializer :
    linesFrom "internal static global::System.IntPtr " headers (l.initializer g) = [] := by
  have hresolution : ∀ s,
      startsWith "internal static global::System.IntPtr " (resolution s) = false := fun s =>
    startsWith_eq_false_of_clash (by decide) (startsWith_resolution s)
  rw [initializer_eq, linesFrom_append, linesFrom_ungated l g (by decide),
    linesFrom_opening l g (by decide) (by decide), linesFrom_gates l g (by decide) (by decide)]
  simp (disch := decide) only [linesFrom_line, localDeclaration, finishCall_eq, String.append_assoc,
    startsWith_append_of_clash, hresolution]
  simp

theorem globals_initializer : linesFrom "global::" headers (l.initializer g) =
    [⟨headers, "global::System.Runtime.ExceptionServices.ExceptionDispatchInfo? info;"⟩,
     ⟨headers, "global::System.Runtime.InteropServices.DllImportSearchPath? searchPath;"⟩,
     ⟨headers, "global::System.IntPtr libraryHandle;"⟩,
     ⟨headers, l.finishCall g⟩] := by
  have hresolution : ∀ s, startsWith "global::" (resolution s) = false :=
    fun s => startsWith_eq_false_of_clash (by decide) (startsWith_resolution s)
  have hblank : startsWith "global::" "" = false := by decide
  have hinfo : startsWith "global::"
      "global::System.Runtime.ExceptionServices.ExceptionDispatchInfo? info;" = true :=
    startsWith_of_literals rfl rfl rfl
  have hpath : startsWith "global::"
      "global::System.Runtime.InteropServices.DllImportSearchPath? searchPath;" = true :=
    startsWith_of_literals rfl rfl rfl
  have hhandle : startsWith "global::" "global::System.IntPtr libraryHandle;" = true :=
    startsWith_of_literals rfl rfl rfl
  have hload : ∀ s, startsWith "global::"
      ("libraryHandle = global::System.Runtime.InteropServices.NativeLibrary.Load(libraryName, typeof(global::" ++ s) = false :=
    startsWith_append_of_clash (clash_of_literals rfl rfl rfl)
  rw [initializer_eq, linesFrom_append, linesFrom_ungated l g (by decide),
    linesFrom_gates l g (by decide) (by decide)]
  simp (disch := decide) only [linesFrom_line, localDeclaration, finishCall_eq, opening, loadLibrary,
    linesFrom_attempt, linesFrom_cons_cons, linesFrom_blank hblank, String.append_assoc, hinfo, hpath,
    hhandle, hload, hresolution, startsWith_append_self, startsWith_of_clash,
    startsWith_append_of_clash]
  simp [flatMap_no_lines]

theorem finish_initializer :
    linesFrom l.finishStart headers (l.initializer g) = [⟨headers, l.finishCall g⟩] := by
  have hglobal : ∀ s, startsWith l.finishStart s = true → startsWith "global::" s = true := by
    intro s hs
    rw [finishStart, String.append_assoc] at hs
    exact startsWith_of_append hs
  -- a call has a type argument, unlike the declarations of locals
  have hangle : '<' ∈ l.finishStart.toList := by
    rw [finishStart, String.toList_append]
    exact List.mem_append_right _ (by decide)
  have hdeclaration : ∀ {s : String} {cs : List Char}, s = String.ofList cs → '<' ∉ cs →
      startsWith l.finishStart s = false := by
    intro s cs hs hcs
    rw [← Bool.not_eq_true, startsWith_iff, hs, String.toList_ofList]
    exact fun hstarts => hcs (hstarts.subset hangle)
  have hfinish : startsWith l.finishStart (l.finishCall g) = true := by
    have hcall : l.finishCall g =
        l.finishStart ++ (g.library.qualified ++ (">" ++ "(libraryName, searchPath);")) := by
      rw [show l.finishStart = "global::" ++ l.markerNamespace ++ (".INativeImportLibrary." ++
        ("AfterSuccessfullyLoaded" ++ "<")) by rw [finishStart]; rfl]
      simp only [finishCall_eq, String.append_assoc]
    rw [hcall, startsWith_append_self]
  -- the marker namespace is not known, so the lines are first selected by their global name
  have hfilter : linesFrom l.finishStart headers (l.initializer g) =
      (linesFrom "global::" headers (l.initializer g)).filter
        fun x => startsWith l.finishStart x.text := by
    rw [linesFrom, linesFrom, List.filter_filter]
    refine List.filter_congr fun x _ => ?_
    cases hx : startsWith l.finishStart x.text
    · rfl
    · rw [hglobal x.text hx]
      rfl
  rw [hfilter, globals_initializer]
  simp only [List.filter_cons, List.filter_nil, hfinish, if_true]
  rw [hdeclaration rfl (by decide), hdeclaration rfl (by decide), hdeclaration rfl (by decide)]
  rfl

/-- In front of the tests of conditions there is at most the pre-check. -/
theorem branches_ungated : linesAt "if (" headers (l.ungated g) =
    if g.hasUnconditional then [] else [⟨headers, precheckHeader g⟩] := by
  have hblank : startsWith "if (" "" = false := by decide
  have hopening : startsWith "if (" "\x7b" = false := by decide
  have hclosing : startsWith "if (" "\x7d" = false := by decide
  have hinfo : startsWith "if ("
      "global::System.Runtime.ExceptionServices.ExceptionDispatchInfo? info;" = false :=
    startsWith_of_clash (clash_of_literals rfl rfl rfl)
  have hpath : startsWith "if ("
      "global::System.Runtime.InteropServices.DllImportSearchPath? searchPath;" = false :=
    startsWith_of_clash (clash_of_literals rfl rfl rfl)
  have hif : ∀ s, startsWith "if (" ("if (!(" ++ s) = true := fun s =>
    startsWith_append_of_startsWith (by decide) s
  have hlocals : g.conditional.zipIdx.map (fun (_, i) => conditionLocal i) =
      (List.range g.conditional.length).map conditionLocal := by
    rw [List.range_eq_range', ← List.zipIdx_map_snd, List.map_map]
    rfl
  have hprecheck : linesAt "if (" headers (l.precheck g) = [⟨headers, precheckHeader g⟩] := by
    simp (disch := decide) only [precheck, linesAt_append, linesAt_map, linesAt_cons_cons,
      linesAt_line, linesAt_blank hblank, linesAt_braced hopening hclosing,
      startsWith_append_of_clash, hif, String.append_assoc]
    simp [precheckHeader, String.append_assoc, flatMap_no_lines, hlocals]
  simp (disch := decide) only [ungated, linesAt_append, opening, linesAt_cons_cons, linesAt_line,
    linesAt_blank hblank, linesAt_flatMap, loadLibrary, linesAt_attempt, resolveSlot, hinfo, hpath,
    startsWith_of_clash]
  split
  · simp [flatMap_no_lines]
  · simp [flatMap_no_lines, hprecheck]

theorem branches_gates : linesAt "if (" headers (l.gates g) =
    g.conditional.zipIdx.map fun (c, i) => ⟨headers, l.gateHeader g c i⟩ := by
  have hblank : startsWith "if (" "" = false := by decide
  have hopening : startsWith "if (" "\x7b" = false := by decide
  have hclosing : startsWith "if (" "\x7d" = false := by decide
  simp (disch := decide) only [gates, linesAt_append, linesAt_flatMap, gated, linesAt_cons_cons,
    linesAt_blank hblank, linesAt_braced hopening hclosing, linesAt_line, startsWith_append_self,
    startsWith_append_of_clash, finishCall_eq, String.append_assoc]
  simp [gateHeader, String.append_assoc, ← List.map_eq_flatMap]

theorem gateHeader_ne_precheckHeader (c : GatedSlots) (i : Nat) :
    l.gateHeader g c i ≠ precheckHeader g := by
  intro heq
  have hprecheck : startsWith "if (!" (precheckHeader g) = true := by
    rw [precheckHeader, String.append_assoc]
    exact startsWith_append_of_startsWith (by decide) _
  have hgate : startsWith "if (!" (l.gateHeader g c i) = false := by
    rw [gateHeader, String.append_assoc, show "if (!" = "if (" ++ "!" by decide,
      startsWith_append_append]
    split
    · simp only [evaluate, String.append_assoc]
      exact startsWith_append_of_clash (by decide) _
    · show startsWith "!" ("b" ++ toString i ++ ")") = false
      rw [String.append_assoc]
      exact startsWith_append_of_clash (by decide) _
  rw [heq, hprecheck] at hgate
  exact Bool.noConfusion hgate

theorem startsWith_gateHeader (c : GatedSlots) (i : Nat) :
    startsWith "if (" (l.gateHeader g c i) = true := by
  rw [gateHeader, String.append_assoc, startsWith_append_self]

/-- No slot without a condition is resolved after the test of a condition. -/
theorem pairwise_initializer :
    (nestedAll headers (l.initializer g)).Pairwise fun a b =>
      (∃ e ∈ g.conditional.zipIdx, a = ⟨headers, l.gateHeader g e.1 e.2⟩) →
      ∀ s ∈ g.unconditional,
        b ≠ ⟨headers ++ attemptHeaders (Literal.quote s.symbolName), resolution s⟩ := by
  -- in front of the first test there is at most the pre-check, which reads otherwise
  have hungated : ∀ a ∈ nestedAll headers (l.ungated g),
      ¬∃ e ∈ g.conditional.zipIdx, a = ⟨headers, l.gateHeader g e.1 e.2⟩ := by
    rintro a ha ⟨e, -, rfl⟩
    have hmem : ⟨headers, l.gateHeader g e.1 e.2⟩ ∈ linesAt "if (" headers (l.ungated g) :=
      List.mem_filter.2 ⟨List.mem_filter.2 ⟨ha, l.startsWith_gateHeader g e.1 e.2⟩, by simp⟩
    rw [branches_ungated] at hmem
    split at hmem
    · cases hmem
    · exact l.gateHeader_ne_precheckHeader g e.1 e.2
        (congrArg NestedLine.text (List.mem_singleton.1 hmem))
  -- behind the first test, every assignment stands in the block of a test
  have hgates : ∀ b ∈ nestedAll headers (l.gates g), ∀ s : SharedSlot,
      b ≠ ⟨headers ++ attemptHeaders (Literal.quote s.symbolName), resolution s⟩ := by
    intro b hb s heq
    have hsym : startsWith "_Sym" b.text = true := by
      rw [heq]
      exact startsWith_resolution s
    have hmem : b ∈ linesFrom "_Sym" headers (l.gates g) := List.mem_filter.2 ⟨hb, hsym⟩
    rw [attempts_gates, List.mem_flatMap] at hmem
    obtain ⟨⟨c, i⟩, -, hmem⟩ := hmem
    obtain ⟨s', -, heq'⟩ := List.mem_map.1 hmem
    have hheaders := congrArg NestedLine.headers (heq'.trans heq)
    rw [List.append_assoc, List.append_cancel_left_eq] at hheaders
    have hdo : l.gateHeader g c i = "do" := List.head_eq_of_cons_eq hheaders
    have hif := l.startsWith_gateHeader g c i
    rw [hdo] at hif
    exact absurd hif (by decide)
  rw [initializer_eq, nestedAll_append, List.pairwise_append]
  refine ⟨?_, ?_, ?_⟩
  · exact List.pairwise_of_forall_mem_list fun a ha _ _ hgate => absurd hgate (hungated a ha)
  · exact List.pairwise_of_forall_mem_list fun _ _ b hb _ s _ => hgates b hb s
  · exact fun a ha _ _ hgate => absurd hgate (hungated a ha)

/-! ## The class -/

def fields : List Fragment :=
  g.slots.flatMap fun (condition, s) => s.declaration condition ++ [.blank]

theorem linesFrom_declaration (hp : clash p "// " = true) (s : SharedSlot)
    (condition : Option NamedType) :
    linesFrom p headers (s.declaration condition) =
      linesFrom p headers [line (fieldDeclaration s.slot.symbol)] := by
  have hcomment : ∀ q t, startsWith "// " q = true → startsWith p (q ++ t) = false := fun q t hq =>
    startsWith_eq_false_of_clash hp (startsWith_append_of_startsWith hq t)
  have hsymbol := fun t => hcomment "// Symbol: " t (by decide)
  have hcondition := fun t => hcomment "// Condition: " t (by decide)
  have himporter := fun t => hcomment "//  - " t (by decide)
  have himported : startsWith p "// imported by:" = false :=
    startsWith_eq_false_of_clash hp (by decide)
  have hfield : "internal static global::System.IntPtr " ++ s.slot.field ++ ";" =
      fieldDeclaration s.slot.symbol := by
    show "internal static global::System.IntPtr " ++ ("_Sym" ++ toString s.slot.symbol) ++ ";" =
      "internal static global::System.IntPtr _Sym" ++ toString s.slot.symbol ++ ";"
    rw [← String.append_assoc]
    rfl
  have hcons : ∀ t fs, startsWith p t = false →
      linesFrom p headers (line t :: fs) = linesFrom p headers fs := by
    intro t fs ht
    rw [← List.singleton_append, linesFrom_append, linesFrom_line, ht]
    rfl
  have hoption : linesFrom p headers
      (condition.map fun c => line ("// Condition: " ++ c.name)).toList = [] := by
    cases condition with
    | none => rfl
    | some c =>
      rw [Option.map_some, Option.toList_some, hcons _ _ (hcondition c.name), linesFrom_nil]
  rw [SharedSlot.declaration, hfield, linesFrom_append, List.cons_append,
    hcons _ _ (hsymbol s.symbolName), linesFrom_append, hoption, hcons _ _ himported, linesFrom_map]
  simp only [linesFrom_line, himporter]
  simp [flatMap_no_lines]

theorem linesFrom_fields (hp : clash p "// " = true) : linesFrom p headers (fields g) =
    g.slots.flatMap fun b => linesFrom p headers [line (fieldDeclaration b.2.slot.symbol)] := by
  have hblank := startsWith_empty_of_clash hp
  rw [fields, linesFrom_flatMap]
  congr 1
  funext ⟨condition, s⟩
  rw [linesFrom_append, linesFrom_declaration hp, linesFrom_blank hblank, List.append_nil]

/-- The lines in front of the statements of the initializer. -/
def preamble : List NestedLine :=
  [⟨[], UnitText.generatedCode l.tool⟩, ⟨[], classHeader g⟩, ⟨[], "\x7b"⟩] ++
    nestedAll [classHeader g] (fields g) ++
    [⟨[classHeader g], "[global::System.Runtime.CompilerServices.SkipLocalsInit]"⟩,
     ⟨[classHeader g], "[global::System.Runtime.CompilerServices.ModuleInitializer]"⟩,
     ⟨[classHeader g], "internal static void ModuleInitializer()"⟩,
     ⟨[classHeader g], "\x7b"⟩]

/-- The lines after the statements of the initializer. -/
def closing : List NestedLine := [⟨[classHeader g], "\x7d"⟩, ⟨[], "\x7d"⟩]

theorem libraryClass_eq : l.libraryClass g =
    [.line (UnitText.generatedCode l.tool), .braced (classHeader g) (fields g ++
      [.line "[global::System.Runtime.CompilerServices.SkipLocalsInit]",
       .line "[global::System.Runtime.CompilerServices.ModuleInitializer]",
       .braced "internal static void ModuleInitializer()" (l.initializer g)])] := rfl

theorem classLines_eq : l.classLines g =
    l.preamble g ++ nestedAll (statementHeaders g) (l.initializer g) ++ closing g := by
  rw [classLines, libraryClass_eq]
  simp [nestedAll, nested_braced, nestedAll_append, nested, preamble, closing, statementHeaders]

/-- How the lines in front of the statements start, the fields apart. -/
def preambleTexts : List String :=
  ["[global::System.", "file static class ", "\x7b", "internal static void ", "// "]

theorem filter_preamble (hp : preambleTexts.all (clash p) = true) :
    (l.preamble g).filter (fun x => startsWith p x.text) =
      g.slots.flatMap fun b =>
        linesFrom p [classHeader g] [line (fieldDeclaration b.2.slot.symbol)] := by
  have hclash := List.all_eq_true.1 hp
  have hattribute : ∀ s, startsWith "[global::System." s = true → startsWith p s = false :=
    fun s => startsWith_eq_false_of_clash (hclash "[global::System." (by decide))
  have hgenerated : startsWith p (UnitText.generatedCode l.tool) = false := by
    have hstart : startsWith "[global::System."
        "[global::System.CodeDom.Compiler.GeneratedCode(\"" = true :=
      startsWith_of_literals rfl rfl rfl
    unfold UnitText.generatedCode
    rw [String.append_assoc, String.append_assoc, String.append_assoc]
    exact hattribute _ (startsWith_append_of_startsWith hstart _)
  have hclass : startsWith p (classHeader g) = false :=
    startsWith_append_of_clash (hclash "file static class " (by decide)) _
  have hopening := startsWith_of_clash (hclash "\x7b" (by decide))
  have hskip := hattribute "[global::System.Runtime.CompilerServices.SkipLocalsInit]"
    (startsWith_of_literals rfl rfl rfl)
  have hmodule := hattribute "[global::System.Runtime.CompilerServices.ModuleInitializer]"
    (startsWith_of_literals rfl rfl rfl)
  have hmethod : startsWith p "internal static void ModuleInitializer()" = false :=
    startsWith_eq_false_of_clash (hclash "internal static void " (by decide))
      (startsWith_of_literals rfl rfl rfl)
  have hfields : linesFrom p [classHeader g] (fields g) = _ :=
    linesFrom_fields g (hclash "// " (by decide))
  rw [← hfields, linesFrom, preamble]
  simp only [List.filter_append, List.filter_cons, List.filter_nil, hgenerated, hclass, hopening,
    hskip, hmodule, hmethod, Bool.false_eq_true, if_false, List.nil_append, List.append_nil]

/-- The lines of a class that start with a text are fields and statements. -/
theorem filter_classLines (hp : preambleTexts.all (clash p) = true)
    (hend : clash p "\x7d" = true) :
    (l.classLines g).filter (fun x => startsWith p x.text) =
      g.slots.flatMap (fun b =>
        linesFrom p [classHeader g] [line (fieldDeclaration b.2.slot.symbol)]) ++
      linesFrom p (statementHeaders g) (l.initializer g) := by
  have hclosing := startsWith_of_clash hend
  rw [classLines_eq, List.filter_append, List.filter_append, l.filter_preamble g hp, closing]
  simp only [List.filter_cons, hclosing, List.filter_nil, linesFrom, Bool.false_eq_true, if_false,
    List.append_nil]

theorem startsWith_fieldDeclaration (k : Nat) :
    startsWith "internal static global::System.IntPtr " (fieldDeclaration k) = true := by
  show startsWith _ ("internal static global::System.IntPtr " ++ "_Sym" ++ toString k ++ ";") = true
  rw [String.append_assoc, String.append_assoc, startsWith_append_self]

/-- The lines of a class that start otherwise than a field are statements. -/
theorem filter_classLines_of_clash (hp : preambleTexts.all (clash p) = true)
    (hend : clash p "\x7d" = true)
    (hfields : clash p "internal static global::System.IntPtr " = true) :
    (l.classLines g).filter (fun x => startsWith p x.text) =
      linesFrom p (statementHeaders g) (l.initializer g) := by
  have hfield : ∀ k, startsWith p (fieldDeclaration k) = false := fun k =>
    startsWith_eq_false_of_clash hfields (startsWith_fieldDeclaration k)
  rw [filter_classLines l g hp hend]
  simp [linesFrom_line, hfield, flatMap_no_lines]

theorem pairwise_classLines : (l.classLines g).Pairwise fun a b =>
    (∃ e ∈ g.conditional.zipIdx, a = ⟨statementHeaders g, l.gateHeader g e.1 e.2⟩) →
    ∀ s ∈ g.unconditional,
      b ≠ ⟨statementHeaders g ++ attemptHeaders (Literal.quote s.symbolName), resolution s⟩ := by
  have hpreamble : ∀ a ∈ l.preamble g,
      ¬∃ e ∈ g.conditional.zipIdx, a = ⟨statementHeaders g, l.gateHeader g e.1 e.2⟩ := by
    rintro a ha ⟨e, -, rfl⟩
    have hnone := l.filter_preamble g (p := "if (") (by decide)
    have hfield : ∀ k, startsWith "if (" (fieldDeclaration k) = false := fun k =>
      startsWith_eq_false_of_clash (by decide) (startsWith_fieldDeclaration k)
    simp only [linesFrom_line, hfield, Bool.false_eq_true, if_false, flatMap_no_lines] at hnone
    exact List.filter_eq_nil_iff.1 hnone _ ha (l.startsWith_gateHeader g e.1 e.2)
  have hclosing : ∀ b ∈ closing g, ∀ s : SharedSlot,
      b ≠ ⟨statementHeaders g ++ attemptHeaders (Literal.quote s.symbolName), resolution s⟩ := by
    rintro b hb s rfl
    have hsym := startsWith_resolution s
    have htext : resolution s = "\x7d" := by
      rcases List.mem_cons.1 hb with heq | hb
      · exact congrArg NestedLine.text heq
      · exact congrArg NestedLine.text (List.mem_singleton.1 hb)
    rw [htext] at hsym
    exact absurd hsym (by decide)
  rw [classLines_eq, List.append_assoc, List.pairwise_append, List.pairwise_append]
  refine ⟨?_, ⟨l.pairwise_initializer g, ?_, ?_⟩, ?_⟩
  · exact List.pairwise_of_forall_mem_list fun a ha _ _ hgate => absurd hgate (hpreamble a ha)
  · exact List.pairwise_of_forall_mem_list fun _ _ b hb _ s _ => hclosing b hb s
  · exact fun _ _ b hb _ s _ => hclosing b hb s
  · exact fun a ha _ _ hgate => absurd hgate (hpreamble a ha)

/-- What the class of a library does for its slots. -/
structure ResolvesSlots : Prop where
  /-- There is one field for each number of a slot, and no other. -/
  fields_perm : ((l.classLines g).filter fun x =>
      startsWith "internal static global::System.IntPtr " x.text).Perm
    ((List.range g.slotCount).map fun k => ⟨[classHeader g], fieldDeclaration k⟩)
  /-- Every number belongs to one slot. -/
  numbers_perm : (g.slots.map (·.2.slot)).Perm ((List.range g.slotCount).map (⟨g.index, ·⟩))
  /-- Every slot is resolved once, by its own name: without a test if it has no condition, and
  otherwise behind the test of its condition and no other. Nothing else is assigned to a field. -/
  attempts_eq : (l.classLines g).filter (fun x => startsWith "_Sym" x.text) =
    g.unconditional.map (fun s =>
      ⟨statementHeaders g ++ attemptHeaders (Literal.quote s.symbolName), resolution s⟩) ++
    g.conditional.zipIdx.flatMap fun (c, i) => c.slots.map fun s =>
      ⟨statementHeaders g ++ [l.gateHeader g c i] ++ attemptHeaders (Literal.quote s.symbolName),
        resolution s⟩
  /-- The only tests among the statements are the pre-check, if all slots have conditions, and one
  for each condition. -/
  branches_eq : (l.classLines g).filter
      (fun x => x.headers = statementHeaders g && startsWith "if (" x.text) =
    (if g.hasUnconditional then [] else [⟨statementHeaders g, precheckHeader g⟩]) ++
      g.conditional.zipIdx.map fun (c, i) => ⟨statementHeaders g, l.gateHeader g c i⟩
  /-- No slot without a condition is resolved after the test of a condition. -/
  ungated_first : (l.classLines g).Pairwise fun a b =>
    (∃ e ∈ g.conditional.zipIdx, a = ⟨statementHeaders g, l.gateHeader g e.1 e.2⟩) →
    ∀ s ∈ g.unconditional,
      b ≠ ⟨statementHeaders g ++ attemptHeaders (Literal.quote s.symbolName), resolution s⟩
  /-- A pre-check evaluates every condition, each into a local of its own; otherwise there are no
  locals. -/
  locals_eq : (l.classLines g).filter (fun x => startsWith "var " x.text) =
    if g.hasUnconditional then [] else
      g.conditional.zipIdx.map fun (c, i) => ⟨statementHeaders g, l.localDeclaration c i⟩
  /-- A pre-check has something to check. -/
  conditional_ne_nil : g.hasUnconditional = false → g.conditional ≠ []
  /-- The library is reported as loaded once. -/
  finish_eq : (l.classLines g).filter (fun x => startsWith (l.finishStart) x.text) =
    [⟨statementHeaders g, l.finishCall g⟩]
  /-- This is the last statement. -/
  finish_last : ∃ before, l.classLines g = before ++
    [⟨statementHeaders g, l.finishCall g⟩, ⟨[classHeader g], "\x7d"⟩, ⟨[], "\x7d"⟩]

/-- A library whose slots are numbered without gaps resolves them all. -/
theorem resolvesSlots (hslots : (g.slots.map (·.2.slot)).Perm
      ((List.range g.slotCount).map (⟨g.index, ·⟩))) (hne : g.slots ≠ []) :
    l.ResolvesSlots g where
  fields_perm := by
    have hnumbers : (g.slots.map (·.2.slot.symbol)).Perm (List.range g.slotCount) := by
      simpa [List.map_map, Function.comp_def] using hslots.map (·.symbol)
    have hfields := l.filter_classLines g (p := "internal static global::System.IntPtr ")
      (by decide) (by decide)
    rw [hfields, fields_initializer, List.append_nil]
    simp only [linesFrom_line, startsWith_fieldDeclaration, if_true, ← List.map_eq_flatMap]
    have hmap := hnumbers.map fun k => (⟨[classHeader g], fieldDeclaration k⟩ : NestedLine)
    rwa [List.map_map] at hmap
  numbers_perm := hslots
  attempts_eq := by
    -- only assignments start with the name of a field
    rw [filter_classLines_of_clash l g (by decide) (by decide) (by decide), initializer_eq,
      linesFrom_append, attempts_ungated, attempts_gates]
  branches_eq := by
    have hfilter := l.filter_classLines_of_clash g (p := "if (") (by decide) (by decide) (by decide)
    have hlines : linesAt "if (" (statementHeaders g) (l.initializer g) =
        (l.classLines g).filter
          fun x => x.headers = statementHeaders g && startsWith "if (" x.text := by
      rw [linesAt, ← hfilter, List.filter_filter]
    rw [← hlines, initializer_eq, linesAt_append, branches_ungated, branches_gates]
  ungated_first := l.pairwise_classLines g
  locals_eq := by
    rw [filter_classLines_of_clash l g (by decide) (by decide) (by decide), locals_initializer]
  conditional_ne_nil := by
    intro hunconditional hconditional
    rw [LibrarySlots.hasUnconditional, Bool.not_eq_false', List.isEmpty_iff] at hunconditional
    exact hne (by rw [LibrarySlots.slots, hunconditional, hconditional]; rfl)
  finish_eq := by
    have hclash : ∀ q, clash "global::" q = true → clash l.finishStart q = true := by
      intro q hq
      rw [finishStart, String.append_assoc]
      exact clash_append hq _
    have hglobal : preambleTexts.all (clash "global::") = true := by decide
    have hpreamble : preambleTexts.all (clash l.finishStart) = true :=
      List.all_eq_true.2 fun q hq => hclash q (List.all_eq_true.1 hglobal q hq)
    rw [filter_classLines_of_clash l g hpreamble (hclash _ (by decide)) (hclash _ (by decide)),
      finish_initializer]
  finish_last := by
    refine ⟨l.preamble g ++ nestedAll (statementHeaders g) (l.ungated g ++
      g.conditional.zipIdx.flatMap (fun (c, i) => l.gated g c i) ++ [.blank]), ?_⟩
    rw [classLines_eq, initializer_eq, gates]
    simp [nestedAll_append, nestedAll, nested, closing]

/-- Three libraries: one with an import that has no condition, one without such an import, and one
without conditions. -/
def mixedRequests : List ImportRequest :=
  let library (id : Nat) : NamedType := ⟨⟨id⟩, "Demo.Lib", .internalAccess⟩
  let condition (id : Nat) : NamedType := ⟨⟨id⟩, "Demo.Cond", .internalAccess⟩
  let request (lib : Nat) (c : Option NamedType) (name : String) : ImportRequest :=
    ⟨library lib, c, name, ⟨⟨9⟩, "void M()"⟩⟩
  [request 1 (some (condition 5)) "close", request 1 none "open",
    request 2 (some (condition 5)) "close", request 2 (some (condition 6)) "open",
    request 1 (some (condition 6)) "read", request 3 none "open"]

/-- The class of a library resolves all its slots, each where its condition says. -/
theorem resolvesSlots_registerAll (rs : List ImportRequest) (l : Loader) :
    ∀ g ∈ (({} : SlotTable).registerAll rs).2.libraries, l.ResolvesSlots g := by
  intro g hg
  obtain ⟨-, hreflects, -⟩ := SlotTable.reflects_registerAll rs
  have hslots := (hreflects.reflects g hg).slots_perm
  refine l.resolvesSlots g hslots ?_
  intro hnil
  -- a library is only there because of a request, which has a slot
  obtain ⟨r, hr, hlibrary⟩ := ImportRequest.mem_librariesOf.1 (hreflects.mem_librariesOf hg)
  have hkey : (r.key, ImportRequest.sharedSlotOf rs r.key) ∈ g.filed :=
    (hreflects.reflects g hg).mem_filed_iff.2 ⟨List.mem_map_of_mem hr, hlibrary, rfl⟩
  rw [LibrarySlots.filed, hnil] at hkey
  cases hkey

theorem resolvesSlots_mixedRequests :
    let slots := (({} : SlotTable).registerAll mixedRequests).2
    let loader : Loader := ⟨"Demo", ⟨"natbind", ⟨1, 0, 0⟩⟩⟩
    slots.libraries.map (·.hasUnconditional) = [true, false, true] ∧
      ∀ g ∈ slots.libraries, loader.ResolvesSlots g :=
  ⟨by decide, fun g hg => resolvesSlots_registerAll mixedRequests _ g hg⟩

end Loader
end NativeBindings
