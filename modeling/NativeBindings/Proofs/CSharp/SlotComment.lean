import NativeBindings.CSharp.Loader
import NativeBindings.Proofs.CSharp.SourceLine
import NativeBindings.Proofs.Manifest.OneLineText
import NativeBindings.Proofs.Passes.ContextFree
import NativeBindings.Proofs.Passes.ImportLedger

/-!
# Comments of slots

The field of a slot stands below a comment with the name of its symbol, its condition and its
importers. These texts are written into the comment as they are. The names of conditions and the
signatures of importers are one line each, but the name of a symbol can be any text: what stands
behind a line end in it leaves the comment, unless it starts another one.

## Main definitions

- `SharedSlot.IsCommented` — all that stands in front of a field is a comment

## Main statements

- `SharedSlot.isCommented_iff` — what must be true of the texts in the comment
- `SlotTable.exists_request` — conditions and importers come from requests
- `Generator.isCommented_iff_staysComment` — what this means for tables and for runs
- `Generator.exists_not_isCommented` — a run in which something leaves a comment
-/

namespace NativeBindings

/-! ## Comments -/

namespace SharedSlot

/-- The declaration of the field. -/
def fieldText (s : SharedSlot) : String :=
  "internal static global::System.IntPtr " ++ s.slot.field ++ ";"

/-- In generated text the declaration of the field ends the declaration of the slot, and each line of
source text in front of it is a comment. -/
def IsCommented (s : SharedSlot) (condition : Option NamedType) (p : Page) : Prop :=
  ∃ comment, (p.emit (s.declaration condition)).text =
      p.text ++ (comment ++ (IndentedLine.mk p.depth s.fieldText).render p.indentation.unit) ∧
    ∀ line ∈ sourceLines comment, IsCommentLine line

/-- The generated lines of the comment. -/
def commentTexts (s : SharedSlot) (condition : Option NamedType) : List String :=
  ("// Symbol: " ++ s.symbolName) :: (condition.map fun c => "// Condition: " ++ c.name).toList ++
    "// imported by:" :: s.importers.map fun i => "//  - " ++ i.signature

variable {s : SharedSlot} {condition : Option NamedType}

theorem declaration_eq (s : SharedSlot) (condition : Option NamedType) :
    s.declaration condition =
      (s.commentTexts condition).map .line ++ [.line s.fieldText] := by
  unfold declaration commentTexts fieldText
  cases condition <;> simp [Function.comp_def]

theorem linesOfAll_map_line (depth : Nat) (texts : List String) :
    Fragment.linesOfAll depth (texts.map .line) = texts.map (IndentedLine.mk depth) := by
  induction texts with
  | nil => rfl
  | cons text texts ih => rw [List.map_cons, Fragment.linesOfAll, ih]; rfl

theorem emit_declaration (s : SharedSlot) (condition : Option NamedType) (p : Page) :
    (p.emit (s.declaration condition)).text = p.text ++
      (((s.commentTexts condition).map fun text =>
          (IndentedLine.mk p.depth text).render p.indentation.unit).flatten ++
        (IndentedLine.mk p.depth s.fieldText).render p.indentation.unit) := by
  rw [Page.emit, declaration_eq, Fragment.linesOfAll_append, linesOfAll_map_line, List.map_append,
    List.flatten_append, List.map_map]
  simp [Fragment.linesOfAll, Fragment.lines, Function.comp_def]

/-- The lines of the comment are those of its generated lines. -/
theorem isCommented_iff_forall (s : SharedSlot) (condition : Option NamedType) (p : Page) :
    s.IsCommented condition p ↔ ∀ text ∈ s.commentTexts condition,
      ∀ line ∈ sourceLines ((IndentedLine.mk p.depth text).render p.indentation.unit),
        IsCommentLine line := by
  have hends : ∀ rendered ∈ (s.commentTexts condition).map fun text =>
      (IndentedLine.mk p.depth text).render p.indentation.unit, ∃ s, rendered = s ++ ['\n'] := by
    rintro _ hrendered
    obtain ⟨text, -, rfl⟩ := List.mem_map.1 hrendered
    exact ⟨_, rfl⟩
  rw [← List.forall_mem_map (P := fun rendered => ∀ line ∈ sourceLines rendered, IsCommentLine line),
    ← List.forall_mem_flatMap, ← sourceLines_flatten hends]
  constructor
  · rintro ⟨comment, htext, hlines⟩
    rw [emit_declaration, List.append_cancel_left_eq, List.append_cancel_right_eq] at htext
    rwa [htext]
  · exact fun hlines => ⟨_, emit_declaration s condition p, hlines⟩

/-- The field is commented exactly if no text leaves its comment. -/
theorem isCommented_iff (s : SharedSlot) (condition : Option NamedType) (p : Page) :
    s.IsCommented condition p ↔ StaysComment s.symbolName.toList ∧
      (∀ c ∈ condition, StaysComment c.name.toList) ∧
      ∀ i ∈ s.importers, StaysComment i.signature.toList := by
  have hline (start : List Char) (hstart : IsOneLine start) (text l : String)
      (hl : l.toList = '/' :: '/' :: (start ++ text.toList)) :
      (∀ line ∈ sourceLines ((IndentedLine.mk p.depth l).render p.indentation.unit),
        IsCommentLine line) ↔ StaysComment text.toList :=
    forall_sourceLines_render_iff p.indentation p.depth hstart text.toList rfl hl
  have hsymbol := hline " Symbol: ".toList (by decide) s.symbolName
    ("// Symbol: " ++ s.symbolName) (by simp)
  have hcondition (c : NamedType) := hline " Condition: ".toList (by decide) c.name
    ("// Condition: " ++ c.name) (by simp)
  have himported := hline " imported by:".toList (by decide) "" "// imported by:" (by decide)
  have himporter (i : Importer) := hline "  - ".toList (by decide) i.signature
    ("//  - " ++ i.signature) (by simp)
  have hempty : StaysComment "".toList := by decide
  rw [isCommented_iff_forall]
  unfold commentTexts
  simp only [List.cons_append, List.forall_mem_cons, List.forall_mem_append, List.forall_mem_map,
    Option.mem_toList, Option.mem_def, Option.map_eq_some_iff, forall_exists_index, and_imp,
    forall_apply_eq_imp_iff₂, hsymbol, hcondition, himported, himporter,
    iff_true_intro hempty, true_and]

end SharedSlot

/-! ## Conditions and importers in tables -/

/-- A registration adds no condition but that of the request. -/
theorem LibrarySlots.condition_register {l : LibrarySlots} {r : ImportRequest} {g : GatedSlots}
    (hg : g ∈ (l.register r).2.conditional) :
    r.condition = some g.condition ∨ ∃ g' ∈ l.conditional, g'.condition = g.condition := by
  obtain ⟨library, condition, name, i⟩ := r
  cases condition with
  | none => exact .inr ⟨g, hg, rfl⟩
  | some c =>
    change g ∈ GatedSlots.addImporter c name ⟨l.index, l.slotCount⟩ i l.conditional at hg
    rcases GatedSlots.addImporter_cases c name ⟨l.index, l.slotCount⟩ i l.conditional with
      ⟨-, -, hadd⟩ | ⟨before, g', after, hgs, -, -, hadd⟩
    · rw [hadd, List.mem_append, List.mem_singleton] at hg
      rcases hg with hg | rfl
      · exact .inr ⟨g, hg, rfl⟩
      · exact .inl rfl
    · rw [hadd, List.mem_append, List.mem_cons] at hg
      rw [hgs]
      rcases hg with hg | rfl | hg
      · exact .inr ⟨g, List.mem_append_left _ hg, rfl⟩
      · exact .inr ⟨g', by simp, rfl⟩
      · exact .inr ⟨g, List.mem_append_right _ (List.mem_cons_of_mem _ hg), rfl⟩

namespace SlotTable

variable {t : SlotTable} {r : ImportRequest} {rs : List ImportRequest} {l : LibrarySlots}
  {g : GatedSlots}

theorem condition_register (hl : l ∈ (t.register r).2.libraries) (hg : g ∈ l.conditional) :
    r.condition = some g.condition ∨
      ∃ l' ∈ t.libraries, ∃ g' ∈ l'.conditional, g'.condition = g.condition := by
  obtain ⟨before, changed, after, -, hlibraries, hregister⟩ := t.exists_libraries_register r
  rw [hregister] at hl
  have hmem : l = (changed.register r).2 ∨ l ∈ t.libraries := by
    simp only [List.mem_append, List.mem_cons] at hl
    rcases hl with hl | rfl | hl
    · rcases hlibraries with hlibraries | ⟨-, rfl, -, -⟩
      · exact .inr (hlibraries ▸ List.mem_append_left _ hl)
      · exact .inr hl
    · exact .inl rfl
    · rcases hlibraries with hlibraries | ⟨-, -, rfl, -⟩
      · exact .inr (hlibraries ▸ List.mem_append_right _ (List.mem_cons_of_mem _ hl))
      · cases hl
  rcases hmem with rfl | hmem
  · refine (LibrarySlots.condition_register hg).imp_right fun ⟨g', hg', hcondition⟩ => ?_
    rcases hlibraries with hlibraries | ⟨-, -, -, rfl⟩
    · exact ⟨changed, by simp [hlibraries], g', hg', hcondition⟩
    · cases hg'
  · exact .inr ⟨l, hmem, g, hg, rfl⟩

/-- Each condition in a table is that of a request. -/
theorem exists_condition (hl : l ∈ (({} : SlotTable).registerAll rs).2.libraries)
    (hg : g ∈ l.conditional) : ∃ r ∈ rs, r.condition = some g.condition := by
  induction rs using List.reverseRecOn generalizing l g with
  | nil => cases hl
  | append_singleton rs r ih =>
    rw [registerAll_concat] at hl
    rcases condition_register hl hg with hcondition | ⟨l', hl', g', hg', hcondition⟩
    · exact ⟨r, by simp, hcondition⟩
    · obtain ⟨r', hr', heq⟩ := ih hl' hg'
      exact ⟨r', List.mem_append_left _ hr', heq.trans (congrArg some hcondition)⟩

/-- The condition and the importers of each slot in a table are those of requests. -/
theorem exists_request (hl : l ∈ (({} : SlotTable).registerAll rs).2.libraries)
    {e : Option NamedType × SharedSlot} (he : e ∈ l.slots) :
    (∀ c ∈ e.1, ∃ r ∈ rs, r.condition = some c) ∧
      ∀ i ∈ e.2.importers, ∃ r ∈ rs, r.importer = i := by
  obtain ⟨condition, s⟩ := e
  constructor
  · rintro c ⟨⟩
    rcases List.mem_append.1 he with he | he
    · obtain ⟨_, -, hnone⟩ := List.mem_map.1 he
      cases hnone
    · obtain ⟨g, hg, he⟩ := List.mem_flatMap.1 he
      obtain ⟨_, -, heq⟩ := List.mem_map.1 he
      cases heq
      exact exists_condition hl hg
  · intro i hi
    obtain ⟨-, hreflects, -⟩ := reflects_registerAll rs
    rw [hreflects.importers_eq hl he] at hi
    obtain ⟨pair, hpair, rfl⟩ := List.mem_map.1 hi
    obtain ⟨r, hr, rfl⟩ := List.mem_map.1 (List.mem_filter.1 hpair).1
    exact ⟨r, hr, rfl⟩

end SlotTable

/-! ## Slots of a run -/

theorem ImportsPass.exists_log (c : Compilation) (members : List Member) (rule : AccessRule)
    (printer : DeclarationTree Binding → SlotTable → String) :
    ∃ log : List Binding, (run c members rule printer).slots =
        (({} : SlotTable).registerAll (log.map (·.request))).2 ∧
      ∀ b ∈ log, ∃ declared ∈ members.filterMap Binding.ofMember?, declared.Accepts rule b := by
  cases haborted : (run c members rule printer).isAborted with
  | true =>
    refine ⟨[], ?_, List.forall_mem_nil _⟩
    rw [run_of_gated (isAborted_run.1 haborted)]
    rfl
  | false =>
    obtain ⟨declared, log, hsub, haccepts, hledger⟩ :=
      exists_ledger_foldl rule (members.filterMap Binding.ofMember?)
    refine ⟨log, (slots_run haborted).trans hledger.slots_eq, fun b hb => ?_⟩
    obtain ⟨d, hd, hb⟩ := exists_of_mem_of_forall₂ haccepts hb
    exact ⟨d, hsub.subset hd, hb⟩

theorem Binding.condition_of_ofMember? {m : Member} {b : Binding} (h : ofMember? m = some b) :
    b.condition = m.marker.bind Marker.condition? := by
  obtain ⟨marker, source, hmarker, hsource, -, hcondition, -⟩ := exists_marker_of_ofMember? h
  rw [hmarker, Option.bind_some, Marker.condition?_eq, hsource, Option.bind_some, hcondition]

namespace Generator

variable {g : Generator}

/-- All texts in the comments of a run, but for the names of symbols, are one line. -/
theorem isOneLine_of_mem_slots (hplain : ∀ a ∈ g.members, a.IsPlain) {l : LibrarySlots}
    (hl : l ∈ g.importsPass.slots.libraries) {e : Option NamedType × SharedSlot}
    (he : e ∈ l.slots) :
    (∀ c ∈ e.1, IsOneLine c.name.toList) ∧ ∀ i ∈ e.2.importers, IsOneLine i.signature.toList := by
  obtain ⟨log, hslots, haccepted⟩ := ImportsPass.exists_log g.compilation g.members
    NamedType.isReachable (Loader.unitText ⟨g.markerNamespace, g.tool⟩)
  change g.importsPass.slots = _ at hslots
  rw [hslots] at hl
  obtain ⟨hcondition, himporters⟩ := SlotTable.exists_request hl he
  have hlog : ∀ b ∈ log, IsOneLine b.target.signature.toList ∧
      ∀ c ∈ b.condition, IsOneLine c.name.toList := by
    intro b hb
    obtain ⟨declared, hdeclared, kind, slot, hvalid, rfl⟩ := haccepted b hb
    obtain ⟨a, ha, hof⟩ := List.mem_filterMap.1 hdeclared
    refine ⟨Binding.target_of_ofMember? hof ▸ (hplain a ha).signature, fun c hc => ?_⟩
    refine (hplain a ha).condition c ?_ (Binding.rule_condition_of_validate hvalid c hc)
    exact Binding.condition_of_ofMember? hof ▸ hc
  constructor
  · intro c hc
    obtain ⟨r, hr, hrequest⟩ := hcondition c hc
    obtain ⟨b, hb, rfl⟩ := List.mem_map.1 hr
    exact (hlog b hb).2 c hrequest
  · intro i hi
    obtain ⟨r, hr, rfl⟩ := himporters i hi
    obtain ⟨b, hb, rfl⟩ := List.mem_map.1 hr
    exact (hlog b hb).1

theorem isCommented_iff_of_isPlain (hplain : ∀ a ∈ g.members, a.IsPlain) {l : LibrarySlots}
    (hl : l ∈ g.importsPass.slots.libraries) {e : Option NamedType × SharedSlot}
    (he : e ∈ l.slots) (p : Page) :
    e.2.IsCommented e.1 p ↔ StaysComment e.2.symbolName.toList := by
  obtain ⟨hcondition, himporters⟩ := isOneLine_of_mem_slots hplain hl he
  rw [SharedSlot.isCommented_iff]
  exact and_iff_left ⟨fun c hc => (hcondition c hc).staysComment,
    fun i hi => (himporters i hi).staysComment⟩

/-- Wherever it is written and whatever is registered, a field is commented exactly if no text leaves
its comment; in a run over a manifest only the name of the symbol can. -/
theorem isCommented_iff_staysComment (p : Page) :
    (∀ (rs : List ImportRequest), ∀ l ∈ (({} : SlotTable).registerAll rs).2.libraries,
      ∀ e ∈ l.slots, e.2.IsCommented e.1 p ↔
        StaysComment e.2.symbolName.toList ∧ (∀ c ∈ e.1, StaysComment c.name.toList) ∧
          ∀ i ∈ e.2.importers, StaysComment i.signature.toList) ∧
    ∀ m : Manifest, m.validate = .ok () → ∃ d, m.declarations = .ok d ∧
      ∀ l ∈ (ofManifest m d).importsPass.slots.libraries, ∀ e ∈ l.slots,
        e.2.IsCommented e.1 p ↔ StaysComment e.2.symbolName.toList := by
  refine ⟨fun _ _ _ e _ => e.2.isCommented_iff e.1 p, fun m hvalid => ?_⟩
  obtain ⟨d, hd, hplain⟩ := (Manifest.validate_eq_ok_iff.1 hvalid).exists_isPlain
  exact ⟨d, hd, fun l hl e he => isCommented_iff_of_isPlain hplain hl he p⟩

end Generator

/-- One function; the name of its symbol is given as it is written. -/
def Manifest.symbolSource (written : String) : SourceText :=
  ⟨("types.L=\x7b\x7d\n[[members]]\ncontainer=\"C\"\nname=\"F\"\nfunction=\x7blibrary=\"L\",name=\"" ++
    written ++ "\"\x7d\n").toList, "natbind.toml"⟩

/-- What such a manifest says. -/
def Manifest.symbolManifest (written name : String) : Manifest :=
  { source := symbolSource written
    generator := {}
    compilation := {}
    types := [("L", {})]
    members := [(⟨11, 22⟩,
      { container := "C"
        name := "F"
        kind := .method
        modifiers := [.internalAccess, .staticMember, .partialMember]
        returns := "void"
        returnPassing := .byValue
        params := []
        typeParams := []
        hasBody := false
        hasGet := true
        hasSet := false
        symbol := none
        function := some ⟨⟨"L", none, name⟩, []⟩
        constant := none })] }

namespace Generator

/-- The names of all slots. -/
def symbolNames (g : Generator) : List String :=
  g.importsPass.slots.libraries.flatMap fun l => l.slots.map (·.2.symbolName)

theorem exists_slot_of_symbolNames {g : Generator} {name : String} (h : g.symbolNames = [name]) :
    ∃ l ∈ g.importsPass.slots.libraries, ∃ e ∈ l.slots, e.2.symbolName = name := by
  have hname : name ∈ g.symbolNames := by
    rw [h]
    exact List.mem_singleton_self name
  obtain ⟨l, hl, hname⟩ := List.mem_flatMap.1 hname
  obtain ⟨e, he, hname⟩ := List.mem_map.1 hname
  exact ⟨l, hl, e, he, hname⟩

/-- A line end in the name of a symbol does no harm in front of another comment. -/
theorem isCommented_iff_staysComment_slashes :
    let m := Manifest.symbolManifest "poll\\n// see" "poll\n// see"
    m.validate = .ok () ∧ ∃ d, m.declarations = .ok d ∧
      ∃ l ∈ (ofManifest m d).importsPass.slots.libraries, ∃ e ∈ l.slots,
        e.2.symbolName = "poll\n// see" ∧ ∀ p : Page, e.2.IsCommented e.1 p := by
  intro m
  have hvalid : m.validate = .ok () := by decide +kernel
  obtain ⟨d, hd, hnames⟩ := exists_ofManifest symbolNames m ["poll\n// see"] (by decide +kernel)
  obtain ⟨l, hl, e, he, hname⟩ := exists_slot_of_symbolNames hnames
  refine ⟨hvalid, d, hd, l, hl, e, he, hname, fun p => ?_⟩
  obtain ⟨d', hd', hiff⟩ := (isCommented_iff_staysComment p).2 m hvalid
  obtain rfl := Except.ok.inj (hd.symm.trans hd')
  rw [hiff l hl e he, hname]
  decide

/-- What stands behind a line end in the name of a symbol can leave the comment. -/
theorem exists_not_isCommented :
    ¬ ∀ source g, Generator.parse source = .ok g → ∀ l ∈ g.importsPass.slots.libraries,
      ∀ e ∈ l.slots, ∀ p : Page, e.2.IsCommented e.1 p := by
  intro h
  have hread : Manifest.read? (Manifest.symbolSource "poll\\n#error") =
      some (Manifest.symbolManifest "poll\\n#error" "poll\n#error") := by
    unfold Manifest.symbolManifest Manifest.symbolSource
    simp only [String.toList_append]
    rw [toList_literal rfl, toList_literal rfl, toList_literal rfl]
    cbv
  obtain ⟨g, hparse, hnames⟩ := exists_parse_of_read symbolNames _ _ ["poll\n#error"] hread
    (by decide +kernel) (by decide +kernel)
  obtain ⟨l, hl, e, he, hname⟩ := exists_slot_of_symbolNames hnames
  have hstays := ((e.2.isCommented_iff e.1 {}).1 (h _ g hparse l hl e he {})).1
  rw [hname] at hstays
  exact absurd hstays (by decide)

end Generator
end NativeBindings
