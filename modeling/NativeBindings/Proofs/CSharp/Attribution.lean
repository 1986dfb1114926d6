import NativeBindings.CSharp.Signature
import NativeBindings.Proofs.CSharp.SourceLine

/-!
# The attribute that names the tool

Generated members and loader classes carry an attribute with the name and the version of the tool.
The name is written between the quotes as it is, so the attribute holds the literal of the name only
if each of its characters stands for itself in a literal. A double quote in the name ends the
literal too early, a line end breaks it, and what a backslash starts is read as another text.

Here literals are read with every escape sequence there is, as the UTF-16 code units they stand for.

## Main definitions

- `Literal.Spells` — what stands between the quotes of a literal, and its code units
- `Literal.IsRegular` — a literal of a text
- `UnitText.IsAttribution` — the attribute line for a name and a version

## Main statements

- `Literal.isPlain_of_spells` — which texts are spelled by themselves
- `UnitText.isAttribution_iff` — the names of tools that the attribute holds
- `UnitText.exists_not_isAttribution` — a name that it does not hold
-/

namespace NativeBindings
namespace Literal

/-! ## Code units -/

/-- The UTF-16 code units of a code point: one, or two above the first plane. -/
def codeUnits (n : Nat) : List Nat :=
  if n < 0x10000 then [n] else [0xd800 + (n - 0x10000) / 0x400, 0xdc00 + (n - 0x10000) % 0x400]

/-- The UTF-16 code units of a text. -/
def textUnits (s : List Char) : List Nat := s.flatMap fun c => codeUnits c.toNat

variable {c : Char} {s : List Char}

theorem length_codeUnits_pos (n : Nat) : 0 < (codeUnits n).length := by
  unfold codeUnits
  split <;> simp

theorem length_codeUnits_le (n : Nat) : (codeUnits n).length ≤ 2 := by
  unfold codeUnits
  split <;> simp

theorem eq_of_mem_codeUnits {m n : Nat} (hm : m < 0xd800) (h : m ∈ codeUnits n) : m = n := by
  unfold codeUnits at h
  split at h <;> simp at h <;> omega

@[simp]
theorem textUnits_nil : textUnits [] = [] := rfl

@[simp]
theorem textUnits_cons (c : Char) (s : List Char) :
    textUnits (c :: s) = codeUnits c.toNat ++ textUnits s := List.flatMap_cons

@[simp]
theorem textUnits_append (s t : List Char) :
    textUnits (s ++ t) = textUnits s ++ textUnits t := List.flatMap_append

theorem length_le_textUnits (s : List Char) : s.length ≤ (textUnits s).length := by
  induction s with
  | nil => exact Nat.le_refl 0
  | cons c s ih =>
    have := length_codeUnits_pos c.toNat
    rw [textUnits_cons, List.length_append, List.length_cons]
    omega

theorem mem_of_mem_textUnits (hc : c.toNat < 0xd800) (h : c.toNat ∈ textUnits s) : c ∈ s := by
  obtain ⟨d, hd, hcd⟩ := List.mem_flatMap.1 h
  rwa [Char.toNat_inj.1 (eq_of_mem_codeUnits hc hcd)]

/-! ## Literals with every escape sequence -/

/-- An escape sequence in front of `rest`, and its code units. The short form with `x` takes as
many digits as there are, up to four. -/
inductive Escape (rest : List Char) : List Char → List Nat → Prop
  | simple {letter c : Char} : simpleCharacter? letter = some c →
      Escape rest ['\\', letter] [c.toNat]
  | unit {ds : List Char} {ns : List Nat} : ds.length = 4 → ds.mapM Toml.hexDigit? = some ns →
      Escape rest ('\\' :: 'u' :: ds) [Numeral.value 16 ns]
  | shortUnit {ds : List Char} {ns : List Nat} : ds ≠ [] → ds.length ≤ 4 →
      (ds.length < 4 → ∀ d ∈ rest.head?, Toml.hexDigit? d = none) →
      ds.mapM Toml.hexDigit? = some ns → Escape rest ('\\' :: 'x' :: ds) [Numeral.value 16 ns]
  | codePoint {ds : List Char} {ns : List Nat} : ds.length = 8 →
      ds.mapM Toml.hexDigit? = some ns → Numeral.value 16 ns < 0x110000 →
      Escape rest ('\\' :: 'U' :: ds) (codeUnits (Numeral.value 16 ns))

/-- What stands between the quotes of a literal, and the code units that it stands for. -/
inductive Spells : List Char → List Nat → Prop
  | nil : Spells [] []
  | plain {c : Char} {body : List Char} {units : List Nat} : isPlain c = true →
      Spells body units → Spells (c :: body) (codeUnits c.toNat ++ units)
  | escape {body word : List Char} {us units : List Nat} : Escape body word us →
      Spells body units → Spells (word ++ body) (us ++ units)

/-- `literal` is a regular string literal of `value`. -/
def IsRegular (value literal : List Char) : Prop :=
  ∃ body, literal = '"' :: (body ++ ['"']) ∧ Spells body (textUnits value)

variable {body rest word name pre post : List Char} {us units : List Nat}

theorem spells_of_isPlain (h : ∀ c ∈ s, isPlain c = true) : Spells s (textUnits s) := by
  induction s with
  | nil => exact .nil
  | cons c s ih =>
    obtain ⟨hc, hs⟩ := List.forall_mem_cons.1 h
    exact .plain hc (ih hs)

theorem quote_notMem_of_mapM {ds : List Char} {ns : List Nat}
    (h : ds.mapM Toml.hexDigit? = some ns) : '"' ∉ ds := by
  intro hmem
  obtain ⟨n, hn⟩ := Toml.exists_hexDigit?_of_mapM h _ hmem
  cases hn

namespace Escape

/-- An escape sequence is longer than what it stands for. -/
theorem length_lt (h : Escape rest word us) : us.length < word.length := by
  cases h with
  | simple _ => exact Nat.lt_succ_self 1
  | unit hlength _ => simp
  | shortUnit _ _ _ _ => simp
  | @codePoint ds ns hlength _ _ =>
    have := length_codeUnits_le (Numeral.value 16 ns)
    rw [List.length_cons, List.length_cons, hlength]
    omega

/-- The only escape sequence with a double quote stands for one. -/
theorem eq_of_quote (h : Escape rest (pre ++ '"' :: post) us) :
    pre = ['\\'] ∧ us = ['"'.toNat] := by
  generalize hword : pre ++ '"' :: post = word at h
  have hmem : '"' ∈ word := by
    rw [← hword]
    exact List.mem_append_right _ List.mem_cons_self
  cases h with
  | @simple letter c hletter =>
    have hquote : '"' = letter := by simpa using hmem
    subst hquote
    cases hletter
    rcases pre with _ | ⟨a, _ | ⟨b, pre⟩⟩
    · cases hword
    · cases hword
      exact ⟨rfl, rfl⟩
    · have := congrArg List.length hword
      simp at this
  | unit _ hds => exact absurd (by simpa using hmem) (quote_notMem_of_mapM hds)
  | shortUnit _ _ _ hds => exact absurd (by simpa using hmem) (quote_notMem_of_mapM hds)
  | codePoint _ hds _ => exact absurd (by simpa using hmem) (quote_notMem_of_mapM hds)

end Escape

namespace Spells

/-- A literal is longer than its text unless every character stands for itself. -/
theorem isPlain_or_length_lt (h : Spells body units) :
    (∀ c ∈ body, isPlain c = true) ∧ units = textUnits body ∨
      units.length < (textUnits body).length := by
  induction h with
  | nil => exact .inl ⟨List.forall_mem_nil _, rfl⟩
  | @plain c body units hc _ ih =>
    rcases ih with ⟨hplain, rfl⟩ | hlt
    · exact .inl ⟨List.forall_mem_cons.2 ⟨hc, hplain⟩, rfl⟩
    · right
      rw [textUnits_cons, List.length_append, List.length_append]
      omega
  | @escape body word us units hescape _ ih =>
    right
    have hword := hescape.length_lt
    have hunits := length_le_textUnits word
    rw [textUnits_append, List.length_append, List.length_append]
    rcases ih with ⟨_, rfl⟩ | hlt <;> omega

theorem length_le (h : Spells body units) : units.length ≤ (textUnits body).length := by
  rcases h.isPlain_or_length_lt with ⟨_, rfl⟩ | hlt
  · exact Nat.le_refl _
  · exact Nat.le_of_lt hlt

/-- The first double quote of a literal is an escaped one, whose place in the text lies further
ahead. -/
theorem exists_quote (h : Spells (pre ++ '"' :: post) units) :
    ∃ before behind, units = before ++ '"'.toNat :: behind ∧
      before.length < (textUnits pre).length := by
  generalize hbody : pre ++ '"' :: post = body at h
  induction h generalizing pre with
  | nil => simp at hbody
  | @plain c body units hc _ ih =>
    rcases pre with _ | ⟨d, pre⟩
    · cases hbody
      exact absurd hc (by decide)
    · cases hbody
      obtain ⟨before, behind, rfl, hlt⟩ := ih rfl
      refine ⟨codeUnits c.toNat ++ before, behind, (List.append_assoc ..).symm, ?_⟩
      rw [textUnits_cons, List.length_append, List.length_append]
      omega
  | @escape body word us units hescape _ ih =>
    rcases List.append_eq_append_iff.1 hbody with ⟨word', rfl, hquote⟩ | ⟨pre', rfl, hquote⟩
    · rcases word' with _ | ⟨d, word'⟩
      · have hstart : [] ++ '"' :: post = body := hquote
        obtain ⟨_, _, _, hlt⟩ := ih hstart
        exact absurd hlt (Nat.not_lt_zero _)
      · cases hquote
        obtain ⟨rfl, rfl⟩ := hescape.eq_of_quote
        exact ⟨[], units, rfl, length_le_textUnits ['\\']⟩
    · obtain ⟨before, behind, rfl, hlt⟩ := ih hquote.symm
      refine ⟨us ++ before, behind, (List.append_assoc ..).symm, ?_⟩
      have hword := hescape.length_lt
      have hunits := length_le_textUnits word
      rw [textUnits_append, List.length_append, List.length_append]
      omega

end Spells

/-- If what a literal holds starts with its own text and a double quote, this is not the first one
in it. -/
theorem not_spells_append_quote : ¬Spells (name ++ '"' :: rest) (textUnits name) := by
  intro h
  obtain ⟨pre, post, heq, hnot⟩ :=
    List.eq_append_cons_of_mem (List.mem_append_right name (List.mem_cons_self : '"' ∈ '"' :: rest))
  obtain ⟨t, rfl⟩ : ∃ t, name = pre ++ t := by
    rcases List.append_eq_append_iff.1 heq with ⟨t, rfl, ht⟩ | ⟨t, rfl, _⟩
    · cases t with
      | nil => exact ⟨[], by simp⟩
      | cons d t =>
        cases ht
        exact absurd (List.mem_append_right name List.mem_cons_self) hnot
    · exact ⟨t, rfl⟩
  rw [heq] at h
  obtain ⟨before, behind, hunits, hlt⟩ := h.exists_quote
  rw [textUnits_append] at hunits
  -- the quote of the text lies within `pre`, which has none
  have hmem : '"'.toNat ∈ textUnits pre := by
    have hget := congrArg (fun l => l[before.length]?) hunits
    simp only [List.getElem?_append_left hlt, List.getElem?_append_right (Nat.le_refl _),
      Nat.sub_self, List.getElem?_cons_zero] at hget
    exact List.mem_of_getElem? hget
  exact hnot (mem_of_mem_textUnits (by decide) hmem)

/-- A text that stands between the quotes as it is, is the text of the literal that the first quote
opens only if each of its characters stands for itself. -/
theorem isPlain_of_spells (h : Spells body (textUnits name))
    (heq : name ++ '"' :: rest = body ++ '"' :: post) : ∀ c ∈ name, isPlain c = true := by
  obtain rfl : name = body := by
    rcases List.append_eq_append_iff.1 heq with ⟨t, rfl, ht⟩ | ⟨t, rfl, _⟩
    · cases t with
      | nil => simp
      | cons d t =>
        cases ht
        exact absurd h not_spells_append_quote
    · have hle := h.length_le
      have ht := length_le_textUnits t
      rw [textUnits_append, List.length_append] at hle
      rw [List.eq_nil_of_length_eq_zero (by omega : t.length = 0), List.append_nil]
  rcases h.isPlain_or_length_lt with ⟨hplain, _⟩ | hlt
  · exact hplain
  · exact absurd hlt (Nat.lt_irrefl _)

end Literal

/-! ## The version -/

theorem Numeral.isPlain_of_isDigit {c : Char} (h : isDigit c = true) :
    Literal.isPlain c = true := by
  have hle (a b : Char) : a ≤ b ↔ a.toNat ≤ b.toNat := Iff.rfl
  simp only [isDigit, hle, Char.reduceToNat, Bool.and_eq_true, decide_eq_true_eq] at h
  obtain ⟨hlow, hhigh⟩ := h
  refine Literal.isPlain_eq_true_iff.2 ⟨?_, ?_, ?_⟩
  · rintro rfl
    exact absurd hlow (by decide)
  · rintro rfl
    exact absurd hhigh (by decide)
  · simp only [Literal.isLineTerminator, List.mem_cons, List.not_mem_nil, or_false,
      decide_eq_false_iff_not]
    omega

theorem Version.isPlain_display (v : Version) :
    ∀ c ∈ v.display.toList, Literal.isPlain c = true := by
  have hpart (n : UInt32) : ∀ c ∈ Numeral.decimal n.toNat, Literal.isPlain c = true :=
    fun c hc => Numeral.isPlain_of_isDigit (Numeral.isDigit_decimal _ c hc)
  have hdot : Literal.isPlain '.' = true := by decide
  simp only [display, String.toList_ofList, joinSegments, List.forall_mem_append,
    List.forall_mem_cons]
  exact ⟨hpart v.major, hdot, hpart v.minor, hdot, hpart v.patch⟩

/-! ## The attribute -/

namespace UnitText

/-- The attribute up to its arguments. -/
def attributionStart : String := "[global::System.CodeDom.Compiler.GeneratedCode("

/-- `line` is a single line with the attribute, which has two string literals: that of `name` and
that of `version`. -/
structure IsAttribution (line name version : String) : Prop where
  isOneLine : IsOneLine line.toList
  exists_literals : ∃ first second gap, Literal.IsRegular name.toList first ∧
    Literal.IsRegular version.toList second ∧ (∀ c ∈ gap, c = ' ') ∧
    line.toList = attributionStart.toList ++ first ++ (',' :: gap) ++ second ++ [')', ']']

variable {tool : Tool}

theorem toList_generatedCode (tool : Tool) :
    (generatedCode tool).toList = attributionStart.toList ++ '"' :: (tool.name.toList ++ ['"']) ++
      (',' :: [' ']) ++ '"' :: (tool.version.display.toList ++ ['"']) ++ [')', ']'] := by
  have hstart : "[global::System.CodeDom.Compiler.GeneratedCode(\"".toList =
      attributionStart.toList ++ ['"'] := by decide +kernel
  have hmiddle : "\", \"".toList = ['"', ',', ' ', '"'] := by decide
  have hend : "\")]".toList = ['"', ')', ']'] := by decide
  unfold generatedCode
  simp only [String.toList_append, hstart, hmiddle, hend, List.append_assoc, List.cons_append,
    List.nil_append]

theorem isPlain_of_isAttribution
    (h : IsAttribution (generatedCode tool) tool.name tool.version.display) :
    ∀ c ∈ tool.name.toList, Literal.isPlain c = true := by
  obtain ⟨_, _, gap, ⟨body, rfl, hspells⟩, _, _, hline⟩ := h.exists_literals
  simp only [toList_generatedCode, List.append_assoc, List.append_cancel_left_eq, List.cons_append,
    List.cons.injEq, true_and, List.nil_append] at hline
  exact Literal.isPlain_of_spells hspells hline

/-- The attribute holds the literals of the name and of the version exactly if every character of the
name stands for itself in a literal. -/
theorem isAttribution_iff (tool : Tool) :
    IsAttribution (generatedCode tool) tool.name tool.version.display ↔
      ∀ c ∈ tool.name.toList, Literal.isPlain c = true := by
  constructor
  · exact isPlain_of_isAttribution
  intro hname
  have hversion := tool.version.isPlain_display
  constructor
  · have hplain {s : String} (h : ∀ c ∈ s.toList, Literal.isPlain c = true) :
        IsOneLine s.toList := fun c hc => (Literal.isPlain_eq_true_iff.1 (h c hc)).2.2
    unfold generatedCode
    simp only [isOneLine_toList_append, and_assoc]
    exact ⟨by decide +kernel, hplain hname, by decide, hplain hversion, by decide⟩
  · exact ⟨_, _, [' '], ⟨_, rfl, Literal.spells_of_isPlain hname⟩,
      ⟨_, rfl, Literal.spells_of_isPlain hversion⟩, List.forall_mem_singleton.2 rfl,
      toList_generatedCode tool⟩

/-- A name with a double quote ends its literal. -/
theorem exists_not_isAttribution :
    ¬ ∀ tool : Tool, IsAttribution (generatedCode tool) tool.name tool.version.display := by
  intro h
  have hquote := isPlain_of_isAttribution (h ⟨"a\"b", ⟨0, 1, 0⟩⟩) '"' (by decide)
  exact absurd hquote (by decide)

end UnitText
end NativeBindings
