import NativeBindings.CSharp.Accessor
import NativeBindings.Proofs.Binding.Validity
import NativeBindings.Proofs.Fragment.Nesting

/-!
# Bodies of accessors

The body of an accessor returns what the method is declared to return: a reference, a value or
nothing. The body of a setter stores its parameter through the slot. A method that is declared to
return nothing by reference is accepted, although no body can agree with this.

## Main definitions

- `Fragment.returnForms` — the return statements of generated code
- `Member.IsAnswered` — the return statements agree with a declaration
- `Param.IsStored` — a parameter is stored through a slot, once

## Main statements

- `Member.Admits.returnForms_body` — the return statements of an accessor
- `Binding.answers_body` — what the body of a valid binding does
- `Binding.exists_not_isAnswered` — not all such bodies agree with the declaration
-/

namespace NativeBindings

/-- What a return statement returns. -/
inductive ReturnForm where
  | reference
  | value
  deriving DecidableEq

/-- What the return statement on a line returns, if the line is one. -/
def returnForm? (text : String) : Option ReturnForm :=
  if startsWith "return ref " text then some .reference
  else if startsWith "return " text then some .value
  else none

/-- The return statements of generated code. -/
def Fragment.returnForms (fs : List Fragment) : List ReturnForm :=
  (nestedAll [] fs).filterMap fun x => returnForm? x.text

/-- What the method is declared to return, if it returns anything. -/
def Member.returnForm? (m : Member) : Option ReturnForm :=
  if m.returnType.isVoid then none
  else if m.returnPassing.isByRef then some .reference
  else some .value

/-- A body returns a reference exactly if the method is declared to return by reference, a value
exactly if it is declared to return one by value, and otherwise nothing. -/
structure Member.IsAnswered (m : Member) (body : List Fragment) : Prop where
  reference : .reference ∈ Fragment.returnForms body ↔ m.returnPassing.isByRef = true
  value : .value ∈ Fragment.returnForms body ↔
    m.returnType.isVoid = false ∧ m.returnPassing.isByRef = false
  nothing : Fragment.returnForms body = [] ↔
    m.returnType.isVoid = true ∧ m.returnPassing.isByRef = false

/-- The statement that stores a value of a type behind the pointer in a slot. -/
def storeStatement (type slot value : String) : String :=
  "*unchecked((" ++ type ++ "*)" ++ slot ++ ") = " ++ value ++ ";"

/-- A body stores through a slot exactly once: the parameter itself, or the address of a parameter
that is passed by reference, while it is pinned. -/
def Param.IsStored (p : Param) (slot : String) (body : List Fragment) : Prop :=
  if p.passing.isPinnable then
    Fragment.linesFrom "*" [] body =
      [⟨["fixed(" ++ p.type.name ++ "* p_" ++ p.name ++ " = &" ++ p.name ++ ")"],
        storeStatement (p.type.name ++ "*") slot ("p_" ++ p.name)⟩]
  else Fragment.linesFrom "*" [] body = [⟨[], storeStatement p.type.name slot p.name⟩]

/-! ## Return statements -/

theorem returnForm?_of_reference {s : String} (h : startsWith "return ref " s = true) :
    returnForm? s = some .reference := by
  rw [returnForm?, if_pos h]

theorem returnForm?_of_value {q s : String} (hq : clash "return ref " q = true)
    (hreturn : startsWith "return " q = true) (h : startsWith q s = true) :
    returnForm? s = some .value := by
  have hprefix : startsWith "return " s = true :=
    startsWith_iff.2 ((startsWith_iff.1 hreturn).trans (startsWith_iff.1 h))
  rw [returnForm?, startsWith_eq_false_of_clash hq h, if_neg Bool.false_ne_true, if_pos hprefix]

theorem returnForm?_of_clash {q s : String} (hq : clash "return " q = true)
    (h : startsWith q s = true) : returnForm? s = none := by
  have hreference : startsWith "return ref " s = false :=
    startsWith_eq_false_of_clash (p := "return " ++ "ref ") (clash_append hq "ref ") h
  rw [returnForm?, hreference, if_neg Bool.false_ne_true, startsWith_eq_false_of_clash hq h,
    if_neg Bool.false_ne_true]

theorem Fragment.returnForms_line (text : String) :
    returnForms [.line text] = (returnForm? text).toList := by
  unfold returnForms nestedAll nestedAll nested
  cases h : returnForm? text <;> simp [h]

/-! ## Bodies -/

namespace Access

variable {m : Member} {p : Param}

theorem returnForms_body_getter (m : Member) (slot : String) :
    Fragment.returnForms (getter.body m slot) =
      [if m.returnPassing.isByRef then .reference else .value] := by
  simp only [body, String.append_assoc]
  split
  · rw [Fragment.returnForms_line, returnForm?_of_reference]
    · rfl
    · exact startsWith_append_of_startsWith (by decide) _
  · rw [Fragment.returnForms_line, returnForm?_of_value (q := "return *unchecked((") (by decide)
      (by decide)]
    · rfl
    · exact startsWith_append_self _ _

theorem returnForms_body_reference (m : Member) (slot : String) :
    Fragment.returnForms (reference.body m slot) = [.reference] := by
  simp only [body, String.append_assoc]
  rw [Fragment.returnForms_line, returnForm?_of_reference]
  · rfl
  · exact startsWith_append_of_startsWith (by decide) _

theorem body_setter (hparams : m.params = [p]) (slot : String) :
    setter.body m slot =
      if p.passing.isPinnable then
        [.braced ("fixed(" ++ p.type.name ++ "* p_" ++ p.name ++ " = &" ++ p.name ++ ")")
          [.line (storeStatement (p.type.name ++ "*") slot ("p_" ++ p.name))]]
      else [.line (storeStatement p.type.name slot p.name)] := by
  have hfixed : "fixed(" ++ (p.type.name ++ "*") ++ " p_" ++ p.name ++ " = &" ++ p.name ++ ")" =
      "fixed(" ++ p.type.name ++ "* p_" ++ p.name ++ " = &" ++ p.name ++ ")" := by
    apply String.toList_inj.1
    simp
  have haddress :
      "*unchecked((" ++ (p.type.name ++ "*") ++ "*)" ++ slot ++ ") = p_" ++ p.name ++ ";" =
        storeStatement (p.type.name ++ "*") slot ("p_" ++ p.name) := by
    apply String.toList_inj.1
    delta storeStatement
    simp
  have hvalue : "*unchecked((" ++ (p.type.name ++ "*") ++ ")" ++ slot ++ ") = " ++ p.name ++ ";" =
      storeStatement p.type.name slot p.name := by
    apply String.toList_inj.1
    delta storeStatement
    simp
  simp only [body, hparams, List.head?_cons, TypeUse.pointer, hfixed, haddress, hvalue]

theorem startsWith_storeStatement (type slot value : String) :
    startsWith "*" (storeStatement type slot value) = true := by
  delta storeStatement
  simp only [String.append_assoc]
  exact startsWith_append_of_startsWith (by decide) _

theorem returnForms_body_setter (hparams : m.params = [p]) (slot : String) :
    Fragment.returnForms (setter.body m slot) = [] := by
  have hstore (type value : String) : returnForm? (storeStatement type slot value) = none :=
    returnForm?_of_clash (by decide) (startsWith_storeStatement type slot value)
  rw [body_setter hparams]
  split
  · have hfixed (rest : String) : returnForm? ("fixed(" ++ rest) = none :=
      returnForm?_of_clash (by decide) (startsWith_append_self _ _)
    have hopening : returnForm? "\x7b" = none := by decide
    have hclosing : returnForm? "\x7d" = none := by decide
    simp only [Fragment.returnForms, Fragment.nestedAll, Fragment.nested_braced, Fragment.nested,
      List.append_nil, String.append_assoc, List.cons_append, List.nil_append,
      List.filterMap_cons, hfixed, hopening, hclosing, hstore, List.filterMap_nil]
  · rw [Fragment.returnForms_line, hstore]
    rfl

theorem isStored_body_setter (hparams : m.params = [p]) (slot : String) :
    p.IsStored slot (setter.body m slot) := by
  have hstore (headers : List String) (type value : String) :
      Fragment.linesFrom "*" headers [.line (storeStatement type slot value)] =
        [⟨headers, storeStatement type slot value⟩] := by
    rw [Fragment.linesFrom_line, startsWith_storeStatement, if_pos rfl]
  rw [body_setter hparams, Param.IsStored]
  split
  · have hfixed (rest : String) : startsWith "*" ("fixed(" ++ rest) = false :=
      startsWith_append_of_clash (by decide) rest
    rw [Fragment.linesFrom_braced (by decide) (by decide), hstore, Fragment.linesFrom_line]
    simp only [String.append_assoc, hfixed, Bool.false_eq_true, if_false, List.nil_append]
  · exact hstore [] p.type.name p.name

end Access

theorem Binding.returnForms_functionCall (m : Member) (conventions : List NamedType)
    (slot : String) :
    Fragment.returnForms [functionCall m conventions slot] = m.returnForm?.toList := by
  unfold functionCall Member.returnForm?
  rw [Fragment.returnForms_line]
  simp only [String.append_assoc]
  split
  · rw [String.empty_append, returnForm?_of_clash (q := "unchecked((") (by decide)]
    exact startsWith_append_self _ _
  split
  · rw [returnForm?_of_reference]
    exact startsWith_append_self _ _
  · rw [← String.append_assoc,
      returnForm?_of_value (q := "return " ++ "unchecked((") (by decide) (by decide)]
    exact startsWith_append_self _ _

/-- An accessor whose kind fits the method returns once if the method returns something, and in the
declared way. -/
theorem Member.Admits.returnForms_body {b : Binding} {kind : BindingKind}
    (h : b.target.Admits kind) (slot : String) :
    Fragment.returnForms ({ b with kind }.body slot) = b.target.returnForm?.toList := by
  unfold Binding.body
  cases h with
  | getter hparams hresult hlayout =>
    dsimp only
    rw [Access.returnForms_body_getter, returnForm?, hresult, if_neg Bool.false_ne_true]
    split <;> rfl
  | setter hparams hresult hlayout =>
    dsimp only
    rw [Access.returnForms_body_setter hparams, returnForm?, hresult, if_pos rfl]
    rfl
  | reference hparams hresult hlayout hpassing =>
    dsimp only
    rw [Access.returnForms_body_reference, returnForm?, hresult, if_neg Bool.false_ne_true, hpassing,
      if_pos rfl]
    rfl
  | function conventions hresult hparams =>
    exact Binding.returnForms_functionCall b.target conventions slot

/-- The returns of an accessor agree with the declaration if this can be obeyed at all. -/
theorem Member.isAnswered_iff {m : Member} {body : List Fragment}
    (h : Fragment.returnForms body = m.returnForm?.toList) :
    m.IsAnswered body ↔ ¬ (m.returnType.isVoid = true ∧ m.returnPassing.isByRef = true) := by
  unfold returnForm? at h
  constructor
  · rintro ⟨hreference, -, -⟩ ⟨hvoid, hpassing⟩
    rw [h, if_pos hvoid] at hreference
    exact absurd (hreference.2 hpassing) List.not_mem_nil
  · intro hobeyed
    cases hvoid : m.returnType.isVoid with
    | true =>
      rw [hvoid] at h
      have hpassing : m.returnPassing.isByRef = false := by simpa [hvoid] using hobeyed
      exact ⟨by simp [h, hpassing], by simp [h, hvoid], by simp [h, hvoid, hpassing]⟩
    | false =>
      rw [hvoid] at h
      cases hpassing : m.returnPassing.isByRef with
      | true =>
        rw [hpassing] at h
        exact ⟨by simp [h, hpassing], by simp [h, hpassing], by simp [h, hvoid]⟩
      | false =>
        rw [hpassing] at h
        exact ⟨by simp [h, hpassing], by simp [h, hvoid, hpassing], by simp [h, hvoid]⟩

theorem Member.Admits.body_ne_nil {b : Binding} {kind : BindingKind} (h : b.target.Admits kind)
    (slot : String) : { b with kind }.body slot ≠ [] := by
  unfold Binding.body
  cases h with
  | getter =>
    simp only [Access.body]
    split <;> exact List.cons_ne_nil _ _
  | setter hparams =>
    simp only [Access.body_setter hparams]
    split <;> exact List.cons_ne_nil _ _
  | reference | function => exact List.cons_ne_nil _ _

namespace Binding

/-- The body of a valid binding does something, and it returns once if the method returns anything.
It agrees with the declaration unless this returns nothing by reference. The body of a setter stores
the only parameter. -/
theorem answers_body {b : Binding} {rule : AccessRule} {kind : BindingKind}
    (h : b.validate rule = .ok kind) (slot : String) :
    let body := { b with kind }.body slot
    body ≠ [] ∧
    Fragment.returnForms body = b.target.returnForm?.toList ∧
    (b.target.IsAnswered body ↔
      ¬ (b.target.returnType.isVoid = true ∧ b.target.returnPassing.isByRef = true)) ∧
    (kind = .symbol .setter → ∃ p, b.target.params = [p] ∧ p.IsStored slot body) := by
  intro body
  have hadmits := admits_of_validate h
  have hforms := hadmits.returnForms_body slot
  refine ⟨hadmits.body_ne_nil slot, hforms, Member.isAnswered_iff hforms, ?_⟩
  rintro rfl
  cases hadmits with
  | setter hparams => exact ⟨_, hparams, Access.isStored_body_setter hparams slot⟩

/-- A setter for a number, with the ways in which parameter and result are passed. -/
def numberSetter (passing : ParamPassing) (returnPassing : ReturnPassing) : Binding where
  library := ⟨⟨0⟩, "Demo.Sdl", .publicAccess⟩
  condition := none
  symbolName := "target"
  slot := none
  target :=
    { id := ⟨1⟩
      name := "SetTarget"
      form := .method
      modifiers := [.staticMember, .partialMember]
      hasBody := false
      params := [⟨"target", ⟨"int", .primitive, false⟩, passing, none⟩]
      typeParams := []
      returnType := .void
      returnPassing
      container := {}
      location := none
      marker := none }
  kind := .symbol .auto
  location := none

theorem answers_body_pinned :
    let b := numberSetter .byRef .byValue
    let body := { b with kind := .symbol .setter }.body "slot"
    b.validate NamedType.isReachable = .ok (.symbol .setter) ∧ body ≠ [] ∧
      b.target.IsAnswered body ∧ ∃ p, b.target.params = [p] ∧ p.IsStored "slot" body := by
  intro b body
  have h : b.validate NamedType.isReachable = .ok (.symbol .setter) := by decide
  obtain ⟨hne, -, hanswered, hstored⟩ := answers_body h "slot"
  exact ⟨h, hne, hanswered.2 (by decide), hstored rfl⟩

/-- A setter that is declared to return nothing by reference is accepted, but it has no return
statement. -/
theorem exists_not_isAnswered :
    ¬ ∀ (b : Binding) (rule : AccessRule) (kind : BindingKind), b.validate rule = .ok kind →
      ∀ slot, b.target.IsAnswered ({ b with kind }.body slot) := by
  intro h
  have hanswered := h (numberSetter .byValue .byRef) NamedType.isReachable (.symbol .setter)
    (by decide) "slot"
  exact absurd (hanswered.reference.2 rfl) (by decide)

end Binding
end NativeBindings
