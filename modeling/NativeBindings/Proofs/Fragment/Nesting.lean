import Mathlib.Data.List.Basic
import NativeBindings.Fragment

/-!
# Nesting of generated text

A block is opened by the line in front of it, its header. Generated text can be read line by line,
each line with the headers of the blocks around it, so that one can say where a statement stands.

## Main definitions

- `NestedLine` — a line with the headers around it
- `Fragment.nestedAll` — the lines of generated text
- `Fragment.linesFrom` — those of them that start with a given text
- `Fragment.itemsAll` — what stands in the blocks of generated text

## Main statements

- `Fragment.text_nestedAll` — these are the lines that are printed
-/

namespace NativeBindings

/-- A line of generated text with the headers of the blocks around it, the outermost first. -/
structure NestedLine where
  headers : List String
  text : String
  deriving DecidableEq

/-! ## Beginnings of texts -/

/-- The text `s` starts with `p`. -/
def startsWith (p s : String) : Bool := p.toList.isPrefixOf s.toList

/-- No text starts with both `p` and `q`. -/
def clash (p q : String) : Bool :=
  !p.toList.isPrefixOf q.toList && !q.toList.isPrefixOf p.toList

theorem startsWith_iff {p s : String} : startsWith p s = true ↔ p.toList <+: s.toList :=
  List.isPrefixOf_iff_prefix

/-- Literal texts are compared by the characters that they are written with. -/
theorem startsWith_of_literals {p s : String} {ps cs : List Char} (hp : p = String.ofList ps)
    (hs : s = String.ofList cs) (h : ps.isPrefixOf cs = true) : startsWith p s = true := by
  rw [startsWith, hp, hs, String.toList_ofList, String.toList_ofList, h]

theorem clash_of_literals {p q : String} {ps qs : List Char} (hp : p = String.ofList ps)
    (hq : q = String.ofList qs) (h : (!ps.isPrefixOf qs && !qs.isPrefixOf ps) = true) :
    clash p q = true := by
  rw [clash, hp, hq, String.toList_ofList, String.toList_ofList, h]

theorem startsWith_self (s : String) : startsWith s s = true :=
  startsWith_iff.2 List.prefix_rfl

@[simp] theorem startsWith_append_self (p s : String) : startsWith p (p ++ s) = true := by
  rw [startsWith_iff, String.toList_append]
  exact List.prefix_append _ _

theorem startsWith_append_of_startsWith {p q : String} (h : startsWith p q = true) (s : String) :
    startsWith p (q ++ s) = true := by
  rw [startsWith_iff] at h ⊢
  rw [String.toList_append]
  exact h.trans (List.prefix_append _ _)

theorem startsWith_append_append (q p s : String) :
    startsWith (q ++ p) (q ++ s) = startsWith p s := by
  rw [Bool.eq_iff_iff, startsWith_iff, startsWith_iff, String.toList_append, String.toList_append,
    List.prefix_append_right_inj]

theorem startsWith_of_append {p q s : String} (h : startsWith (p ++ q) s = true) :
    startsWith p s = true := by
  rw [startsWith_iff, String.toList_append] at h
  exact startsWith_iff.2 ((List.prefix_append _ _).trans h)

theorem startsWith_eq_false_of_clash {p q s : String} (h : clash p q = true)
    (hq : startsWith q s = true) : startsWith p s = false := by
  simp only [clash, Bool.and_eq_true, Bool.not_eq_true', ← Bool.not_eq_true,
    List.isPrefixOf_iff_prefix] at h
  rw [← Bool.not_eq_true, startsWith_iff]
  intro hp
  exact (List.prefix_or_prefix_of_prefix hp (startsWith_iff.1 hq)).elim h.1 h.2

theorem clash_append {p q : String} (h : clash p q = true) (s : String) :
    clash (p ++ s) q = true := by
  have hne : ∀ t, startsWith q t = true → startsWith p t = true → False := by
    intro t hq hp
    rw [startsWith_eq_false_of_clash h hq] at hp
    exact Bool.noConfusion hp
  rw [clash, Bool.and_eq_true, Bool.not_eq_true', Bool.not_eq_true', ← Bool.not_eq_true,
    ← Bool.not_eq_true]
  exact ⟨fun hq => hne q (startsWith_self q) (startsWith_of_append hq),
    fun hp => hne (p ++ s) hp (startsWith_append_self p s)⟩

/-- Only the empty text is a start of the empty text. -/
theorem startsWith_empty_of_clash {p q : String} (h : clash p q = true) :
    startsWith p "" = false := by
  rw [← Bool.not_eq_true, startsWith_iff]
  intro hp
  have hnil : p.toList = [] := List.prefix_nil.1 hp
  simp [clash, hnil] at h

theorem startsWith_of_clash {p q : String} (h : clash p q = true) : startsWith p q = false :=
  startsWith_eq_false_of_clash h (startsWith_self q)

theorem startsWith_append_of_clash {p q : String} (h : clash p q = true) (s : String) :
    startsWith p (q ++ s) = false :=
  startsWith_eq_false_of_clash h (startsWith_append_self q s)

namespace Fragment

/-! ## Lines with their headers -/

mutual

/-- The lines of a fragment below the given headers. -/
def nested (headers : List String) : Fragment → List NestedLine
  | line text => [⟨headers, text⟩]
  | directive text => [⟨headers, text⟩]
  | blank => [⟨headers, ""⟩]
  | sequence [line header, block opening body close] =>
    ⟨headers, header⟩ :: ⟨headers, opening⟩ ::
      (nestedAll (headers ++ [header]) body ++ (close.map (NestedLine.mk headers)).toList)
  | block opening body close =>
    ⟨headers, opening⟩ :: (nestedAll headers body ++ (close.map (NestedLine.mk headers)).toList)
  | sequence parts => nestedAll headers parts

/-- The lines of several fragments below the given headers. -/
def nestedAll (headers : List String) : List Fragment → List NestedLine
  | [] => []
  | f :: fs => f.nested headers ++ nestedAll headers fs

end

variable {headers : List String} {p : String}

theorem nested_braced (headers : List String) (header : String) (body : List Fragment) :
    (braced header body).nested headers =
      ⟨headers, header⟩ :: ⟨headers, "\x7b"⟩ ::
        (nestedAll (headers ++ [header]) body ++ [⟨headers, "\x7d"⟩]) := rfl

theorem nestedAll_append (fs gs : List Fragment) :
    nestedAll headers (fs ++ gs) = nestedAll headers fs ++ nestedAll headers gs := by
  induction fs with
  | nil => rfl
  | cons f fs ih => rw [List.cons_append, nestedAll, nestedAll, ih, List.append_assoc]

mutual

/-- Reading a fragment with its headers neither adds a line nor leaves one out. -/
theorem text_nested (headers : List String) (depth : Nat) (f : Fragment) :
    (f.nested headers).map (·.text) = (f.lines depth).map (·.text) := by
  match f with
  | line text => rfl
  | directive text => rfl
  | blank => rfl
  | block opening body close =>
    have hbody := text_nestedAll headers (depth + 1) body
    cases close <;> simp [nested, lines, hbody]
  | sequence parts =>
    by_cases hbraced : ∃ header opening body close, parts = [line header, block opening body close]
    · obtain ⟨header, opening, body, close, rfl⟩ := hbraced
      have hbody := text_nestedAll (headers ++ [header]) (depth + 1) body
      cases close <;> simp [nested, lines, linesOfAll, hbody]
    · have hparts := text_nestedAll headers depth parts
      rw [nested, lines, hparts]
      exact fun header opening body close h => hbraced ⟨header, opening, body, close, h⟩

theorem text_nestedAll (headers : List String) (depth : Nat) (fs : List Fragment) :
    (nestedAll headers fs).map (·.text) = (linesOfAll depth fs).map (·.text) := by
  match fs with
  | [] => rfl
  | f :: fs =>
    rw [nestedAll, linesOfAll, List.map_append, List.map_append, text_nested headers depth f,
      text_nestedAll headers depth fs]

end

mutual

theorem prefix_of_mem_nested {headers : List String} {f : Fragment} {x : NestedLine}
    (h : x ∈ f.nested headers) : headers <+: x.headers := by
  match f with
  | line text | directive text | blank =>
    obtain rfl := List.mem_singleton.1 h
    exact List.prefix_rfl
  | block opening body close =>
    rw [nested, List.mem_cons, List.mem_append] at h
    rcases h with rfl | h | h
    · exact List.prefix_rfl
    · exact prefix_of_mem_nestedAll h
    · obtain ⟨text, -, rfl⟩ := Option.map_eq_some_iff.1 (Option.mem_toList.1 h)
      exact List.prefix_rfl
  | sequence parts =>
    by_cases hbraced : ∃ header opening body close, parts = [line header, block opening body close]
    · obtain ⟨header, opening, body, close, rfl⟩ := hbraced
      rw [nested, List.mem_cons, List.mem_cons, List.mem_append] at h
      rcases h with rfl | rfl | h | h
      · exact List.prefix_rfl
      · exact List.prefix_rfl
      · exact (List.prefix_append headers [header]).trans (prefix_of_mem_nestedAll h)
      · obtain ⟨text, -, rfl⟩ := Option.map_eq_some_iff.1 (Option.mem_toList.1 h)
        exact List.prefix_rfl
    · rw [nested] at h
      · exact prefix_of_mem_nestedAll h
      · exact fun header opening body close h => hbraced ⟨header, opening, body, close, h⟩

/-- Lines below some headers have at least these. -/
theorem prefix_of_mem_nestedAll {headers : List String} {fs : List Fragment} {x : NestedLine}
    (h : x ∈ nestedAll headers fs) : headers <+: x.headers := by
  match fs with
  | [] => cases h
  | f :: fs =>
    rw [nestedAll, List.mem_append] at h
    exact h.elim prefix_of_mem_nested prefix_of_mem_nestedAll

end

theorem flatMap_no_lines {β : Type} (xs : List β) :
    xs.flatMap (fun _ => ([] : List NestedLine)) = [] :=
  List.flatMap_eq_nil_iff.2 fun _ _ => rfl

/-! ## Selected lines -/

/-- The lines that start with `p`. -/
def linesFrom (p : String) (headers : List String) (fs : List Fragment) : List NestedLine :=
  (nestedAll headers fs).filter fun x => startsWith p x.text

@[simp] theorem linesFrom_nil : linesFrom p headers [] = [] := rfl

theorem linesFrom_append (fs gs : List Fragment) :
    linesFrom p headers (fs ++ gs) = linesFrom p headers fs ++ linesFrom p headers gs := by
  rw [linesFrom, nestedAll_append, List.filter_append, linesFrom, linesFrom]

theorem linesFrom_cons_cons (f g : Fragment) (fs : List Fragment) :
    linesFrom p headers (f :: g :: fs) = linesFrom p headers [f] ++ linesFrom p headers (g :: fs) :=
  linesFrom_append [f] (g :: fs)

theorem linesFrom_flatMap {β : Type} (xs : List β) (f : β → List Fragment) :
    linesFrom p headers (xs.flatMap f) = xs.flatMap fun x => linesFrom p headers (f x) := by
  induction xs with
  | nil => rfl
  | cons x xs ih => rw [List.flatMap_cons, linesFrom_append, ih, List.flatMap_cons]

theorem linesFrom_map {β : Type} (xs : List β) (f : β → Fragment) :
    linesFrom p headers (xs.map f) = xs.flatMap fun x => linesFrom p headers [f x] := by
  rw [← linesFrom_flatMap, List.map_eq_flatMap]

theorem linesFrom_line (text : String) : linesFrom p headers [line text] =
    if startsWith p text then [⟨headers, text⟩] else [] := by
  simp [linesFrom, nestedAll, nested, List.filter_singleton]

theorem linesFrom_blank (hp : startsWith p "" = false) : linesFrom p headers [blank] = [] := by
  simp [linesFrom, nestedAll, nested, hp]

theorem linesFrom_braced (hopening : startsWith p "\x7b" = false)
    (hclosing : startsWith p "\x7d" = false) (header : String) (body : List Fragment) :
    linesFrom p headers [braced header body] =
      linesFrom p headers [line header] ++ linesFrom p (headers ++ [header]) body := by
  rw [linesFrom_line]
  simp only [linesFrom, nestedAll, nested_braced, List.append_nil, List.filter_cons,
    List.filter_append, hopening, hclosing, List.filter_nil, Bool.false_eq_true, if_false]
  split <;> rfl

theorem linesFrom_sequence_braced (header : String) (body fs : List Fragment) :
    linesFrom p headers [sequence (braced header body :: fs)] =
      linesFrom p headers (braced header body :: fs) := by
  rw [linesFrom, nestedAll, nestedAll, List.append_nil]
  rfl

theorem linesFrom_separated (hp : startsWith p "" = false) (fs : List Fragment) :
    linesFrom p headers (separated fs) = linesFrom p headers fs := by
  induction fs using separated.induct with
  | case1 => rfl
  | case2 f => rfl
  | case3 f fs hne ih =>
    obtain ⟨g, fs, rfl⟩ := List.exists_cons_of_ne_nil hne
    have hsplit : separated (f :: g :: fs) = [f] ++ [blank] ++ separated (g :: fs) := rfl
    rw [hsplit, linesFrom_append, linesFrom_append, linesFrom_blank hp, List.append_nil, ih,
      ← linesFrom_cons_cons]

/-- The lines that start with `p` and stand in no further block. -/
def linesAt (p : String) (headers : List String) (fs : List Fragment) : List NestedLine :=
  (linesFrom p headers fs).filter fun x => x.headers = headers

@[simp] theorem linesAt_nil : linesAt p headers [] = [] := rfl

theorem linesAt_append (fs gs : List Fragment) :
    linesAt p headers (fs ++ gs) = linesAt p headers fs ++ linesAt p headers gs := by
  rw [linesAt, linesFrom_append, List.filter_append, linesAt, linesAt]

theorem linesAt_cons_cons (f g : Fragment) (fs : List Fragment) :
    linesAt p headers (f :: g :: fs) = linesAt p headers [f] ++ linesAt p headers (g :: fs) :=
  linesAt_append [f] (g :: fs)

theorem linesAt_flatMap {β : Type} (xs : List β) (f : β → List Fragment) :
    linesAt p headers (xs.flatMap f) = xs.flatMap fun x => linesAt p headers (f x) := by
  rw [linesAt, linesFrom_flatMap, List.filter_flatMap]
  rfl

theorem linesAt_sequence_braced (header : String) (body fs : List Fragment) :
    linesAt p headers [sequence (braced header body :: fs)] =
      linesAt p headers (braced header body :: fs) := by
  rw [linesAt, linesFrom_sequence_braced, linesAt]

theorem linesAt_map {β : Type} (xs : List β) (f : β → Fragment) :
    linesAt p headers (xs.map f) = xs.flatMap fun x => linesAt p headers [f x] := by
  rw [← linesAt_flatMap, List.map_eq_flatMap]

theorem linesAt_line (text : String) : linesAt p headers [line text] =
    if startsWith p text then [⟨headers, text⟩] else [] := by
  rw [linesAt, linesFrom_line]
  split <;> simp

theorem linesAt_blank (hp : startsWith p "" = false) : linesAt p headers [blank] = [] := by
  rw [linesAt, linesFrom_blank hp, List.filter_nil]

theorem linesAt_braced (hopening : startsWith p "\x7b" = false)
    (hclosing : startsWith p "\x7d" = false) (header : String) (body : List Fragment) :
    linesAt p headers [braced header body] = linesAt p headers [line header] := by
  have hinner :
      (linesFrom p (headers ++ [header]) body).filter (fun x => x.headers = headers) = [] := by
    rw [List.filter_eq_nil_iff]
    intro x hx heq
    have hlength := (prefix_of_mem_nestedAll (List.mem_filter.1 hx).1).length_le
    rw [of_decide_eq_true heq, List.length_append, List.length_singleton] at hlength
    omega
  rw [linesAt, linesFrom_braced hopening hclosing, List.filter_append, hinner, List.append_nil,
    linesAt]

/-! ## Items with their headers -/

mutual

/-- The items of a fragment below the given headers: a block has those of its body, a blank line has
none, and any other fragment is one itself. -/
def items (headers : List String) : Fragment → List (List String × Fragment)
  | blank => []
  | sequence [line header, block _ body _] => itemsAll (headers ++ [header]) body
  | f => [(headers, f)]

/-- The items of several fragments below the given headers. -/
def itemsAll (headers : List String) : List Fragment → List (List String × Fragment)
  | [] => []
  | f :: fs => f.items headers ++ itemsAll headers fs

end

theorem items_braced (headers : List String) (header : String) (body : List Fragment) :
    (braced header body).items headers = itemsAll (headers ++ [header]) body := rfl

theorem itemsAll_append (fs gs : List Fragment) :
    itemsAll headers (fs ++ gs) = itemsAll headers fs ++ itemsAll headers gs := by
  induction fs with
  | nil => rfl
  | cons f fs ih => rw [List.cons_append, itemsAll, itemsAll, ih, List.append_assoc]

theorem itemsAll_separated (fs : List Fragment) :
    itemsAll headers (separated fs) = itemsAll headers fs := by
  induction fs using separated.induct with
  | case1 => rfl
  | case2 f => rfl
  | case3 f fs hne ih =>
    obtain ⟨g, fs, rfl⟩ := List.exists_cons_of_ne_nil hne
    have hsplit : separated (f :: g :: fs) = f :: blank :: separated (g :: fs) := rfl
    rw [hsplit, itemsAll, itemsAll, ih, items, List.nil_append]
    rfl

end Fragment
end NativeBindings
