import Mathlib.Logic.Relation
import ScriptFold.Proofs.LoadedLibrary
import ScriptFold.Proofs.Placing
import ScriptFold.Proofs.Results
import ScriptFold.Proofs.Structure

/-!
# References in place

A reference among the elements of a template does in its place what the elements of the template
referred to do there: it consumes what they consume and is written as they are. It is only when its
match is the whole answer that a template says where in the sequence it sat, and elements that come
later do not look at that. So elements can be exchanged for alike ones (`Element.Alike`), and
writing references out one after the other ends at a template without any (`Template.flat`) that
does the same.
-/

namespace ScriptFold

/-! ## Elements that do alike -/

namespace Element

/-- Two lists of elements leave the same of every sequence, are written alike under all bindings and
stand for as many lines. -/
structure Alike (es fs : List Element) : Prop where
  consumed : ∀ s b, Element.consume fs s b = Element.consume es s b
  written : ∀ b, Element.formatAll fs b = Element.formatAll es b
  size : Element.lineCounts fs = Element.lineCounts es

/-- Elements one behind the other: the second take from what the first leave, with the bindings of
these. -/
theorem consume_append (es fs : List Element) (s : List Item) (b : Bindings) :
    Element.consume (es ++ fs) s b =
      (Element.consume es s b).bind fun found => Element.consume fs found.1 found.2 := by
  induction es generalizing s b with
  | nil => rfl
  | cons e es ih =>
    rw [List.cons_append, consume_cons, consume_cons]
    cases e.matchIn s b with
    | none => rfl
    | some m => exact ih m.remaining m.bindings

theorem lineCounts_append (es fs : List Element) :
    Element.lineCounts (es ++ fs) = Element.lineCounts es + Element.lineCounts fs := by
  induction es with
  | nil => rw [List.nil_append, Element.lineCounts, Nat.zero_add]
  | cons e es ih => rw [List.cons_append, Element.lineCounts, Element.lineCounts, ih, Nat.add_assoc]

namespace Alike

variable {es fs gs hs : List Element}

theorem refl (es : List Element) : Alike es es :=
  ⟨fun _ _ => rfl, fun _ => rfl, rfl⟩

theorem trans (h : Alike es fs) (h' : Alike fs gs) : Alike es gs where
  consumed s b := (h'.consumed s b).trans (h.consumed s b)
  written b := (h'.written b).trans (h.written b)
  size := h'.size.trans h.size

/-- What is alike stays so with alike elements behind it. -/
theorem append (h : Alike es fs) (h' : Alike gs hs) : Alike (es ++ gs) (fs ++ hs) where
  consumed s b := by
    rw [consume_append, consume_append, h.consumed]
    simp only [h'.consumed]
  written b := by
    rw [formatAll_append, formatAll_append, h.written, h'.written]
  size := by
    rw [lineCounts_append, lineCounts_append, h.size, h'.size]

/-- A reference does as the elements of its template. -/
theorem template (u : Template) : Alike [.template u] u.elements where
  consumed s b := by
    rw [consume_cons, matchIn_template, Template.matchIn_eq]
    cases Element.consume u.elements s b with
    | none => rfl
    | some found =>
      show _ = Element.consume [] (Match.place s found.1 found.2).remaining found.2
      rw [Match.remaining_place, Element.consume]
  written b := by
    rw [Element.formatAll, Element.formatAll, format_template]
    exact (append_nil_result _).symm
  size := by
    cases u
    rw [Element.lineCounts, Element.lineCounts, Element.lineCount, Template.lineCount, Nat.add_zero]

end Alike

end Element

/-! ## Templates that do alike -/

namespace Template

/-- Two templates have the same match in every sequence under all bindings, are written alike under
all bindings and stand for as many lines. -/
structure Agrees (t t' : Template) : Prop where
  matched : ∀ s b, t'.matchIn s b = t.matchIn s b
  written : ∀ b, t'.format b = t.format b
  size : t'.lineCount = t.lineCount

theorem Agrees.refl (t : Template) : t.Agrees t :=
  ⟨fun _ _ => rfl, fun _ => rfl, rfl⟩

theorem Agrees.trans {t t' t'' : Template} (h : t.Agrees t') (h' : t'.Agrees t'') :
    t.Agrees t'' where
  matched s b := (h'.matched s b).trans (h.matched s b)
  written b := (h'.written b).trans (h.written b)
  size := h'.size.trans h.size

/-- Templates with elements that are alike agree, whatever their names. -/
theorem Agrees.of_alike {t t' : Template} (h : Element.Alike t.elements t'.elements) :
    t.Agrees t' where
  matched s b := by rw [matchIn_eq, matchIn_eq, h.consumed]
  written b := by rw [format_eq, format_eq, h.written]
  size := by
    cases t
    cases t'
    rw [lineCount, lineCount]
    exact h.size

/-- The template with the element at a position replaced in place by the elements of another
template. -/
def inlineAt (t : Template) (k : Nat) (u : Template) : Template :=
  { t with elements := t.elements.take k ++ u.elements ++ t.elements.drop (k + 1) }

/-- One template is another one with a reference replaced by the elements of its template. -/
def Inlines (t t' : Template) : Prop :=
  ∃ k u, t.elements[k]? = some (.template u) ∧ t' = t.inlineAt k u

/-- A template agrees with the one that has the elements of a reference in its place. -/
theorem agrees_inlineAt {t u : Template} {k : Nat} (h : t.elements[k]? = some (.template u)) :
    t.Agrees (t.inlineAt k u) := by
  have hk : t.elements = t.elements.take k ++ [.template u] ++ t.elements.drop (k + 1) := by
    obtain ⟨hlt, he⟩ := List.getElem?_eq_some_iff.1 h
    rw [List.append_assoc, List.singleton_append, ← he, ← List.drop_eq_getElem_cons hlt,
      List.take_append_drop]
  apply Agrees.of_alike
  conv_lhs => rw [hk]
  exact ((Element.Alike.refl _).append (.template u)).append (.refl _)

end Template

/-! ## Without references -/

mutual

/-- The elements an element consists of when references are replaced, also in what replaces
them. -/
def Element.flat : Element → List Element
  | .line p => [.line p]
  | .group members => [.group members]
  | .template ⟨_, _, elements⟩ => Element.flatAll elements

/-- The elements that elements consist of. -/
def Element.flatAll : List Element → List Element
  | [] => []
  | e :: es => e.flat ++ Element.flatAll es

end

theorem Element.ne_template_of_mem_flatAll {elements : List Element}
    (each : ∀ e ∈ elements, ∀ f ∈ e.flat, ∀ u, f ≠ .template u) :
    ∀ f ∈ Element.flatAll elements, ∀ u, f ≠ .template u := by
  induction elements with
  | nil =>
    rw [Element.flatAll]
    exact List.forall_mem_nil _
  | cons e es ih =>
    rw [List.forall_mem_cons] at each
    rw [Element.flatAll, List.forall_mem_append]
    exact ⟨each.1, ih each.2⟩

/-- Nothing that an element is flattened to is a template. -/
theorem Element.ne_template_of_mem_flat (e : Element) : ∀ f ∈ e.flat, ∀ u, f ≠ .template u := by
  induction e using Element.induction with
  | line p =>
    rw [Element.flat, List.forall_mem_singleton]
    exact fun _ => Element.noConfusion
  | group members ih =>
    rw [Element.flat, List.forall_mem_singleton]
    exact fun _ => Element.noConfusion
  | template t ih =>
    cases t
    rw [Element.flat]
    exact Element.ne_template_of_mem_flatAll ih

/-- Elements are alike with what they are flattened to if each of them is. -/
theorem Element.alike_flatAll {elements : List Element}
    (each : ∀ e ∈ elements, Element.Alike [e] e.flat) :
    Element.Alike elements (Element.flatAll elements) := by
  induction elements with
  | nil =>
    rw [Element.flatAll]
    exact .refl []
  | cons e es ih =>
    rw [List.forall_mem_cons] at each
    rw [Element.flatAll]
    exact each.1.append (ih each.2)

/-- An element does as the elements it consists of. -/
theorem Element.alike_flat (e : Element) : Element.Alike [e] e.flat := by
  induction e using Element.induction with
  | line p =>
    rw [Element.flat]
    exact .refl _
  | group members ih =>
    rw [Element.flat]
    exact .refl _
  | template t ih =>
    have ht : (Element.template t).flat = Element.flatAll t.elements := by
      cases t
      rw [Element.flat]
    rw [ht]
    exact (Element.Alike.template t).trans (Element.alike_flatAll ih)

namespace Template

/-- The template with all references replaced, also in what replaces them. -/
def flat (t : Template) : Template :=
  { t with elements := Element.flatAll t.elements }

/-- Elements are flattened in place, one reference after the other, if each of them is. -/
theorem inlines_flatAll {elements : List Element} (name : String) (kind : Kind)
    (each : ∀ e ∈ elements, ∀ before after : List Element, Relation.ReflTransGen Inlines
      ⟨name, kind, before ++ e :: after⟩ ⟨name, kind, before ++ (e.flat ++ after)⟩)
    (before after : List Element) :
    Relation.ReflTransGen Inlines ⟨name, kind, before ++ (elements ++ after)⟩
      ⟨name, kind, before ++ (Element.flatAll elements ++ after)⟩ := by
  induction elements generalizing before with
  | nil => rw [Element.flatAll]
  | cons e es ih =>
    rw [List.forall_mem_cons] at each
    have hrest := ih each.2 (before ++ e.flat)
    simp only [List.append_assoc] at hrest
    rw [Element.flatAll, List.append_assoc]
    exact (each.1 before (es ++ after)).trans hrest

/-- An element is flattened in place, one reference after the other. -/
theorem inlines_flat (name : String) (kind : Kind) (e : Element) (before after : List Element) :
    Relation.ReflTransGen Inlines ⟨name, kind, before ++ e :: after⟩
      ⟨name, kind, before ++ (e.flat ++ after)⟩ := by
  induction e using Element.induction generalizing before after with
  | line p => rw [Element.flat, List.singleton_append]
  | group members ih => rw [Element.flat, List.singleton_append]
  | template u ih =>
    have hstep : Inlines ⟨name, kind, before ++ .template u :: after⟩
        ⟨name, kind, before ++ (u.elements ++ after)⟩ := by
      refine ⟨before.length, u, by simp, ?_⟩
      simp [inlineAt]
    have hrest := inlines_flatAll name kind ih before after
    cases u
    rw [Element.flat]
    exact .head hstep hrest

/-- Replacing references one after the other keeps agreeing. -/
theorem Agrees.of_inlines {t t' : Template} (h : Relation.ReflTransGen Inlines t t') :
    t.Agrees t' := by
  induction h with
  | refl => exact .refl t
  | tail _ hstep ih =>
    obtain ⟨k, u, hk, rfl⟩ := hstep
    exact ih.trans (agrees_inlineAt hk)

/-- A reference means its template in place: with a reference replaced by the elements of its
template a template matches, is written and counts its lines as before. So does the template that
is left without references when they were replaced one after the other. -/
theorem agrees_inline (t : Template) :
    (∀ k u, t.elements[k]? = some (.template u) → t.Agrees (t.inlineAt k u)) ∧
      Relation.ReflTransGen Inlines t t.flat ∧
      (∀ e ∈ t.flat.elements, ∀ u, e ≠ .template u) ∧ t.Agrees t.flat := by
  have hflat : Relation.ReflTransGen Inlines t t.flat := by
    obtain ⟨name, kind, elements⟩ := t
    have heach : ∀ e ∈ elements, ∀ before after : List Element,
        Relation.ReflTransGen Inlines ⟨name, kind, before ++ e :: after⟩
          ⟨name, kind, before ++ (e.flat ++ after)⟩ :=
      fun e _ before after => inlines_flat name kind e before after
    have hall := inlines_flatAll name kind heach [] []
    rw [List.append_nil, List.append_nil] at hall
    exact hall
  refine ⟨fun k u hk => agrees_inlineAt hk, hflat, ?_, .of_inlines hflat⟩
  exact Element.ne_template_of_mem_flatAll fun e _ => e.ne_template_of_mem_flat

/-- The reference of the largest template of the sample is to a template of one line, which is all
that has to be replaced; the one in its group stays. -/
theorem agrees_inline_sample :
    Sample.wand.elements[1]? = some (.template Sample.ready) ∧
      Sample.wand.inlineAt 1 Sample.ready = Sample.wand.flat ∧
      Sample.wand.Agrees (Sample.wand.inlineAt 1 Sample.ready) := by
  have hk : Sample.wand.elements[1]? = some (.template Sample.ready) := rfl
  exact ⟨hk, rfl, (agrees_inline Sample.wand).1 1 Sample.ready hk⟩

end Template

end ScriptFold
