import LivingDoc.Gherkin.Interpretation
import LivingDoc.Proofs.Except

/-!
What a behaviour description and the feature it describes have in common.

Elements keep the names and tags of the children that describe them, come in the same order, and all
name the one feature they belong to. Reports are searched by nothing else.
-/

namespace LivingDoc.Gherkin

/-! ## Steps -/

/-- The text and the table that a step is given; at least one of them is absent. -/
def Step.given (step : Step) : Except MappingFault (Option String × Option Table) :=
  match step.argument with
  | none => .ok (none, none)
  | some argument => argument.interpret

/-- A step has a meaning in two stages: what it is given, and its keyword. -/
theorem Step.interpret_eq (language : Language) (step : Step) :
    step.interpret language = step.given >>= fun given =>
      language.keyword step.keyword >>= fun keyword =>
        .ok ⟨step.keyword, keyword, step.text, given.1, given.2⟩ := by
  unfold interpret given
  cases step.argument <;> rfl

/-! ## Children and elements -/

/-- `Describes featureName child element`: up to its steps and examples, `element` is what `child`
says, as an element of the named feature. -/
inductive Describes (featureName : String) : Definition → Element → Prop
  | scenario {child : Scenario} {element : LivingDoc.Scenario} :
    element.name = child.name → element.tags = child.tags → element.featureName = featureName →
    Describes featureName (.scenario child) (.scenario element)
  | outline {child : Outline} {element : LivingDoc.Outline} :
    element.name = child.name → element.tags = child.tags → element.featureName = featureName →
    Describes featureName (.outline child) (.outline element)

theorem describes_of_interpret {language : Language} {featureName : String} {child : Definition}
    {element : Element} (h : child.interpret language featureName = .ok element) :
    Describes featureName child element := by
  cases child with
  | background child => cases h
  | scenario child =>
      rcases bind_eq_ok_iff.mp h with ⟨scenario, interpreted, h⟩
      rcases bind_eq_ok_iff.mp interpreted with ⟨steps, _, interpreted⟩
      cases h
      cases interpreted
      exact .scenario rfl rfl rfl
  | outline child =>
      rcases bind_eq_ok_iff.mp h with ⟨outline, interpreted, h⟩
      rcases bind_eq_ok_iff.mp interpreted with ⟨steps, _, interpreted⟩
      rcases bind_eq_ok_iff.mp interpreted with ⟨examples, _, interpreted⟩
      cases h
      cases interpreted
      exact .outline rfl rfl rfl

/-- The part of a feature that a child becomes: none of its elements for a background, and for all
other children the element they describe. -/
theorem getRight?_of_part {language : Language} {featureName : String} {child : Definition}
    {part : Part} (h : child.part language featureName = .ok part) :
    ((∃ background, child = .background background) ∧ part.getRight? = none) ∨
      ∃ element, Describes featureName child element ∧ part.getRight? = some element := by
  cases child with
  | background child =>
      rcases bind_eq_ok_iff.mp h with ⟨scenario, _, h⟩
      cases h
      exact .inl ⟨⟨child, rfl⟩, rfl⟩
  | scenario child =>
      rcases bind_eq_ok_iff.mp h with ⟨element, interpreted, h⟩
      cases h
      exact .inr ⟨element, describes_of_interpret interpreted, rfl⟩
  | outline child =>
      rcases bind_eq_ok_iff.mp h with ⟨element, interpreted, h⟩
      cases h
      exact .inr ⟨element, describes_of_interpret interpreted, rfl⟩

/-- What can be told of each child, and of the element that it describes, makes the same list. -/
theorem map_getRight? {language : Language} {featureName : String} {children : List Definition}
    {parts : List Part} {α : Type} {ofElement : Element → α} {ofChild : Definition → Option α}
    (pairs : List.Forall₂ (fun child part => child.part language featureName = .ok part)
      children parts)
    (background : ∀ content, ofChild (.background content) = none)
    (same : ∀ child ∈ children, ∀ element, Describes featureName child element →
      ofChild child = some (ofElement element)) :
    (parts.filterMap Sum.getRight?).map ofElement = children.filterMap ofChild := by
  induction pairs with
  | nil => rfl
  | @cons child part children parts first _ ih =>
      have tail := ih fun other member => same other (List.mem_cons_of_mem _ member)
      rcases getRight?_of_part first with ⟨⟨content, rfl⟩, none⟩ | ⟨element, describes, some⟩
      · rw [List.filterMap_cons_none none, List.filterMap_cons_none (background content), tail]
      · have matched := same child List.mem_cons_self element describes
        rw [List.filterMap_cons_some some, List.filterMap_cons_some matched, List.map_cons, tail]

namespace Feature

variable {language : Language} {raw : Feature} {feature : LivingDoc.Feature}

theorem interpret_eq_ok (h : raw.interpret language = .ok feature) :
    feature.name = raw.name ∧ ∃ parts,
      List.Forall₂ (fun child part => child.part language raw.name = .ok part) raw.children parts ∧
        feature.elements = parts.filterMap Sum.getRight? := by
  rcases bind_eq_ok_iff.mp h with ⟨parts, interpreted, h⟩
  cases h
  exact ⟨rfl, parts, mapM_eq_ok_iff.mp interpreted, rfl⟩

/-- **Children and elements correspond**: a background describes no element, and all other children
describe one each, in their order. -/
theorem map_elements {α : Type} {ofElement : Element → α} {ofChild : Definition → Option α}
    (h : raw.interpret language = .ok feature)
    (background : ∀ content, ofChild (.background content) = none)
    (same : ∀ child ∈ raw.children, ∀ element, Describes raw.name child element →
      ofChild child = some (ofElement element)) :
    feature.elements.map ofElement = raw.children.filterMap ofChild := by
  obtain ⟨_, parts, pairs, split⟩ := interpret_eq_ok h
  rw [split]
  exact map_getRight? pairs background same

end Feature
end LivingDoc.Gherkin
