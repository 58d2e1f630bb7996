import LivingDoc.Proofs.Xml.Tree

/-!
The ways to write trees as XML text.

`Renders inside trees text` leaves open all that XML leaves open: blanks in tags and around them,
comments, whether a character that need not be escaped is, whether an element without children has
one tag or two, and what text stands inside the elements. Names are made of letters, attribute
values stand in double quotes, and text and comments hold no angle brackets.
-/

namespace LivingDoc.Xml

/-- A name made of ASCII letters. -/
def IsWord (name : List Char) : Prop :=
  name ≠ [] ∧ ∀ c ∈ name, c.isAlpha = true

instance (name : List Char) : Decidable (IsWord name) :=
  have : Decidable (∀ c ∈ name, c.isAlpha = true) := List.decidableBAll (·.isAlpha = true) name
  inferInstanceAs (Decidable (name ≠ [] ∧ ∀ c ∈ name, c.isAlpha = true))

/-- Whether a character may stand unescaped in the value of an attribute. -/
def standsInValue (c : Char) : Bool :=
  c != '&' && c != '"'

/-- Whether a character may stand unescaped in text between tags. -/
def standsInText (c : Char) : Bool :=
  c != '&' && c != '<' && c != '>'

/-- `Escapes stands content text`: `text` is `content` with characters written as themselves, where
they may, or as predefined entities. -/
inductive Escapes (stands : Char → Bool) : List Char → List Char → Prop
  | nil : Escapes stands [] []
  | plain {c : Char} {content text : List Char} :
    stands c = true → Escapes stands content text → Escapes stands (c :: content) (c :: text)
  | entity {name : List Char} {c : Char} {content text : List Char} :
    predefined? name = some c → Escapes stands content text →
    Escapes stands (c :: content) ('&' :: (name ++ ';' :: text))

/-- `RendersAttributes attributes text`: after the name of an element, `text` gives it these
attributes. -/
inductive RendersAttributes : List (List Char × List Char) → List Char → Prop
  | nil {gap : List Char} : Blanks gap → RendersAttributes [] gap
  | cons {gap key before after value written rest : List Char}
      {attributes : List (List Char × List Char)} :
    gap ≠ [] → Blanks gap → IsWord key → Blanks before → Blanks after →
    Escapes standsInValue value written → RendersAttributes attributes rest →
    RendersAttributes ((key, value) :: attributes)
      (gap ++ (key ++ (before ++ '=' :: (after ++ '"' :: (written ++ '"' :: rest)))))

/-- `IsRun inside run`: `run` may stand between two pieces of markup. Outside the root there are
blanks only, inside an element there is any text without angle brackets. -/
inductive IsRun : Bool → List Char → Prop
  | blanks {inside : Bool} {run : List Char} : Blanks run → IsRun inside run
  | text {content run : List Char} :
    (∀ c ∈ content, c ≠ '<' ∧ c ≠ '>') → Escapes standsInText content run → IsRun true run

/-- Whether a character may stand in a comment. -/
def standsInComment (c : Char) : Bool :=
  c != '&' && c != '<' && c != '>'

/-- `Renders inside trees text`: `text` is one way to write `trees` one after the other, `inside`
an element or outside all of them. -/
inductive Renders : Bool → List Tree → List Char → Prop
  | run {inside : Bool} {run : List Char} : IsRun inside run → Renders inside [] run
  | comment {inside : Bool} {run body text : List Char} {trees : List Tree} :
    IsRun inside run → (∀ c ∈ body, standsInComment c = true) → Renders inside trees text →
    Renders inside trees
      (run ++ '<' :: '!' :: '-' :: '-' :: (body ++ '-' :: '-' :: '>' :: text))
  | childless {inside : Bool} {run name written text : List Char}
      {attributes : List (List Char × List Char)} {trees : List Tree} :
    IsRun inside run → IsWord name → RendersAttributes attributes written →
    (attributes.map Prod.fst).Nodup → Renders inside trees text →
    Renders inside (⟨name, attributes, []⟩ :: trees)
      (run ++ '<' :: (name ++ (written ++ '/' :: '>' :: text)))
  | element {inside : Bool} {run name written inner gap text : List Char}
      {attributes : List (List Char × List Char)} {children trees : List Tree} :
    IsRun inside run → IsWord name → RendersAttributes attributes written →
    (attributes.map Prod.fst).Nodup → Renders true children inner → Blanks gap →
    Renders inside trees text →
    Renders inside (⟨name, attributes, children⟩ :: trees)
      (run ++ '<' :: (name ++ (written ++ '>' :: (inner ++
        '<' :: '/' :: (name ++ (gap ++ '>' :: text))))))

/-! ## Escaped text resolves -/

/-- There are five predefined entities. -/
theorem predefined?_cases {name : List Char} {c : Char} (h : predefined? name = some c) :
    (name = ['l', 't'] ∧ c = '<') ∨ (name = ['g', 't'] ∧ c = '>') ∨
      (name = ['a', 'm', 'p'] ∧ c = '&') ∨ (name = ['a', 'p', 'o', 's'] ∧ c = '\'') ∨
      (name = ['q', 'u', 'o', 't'] ∧ c = '"') := by
  rcases List.lookup_eq_some_iff.mp h with ⟨before, after, split, _⟩
  have member : (String.ofList name, c) ∈
      [("lt", '<'), ("gt", '>'), ("amp", '&'), ("apos", '\''), ("quot", '"')] := by
    rw [split]
    exact List.mem_append_right _ List.mem_cons_self
  have spelled : ∀ word : String, String.ofList name = word → name = word.toList := by
    rintro _ rfl
    simp
  simp only [List.mem_cons, Prod.mk.injEq, List.not_mem_nil, or_false] at member
  rcases member with ⟨word, rfl⟩ | ⟨word, rfl⟩ | ⟨word, rfl⟩ | ⟨word, rfl⟩ | ⟨word, rfl⟩
  · exact .inl ⟨spelled _ word, rfl⟩
  · exact .inr (.inl ⟨spelled _ word, rfl⟩)
  · exact .inr (.inr (.inl ⟨spelled _ word, rfl⟩))
  · exact .inr (.inr (.inr (.inl ⟨spelled _ word, rfl⟩)))
  · exact .inr (.inr (.inr (.inr ⟨spelled _ word, rfl⟩)))

/-- A predefined entity stands for its character. -/
theorem standsFor_of_predefined {name : List Char} {c : Char} (h : predefined? name = some c) :
    (∀ d ∈ name, endsName d = false) ∧ StandsFor name c := by
  have noNumber : ∀ digits, name ≠ '#' :: digits := by
    rcases predefined?_cases h with ⟨rfl, _⟩ | ⟨rfl, _⟩ | ⟨rfl, _⟩ | ⟨rfl, _⟩ | ⟨rfl, _⟩ <;>
      intro digits same <;> cases same
  refine ⟨?_, ?_⟩
  · rcases predefined?_cases h with ⟨rfl, _⟩ | ⟨rfl, _⟩ | ⟨rfl, _⟩ | ⟨rfl, _⟩ | ⟨rfl, _⟩ <;>
      simp [endsName]
  · unfold StandsFor resolve
    split
    · next digits => exact (noNumber digits rfl).elim
    · rw [h]

theorem Escapes.resolves {stands : Char → Bool} (noReference : stands '&' = false)
    {content text : List Char} (escapes : Escapes stands content text) :
    Resolves text content := by
  induction escapes with
  | nil => exact .nil
  | @plain c content text mayStand _ ih =>
      refine .plain ?_ ih
      rintro rfl
      rw [noReference] at mayStand
      cases mayStand
  | @entity name c content text isEntity _ ih =>
      obtain ⟨inName, stands⟩ := standsFor_of_predefined isEntity
      exact .reference inName stands ih

/-- A character that may not stand, and is no part of an entity, does not occur. -/
theorem Escapes.not_mem {stands : Char → Bool} {c : Char} (noPlace : stands c = false)
    (other : c ∉ "&ltgampos;qu".toList) {content text : List Char}
    (escapes : Escapes stands content text) : c ∉ text := by
  induction escapes with
  | nil => exact List.not_mem_nil
  | @plain d content text mayStand _ ih =>
      rw [List.mem_cons]
      intro h
      rcases h with rfl | member
      · rw [noPlace] at mayStand
        cases mayStand
      · exact ih member
  | @entity name d content text isEntity _ ih =>
      have inNames : '&' :: (name ++ [';']) ⊆ "&ltgampos;qu".toList := by
        rcases predefined?_cases isEntity with
          ⟨rfl, _⟩ | ⟨rfl, _⟩ | ⟨rfl, _⟩ | ⟨rfl, _⟩ | ⟨rfl, _⟩ <;> decide
      have whole : '&' :: (name ++ ';' :: text) = '&' :: (name ++ [';']) ++ text := by simp
      rw [whole, List.mem_append]
      intro h
      rcases h with member | member
      · exact other (inNames member)
      · exact ih member

end LivingDoc.Xml
