import LivingDoc.Proofs.Xml.Attributes
import LivingDoc.Xml.Token

/-!
Elements as trees, and the tokens that spell them.

Text is not kept in a tree: what a text says is of no account to the records, but wherever it stands
inside an element its references have to resolve. `Spells` relates trees and tokens, and `Nested`
says which elements a run of tokens leaves open. The reader returns nested tokens only, because it
checks the name of every closing tag; `Nested.split` finds the end of an element among them.
-/

namespace LivingDoc.Xml

/-- An element: its name, its attributes with their values resolved, and the elements inside it. -/
structure Tree where
  name : List Char
  attributes : List (List Char × List Char)
  children : List Tree

/-- Whether a token stands beside the elements: a comment, a document type or an instruction. -/
def Token.isAside : Token → Bool
  | .comment _ => true
  | .doctype _ => true
  | .instruction _ => true
  | _ => false

/-- `Spells inside trees tokens`: `tokens` are those of `trees` one after the other, with markup
beside them. Between the elements there may be text only if all of them are `inside` another one. -/
inductive Spells : Bool → List Tree → List Token → Prop
  | nil {inside : Bool} : Spells inside [] []
  | aside {inside : Bool} {trees : List Tree} {tokens : List Token} {token : Token} :
    token.isAside = true → Spells inside trees tokens → Spells inside trees (token :: tokens)
  | text {trees : List Tree} {tokens : List Token} {written content : List Char} :
    Resolves written content → Spells true trees tokens →
    Spells true trees (.text written :: tokens)
  | cdata {trees : List Tree} {tokens : List Token} {content : List Char} :
    Spells true trees tokens → Spells true trees (.cdata content :: tokens)
  | empty {inside : Bool} {trees : List Tree} {tokens : List Token} {tag : Tag}
      {attributes : List (List Char × List Char)} :
    tag.Holds attributes → Spells inside trees tokens →
    Spells inside (⟨tag.name, attributes, []⟩ :: trees) (.empty tag :: tokens)
  | element {inside : Bool} {trees children : List Tree} {inner tokens : List Token} {tag : Tag}
      {attributes : List (List Char × List Char)} :
    tag.Holds attributes → Spells true children inner → Spells inside trees tokens →
    Spells inside (⟨tag.name, attributes, children⟩ :: trees)
      (.start tag :: (inner ++ .close tag.name :: tokens))

/-! ## Open elements -/

/-- Whether a token neither opens an element nor closes one. -/
def Token.isLevel : Token → Bool
  | .start _ => false
  | .close _ => false
  | _ => true

/-- `Nests names token left`: where the elements `names` are open, innermost first, `token` may
come, and then the elements `left` are open. -/
inductive Nests : List (List Char) → Token → List (List Char) → Prop
  | start {names : List (List Char)} (tag : Tag) : Nests names (.start tag) (tag.name :: names)
  | close {names : List (List Char)} (name : List Char) : Nests (name :: names) (.close name) names
  | level {names : List (List Char)} {token : Token} :
    token.isLevel = true → Nests names token names

/-- `Nested names tokens left`: `tokens` may come one after the other where the elements `names` are
open, and leave the elements `left` open. -/
inductive Nested : List (List Char) → List Token → List (List Char) → Prop
  | nil {names : List (List Char)} : Nested names [] names
  | cons {names middle left : List (List Char)} {token : Token} {tokens : List Token} :
    Nests names token middle → Nested middle tokens left → Nested names (token :: tokens) left

/-- **The end of an element.** Where tokens leave nothing open, any open element is closed by one of
them: those before it leave nothing open that was opened inside, and those after it nothing that is
open outside. -/
theorem Nested.split {inner outer : List (List Char)} {name : List Char} {tokens : List Token}
    (nested : Nested (inner ++ name :: outer) tokens []) :
    ∃ before after, tokens = before ++ .close name :: after ∧
      Nested inner before [] ∧ Nested outer after [] := by
  generalize hopen : inner ++ name :: outer = names at nested
  generalize hleft : [] = left at nested
  induction nested generalizing inner with
  | nil =>
      subst hleft
      simp at hopen
  | @cons names middle left token tokens first rest ih =>
      subst hleft
      cases first with
      | start tag =>
          subst hopen
          obtain ⟨before, after, rfl, inside, outside⟩ := @ih (tag.name :: inner) rfl rfl
          exact ⟨.start tag :: before, after, rfl, .cons (.start tag) inside, outside⟩
      | close found =>
          cases inner with
          | nil =>
              obtain ⟨rfl, rfl⟩ := List.cons.inj hopen
              exact ⟨[], tokens, rfl, .nil, rest⟩
          | cons first inner =>
              obtain ⟨rfl, rfl⟩ := List.cons.inj hopen
              obtain ⟨before, after, rfl, inside, outside⟩ := ih rfl rfl
              exact ⟨.close first :: before, after, rfl, .cons (.close first) inside, outside⟩
      | level isLevel =>
          subst hopen
          obtain ⟨before, after, rfl, inside, outside⟩ := ih rfl rfl
          exact ⟨token :: before, after, rfl, .cons (.level isLevel) inside, outside⟩

/-! ## The reader -/

theorem nests_of_takeComment {position : Nat} {names left : List (List Char)}
    {text rest : List Char} {token : Token}
    (h : takeComment position names text = .ok (token, left, rest)) : Nests names token left := by
  unfold takeComment at h
  split at h
  · split at h
    · cases h
      exact .level rfl
    · cases h
  · cases h

theorem nests_of_takeCdata {position : Nat} {names left : List (List Char)}
    {text rest : List Char} {token : Token}
    (h : takeCdata position names text = .ok (token, left, rest)) : Nests names token left := by
  unfold takeCdata at h
  split at h
  · split at h
    · cases h
      exact .level rfl
    · cases h
  · cases h

theorem nests_of_takeDoctype {total position : Nat} {names left : List (List Char)}
    {text rest : List Char} {token : Token}
    (h : takeDoctype total position names text = .ok (token, left, rest)) :
    Nests names token left := by
  unfold takeDoctype at h
  split at h
  · cases h
  · split at h
    · split at h
      · cases h
      · cases h
        exact .level rfl
    · cases h

theorem nests_of_takeInstruction {position : Nat} {names left : List (List Char)}
    {text rest : List Char} {token : Token}
    (h : takeInstruction position names text = .ok (token, left, rest)) :
    Nests names token left := by
  unfold takeInstruction at h
  split at h
  · cases h
    exact .level rfl
  · cases h

theorem nests_of_takeClosing {position : Nat} {names left : List (List Char)}
    {text rest : List Char} {token : Token}
    (h : takeClosing position names text = .ok (token, left, rest)) : Nests names token left := by
  unfold takeClosing at h
  split at h
  · cases h
  · dsimp only at h
    split at h
    · cases h
    · split at h
      · next same =>
        cases h
        rw [same]
        exact .close _
      · cases h

theorem nests_of_takeOpening {position : Nat} {names left : List (List Char)}
    {text rest : List Char} {token : Token}
    (h : takeOpening position names text = .ok (token, left, rest)) : Nests names token left := by
  unfold takeOpening at h
  split at h
  · cases h
  · split at h
    · cases h
      exact .level rfl
    · cases h
      exact .start _

theorem nests_of_takeMarkup {total position : Nat} {names left : List (List Char)}
    {text rest : List Char} {token : Token}
    (h : takeMarkup total position names text = .ok (token, left, rest)) :
    Nests names token left := by
  unfold takeMarkup at h
  split at h
  · exact nests_of_takeCdata h
  · exact nests_of_takeComment h
  · exact nests_of_takeDoctype h
  · exact nests_of_takeDoctype h
  · cases h
  · exact nests_of_takeClosing h
  · exact nests_of_takeInstruction h
  · exact nests_of_takeOpening h

/-- The reader keeps count of the open elements. -/
theorem nests_of_take {total : Nat} {names left : List (List Char)} {text rest : List Char}
    {token : Token} (h : take total names text = .ok (some (token, left, rest))) :
    Nests names token left := by
  unfold take at h
  split at h
  · cases h
  · rcases map_eq_ok_iff.mp h with ⟨piece, taken, same⟩
    cases same
    exact nests_of_takeMarkup taken
  · cases h
    exact .level rfl

/-- Whatever fault ends it, what the reader returns is nested. -/
theorem exists_nested_readFrom (total : Nat) (names : List (List Char)) (text : List Char) :
    ∃ left, Nested names (readFrom total names text).items left := by
  fun_induction readFrom total names text with
  | case1 names => exact ⟨names, .nil⟩
  | case2 names => exact ⟨names, .nil⟩
  | case3 names text token middle rest taken ih =>
      obtain ⟨left, nested⟩ := ih
      exact ⟨left, .cons (nests_of_take taken) nested⟩

/-- What the reader returns of a whole text is nested. -/
theorem exists_nested_read (text : List Char) :
    ∃ left, Nested [] (read text).items left :=
  exists_nested_readFrom _ _ _

end LivingDoc.Xml
