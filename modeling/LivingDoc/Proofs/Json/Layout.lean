import LivingDoc.Proofs.Json.Reading

/-!
Values that are laid out over lines.

A layout spells the tokens of its value: it adds blanks to them, and what follows a number is never
part of one. So a value is read back from its layout, and no two values have the same.
-/

namespace LivingDoc.Json

/-! ## What follows a value -/

/-- Blanks in front of a text do not count. -/
theorem Spells.newLine (level : Nat) {text : List Char} {tokens : List Token}
    (spells : Spells text tokens) : Spells (newLine level ++ text) tokens := by
  refine .blank rfl ?_
  induction 2 * level with
  | zero => exact spells
  | succ n ih => exact .blank rfl ih

theorem stops_layOutItems (level : Nat) (items : List Json) (text : List Char) :
    Numeral.Stops (layOutItems level items ++ text) := by
  cases items <;>
    · intro c first
      cases first
      rfl

theorem stops_layOutMembers (level : Nat) (members : List (Option String × Json))
    (text : List Char) : Numeral.Stops (layOutMembers level members ++ text) := by
  cases members <;>
    · intro c first
      cases first
      rfl

/-! ## Tokens -/

mutual

/-- **A layout spells the tokens of its value**, at every level. -/
theorem spells_layOut (level : Nat) (value : Json) (spelled : value.IsSpelled)
    {text : List Char} {rest : List Token} (stops : Numeral.Stops text)
    (spells : Spells text rest) : Spells (layOut level value ++ text) (value.tokens ++ rest) := by
  unfold IsSpelled at spelled
  cases value with
  | num n =>
      rw [layOut, tokens]
      exact .token (Token.writtenAs_text (spelled _ List.mem_cons_self)) (fun _ => stops) spells
  | list items =>
      cases items with
      | nil => exact .mark .openList rfl (.mark .closeList rfl spells)
      | cons item items =>
          rw [tokens, List.forall_mem_cons, List.forall_mem_append] at spelled
          simp only [layOut, tokens, List.append_assoc, List.cons_append]
          exact .mark .openList rfl (.newLine _ (spells_layOut (level + 1) item spelled.2.1
            (stops_layOutItems level items text) (spells_layOutItems level items spelled.2.2
              spells)))
  | object members =>
      cases members with
      | nil => exact .mark .openObject rfl (.mark .closeObject rfl spells)
      | cons member members =>
          obtain ⟨key, value⟩ := member
          simp only [tokens, List.forall_mem_cons, List.forall_mem_append] at spelled
          simp only [layOut, tokens, List.append_assoc, List.cons_append]
          exact .mark .openObject rfl (.newLine _ (.mark (.str key) rfl (.mark .colon rfl
            (.blank rfl (spells_layOut (level + 1) value spelled.2.2.2.1
              (stops_layOutMembers level members text)
              (spells_layOutMembers level members spelled.2.2.2.2 spells))))))
  | null => exact .mark .null rfl spells
  | bool b => exact .mark (.bool b) rfl spells
  | str s => exact .mark (.str s) rfl spells

/-- The same for what follows the first item of a list. -/
theorem spells_layOutItems (level : Nat) (items : List Json)
    (spelled : ∀ token ∈ itemTokens items, token.IsSpelled) {text : List Char} {rest : List Token}
    (spells : Spells text rest) :
    Spells (layOutItems level items ++ text) (itemTokens items ++ rest) := by
  cases items with
  | nil =>
      rw [layOutItems, List.append_assoc]
      exact .newLine level (.mark .closeList rfl spells)
  | cons item items =>
      rw [itemTokens, List.forall_mem_cons, List.forall_mem_append] at spelled
      simp only [layOutItems, itemTokens, List.append_assoc, List.cons_append]
      exact .mark .comma rfl (.newLine _ (spells_layOut (level + 1) item spelled.2.1
        (stops_layOutItems level items text) (spells_layOutItems level items spelled.2.2 spells)))

/-- The same for what follows the first member of an object. -/
theorem spells_layOutMembers (level : Nat) (members : List (Option String × Json))
    (spelled : ∀ token ∈ memberTokens members, token.IsSpelled) {text : List Char}
    {rest : List Token} (spells : Spells text rest) :
    Spells (layOutMembers level members ++ text) (memberTokens members ++ rest) := by
  cases members with
  | nil =>
      rw [layOutMembers, List.append_assoc]
      exact .newLine level (.mark .closeObject rfl spells)
  | cons member members =>
      obtain ⟨key, value⟩ := member
      simp only [memberTokens, List.forall_mem_cons, List.forall_mem_append] at spelled
      simp only [layOutMembers, memberTokens, List.append_assoc, List.cons_append]
      exact .mark .comma rfl (.newLine _ (.mark (.str key) rfl (.mark .colon rfl (.blank rfl
        (spells_layOut (level + 1) value spelled.2.2.2.1 (stops_layOutMembers level members text)
          (spells_layOutMembers level members spelled.2.2.2.2 spells))))))

end

/-! ## Reading a layout -/

/-- **A value is read back from its layout.** -/
theorem parse?_pretty {value : Json} (spelled : value.IsSpelled) :
    parse? value.pretty = some value := by
  refine Spells.parse?_eq ?_
  have spells : Spells (layOut 0 value ++ []) (value.tokens ++ []) :=
    spells_layOut 0 value spelled nofun .nil
  rw [List.append_nil, List.append_nil] at spells
  rw [pretty, String.toList_ofList]
  exact spells

theorem exists_layOutMembers (level : Nat) (members : List (Option String × Json)) :
    ∃ inner, layOutMembers level members = inner ++ ['}'] := by
  induction members with
  | nil => exact ⟨newLine level, rfl⟩
  | cons member members ih =>
      obtain ⟨inner, closed⟩ := ih
      refine ⟨',' :: (newLine (level + 1) ++ (Quoted.text member.1
        ++ (':' :: ' ' :: (layOut (level + 1) member.2 ++ inner)))), ?_⟩
      simp only [layOutMembers, closed, List.append_assoc, List.cons_append]

/-- The layout of an object reaches from brace to brace. -/
theorem exists_pretty_object (members : List (Option String × Json)) :
    ∃ inner, (object members).pretty = "\x7b" ++ inner ++ "\x7d" := by
  have braces : ∃ inner, layOut 0 (object members) = '{' :: (inner ++ ['}']) := by
    cases members with
    | nil => exact ⟨[], rfl⟩
    | cons member members =>
        obtain ⟨inner, closed⟩ := exists_layOutMembers 0 members
        refine ⟨newLine 1 ++ (Quoted.text member.1
          ++ (':' :: ' ' :: (layOut 1 member.2 ++ inner))), ?_⟩
        simp only [layOut, closed, List.append_assoc, List.cons_append]
  obtain ⟨inner, whole⟩ := braces
  refine ⟨String.ofList inner, ?_⟩
  rw [pretty, whole]
  apply String.toList_inj.mp
  simp

end LivingDoc.Json
