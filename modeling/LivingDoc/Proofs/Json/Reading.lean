import LivingDoc.Json.Printer
import LivingDoc.Proofs.Json.Scanning

/-!
Values are read from the tokens they are made of, and so from every text that spells these tokens.
-/

namespace LivingDoc.Json

/-! ## From tokens to values -/

namespace Reading

/-- A value begins with a token that does not end a list, so it may come first in one. -/
theorem foldlM_firstItem (value : Json) (around : List Frame) :
    value.tokens.foldlM step? (.firstItem around) =
      value.tokens.foldlM step? (.value (.list [] :: around)) := by
  cases value with
  | list items => cases items <;> rfl
  | object members => cases members <;> rfl
  | _ => rfl

mutual

/-- The tokens of a value complete it. -/
theorem foldlM_tokens (value : Json) (around : List Frame) :
    value.tokens.foldlM step? (.value around) = some (.complete value around) := by
  cases value with
  | list items =>
      cases items with
      | nil => rfl
      | cons item items =>
          change (item.tokens ++ itemTokens items).foldlM step? (.firstItem around) = _
          rw [List.foldlM_append, foldlM_firstItem, foldlM_tokens item]
          exact foldlM_itemTokens items item [] around
  | object members =>
      cases members with
      | nil => rfl
      | cons member members =>
          change (member.2.tokens ++ memberTokens members).foldlM step?
            (.value (.object [] member.1 :: around)) = _
          rw [List.foldlM_append, foldlM_tokens member.2]
          exact foldlM_memberTokens members member.1 member.2 [] around
  | _ => rfl

/-- The tokens after the first item of a list complete it. -/
theorem foldlM_itemTokens (items : List Json) (last : Json) (before : List Json)
    (around : List Frame) :
    (itemTokens items).foldlM step? (.complete last (.list before :: around)) =
      some (.complete (.list (before.reverse ++ last :: items)) around) := by
  cases items with
  | nil =>
      change some (Reading.complete (.list (last :: before).reverse) around) = _
      rw [List.reverse_cons]
  | cons item items =>
      change (item.tokens ++ itemTokens items).foldlM step?
        (.value (.list (last :: before) :: around)) = _
      rw [List.foldlM_append, foldlM_tokens item]
      refine (foldlM_itemTokens items item (last :: before) around).trans ?_
      rw [List.reverse_cons, List.append_assoc, List.singleton_append]

/-- The tokens after the first member of an object complete it. -/
theorem foldlM_memberTokens (members : List (Option String × Json)) (key : Option String)
    (last : Json) (before : List (Option String × Json)) (around : List Frame) :
    (memberTokens members).foldlM step? (.complete last (.object before key :: around)) =
      some (.complete (.object (before.reverse ++ (key, last) :: members)) around) := by
  cases members with
  | nil =>
      change some (Reading.complete (.object ((key, last) :: before).reverse) around) = _
      rw [List.reverse_cons]
  | cons member members =>
      change (member.2.tokens ++ memberTokens members).foldlM step?
        (.value (.object ((key, last) :: before) member.1 :: around)) = _
      rw [List.foldlM_append, foldlM_tokens member.2]
      refine (foldlM_memberTokens members member.1 member.2 ((key, last) :: before) around).trans ?_
      rw [List.reverse_cons, List.append_assoc, List.singleton_append]

end

end Reading

/-- The tokens of a value form this value. -/
theorem ofTokens?_tokens (value : Json) : ofTokens? value.tokens = some value := by
  rw [ofTokens?, Reading.foldlM_tokens]
  rfl

/-- A text that spells the tokens of a value holds the value. -/
theorem Spells.parse?_eq {text : String} {value : Json}
    (spells : Spells text.toList value.tokens) : parse? text = some value := by
  rw [parse?, spells.scan?_eq]
  exact ofTokens?_tokens value

/-! ## From values to texts -/

/-- A value all of whose numbers are as the grammar of JSON has them. -/
def IsSpelled (value : Json) : Prop :=
  ∀ token ∈ value.tokens, token.IsSpelled

theorem isSpelled_itemTokens {items : List Json} (spelled : ∀ item ∈ items, item.IsSpelled) :
    ∀ token ∈ itemTokens items, token.IsSpelled := by
  induction items with
  | nil => exact List.forall_mem_singleton.mpr trivial
  | cons item items ih =>
      rw [List.forall_mem_cons] at spelled
      rw [itemTokens, List.forall_mem_cons, List.forall_mem_append]
      exact ⟨trivial, spelled.1, ih spelled.2⟩

theorem isSpelled_memberTokens {members : List (Option String × Json)}
    (spelled : ∀ member ∈ members, member.2.IsSpelled) :
    ∀ token ∈ memberTokens members, token.IsSpelled := by
  induction members with
  | nil => exact List.forall_mem_singleton.mpr trivial
  | cons member members ih =>
      rw [List.forall_mem_cons] at spelled
      simp only [memberTokens, List.forall_mem_cons, List.forall_mem_append]
      exact ⟨trivial, trivial, trivial, spelled.1, ih spelled.2⟩

/-- Only the first token of a list differs from those of the same items later in a list. -/
theorem isSpelled_list {items : List Json} (spelled : ∀ item ∈ items, item.IsSpelled) :
    (list items).IsSpelled := by
  have later := isSpelled_itemTokens spelled
  cases items with
  | nil => exact List.forall_mem_cons.mpr ⟨trivial, later⟩
  | cons item items => exact List.forall_mem_cons.mpr ⟨trivial, (List.forall_mem_cons.mp later).2⟩

theorem isSpelled_object {members : List (Option String × Json)}
    (spelled : ∀ member ∈ members, member.2.IsSpelled) : (object members).IsSpelled := by
  have later := isSpelled_memberTokens spelled
  cases members with
  | nil => exact List.forall_mem_cons.mpr ⟨trivial, later⟩
  | cons member members =>
      exact List.forall_mem_cons.mpr ⟨trivial, (List.forall_mem_cons.mp later).2⟩

theorem stops_itemTokens (items : List Json) (text : List Char) :
    Numeral.Stops ((itemTokens items).flatMap Token.text ++ text) := by
  cases items <;>
    · intro c first
      cases first
      rfl

theorem stops_memberTokens (members : List (Option String × Json)) (text : List Char) :
    Numeral.Stops ((memberTokens members).flatMap Token.text ++ text) := by
  cases members <;>
    · intro c first
      cases first
      rfl

mutual

/-- The tokens of a value can be written one after the other, as nothing that goes on a number
follows one. -/
theorem spells_tokens (value : Json) (spelled : value.IsSpelled)
    {text : List Char} {rest : List Token} (stops : Numeral.Stops text)
    (spells : Spells text rest) :
    Spells (value.tokens.flatMap Token.text ++ text) (value.tokens ++ rest) := by
  unfold IsSpelled at spelled
  cases value with
  | num n =>
      rw [tokens, List.flatMap_singleton]
      exact .token (Token.writtenAs_text (spelled _ List.mem_cons_self)) (fun _ => stops) spells
  | list items =>
      cases items with
      | nil => exact .mark .openList rfl (.mark .closeList rfl spells)
      | cons item items =>
          rw [tokens, List.forall_mem_cons, List.forall_mem_append] at spelled
          simp only [tokens, List.flatMap_cons, List.flatMap_append, List.append_assoc,
            List.cons_append]
          exact .mark _ rfl (spells_tokens item spelled.2.1 (stops_itemTokens items text)
            (spells_itemTokens items spelled.2.2 spells))
  | object members =>
      cases members with
      | nil => exact .mark .openObject rfl (.mark .closeObject rfl spells)
      | cons member members =>
          obtain ⟨key, value⟩ := member
          simp only [tokens, List.forall_mem_cons, List.forall_mem_append] at spelled
          simp only [tokens, List.flatMap_cons, List.flatMap_append, List.append_assoc,
            List.cons_append]
          exact .mark _ rfl (.mark _ rfl (.mark _ rfl
            (spells_tokens value spelled.2.2.2.1 (stops_memberTokens members text)
              (spells_memberTokens members spelled.2.2.2.2 spells))))
  | _ =>
      simp only [tokens, List.flatMap_singleton, List.singleton_append]
      exact .mark _ rfl spells

/-- The same for the tokens after the first item of a list. -/
theorem spells_itemTokens (items : List Json)
    (spelled : ∀ token ∈ itemTokens items, token.IsSpelled) {text : List Char} {rest : List Token}
    (spells : Spells text rest) :
    Spells ((itemTokens items).flatMap Token.text ++ text) (itemTokens items ++ rest) := by
  cases items with
  | nil => exact .mark .closeList rfl spells
  | cons item items =>
      rw [itemTokens, List.forall_mem_cons, List.forall_mem_append] at spelled
      simp only [itemTokens, List.flatMap_cons, List.flatMap_append, List.append_assoc,
        List.cons_append]
      exact .mark _ rfl (spells_tokens item spelled.2.1 (stops_itemTokens items text)
        (spells_itemTokens items spelled.2.2 spells))

/-- The same for the tokens after the first member of an object. -/
theorem spells_memberTokens (members : List (Option String × Json))
    (spelled : ∀ token ∈ memberTokens members, token.IsSpelled) {text : List Char}
    {rest : List Token} (spells : Spells text rest) :
    Spells ((memberTokens members).flatMap Token.text ++ text) (memberTokens members ++ rest) := by
  cases members with
  | nil => exact .mark .closeObject rfl spells
  | cons member members =>
      obtain ⟨key, value⟩ := member
      simp only [memberTokens, List.forall_mem_cons, List.forall_mem_append] at spelled
      simp only [memberTokens, List.flatMap_cons, List.flatMap_append, List.append_assoc,
        List.cons_append]
      exact .mark _ rfl (.mark _ rfl (.mark _ rfl
        (spells_tokens value spelled.2.2.2.1 (stops_memberTokens members text)
          (spells_memberTokens members spelled.2.2.2.2 spells))))

end

/-- **Reading undoes writing** for every value all of whose numbers are as the grammar of JSON has
them. -/
theorem parse?_compact {value : Json} (spelled : value.IsSpelled) :
    parse? value.compact = some value := by
  refine Spells.parse?_eq ?_
  have spells : Spells (value.tokens.flatMap Token.text ++ []) (value.tokens ++ []) :=
    spells_tokens value spelled nofun .nil
  rw [List.append_nil, List.append_nil] at spells
  rw [compact, String.toList_ofList]
  exact spells

end LivingDoc.Json
