import LivingDoc.Proofs.Except
import LivingDoc.Proofs.Text.Cut
import LivingDoc.Text.Blank
import LivingDoc.Xml.Reference
import Mathlib.Data.List.DropRight

/-!
What a text stands for once its references are resolved, said without a reader: every character
but the ampersand stands for itself, and every reference for one character. The reader of references
finds exactly this, from whatever position it counts.
-/

namespace LivingDoc.Xml

/-- The name of a reference stands for a character. -/
def StandsFor (name : List Char) (c : Char) : Prop :=
  resolve 0 name = .ok c

/-- The position of a name matters to the fault it may lead to, but not to its character. -/
theorem resolve_eq_ok_iff {start : Nat} {name : List Char} {c : Char} :
    resolve start name = .ok c ↔ StandsFor name c := by
  unfold StandsFor resolve
  split
  · exact Iff.rfl
  · split <;> simp

/-- `Resolves text content`: with its references resolved, `text` is `content`. -/
inductive Resolves : List Char → List Char → Prop
  | nil : Resolves [] []
  | plain {c : Char} {text content : List Char} :
    c ≠ '&' → Resolves text content → Resolves (c :: text) (c :: content)
  | reference {name : List Char} {c : Char} {text content : List Char} :
    (∀ d ∈ name, endsName d = false) → StandsFor name c → Resolves text content →
    Resolves ('&' :: (name ++ ';' :: text)) (c :: content)

/-- The reader's cut after the name of a reference. -/
theorem cut_name {name : List Char} (inName : ∀ d ∈ name, endsName d = false)
    (text : List Char) :
    (name ++ ';' :: text).takeWhile (!endsName ·) = name ∧
      (name ++ ';' :: text).dropWhile (!endsName ·) = ';' :: text := by
  have all : ∀ d ∈ name, (!endsName d) = true := by
    intro d member
    rw [inName d member]
    rfl
  refine Text.run_append all fun d first => ?_
  cases first
  rfl

theorem resolves_of_unescapeFrom {position : Nat} {text content : List Char}
    (h : unescapeFrom position text = .ok content) : Resolves text content := by
  fun_induction unescapeFrom position text generalizing content with
  | case1 position =>
      cases h
      exact .nil
  | case2 position rest name after found =>
      rename_i ih
      rcases bind_eq_ok_iff.mp h with ⟨c, resolved, h⟩
      rcases bind_eq_ok_iff.mp h with ⟨content', foundRest, h⟩
      cases h
      have split : rest = name ++ ';' :: after := by
        rw [← found, List.takeWhile_append_dropWhile]
      rw [split]
      refine .reference ?_ (resolve_eq_ok_iff.mp resolved) (ih foundRest)
      intro d member
      simpa using List.mem_takeWhile_imp member
  | case3 => cases h
  | case4 position c rest noReference ih =>
      rcases bind_eq_ok_iff.mp h with ⟨content', foundRest, h⟩
      cases h
      exact .plain noReference (ih foundRest)

theorem Resolves.unescapeFrom {text content : List Char} (resolves : Resolves text content) :
    ∀ position, unescapeFrom position text = .ok content := by
  induction resolves with
  | nil =>
      intro position
      rw [Xml.unescapeFrom]
  | plain noReference _ ih =>
      intro position
      rw [Xml.unescapeFrom, if_neg noReference, ih]
      rfl
  | @reference name c text content inName stands _ ih =>
      intro position
      obtain ⟨taken, dropped⟩ := cut_name inName text
      rw [Xml.unescapeFrom, if_pos rfl]
      simp only [taken]
      split
      · next after found =>
        rw [dropped] at found
        cases found
        rw [resolve_eq_ok_iff.mpr stands, ih]
        rfl
      · next other => exact (other text dropped).elim

/-- Reading a text resolves its references, and fails only where some reference does not resolve. -/
theorem unescape_eq_ok_iff {text content : List Char} :
    unescape text = .ok content ↔ Resolves text content :=
  ⟨resolves_of_unescapeFrom, fun resolves => resolves.unescapeFrom 0⟩

/-! ## Parts of a text -/

theorem Resolves.append {text content text' content' : List Char}
    (front : Resolves text content) (back : Resolves text' content') :
    Resolves (text ++ text') (content ++ content') := by
  induction front with
  | nil => exact back
  | plain noReference _ ih => exact .plain noReference ih
  | @reference name c text content inName stands _ ih =>
      have whole := Resolves.reference inName stands ih
      rw [List.cons_append, List.append_assoc, List.cons_append]
      exact whole

/-- Without its last character, which ends no reference, a text still resolves. -/
theorem Resolves.of_snoc {text content : List Char} {last : Char}
    (resolves : Resolves (text ++ [last]) content) (noEnd : last ≠ ';') :
    ∃ content', Resolves text content' := by
  generalize whole : text ++ [last] = joined at resolves
  induction resolves generalizing text with
  | nil => simp at whole
  | @plain c rest content noReference _ ih =>
      cases text with
      | nil => exact ⟨[], .nil⟩
      | cons first text =>
          rw [List.cons_append, List.cons.injEq] at whole
          obtain ⟨rfl, whole⟩ := whole
          obtain ⟨content', resolves⟩ := ih whole
          exact ⟨_, .plain noReference resolves⟩
  | @reference name c rest content inName stands _ ih =>
      rcases List.eq_nil_or_concat' rest with rfl | ⟨rest', last', rfl⟩
      · have parts : text ++ [last] = ('&' :: name) ++ [';'] := whole
        exact (noEnd (List.singleton_inj.mp (List.append_inj' parts rfl).2)).elim
      · have parts : text ++ [last] = ('&' :: (name ++ ';' :: rest')) ++ [last'] := by
          rw [whole]
          simp
        obtain ⟨rfl, same⟩ := List.append_inj' parts rfl
        obtain ⟨content', resolves⟩ := @ih rest' (by rw [same])
        exact ⟨_, .reference inName stands resolves⟩

/-- What is dropped at the end of a text has no part in a reference unless it ends one. -/
theorem Resolves.dropTrailing {p : Char → Bool} {text content : List Char} (noEnd : p ';' = false)
    (resolves : Resolves text content) :
    ∃ content', Resolves (Text.dropTrailing p text) content' := by
  change ∃ content', Resolves (List.rdropWhile p text) content'
  induction text using List.reverseRecOn generalizing content with
  | nil => exact ⟨content, resolves⟩
  | append_singleton text last ih =>
      by_cases dropped : p last = true
      · rw [List.rdropWhile_concat_pos p text last dropped]
        have other : last ≠ ';' := by
          rintro rfl
          rw [noEnd] at dropped
          cases dropped
        obtain ⟨content', shorter⟩ := resolves.of_snoc other
        exact ih shorter
      · rw [List.rdropWhile_concat_neg p text last dropped]
        exact ⟨content, resolves⟩

end LivingDoc.Xml
