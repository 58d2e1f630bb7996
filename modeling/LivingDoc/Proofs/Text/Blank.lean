import LivingDoc.Proofs.Text.Cut
import LivingDoc.Text.Blank
import Mathlib.Data.List.DropRight

/-!
White space around a text.

Trimming takes away all white space from both ends of a text and nothing else. So a text that has
none at its ends is what trimming leaves of exactly those texts that put white space around it.
-/

namespace LivingDoc.Text

/-- Whether a text is made of white space only. -/
def IsSpace (text : String) : Prop :=
  ∀ c ∈ text.toList, isBlank c = true

instance (text : String) : Decidable (IsSpace text) :=
  List.decidableBAll (fun c => isBlank c = true) text.toList

/-- `Pads core text`: `text` is `core` with any white space in front of it and behind it. -/
def Pads (core text : String) : Prop :=
  ∃ before after, IsSpace before ∧ IsSpace after ∧ text = before ++ core ++ after

/-- Trailing characters of a class are dropped as far as the last one outside of it. -/
theorem dropTrailing_append {p : Char → Bool} {text run : List Char}
    (ofClass : ∀ c ∈ run, p c = true) (stops : ∀ c ∈ text.getLast?, p c = false) :
    dropTrailing p (text ++ run) = text := by
  have ofClass' : ∀ c ∈ run.reverse, p c = true :=
    fun c member => ofClass c (List.mem_reverse.mp member)
  have stops' : ∀ c ∈ text.reverse.head?, p c = false := by
    rw [List.head?_reverse]
    exact stops
  unfold dropTrailing
  rw [List.reverse_append, (run_append ofClass' stops').2, List.reverse_reverse]

/-- What is left of a text does not begin with white space. -/
theorem isBlank_of_head?_trim {text : String} {c : Char} (first : c ∈ (trim text).toList.head?) :
    isBlank c = false := by
  unfold trim at first
  rw [String.toList_ofList] at first
  obtain ⟨rest, kept⟩ := List.head?_eq_some_iff.mp first
  obtain ⟨dropped, whole⟩ : dropTrailing isBlank (text.toList.dropWhile isBlank) <+:
      text.toList.dropWhile isBlank := List.rdropWhile_prefix isBlank _
  have stops := List.head?_dropWhile_not isBlank text.toList
  rw [← whole, kept] at stops
  exact stops

/-- What is left of a text does not end with white space. -/
theorem isBlank_of_getLast?_trim {text : String} {c : Char}
    (last : c ∈ (trim text).toList.getLast?) : isBlank c = false := by
  unfold trim at last
  rw [String.toList_ofList] at last
  have some_ : List.rdropWhile isBlank (text.toList.dropWhile isBlank) ≠ [] := by
    intro none
    rw [dropTrailing, ← List.rdropWhile, none] at last
    cases last
  have stops := List.rdropWhile_last_not isBlank (text.toList.dropWhile isBlank) some_
  have same : (List.rdropWhile isBlank (text.toList.dropWhile isBlank)).getLast some_ = c :=
    Option.some.inj ((List.getLast?_eq_some_getLast some_).symm.trans last)
  rw [same] at stops
  exact Bool.eq_false_iff.mpr stops

/-- Every text puts white space around what trimming leaves of it. -/
theorem pads_trim (text : String) : Pads (trim text) text := by
  refine ⟨String.ofList (text.toList.takeWhile isBlank),
    String.ofList ((text.toList.dropWhile isBlank).rtakeWhile isBlank), ?_, ?_, ?_⟩
  · intro c member
    rw [String.toList_ofList] at member
    exact List.mem_takeWhile_imp member
  · intro c member
    rw [String.toList_ofList] at member
    exact List.mem_rtakeWhile_imp member
  · have back : dropTrailing isBlank (text.toList.dropWhile isBlank) ++
        (text.toList.dropWhile isBlank).rtakeWhile isBlank = text.toList.dropWhile isBlank :=
      List.rdropWhile_append_rtakeWhile
    rw [← String.toList_inj]
    simp only [trim, String.toList_append, String.toList_ofList, List.append_assoc, back,
      List.takeWhile_append_dropWhile]

/-- **A trimmed text is what is left of exactly those texts that put white space around it.** -/
theorem trim_eq_iff {core text : String} (trimmed : trim core = core) :
    trim text = core ↔ Pads core text := by
  refine ⟨fun h => h ▸ pads_trim text, ?_⟩
  rintro ⟨before, after, spaceBefore, spaceAfter, rfl⟩
  have noSpaceFirst : ∀ c ∈ core.toList.head?, isBlank c = false := by
    rw [← trimmed]
    exact fun c => isBlank_of_head?_trim
  have noSpaceLast : ∀ c ∈ core.toList.getLast?, isBlank c = false := by
    rw [← trimmed]
    exact fun c => isBlank_of_getLast?_trim
  rw [← String.toList_inj, trim, String.toList_ofList, String.toList_append, String.toList_append,
    List.append_assoc]
  cases known : core.toList with
  | nil =>
      -- Nothing is left, so the white space in front goes on with that behind.
      have allSpace : ∀ c ∈ before.toList ++ after.toList, isBlank c = true :=
        List.forall_mem_append.mpr ⟨spaceBefore, spaceAfter⟩
      have nothing : ∀ c ∈ ([] : List Char).head?, isBlank c = false := nofun
      have gone := (run_append allSpace nothing).2
      rw [List.append_nil] at gone
      rw [List.nil_append, gone]
      rfl
  | cons first rest =>
      rw [known] at noSpaceFirst noSpaceLast
      have stops : ∀ c ∈ (first :: rest ++ after.toList).head?, isBlank c = false := noSpaceFirst
      rw [(run_append spaceBefore stops).2]
      exact dropTrailing_append spaceAfter noSpaceLast

end LivingDoc.Text
