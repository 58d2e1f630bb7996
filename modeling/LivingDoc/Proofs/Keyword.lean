import LivingDoc.Proofs.Gherkin.Faults
import LivingDoc.Proofs.Text.Blank

/-!
Which keyword a text stands for, and in which language.

A language is found by the part of a tag in front of the region. Its keywords are searched one after
the other, but no spelling except the star belongs to two of them, so every other spelling stands
for its keyword, with any white space around it. The star is a spelling of all keywords of steps and
stands for the first one.
-/

namespace LivingDoc

/-- Where a list has just one item of a class, a search for the class finds it. -/
theorem find?_eq_some_of_unique {α : Type} {p : α → Bool} {items : List α} {item : α}
    (member : item ∈ items) (holds : p item = true)
    (only : ∀ other ∈ items, p other = true → other = item) : items.find? p = some item := by
  cases found : items.find? p with
  | none => exact absurd holds (List.find?_eq_none.mp found item member)
  | some other =>
      exact congrArg some (only other (List.mem_of_find?_eq_some found) (List.find?_some found))

namespace Language

/-! ## Tags -/

/-- Whether the part of a tag in front of the region names a language, in letters of any case. -/
def IsNamedBy (language : Language) (tag : String) : Prop :=
  Text.sameIgnoringCase language.tag (primarySubtag tag) = true

theorem mem_all (language : Language) : language ∈ all := by
  cases language <;> decide

theorem eq_of_foldCase_tag {language other : Language}
    (same : Text.foldCase language.tag = Text.foldCase other.tag) : language = other := by
  revert same
  cases language <;> cases other <;> decide

theorem ofTag?_eq_some_iff {language : Language} {tag : String} :
    ofTag? tag = some language ↔ language.IsNamedBy tag := by
  refine ⟨fun found => ?_, fun named => ?_⟩
  · have named := List.find?_some found
    exact named
  · refine find?_eq_some_of_unique language.mem_all named fun other _ namedToo => ?_
    exact eq_of_foldCase_tag ((beq_iff_eq.mp namedToo).trans (beq_iff_eq.mp named).symm)

theorem ofTag?_eq_none_iff {tag : String} :
    ofTag? tag = none ↔ ∀ language : Language, ¬ language.IsNamedBy tag := by
  rw [Option.eq_none_iff_forall_ne_some]
  exact forall_congr' fun language => not_congr ofTag?_eq_some_iff

theorem ofTag_eq_ok_iff {language : Language} {tag : String} :
    ofTag tag = .ok language ↔ language.IsNamedBy tag := by
  rw [← ofTag?_eq_some_iff, ofTag]
  cases ofTag? tag with
  | none => simp
  | some other => simp

theorem ofTag_of_unnamed {tag : String}
    (unnamed : ∀ language : Language, ¬ language.IsNamedBy tag) :
    ofTag tag = .error (.unsupportedLanguage tag) := by
  rw [ofTag, ofTag?_eq_none_iff.mpr unnamed]

/-- The tag that a language is known by asks for that language. -/
theorem ofTag?_tag (language : Language) : ofTag? language.tag = some language := by
  cases language <;> decide

/-- A tag that is the tag of a language, up to case, has no region. -/
theorem primarySubtag_eq_self {language : Language} {tag : String}
    (same : Text.sameIgnoringCase language.tag tag = true) : primarySubtag tag = tag := by
  have noMark : '-' ∉ Text.foldCase language.tag ∧ '_' ∉ Text.foldCase language.tag := by
    cases language <;> decide
  rw [beq_iff_eq.mp same] at noMark
  have inLanguage : ∀ c ∈ tag.toList, (c != '-' && c != '_') = true := by
    intro c member
    have folded : c.toLower ∈ Text.foldCase tag := List.mem_map_of_mem member
    rw [Bool.and_eq_true, bne_iff_ne, bne_iff_ne]
    constructor
    · rintro rfl
      exact noMark.1 folded
    · rintro rfl
      exact noMark.2 folded
  rw [primarySubtag, List.takeWhile_eq_self_iff.mpr inLanguage, String.ofList_toList]

/-- To look for the whole tag first, and for its part in front of the region only if that fails,
finds nothing else. -/
theorem ofTag?_eq_or (tag : String) :
    ofTag? tag = (all.find? fun language => Text.sameIgnoringCase language.tag tag).or
      (all.find? fun language => Text.sameIgnoringCase language.tag (primarySubtag tag)) := by
  cases found : all.find? fun language => Text.sameIgnoringCase language.tag tag with
  | none => rfl
  | some language =>
      have same := List.find?_some found
      rw [Option.some_or, ofTag?_eq_some_iff, IsNamedBy, primarySubtag_eq_self same]
      exact same

/-! ## Spellings -/

theorem trim_spelling {language : Language} {keyword : Keyword} {spelling : String}
    (spelled : spelling ∈ language.spellings keyword) : Text.trim spelling = spelling := by
  have trimmed : ∀ language ∈ all, ∀ keyword ∈ Keyword.all,
      ∀ spelling ∈ language.spellings keyword, Text.trim spelling = spelling := by
    decide
  exact trimmed language language.mem_all keyword keyword.mem_all spelling spelled

/-- No spelling but the star belongs to two keywords of a language. -/
theorem eq_of_mem_spellings {language : Language} {keyword other : Keyword} {spelling : String}
    (spelled : spelling ∈ language.spellings keyword)
    (spelledToo : spelling ∈ language.spellings other) (noStar : spelling ≠ "*") :
    other = keyword := by
  have only : ∀ language ∈ all, ∀ keyword ∈ Keyword.all, ∀ other ∈ Keyword.all,
      ∀ spelling ∈ language.spellings keyword,
        spelling ∈ language.spellings other → spelling ≠ "*" → other = keyword := by
    decide
  exact only language language.mem_all keyword keyword.mem_all other other.mem_all spelling spelled
    spelledToo noStar

theorem keyword?_of_pads {language : Language} {keyword : Keyword} {spelling text : String}
    (spelled : spelling ∈ language.spellings keyword) (noStar : spelling ≠ "*")
    (pads : Text.Pads spelling text) : language.keyword? text = some keyword := by
  have trimmed := (Text.trim_eq_iff (trim_spelling spelled)).mpr pads
  refine find?_eq_some_of_unique keyword.mem_all ?_ fun other _ spelledToo => ?_
  · rw [trimmed]
    exact List.contains_iff_mem.mpr spelled
  · rw [trimmed] at spelledToo
    exact eq_of_mem_spellings spelled (List.contains_iff_mem.mp spelledToo) noStar

/-- The star stands for the first keyword of those that share it. -/
theorem keyword?_of_pads_star {language : Language} {text : String} (pads : Text.Pads "*" text) :
    language.keyword? text = some .given := by
  have spelled : "*" ∈ language.spellings .given := by
    cases language <;> decide
  have trimmed := (Text.trim_eq_iff (trim_spelling spelled)).mpr pads
  refine List.find?_cons_of_pos ?_
  rw [trimmed]
  exact List.contains_iff_mem.mpr spelled

theorem knows_iff {language : Language} {text : String} :
    language.Knows text ↔
      ∃ keyword, ∃ spelling ∈ language.spellings keyword, Text.Pads spelling text := by
  refine exists_congr fun keyword => ⟨fun spelled => ⟨_, spelled, Text.pads_trim text⟩, ?_⟩
  rintro ⟨spelling, spelled, pads⟩
  rwa [(Text.trim_eq_iff (trim_spelling spelled)).mpr pads]

end Language

namespace Keyword

theorem ofText_of_named {language : Language} {tag : String} (named : language.IsNamedBy tag)
    (text : String) : ofText tag text = language.keyword text := by
  unfold ofText Language.ofTag
  rw [Language.ofTag?_eq_some_iff.mpr named]
  rfl

/-- **Which keyword a text stands for in the language that a tag asks for.** The part of the tag in
front of the region names the language, if there is one. A spelling of a keyword stands for it with
any white space around it, a star for `given`, and nothing else is a keyword. To find the language
first, and to go by the tag that it is known by, makes no difference, and that tag asks for the same
language. -/
theorem ofText_cases (tag : String) :
    ((∀ language : Language, ¬ language.IsNamedBy tag) →
      ∀ text, ofText tag text = .error (.unsupportedLanguage tag)) ∧
    (∀ language : Language, language.IsNamedBy tag →
      (∀ keyword, ∀ spelling ∈ language.spellings keyword, spelling ≠ "*" →
        ∀ text, Text.Pads spelling text → ofText tag text = .ok keyword) ∧
      (∀ text, Text.Pads "*" text → ofText tag text = .ok .given) ∧
      ∀ text, (∀ keyword, ∀ spelling ∈ language.spellings keyword, ¬ Text.Pads spelling text) →
        ofText tag text = .error (.unknownKeyword text language.tag)) ∧
    (∀ text, (Language.ofTag tag >>= fun language => language.keyword text) = ofText tag text) ∧
    (∀ text, (Language.ofTag tag >>= fun language => ofText language.tag text) =
      ofText tag text) ∧
    ∀ canonical, (Language.ofTag? tag).map Language.tag = some canonical →
      (Language.ofTag? canonical).map Language.tag = some canonical := by
  refine ⟨fun unnamed text => ?_, fun language named => ⟨?_, ?_, ?_⟩, fun text => rfl,
    fun text => ?_, fun canonical known => ?_⟩
  · unfold ofText Language.ofTag
    rw [Language.ofTag?_eq_none_iff.mpr unnamed]
    rfl
  · intro keyword spelling spelled noStar text pads
    rw [ofText_of_named named, Language.keyword, Language.keyword?_of_pads spelled noStar pads]
  · intro text pads
    rw [ofText_of_named named, Language.keyword, Language.keyword?_of_pads_star pads]
  · intro text unpadded
    have unknown : ¬ language.Knows text := by
      rw [Language.knows_iff]
      rintro ⟨keyword, spelling, spelled, pads⟩
      exact unpadded keyword spelling spelled pads
    rw [ofText_of_named named, Language.keyword, Language.keyword?_eq_none_iff.mpr unknown]
  · refine bind_congr fun language => ?_
    exact ofText_of_named (Language.ofTag?_eq_some_iff.mp language.ofTag?_tag) text
  · obtain ⟨language, _, rfl⟩ := Option.map_eq_some_iff.mp known
    rw [language.ofTag?_tag, Option.map_some]

/-- A language named with its region, and one without a table. A spelling between a no-break space
and a line break, a star, and a French spelling that German does not know. -/
theorem ofText_cases_region :
    (∀ language : Language, ¬ language.IsNamedBy "tlh") ∧
    ofText "tlh" "Given " = .error (.unsupportedLanguage "tlh") ∧
    Language.german.IsNamedBy "DE_at" ∧
    Text.Pads "Gegeben sei" "\u00a0Gegeben sei\n" ∧ Text.Pads "*" "* " ∧
    ofText "DE_at" "\u00a0Gegeben sei\n" = .ok .given ∧ ofText "DE_at" "* " = .ok .given ∧
    ofText "DE_at" "Soit " = .error (.unknownKeyword "Soit " "de") ∧
    (Language.ofTag? "de").map Language.tag = some "de" := by
  obtain ⟨unsupported, _⟩ := ofText_cases "tlh"
  obtain ⟨_, supported, _, _, canonical⟩ := ofText_cases "DE_at"
  have unnamed : ∀ language : Language, ¬ language.IsNamedBy "tlh" := by
    intro language
    unfold Language.IsNamedBy
    cases language <;> decide
  have named : Language.german.IsNamedBy "DE_at" := by
    unfold Language.IsNamedBy
    decide
  have pads : Text.Pads "Gegeben sei" "\u00a0Gegeben sei\n" :=
    ⟨"\u00a0", "\n", by decide, by decide, rfl⟩
  have padsStar : Text.Pads "*" "* " := ⟨"", " ", by decide, by decide, rfl⟩
  have unpadded : ∀ keyword, ∀ spelling ∈ Language.german.spellings keyword,
      ¬ Text.Pads spelling "Soit " := by
    intro keyword spelling spelled pads
    have trimmed := (Text.trim_eq_iff (Language.trim_spelling spelled)).mpr pads
    have absent : Text.trim "Soit " ∉ Language.german.spellings keyword := by
      cases keyword <;> decide
    exact absent (trimmed ▸ spelled)
  obtain ⟨spelling, star, unknown⟩ := supported .german named
  exact ⟨unnamed, unsupported unnamed _, named, pads, padsStar,
    spelling .given "Gegeben sei" (by decide) (by decide) _ pads, star _ padsStar,
    unknown _ unpadded, canonical "de" (by decide)⟩

end Keyword
end LivingDoc
