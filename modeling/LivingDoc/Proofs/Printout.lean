import LivingDoc.Proofs.Gherkin.Faults
import LivingDoc.Proofs.Json.Layout
import LivingDoc.Proofs.Outcome
import LivingDoc.Proofs.Verdict

/-!
What is printed tells what it was printed for.

The JSON value of a feature or an assessment names every field, tags every element with its kind and
writes what is absent differently from all that is there. So it is the value of nothing else, and it
is read back from the printed text.
-/

namespace LivingDoc

open Function (Injective)

/-! ## JSON values -/

namespace Json

theorem text_injective : Injective text :=
  fun _ _ same => Option.some.inj (str.inj same)

theorem record_injective : Injective record :=
  fun _ _ same => (List.map_injective_iff.mpr fun _ _ member =>
    Prod.ext (Option.some.inj (Prod.mk.inj member).1) (Prod.mk.inj member).2) (object.inj same)

variable {α : Type} {encode : α → Json}

theorem list_map_injective (injective : Injective encode) :
    Injective fun values : List α => list (values.map encode) :=
  fun _ _ same => List.map_injective_iff.mpr injective (list.inj same)

/-- What is absent is told apart from every value that is there. -/
theorem elim_null_injective (injective : Injective encode)
    (present : ∀ value, encode value ≠ null) :
    Injective fun value : Option α => value.elim null encode := by
  intro value value' same
  cases value with
  | none =>
      cases value' with
      | none => rfl
      | some value' => exact (present value' same.symm).elim
  | some value =>
      cases value' with
      | none => exact (present value same).elim
      | some value' => exact congrArg some (injective same)

@[simp] theorem isSpelled_null : null.IsSpelled :=
  List.forall_mem_singleton.mpr trivial

@[simp] theorem isSpelled_text (s : String) : (text s).IsSpelled :=
  List.forall_mem_singleton.mpr trivial

theorem isSpelled_record {members : List (String × Json)}
    (spelled : ∀ member ∈ members, member.2.IsSpelled) : (record members).IsSpelled :=
  isSpelled_object (List.forall_mem_map.mpr spelled)

@[simp] theorem isSpelled_list_map {values : List α} (spelled : ∀ value, (encode value).IsSpelled) :
    (list (values.map encode)).IsSpelled :=
  isSpelled_list (List.forall_mem_map.mpr fun value _ => spelled value)

@[simp] theorem isSpelled_elim_null {value : Option α}
    (spelled : ∀ value, (encode value).IsSpelled) :
    (value.elim null encode).IsSpelled := by
  cases value with
  | none => exact isSpelled_null
  | some value => exact spelled value

end Json

open Json

/-! ## Features -/

theorem encodeTexts_injective : Injective encodeTexts :=
  list_map_injective text_injective

theorem Table.encode_injective : Injective Table.encode := by
  intro table table' same
  have fields := record_injective same
  simp only [List.cons.injEq, Prod.mk.injEq, true_and, and_true] at fields
  obtain ⟨header, rows⟩ := fields
  cases table
  cases table'
  rw [Table.mk.injEq]
  exact ⟨encodeTexts_injective header, list_map_injective encodeTexts_injective rows⟩

theorem Keyword.name_injective : Injective Keyword.name := by
  have distinct : ∀ keyword ∈ all, ∀ keyword' ∈ all,
      keyword.name = keyword'.name → keyword = keyword' := by decide
  exact fun keyword keyword' => distinct keyword keyword.mem_all keyword' keyword'.mem_all

theorem Step.encode_injective : Injective Step.encode := by
  intro step step' same
  have fields := record_injective same
  simp only [List.cons.injEq, Prod.mk.injEq, true_and, and_true] at fields
  obtain ⟨nativeKeyword, keyword, name, docString, table⟩ := fields
  cases step
  cases step'
  rw [Step.mk.injEq]
  exact ⟨text_injective nativeKeyword, Keyword.name_injective (text_injective keyword),
    text_injective name, elim_null_injective text_injective (fun _ => nofun) docString,
    elim_null_injective Table.encode_injective (fun _ => nofun) table⟩

theorem Scenario.members_injective : Injective Scenario.members := by
  intro scenario scenario' same
  unfold members at same
  simp only [List.cons.injEq, Prod.mk.injEq, true_and, and_true] at same
  obtain ⟨name, description, steps, tags, featureName⟩ := same
  cases scenario
  cases scenario'
  rw [Scenario.mk.injEq]
  exact ⟨text_injective name, text_injective description,
    list_map_injective Step.encode_injective steps, encodeTexts_injective tags,
    text_injective featureName⟩

theorem Example.encode_injective : Injective Example.encode := by
  intro block block' same
  have fields := record_injective same
  simp only [List.cons.injEq, Prod.mk.injEq, true_and, and_true] at fields
  obtain ⟨name, description, tags, table⟩ := fields
  cases block
  cases block'
  rw [Example.mk.injEq]
  exact ⟨text_injective name, text_injective description, encodeTexts_injective tags,
    Table.encode_injective table⟩

theorem Outline.members_injective : Injective Outline.members := by
  intro outline outline' same
  unfold members at same
  simp only [List.cons.injEq, Prod.mk.injEq, true_and, and_true] at same
  obtain ⟨name, description, steps, tags, examples, featureName⟩ := same
  cases outline
  cases outline'
  rw [Outline.mk.injEq]
  exact ⟨text_injective name, text_injective description,
    list_map_injective Step.encode_injective steps, encodeTexts_injective tags,
    list_map_injective Example.encode_injective examples, text_injective featureName⟩

/-- Elements of different kinds differ in their tags, whatever else they have in common. -/
theorem Element.encode_injective : Injective Element.encode := by
  intro element element' same
  obtain ⟨kind, members⟩ := List.cons.inj (record_injective same)
  have sameKind : element.kind = element'.kind := text_injective (Prod.mk.inj kind).2
  have different : "scenario" ≠ "scenario_outline" := by decide
  cases element with
  | scenario scenario =>
      cases element' with
      | scenario scenario' => exact congrArg _ (Scenario.members_injective members)
      | outline outline' => exact absurd sameKind different
  | outline outline =>
      cases element' with
      | scenario scenario' => exact absurd sameKind different.symm
      | outline outline' => exact congrArg _ (Outline.members_injective members)

theorem Feature.encode_injective : Injective Feature.encode := by
  intro feature feature' same
  have fields := record_injective same
  simp only [List.cons.injEq, Prod.mk.injEq, true_and, and_true] at fields
  obtain ⟨name, description, tags, elements, background⟩ := fields
  have scenario : Injective fun scenario : Scenario => record scenario.members :=
    record_injective.comp Scenario.members_injective
  cases feature
  cases feature'
  rw [Feature.mk.injEq]
  exact ⟨text_injective name, text_injective description, encodeTexts_injective tags,
    list_map_injective Element.encode_injective elements,
    elim_null_injective scenario (fun _ => nofun) background⟩

/-! ## Assessments -/

theorem Verdict.name_injective : Injective Verdict.name := by
  intro verdict verdict' same
  have found := ofName?_name verdict
  rw [same, ofName?_name] at found
  exact (Option.some.inj found).symm

/-- The row of an element as a JSON value. -/
def ElementAssessment.encode (row : ElementAssessment) : Json :=
  record [("kind", text row.kind), ("name", text row.name), ("tags", encodeTexts row.tags),
    ("result", text row.verdict.name)]

theorem ElementAssessment.encode_injective : Injective ElementAssessment.encode := by
  intro row row' same
  have fields := record_injective same
  simp only [List.cons.injEq, Prod.mk.injEq, true_and, and_true] at fields
  obtain ⟨kind, name, tags, verdict⟩ := fields
  cases row
  cases row'
  rw [ElementAssessment.mk.injEq]
  exact ⟨text_injective kind, text_injective name, encodeTexts_injective tags,
    Verdict.name_injective (text_injective verdict)⟩

theorem Assessment.encode_eq (assessment : Assessment) :
    assessment.encode = record [("feature", text assessment.feature),
      ("result", text assessment.verdict.name),
      ("elements", list (assessment.elements.map ElementAssessment.encode))] :=
  rfl

theorem Assessment.encode_injective : Injective Assessment.encode := by
  intro assessment assessment' same
  rw [encode_eq, encode_eq] at same
  have fields := record_injective same
  simp only [List.cons.injEq, Prod.mk.injEq, true_and, and_true] at fields
  obtain ⟨feature, verdict, elements⟩ := fields
  cases assessment
  cases assessment'
  rw [Assessment.mk.injEq]
  exact ⟨text_injective feature, Verdict.name_injective (text_injective verdict),
    list_map_injective ElementAssessment.encode_injective elements⟩

/-! ## No numbers

Features and assessments are written without numbers, so there is none that could go on into what
follows it. -/

@[simp] theorem isSpelled_encodeTexts (texts : List String) : (encodeTexts texts).IsSpelled :=
  isSpelled_list_map isSpelled_text

@[simp] theorem Table.isSpelled_encode (table : Table) : table.encode.IsSpelled :=
  isSpelled_record (by simp)

@[simp] theorem Step.isSpelled_encode (step : Step) : step.encode.IsSpelled :=
  isSpelled_record (by simp)

theorem Scenario.isSpelled_members (scenario : Scenario) :
    ∀ member ∈ scenario.members, member.2.IsSpelled := by
  simp [members]

@[simp] theorem Example.isSpelled_encode (block : Example) : block.encode.IsSpelled :=
  isSpelled_record (by simp)

theorem Outline.isSpelled_members (outline : Outline) :
    ∀ member ∈ outline.members, member.2.IsSpelled := by
  simp [members]

@[simp] theorem Element.isSpelled_encode (element : Element) : element.encode.IsSpelled := by
  refine isSpelled_record (List.forall_mem_cons.mpr ⟨isSpelled_text _, ?_⟩)
  cases element with
  | scenario scenario => exact scenario.isSpelled_members
  | outline outline => exact outline.isSpelled_members

theorem Feature.isSpelled_encode (feature : Feature) : feature.encode.IsSpelled :=
  isSpelled_record (by simp [isSpelled_record (Scenario.isSpelled_members _)])

@[simp] theorem ElementAssessment.isSpelled_encode (row : ElementAssessment) :
    row.encode.IsSpelled :=
  isSpelled_record (by simp)

theorem Assessment.isSpelled_encode (assessment : Assessment) : assessment.encode.IsSpelled := by
  rw [encode_eq]
  exact isSpelled_record (by simp)

/-! ## Printed texts -/

/-- Different values are printed as different texts. -/
theorem printed_inj {value value' : Json} (spelled : value.IsSpelled)
    (spelled' : value'.IsSpelled) : printed value = printed value' ↔ value = value' := by
  refine ⟨fun same => ?_, congrArg printed⟩
  have layout : value.pretty = value'.pretty := (String.append_left_inj "\n").mp same
  have read := parse?_pretty spelled
  rw [layout, parse?_pretty spelled'] at read
  exact (Option.some.inj read).symm

/-- `IsPrintout text value`: the text is the value, from the brace that opens it to the one that
closes it, and a single line break. -/
def IsPrintout (text : String) (value : Json) : Prop :=
  ∃ inner, text = "\x7b" ++ inner ++ "\x7d" ++ "\n" ∧
    parse? ("\x7b" ++ inner ++ "\x7d") = some value

theorem isPrintout_printed {members : List (String × Json)} (spelled : (record members).IsSpelled) :
    IsPrintout (printed (record members)) (record members) := by
  obtain ⟨inner, layout⟩ : ∃ inner, (record members).pretty = "\x7b" ++ inner ++ "\x7d" :=
    exists_pretty_object _
  have read := parse?_pretty spelled
  rw [layout] at read
  exact ⟨inner, congrArg (· ++ "\n") layout, read⟩

theorem printed_ne_empty (value : Json) : printed value ≠ "" := by
  intro empty
  have lineBreak := (String.append_eq_empty_iff.mp empty).2
  exact absurd lineBreak (by decide)

/-- A run for a feature prints it, or nothing if there is a fault. -/
theorem stdout_of_map [Wording] {arguments : List String} {directory : Directory} {input : Input}
    (parsed : Command.parse? arguments = some (.map input)) :
    (run arguments directory).stdout =
      (featureToPrint directory input).toOption.elim "" fun feature => printed feature.encode := by
  rw [run_of_command parsed]
  dsimp only [Command.run]
  cases featureToPrint directory input <;> rfl

/-- **What is printed tells what it was printed for.** Features that differ are printed differently,
and so are assessments. Each printed text is one JSON value and a line break. So two runs that
print features print the same exactly if they come to the same feature, or both to none. -/
theorem printouts_tell_apart [Wording] :
    (∀ feature feature' : Feature,
      printed feature.encode = printed feature'.encode ↔ feature = feature') ∧
    (∀ assessment assessment' : Assessment,
      printed assessment.encode = printed assessment'.encode ↔ assessment = assessment') ∧
    (∀ feature : Feature, IsPrintout (printed feature.encode) feature.encode) ∧
    (∀ assessment : Assessment, IsPrintout (printed assessment.encode) assessment.encode) ∧
    ∀ (arguments arguments' : List String) (directory directory' : Directory)
      (input input' : Input),
      Command.parse? arguments = some (.map input) →
      Command.parse? arguments' = some (.map input') →
      ((run arguments directory).stdout = (run arguments' directory').stdout ↔
        (featureToPrint directory input).toOption =
          (featureToPrint directory' input').toOption) := by
  have features : ∀ feature feature' : Feature,
      printed feature.encode = printed feature'.encode ↔ feature = feature' := by
    intro feature feature'
    rw [printed_inj feature.isSpelled_encode feature'.isSpelled_encode,
      Feature.encode_injective.eq_iff]
  refine ⟨features, fun assessment assessment' => ?_, fun feature => ?_, fun assessment => ?_,
    fun arguments arguments' directory directory' input input' parsed parsed' => ?_⟩
  · rw [printed_inj assessment.isSpelled_encode assessment'.isSpelled_encode,
      Assessment.encode_injective.eq_iff]
  · exact isPrintout_printed feature.isSpelled_encode
  · exact isPrintout_printed assessment.isSpelled_encode
  · rw [stdout_of_map parsed, stdout_of_map parsed']
    cases (featureToPrint directory input).toOption with
    | none =>
        cases (featureToPrint directory' input').toOption with
        | none => exact iff_of_true rfl rfl
        | some feature' => exact iff_of_false (printed_ne_empty _).symm nofun
    | some feature =>
        cases (featureToPrint directory' input').toOption with
        | none => exact iff_of_false (printed_ne_empty _) nofun
        | some feature' => exact (features feature feature').trans (Option.some_inj).symm

/-- Two documents that describe one feature, and one that describes an outline in the place of its
scenario. -/
theorem printouts_tell_apart_kinds :
    let document := "[[null,\"\",\"f\",null,[],[[\"Scenario\",\"\",\"s\"]]]]"
    let spaced := "[[null, \"\", \"f\", null, [], [[\"Scenario\", \"K\", \"\\u0073\"]]]]"
    let outline := "[[null,\"\",\"f\",null,[],[[\"ScenarioOutline\",\"\",\"s\"]]]]"
    let directory := Directory.ofEntries [("d", .file document.toUTF8.toList),
      ("e", .file spaced.toUTF8.toList), ("o", .file outline.toUTF8.toList)]
    (run ["map", "d"] directory).stdout = (run ["map", "e"] directory).stdout ∧
      (run ["map", "d"] directory).stdout ≠ (run ["map", "o"] directory).stdout := by
  intro document spaced outline directory
  have parsed : Command.parse? ["map", "d"] = some (.map ⟨"d", "pickles.toml", none⟩) := by
    decide +kernel
  have parsedSpaced : Command.parse? ["map", "e"] = some (.map ⟨"e", "pickles.toml", none⟩) := by
    decide +kernel
  have parsedOutline : Command.parse? ["map", "o"] = some (.map ⟨"o", "pickles.toml", none⟩) := by
    decide +kernel
  let ofElement (element : Element) : Feature := ⟨"f", "", [], [element], none⟩
  have shown : (featureToPrint directory ⟨"d", "pickles.toml", none⟩).toOption =
      some (ofElement (.scenario ⟨"s", "", [], [], "f"⟩)) := by decide +kernel
  have shownSpaced : (featureToPrint directory ⟨"e", "pickles.toml", none⟩).toOption =
      some (ofElement (.scenario ⟨"s", "", [], [], "f"⟩)) := by decide +kernel
  have shownOutline : (featureToPrint directory ⟨"o", "pickles.toml", none⟩).toOption =
      some (ofElement (.outline ⟨"s", "", [], [], [], "f"⟩)) := by decide +kernel
  obtain ⟨_, _, _, _, compared⟩ := printouts_tell_apart
  refine ⟨(compared _ _ directory directory _ _ parsed parsedSpaced).mpr ?_,
    (compared _ _ directory directory _ _ parsed parsedOutline).not.mpr ?_⟩
  · rw [shown, shownSpaced]
  · rw [shown, shownOutline]
    nofun

end LivingDoc
