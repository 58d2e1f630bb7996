import LivingDoc.Report
import Mathlib.Data.List.Nodup

/-!
Whose row a recorded scenario is.

A scenario is taken for a row of every outline whose name, a comma and a space begin its title.
Nothing else tells rows apart, so a row counts for two outlines if the name of one of them looks
like a row of the other. Where no name does, each row counts for one outline, and verdicts on the
other outlines are the same without it.
-/

namespace LivingDoc

theorem toList_rowTitleStart (name : String) :
    (rowTitleStart name).toList = name.toList ++ [',', ' '] := by
  simp [rowTitleStart]

/-- Where the titles of the rows of two outlines begin alike, the outlines have one name, or one of
the names begins like a row of the other outline. -/
theorem eq_or_prefix_of_rows {name other : List Char}
    (h : name ++ [',', ' '] <+: other ++ [',', ' ']) :
    name = other ∨ name ++ [',', ' '] <+: other := by
  obtain ⟨tail, same⟩ := h
  rcases List.eq_nil_or_concat' tail with rfl | ⟨tail, last, rfl⟩
  · rw [List.append_nil] at same
    exact .inl (List.append_cancel_right same)
  · rcases List.eq_nil_or_concat' tail with rfl | ⟨tail, last', rfl⟩
    · -- One character apart, a comma would have to be a space.
      have split : (name ++ [',']) ++ [' ', last] = other ++ [',', ' '] := by
        simpa using same
      have ends := (List.append_inj' split rfl).2
      cases ends
    · have split : (name ++ [',', ' '] ++ tail) ++ [last', last] = other ++ [',', ' '] := by
        simpa using same
      exact .inr ⟨tail, (List.append_inj' split rfl).1⟩

/-- Whether neither of two names begins like a row of the outline with the other name. -/
def AreApart (name other : String) : Prop :=
  ¬ (rowTitleStart name).toList <+: other.toList ∧ ¬ (rowTitleStart other).toList <+: name.toList

/-- A title begins like the rows of one outline only, if the names are apart. -/
theorem eq_of_rowTitleStart {name other title : String} (apart : AreApart name other)
    (begins : (rowTitleStart name).toList <+: title.toList)
    (beginsToo : (rowTitleStart other).toList <+: title.toList) : name = other := by
  obtain ⟨keeps, keepsToo⟩ := apart
  rw [toList_rowTitleStart] at begins beginsToo keeps keepsToo
  rcases List.prefix_or_prefix_of_prefix begins beginsToo with alike | alike
  · rcases eq_or_prefix_of_rows alike with same | inside
    · exact String.toList_inj.mp same
    · exact (keeps inside).elim
  · rcases eq_or_prefix_of_rows alike with same | inside
    · exact (String.toList_inj.mp same).symm
    · exact (keepsToo inside).elim

/-! ## Rows in a report -/

namespace RecordedFeature

theorem mem_rows_iff {recorded : RecordedFeature} {name : String} {scenario : RecordedScenario} :
    scenario ∈ recorded.rows name ↔
      scenario ∈ recorded.scenarios ∧ (rowTitleStart name).toList <+: scenario.title.toList := by
  rw [rows, List.mem_filter, List.isPrefixOf_iff_prefix]

/-- **No row counts for two outlines exactly if their names are apart.** If a name looks like a row
of the other outline, so do all rows of the outline it names. -/
theorem disjoint_rows_iff {name other : String} (different : name ≠ other) :
    (∀ recorded : RecordedFeature, (recorded.rows name).Disjoint (recorded.rows other)) ↔
      AreApart name other := by
  constructor
  · intro disjoint
    -- A single row of either outline shows what goes wrong.
    have one : ∀ title : String, ¬ ((rowTitleStart name).toList <+: title.toList ∧
        (rowTitleStart other).toList <+: title.toList) := by
      intro title begins
      have member : (⟨title, none⟩ : RecordedScenario) ∈ [(⟨title, none⟩ : RecordedScenario)] :=
        List.mem_cons_self
      exact disjoint ⟨"", [⟨title, none⟩]⟩ (mem_rows_iff.mpr ⟨member, begins.1⟩)
        (mem_rows_iff.mpr ⟨member, begins.2⟩)
    have ofName : ∀ name : String, name.toList <+: (rowTitleStart name).toList := by
      intro name
      rw [toList_rowTitleStart]
      exact List.prefix_append _ _
    refine ⟨fun inside => ?_, fun inside => ?_⟩
    · exact one (rowTitleStart other) ⟨inside.trans (ofName other), List.prefix_rfl⟩
    · exact one (rowTitleStart name) ⟨List.prefix_rfl, inside.trans (ofName name)⟩
  · intro apart recorded scenario inRows inOthers
    exact different
      (eq_of_rowTitleStart apart (mem_rows_iff.mp inRows).2 (mem_rows_iff.mp inOthers).2)

/-- A recorded feature without the rows of an outline. -/
def withoutRows (recorded : RecordedFeature) (name : String) : RecordedFeature :=
  { recorded with scenarios := recorded.scenarios.filter fun scenario =>
      !(rowTitleStart name).toList.isPrefixOf scenario.title.toList }

/-- Without the rows of an outline, all rows of an outline with another name are left. -/
theorem rows_withoutRows {name other : String} (different : name ≠ other)
    (apart : AreApart name other) (recorded : RecordedFeature) :
    (recorded.withoutRows name).rows other = recorded.rows other := by
  unfold rows withoutRows
  rw [List.filter_filter]
  refine List.filter_congr fun scenario _ => ?_
  cases isRow : (rowTitleStart other).toList.isPrefixOf scenario.title.toList with
  | false => rfl
  | true =>
      rw [Bool.true_and, Bool.not_eq_true', ← Bool.not_eq_true, List.isPrefixOf_iff_prefix]
      intro begins
      exact different (eq_of_rowTitleStart apart begins (List.isPrefixOf_iff_prefix.mp isRow))

theorem find?_withoutRows (features : List RecordedFeature) (name title : String) :
    find? (features.map (withoutRows · name)) title =
      (find? features title).map (withoutRows · name) := by
  unfold find?
  rw [List.find?_map]
  rfl

end RecordedFeature

/-! ## Verdicts on outlines -/

/-- Whether no outline of a feature is named like a row of another one. -/
def Feature.KeepsOutlinesApart (feature : Feature) : Prop :=
  ∀ outline other, .outline outline ∈ feature.elements → .outline other ∈ feature.elements →
    ¬ (rowTitleStart outline.name).toList <+: other.name.toList

/-- A SpecRun report says the same of an outline without the rows of another outline. -/
theorem outline_withoutRows {outline other : Outline} (different : other.name ≠ outline.name)
    (apart : AreApart other.name outline.name) (features : List RecordedFeature) :
    (Report.mk .specRun (features.map (·.withoutRows other.name))).toSource.outline outline =
      (Report.mk .specRun features).toSource.outline outline := by
  change (RecordedFeature.find? (features.map (·.withoutRows other.name)) _).elim _
    (fun recorded => overallVerdict (recorded.rows outline.name)) =
      (RecordedFeature.find? features _).elim _ fun recorded =>
        overallVerdict (recorded.rows outline.name)
  rw [RecordedFeature.find?_withoutRows]
  cases RecordedFeature.find? features outline.featureName with
  | none => rfl
  | some recorded =>
      exact congrArg overallVerdict
        (RecordedFeature.rows_withoutRows different apart recorded)

/-- **A row counts for one outline only, if no outline is named like a row of another one**, and
not if one is. So in a feature whose elements have distinct names, and whose outlines are named like
no rows, what a SpecRun report has recorded of one outline has no effect on the verdict on another
one. -/
theorem rows_count_once :
    (∀ name other : String, name ≠ other →
      ((∀ recorded : RecordedFeature, (recorded.rows name).Disjoint (recorded.rows other)) ↔
        AreApart name other)) ∧
    ∀ feature : Feature, (feature.elements.map Element.name).Nodup → feature.KeepsOutlinesApart →
      ∀ outline other, .outline outline ∈ feature.elements → .outline other ∈ feature.elements →
        other ≠ outline → ∀ features : List RecordedFeature,
          (Report.mk .specRun features).toSource.outline outline =
            (Report.mk .specRun (features.map (·.withoutRows other.name))).toSource.outline
              outline := by
  refine ⟨fun name other => RecordedFeature.disjoint_rows_iff, ?_⟩
  intro feature distinct apart outline other inFeature otherInFeature different features
  have differentNames : other.name ≠ outline.name := by
    intro same
    have whole := List.inj_on_of_nodup_map distinct otherInFeature inFeature same
    exact different (Element.outline.inj whole)
  exact (outline_withoutRows differentNames
    ⟨apart other outline otherInFeature inFeature, apart outline other inFeature otherInFeature⟩
    features).symm

/-- Two outlines whose names differ by a comma, and a failed row of one of them. -/
theorem rows_count_once_comma :
    let outline : Outline := ⟨"a", "", [], [], [], "f"⟩
    let other : Outline := ⟨"a,", "", [], [], [], "f"⟩
    let feature : Feature := ⟨"f", "", [], [.outline outline, .outline other], none⟩
    let recorded : RecordedFeature := ⟨"f", [⟨"a, 1", some "passed"⟩, ⟨"a,, 1", some "failed"⟩]⟩
    other.name ≠ outline.name ∧ (feature.elements.map Element.name).Nodup ∧
      feature.KeepsOutlinesApart ∧ (recorded.rows "a").Disjoint (recorded.rows "a,") ∧
      (Report.mk .specRun [recorded]).toSource.outline outline =
        (Report.mk .specRun [⟨"f", [⟨"a, 1", some "passed"⟩]⟩]).toSource.outline outline := by
  intro outline other feature recorded
  have different : other.name ≠ outline.name := by decide
  have distinct : (feature.elements.map Element.name).Nodup := by decide
  have apart : feature.KeepsOutlinesApart := by
    have allApart : ∀ name ∈ ["a", "a,"], ∀ name' ∈ ["a", "a,"],
        ¬ (rowTitleStart name).toList <+: name'.toList := by decide
    have named : ∀ element, .outline element ∈ feature.elements → element.name ∈ ["a", "a,"] := by
      intro element member
      have shape : element = outline ∨ element = other := by simpa [feature] using member
      rcases shape with rfl | rfl <;> decide
    exact fun _ _ member member' => allApart _ (named _ member) _ (named _ member')
  obtain ⟨disjoint, same⟩ := rows_count_once
  have inFeature : .outline outline ∈ feature.elements := List.mem_cons_self
  have otherInFeature : .outline other ∈ feature.elements :=
    List.mem_cons_of_mem _ List.mem_cons_self
  refine ⟨different, distinct, apart, ?_, ?_⟩
  · refine (disjoint "a" "a," (by decide)).mpr ?_ recorded
    exact ⟨apart outline other inFeature otherInFeature,
      apart other outline otherInFeature inFeature⟩
  · have without := same feature distinct apart outline other inFeature otherInFeature (by decide)
      [recorded]
    rw [without, show [recorded].map (·.withoutRows other.name) =
      [⟨"f", [⟨"a, 1", some "passed"⟩]⟩] by decide]

/-- A row that counts twice: recorded for the outline `a` with the values `b, c`, it makes the
outline `a, b` fail, of which no row has been recorded. -/
theorem row_counts_twice :
    let outline : Outline := ⟨"a", "", [], [], [], "f"⟩
    let other : Outline := ⟨"a, b", "", [], [], [], "f"⟩
    let feature : Feature := ⟨"f", "", [], [.outline outline, .outline other], none⟩
    let row : RecordedScenario := ⟨rowTitleStart outline.name ++ "b, c", some "failed"⟩
    let recorded : RecordedFeature := ⟨"f", [row]⟩
    outline.name ≠ other.name ∧ (feature.elements.map Element.name).Nodup ∧
      row ∈ recorded.rows outline.name ∧ row ∈ recorded.rows other.name ∧
      (Report.mk .specRun [recorded]).toSource.outline other = .failed := by
  decide

end LivingDoc
