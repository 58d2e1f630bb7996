import LivingDoc.Proofs.SpecRun.Acceptance

/-!
The elements that are open after some tokens of a report, and what the index knows about them.

The index keeps no names. Of the open elements it knows how many there are, and of those that are
features how deep each of them is and where it stands among the features. `Index.Tracks` says that
all this is right; a step keeps it, and so does a run. Main statement: in an accepted report every
feature has a title, and so has every scenario inside a feature.
-/

namespace LivingDoc.SpecRun

open Xml (Tag Token)

/-! ## Open elements -/

/-- An element that is open: its name, and how many features began before it. -/
structure OpenElement where
  name : List Char
  earlier : Nat
  deriving DecidableEq

/-- What is open after some tokens, innermost first, and how many features have begun. -/
structure Progress where
  elements : List OpenElement
  begun : Nat
  deriving DecidableEq

namespace Progress

/-- No token has been read. -/
def initial : Progress := ⟨[], 0⟩

/-- How many features have begun once an element with a name has. -/
def begunWith (progress : Progress) (name : List Char) : Nat :=
  if name = featureName then progress.begun + 1 else progress.begun

/-- What is open after one more token. -/
def follow (progress : Progress) : Token → Progress
  | .start tag => ⟨⟨tag.name, progress.begun⟩ :: progress.elements, progress.begunWith tag.name⟩
  | .empty tag => ⟨progress.elements, progress.begunWith tag.name⟩
  | .close _ => ⟨progress.elements.tail, progress.begun⟩
  | _ => progress

/-- What is open after some tokens from the beginning of a text. -/
def after (tokens : List Token) : Progress :=
  tokens.foldl follow initial

/-- Whether a feature is open. -/
def IsWithinFeature (progress : Progress) : Prop :=
  ∃ element ∈ progress.elements, element.name = featureName

end Progress

/-- For each open element that is a feature, the number of elements around it and its position among
the features. -/
def openFeatures : List OpenElement → List (Nat × Nat)
  | [] => []
  | element :: outer =>
    if element.name = featureName then (outer.length, element.earlier) :: openFeatures outer
    else openFeatures outer

theorem openFeatures_ne_nil_iff {elements : List OpenElement} :
    openFeatures elements ≠ [] ↔ ∃ element ∈ elements, element.name = featureName := by
  induction elements with
  | nil => simp [openFeatures]
  | cons element outer ih =>
      rw [openFeatures]
      by_cases isFeature : element.name = featureName
      · simp [isFeature]
      · rw [if_neg isFeature, ih]
        simp [isFeature]

theorem depth_lt_of_mem_openFeatures {elements : List OpenElement} :
    ∀ entry ∈ openFeatures elements, entry.1 < elements.length := by
  induction elements with
  | nil => exact fun _ member => (by cases member)
  | cons element outer ih =>
      intro entry member
      have below : entry ∈ openFeatures outer → entry.1 < (element :: outer).length := fun member =>
        Nat.lt_succ_of_lt (ih entry member)
      rw [openFeatures] at member
      split at member
      · rcases List.mem_cons.mp member with rfl | member
        · exact Nat.lt_succ_self _
        · exact below member
      · exact below member

/-! ## What the index knows -/

/-- `index.Tracks progress`: the index has counted what is open and knows which of it are
features. -/
structure Index.Tracks (index : Index) (progress : Progress) : Prop where
  depth : index.depth = progress.elements.length
  enclosing : index.enclosing = openFeatures progress.elements
  features : index.features.length = progress.begun

namespace Index

variable {index next : Index} {progress : Progress}

theorem Tracks.initial : Index.initial.Tracks .initial :=
  ⟨rfl, rfl, rfl⟩

theorem Tracks.isWithin_iff (tracks : index.Tracks progress) :
    index.isWithin = true ↔ progress.IsWithinFeature := by
  unfold isWithin Progress.IsWithinFeature
  rw [← openFeatures_ne_nil_iff, ← tracks.enclosing]
  simp

theorem length_features_opened (index : Index) (name : List Char)
    (attributes : List (List Char × List Char)) (stays : Bool) :
    (index.opened name attributes stays).features.length =
      if name = featureName then index.features.length + 1 else index.features.length := by
  unfold opened
  dsimp only
  split_ifs <;> simp

theorem Tracks.start (tracks : index.Tracks progress) (tag : Tag)
    (attributes : List (List Char × List Char)) :
    (index.opened tag.name attributes true).Tracks (progress.follow (.start tag)) where
  depth := congrArg (· + 1) tracks.depth
  enclosing := by
    simp only [opened, Progress.follow, openFeatures, tracks.depth, tracks.features,
      tracks.enclosing, and_true]
  features := by
    rw [length_features_opened, tracks.features]
    rfl

theorem Tracks.empty (tracks : index.Tracks progress) (tag : Tag)
    (attributes : List (List Char × List Char)) :
    (index.opened tag.name attributes false).Tracks (progress.follow (.empty tag)) where
  depth := tracks.depth
  enclosing := by simp [opened, Progress.follow, tracks.enclosing]
  features := by
    rw [length_features_opened, tracks.features]
    rfl

/-- The end of an element takes it off the stack exactly if it is a feature. -/
theorem Tracks.close (tracks : index.Tracks progress) (closed : index.closeElement = .ok next)
    (name : List Char) : next.Tracks (progress.follow (.close name)) := by
  obtain ⟨elements, begun⟩ := progress
  obtain ⟨counted, enclosing, features⟩ := tracks
  cases elements with
  | nil =>
      have higher := depth_of_closeElement closed
      rw [counted] at higher
      cases higher
  | cons element outer =>
      have depth : index.depth = outer.length + 1 := counted
      unfold closeElement at closed
      rw [depth] at closed
      dsimp only at closed
      cases closed
      refine ⟨rfl, ?_, features⟩
      dsimp only at enclosing ⊢
      rw [enclosing, openFeatures]
      by_cases isFeature : element.name = featureName
      · simp [isFeature, Progress.follow]
      · rw [if_neg isFeature]
        -- A feature that stays open is not as deep as the element that ends.
        cases found : openFeatures outer with
        | nil => simp [Progress.follow, found]
        | cons entry others =>
            have below := depth_lt_of_mem_openFeatures entry (found ▸ List.mem_cons_self)
            simp [Progress.follow, found, Nat.ne_of_lt below]

/-- **A step keeps track of what is open.** -/
theorem Tracks.step {token : Token} (tracks : index.Tracks progress) (few : index.roots ≤ 1)
    (stepped : index.step token = .ok next) : next.Tracks (progress.follow token) := by
  cases token with
  | start tag =>
      have began := (step_eq_ok_iff.mp stepped).1
      obtain ⟨attributes, holds⟩ := exists_holds_of_openElement began
      rw [((openElement_eq_ok_iff holds).mp began).2]
      exact tracks.start tag attributes
  | empty tag =>
      have began := (step_eq_ok_iff.mp stepped).1
      obtain ⟨attributes, holds⟩ := exists_holds_of_openElement began
      rw [((openElement_eq_ok_iff holds).mp began).2]
      exact tracks.empty tag attributes
  | close name => exact tracks.close (step_close_eq_ok_iff.mp stepped).1 name
  | text => exact ((step_text_eq_ok_iff few).mp stepped).2.2 ▸ tracks
  | cdata => exact ((step_cdata_eq_ok_iff few).mp stepped).2 ▸ tracks
  | comment => exact Except.ok.inj ((step_aside few rfl).symm.trans stepped) ▸ tracks
  | doctype => exact Except.ok.inj ((step_aside few rfl).symm.trans stepped) ▸ tracks
  | instruction => exact Except.ok.inj ((step_aside few rfl).symm.trans stepped) ▸ tracks

theorem Tracks.run {tokens : List Token} (tracks : index.Tracks progress) (few : index.roots ≤ 1)
    (ran : tokens.foldlM Index.step index = .ok next) :
    next.Tracks (tokens.foldl Progress.follow progress) ∧ next.roots ≤ 1 := by
  induction tokens generalizing index progress with
  | nil =>
      cases ran
      exact ⟨tracks, few⟩
  | cons token tokens ih =>
      rw [List.foldlM_cons] at ran
      obtain ⟨middle, stepped, ran⟩ := bind_eq_ok_iff.mp ran
      exact ih (tracks.step few stepped) (step_eq_ok_iff.mp stepped).2 ran

/-- An element that may begin has a title if it is a feature, or a scenario inside one. -/
theorem Tracks.titled {tag : Tag} {stays : Bool} (tracks : index.Tracks progress)
    (began : index.openElement tag stays = .ok next)
    (records : tag.name = featureName ∨
      tag.name = scenarioName ∧ progress.IsWithinFeature) :
    ∃ attributes, tag.Holds attributes ∧ (attributes.lookup titleKey).isSome = true := by
  obtain ⟨attributes, holds⟩ := exists_holds_of_openElement began
  obtain ⟨welcome, _⟩ := (openElement_eq_ok_iff holds).mp began
  rw [← tracks.isWithin_iff] at records
  exact ⟨attributes, holds, welcome records⟩

end Index

/-! ## Titles -/

/-- Whether a token begins an element with a tag, be it empty or not. -/
def Begins (token : Token) (tag : Tag) : Prop :=
  token = .start tag ∨ token = .empty tag

/-- **Every entry of an accepted report has a title**: each feature at any depth, and each scenario
with a feature around it. A scenario outside all features is no entry, and is asked for none. -/
theorem titled_of_features {xml : List Char} {found : List RecordedFeature}
    (accepted : features xml = .ok found) {before after : List Token} {token : Token} {tag : Tag}
    (occurs : (Xml.read xml).items = before ++ token :: after) (begins : Begins token tag)
    (records : tag.name = featureName ∨
      tag.name = scenarioName ∧ (Progress.after before).IsWithinFeature) :
    ∃ attributes, tag.Holds attributes ∧ (attributes.lookup titleKey).isSome = true := by
  obtain ⟨_, index, ran, _⟩ := features_eq_ok_iff_run.mp accepted
  rw [occurs, List.foldlM_append] at ran
  obtain ⟨reached, ranBefore, ran⟩ := bind_eq_ok_iff.mp ran
  obtain ⟨tracks, _⟩ := Index.Tracks.initial.run (Nat.zero_le 1) ranBefore
  rw [List.foldlM_cons] at ran
  obtain ⟨next, stepped, _⟩ := bind_eq_ok_iff.mp ran
  have followed := (Index.step_eq_ok_iff.mp stepped).1
  rcases begins with rfl | rfl
  · exact tracks.titled followed records
  · exact tracks.titled followed records

/-- A scenario at some depth in a feature, beside one outside that is not asked for a title. -/
theorem titled_of_features_nested :
    let xml := "<a><scenario/><feature title='f'><b><scenario title='s'/></b></feature></a>".toList
    let before := [.start ⟨"a".toList⟩, .empty ⟨"scenario".toList⟩,
      .start ⟨"feature title='f'".toList⟩, .start ⟨"b".toList⟩]
    let tag : Tag := ⟨"scenario title='s'".toList⟩
    let after := [.close "b".toList, .close "feature".toList, .close "a".toList]
    features xml = .ok [⟨"f", [⟨"s", none⟩]⟩] ∧
      (Xml.read xml).items = before ++ .empty tag :: after ∧
      tag.name = scenarioName ∧ (Progress.after before).IsWithinFeature ∧
      ∃ attributes, tag.Holds attributes ∧ (attributes.lookup titleKey).isSome = true := by
  intro xml before tag after
  have accepted : features xml = .ok [⟨"f", [⟨"s", none⟩]⟩] := by decide +kernel
  have occurs : (Xml.read xml).items = before ++ .empty tag :: after := by decide +kernel
  have named : tag.name = scenarioName := by decide +kernel
  have within : (Progress.after before).IsWithinFeature :=
    ⟨⟨featureName, 0⟩, by decide +kernel, rfl⟩
  exact ⟨accepted, occurs, named, within,
    titled_of_features accepted occurs (.inr rfl) (.inr ⟨named, within⟩)⟩

/-- A failed scenario outside every feature goes unnoticed, with a title or without one. -/
theorem features_of_stray_scenario :
    let xml := "<features><scenario result='failed'/></features>".toList
    let tag : Tag := ⟨"scenario result='failed'".toList⟩
    features xml = .ok [] ∧ .empty tag ∈ (Xml.read xml).items ∧ tag.name = scenarioName ∧
      ¬ ∃ attributes, tag.Holds attributes ∧ (attributes.lookup titleKey).isSome = true := by
  intro xml tag
  refine ⟨by decide +kernel, by decide +kernel, by decide +kernel, ?_⟩
  rintro ⟨attributes, holds, titled⟩
  have sought := seekAttribute_of_holds holds titleKey
  have absent : seekAttribute tag titleKey = .ok none := by decide +kernel
  rw [absent] at sought
  rw [Option.isSome_iff_exists] at titled
  obtain ⟨value, titled⟩ := titled
  rw [titled] at sought
  cases sought

end LivingDoc.SpecRun
