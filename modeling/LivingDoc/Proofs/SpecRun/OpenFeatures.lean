import LivingDoc.Proofs.SpecRun.OpenElements

/-!
The stack of open features beside the reader.

The reader holds the names of the open elements, the index only their number and the places of the
features among them. Both follow the same tokens, so after each of them the index knows of every
feature that the reader holds open. This leaves no way to come upon a closing tag where the index
has nothing open, and as the attributes of an element are checked before any of them is looked for,
no search for one can fail: the faults for these cases never arise.
-/

namespace LivingDoc.Xml

/-! ## What the reader holds open -/

/-- `Takes total names text tokens left rest`: in a text of a total size, where the elements `names`
are open, the reader takes `tokens` from `text` one after the other. Then it holds the elements
`left` open, innermost first, and has `rest` to go on with. -/
inductive Takes (total : Nat) :
    List (List Char) → List Char → List Token → List (List Char) → List Char → Prop
  | nil {names : List (List Char)} {text : List Char} : Takes total names text [] names text
  | cons {names middle left : List (List Char)} {text more rest : List Char} {token : Token}
      {tokens : List Token} :
    take total names text = .ok (some (token, middle, more)) →
    Takes total middle more tokens left rest →
    Takes total names text (token :: tokens) left rest

/-- `HoldsOpen text tokens names`: once the reader has taken `tokens` from the front of a text, it
holds the elements `names` open, innermost first. -/
def HoldsOpen (text : List Char) (tokens : List Token) (names : List (List Char)) : Prop :=
  ∃ rest, Takes (size (withoutMark text)) [] (withoutMark text) tokens names rest

theorem Takes.nested {total : Nat} {names left : List (List Char)} {text rest : List Char}
    {tokens : List Token} (takes : Takes total names text tokens left rest) :
    Nested names tokens left := by
  induction takes with
  | nil => exact .nil
  | cons taken _ ih => exact .cons (nests_of_take taken) ih

/-- What the reader returns first, it takes first. -/
theorem exists_take_of_items {total : Nat} {names : List (List Char)} {text : List Char}
    {token : Token} {tokens : List Token}
    (returned : (readFrom total names text).items = token :: tokens) :
    ∃ left rest, take total names text = .ok (some (token, left, rest)) ∧
      (readFrom total left rest).items = tokens := by
  rw [readFrom] at returned
  split at returned
  · cases returned
  · cases returned
  · next taken =>
    obtain ⟨rfl, later⟩ := List.cons.inj returned
    exact ⟨_, _, taken, later⟩

/-- The reader comes past all that it returns, one token after the other. -/
theorem exists_takes {total : Nat} {names : List (List Char)} {text : List Char}
    {before after : List Token} (split : (readFrom total names text).items = before ++ after) :
    ∃ left rest, Takes total names text before left rest ∧
      (readFrom total left rest).items = after := by
  induction before generalizing names text with
  | nil => exact ⟨names, text, .nil, split⟩
  | cons token before ih =>
      obtain ⟨middle, more, taken, later⟩ := exists_take_of_items split
      obtain ⟨left, rest, takes, last⟩ := ih later
      exact ⟨left, rest, .cons taken takes, last⟩

theorem exists_holdsOpen {text : List Char} {before after : List Token}
    (split : (read text).items = before ++ after) : ∃ names, HoldsOpen text before names := by
  obtain ⟨names, rest, takes, _⟩ := exists_takes split
  exact ⟨names, rest, takes⟩

/-- A token that the reader returns fits what it then holds open. -/
theorem exists_nests {text : List Char} {before after : List Token} {token : Token}
    (split : (read text).items = before ++ token :: after) :
    ∃ names left, HoldsOpen text before names ∧ Nests names token left := by
  obtain ⟨names, rest, takes, later⟩ := exists_takes split
  obtain ⟨left, _, taken, _⟩ := exists_take_of_items later
  exact ⟨names, left, ⟨rest, takes⟩, nests_of_take taken⟩

end LivingDoc.Xml

namespace LivingDoc.SpecRun

open Report (Malformed)
open Xml (Tag Token Nested HoldsOpen)

/-! ## Open elements and their names -/

namespace Progress

variable {progress : Progress}

theorem names_of_nested {names left : List (List Char)} {tokens : List Token}
    (nested : Nested names tokens left) (same : progress.elements.map OpenElement.name = names) :
    (tokens.foldl follow progress).elements.map OpenElement.name = left := by
  induction nested generalizing progress with
  | nil => exact same
  | @cons _ _ _ token _ first _ ih =>
      rw [List.foldl_cons]
      refine ih ?_
      cases first with
      | start tag => exact congrArg (tag.name :: ·) same
      | close name =>
          change progress.elements.tail.map OpenElement.name = _
          rw [List.map_tail, same, List.tail_cons]
      | level isLevel =>
          cases token with
          | start => cases isLevel
          | close => cases isLevel
          | _ => exact same

/-- The features that are open have begun one inside the other and one after the other. -/
structure IsOrdered (progress : Progress) : Prop where
  begun : ∀ entry ∈ openFeatures progress.elements, entry.2 < progress.begun
  enclosed : (openFeatures progress.elements).Pairwise fun inner outer =>
    outer.1 < inner.1 ∧ outer.2 < inner.2

theorem IsOrdered.initial : Progress.initial.IsOrdered :=
  ⟨List.forall_mem_nil _, .nil⟩

/-- An element that is not open changes nothing about those that are. -/
theorem IsOrdered.begin (ordered : progress.IsOrdered) (name : List Char) :
    IsOrdered ⟨progress.elements, progress.begunWith name⟩ := by
  refine ⟨fun entry member => ?_, ordered.enclosed⟩
  have earlier := ordered.begun entry member
  unfold begunWith
  dsimp only
  split <;> omega

theorem IsOrdered.follow (ordered : progress.IsOrdered) (token : Token) :
    (progress.follow token).IsOrdered := by
  cases token with
  | start tag =>
      by_cases isFeature : tag.name = featureName
      · have stack : openFeatures (progress.follow (.start tag)).elements =
            (progress.elements.length, progress.begun) :: openFeatures progress.elements :=
          if_pos isFeature
        have begun : (progress.follow (.start tag)).begun = progress.begun + 1 := if_pos isFeature
        constructor
        · rw [stack, begun, List.forall_mem_cons]
          exact ⟨Nat.lt_succ_self _, fun entry member =>
            Nat.lt_succ_of_lt (ordered.begun entry member)⟩
        · rw [stack, List.pairwise_cons]
          exact ⟨fun entry member =>
            ⟨depth_lt_of_mem_openFeatures entry member, ordered.begun entry member⟩,
            ordered.enclosed⟩
      · have stack : openFeatures (progress.follow (.start tag)).elements =
            openFeatures progress.elements := if_neg isFeature
        have begun := ordered.begin tag.name
        exact ⟨stack ▸ begun.begun, stack ▸ begun.enclosed⟩
  | empty tag => exact ordered.begin tag.name
  | close name =>
      obtain ⟨elements, count⟩ := progress
      have suffix : (openFeatures elements.tail).Sublist (openFeatures elements) := by
        cases elements with
        | nil => exact .refl _
        | cons element outer =>
            rw [openFeatures, List.tail_cons]
            split
            · exact List.sublist_cons_self _ _
            · exact .refl _
      exact ⟨fun entry member => ordered.begun entry (suffix.subset member),
        ordered.enclosed.sublist suffix⟩
  | _ => exact ordered

theorem IsOrdered.run (ordered : progress.IsOrdered) (tokens : List Token) :
    (tokens.foldl Progress.follow progress).IsOrdered := by
  induction tokens generalizing progress with
  | nil => exact ordered
  | cons token tokens ih => exact ih (ordered.follow token)

end Progress

/-! ## Titles of the features that have begun -/

/-- The tag of a token that begins a feature. -/
def featureTag? : Token → Option Tag
  | .start tag => if tag.name = featureName then some tag else none
  | .empty tag => if tag.name = featureName then some tag else none
  | _ => none

/-- The tags of all features that have begun, in their order. -/
def featureTags (tokens : List Token) : List Tag :=
  tokens.filterMap featureTag?

theorem map_title_attach (enclosing : List (Nat × Nat)) (features : List RecordedFeature)
    (scenarios : List RecordedScenario) :
    (attach enclosing features scenarios).map RecordedFeature.title =
      features.map RecordedFeature.title := by
  cases enclosing with
  | nil => rfl
  | cons entry outer =>
      refine List.ext_getElem? fun place => ?_
      rw [attach, List.getElem?_map, List.getElem?_map, List.getElem?_modify]
      cases features[place]? with
      | none => rfl
      | some feature =>
          dsimp only [Functor.map, Option.map]
          split <;> rfl

namespace Index

variable {index next : Index}

/-- Titles that tags give. -/
def AreTitles (tags : List Tag) (titles : List String) : Prop :=
  List.Forall₂ (fun tag text => title tag = .ok text) tags titles

theorem exists_titles_of_openElement {tag : Tag} {stays : Bool}
    (began : index.openElement tag stays = .ok next) :
    ∃ added, AreTitles (if tag.name = featureName then some tag else none).toList added ∧
      next.features.map RecordedFeature.title =
        index.features.map RecordedFeature.title ++ added := by
  obtain ⟨attributes, holds⟩ := exists_holds_of_openElement began
  obtain ⟨welcome, rfl⟩ := (openElement_eq_ok_iff holds).mp began
  unfold opened
  dsimp only
  by_cases isFeature : tag.name = featureName
  · have titled : title tag = .ok (titleAmong attributes) :=
      (title_eq_ok_iff holds).mpr ⟨welcome (.inl isFeature), rfl⟩
    rw [if_pos isFeature, if_pos isFeature]
    exact ⟨[titleAmong attributes], .cons titled .nil, List.map_append⟩
  · rw [if_neg isFeature, if_neg isFeature]
    refine ⟨[], .nil, ?_⟩
    rw [List.append_nil]
    split
    · exact map_title_attach _ _ _
    · rfl

theorem features_of_closeElement (closed : index.closeElement = .ok next) :
    next.features = index.features := by
  unfold closeElement at closed
  split at closed
  · cases closed
  · cases closed
    rfl

/-- A step adds a feature at the end if a feature begins, and keeps all titles. -/
theorem exists_titles_of_step {token : Token} (few : index.roots ≤ 1)
    (stepped : index.step token = .ok next) :
    ∃ added, AreTitles (featureTag? token).toList added ∧
      next.features.map RecordedFeature.title =
        index.features.map RecordedFeature.title ++ added := by
  have unchanged : next.features = index.features →
      next.features.map RecordedFeature.title = index.features.map RecordedFeature.title ++ [] :=
    fun same => by rw [same, List.append_nil]
  have aside : index.step token = .ok index → next.features = index.features :=
    fun ignored => by rw [Except.ok.inj (ignored.symm.trans stepped)]
  cases token with
  | start tag => exact exists_titles_of_openElement (step_eq_ok_iff.mp stepped).1
  | empty tag => exact exists_titles_of_openElement (step_eq_ok_iff.mp stepped).1
  | close name =>
      have closed := (step_close_eq_ok_iff.mp stepped).1
      exact ⟨[], .nil, unchanged (features_of_closeElement closed)⟩
  | text =>
      have same := ((step_text_eq_ok_iff few).mp stepped).2.2
      exact ⟨[], .nil, unchanged (same ▸ rfl)⟩
  | cdata =>
      have same := ((step_cdata_eq_ok_iff few).mp stepped).2
      exact ⟨[], .nil, unchanged (same ▸ rfl)⟩
  | comment => exact ⟨[], .nil, unchanged (aside (step_aside few rfl))⟩
  | doctype => exact ⟨[], .nil, unchanged (aside (step_aside few rfl))⟩
  | instruction => exact ⟨[], .nil, unchanged (aside (step_aside few rfl))⟩

theorem exists_titles_of_run {tokens : List Token} (few : index.roots ≤ 1)
    (ran : tokens.foldlM step index = .ok next) :
    ∃ added, AreTitles (featureTags tokens) added ∧
      next.features.map RecordedFeature.title =
        index.features.map RecordedFeature.title ++ added := by
  induction tokens generalizing index with
  | nil =>
      cases ran
      exact ⟨[], .nil, (List.append_nil _).symm⟩
  | cons token tokens ih =>
      rw [List.foldlM_cons] at ran
      obtain ⟨middle, stepped, ran⟩ := bind_eq_ok_iff.mp ran
      obtain ⟨first, titlesFirst, sameFirst⟩ := exists_titles_of_step few stepped
      obtain ⟨others, titles, same⟩ := ih (step_eq_ok_iff.mp stepped).2 ran
      have split : featureTags (token :: tokens) =
          (featureTag? token).toList ++ featureTags tokens := by
        rw [featureTags, List.filterMap_cons]
        cases featureTag? token <;> rfl
      refine ⟨first ++ others, ?_, ?_⟩
      · rw [split]
        exact List.rel_append titlesFirst titles
      · rw [same, sameFirst, List.append_assoc]

/-! ## What the index knows of the reader -/

/-- `index.Knows tokens names`: after the tokens an index knows as much as it needs of the elements
that the reader holds open. -/
structure Knows (index : Index) (tokens : List Token) (names : List (List Char)) : Prop where
  /-- The open elements, each with the number of features in front of it. -/
  named : (Progress.after tokens).elements.map OpenElement.name = names
  depth : index.depth = names.length
  /-- The stack lists the features among the open elements, with their depths and places. -/
  enclosing : index.enclosing = openFeatures (Progress.after tokens).elements
  /-- The features stand in the order in which their elements have begun. -/
  titles : AreTitles (featureTags tokens) (index.features.map RecordedFeature.title)
  /-- From the outermost feature to the innermost one, depths and places grow. -/
  increasing : index.enclosing.reverse.Pairwise fun outer inner =>
    outer.1 < inner.1 ∧ outer.2 < inner.2
  depths : ∀ entry ∈ index.enclosing, entry.1 < index.depth
  positions : ∀ entry ∈ index.enclosing, entry.2 < index.features.length

theorem knows_of_holdsOpen {xml : List Char} {tokens : List Token} {names : List (List Char)}
    (held : HoldsOpen xml tokens names) (ran : tokens.foldlM step .initial = .ok index) :
    index.Knows tokens names := by
  obtain ⟨rest, takes⟩ := held
  have nested : Nested [] tokens names := takes.nested
  obtain ⟨tracks, _⟩ := Tracks.initial.run (Nat.zero_le 1) ran
  have ordered := Progress.IsOrdered.initial.run tokens
  have sameNames : (Progress.after tokens).elements.map OpenElement.name = names :=
    Progress.names_of_nested nested rfl
  obtain ⟨titles, areTitles, same⟩ := exists_titles_of_run (Nat.zero_le 1) ran
  refine ⟨sameNames, ?_, tracks.enclosing, ?_, ?_, ?_, ?_⟩
  · rw [tracks.depth, ← sameNames, List.length_map, Progress.after]
  · rw [same]
    exact areTitles
  · rw [tracks.enclosing, List.pairwise_reverse]
    exact ordered.enclosed
  · rw [tracks.enclosing, tracks.depth]
    exact depth_lt_of_mem_openFeatures
  · rw [tracks.enclosing, tracks.features]
    exact ordered.begun

end Index

/-! ## Faults that never arise -/

/-- Whether a fault is one that earlier checks leave no room for: the fault of a search for an
attribute, or of a closing tag where nothing is open. -/
def IsRuledOut : Malformed → Prop
  | .soughtAttribute _ _ => True
  | .soughtValue _ _ => True
  | .unmatchedClosing => True
  | _ => False

/-- The words with which only faults that are ruled out begin. -/
def ruledOutWords : List (List Char) :=
  ["invalid attribute".toList, "unmatched end tag".toList]

theorem isRuledOut_of_message [Wording] {malformed : Malformed} {word : List Char}
    (known : word ∈ ruledOutWords)
    (begins : "malformed report: ".toList ++ word <+: malformed.message.toList) :
    IsRuledOut malformed := by
  have apart : ∀ front rest : List Char,
      (∀ word ∈ ruledOutWords, ¬ word <+: front ∧ ¬ front <+: word) → ¬ word <+: front ++ rest := by
    intro front rest apart begins
    rcases List.prefix_or_prefix_of_prefix begins (List.prefix_append front rest) with h | h
    · exact (apart word known).1 h
    · exact (apart word known).2 h
  unfold Malformed.message Malformed.detail at begins
  rw [String.toList_append, List.prefix_append_right_inj] at begins
  cases malformed with
  | missingMarker marker =>
      simp only [String.toList_append, List.append_assoc] at begins
      exact absurd begins (apart "missing marker '".toList _ (by decide))
  | markup fault =>
      change word <+: ("invalid xml at byte " ++ toString fault.position ++ ": " ++
        fault.cause.message).toList at begins
      simp only [String.toList_append, List.append_assoc] at begins
      exact absurd begins (apart "invalid xml at byte ".toList _ (by decide))
  | attributes element fault =>
      simp only [String.toList_append, List.append_assoc] at begins
      exact absurd begins (apart "<".toList _ (by decide))
  | attributeValue element fault =>
      simp only [String.toList_append, List.append_assoc] at begins
      exact absurd begins (apart "<".toList _ (by decide))
  | missingAttribute element key =>
      simp only [String.toList_append, List.append_assoc] at begins
      exact absurd begins (apart "<".toList _ (by decide))
  | text fault =>
      simp only [String.toList_append] at begins
      exact absurd begins (apart "invalid text: ".toList _ (by decide))
  | notCucumberJson content =>
      simp only [String.toList_append] at begins
      exact absurd begins (apart "invalid cucumber json: ".toList _ (by decide))
  | soughtAttribute => trivial
  | soughtValue => trivial
  | unmatchedClosing => trivial
  | _ =>
      dsimp only at begins
      rw [← List.append_nil (String.toList _)] at begins
      exact absurd begins (apart _ _ (by decide))

section Attributes

variable {tag : Tag} {malformed : Malformed}

theorem not_isRuledOut_of_requireSoundAttributes
    (failed : requireSoundAttributes tag = .error malformed) : ¬ IsRuledOut malformed := by
  rcases bind_eq_error_iff.mp failed with failed | ⟨_, _, failed⟩
  · obtain ⟨item, _, failed⟩ := exists_of_forM_eq_error failed
    unfold requireResolvable at failed
    split at failed
    · cases failed
    · cases failed
      exact id
  · split at failed
    · cases failed
    · cases failed
      exact id

/-- Where the attributes of an element have passed the check, every search for one comes to an
end, with a value or without one. -/
theorem exists_seekAttribute (sound : requireSoundAttributes tag = .ok ()) (key : List Char) :
    ∃ value, seekAttribute tag key = .ok value := by
  obtain ⟨attributes, holds⟩ := requireSoundAttributes_eq_ok_iff.mp sound
  exact ⟨_, seekAttribute_of_holds holds key⟩

theorem not_isRuledOut_of_title (sound : requireSoundAttributes tag = .ok ())
    (failed : title tag = .error malformed) : ¬ IsRuledOut malformed := by
  obtain ⟨value, found⟩ := exists_seekAttribute sound titleKey
  unfold title at failed
  rw [found] at failed
  cases value with
  | none =>
      cases failed
      exact id
  | some text => cases failed

end Attributes

namespace Index

variable {index : Index} {malformed : Malformed}

theorem not_isRuledOut_of_addScenario {tag : Tag} (sound : requireSoundAttributes tag = .ok ())
    (failed : index.addScenario tag = .error malformed) : ¬ IsRuledOut malformed := by
  unfold addScenario at failed
  split at failed
  · split at failed
    · cases failed
    · rcases bind_eq_error_iff.mp failed with failed | ⟨_, _, failed⟩
      · exact not_isRuledOut_of_title sound failed
      · obtain ⟨value, found⟩ := exists_seekAttribute sound resultKey
        rw [found] at failed
        cases failed
  · cases failed

theorem not_isRuledOut_of_openElement {tag : Tag} {stays : Bool}
    (failed : index.openElement tag stays = .error malformed) : ¬ IsRuledOut malformed := by
  unfold openElement at failed
  rcases bind_eq_error_iff.mp failed with failed | ⟨_, sound, failed⟩
  · exact not_isRuledOut_of_requireSoundAttributes failed
  · dsimp only at failed
    split at failed
    · rcases bind_eq_error_iff.mp failed with failed | ⟨⟨_, _⟩, _, failed⟩
      · rcases bind_eq_error_iff.mp failed with failed | ⟨_, _, failed⟩
        · exact not_isRuledOut_of_title sound failed
        · cases failed
      · cases stays <;> cases failed
    · rcases bind_eq_error_iff.mp failed with failed | ⟨_, _, failed⟩
      · exact not_isRuledOut_of_addScenario sound failed
      · cases failed

/-- Of the faults that are ruled out, a step comes to one only at a closing tag, and only if it has
nothing open. -/
theorem depth_of_isRuledOut {token : Token} (failed : index.step token = .error malformed)
    (ruledOut : IsRuledOut malformed) : (∃ name, token = .close name) ∧ index.depth = 0 := by
  unfold step at failed
  rcases bind_eq_error_iff.mp failed with failed | ⟨next, _, failed⟩
  · cases token with
    | start tag => exact absurd ruledOut (not_isRuledOut_of_openElement failed)
    | empty tag => exact absurd ruledOut (not_isRuledOut_of_openElement failed)
    | close name =>
        refine ⟨⟨name, rfl⟩, ?_⟩
        change index.closeElement = .error malformed at failed
        unfold closeElement at failed
        split at failed
        · assumption
        · cases failed
    | text content =>
        unfold follow at failed
        dsimp only at failed
        split at failed
        · cases failed
          cases ruledOut
        · split at failed
          · cases failed
          · cases failed
            cases ruledOut
    | cdata content =>
        unfold follow at failed
        dsimp only at failed
        split at failed
        · cases failed
          cases ruledOut
        · cases failed
    | _ => cases failed
  · split at failed
    · cases failed
      cases ruledOut
    · cases failed

end Index

/-- The reader refuses a closing tag where nothing is open before the index comes to see it. -/
theorem not_isRuledOut_of_features {xml : List Char} {malformed : Malformed}
    (refused : features xml = .error malformed) : ¬ IsRuledOut malformed := by
  intro ruledOut
  rcases bind_eq_error_iff.mp refused with failed | ⟨index, _, failed⟩
  · obtain ⟨before, token, after, index, split, ran, failed⟩ := exists_of_foldlM_eq_error failed
    obtain ⟨⟨name, rfl⟩, level⟩ := Index.depth_of_isRuledOut failed ruledOut
    obtain ⟨names, left, held, nests⟩ := Xml.exists_nests split
    have knows : index.Knows before names := Index.knows_of_holdsOpen held ran
    rw [knows.depth] at level
    cases List.eq_nil_of_length_eq_zero level
    cases nests with
    | level isLevel => cases isLevel
  · split at failed
    · cases failed
      cases ruledOut
    · unfold Index.finish at failed
      split at failed
      · cases failed
        cases ruledOut
      · split at failed
        · cases failed
          cases ruledOut
        · cases failed

/-- **The stack of open features is sound, and no fault that it guards against arises.** After each
token that the reader has taken and the index has followed, the index knows of the elements that the
reader holds open. Where the attributes of an element have been accepted, every search for one comes
to an end. So no text is refused for a closing tag with nothing open, and none for an attribute
that cannot be read when it is looked for. -/
theorem stack_follows_reader [Wording] (xml : List Char) :
    (∀ before after, (Xml.read xml).items = before ++ after → ∃ names, HoldsOpen xml before names) ∧
    (∀ before names index, HoldsOpen xml before names →
      before.foldlM Index.step .initial = .ok index → index.Knows before names) ∧
    (∀ tag, requireSoundAttributes tag = .ok () →
      ∀ key, ∃ value, seekAttribute tag key = .ok value) ∧
    ∀ malformed, features xml = .error malformed →
      malformed.message ≠ "malformed report: unmatched end tag" ∧
        ¬ "malformed report: invalid attribute".toList <+: malformed.message.toList := by
  refine ⟨fun before after => Xml.exists_holdsOpen, fun before names index held ran =>
    Index.knows_of_holdsOpen held ran, fun tag sound key => exists_seekAttribute sound key,
    fun malformed refused => ⟨fun same => ?_, fun begins => ?_⟩⟩
  · have begins : "malformed report: ".toList ++ "unmatched end tag".toList <+:
        malformed.message.toList := by
      rw [same]
      decide
    exact not_isRuledOut_of_features refused (isRuledOut_of_message (by decide) begins)
  · have joined : "malformed report: invalid attribute".toList =
        "malformed report: ".toList ++ "invalid attribute".toList := by
      decide
    rw [joined] at begins
    exact not_isRuledOut_of_features refused (isRuledOut_of_message (by decide) begins)

/-- A feature that has ended at once, and one that is open inside another element of the feature
around it. That the text is refused later on makes no difference. -/
theorem stack_follows_reader_nested :
    let xml := "<r><feature title='f'><feature title='g'/><a><feature title='h'>x</a>".toList
    let tag : Tag := ⟨"feature title='h'".toList⟩
    let before := [.start ⟨"r".toList⟩, .start ⟨"feature title='f'".toList⟩,
      .empty ⟨"feature title='g'".toList⟩, .start ⟨"a".toList⟩, .start tag]
    let index : Index := ⟨4, 1, [(3, 2), (1, 0)], [⟨"f", []⟩, ⟨"g", []⟩, ⟨"h", []⟩]⟩
    let fault : Xml.MarkupFault := ⟨65, .otherOpen "feature".toList "a".toList⟩
    (Xml.read xml).items = before ++ [.text "x".toList] ∧
      before.foldlM Index.step .initial = .ok index ∧
      (∃ names, HoldsOpen xml before names ∧ index.Knows before names) ∧
      requireSoundAttributes tag = .ok () ∧ (∃ value, seekAttribute tag titleKey = .ok value) ∧
      features xml = .error (.markup fault) ∧
      ¬ "malformed report: invalid attribute".toList <+: (Malformed.markup fault).message.toList := by
  intro xml tag before index fault
  obtain ⟨held, knows, sought, ruledOut⟩ := stack_follows_reader xml
  have split : (Xml.read xml).items = before ++ [.text "x".toList] := by decide +kernel
  have ran : before.foldlM Index.step .initial = .ok index := by decide +kernel
  have sound : requireSoundAttributes tag = .ok () := by decide +kernel
  have refused : features xml = .error (.markup fault) := by decide +kernel
  obtain ⟨names, holdsOpen⟩ := held before _ split
  exact ⟨split, ran, ⟨names, holdsOpen, knows before names index holdsOpen ran⟩, sound,
    sought tag sound titleKey, refused, (ruledOut _ refused).2⟩

end LivingDoc.SpecRun
