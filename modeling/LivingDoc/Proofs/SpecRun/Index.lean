import LivingDoc.Proofs.SpecRun.Records

/-!
The index over the tokens, step by step and over whole trees.

Each step is described once: when it succeeds, and with which index. An index is `Sound` if its
stack of open features makes sense, which all steps preserve. From this it follows by induction on
the spelling of trees what the index is after their tokens, `Index.past`, and that it gets there
exactly if the trees are titled and there are not too many of them.
-/

namespace LivingDoc.SpecRun

open Report (Malformed)
open Xml (Tag Token Tree Spells Nests Nested)

/-! ## Attributes -/

theorem requireResolvable_eq_ok_iff {tag : Tag} {item : Xml.Attribute} :
    requireResolvable tag item = .ok () ↔ ∃ value, Xml.Resolves item.value value := by
  simp only [← Xml.unescape_eq_ok_iff]
  unfold requireResolvable
  split
  · next value found => simp [found]
  · next fault found => simp [found]

/-- The attributes of a tag pass the check exactly if they are of the grammar. -/
theorem requireSoundAttributes_eq_ok_iff {tag : Tag} :
    requireSoundAttributes tag = .ok () ↔ ∃ attributes, tag.Holds attributes := by
  unfold requireSoundAttributes
  rw [bind_eq_ok_iff]
  constructor
  · intro h
    rcases h with ⟨_, resolvable, h⟩
    have noFault : tag.attributes.fault = none := by
      split at h
      · assumption
      · cases h
    exact Xml.Tag.exists_holds noFault fun item member =>
      requireResolvable_eq_ok_iff.mp (forM_eq_ok_iff.mp resolvable item member)
  · intro h
    rcases h with ⟨attributes, holds⟩
    obtain ⟨items, found, means⟩ := holds.attributes_eq
    rw [found]
    refine ⟨(), forM_eq_ok_iff.mpr fun item member => ?_, rfl⟩
    obtain ⟨pair, _, _, resolves⟩ := exists_partner means member
    exact requireResolvable_eq_ok_iff.mpr ⟨pair.2, resolves⟩

/-- Where the attributes are sound, looking for one cannot fail. -/
theorem seekAttribute_of_holds {tag : Tag} {attributes : List (List Char × List Char)}
    (holds : tag.Holds attributes) (key : List Char) :
    seekAttribute tag key = .ok ((attributes.lookup key).map String.ofList) := by
  unfold seekAttribute
  rcases holds.attribute?_eq key with ⟨absent, missing⟩ | ⟨item, value, present, looked, resolves⟩
  · rw [absent, missing]
    rfl
  · simp only [present, looked, Xml.unescape_eq_ok_iff.mpr resolves]
    rfl

theorem title_eq_ok_iff {tag : Tag} {attributes : List (List Char × List Char)} {text : String}
    (holds : tag.Holds attributes) :
    title tag = .ok text ↔
      (attributes.lookup titleKey).isSome = true ∧ text = titleAmong attributes := by
  unfold title titleAmong
  rw [seekAttribute_of_holds holds]
  cases attributes.lookup titleKey with
  | none => simp [bind, Except.bind, throw, throwThe, MonadExceptOf.throw]
  | some value =>
      simp only [Option.map_some, Option.isSome_some, Option.getD_some, true_and]
      exact ⟨fun h => (Except.ok.inj h).symm, fun h => congrArg Except.ok h.symm⟩

/-! ## Adding scenarios to the innermost open feature -/

/-- Features after scenarios have been added to the innermost open one. -/
def attach (enclosing : List (Nat × Nat)) (features : List RecordedFeature)
    (scenarios : List RecordedScenario) : List RecordedFeature :=
  match enclosing with
  | [] => features
  | (_, position) :: _ =>
    features.modify position fun feature =>
      { feature with scenarios := feature.scenarios ++ scenarios }

@[simp]
theorem length_attach (enclosing : List (Nat × Nat)) (features : List RecordedFeature)
    (scenarios : List RecordedScenario) :
    (attach enclosing features scenarios).length = features.length := by
  cases enclosing with
  | nil => rfl
  | cons entry outer => simp [attach]

@[simp]
theorem attach_nil (enclosing : List (Nat × Nat)) (features : List RecordedFeature) :
    attach enclosing features [] = features := by
  cases enclosing with
  | nil => rfl
  | cons entry outer =>
      simp only [attach, List.append_nil]
      exact List.modify_id entry.2 features

theorem attach_attach (enclosing : List (Nat × Nat)) (features : List RecordedFeature)
    (first second : List RecordedScenario) :
    attach enclosing (attach enclosing features first) second =
      attach enclosing features (first ++ second) := by
  cases enclosing with
  | nil => rfl
  | cons entry outer =>
      simp only [attach, List.modify_modify_eq]
      congr 1
      funext feature
      simp

/-- Features that come later are not concerned. -/
theorem attach_append {enclosing : List (Nat × Nat)} {features : List RecordedFeature}
    (known : ∀ entry ∈ enclosing, entry.2 < features.length) (later : List RecordedFeature)
    (scenarios : List RecordedScenario) :
    attach enclosing (features ++ later) scenarios =
      attach enclosing features scenarios ++ later := by
  cases enclosing with
  | nil => rfl
  | cons entry outer =>
      have inFront : entry.2 < features.length := known entry List.mem_cons_self
      have inWhole : entry.2 < (features ++ later).length := by
        rw [List.length_append]
        omega
      simp only [attach]
      rw [List.modify_eq_take_cons_drop inWhole, List.modify_eq_take_cons_drop inFront,
        List.take_append_of_le_length (by omega), List.drop_append_of_le_length (by omega),
        List.getElem_append_left inFront, List.append_assoc, List.cons_append]

/-- A feature that has just been opened takes the scenarios itself. -/
theorem attach_opened (enclosing : List (Nat × Nat)) (features : List RecordedFeature)
    (depth : Nat) (title : String) (scenarios : List RecordedScenario) :
    attach ((depth, features.length) :: enclosing) (features ++ [⟨title, []⟩]) scenarios =
      features ++ [⟨title, scenarios⟩] := by
  simp only [attach]
  rw [List.modify_eq_take_cons_drop (by simp)]
  simp

/-! ## One token -/

namespace Index

/-- What holds of the stack of open features after every token: each has begun at a depth that is
still open, and stands among the features. -/
structure Sound (index : Index) : Prop where
  depths : ∀ entry ∈ index.enclosing, entry.1 < index.depth
  positions : ∀ entry ∈ index.enclosing, entry.2 < index.features.length

/-- Whether a feature is open. -/
def isWithin (index : Index) : Bool :=
  !index.enclosing.isEmpty

/-- The index after the beginning of an element, which stays open if `stays` holds. -/
def opened (index : Index) (name : List Char) (attributes : List (List Char × List Char))
    (stays : Bool) : Index where
  depth := if stays then index.depth + 1 else index.depth
  roots := if index.depth = 0 then index.roots + 1 else index.roots
  enclosing :=
    if name = featureName ∧ stays = true then
      (index.depth, index.features.length) :: index.enclosing
    else index.enclosing
  features :=
    if name = featureName then index.features ++ [⟨titleAmong attributes, []⟩]
    else if name = scenarioName then
      attach index.enclosing index.features [recordedScenario attributes]
    else index.features

/-- What it takes for an element with these attributes to begin where an index stands. -/
def Welcomes (index : Index) (name : List Char) (attributes : List (List Char × List Char)) :
    Prop :=
  name = featureName ∨ name = scenarioName ∧ index.isWithin = true →
    (attributes.lookup titleKey).isSome = true

theorem countRoot_eq (index : Index) :
    index.countRoot =
      { index with roots := if index.depth = 0 then index.roots + 1 else index.roots } := by
  unfold countRoot
  split <;> rfl

theorem addFeature_eq_ok_iff {index next : Index} {tag : Tag} {position : Nat}
    {attributes : List (List Char × List Char)} (holds : tag.Holds attributes) :
    index.addFeature tag = .ok (next, position) ↔
      (attributes.lookup titleKey).isSome = true ∧ position = index.features.length ∧
        next = { index with features := index.features ++ [⟨titleAmong attributes, []⟩] } := by
  unfold addFeature
  rw [bind_eq_ok_iff]
  constructor
  · intro h
    rcases h with ⟨text, found, h⟩
    rcases (title_eq_ok_iff holds).mp found with ⟨isSome, rfl⟩
    cases h
    exact ⟨isSome, rfl, rfl⟩
  · intro h
    rcases h with ⟨isSome, rfl, rfl⟩
    exact ⟨_, (title_eq_ok_iff holds).mpr ⟨isSome, rfl⟩, rfl⟩

theorem addScenario_eq_ok_iff {index next : Index} {tag : Tag}
    {attributes : List (List Char × List Char)} (holds : tag.Holds attributes) :
    index.addScenario tag = .ok next ↔
      (tag.name = scenarioName ∧ index.isWithin = true →
        (attributes.lookup titleKey).isSome = true) ∧
      next = { index with
        features :=
          if tag.name = scenarioName then
            attach index.enclosing index.features [recordedScenario attributes]
          else index.features } := by
  unfold addScenario
  by_cases named : tag.name = scenarioName
  · rw [if_pos named, if_pos named]
    obtain ⟨depth, roots, enclosing, features⟩ := index
    cases enclosing with
    | nil =>
        refine ⟨fun h => ⟨fun within => ?_, (Except.ok.inj h).symm⟩, fun h => ?_⟩
        · cases within.2
        · exact congrArg Except.ok h.2.symm
    | cons entry outer =>
        dsimp only
        rw [bind_eq_ok_iff]
        constructor
        · intro h
          rcases h with ⟨text, found, h⟩
          rcases (title_eq_ok_iff holds).mp found with ⟨isSome, rfl⟩
          rw [seekAttribute_of_holds holds] at h
          exact ⟨fun _ => isSome, (Except.ok.inj h).symm⟩
        · intro h
          rcases h with ⟨titled, rfl⟩
          refine ⟨_, (title_eq_ok_iff holds).mpr ⟨titled ⟨named, rfl⟩, rfl⟩, ?_⟩
          rw [seekAttribute_of_holds holds]
          rfl
  · rw [if_neg named, if_neg named]
    refine ⟨fun h => ⟨fun within => ?_, (Except.ok.inj h).symm⟩, fun h => ?_⟩
    · exact (named within.1).elim
    · exact congrArg Except.ok h.2.symm

/-- **The beginning of an element** whose attributes are sound. -/
theorem openElement_eq_ok_iff {index next : Index} {tag : Tag} {stays : Bool}
    {attributes : List (List Char × List Char)} (holds : tag.Holds attributes) :
    index.openElement tag stays = .ok next ↔
      index.Welcomes tag.name attributes ∧ next = index.opened tag.name attributes stays := by
  have sound := requireSoundAttributes_eq_ok_iff.mpr ⟨attributes, holds⟩
  unfold openElement Welcomes opened
  rw [countRoot_eq]
  dsimp only
  rw [bind_eq_ok_iff]
  by_cases isFeature : tag.name = featureName
  · simp only [isFeature, true_and, true_or, forall_const]
    constructor
    · intro h
      rcases h with ⟨_, _, h⟩
      rcases bind_eq_ok_iff.mp h with ⟨⟨added, position⟩, found, h⟩
      rcases (addFeature_eq_ok_iff holds).mp found with ⟨isSome, rfl, rfl⟩
      cases stays with
      | false => exact ⟨isSome, (Except.ok.inj h).symm⟩
      | true => exact ⟨isSome, (Except.ok.inj h).symm⟩
    · intro h
      rcases h with ⟨isSome, rfl⟩
      refine ⟨(), sound, bind_eq_ok_iff.mpr ⟨_, (addFeature_eq_ok_iff holds).mpr
        ⟨isSome, rfl, rfl⟩, ?_⟩⟩
      cases stays with
      | false => rfl
      | true => rfl
  · simp only [isFeature, false_and, false_or, if_false]
    constructor
    · intro h
      rcases h with ⟨_, _, h⟩
      rcases bind_eq_ok_iff.mp h with ⟨added, found, h⟩
      rcases (addScenario_eq_ok_iff holds).mp found with ⟨titled, rfl⟩
      cases stays with
      | false => exact ⟨titled, (Except.ok.inj h).symm⟩
      | true => exact ⟨titled, (Except.ok.inj h).symm⟩
    · intro h
      rcases h with ⟨titled, rfl⟩
      refine ⟨(), sound, bind_eq_ok_iff.mpr ⟨_, (addScenario_eq_ok_iff holds).mpr
        ⟨titled, rfl⟩, ?_⟩⟩
      cases stays with
      | false => rfl
      | true => rfl

/-- An element can begin only if its attributes are sound. -/
theorem exists_holds_of_openElement {index next : Index} {tag : Tag} {stays : Bool}
    (h : index.openElement tag stays = .ok next) : ∃ attributes, tag.Holds attributes := by
  rcases bind_eq_ok_iff.mp h with ⟨_, sound, _⟩
  exact requireSoundAttributes_eq_ok_iff.mp sound

/-- The end of an element takes the index back to where its beginning left it, with whatever
features there are by now. -/
theorem closeElement_opened {index : Index} (sound : index.Sound) (name : List Char)
    (attributes : List (List Char × List Char)) (features : List RecordedFeature) :
    { index.opened name attributes true with features := features }.closeElement =
      .ok { index with
        roots := (index.opened name attributes true).roots, features := features } := by
  by_cases isFeature : name = featureName
  · simp [closeElement, opened, isFeature]
  · simp only [closeElement, opened, isFeature, false_and, if_false, if_true]
    cases found : index.enclosing with
    | nil => rfl
    | cons entry outer =>
        have below : entry.1 < index.depth := sound.depths entry (found ▸ List.mem_cons_self)
        simp only [if_neg (Nat.ne_of_lt below)]

theorem Sound.opened {index : Index} (sound : index.Sound) (name : List Char)
    (attributes : List (List Char × List Char)) (stays : Bool) :
    (index.opened name attributes stays).Sound := by
  have deeper : index.depth ≤ (index.opened name attributes stays).depth := by
    unfold Index.opened
    dsimp only
    split <;> omega
  have longer :
      index.features.length ≤ (index.opened name attributes stays).features.length := by
    unfold Index.opened
    dsimp only
    split_ifs <;> simp
  by_cases opens : name = featureName ∧ stays = true
  · have stack : (index.opened name attributes stays).enclosing =
        (index.depth, index.features.length) :: index.enclosing := if_pos opens
    obtain ⟨isFeature, rfl⟩ := opens
    constructor
    · intro entry member
      rw [stack] at member
      rcases List.mem_cons.mp member with rfl | member
      · exact Nat.lt_succ_self _
      · exact Nat.lt_of_lt_of_le (sound.depths entry member) deeper
    · intro entry member
      rw [stack] at member
      rcases List.mem_cons.mp member with rfl | member
      · simp [Index.opened, isFeature]
      · exact Nat.lt_of_lt_of_le (sound.positions entry member) longer
  · have stack : (index.opened name attributes stays).enclosing = index.enclosing := if_neg opens
    constructor
    · intro entry member
      rw [stack] at member
      exact Nat.lt_of_lt_of_le (sound.depths entry member) deeper
    · intro entry member
      rw [stack] at member
      exact Nat.lt_of_lt_of_le (sound.positions entry member) longer

theorem step_eq_ok_iff {index next : Index} {token : Token} :
    index.step token = .ok next ↔ index.follow token = .ok next ∧ next.roots ≤ 1 := by
  unfold step
  rw [bind_eq_ok_iff]
  constructor
  · intro h
    rcases h with ⟨followed, found, h⟩
    split at h
    · cases h
    · next few =>
      cases h
      exact ⟨found, Nat.not_lt.mp few⟩
  · intro h
    rcases h with ⟨found, few⟩
    refine ⟨next, found, ?_⟩
    rw [if_neg (Nat.not_lt.mpr few)]
    rfl

theorem step_close_eq_ok_iff {index next : Index} {name : List Char} :
    index.step (.close name) = .ok next ↔ index.closeElement = .ok next ∧ next.roots ≤ 1 :=
  step_eq_ok_iff

theorem step_aside {index : Index} {token : Token} (few : index.roots ≤ 1)
    (isAside : token.isAside = true) : index.step token = .ok index := by
  refine step_eq_ok_iff.mpr ⟨?_, few⟩
  cases token with
  | comment => rfl
  | doctype => rfl
  | instruction => rfl
  | _ => cases isAside

theorem step_text_eq_ok_iff {index next : Index} {written : List Char} (few : index.roots ≤ 1) :
    index.step (.text written) = .ok next ↔
      0 < index.depth ∧ (∃ content, Xml.Resolves written content) ∧ next = index := by
  simp only [step_eq_ok_iff, follow, ← Xml.unescape_eq_ok_iff, Nat.pos_iff_ne_zero]
  constructor
  · intro h
    rcases h with ⟨h, _⟩
    split at h
    · cases h
    · next open_ =>
      split at h
      · next content resolved =>
        cases h
        exact ⟨open_, ⟨content, resolved⟩, rfl⟩
      · cases h
  · intro h
    rcases h with ⟨open_, ⟨content, resolved⟩, rfl⟩
    simp [open_, resolved, few]

theorem step_cdata_eq_ok_iff {index next : Index} {content : List Char} (few : index.roots ≤ 1) :
    index.step (.cdata content) = .ok next ↔ 0 < index.depth ∧ next = index := by
  simp only [step_eq_ok_iff, follow, Nat.pos_iff_ne_zero]
  constructor
  · intro h
    rcases h with ⟨h, _⟩
    split at h
    · cases h
    · next open_ =>
      cases h
      exact ⟨open_, rfl⟩
  · intro h
    rcases h with ⟨open_, rfl⟩
    simp [open_, few]

/-! ## The tokens of trees -/

/-- The index after all tokens of trees. -/
def past (index : Index) (trees : List Tree) : Index :=
  { index with
    roots := if index.depth = 0 then index.roots + trees.length else index.roots
    features :=
      attach index.enclosing index.features (scenariosAmong trees) ++ featuresAmong trees }

theorem past_nil (index : Index) : index.past [] = index := by
  simp [past, scenariosAmong, featuresAmong]

theorem roots_le_past (index : Index) (trees : List Tree) :
    index.roots ≤ (index.past trees).roots := by
  unfold past
  dsimp only
  split <;> omega

theorem isWithin_opened (index : Index) (name : List Char)
    (attributes : List (List Char × List Char)) :
    (index.opened name attributes true).isWithin =
      (index.isWithin || name = featureName) := by
  by_cases isFeature : name = featureName
  · simp [isWithin, opened, isFeature]
  · simp [isWithin, opened, isFeature]

/-- The features after all that is inside an element are those of its tree. -/
theorem features_past_opened {index : Index} (name : List Char)
    (attributes : List (List Char × List Char)) (children : List Tree) :
    ((index.opened name attributes true).past children).features =
      attach index.enclosing index.features (scenariosIn ⟨name, attributes, children⟩) ++
        featuresIn ⟨name, attributes, children⟩ := by
  unfold past opened scenariosIn featuresIn
  by_cases isFeature : name = featureName
  · simp only [isFeature, if_true, and_self]
    rw [attach_opened, attach_nil, List.append_assoc, List.singleton_append]
  · by_cases isScenario : name = scenarioName
    · simp only [if_pos isScenario, isFeature, false_and, if_false]
      rw [attach_attach, List.singleton_append]
    · simp only [isScenario, isFeature, if_false, false_and]

/-- The index after a whole element. -/
def closed (index : Index) (name : List Char) (attributes : List (List Char × List Char))
    (children : List Tree) : Index :=
  { index with
    roots := (index.opened name attributes true).roots
    features := ((index.opened name attributes true).past children).features }

/-- An element that is empty by its tag is one without children. -/
theorem opened_eq_closed (index : Index) (name : List Char)
    (attributes : List (List Char × List Char)) :
    index.opened name attributes false = index.closed name attributes [] := by
  unfold closed
  rw [past_nil]
  simp [opened]

theorem closeElement_past_opened {index : Index} (sound : index.Sound) (name : List Char)
    (attributes : List (List Char × List Char)) (children : List Tree) :
    ((index.opened name attributes true).past children).closeElement =
      .ok (index.closed name attributes children) := by
  have same : (index.opened name attributes true).past children =
      { index.opened name attributes true with
        features := ((index.opened name attributes true).past children).features } := by
    simp [past, opened]
  rw [same]
  exact closeElement_opened sound name attributes _

/-- The index after an element and then further trees. -/
theorem past_closed {index : Index} (sound : index.Sound) (name : List Char)
    (attributes : List (List Char × List Char)) (children trees : List Tree) :
    (index.closed name attributes children).past trees =
      index.past (⟨name, attributes, children⟩ :: trees) := by
  have known : ∀ entry ∈ index.enclosing,
      entry.2 < (attach index.enclosing index.features
        (scenariosIn ⟨name, attributes, children⟩)).length := by
    intro entry member
    rw [length_attach]
    exact sound.positions entry member
  unfold closed
  rw [features_past_opened]
  unfold past
  simp only [attach_append known, attach_attach, scenariosAmong, featuresAmong, List.append_assoc]
  congr 1
  unfold opened
  simp only [List.length_cons]
  split <;> omega

theorem Sound.closed {index : Index} (sound : index.Sound) (name : List Char)
    (attributes : List (List Char × List Char)) (children : List Tree) :
    (index.closed name attributes children).Sound := by
  refine ⟨sound.depths, fun entry member => ?_⟩
  have known := sound.positions entry member
  unfold Index.closed
  dsimp only
  rw [features_past_opened, List.length_append, length_attach]
  exact Nat.lt_add_right _ known

/-- **The run over the tokens of trees.** It succeeds exactly if the trees are titled and, where
they stand outside all others, there is no second root. -/
theorem foldlM_step_eq_ok_iff {inside : Bool} {trees : List Tree} {tokens : List Token}
    (spells : Spells inside trees tokens) :
    ∀ {index next : Index}, index.Sound → index.roots ≤ 1 → (inside = true ↔ 0 < index.depth) →
      (tokens.foldlM step index = .ok next ↔
        (index.past trees).roots ≤ 1 ∧ AreTitled index.isWithin trees ∧
          next = index.past trees) := by
  induction spells with
  | nil =>
      intro index next _ few _
      rw [past_nil]
      exact ⟨fun h => ⟨few, trivial, (Except.ok.inj h).symm⟩,
        fun h => congrArg Except.ok h.2.2.symm⟩
  | aside isAside _ ih =>
      intro index next sound few places
      rw [List.foldlM_cons, step_aside few isAside]
      exact ih sound few places
  | @text trees tokens written content resolves _ ih =>
      intro index next sound few places
      rw [List.foldlM_cons,
        (step_text_eq_ok_iff few).mpr ⟨places.mp rfl, ⟨content, resolves⟩, rfl⟩]
      exact ih sound few places
  | cdata _ ih =>
      intro index next sound few places
      rw [List.foldlM_cons, (step_cdata_eq_ok_iff few).mpr ⟨places.mp rfl, rfl⟩]
      exact ih sound few places
  | @empty inside trees tokens tag attributes holds _ ih =>
      intro index next sound few places
      have soundAfter := sound.closed tag.name attributes []
      rw [List.foldlM_cons, bind_eq_ok_iff, ← past_closed sound, AreTitled, IsTitled]
      constructor
      · intro h
        rcases h with ⟨middle, stepped, h⟩
        rcases step_eq_ok_iff.mp stepped with ⟨began, fewMiddle⟩
        rcases (openElement_eq_ok_iff holds).mp began with ⟨welcome, rfl⟩
        rw [opened_eq_closed] at fewMiddle h
        rcases (ih soundAfter fewMiddle places).mp h with ⟨fewAll, titled, same⟩
        exact ⟨fewAll, ⟨⟨welcome, trivial⟩, titled⟩, same⟩
      · intro h
        rcases h with ⟨fewAll, ⟨⟨welcome, _⟩, titled⟩, same⟩
        have fewMiddle := Nat.le_trans (roots_le_past _ trees) fewAll
        refine ⟨index.closed tag.name attributes [], step_eq_ok_iff.mpr ⟨?_, fewMiddle⟩, ?_⟩
        · exact (openElement_eq_ok_iff holds).mpr ⟨welcome, (opened_eq_closed ..).symm⟩
        · exact (ih soundAfter fewMiddle places).mpr ⟨fewAll, titled, same⟩
  | @element inside trees children inner tokens tag attributes holds _ _ ihInner ih =>
      intro index next sound few places
      have soundInside := sound.opened tag.name attributes true
      have soundAfter := sound.closed tag.name attributes children
      have placesInside : true = true ↔ 0 < (index.opened tag.name attributes true).depth := by
        simp [opened]
      rw [List.foldlM_cons, bind_eq_ok_iff, ← past_closed sound, AreTitled, IsTitled,
        ← isWithin_opened index tag.name attributes]
      constructor
      · intro h
        rcases h with ⟨middle, stepped, h⟩
        rcases step_eq_ok_iff.mp stepped with ⟨began, fewMiddle⟩
        rcases (openElement_eq_ok_iff holds).mp began with ⟨welcome, rfl⟩
        rw [List.foldlM_append, bind_eq_ok_iff] at h
        obtain ⟨last, ranInside, h⟩ := h
        rcases (ihInner soundInside fewMiddle placesInside).mp ranInside with ⟨_, titledInside, rfl⟩
        rw [List.foldlM_cons, bind_eq_ok_iff] at h
        obtain ⟨after, stepped, h⟩ := h
        rcases step_close_eq_ok_iff.mp stepped with ⟨ended, fewAfter⟩
        cases ended.symm.trans (closeElement_past_opened sound tag.name attributes children)
        rcases (ih soundAfter fewAfter places).mp h with ⟨fewAll, titled, same⟩
        exact ⟨fewAll, ⟨⟨welcome, titledInside⟩, titled⟩, same⟩
      · intro h
        rcases h with ⟨fewAll, ⟨⟨welcome, titledInside⟩, titled⟩, same⟩
        have fewAfter := Nat.le_trans (roots_le_past _ trees) fewAll
        have fewInside : ((index.opened tag.name attributes true).past children).roots ≤ 1 := by
          simpa [past, closed, opened] using fewAfter
        refine ⟨index.opened tag.name attributes true, step_eq_ok_iff.mpr ⟨?_, fewAfter⟩, ?_⟩
        · exact (openElement_eq_ok_iff holds).mpr ⟨welcome, rfl⟩
        · rw [List.foldlM_append,
            (ihInner soundInside fewAfter placesInside).mpr ⟨fewInside, titledInside, rfl⟩]
          change (Token.close tag.name :: tokens).foldlM step _ = .ok next
          rw [List.foldlM_cons, step_close_eq_ok_iff.mpr
            ⟨closeElement_past_opened sound tag.name attributes children, fewAfter⟩]
          exact (ih soundAfter fewAfter places).mpr ⟨fewAll, titled, same⟩

end Index
end LivingDoc.SpecRun
