import LivingDoc.Proofs.SpecRun.Index

/-!
Which texts are reports: those whose tokens spell one titled tree.

The reader keeps the names of the open elements and the index keeps their number. As the two agree,
a run of the index that ends with nothing open has gone over the tokens of trees, and what the index
is after the tokens of trees is known.
-/

namespace LivingDoc.SpecRun

open Xml (Tag Token Tree Spells Nests Nested)

namespace Index

/-! ## The number of open elements -/

theorem depth_of_closeElement {index next : Index} (h : index.closeElement = .ok next) :
    next.depth + 1 = index.depth := by
  unfold closeElement at h
  split at h
  · cases h
  · next depth found =>
    cases h
    exact found.symm

theorem depth_of_openElement {index next : Index} {tag : Tag} {stays : Bool}
    (h : index.openElement tag stays = .ok next) :
    next.depth = if stays then index.depth + 1 else index.depth := by
  obtain ⟨attributes, holds⟩ := exists_holds_of_openElement h
  rcases (openElement_eq_ok_iff holds).mp h with ⟨_, rfl⟩
  rfl

/-- The index counts the elements whose names the reader keeps. -/
theorem depth_of_step {index next : Index} {token : Token} {names left : List (List Char)}
    (few : index.roots ≤ 1) (h : index.step token = .ok next) (nests : Nests names token left) :
    next.depth + names.length = index.depth + left.length := by
  cases nests with
  | start tag =>
      have deeper := depth_of_openElement (step_eq_ok_iff.mp h).1
      simp only [if_true] at deeper
      rw [deeper, List.length_cons]
      omega
  | close name =>
      have higher := depth_of_closeElement (step_close_eq_ok_iff.mp h).1
      rw [← higher, List.length_cons]
      omega
  | level isLevel =>
      cases token with
      | start => cases isLevel
      | close => cases isLevel
      | empty tag => rw [depth_of_openElement (step_eq_ok_iff.mp h).1]; rfl
      | text => rw [((step_text_eq_ok_iff few).mp h).2.2]
      | cdata => rw [((step_cdata_eq_ok_iff few).mp h).2]
      | comment => rw [Except.ok.inj ((step_aside few rfl).symm.trans h)]
      | doctype => rw [Except.ok.inj ((step_aside few rfl).symm.trans h)]
      | instruction => rw [Except.ok.inj ((step_aside few rfl).symm.trans h)]

theorem depth_of_run {names left : List (List Char)} {tokens : List Token}
    (nested : Nested names tokens left) :
    ∀ {index next : Index}, index.roots ≤ 1 → tokens.foldlM step index = .ok next →
      next.depth + names.length = index.depth + left.length := by
  induction nested with
  | nil =>
      intro index next _ h
      cases h
      rfl
  | cons first _ ih =>
      intro index next few h
      rw [List.foldlM_cons] at h
      rcases bind_eq_ok_iff.mp h with ⟨middle, stepped, h⟩
      have one := depth_of_step few stepped first
      have more := ih (step_eq_ok_iff.mp stepped).2 h
      omega

/-! ## Accepted tokens -/

/-- A token that the index accepts, and that opens and closes nothing, may stand before trees. -/
theorem exists_spells_cons {index next : Index} {token : Token} {trees : List Tree}
    {tokens : List Token} (few : index.roots ≤ 1) (isLevel : token.isLevel = true)
    (h : index.step token = .ok next) (spells : Spells (0 < index.depth) trees tokens) :
    ∃ trees, Spells (0 < index.depth) trees (token :: tokens) := by
  cases token with
  | start => cases isLevel
  | close => cases isLevel
  | empty tag =>
      rcases exists_holds_of_openElement (step_eq_ok_iff.mp h).1 with ⟨attributes, holds⟩
      exact ⟨_, .empty holds spells⟩
  | text written =>
      rcases (step_text_eq_ok_iff few).mp h with ⟨isInside, ⟨content, resolves⟩, _⟩
      rw [decide_eq_true isInside] at spells ⊢
      exact ⟨trees, .text resolves spells⟩
  | cdata content =>
      rcases (step_cdata_eq_ok_iff few).mp h with ⟨isInside, _⟩
      rw [decide_eq_true isInside] at spells ⊢
      exact ⟨trees, .cdata spells⟩
  | comment => exact ⟨trees, .aside rfl spells⟩
  | doctype => exact ⟨trees, .aside rfl spells⟩
  | instruction => exact ⟨trees, .aside rfl spells⟩

/-- Tokens that leave nothing open and that the index accepts are those of trees. -/
theorem exists_spells {tokens : List Token} (nested : Nested [] tokens []) {index next : Index}
    (few : index.roots ≤ 1) (h : tokens.foldlM step index = .ok next) :
    ∃ trees, Spells (0 < index.depth) trees tokens := by
  -- The tokens inside an element and those after it are both fewer than all.
  induction hlength : tokens.length using Nat.strongRecOn generalizing tokens index next with
  | ind length ih =>
      subst hlength
      cases nested with
      | nil => exact ⟨[], .nil⟩
      | @cons _ middle _ token tokens first nested =>
          rw [List.foldlM_cons] at h
          rcases bind_eq_ok_iff.mp h with ⟨begun, stepped, ran⟩
          have fewBegun := (step_eq_ok_iff.mp stepped).2
          cases first with
          | start tag =>
              have began := (step_eq_ok_iff.mp stepped).1
              have deeper : begun.depth = index.depth + 1 := depth_of_openElement began
              obtain ⟨attributes, holds⟩ := exists_holds_of_openElement began
              obtain ⟨before, after, rfl, inside, outside⟩ :=
                Nested.split (show Nested ([] ++ tag.name :: []) tokens [] from nested)
              rw [List.foldlM_append] at ran
              rcases bind_eq_ok_iff.mp ran with ⟨last, ranInside, ran⟩
              rw [List.foldlM_cons] at ran
              rcases bind_eq_ok_iff.mp ran with ⟨ended, stepped, ranOutside⟩
              rcases step_close_eq_ok_iff.mp stepped with ⟨closed, fewEnded⟩
              have level : ended.depth = index.depth := by
                have ran := depth_of_run inside fewBegun ranInside
                have higher := depth_of_closeElement closed
                omega
              have shorterInside : before.length <
                  (Token.start tag :: (before ++ Token.close tag.name :: after)).length := by
                rw [List.length_cons, List.length_append]
                omega
              have shorterOutside : after.length <
                  (Token.start tag :: (before ++ Token.close tag.name :: after)).length := by
                rw [List.length_cons, List.length_append, List.length_cons]
                omega
              rcases ih _ shorterInside inside fewBegun ranInside rfl with ⟨children, spellsInside⟩
              rcases ih _ shorterOutside outside fewEnded ranOutside rfl with ⟨trees, spellsOutside⟩
              rw [deeper, decide_eq_true (Nat.succ_pos _)] at spellsInside
              rw [level] at spellsOutside
              exact ⟨_, .element holds spellsInside spellsOutside⟩
          | level isLevel =>
              have level := depth_of_step few stepped (@Nests.level [] token isLevel)
              obtain ⟨trees, spells⟩ := ih tokens.length (by simp) nested fewBegun ran rfl
              rw [Nat.add_right_cancel level] at spells
              exact exists_spells_cons few isLevel stepped spells

theorem finish_eq_ok_iff {index : Index} {found : List RecordedFeature} :
    index.finish = .ok found ↔ index.depth = 0 ∧ index.roots ≠ 0 ∧ found = index.features := by
  unfold finish
  by_cases isOpen : index.depth ≠ 0
  · rw [if_pos isOpen]
    exact ⟨fun h => (by cases h), fun h => (isOpen h.1).elim⟩
  · rw [if_neg isOpen]
    by_cases none : index.roots = 0
    · rw [if_pos none]
      exact ⟨fun h => (by cases h), fun h => (h.2.1 none).elim⟩
    · rw [if_neg none]
      exact ⟨fun h => ⟨not_not.mp isOpen, none, (Except.ok.inj h).symm⟩,
        fun h => congrArg Except.ok h.2.2.symm⟩

end Index

/-! ## Whole texts -/

theorem sound_initial : Index.initial.Sound :=
  ⟨fun _ member => (by cases member), fun _ member => (by cases member)⟩

theorem features_eq_ok_iff_run {xml : List Char} {found : List RecordedFeature} :
    features xml = .ok found ↔
      (Xml.read xml).fault = none ∧
        ∃ index, (Xml.read xml).items.foldlM Index.step .initial = .ok index ∧
          index.finish = .ok found := by
  unfold features
  rw [bind_eq_ok_iff]
  constructor
  · intro h
    rcases h with ⟨index, ran, h⟩
    split at h
    · cases h
    · next noFault => exact ⟨noFault, index, ran, h⟩
  · intro h
    rcases h with ⟨noFault, index, ran, h⟩
    refine ⟨index, ran, ?_⟩
    rw [noFault]
    exact h

/-- Where the tokens of a text spell trees, the text is accepted if there is one tree and it is
titled, and then its features are those of the tree. -/
theorem features_eq_ok_iff_of_spells {xml : List Char} {trees : List Tree}
    {found : List RecordedFeature} (noFault : (Xml.read xml).fault = none)
    (spells : Spells false trees (Xml.read xml).items) :
    features xml = .ok found ↔
      trees.length = 1 ∧ AreTitled false trees ∧ found = featuresAmong trees := by
  have run : ∀ index, (Xml.read xml).items.foldlM Index.step .initial = .ok index ↔
      (Index.initial.past trees).roots ≤ 1 ∧ AreTitled false trees ∧
        index = Index.initial.past trees :=
    fun _ => Index.foldlM_step_eq_ok_iff spells sound_initial (Nat.zero_le 1)
      (by simp [Index.initial])
  have depth : (Index.initial.past trees).depth = 0 := rfl
  have roots : (Index.initial.past trees).roots = trees.length := by
    simp [Index.past, Index.initial]
  have recorded : (Index.initial.past trees).features = featuresAmong trees := by
    simp [Index.past, Index.initial, attach]
  rw [features_eq_ok_iff_run]
  constructor
  · intro h
    rcases h with ⟨_, index, ran, ended⟩
    rcases (run index).mp ran with ⟨few, titled, rfl⟩
    rcases Index.finish_eq_ok_iff.mp ended with ⟨_, some, same⟩
    rw [roots] at few some
    exact ⟨by omega, titled, same.trans recorded⟩
  · intro h
    rcases h with ⟨one, titled, rfl⟩
    refine ⟨noFault, _, (run _).mpr ⟨by omega, titled, rfl⟩, ?_⟩
    exact Index.finish_eq_ok_iff.mpr ⟨depth, by omega, recorded.symm⟩

/-- **A text is a report exactly if its tokens are those of one titled element**, and then its
features are what the tree of this element records. In all other cases, and whenever the reader
comes upon a fault, the text is malformed. -/
theorem features_eq_ok_iff {xml : List Char} {found : List RecordedFeature} :
    features xml = .ok found ↔
      (Xml.read xml).fault = none ∧
        ∃ root : Tree, Spells false [root] (Xml.read xml).items ∧ IsTitled false root ∧
          found = featuresIn root := by
  constructor
  · intro h
    rcases features_eq_ok_iff_run.mp h with ⟨noFault, index, ran, ended⟩
    obtain ⟨left, nested⟩ := Xml.exists_nested_read xml
    have closed : left = [] := by
      have counted := Index.depth_of_run nested (Nat.zero_le 1) ran
      rw [(Index.finish_eq_ok_iff.mp ended).1] at counted
      exact List.eq_nil_of_length_eq_zero (by simpa [Index.initial] using counted.symm)
    subst closed
    obtain ⟨trees, spells⟩ := Index.exists_spells nested (Nat.zero_le 1) ran
    rcases (features_eq_ok_iff_of_spells noFault spells).mp h with ⟨one, titled, rfl⟩
    rcases List.length_eq_one_iff.mp one with ⟨root, rfl⟩
    exact ⟨noFault, root, spells, titled.1, by simp [featuresAmong]⟩
  · intro h
    rcases h with ⟨noFault, root, spells, titled, rfl⟩
    exact (features_eq_ok_iff_of_spells noFault spells).mpr
      ⟨rfl, ⟨titled, trivial⟩, by simp [featuresAmong]⟩

end LivingDoc.SpecRun
