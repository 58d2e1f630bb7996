import LivingDoc.Proofs.SpecRun.Restoring

/-!
Embedded reports of any shape.

A page restores all escaped brackets of a report, also those that the report uses itself. Where the
markup of every token still ends where it did, the reader returns the same tokens with restored
contents, and the index cannot tell them apart: it compares names and keys only with words without
brackets, and it resolves the values.
-/

namespace LivingDoc.SpecRun

open Xml (Blanks Tag Token Markup Nests Reads BeginsTag EndsRun isBlank)

/-! ## Restored tokens -/

/-- A tag with the brackets in it restored. -/
def restoreTag (tag : Tag) : Tag :=
  ⟨restore tag.content⟩

/-- A token with the brackets in its content restored. -/
def restoreToken : Token → Token
  | .start tag => .start (restoreTag tag)
  | .empty tag => .empty (restoreTag tag)
  | .close name => .close (restore name)
  | .text content => .text (restore content)
  | .cdata content => .cdata (restore content)
  | .comment content => .comment (restore content)
  | .doctype content => .doctype (restore content)
  | .instruction content => .instruction (restore content)

/-- The keys of an element with the brackets in them restored. -/
def restoredKeys : Token → List (List Char)
  | .start tag => tag.attributes.items.map fun item => restore item.key
  | .empty tag => tag.attributes.items.map fun item => restore item.key
  | _ => []

/-- Whether restored brackets leave a token what it is: its markup still ends where it did, and no
two of its attributes get one key. -/
def SurvivesRestoring (token : Token) : Prop :=
  (restoreToken token).IsWhole ∧ (restoredKeys token).Nodup

instance (token : Token) : Decidable (SurvivesRestoring token) :=
  inferInstanceAs (Decidable ((restoreToken token).IsWhole ∧ (restoredKeys token).Nodup))

theorem name_restoreTag (tag : Tag) : (restoreTag tag).name = restore tag.name :=
  (span_restore tag.content).1

theorem beginsTag_restore {content : List Char} (begins : BeginsTag content) :
    BeginsTag (restore content) :=
  forall_head?_restore (by decide) (by decide) begins

/-- A bracket that ends markup, and all that stands around it, is restored apart. -/
theorem markup_restore {text rest : List Char} {token : Token} (markup : Markup text token rest) :
    Markup (restore text) (restoreToken token) (restore rest) := by
  cases markup with
  | @start content _ begins noSlash =>
      have noSlashRestored : ∀ c ∈ (restore content).getLast?, c ≠ '/' :=
        forall_getLast?_restore (by decide) (by decide) fun c last same => noSlash (same ▸ last)
      simp (disch := decide) only [restore_append_cons]
      exact .start (beginsTag_restore begins) fun slash => noSlashRestored '/' slash rfl
  | @empty content _ begins =>
      have beginsRestored := beginsTag_restore begins
      simp (disch := decide) only [restore_append_cons, restore_cons] at beginsRestored ⊢
      exact .empty beginsRestored
  | @close content _ =>
      simp (disch := decide) only [restore_append_cons, restore_cons]
      rw [restoreToken, ← closingName_restore]
      exact .close
  | @cdata content _ =>
      rw [restores_of_plain (by decide)]
      simp (disch := decide) only [restore_append_cons, restore_cons]
      exact .cdata
  | @comment content _ =>
      simp (disch := decide) only [restore_append_cons, restore_cons]
      exact .comment
  | @doctype first mark gap content _ isFirst isMark blanks some_ noBlank =>
      have plain : '&' ∉ '!' :: first :: mark := by
        intro member
        have inMark := List.mem_map_of_mem (f := Char.toLower) member
        rw [isMark] at inMark
        exact absurd inMark (by decide)
      rw [← List.cons_append, ← List.cons_append, restores_of_plain plain, restores_blanks blanks]
      simp (disch := decide) only [restore_append_cons]
      exact .doctype isFirst isMark blanks (fun none => some_ (restore_eq_nil_iff.mp none))
        (by rw [dropWhile_isBlank_restore, noBlank])
  | @instruction content _ =>
      simp (disch := decide) only [restore_append_cons, restore_cons]
      exact .instruction

theorem nests_restore {names left : List (List Char)} {token : Token}
    (nests : Nests names token left) :
    Nests (names.map restore) (restoreToken token) (left.map restore) := by
  cases nests with
  | start tag =>
      rw [List.map_cons, ← name_restoreTag]
      exact .start (restoreTag tag)
  | close name => exact .close (restore name)
  | level isLevel =>
      refine .level ?_
      cases token with
      | start => cases isLevel
      | close => cases isLevel
      | _ => rfl

/-! ## The reader -/

/-- The reader on restored text between markup. -/
theorem reads_text_restore {gap core rest : List Char} {first : Char} (blanks : Blanks gap)
    (noBlank : isBlank first = false) (ends : EndsRun rest)
    (noMarkup : '<' ∉ restore (Text.dropTrailing isBlank (first :: core)))
    (names : List (List Char)) :
    Reads names (restore (gap ++ (first :: core ++ rest)))
      [.text (restore (Text.dropTrailing isBlank (first :: core)))] names (restore rest) := by
  have split : restore (gap ++ (first :: core ++ rest)) =
      gap ++ (restore (first :: core) ++ restore rest) := by
    rw [restores_blanks blanks, restore_append]
    rcases ends with rfl | ⟨markup, rfl⟩
    · simp
    · simp [continuesEscape]
  have endsRestored : EndsRun (restore rest) := by
    rcases ends with rfl | ⟨markup, rfl⟩
    · exact .inl rfl
    · exact .inr ⟨restore markup, restore_cons (by decide) markup⟩
  -- A restored bracket is not blank, so none of them is dropped.
  have noMarkupAtAll : '<' ∉ restore (first :: core) := by
    intro member
    obtain ⟨dropped, blanksDropped, whole⟩ :=
      Xml.exists_dropTrailing isBlank (restore (first :: core))
    rw [whole, dropTrailing_restore, List.mem_append] at member
    exact member.elim noMarkup fun inDropped => absurd (blanksDropped _ inDropped) (by decide)
  rw [split, ← dropTrailing_restore]
  cases found : restore (first :: core) with
  | nil => cases restore_eq_nil_iff.mp found
  | cons c more =>
      have noBlankRestored : ∀ c ∈ (restore (first :: core)).head?, isBlank c = false :=
        forall_head?_restore rfl rfl (by simpa using noBlank)
      rw [found] at noMarkupAtAll noBlankRestored
      exact Xml.reads_text blanks (noBlankRestored c rfl) noMarkupAtAll endsRestored names

/-- Text between markup ends before an angle bracket or with the whole text. -/
theorem endsRun_dropWhile (text : List Char) : EndsRun (text.dropWhile (· != '<')) := by
  have head := List.head?_dropWhile_not (· != '<') text
  cases found : text.dropWhile (· != '<') with
  | nil => exact .inl rfl
  | cons c markup =>
      rw [found] at head
      exact .inr ⟨markup, by simpa using head⟩

/-- The reader on a restored text, one token after the other: it takes the restored token. -/
theorem reads_restore {total : Nat} {names left : List (List Char)} {text rest : List Char}
    {token : Token} (taken : Xml.take total names text = .ok (some (token, left, rest)))
    (whole : (restoreToken token).IsWhole) :
    Reads (names.map restore) (restore text) [restoreToken token] (left.map restore)
      (restore rest) := by
  obtain ⟨gap, blanks, split⟩ := Xml.exists_blanks text
  unfold Xml.take at taken
  split at taken
  · cases taken
  · next markup found =>
    rcases map_eq_ok_iff.mp taken with ⟨piece, takenMarkup, same⟩
    cases same
    obtain ⟨nests, markup, _⟩ := Xml.takeMarkup_eq_ok_iff.mp takenMarkup
    rw [split, found, restores_blanks blanks, restore_cons (by decide)]
    exact (Xml.reads_blanks blanks _ _).trans
      (Xml.reads_of_markup (nests_restore nests) (markup_restore markup) whole)
  · next some_ noMarkup =>
    cases taken
    obtain ⟨first, more, found⟩ := List.exists_cons_of_ne_nil some_
    have noBlank := Xml.isBlank_of_dropWhile found
    have other : (first != '<') = true := by
      rw [bne_iff_ne]
      rintro rfl
      exact noMarkup more found
    rw [found] at whole ⊢
    simp only [List.takeWhile_cons, List.dropWhile_cons, other, if_true] at whole ⊢
    have ends := endsRun_dropWhile more
    have reads := reads_text_restore blanks noBlank ends whole (names.map restore)
    rw [List.cons_append, List.takeWhile_append_dropWhile, ← found, ← split] at reads
    exact reads

/-- The reader on a restored text, up to its end. -/
theorem exists_reads_restore {total : Nat} {names : List (List Char)} {text : List Char}
    (noFault : (Xml.readFrom total names text).fault = none)
    (whole : ∀ token ∈ (Xml.readFrom total names text).items, (restoreToken token).IsWhole) :
    ∃ left, Reads (names.map restore) (restore text)
      ((Xml.readFrom total names text).items.map restoreToken) left [] := by
  fun_induction Xml.readFrom total names text with
  | case1 => cases noFault
  | case2 names text taken =>
      have blanks : Blanks text := by
        unfold Xml.take at taken
        split at taken
        · next found => exact Xml.dropWhile_isBlank_eq_nil_iff.mp found
        · rcases map_eq_ok_iff.mp taken with ⟨_, _, same⟩
          cases same
        · cases taken
      have reads := Xml.reads_blanks blanks (names.map restore) []
      rw [List.append_nil] at reads
      rw [(restores_blanks blanks).restore_eq]
      exact ⟨_, reads⟩
  | case3 names text token middle rest taken ih =>
      obtain ⟨left, reads⟩ := ih noFault fun other member =>
        whole other (List.mem_cons_of_mem _ member)
      exact ⟨left, (reads_restore taken (whole token List.mem_cons_self)).trans reads⟩

theorem withoutMark_restore (text : List Char) :
    Xml.withoutMark (restore text) = restore (Xml.withoutMark text) := by
  fun_cases Xml.withoutMark text with
  | case1 text =>
      rw [restore_cons (by decide)]
      rfl
  | case2 text noMark =>
      have head : ∀ c ∈ text.head?, c ≠ '\uFEFF' := by
        rintro _ first rfl
        obtain ⟨more, found⟩ := List.head?_eq_some_iff.mp first
        exact noMark more found
      have headRestored : ∀ c ∈ (restore text).head?, c ≠ '\uFEFF' :=
        forall_head?_restore (by decide) (by decide) head
      unfold Xml.withoutMark
      split
      · next rest found => exact absurd rfl (headRestored _ (congrArg List.head? found))
      · rfl

/-- **The reader takes from a restored text the restored tokens**, if their markup still ends where
it did. -/
theorem read_restore {text : List Char} (noFault : (Xml.read text).fault = none)
    (whole : ∀ token ∈ (Xml.read text).items, (restoreToken token).IsWhole) :
    Xml.read (restore text) = ⟨(Xml.read text).items.map restoreToken, none⟩ := by
  obtain ⟨left, reads⟩ := exists_reads_restore noFault whole
  have ended := reads (Xml.size (restore (Xml.withoutMark text)))
  rw [Xml.readFrom_nil] at ended
  rw [Xml.read, withoutMark_restore]
  exact ended.trans (congrArg (Xml.Progress.mk · none) (List.append_nil _))

/-! ## The index -/

/-- A word without brackets is a key in restored attributes where it was one. -/
theorem lookup_restore (word : List Char) (plain : '&' ∉ word ∧ '<' ∉ word ∧ '>' ∉ word)
    (attributes : List (List Char × List Char)) :
    (attributes.map fun pair => (restore pair.1, pair.2)).lookup word = attributes.lookup word := by
  induction attributes with
  | nil => rfl
  | cons pair attributes ih =>
      obtain ⟨key, value⟩ := pair
      have same : (word == restore key) = (word == key) := by
        rw [Bool.eq_iff_iff, beq_iff_eq, beq_iff_eq, eq_comm, restore_eq_iff plain, eq_comm]
      rw [List.map_cons, List.lookup_cons, List.lookup_cons, same, ih]

theorem holds_restore {tag : Tag} {attributes : List (List Char × List Char)}
    (holds : tag.Holds attributes)
    (differ : (tag.attributes.items.map fun item => restore item.key).Nodup) :
    (restoreTag tag).Holds (attributes.map fun pair => (restore pair.1, pair.2)) := by
  refine ⟨?_, ?_⟩
  · rw [restoreTag, (span_restore tag.content).2]
    exact attributes_restore holds.1
  · obtain ⟨items, found, means⟩ := holds.attributes_eq
    have keys :
        (items.map fun item => restore item.key) = (attributes.map Prod.fst).map restore := by
      rw [← Tag.map_key_of_means means, List.map_map]
      rfl
    rw [found, keys] at differ
    rw [List.map_map] at differ ⊢
    exact differ

/-- The beginning of an element with restored attributes is that of the element. -/
theorem openElement_restore {index next : Index} {tag : Tag} {stays : Bool}
    (h : index.openElement tag stays = .ok next)
    (differ : (tag.attributes.items.map fun item => restore item.key).Nodup) :
    index.openElement (restoreTag tag) stays = .ok next := by
  obtain ⟨attributes, holds⟩ := Index.exists_holds_of_openElement h
  obtain ⟨welcome, rfl⟩ := (Index.openElement_eq_ok_iff holds).mp h
  have isFeature : (restoreTag tag).name = featureName ↔ tag.name = featureName := by
    rw [name_restoreTag, restore_eq_iff (by decide)]
  have isScenario : (restoreTag tag).name = scenarioName ↔ tag.name = scenarioName := by
    rw [name_restoreTag, restore_eq_iff (by decide)]
  have title := lookup_restore titleKey (by decide) attributes
  have result := lookup_restore resultKey (by decide) attributes
  refine (Index.openElement_eq_ok_iff (holds_restore holds differ)).mpr ⟨?_, ?_⟩
  · unfold Index.Welcomes at welcome ⊢
    rwa [isFeature, isScenario, title]
  · unfold Index.opened
    simp only [isFeature, isScenario, titleAmong, recordedScenario, title, result]

/-- The index follows a restored token where it follows the token. -/
theorem step_restore {index next : Index} {token : Token} (few : index.roots ≤ 1)
    (h : index.step token = .ok next) (survives : SurvivesRestoring token) :
    index.step (restoreToken token) = .ok next := by
  cases token with
  | start tag =>
      obtain ⟨followed, fewNext⟩ := Index.step_eq_ok_iff.mp h
      exact Index.step_eq_ok_iff.mpr ⟨openElement_restore followed survives.2, fewNext⟩
  | empty tag =>
      obtain ⟨followed, fewNext⟩ := Index.step_eq_ok_iff.mp h
      exact Index.step_eq_ok_iff.mpr ⟨openElement_restore followed survives.2, fewNext⟩
  | text written =>
      obtain ⟨isInside, ⟨content, resolves⟩, same⟩ := (Index.step_text_eq_ok_iff few).mp h
      exact (Index.step_text_eq_ok_iff few).mpr
        ⟨isInside, ⟨content, resolves_restore resolves⟩, same⟩
  | close => exact h
  | cdata => exact h
  | comment => exact h
  | doctype => exact h
  | instruction => exact h

/-- A run of the index over restored tokens is that over the tokens. -/
theorem foldlM_restore {tokens : List Token} {index next : Index} (few : index.roots ≤ 1)
    (h : tokens.foldlM Index.step index = .ok next)
    (survive : ∀ token ∈ tokens, SurvivesRestoring token) :
    (tokens.map restoreToken).foldlM Index.step index = .ok next := by
  induction tokens generalizing index with
  | nil => exact h
  | cons token tokens ih =>
      rw [List.foldlM_cons] at h
      rw [List.map_cons, List.foldlM_cons]
      obtain ⟨middle, stepped, ran⟩ := bind_eq_ok_iff.mp h
      have fewMiddle := (Index.step_eq_ok_iff.mp stepped).2
      refine bind_eq_ok_iff.mpr ⟨middle, ?_, ?_⟩
      · exact step_restore few stepped (survive token List.mem_cons_self)
      · exact ih fewMiddle ran fun other member => survive other (List.mem_cons_of_mem _ member)

/-- **A report whose tokens survive the restoring of brackets** records the same features after
it. -/
theorem features_restore {xml : List Char} {found : List RecordedFeature}
    (accepted : features xml = .ok found)
    (survive : ∀ token ∈ (Xml.read xml).items, SurvivesRestoring token) :
    features (restore xml) = .ok found := by
  obtain ⟨noFault, index, ran, ended⟩ := features_eq_ok_iff_run.mp accepted
  rw [features_eq_ok_iff_run, read_restore noFault fun token member => (survive token member).1]
  exact ⟨rfl, index, foldlM_restore (Nat.zero_le 1) ran survive, ended⟩

/-! ## Pages -/

/-- **Embedding a report changes nothing** if its tokens survive the restoring of brackets. -/
theorem ofPage_escapeBrackets {before xml : List Char} {found : List RecordedFeature}
    (accepted : features xml = .ok found)
    (survive : ∀ token ∈ (Xml.read xml).items, SurvivesRestoring token)
    (noMarker : ¬ beginMarker <:+: before) (after : List Char) :
    Report.ofPage (String.ofList
        (before ++ (beginMarker ++ (escapeBrackets xml ++ (endMarker ++ after))))) =
      .ok ⟨.specRun, found⟩ := by
  unfold Report.ofPage
  rw [String.toList_ofList, embedded_escapeBrackets noMarker]
  change (do return ⟨.specRun, ← features (restore xml)⟩ : Except _ Report) = _
  rw [features_restore accepted survive]
  rfl

/-- Escaped brackets in values, in text, in a comment and in an instruction. -/
theorem ofPage_escapeBrackets_everywhere :
    let xml := ("<?a &gt;?><a b='&lt;&gt;'><feature title=\"1&lt;2\">" ++
      "2&gt;1<!--&lt;--></feature></a>").toList
    features xml = .ok [⟨"1<2", []⟩] ∧
      (∀ token ∈ (Xml.read xml).items, SurvivesRestoring token) ∧
      Report.ofPage (String.ofList ("<p>".toList ++
        (beginMarker ++ (escapeBrackets xml ++ (endMarker ++ "</p>".toList))))) =
        .ok ⟨.specRun, [⟨"1<2", []⟩]⟩ := by
  intro xml
  have accepted : features xml = .ok [⟨"1<2", []⟩] := by decide +kernel
  have survive : ∀ token ∈ (Xml.read xml).items, SurvivesRestoring token := by decide +kernel
  exact ⟨accepted, survive, ofPage_escapeBrackets accepted survive (by decide +kernel) _⟩

/-- An escaped bracket in text becomes markup, so that the page records a feature that the report
in it does not. -/
theorem ofPage_gains_feature :
    let xml := "<features>&lt;feature title='x'/></features>".toList
    features xml = .ok [] ∧
      Report.ofPage (String.ofList (beginMarker ++ (escapeBrackets xml ++ endMarker))) =
        .ok ⟨.specRun, [⟨"x", []⟩]⟩ := by
  decide +kernel

end LivingDoc.SpecRun
