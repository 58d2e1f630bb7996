import LivingDoc.Proofs.SpecRun.Acceptance
import LivingDoc.Proofs.Xml.Reading
import LivingDoc.Report

/-!
Reports embedded in a page.

The angle brackets of a report are escaped in the page, and so may be those in its attributes, by
the report itself. The restoring of brackets cannot tell the two apart. It turns a way of writing
trees into another way of writing the same trees, and no more is needed, because brackets may stand
unescaped in values.
-/

namespace LivingDoc.SpecRun

open Xml (Tree Blanks IsWord Escapes RendersAttributes IsRun Renders standsInValue standsInText)

/-- An angle bracket as it is written in a page; all other characters stand for themselves. -/
def escapeBracket (c : Char) : List Char :=
  if c = '<' then ['&', 'l', 't', ';'] else if c = '>' then ['&', 'g', 't', ';'] else [c]

/-- A text with its angle brackets escaped. No other character is touched. -/
def escapeBrackets (text : List Char) : List Char :=
  text.flatMap escapeBracket

/-! ## Escaped brackets -/

theorem not_mem_escapeBrackets {c : Char} (bracket : c = '<' ∨ c = '>') (text : List Char) :
    c ∉ escapeBrackets text := by
  intro member
  rcases List.mem_flatMap.mp member with ⟨d, _, inEscape⟩
  unfold escapeBracket at inEscape
  split at inEscape
  · rcases bracket with rfl | rfl <;> simp at inEscape
  · next noLess =>
    split at inEscape
    · rcases bracket with rfl | rfl <;> simp at inEscape
    · next noGreater =>
      rw [List.mem_singleton] at inEscape
      subst inEscape
      exact bracket.elim noLess noGreater

/-- `EscapesSome text written`: `written` is `text` with some of its angle brackets escaped, each of
them on its own. -/
inductive EscapesSome : List Char → List Char → Prop
  | nil : EscapesSome [] []
  | same (c : Char) {text written : List Char} :
    EscapesSome text written → EscapesSome (c :: text) (c :: written)
  | less {text written : List Char} :
    EscapesSome text written → EscapesSome ('<' :: text) ('&' :: 'l' :: 't' :: ';' :: written)
  | greater {text written : List Char} :
    EscapesSome text written → EscapesSome ('>' :: text) ('&' :: 'g' :: 't' :: ';' :: written)

theorem escapesSome_escapeBrackets (text : List Char) : EscapesSome text (escapeBrackets text) := by
  induction text with
  | nil => exact .nil
  | cons c text ih =>
      rw [escapeBrackets, List.flatMap_cons, ← escapeBrackets, escapeBracket]
      split
      · next less =>
        rw [less]
        exact .less ih
      · split
        · next greater =>
          rw [greater]
          exact .greater ih
        · exact .same c ih

namespace EscapesSome

variable {word text written rest : List Char}

/-- A word without brackets in front of a text stays as it is. -/
theorem of_append (plain : ∀ c ∈ word, c ≠ '<' ∧ c ≠ '>')
    (escapes : EscapesSome (word ++ text) written) :
    ∃ rest, written = word ++ rest ∧ EscapesSome text rest := by
  induction word generalizing written with
  | nil => exact ⟨written, rfl, escapes⟩
  | cons c word ih =>
      rw [List.forall_mem_cons] at plain
      generalize whole : c :: word ++ text = from_ at escapes
      cases escapes with
      | nil => cases whole
      | same d escapes =>
          obtain ⟨rfl, rfl⟩ := List.cons.inj whole
          obtain ⟨rest, rfl, escapesRest⟩ := ih plain.2 escapes
          exact ⟨rest, rfl, escapesRest⟩
      | less => exact (plain.1.1 (List.cons.inj whole).1).elim
      | greater => exact (plain.1.2 (List.cons.inj whole).1).elim

/-- An escaped text begins with a word like the text itself, unless escapes are in the word. -/
theorem exists_of_append (noEscape : '&' ∉ word) (escapes : EscapesSome text (word ++ rest)) :
    ∃ rest', text = word ++ rest' := by
  induction word generalizing text with
  | nil => exact ⟨text, rfl⟩
  | cons c word ih =>
      rw [List.mem_cons, not_or] at noEscape
      generalize whole : c :: word ++ rest = to_ at escapes
      cases escapes with
      | nil => cases whole
      | same d escapes =>
          obtain ⟨rfl, rfl⟩ := List.cons.inj whole
          obtain ⟨rest', rfl⟩ := ih noEscape.2 escapes
          exact ⟨rest', rfl⟩
      | less => exact (noEscape.1 (List.cons.inj whole).1.symm).elim
      | greater => exact (noEscape.1 (List.cons.inj whole).1.symm).elim

/-- **It makes no difference to the restored text which of its brackets were escaped.** Escapes that
were in the text before are restored too. -/
theorem restore_eq (escapes : EscapesSome text written) : restore written = restore text := by
  fun_induction restore text generalizing written with
  | case1 =>
      cases escapes
      rfl
  | case2 text ih =>
      obtain ⟨rest, rfl, escapesRest⟩ := @of_append ['&', 'l', 't', ';'] _ _ (by simp) escapes
      exact congrArg ('<' :: ·) (ih escapesRest)
  | case3 text ih =>
      obtain ⟨rest, rfl, escapesRest⟩ := @of_append ['&', 'g', 't', ';'] _ _ (by simp) escapes
      exact congrArg ('>' :: ·) (ih escapesRest)
  | case4 c text noLess noGreater ih =>
      cases escapes with
      | less escapes => exact congrArg ('<' :: ·) (ih escapes)
      | greater escapes => exact congrArg ('>' :: ·) (ih escapes)
      | @same _ _ written escapes =>
          -- The character stays as it is, and no escape comes to stand after an ampersand.
          rw [restore, ih escapes]
          · rintro rest isEscape rfl
            obtain ⟨rest', same⟩ := @exists_of_append ['l', 't', ';'] _ _ (by decide) escapes
            exact noLess rest' isEscape same
          · rintro rest isEscape rfl
            obtain ⟨rest', same⟩ := @exists_of_append ['g', 't', ';'] _ _ (by decide) escapes
            exact noGreater rest' isEscape same

end EscapesSome

/-! ## Restored renderings -/

/-- `Restores text restored`: `text` is restored as `restored`, whatever follows it. -/
def Restores (text restored : List Char) : Prop :=
  ∀ rest, restore (text ++ rest) = restored ++ restore rest

theorem Restores.append {text restored text' restored' : List Char}
    (first : Restores text restored) (second : Restores text' restored') :
    Restores (text ++ text') (restored ++ restored') := by
  intro rest
  rw [List.append_assoc, first, second, List.append_assoc]

theorem Restores.restore_eq {text restored : List Char} (restores : Restores text restored) :
    restore text = restored := by
  have whole := restores []
  rw [List.append_nil] at whole
  rw [whole]
  exact List.append_nil restored

theorem restores_singleton {c : Char} (noEscape : c ≠ '&') : Restores [c] [c] := by
  intro rest
  rw [List.singleton_append, restore]
  · rfl
  · intro _ isEscape _
    exact noEscape isEscape
  · intro _ isEscape _
    exact noEscape isEscape

theorem restores_of_plain {text : List Char} (noEscape : '&' ∉ text) : Restores text text := by
  induction text with
  | nil =>
      intro rest
      rfl
  | cons c text ih =>
      rw [List.mem_cons, not_or] at noEscape
      exact (restores_singleton (Ne.symm noEscape.1)).append (ih noEscape.2)

/-- An entity is restored if it stands for a bracket, and stays as it is otherwise. -/
theorem restores_entity {name : List Char} {c : Char} (isEntity : Xml.predefined? name = some c) :
    Restores ('&' :: (name ++ [';']))
      (if c = '<' ∨ c = '>' then [c] else '&' :: (name ++ [';'])) := by
  rcases Xml.predefined?_cases isEntity with
    ⟨rfl, rfl⟩ | ⟨rfl, rfl⟩ | ⟨rfl, rfl⟩ | ⟨rfl, rfl⟩ | ⟨rfl, rfl⟩
  · intro rest
    rfl
  · intro rest
    rfl
  · intro rest
    simp [restore]
  · intro rest
    simp [restore]
  · intro rest
    simp [restore]

/-- A value whose entities for brackets are restored is written in another way. -/
theorem exists_restores_value {value written : List Char}
    (escapes : Escapes standsInValue value written) :
    ∃ restored, Restores written restored ∧ Escapes standsInValue value restored := by
  induction escapes with
  | nil => exact ⟨[], fun _ => rfl, .nil⟩
  | @plain c content text stands _ ih =>
      obtain ⟨restored, restores, escapes⟩ := ih
      have noEscape : c ≠ '&' := by
        rintro rfl
        cases stands
      exact ⟨c :: restored, (restores_singleton noEscape).append restores, .plain stands escapes⟩
  | @entity name c content text isEntity _ ih =>
      obtain ⟨restored, restores, escapes⟩ := ih
      have whole := (restores_entity isEntity).append restores
      rw [List.cons_append, List.append_assoc, List.singleton_append] at whole
      by_cases bracket : c = '<' ∨ c = '>'
      · rw [if_pos bracket] at whole
        refine ⟨_, whole, .plain ?_ escapes⟩
        rcases bracket with rfl | rfl <;> decide
      · rw [if_neg bracket, List.cons_append, List.append_assoc] at whole
        exact ⟨_, whole, .entity isEntity escapes⟩

/-- Text that stands for no bracket holds nothing to restore. -/
theorem restores_text {content text : List Char} (noBrackets : ∀ c ∈ content, c ≠ '<' ∧ c ≠ '>')
    (escapes : Escapes standsInText content text) : Restores text text := by
  induction escapes with
  | nil =>
      intro rest
      rfl
  | @plain c content text stands _ ih =>
      have noEscape : c ≠ '&' := by
        rintro rfl
        cases stands
      have tail := ih fun d member => noBrackets d (List.mem_cons_of_mem _ member)
      exact (restores_singleton noEscape).append tail
  | @entity name c content text isEntity _ ih =>
      have tail := ih fun d member => noBrackets d (List.mem_cons_of_mem _ member)
      have noBracket : ¬ (c = '<' ∨ c = '>') :=
        not_or.mpr (noBrackets c List.mem_cons_self)
      have whole := (restores_entity isEntity).append tail
      rw [if_neg noBracket] at whole
      simpa using whole

theorem restores_run {inside : Bool} {run : List Char} (isRun : IsRun inside run) :
    Restores run run := by
  cases isRun with
  | blanks blanks => exact restores_of_plain fun member => absurd (blanks _ member) (by decide)
  | text noBrackets escapes => exact restores_text noBrackets escapes

theorem restores_word {name : List Char} (word : IsWord name) : Restores name name :=
  restores_of_plain fun member => absurd (word.2 _ member) (by decide)

theorem restores_blanks {gap : List Char} (blanks : Blanks gap) : Restores gap gap :=
  restores_of_plain fun member => absurd (blanks _ member) (by decide)

theorem exists_restores_attributes {attributes : List (List Char × List Char)} {text : List Char}
    (renders : RendersAttributes attributes text) :
    ∃ restored, Restores text restored ∧ RendersAttributes attributes restored := by
  induction renders with
  | @nil gap blanks => exact ⟨gap, restores_blanks blanks, .nil blanks⟩
  | @cons gap key before after value written rest _ some_ blanks word blanksBefore blanksAfter
      escapes _ ih =>
      obtain ⟨restored, restores, renders⟩ := ih
      obtain ⟨value', restoresValue, escapes'⟩ := exists_restores_value escapes
      have equals : Restores ['='] ['='] := restores_singleton (by decide)
      have quote : Restores ['"'] ['"'] := restores_singleton (by decide)
      have whole := (restores_blanks blanks).append ((restores_word word).append
        ((restores_blanks blanksBefore).append (equals.append ((restores_blanks blanksAfter).append
          (quote.append (restoresValue.append (quote.append restores)))))))
      exact ⟨_, whole, .cons some_ blanks word blanksBefore blanksAfter escapes' renders⟩

/-- **A restored rendering is a rendering of the same trees.** -/
theorem exists_restores_renders {inside : Bool} {trees : List Tree} {text : List Char}
    (renders : Renders inside trees text) :
    ∃ restored, Restores text restored ∧ Renders inside trees restored := by
  induction renders with
  | run isRun => exact ⟨_, restores_run isRun, .run isRun⟩
  | @comment _ run body text _ isRun inBody _ ih =>
      obtain ⟨restored, restores, renders⟩ := ih
      have begins : Restores ['<', '!', '-', '-'] ['<', '!', '-', '-'] :=
        restores_of_plain (by decide)
      have noEscape : Restores body body :=
        restores_of_plain fun member => absurd (inBody _ member) (by decide)
      have ends : Restores ['-', '-', '>'] ['-', '-', '>'] := restores_of_plain (by decide)
      have whole := (restores_run isRun).append (begins.append (noEscape.append
        (ends.append restores)))
      exact ⟨_, whole, .comment isRun inBody renders⟩
  | @childless _ run name written text attributes _ isRun word rendersAttributes nodup _ ih =>
      obtain ⟨restored, restores, renders⟩ := ih
      obtain ⟨written', restoresWritten, rendersAttributes'⟩ :=
        exists_restores_attributes rendersAttributes
      have begins : Restores ['<'] ['<'] := restores_singleton (by decide)
      have ends : Restores ['/', '>'] ['/', '>'] := restores_of_plain (by decide)
      have whole := (restores_run isRun).append (begins.append ((restores_word word).append
        (restoresWritten.append (ends.append restores))))
      exact ⟨_, whole, .childless isRun word rendersAttributes' nodup renders⟩
  | @element _ run name written inner gap text attributes children _ isRun word rendersAttributes
      nodup _ blanks _ ihInner ih =>
      obtain ⟨restored, restores, renders⟩ := ih
      obtain ⟨inner', restoresInner, rendersInner⟩ := ihInner
      obtain ⟨written', restoresWritten, rendersAttributes'⟩ :=
        exists_restores_attributes rendersAttributes
      have begins : Restores ['<'] ['<'] := restores_singleton (by decide)
      have closes : Restores ['<', '/'] ['<', '/'] := restores_of_plain (by decide)
      have ends : Restores ['>'] ['>'] := restores_singleton (by decide)
      have closing := closes.append ((restores_word word).append ((restores_blanks blanks).append
        (ends.append restores)))
      have whole := (restores_run isRun).append (begins.append ((restores_word word).append
        (restoresWritten.append (ends.append (restoresInner.append closing)))))
      exact ⟨_, whole, .element isRun word rendersAttributes' nodup rendersInner blanks renders⟩

/-! ## Pages -/

/-- Results between the first opening marker of a page and the first closing one after it are
found. -/
theorem embedded_of_markers {before results : List Char} (noBegin : ¬ beginMarker <:+: before)
    (noEnd : ¬ endMarker <:+: results) (after : List Char) :
    embedded (before ++ (beginMarker ++ (results ++ (endMarker ++ after)))) =
      .ok (restore results) := by
  have opening : beginMarker = '<' :: "!-- Pickles Begin".toList := rfl
  have closing : endMarker = 'P' :: "ickles End -->".toList := rfl
  have found := Text.cut?_of_first (show '<' ∉ "!-- Pickles Begin".toList by decide) noBegin
    (results ++ (endMarker ++ after))
  have ended := Text.cut?_of_first (show 'P' ∉ "ickles End -->".toList by decide) noEnd after
  unfold embedded
  rw [opening, List.cons_append, found]
  dsimp only
  rw [closing, List.cons_append, ended]

/-- An end marker holds a bracket. -/
theorem not_endMarker_infix_escapeBrackets (text : List Char) :
    ¬ endMarker <:+: escapeBrackets text :=
  fun inside => not_mem_escapeBrackets (.inr rfl) text (inside.subset (by decide))

/-- A text between the markers of a page is found, if its brackets are escaped and no marker stands
in front. -/
theorem embedded_escapeBrackets {before : List Char} (noMarker : ¬ beginMarker <:+: before)
    (text after : List Char) :
    embedded (before ++ (beginMarker ++ (escapeBrackets text ++ (endMarker ++ after)))) =
      .ok (restore text) := by
  rw [embedded_of_markers noMarker (not_endMarker_infix_escapeBrackets text),
    (escapesSome_escapeBrackets text).restore_eq]

/-- **A page that holds a rendering of a titled tree records what the tree records**, whichever
rendering it is and whatever stands around the markers. -/
theorem ofPage_renders {root : Tree} {before text : List Char}
    (renders : Renders false [root] text) (titled : IsTitled false root)
    (noMarker : ¬ beginMarker <:+: before) (after : List Char) :
    Report.ofPage (String.ofList
        (before ++ (beginMarker ++ (escapeBrackets text ++ (endMarker ++ after))))) =
      .ok ⟨.specRun, featuresIn root⟩ := by
  obtain ⟨restored, restores, rendersRestored⟩ := exists_restores_renders renders
  obtain ⟨noFault, spells⟩ := Xml.read_renders rendersRestored
  have found : features restored = .ok (featuresIn root) :=
    (features_eq_ok_iff_of_spells noFault spells).mpr
      ⟨rfl, ⟨titled, trivial⟩, by simp [featuresAmong]⟩
  unfold Report.ofPage
  rw [String.toList_ofList, embedded_escapeBrackets noMarker, restores.restore_eq]
  change (do return ⟨.specRun, ← features restored⟩ : Except _ Report) = _
  rw [found]
  rfl

/-- A scenario at some depth in a feature, next to another feature, with escapes and a comment. -/
theorem ofPage_renders_nested :
    let text := "<feature title=\"1&lt;2\">".toList ++ ("<feature title=\"b\"/><!--c-->".toList ++
      ("<g><scenario result=\"ok\" title=\"s\"/></g>".toList ++ "</feature >".toList))
    Report.ofPage (String.ofList ("<p>".toList ++
        (beginMarker ++ (escapeBrackets text ++ (endMarker ++ "</p>".toList))))) =
      .ok ⟨.specRun, [⟨"1<2", [⟨"s", some "ok"⟩]⟩, ⟨"b", []⟩]⟩ := by
  have none : Blanks [] := List.forall_mem_nil _
  have isFeature : IsWord featureName := by decide
  have isScenario : IsWord scenarioName := by decide
  have isTitle : IsWord titleKey := by decide
  have isResult : IsWord resultKey := by decide
  have titleOuter : RendersAttributes [(titleKey, ['1', '<', '2'])] " title=\"1&lt;2\"".toList :=
    .cons (by decide) (show Blanks [' '] by decide) isTitle none none
      (.plain rfl (@Escapes.entity _ ['l', 't'] '<' _ _ rfl (.plain rfl .nil))) (.nil none)
  have titleInner : RendersAttributes [(titleKey, ['b'])] " title=\"b\"".toList :=
    .cons (by decide) (show Blanks [' '] by decide) isTitle none none (.plain rfl .nil) (.nil none)
  have outcome : RendersAttributes [(resultKey, ['o', 'k']), (titleKey, ['s'])]
      " result=\"ok\" title=\"s\"".toList :=
    .cons (by decide) (show Blanks [' '] by decide) isResult none none
      (.plain rfl (.plain rfl .nil))
      (.cons (by decide) (show Blanks [' '] by decide) isTitle none none (.plain rfl .nil)
        (.nil none))
  have standsC : Xml.standsInComment 'c' = true := by decide
  have group : Renders true [⟨['g'], [], [⟨scenarioName, _, []⟩]⟩] _ :=
    .element (.blanks none) (show IsWord ['g'] by decide) (.nil none) (by decide)
      (.childless (.blanks none) isScenario outcome (by decide) (.run (.blanks none)))
      none (.run (.blanks none))
  have whole : Renders false [⟨featureName, _, [⟨featureName, _, []⟩, _]⟩] _ :=
    .element (.blanks none) isFeature titleOuter (by decide)
      (.childless (.blanks none) isFeature titleInner (by decide)
        (.comment (.blanks none) (List.forall_mem_singleton.mpr standsC) group))
      (show Blanks [' '] by decide) (.run (.blanks none))
  have titled : IsTitled false ⟨featureName, [(titleKey, ['1', '<', '2'])],
      [⟨featureName, [(titleKey, ['b'])], []⟩,
        ⟨['g'], [], [⟨scenarioName, [(resultKey, ['o', 'k']), (titleKey, ['s'])], []⟩]⟩]⟩ := by
    decide
  have page := ofPage_renders whole titled (show ¬ beginMarker <:+: "<p>".toList by decide)
    "</p>".toList
  exact page

end LivingDoc.SpecRun
