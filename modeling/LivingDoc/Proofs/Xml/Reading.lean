import LivingDoc.Proofs.Xml.Markup
import LivingDoc.Proofs.Xml.Rendering

/-!
The reader on written trees: it returns their tokens, whatever way they are written.

What is written for an element is markup of the grammar that the reader agrees with: no angle
bracket of a tag stands outside quotes, and none stands in a comment at all. Text is read up to the
next one. `read_renders` puts the pieces together by induction on the way of writing.
-/

namespace LivingDoc.Xml

/-! ## Letters and blanks -/

theorem ne_of_isAlpha {c d : Char} (letter : c.isAlpha = true) (other : d.isAlpha = false) :
    c ≠ d := by
  rintro rfl
  rw [letter] at other
  cases other

theorem isBlank_of_isAlpha {c : Char} (letter : c.isAlpha = true) : isBlank c = false := by
  have noSpace := ne_of_isAlpha letter (show ' '.isAlpha = false by decide)
  have noTab := ne_of_isAlpha letter (show '\t'.isAlpha = false by decide)
  have noReturn := ne_of_isAlpha letter (show '\r'.isAlpha = false by decide)
  have noFeed := ne_of_isAlpha letter (show '\n'.isAlpha = false by decide)
  simp [isBlank, noSpace, noTab, noReturn, noFeed]

theorem ne_of_isBlank {c d : Char} (blank : isBlank c = true) (other : isBlank d = false) :
    c ≠ d := by
  rintro rfl
  rw [blank] at other
  cases other

theorem IsWord.isKey {key : List Char} (word : IsWord key) : IsKey key := by
  obtain ⟨some_, letters⟩ := word
  cases key with
  | nil => exact some_ rfl
  | cons first more =>
      refine ⟨isBlank_of_isAlpha (letters first List.mem_cons_self), fun c member => ?_⟩
      have letter := letters c (List.mem_cons_of_mem _ member)
      have noEquals := ne_of_isAlpha letter (show '='.isAlpha = false by decide)
      simp [isKeyCharacter, noEquals, isBlank_of_isAlpha letter]

/-! ## The end of a tag -/

/-- `IsTagText content`: no tag ends within `content`, and no quote of it stays open. -/
def IsTagText (content : List Char) : Prop :=
  ∀ rest, cutTag? none (content ++ rest) =
    (cutTag? none rest).map fun parts => (content ++ parts.1, parts.2)

theorem IsTagText.append {front back : List Char} (first : IsTagText front)
    (second : IsTagText back) : IsTagText (front ++ back) := by
  intro rest
  rw [List.append_assoc, first, second, Option.map_map]
  congr 1
  funext parts
  simp

theorem isTagText_of_plain {content : List Char}
    (plain : ∀ c ∈ content, c ≠ '"' ∧ c ≠ '\'' ∧ c ≠ '>') : IsTagText content := by
  induction content with
  | nil =>
      intro rest
      simp
  | cons c content ih =>
      intro rest
      obtain ⟨noDouble, noSingle, noEnd⟩ := plain c List.mem_cons_self
      have tail := ih (fun d member => plain d (List.mem_cons_of_mem _ member)) rest
      rw [List.cons_append, cutTag?]
      simp [noDouble, noSingle, noEnd, tail, Option.map_map, Function.comp_def]

theorem cutTag?_within {quote : Char} {written : List Char} (inside : quote ∉ written)
    (rest : List Char) :
    cutTag? (some quote) (written ++ quote :: rest) =
      (cutTag? none rest).map fun parts => (written ++ quote :: parts.1, parts.2) := by
  induction written with
  | nil =>
      rw [List.nil_append, cutTag?]
      simp
  | cons c written ih =>
      have other : ¬ c = quote := fun same => inside (same ▸ List.mem_cons_self)
      have tail := ih fun member => inside (List.mem_cons_of_mem _ member)
      rw [List.cons_append, cutTag?]
      simp [other, tail, Option.map_map, Function.comp_def]

theorem isTagText_quoted {written : List Char} (inside : '"' ∉ written) :
    IsTagText ('"' :: (written ++ ['"'])) := by
  intro rest
  have tail := cutTag?_within inside rest
  rw [List.cons_append, List.append_assoc, List.singleton_append, cutTag?]
  simp [tail, Option.map_map, Function.comp_def]

theorem IsTagText.cut {content : List Char} (tagText : IsTagText content) (rest : List Char) :
    cutTag? none (content ++ '>' :: rest) = some (content, rest) := by
  rw [tagText]
  simp [cutTag?]

theorem IsTagText.quotes {content : List Char} (tagText : IsTagText content) :
    quotesBrackets content = true :=
  (cutTag?_eq_some_iff.mp (tagText.cut [])).2

theorem IsWord.isTagText {name : List Char} (word : IsWord name) : IsTagText name :=
  isTagText_of_plain fun c member =>
    have letter := word.2 c member
    ⟨ne_of_isAlpha letter (by decide), ne_of_isAlpha letter (by decide),
      ne_of_isAlpha letter (by decide)⟩

theorem Blanks.isTagText {gap : List Char} (blanks : Blanks gap) : IsTagText gap :=
  isTagText_of_plain fun c member =>
    have blank := blanks c member
    ⟨ne_of_isBlank blank (by decide), ne_of_isBlank blank (by decide),
      ne_of_isBlank blank (by decide)⟩

/-! ## The inside of a tag -/

namespace RendersAttributes

variable {attributes : List (List Char × List Char)} {text : List Char}

theorem isTagText (renders : RendersAttributes attributes text) : IsTagText text := by
  induction renders with
  | nil blanks => exact blanks.isTagText
  | @cons gap key before after value written rest _ _ blanks word blanksBefore blanksAfter
      escapes _ ih =>
      have quoted := isTagText_quoted (escapes.not_mem (by decide) (by decide))
      have equals : IsTagText ['='] := isTagText_of_plain (by simp)
      have whole := blanks.isTagText.append (word.isTagText.append (blanksBefore.isTagText.append
        (equals.append (blanksAfter.isTagText.append (quoted.append ih)))))
      simpa using whole

theorem grammar (renders : RendersAttributes attributes text) : Attributes text attributes := by
  induction renders with
  | nil blanks => exact .nil blanks
  | cons _ blanks word blanksBefore blanksAfter escapes _ ih =>
      refine .cons (.intro blanks word.isKey blanksBefore blanksAfter (.inl rfl) ?_)
        (escapes.resolves (by decide)) ih
      exact escapes.not_mem (by decide) (by decide)

/-- What follows a name begins with a blank, so that it is no part of it. -/
theorem head (renders : RendersAttributes attributes text) :
    text = [] ∨ ∃ blank rest, text = blank :: rest ∧ isBlank blank = true := by
  cases renders with
  | nil blanks =>
      cases text with
      | nil => exact .inl rfl
      | cons c gap => exact .inr ⟨c, gap, rfl, blanks c List.mem_cons_self⟩
  | @cons gap _ _ _ _ _ _ _ some_ blanks =>
      cases gap with
      | nil => exact (some_ rfl).elim
      | cons c gap => exact .inr ⟨c, _, rfl, blanks c List.mem_cons_self⟩

/-- What follows a name does not end with a slash. -/
theorem getLast?_ne (renders : RendersAttributes attributes text) : text.getLast? ≠ some '/' := by
  induction renders with
  | nil blanks =>
      intro last
      exact absurd (blanks _ (List.mem_of_getLast? last)) (by decide)
  | @cons gap key before after value written rest _ _ _ _ _ _ _ _ ih =>
      have whole : gap ++ (key ++ (before ++ '=' :: (after ++ '"' :: (written ++ '"' :: rest)))) =
          (gap ++ (key ++ (before ++ '=' :: (after ++ '"' :: written)))) ++ '"' :: rest := by simp
      rw [whole, List.getLast?_append, List.getLast?_cons, Option.some_or]
      intro last
      cases found : rest.getLast? with
      | none =>
          rw [found] at last
          cases last
      | some c =>
          rw [found] at last ih
          exact ih last

end RendersAttributes

/-! ## Tags -/

section Opening

variable {name written : List Char} {attributes : List (List Char × List Char)}

/-- The reader's cut after the name of an element. -/
theorem cut_element (word : IsWord name) (renders : RendersAttributes attributes written) :
    (name ++ written).takeWhile (!isBlank ·) = name ∧
      (name ++ written).dropWhile (!isBlank ·) = written := by
  have all : ∀ c ∈ name, (!isBlank c) = true := by
    intro c member
    rw [isBlank_of_isAlpha (word.2 c member)]
    rfl
  refine Text.run_append all fun c first => ?_
  rcases renders.head with rfl | ⟨blank, rest, rfl, isBlank⟩
  · cases first
  · cases first
    rw [isBlank]
    rfl

theorem name_of_renders (word : IsWord name) (renders : RendersAttributes attributes written) :
    (Tag.mk (name ++ written)).name = name :=
  (cut_element word renders).1

theorem holds_of_renders (word : IsWord name) (renders : RendersAttributes attributes written)
    (nodup : (attributes.map Prod.fst).Nodup) : (Tag.mk (name ++ written)).Holds attributes := by
  refine ⟨?_, nodup⟩
  rw [(cut_element word renders).2]
  exact renders.grammar

theorem getLast?_element (word : IsWord name) (renders : RendersAttributes attributes written) :
    (name ++ written).getLast? ≠ some '/' := by
  rw [List.getLast?_append]
  intro last
  cases found : written.getLast? with
  | none =>
      rw [found, Option.none_or] at last
      exact absurd (word.2 _ (List.mem_of_getLast? last)) (by decide)
  | some c =>
      rw [found, Option.some_or] at last
      exact renders.getLast?_ne (found.trans last)

theorem quotes_element (word : IsWord name) (renders : RendersAttributes attributes written) :
    quotesBrackets (name ++ written) = true :=
  (word.isTagText.append renders.isTagText).quotes

end Opening

/-- Blanks after the name of a closing tag are no part of it. -/
theorem closingName_append {name gap : List Char} (word : IsWord name) (blanks : Blanks gap) :
    closingName (name ++ gap) = name := by
  obtain ⟨some_, letters⟩ := word
  have dropped : Text.dropTrailing isBlank (name ++ gap) = name := by
    rcases List.eq_nil_or_concat' name with rfl | ⟨front, last, rfl⟩
    · exact (some_ rfl).elim
    · have noBlank : isBlank last = false := isBlank_of_isAlpha (letters last (by simp))
      have all : ∀ c ∈ gap.reverse, isBlank c = true :=
        fun c member => blanks c (List.mem_reverse.mp member)
      unfold Text.dropTrailing
      rw [List.reverse_append, List.dropWhile_append_of_pos all, List.reverse_concat,
        dropWhile_isBlank_cons noBlank, List.reverse_cons, List.reverse_reverse]
  unfold closingName
  rw [dropped]
  cases name with
  | nil => exact (some_ rfl).elim
  | cons => rfl

/-- An element begins with a letter, and no other markup does. -/
theorem IsWord.beginsTag {name : List Char} (word : IsWord name) (more : List Char) :
    BeginsTag (name ++ more) := by
  obtain ⟨some_, letters⟩ := word
  cases name with
  | nil => exact (some_ rfl).elim
  | cons first name =>
      intro c head
      obtain rfl : first = c := Option.some.inj head
      have letter := letters first List.mem_cons_self
      exact ⟨ne_of_isAlpha letter (by decide), ne_of_isAlpha letter (by decide),
        ne_of_isAlpha letter (by decide)⟩

/-! ## Steps of the reader -/

/-- `Reads names text tokens left rest`: where the elements `names` are open, the reader takes
`tokens` from `text`, and goes on with `rest` where the elements `left` are open. -/
def Reads (names : List (List Char)) (text : List Char) (tokens : List Token)
    (left : List (List Char)) (rest : List Char) : Prop :=
  ∀ total, readFrom total names text =
    ⟨tokens ++ (readFrom total left rest).items, (readFrom total left rest).fault⟩

theorem Reads.trans {names middle left : List (List Char)} {text rest rest' : List Char}
    {tokens tokens' : List Token} (first : Reads names text tokens middle rest)
    (second : Reads middle rest tokens' left rest') :
    Reads names text (tokens ++ tokens') left rest' := by
  intro total
  rw [first, second, List.append_assoc]

/-- At the end of a text nothing is left to take. -/
theorem readFrom_nil (total : Nat) (names : List (List Char)) :
    readFrom total names [] = .done := by
  rw [readFrom]
  rfl

/-- What the reader takes is its first token. -/
theorem reads_of_take {names left : List (List Char)} {text rest : List Char} {token : Token}
    (taken : ∀ total, take total names text = .ok (some (token, left, rest))) :
    Reads names text [token] left rest := by
  intro total
  rw [readFrom]
  split
  · next h =>
    rw [taken] at h
    cases h
  · next h =>
    rw [taken] at h
    cases h
  · next h =>
    rw [taken] at h
    cases h
    rfl

theorem reads_blanks {gap : List Char} (blanks : Blanks gap) (names : List (List Char))
    (rest : List Char) : Reads names (gap ++ rest) [] names rest := by
  intro total
  have same : take total names (gap ++ rest) = take total names rest := by
    unfold take
    rw [blanks.dropWhile_append]
  rw [readFrom, List.nil_append]
  conv => rhs; rw [readFrom]
  rw [same]

/-- Markup begins after an angle bracket. -/
theorem reads_of_markup {names left : List (List Char)} {text rest : List Char} {token : Token}
    (nests : Nests names token left) (markup : Markup text token rest) (whole : token.IsWhole) :
    Reads names ('<' :: text) [token] left rest := by
  apply reads_of_take
  intro total
  unfold take
  rw [dropWhile_isBlank_cons (by decide)]
  exact congrArg (Except.map some) (takeMarkup_of_markup nests markup whole)

/-! ## Text between markup -/

/-- Whether a text ends here or goes on with markup. -/
def EndsRun (rest : List Char) : Prop :=
  rest = [] ∨ ∃ markup, rest = '<' :: markup

theorem Resolves.of_blanks {gap text content : List Char} (blanks : Blanks gap)
    (resolves : Resolves (gap ++ text) content) : ∃ content', Resolves text content' := by
  induction gap generalizing content with
  | nil => exact ⟨content, resolves⟩
  | cons c gap ih =>
      have tail : Blanks gap := fun d member => blanks d (List.mem_cons_of_mem _ member)
      rw [List.cons_append] at resolves
      generalize whole : gap ++ text = joined at resolves
      cases resolves with
      | plain _ resolves => exact ih tail (whole ▸ resolves)
      | reference => exact absurd (blanks '&' List.mem_cons_self) (by decide)

/-- The reader on text that is not blank: it takes the text up to the next markup, and removes the
blanks around it. -/
theorem reads_text {gap core rest : List Char} {first : Char} (blanks : Blanks gap)
    (noBlank : isBlank first = false) (noMarkup : '<' ∉ first :: core) (ends : EndsRun rest)
    (names : List (List Char)) :
    Reads names (gap ++ (first :: core ++ rest))
      [.text (Text.dropTrailing isBlank (first :: core))] names rest := by
  have other : ∀ c ∈ first :: core, (c != '<') = true := by
    intro c member
    rw [bne_iff_ne]
    rintro rfl
    exact noMarkup member
  have stops : ∀ c ∈ rest.head?, (c != '<') = false := by
    rintro c begins
    rcases ends with rfl | ⟨markup, rfl⟩ <;> cases begins
    rfl
  obtain ⟨taken, dropped⟩ := Text.run_append other stops
  apply reads_of_take
  intro total
  unfold take
  rw [blanks.dropWhile_append, List.cons_append, dropWhile_isBlank_cons noBlank,
    ← List.cons_append]
  split
  · next h => cases h
  · next markup h =>
    rw [List.cons_append, List.cons.injEq] at h
    exact (noMarkup (h.1 ▸ List.mem_cons_self)).elim
  · rw [taken, dropped]

/-- The tokens of a run between two pieces of markup: none if it is blank, otherwise one text that
resolves. -/
theorem exists_reads_run {inside : Bool} {run rest : List Char} (isRun : IsRun inside run)
    (ends : EndsRun rest) :
    ∃ tokens, (∀ {trees more}, Spells inside trees more → Spells inside trees (tokens ++ more)) ∧
      ∀ names, Reads names (run ++ rest) tokens names rest := by
  cases isRun with
  | blanks blanks => exact ⟨[], fun spells => spells, fun names => reads_blanks blanks names rest⟩
  | @text content _ noBrackets escapes =>
      obtain ⟨gap, blanks, split⟩ := exists_blanks run
      have noMarkup : '<' ∉ run := escapes.not_mem (by decide) (by decide)
      cases found : run.dropWhile isBlank with
      | nil =>
          rw [found, List.append_nil] at split
          subst split
          exact ⟨[], fun spells => spells, fun names => reads_blanks blanks names rest⟩
      | cons first core =>
          have noBlank := isBlank_of_dropWhile found
          rw [found] at split
          subst split
          obtain ⟨content', resolves⟩ :=
            Resolves.of_blanks blanks (escapes.resolves (by decide))
          obtain ⟨content'', resolves⟩ := Resolves.dropTrailing (p := isBlank) (by decide) resolves
          refine ⟨[_], fun spells => .text resolves spells, fun names => ?_⟩
          rw [List.append_assoc]
          exact reads_text blanks noBlank (fun member => noMarkup (List.mem_append_right _ member))
            ends names

/-! ## Markup between text -/

theorem reads_comment {body : List Char} (inBody : ∀ c ∈ body, standsInComment c = true)
    (names : List (List Char)) (rest : List Char) :
    Reads names ('<' :: '!' :: '-' :: '-' :: (body ++ '-' :: '-' :: '>' :: rest))
      [.comment body] names rest :=
  reads_of_markup (.level rfl) .comment fun inside =>
    absurd (inBody '>' (inside.subset (by simp))) (by decide)

theorem reads_childless {name written : List Char} {attributes : List (List Char × List Char)}
    (word : IsWord name) (renders : RendersAttributes attributes written)
    (names : List (List Char)) (rest : List Char) :
    Reads names ('<' :: (name ++ (written ++ '/' :: '>' :: rest)))
      [.empty ⟨name ++ written⟩] names rest := by
  rw [← List.append_assoc]
  refine reads_of_markup (.level rfl) (.empty ?_) (quotes_element word renders)
  rw [List.append_assoc]
  exact word.beginsTag _

theorem reads_opening {name written : List Char} {attributes : List (List Char × List Char)}
    (word : IsWord name) (renders : RendersAttributes attributes written)
    (names : List (List Char)) (rest : List Char) :
    Reads names ('<' :: (name ++ (written ++ '>' :: rest)))
      [.start ⟨name ++ written⟩] (name :: names) rest := by
  have opens := @Nests.start names ⟨name ++ written⟩
  rw [name_of_renders word renders] at opens
  rw [← List.append_assoc]
  exact reads_of_markup opens (.start (word.beginsTag _) (getLast?_element word renders))
    (quotes_element word renders)

theorem reads_closing {name gap : List Char} (word : IsWord name) (blanks : Blanks gap)
    (names : List (List Char)) (rest : List Char) :
    Reads (name :: names) ('<' :: '/' :: (name ++ (gap ++ '>' :: rest)))
      [.close name] names rest := by
  have markup := @Markup.close (name ++ gap) rest
  rw [closingName_append word blanks, List.append_assoc] at markup
  exact reads_of_markup (.close name) markup word.isTagText.quotes

/-- **The reader takes from a rendering the tokens of its trees**, whatever text follows, and
whatever elements are open around it. -/
theorem exists_reads_renders {inside : Bool} {trees : List Tree} {text : List Char}
    (renders : Renders inside trees text) :
    ∀ {rest}, EndsRun rest →
      ∃ tokens, Spells inside trees tokens ∧
        ∀ names, Reads names (text ++ rest) tokens names rest := by
  induction renders with
  | run isRun =>
      intro rest ends
      obtain ⟨tokens, before, reads⟩ := exists_reads_run isRun ends
      refine ⟨tokens, ?_, reads⟩
      rw [← List.append_nil tokens]
      exact before .nil
  | @comment _ run body text _ isRun inBody _ ih =>
      intro rest ends
      obtain ⟨tokens, spells, reads⟩ := ih ends
      obtain ⟨front, before, readsRun⟩ := exists_reads_run isRun (.inr ⟨_, rfl⟩)
      refine ⟨front ++ ([.comment body] ++ tokens), before (.aside rfl spells), fun names => ?_⟩
      have whole := (readsRun names).trans ((reads_comment inBody names _).trans (reads names))
      simpa using whole
  | @childless _ run name written text attributes _ isRun word rendersAttributes nodup _ ih =>
      intro rest ends
      obtain ⟨tokens, spells, reads⟩ := ih ends
      obtain ⟨front, before, readsRun⟩ := exists_reads_run isRun (.inr ⟨_, rfl⟩)
      refine ⟨front ++ ([.empty ⟨name ++ written⟩] ++ tokens), before ?_, fun names => ?_⟩
      · have whole := Spells.empty (holds_of_renders word rendersAttributes nodup) spells
        rw [name_of_renders word rendersAttributes] at whole
        exact whole
      · have whole := (readsRun names).trans
          ((reads_childless word rendersAttributes names _).trans (reads names))
        simpa using whole
  | @element _ run name written inner gap text attributes children _ isRun word rendersAttributes
      nodup _ blanks _ ihInner ih =>
      intro rest ends
      obtain ⟨tokens, spells, reads⟩ := ih ends
      obtain ⟨innerTokens, spellsInner, readsInner⟩ := ihInner (.inr ⟨_, rfl⟩)
      obtain ⟨front, before, readsRun⟩ := exists_reads_run isRun (.inr ⟨_, rfl⟩)
      refine ⟨front ++ ([.start ⟨name ++ written⟩] ++ (innerTokens ++ ([.close name] ++ tokens))),
        before ?_, fun names => ?_⟩
      · have whole :=
          Spells.element (holds_of_renders word rendersAttributes nodup) spellsInner spells
        rw [name_of_renders word rendersAttributes] at whole
        exact whole
      · have whole := (readsRun names).trans ((reads_opening word rendersAttributes names _).trans
          ((readsInner (name :: names)).trans
            ((reads_closing word blanks names _).trans (reads names))))
        simpa using whole

theorem Renders.exists_run {inside : Bool} {trees : List Tree} {text : List Char}
    (renders : Renders inside trees text) :
    ∃ run rest, IsRun inside run ∧ EndsRun rest ∧ text = run ++ rest := by
  cases renders with
  | run isRun => exact ⟨_, [], isRun, .inl rfl, (List.append_nil _).symm⟩
  | comment isRun => exact ⟨_, _, isRun, .inr ⟨_, rfl⟩, rfl⟩
  | childless isRun => exact ⟨_, _, isRun, .inr ⟨_, rfl⟩, rfl⟩
  | element isRun => exact ⟨_, _, isRun, .inr ⟨_, rfl⟩, rfl⟩

/-- A rendering as a whole text does not begin with a byte order mark. -/
theorem withoutMark_renders {trees : List Tree} {text : List Char}
    (renders : Renders false trees text) : withoutMark text = text := by
  obtain ⟨run, rest, isRun, ends, rfl⟩ := renders.exists_run
  cases isRun with
  | blanks blanks =>
      unfold withoutMark
      split
      · next tail whole =>
        cases run with
        | nil => rcases ends with rfl | ⟨markup, rfl⟩ <;> cases whole
        | cons c run =>
            cases whole
            exact absurd (blanks _ List.mem_cons_self) (by decide)
      · rfl

/-- A rendering as a whole text is read without a fault. -/
theorem read_renders {trees : List Tree} {text : List Char} (renders : Renders false trees text) :
    (read text).fault = none ∧ Spells false trees (read text).items := by
  obtain ⟨tokens, spells, reads⟩ := exists_reads_renders renders (.inl rfl)
  unfold read
  rw [withoutMark_renders renders]
  rw [← List.append_nil text, reads, readFrom_nil]
  refine ⟨rfl, ?_⟩
  change Spells false trees (tokens ++ [])
  rw [List.append_nil]
  exact spells

end LivingDoc.Xml
