import LivingDoc.Proofs.Text.Cut
import LivingDoc.Proofs.Xml.Attributes
import LivingDoc.Proofs.Xml.Tree

/-!
The grammar of one piece of markup, and its agreement with the reader.

`Markup text token rest`: after an angle bracket, `text` begins with the markup of `token` and goes
on with `rest`. Markup ends where its end is first found, so the content of a token does not hold
that end, `IsWhole`. The reader takes a token exactly if both are so and the open elements allow it.
-/

namespace LivingDoc.Xml

/-! ## Angle brackets that end nothing -/

section Brackets

variable {σ : Type} (next : σ → Char → σ) (ends : σ → Bool)

/-- Whether no angle bracket in a text ends markup, and one after it would. What has been read
before, by `next`, is a state, and brackets count only where it `ends`. -/
def isEnclosed (state : σ) : List Char → Bool
  | [] => ends state
  | c :: rest => !(ends state && c = '>') && isEnclosed (next state c) rest

/-- A cut at the first angle bracket that counts is a cut after an enclosed text. -/
theorem cut_eq_some_iff {cut : σ → List Char → Option (List Char × List Char)}
    (nil : ∀ state, cut state [] = none)
    (cons : ∀ state c rest, cut state (c :: rest) =
      if ends state && c = '>' then some ([], rest)
      else (cut (next state c) rest).map fun parts => (c :: parts.1, parts.2))
    {state : σ} {text content rest : List Char} :
    cut state text = some (content, rest) ↔
      text = content ++ '>' :: rest ∧ isEnclosed next ends state content = true := by
  induction text generalizing state content with
  | nil => simp [nil]
  | cons c text ih =>
      rw [cons]
      by_cases here : (ends state && c = '>') = true
      · rw [if_pos here]
        constructor
        · intro h
          cases h
          obtain ⟨counts, rfl⟩ : ends state = true ∧ c = '>' := by simpa using here
          exact ⟨rfl, counts⟩
        · intro h
          rcases h with ⟨whole, enclosed⟩
          cases content with
          | nil =>
              cases whole
              rfl
          | cons d content =>
              obtain ⟨rfl, _⟩ := List.cons.inj whole
              rw [isEnclosed, here] at enclosed
              cases enclosed
      · rw [if_neg here, Option.map_eq_some_iff]
        constructor
        · intro h
          rcases h with ⟨⟨front, back⟩, found, same⟩
          cases same
          obtain ⟨rfl, enclosed⟩ := ih.mp found
          refine ⟨rfl, ?_⟩
          rw [isEnclosed, enclosed, Bool.and_true, Bool.not_eq_true']
          exact Bool.eq_false_iff.mpr here
        · intro h
          rcases h with ⟨whole, enclosed⟩
          cases content with
          | nil =>
              cases whole
              have counts : ends state = true := enclosed
              exact (here (by rw [counts]; rfl)).elim
          | cons d content =>
              obtain ⟨rfl, split⟩ := List.cons.inj whole
              rw [isEnclosed, Bool.and_eq_true] at enclosed
              exact ⟨(content, rest), ih.mpr ⟨split, enclosed.2⟩, rfl⟩

/-- Characters that change no state may be added in front. -/
theorem isEnclosed_of_neutral {front : List Char} {state : σ}
    (neutral : ∀ c ∈ front, next state c = state ∧ c ≠ '>') (text : List Char) :
    isEnclosed next ends state (front ++ text) = isEnclosed next ends state text := by
  induction front with
  | nil => rfl
  | cons c front ih =>
      obtain ⟨same, noEnd⟩ := neutral c List.mem_cons_self
      rw [List.cons_append, isEnclosed, same,
        ih fun d member => neutral d (List.mem_cons_of_mem _ member)]
      simp [noEnd]

/-- Characters that change no state may be added behind. The states are those of a kind that `next`
does not leave. -/
theorem isEnclosed_append (kind : σ → Prop) {tail : List Char}
    (stays : ∀ state c, kind state → kind (next state c))
    (neutral : ∀ state, kind state → ∀ c ∈ tail, next state c = state ∧ c ≠ '>')
    {state : σ} (h : kind state) (text : List Char) :
    isEnclosed next ends state (text ++ tail) = isEnclosed next ends state text := by
  induction text generalizing state with
  | nil =>
      have alone := isEnclosed_of_neutral next ends (neutral state h) []
      rwa [List.append_nil] at alone
  | cons c text ih => rw [List.cons_append, isEnclosed, isEnclosed, ih (stays state c h)]

end Brackets

/-- The quote that is open after a character. -/
def followQuote (quote : Option Char) (c : Char) : Option Char :=
  match quote with
  | none => if c = '"' || c = '\'' then some c else none
  | some current => if c = current then none else some current

/-- The number of open pairs of brackets after a character. -/
def followBracket (nested : Nat) (c : Char) : Nat :=
  if c = '<' then nested + 1 else if c = '>' then nested - 1 else nested

/-- Whether closing brackets stand in quotes only, and all quotes are closed. -/
def quotesBrackets (text : List Char) : Bool :=
  isEnclosed followQuote (· = none) none text

/-- Whether the brackets in a text are pairs. -/
def pairsBrackets (text : List Char) : Bool :=
  isEnclosed followBracket (· = 0) 0 text

theorem cutTag?_eq_some_iff {text content rest : List Char} :
    cutTag? none text = some (content, rest) ↔
      text = content ++ '>' :: rest ∧ quotesBrackets content = true :=
  cut_eq_some_iff followQuote (· = none) (fun _ => rfl) fun _ _ _ => rfl

theorem cutDoctype?_eq_some_iff {text content rest : List Char} :
    cutDoctype? 0 text = some (content, rest) ↔
      text = content ++ '>' :: rest ∧ pairsBrackets content = true :=
  cut_eq_some_iff followBracket (· = 0) (fun _ => rfl) fun _ _ _ => rfl

/-- A quote is not closed by other characters, and no quote is opened by them. -/
theorem quotesBrackets_append {tail : List Char}
    (plain : ∀ c ∈ tail, c ≠ '"' ∧ c ≠ '\'' ∧ c ≠ '>') (text : List Char) :
    quotesBrackets (text ++ tail) = quotesBrackets text := by
  refine isEnclosed_append followQuote (· = none)
    (fun quote => quote = none ∨ quote = some '"' ∨ quote = some '\'') ?_ ?_ (.inl rfl) text
  · intro quote c isQuote
    rcases isQuote with rfl | rfl | rfl <;> by_cases double : c = '"' <;>
      by_cases single : c = '\'' <;> simp [followQuote, double, single]
  · intro quote isQuote c member
    obtain ⟨noDouble, noSingle, noEnd⟩ := plain c member
    rcases isQuote with rfl | rfl | rfl <;> simp [followQuote, noDouble, noSingle, noEnd]

theorem pairsBrackets_append {front : List Char} (plain : ∀ c ∈ front, c ≠ '<' ∧ c ≠ '>')
    (text : List Char) : pairsBrackets (front ++ text) = pairsBrackets text :=
  isEnclosed_of_neutral followBracket (· = 0)
    (fun c member => by simp [followBracket, plain c member]) text

/-! ## The grammar of markup -/

/-- Whether the end of a token's markup is not found too early in its content. -/
def Token.IsWhole : Token → Prop
  | .start tag => quotesBrackets tag.content = true
  | .empty tag => quotesBrackets tag.content = true
  | .close name => quotesBrackets name = true
  | .text content => '<' ∉ content
  | .cdata content => ¬ [']', ']', '>'] <:+: content
  | .comment content => ¬ ['-', '-', '>'] <:+: content
  | .doctype content => pairsBrackets content = true
  | .instruction content => ¬ ['?', '>'] <:+: '?' :: content

instance : (token : Token) → Decidable token.IsWhole
  | .start tag => inferInstanceAs (Decidable (quotesBrackets tag.content = true))
  | .empty tag => inferInstanceAs (Decidable (quotesBrackets tag.content = true))
  | .close name => inferInstanceAs (Decidable (quotesBrackets name = true))
  | .text content => inferInstanceAs (Decidable ('<' ∉ content))
  | .cdata content => inferInstanceAs (Decidable ¬ [']', ']', '>'] <:+: content)
  | .comment content => inferInstanceAs (Decidable ¬ ['-', '-', '>'] <:+: content)
  | .doctype content => inferInstanceAs (Decidable (pairsBrackets content = true))
  | .instruction content => inferInstanceAs (Decidable ¬ ['?', '>'] <:+: '?' :: content)

/-- Whether a text begins with no character that tells other markup from a tag. -/
def BeginsTag (text : List Char) : Prop :=
  ∀ c ∈ text.head?, c ≠ '!' ∧ c ≠ '/' ∧ c ≠ '?'

/-- `Markup text token rest`: after an angle bracket, `text` begins with the markup of `token` and
goes on with `rest`. -/
inductive Markup : List Char → Token → List Char → Prop
  | start {content rest : List Char} :
    BeginsTag content → content.getLast? ≠ some '/' →
    Markup (content ++ '>' :: rest) (.start ⟨content⟩) rest
  | empty {content rest : List Char} :
    BeginsTag (content ++ ['/']) → Markup (content ++ '/' :: '>' :: rest) (.empty ⟨content⟩) rest
  | close {content rest : List Char} :
    Markup ('/' :: (content ++ '>' :: rest)) (.close (closingName content)) rest
  | cdata {content rest : List Char} :
    Markup (cdataMark ++ (content ++ ']' :: ']' :: '>' :: rest)) (.cdata content) rest
  | comment {content rest : List Char} :
    Markup ('!' :: '-' :: '-' :: (content ++ '-' :: '-' :: '>' :: rest)) (.comment content) rest
  | doctype {first : Char} {mark gap content rest : List Char} :
    first = 'D' ∨ first = 'd' → ('!' :: first :: mark).map Char.toLower = doctypeMark →
    Blanks gap → content ≠ [] → content.dropWhile isBlank = content →
    Markup ('!' :: first :: (mark ++ (gap ++ (content ++ '>' :: rest)))) (.doctype content) rest
  | instruction {content rest : List Char} :
    Markup ('?' :: (content ++ '?' :: '>' :: rest)) (.instruction content) rest

/-! ## One kind of markup -/

section Readers

variable {total position : Nat} {names left : List (List Char)} {text rest : List Char}
  {token : Token}

theorem markup_of_takeComment (h : takeComment position names text = .ok (token, left, rest)) :
    Markup text token rest ∧ token.IsWhole := by
  unfold takeComment at h
  split at h
  · next begins =>
    split at h
    · next body after cut =>
      cases h
      obtain ⟨tail, rfl⟩ := List.isPrefixOf_iff_prefix.mp begins
      obtain ⟨split, whole⟩ := (Text.cut?_snoc_eq_some_iff (show '>' ∉ ['-', '-'] by decide)).mp cut
      simp only [List.cons_append, List.nil_append, List.drop_succ_cons, List.drop_zero] at split
      subst split
      exact ⟨.comment, whole⟩
    · cases h
  · cases h

theorem takeComment_of_whole {content : List Char} (whole : (Token.comment content).IsWhole) :
    takeComment position names ('!' :: '-' :: '-' :: (content ++ '-' :: '-' :: '>' :: rest)) =
      .ok (.comment content, names, rest) := by
  have cut : Text.cut? ['-', '-', '>'] (content ++ '-' :: '-' :: '>' :: rest) =
      some (content, rest) :=
    (Text.cut?_snoc_eq_some_iff (show '>' ∉ ['-', '-'] by decide)).mpr ⟨rfl, whole⟩
  unfold takeComment
  rw [if_pos (by simp)]
  simp only [List.drop_succ_cons, List.drop_zero, cut]

theorem markup_of_takeCdata (h : takeCdata position names text = .ok (token, left, rest)) :
    Markup text token rest ∧ token.IsWhole := by
  unfold takeCdata at h
  split at h
  · next begins =>
    split at h
    · next body after cut =>
      cases h
      obtain ⟨tail, rfl⟩ := List.isPrefixOf_iff_prefix.mp begins
      obtain ⟨split, whole⟩ := (Text.cut?_snoc_eq_some_iff (show '>' ∉ [']', ']'] by decide)).mp cut
      rw [List.drop_left] at split
      subst split
      exact ⟨.cdata, whole⟩
    · cases h
  · cases h

theorem takeCdata_of_whole {content : List Char} (whole : (Token.cdata content).IsWhole) :
    takeCdata position names (cdataMark ++ (content ++ ']' :: ']' :: '>' :: rest)) =
      .ok (.cdata content, names, rest) := by
  have cut : Text.cut? [']', ']', '>'] (content ++ ']' :: ']' :: '>' :: rest) =
      some (content, rest) :=
    (Text.cut?_snoc_eq_some_iff (show '>' ∉ [']', ']'] by decide)).mpr ⟨rfl, whole⟩
  unfold takeCdata
  rw [if_pos (List.isPrefixOf_iff_prefix.mpr (List.prefix_append _ _))]
  simp only [List.drop_left, cut]

theorem markup_of_takeInstruction {more : List Char}
    (h : takeInstruction position names ('?' :: more) = .ok (token, left, rest)) :
    Markup ('?' :: more) token rest ∧ token.IsWhole := by
  unfold takeInstruction at h
  split at h
  · next first body after cut =>
    cases h
    obtain ⟨split, whole⟩ := (Text.cut?_snoc_eq_some_iff (show '>' ∉ ['?'] by decide)).mp cut
    rw [List.cons_append, List.cons.injEq] at split
    obtain ⟨rfl, rfl⟩ := split
    exact ⟨.instruction, whole⟩
  · cases h

theorem takeInstruction_of_whole {content : List Char}
    (whole : (Token.instruction content).IsWhole) :
    takeInstruction position names ('?' :: (content ++ '?' :: '>' :: rest)) =
      .ok (.instruction content, names, rest) := by
  have cut : Text.cut? ['?', '>'] ('?' :: (content ++ '?' :: '>' :: rest)) =
      some ('?' :: content, rest) :=
    (Text.cut?_snoc_eq_some_iff (show '>' ∉ ['?'] by decide)).mpr ⟨rfl, whole⟩
  unfold takeInstruction
  rw [cut]

/-- Neither the word that begins a document type nor the blanks after it hold brackets. -/
theorem pairsBrackets_doctype {mark gap content : List Char}
    (isMark : mark.map Char.toLower = doctypeMark) (blanks : Blanks gap) :
    pairsBrackets (mark ++ (gap ++ content)) = pairsBrackets content := by
  rw [pairsBrackets_append, pairsBrackets_append]
  · intro c member
    constructor
    · rintro rfl
      exact absurd (blanks _ member) (by decide)
    · rintro rfl
      exact absurd (blanks _ member) (by decide)
  · intro c member
    have inMark : c.toLower ∈ doctypeMark := isMark ▸ List.mem_map_of_mem member
    constructor
    · rintro rfl
      exact absurd inMark (by decide)
    · rintro rfl
      exact absurd inMark (by decide)

theorem markup_of_takeDoctype {first : Char} {more : List Char}
    (isFirst : first = 'D' ∨ first = 'd')
    (h : takeDoctype total position names ('!' :: first :: more) = .ok (token, left, rest)) :
    Markup ('!' :: first :: more) token rest ∧ token.IsWhole := by
  unfold takeDoctype at h
  split at h
  · cases h
  · next body after cut =>
    obtain ⟨split, pairs⟩ := cutDoctype?_eq_some_iff.mp cut
    split at h
    · next begins =>
      split at h
      · cases h
      · next content some_ =>
        cases h
        obtain ⟨tail, lowered⟩ := List.isPrefixOf_iff_prefix.mp begins
        obtain ⟨mark, after', rfl, isMark, rfl⟩ := List.map_eq_append_iff.mp lowered.symm
        have length : mark.length = doctypeMark.length := by rw [← isMark, List.length_map]
        obtain ⟨gap, blanks, parts⟩ := exists_blanks after'
        rw [← length, List.drop_left] at some_ ⊢
        rw [parts, pairsBrackets_doctype isMark blanks] at pairs
        rw [parts] at split
        match mark, isMark, length, split with
        | mark₀ :: mark₁ :: mark, isMark, _, split =>
          simp only [List.cons_append, List.cons.injEq] at split
          obtain ⟨rfl, rfl, rfl⟩ := split
          simp only [List.append_assoc]
          exact ⟨.doctype isFirst isMark blanks some_ (List.dropWhile_idempotent _ _), pairs⟩
    · cases h

theorem takeDoctype_of_whole {mark gap content : List Char}
    (isMark : mark.map Char.toLower = doctypeMark) (blanks : Blanks gap) (some_ : content ≠ [])
    (noBlank : content.dropWhile isBlank = content) (whole : (Token.doctype content).IsWhole) :
    takeDoctype total position names (mark ++ (gap ++ (content ++ '>' :: rest))) =
      .ok (.doctype content, names, rest) := by
  have cut : cutDoctype? 0 (mark ++ (gap ++ (content ++ '>' :: rest))) =
      some (mark ++ (gap ++ content), rest) :=
    cutDoctype?_eq_some_iff.mpr ⟨by simp, (pairsBrackets_doctype isMark blanks).trans whole⟩
  have length : mark.length = doctypeMark.length := by rw [← isMark, List.length_map]
  unfold takeDoctype
  simp only [cut]
  rw [if_pos]
  · rw [← length, List.drop_left, blanks.dropWhile_append, noBlank]
    cases content with
    | nil => exact (some_ rfl).elim
    | cons => rfl
  · rw [List.map_append, isMark]
    exact List.isPrefixOf_iff_prefix.mpr (List.prefix_append _ _)

/-- What is dropped at the end of a text is of the class. -/
theorem exists_dropTrailing (p : Char → Bool) (text : List Char) :
    ∃ dropped, (∀ c ∈ dropped, p c = true) ∧ text = Text.dropTrailing p text ++ dropped :=
  ⟨text.rtakeWhile p, fun _ member => List.mem_rtakeWhile_imp member,
    List.rdropWhile_append_rtakeWhile.symm⟩

theorem exists_closingName (content : List Char) :
    ∃ gap, Blanks gap ∧ content = closingName content ++ gap := by
  unfold closingName
  split
  · exact ⟨[], List.forall_mem_nil _, (List.append_nil content).symm⟩
  · exact exists_dropTrailing isBlank content

theorem quotesBrackets_closingName (content : List Char) :
    quotesBrackets (closingName content) = quotesBrackets content := by
  obtain ⟨gap, blanks, split⟩ := exists_closingName content
  conv => rhs; rw [split]
  refine (quotesBrackets_append (fun c member => ⟨?_, ?_, ?_⟩) _).symm <;>
  · rintro rfl
    exact absurd (blanks _ member) (by decide)

theorem markup_of_takeClosing (h : takeClosing position names text = .ok (token, left, rest)) :
    Markup ('/' :: text) token rest ∧ token.IsWhole := by
  unfold takeClosing at h
  split at h
  · cases h
  · next content after cut =>
    obtain ⟨rfl, whole⟩ := cutTag?_eq_some_iff.mp cut
    dsimp only at h
    split at h
    · cases h
    · split at h
      · cases h
        exact ⟨.close, (quotesBrackets_closingName content).trans whole⟩
      · cases h

theorem takeClosing_of_whole {content : List Char}
    (whole : (Token.close (closingName content)).IsWhole) :
    takeClosing position (closingName content :: names) (content ++ '>' :: rest) =
      .ok (.close (closingName content), names, rest) := by
  have cut : cutTag? none (content ++ '>' :: rest) = some (content, rest) :=
    cutTag?_eq_some_iff.mpr ⟨rfl, (quotesBrackets_closingName content).symm.trans whole⟩
  unfold takeClosing
  simp only [cut, if_true]

theorem markup_of_takeOpening (begins : BeginsTag text)
    (h : takeOpening position names text = .ok (token, left, rest)) :
    Markup text token rest ∧ token.IsWhole := by
  unfold takeOpening at h
  split at h
  · cases h
  · next content after cut =>
    obtain ⟨rfl, whole⟩ := cutTag?_eq_some_iff.mp cut
    split at h
    · next slash =>
      cases h
      obtain ⟨front, rfl⟩ := List.getLast?_eq_some_iff.mp slash
      rw [List.dropLast_concat]
      rw [quotesBrackets_append (by simp)] at whole
      refine ⟨?_, whole⟩
      rw [List.append_assoc]
      refine .empty fun c head => begins c ?_
      rw [List.head?_append_of_ne_nil _ (by simp)]
      exact head
    · next noSlash =>
      cases h
      refine ⟨.start (fun c head => begins c ?_) noSlash, whole⟩
      rw [List.head?_append]
      exact Option.or_eq_some_iff.mpr (.inl head)

theorem takeOpening_of_empty {content : List Char} (whole : (Token.empty ⟨content⟩).IsWhole) :
    takeOpening position names (content ++ '/' :: '>' :: rest) =
      .ok (.empty ⟨content⟩, names, rest) := by
  have cut : cutTag? none (content ++ '/' :: '>' :: rest) = some (content ++ ['/'], rest) :=
    cutTag?_eq_some_iff.mpr ⟨by simp, (quotesBrackets_append (by simp) content).trans whole⟩
  unfold takeOpening
  simp only [cut]
  rw [if_pos (by simp), List.dropLast_concat]

theorem takeOpening_of_start {content : List Char} (noSlash : content.getLast? ≠ some '/')
    (whole : (Token.start ⟨content⟩).IsWhole) :
    takeOpening position names (content ++ '>' :: rest) =
      .ok (.start ⟨content⟩, (Tag.mk content).name :: names, rest) := by
  have cut : cutTag? none (content ++ '>' :: rest) = some (content, rest) :=
    cutTag?_eq_some_iff.mpr ⟨rfl, whole⟩
  unfold takeOpening
  simp only [cut]
  rw [if_neg noSlash]

/-! ## All kinds of markup -/

/-- A text that begins with no other markup begins with a tag that opens an element. -/
theorem takeMarkup_of_beginsTag (begins : BeginsTag text) :
    takeMarkup total position names text = takeOpening position names text := by
  unfold takeMarkup
  split
  · exact absurd rfl (begins '!' rfl).1
  · exact absurd rfl (begins '!' rfl).1
  · exact absurd rfl (begins '!' rfl).1
  · exact absurd rfl (begins '!' rfl).1
  · exact absurd rfl (begins '!' rfl).1
  · exact absurd rfl (begins '/' rfl).2.1
  · exact absurd rfl (begins '?' rfl).2.2
  · rfl

theorem markup_of_takeMarkup (h : takeMarkup total position names text = .ok (token, left, rest)) :
    Markup text token rest ∧ token.IsWhole := by
  unfold takeMarkup at h
  split at h
  · exact markup_of_takeCdata h
  · exact markup_of_takeComment h
  · exact markup_of_takeDoctype (.inl rfl) h
  · exact markup_of_takeDoctype (.inr rfl) h
  · cases h
  · exact markup_of_takeClosing h
  · exact markup_of_takeInstruction h
  · next noMark noSlash noQuestion =>
    refine markup_of_takeOpening (fun c head => ?_) h
    obtain ⟨more, rfl⟩ := List.head?_eq_some_iff.mp head
    refine ⟨?_, ?_, ?_⟩
    · rintro rfl
      exact noMark more rfl
    · rintro rfl
      exact noSlash more rfl
    · rintro rfl
      exact noQuestion more rfl

theorem BeginsTag.append {content : List Char} (begins : BeginsTag content) (rest : List Char) :
    BeginsTag (content ++ '>' :: rest) := by
  cases content with
  | nil => simp [BeginsTag]
  | cons c content => exact begins

theorem takeMarkup_of_markup (nests : Nests names token left) (markup : Markup text token rest)
    (whole : token.IsWhole) :
    takeMarkup total position names text = .ok (token, left, rest) := by
  cases markup with
  | start begins noSlash =>
      rw [takeMarkup_of_beginsTag (begins.append rest), takeOpening_of_start noSlash whole]
      cases nests with
      | start => rfl
      | level isLevel => cases isLevel
  | @empty content _ begins =>
      have split : content ++ '/' :: '>' :: rest = (content ++ ['/']) ++ '>' :: rest := by simp
      rw [takeMarkup_of_beginsTag (split ▸ begins.append rest), takeOpening_of_empty whole]
      cases nests
      rfl
  | close =>
      cases nests with
      | close => exact takeClosing_of_whole whole
      | level isLevel => cases isLevel
  | cdata =>
      cases nests
      exact takeCdata_of_whole whole
  | comment =>
      cases nests
      exact takeComment_of_whole whole
  | doctype isFirst isMark blanks some_ noBlank =>
      cases nests
      rcases isFirst with rfl | rfl
      · exact takeDoctype_of_whole isMark blanks some_ noBlank whole
      · exact takeDoctype_of_whole isMark blanks some_ noBlank whole
  | instruction =>
      cases nests
      exact takeInstruction_of_whole whole

/-- **The reader agrees with the grammar of markup**, whatever position it counts. -/
theorem takeMarkup_eq_ok_iff :
    takeMarkup total position names text = .ok (token, left, rest) ↔
      Nests names token left ∧ Markup text token rest ∧ token.IsWhole :=
  ⟨fun h => ⟨nests_of_takeMarkup h, markup_of_takeMarkup h⟩,
    fun h => takeMarkup_of_markup h.1 h.2.1 h.2.2⟩

end Readers

end LivingDoc.Xml
