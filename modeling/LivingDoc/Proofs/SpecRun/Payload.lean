import LivingDoc.Proofs.SpecRun.Page

/-!
What a page gives back of the results that were written into it, and which pages give back
something.

Results that hold no escaped bracket themselves are given back however many of their brackets are
escaped in the page, and a page gives back something if an end marker stands behind its first begin
marker, and only then.
-/

namespace LivingDoc.SpecRun

open Text (StandsAt)

variable {text payload page : List Char}

/-! ## One pass over a text and two -/

/-- A text with each occurrence of a word, from left to right, replaced by a character. -/
def replaceAll (word : List Char) (c : Char) : List Char → List Char
  | [] => []
  | d :: text =>
    if word <+: d :: text then c :: replaceAll word c (text.drop (word.length - 1))
    else d :: replaceAll word c text
termination_by text => text.length

/-- Replacing a whole word goes on behind it. -/
theorem replaceAll_append {word : List Char} (some_ : word ≠ []) (c : Char) (text : List Char) :
    replaceAll word c (word ++ text) = c :: replaceAll word c text := by
  obtain ⟨d, word, rfl⟩ := List.exists_cons_of_ne_nil some_
  have here : d :: word <+: d :: (word ++ text) := List.prefix_append (d :: word) text
  rw [List.cons_append, replaceAll, if_pos here, List.length_cons, Nat.add_sub_cancel,
    List.drop_left]

theorem replaceAll_cons {word : List Char} {c d : Char} (notHere : ¬ word <+: d :: text) :
    replaceAll word c (d :: text) = d :: replaceAll word c text := by
  rw [replaceAll, if_neg notHere]

/-- A text is its own version with the escapes of one bracket replaced, some brackets of which are
escaped. -/
theorem escapesSome_replaceAll_less (text : List Char) :
    EscapesSome (replaceAll (escapeBracket '<') '<' text) text := by
  fun_induction replaceAll (escapeBracket '<') '<' text with
  | case1 => exact .nil
  | case2 d text here ih =>
      obtain ⟨rest, whole⟩ := here
      rw [← whole]
      obtain ⟨rfl, rfl⟩ := List.cons.inj whole
      exact .less ih
  | case3 d text _ ih => exact .same d ih

/-- **Escaped brackets are restored in one pass as they are in two**, one for each bracket: what the
first pass puts into the text is part of no escape that the second one replaces. -/
theorem restore_eq_replaceAll (text : List Char) :
    restore text = replaceAll (escapeBracket '>') '>' (replaceAll (escapeBracket '<') '<' text) := by
  fun_induction restore text with
  | case1 => simp only [replaceAll]
  | case2 text ih =>
      have first := replaceAll_append (show escapeBracket '<' ≠ [] by decide) '<' text
      change replaceAll _ _ ('&' :: 'l' :: 't' :: ';' :: text) = _ at first
      rw [first, replaceAll_cons (by simp [escapeBracket]), ih]
  | case3 text ih =>
      -- No escape of the other bracket begins in this one.
      have first : replaceAll (escapeBracket '<') '<' ('&' :: 'g' :: 't' :: ';' :: text) =
          '&' :: 'g' :: 't' :: ';' :: replaceAll (escapeBracket '<') '<' text := by
        rw [replaceAll_cons, replaceAll_cons, replaceAll_cons, replaceAll_cons] <;>
          simp [escapeBracket]
      have second := replaceAll_append (show escapeBracket '>' ≠ [] by decide) '>'
        (replaceAll (escapeBracket '<') '<' text)
      rw [first, ih]
      exact second.symm
  | case4 c text noLess noGreater ih =>
      rw [replaceAll_cons, replaceAll_cons, ih]
      · rintro ⟨rest, whole⟩
        obtain ⟨rfl, inText⟩ := List.cons.inj whole
        have escapes := escapesSome_replaceAll_less text
        rw [← inText] at escapes
        obtain ⟨rest', rfl, _⟩ := @EscapesSome.of_append ['g', 't', ';'] _ _ (by simp) escapes
        exact noGreater rest' rfl rfl
      · rintro ⟨rest, whole⟩
        obtain ⟨rfl, rfl⟩ := List.cons.inj whole
        exact noLess rest rfl rfl

/-! ## Results that are given back -/

/-- Whether no escaped bracket stands in a text. -/
def HoldsNoEscape (text : List Char) : Prop :=
  ¬ escapeBracket '<' <:+: text ∧ ¬ escapeBracket '>' <:+: text

instance (text : List Char) : Decidable (HoldsNoEscape text) :=
  inferInstanceAs (Decidable (_ ∧ _))

theorem HoldsNoEscape.restore_eq_self (noEscape : HoldsNoEscape text) : restore text = text := by
  fun_induction restore text with
  | case1 => rfl
  | case2 text => exact (noEscape.1 (List.prefix_append _ text).isInfix).elim
  | case3 text => exact (noEscape.2 (List.prefix_append _ text).isInfix).elim
  | case4 c text _ _ ih =>
      have later {word : List Char} (notInside : ¬ word <:+: c :: text) : ¬ word <:+: text :=
        fun inside => notInside (List.infix_cons inside)
      rw [ih ⟨later noEscape.1, later noEscape.2⟩]

/-! ## Pages that give back something -/

/-- Whether an end marker begins in a page at the end of its first begin marker, or later. -/
def Encloses (page : List Char) : Prop :=
  ∃ start, (StandsAt beginMarker page start ∧ ∀ n < start, ¬ StandsAt beginMarker page n) ∧
    ∃ stop, start + beginMarker.length ≤ stop ∧ StandsAt endMarker page stop

/-- A page encloses something if the end marker stands in what comes after the place at which it is
cut. -/
theorem encloses_iff :
    Encloses page ↔
      ∃ before rest, Text.cut? beginMarker page = some (before, rest) ∧ endMarker <:+: rest := by
  have some_ : beginMarker ≠ [] := by decide
  have someEnd : endMarker ≠ [] := by decide
  constructor
  · rintro ⟨start, ⟨stands, first⟩, stop, behind, ends⟩
    obtain ⟨before, rest, rfl, rfl⟩ := (Text.standsAt_iff some_).mp stands
    obtain ⟨further, rfl⟩ := Nat.exists_eq_add_of_le behind
    rw [Nat.add_assoc, Text.standsAt_append, Text.standsAt_append] at ends
    exact ⟨before, rest, (Text.cut?_eq_some_iff some_).mpr ⟨rfl, first⟩,
      (Text.infix_iff_exists_standsAt someEnd).mpr ⟨further, ends⟩⟩
  · rintro ⟨before, rest, found, inside⟩
    obtain ⟨rfl, first⟩ := (Text.cut?_eq_some_iff some_).mp found
    obtain ⟨further, ends⟩ := (Text.infix_iff_exists_standsAt someEnd).mp inside
    refine ⟨before.length, ⟨(Text.standsAt_iff some_).mpr ⟨before, rest, rfl, rfl⟩, first⟩,
      before.length + beginMarker.length + further, Nat.le_add_right _ _, ?_⟩
    rw [Nat.add_assoc, Text.standsAt_append, Text.standsAt_append]
    exact ends

theorem embedded_of_encloses (encloses : Encloses page) : ∃ results, embedded page = .ok results := by
  obtain ⟨before, rest, found, ends⟩ := encloses_iff.mp encloses
  cases ended : Text.cut? endMarker rest with
  | none => exact absurd ends ((Text.cut?_eq_none_iff (by decide)).mp ended)
  | some parts =>
      refine ⟨restore parts.1, ?_⟩
      unfold embedded
      rw [found]
      dsimp only
      rw [ended]

theorem embedded_of_no_begin (missing : ¬ beginMarker <:+: page) :
    embedded page = .error (.missingMarker beginMarker) := by
  unfold embedded
  rw [(Text.cut?_eq_none_iff (by decide)).mpr missing]

theorem embedded_of_not_encloses (begins : beginMarker <:+: page) (notEnclosed : ¬ Encloses page) :
    embedded page = .error (.missingMarker endMarker) := by
  unfold embedded
  cases found : Text.cut? beginMarker page with
  | none => exact absurd begins ((Text.cut?_eq_none_iff (by decide)).mp found)
  | some parts =>
      have ended : Text.cut? endMarker parts.2 = none :=
        (Text.cut?_eq_none_iff (by decide)).mpr fun ends =>
          notEnclosed (encloses_iff.mpr ⟨parts.1, parts.2, found, ends⟩)
      dsimp only
      rw [ended]

/-- **Results are given back whichever of their brackets are escaped in the page**, if they hold no
escaped bracket themselves and no marker stands where it would be found too early; of results that
are escaped throughout, no end marker is part. **A page gives back something if an end marker stands
behind its first begin marker, and only then**; of all others it is said which marker is missing. -/
theorem embedded_cases :
    (∀ before payload written after : List Char, ¬ beginMarker <:+: before →
      HoldsNoEscape payload → EscapesSome payload written → ¬ endMarker <:+: written →
      embedded (before ++ (beginMarker ++ (written ++ (endMarker ++ after)))) = .ok payload) ∧
    (∀ payload : List Char, EscapesSome payload (escapeBrackets payload) ∧
      ¬ endMarker <:+: escapeBrackets payload) ∧
    ∀ page : List Char, ((∃ results, embedded page = .ok results) ↔ Encloses page) ∧
      (¬ Encloses page →
        (¬ beginMarker <:+: page → embedded page = .error (.missingMarker beginMarker)) ∧
        (beginMarker <:+: page → embedded page = .error (.missingMarker endMarker))) := by
  refine ⟨fun before payload written after noBegin noEscape escapes noEnd => ?_,
    fun payload => ⟨escapesSome_escapeBrackets payload, not_endMarker_infix_escapeBrackets payload⟩,
    fun page => ⟨⟨fun found => ?_, embedded_of_encloses⟩, fun notEnclosed => ?_⟩⟩
  · rw [embedded_of_markers noBegin noEnd, escapes.restore_eq, noEscape.restore_eq_self]
  · obtain ⟨results, ok⟩ := found
    by_contra notEnclosed
    by_cases begins : beginMarker <:+: page
    · rw [embedded_of_not_encloses begins notEnclosed] at ok
      cases ok
    · rw [embedded_of_no_begin begins] at ok
      cases ok
  · exact ⟨embedded_of_no_begin, fun begins => embedded_of_not_encloses begins notEnclosed⟩

/-- Half of a begin marker in front, brackets with and without escapes next to parts of escapes, and
a page in which the markers have changed places. -/
theorem embedded_cases_partial :
    let page := "<!-- Pickles Be".toList ++ (beginMarker ++ ("<a&gt;&l&lt;t;&gt>lt;".toList ++
      (endMarker ++ "Pickles End -->".toList)))
    let turned := endMarker ++ "<a/>".toList ++ beginMarker
    (embedded page = .ok "<a>&l<t;&gt>lt;".toList ∧ Encloses page) ∧
      ¬ Encloses turned ∧ embedded turned = .error (.missingMarker endMarker) := by
  intro page turned
  obtain ⟨given, _, ofPage⟩ := embedded_cases
  have noEscape : HoldsNoEscape "<a>&l<t;&gt>lt;".toList := by decide +kernel
  have escapes : EscapesSome "<a>&l<t;&gt>lt;".toList "<a&gt;&l&lt;t;&gt>lt;".toList := by
    exact .same _ (.same _ (.greater (.same _ (.same _ (.less (.same _ (.same _ (.same _ (.same _
      (.same _ (.same _ (.same _ (.same _ (.same _ .nil))))))))))))))
  have found : embedded page = .ok _ :=
    given "<!-- Pickles Be".toList _ _ "Pickles End -->".toList (by decide +kernel) noEscape escapes
      (by decide +kernel)
  have missing : ¬ Encloses turned := by
    rw [← (ofPage turned).1]
    rintro ⟨results, ok⟩
    cases ok
  have begins : beginMarker <:+: turned := (List.suffix_append _ _).isInfix
  exact ⟨⟨found, (ofPage page).1.mp ⟨_, found⟩⟩, missing, ((ofPage turned).2 missing).2 begins⟩

end LivingDoc.SpecRun
