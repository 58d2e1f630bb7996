import LivingDoc.Proofs.SpecRun.Page

/-!
Restored brackets inside the pieces of an XML text.

An escaped bracket is cut in two only by what goes on with it, so a text may be restored in pieces
that begin otherwise. From this it follows how blanks, names, references and attributes look in a
restored text: the same, up to brackets. In particular the values of attributes do not change,
whether a bracket in them is escaped or not.
-/

namespace LivingDoc.SpecRun

open Xml (Blanks IsKey Writes Attributes Resolves isBlank isKeyCharacter)

/-! ## Pieces of a text -/

/-- Whether a character may go on with an escaped bracket after its ampersand. -/
def continuesEscape (c : Char) : Bool :=
  c = 'l' || c = 'g' || c = 't' || c = ';'

theorem exists_of_append {word front back more : List Char}
    (inside : ∀ c ∈ word, continuesEscape c = true)
    (ends : ∀ c ∈ back.head?, continuesEscape c = false) (h : front ++ back = word ++ more) :
    ∃ more', front = word ++ more' := by
  induction word generalizing front with
  | nil => exact ⟨front, rfl⟩
  | cons c word ih =>
      cases front with
      | nil =>
          have other := ends c (by rw [← List.nil_append back, h]; rfl)
          rw [inside c List.mem_cons_self] at other
          cases other
      | cons d front =>
          obtain ⟨rfl, same⟩ := List.cons.inj h
          obtain ⟨more', rfl⟩ := ih (fun e member => inside e (List.mem_cons_of_mem _ member)) same
          exact ⟨more', rfl⟩

/-- A text may be restored in two pieces, if the second one does not go on with an escape. -/
theorem restore_append {front back : List Char}
    (ends : ∀ c ∈ back.head?, continuesEscape c = false) :
    restore (front ++ back) = restore front ++ restore back := by
  fun_induction restore front with
  | case1 => rfl
  | case2 rest ih => exact congrArg ('<' :: ·) ih
  | case3 rest ih => exact congrArg ('>' :: ·) ih
  | case4 c rest noLess noGreater ih =>
      rw [List.cons_append, restore, ih]
      · rfl
      · intro more isEscape found
        obtain ⟨rest', same⟩ :=
          @exists_of_append ['l', 't', ';'] _ _ _ (by simp [continuesEscape]) ends found
        exact noLess rest' isEscape same
      · intro more isEscape found
        obtain ⟨rest', same⟩ :=
          @exists_of_append ['g', 't', ';'] _ _ _ (by simp [continuesEscape]) ends found
        exact noGreater rest' isEscape same

theorem restore_cons {c : Char} (noEscape : c ≠ '&') (text : List Char) :
    restore (c :: text) = c :: restore text :=
  restores_singleton noEscape text

/-- The usual case of two pieces: the second one begins with a character outside of escapes. -/
theorem restore_append_cons {c : Char} (noEscape : c ≠ '&') (ends : continuesEscape c = false)
    (front back : List Char) :
    restore (front ++ c :: back) = restore front ++ c :: restore back := by
  rw [restore_append (by simpa using ends), restore_cons noEscape]

/-! ## The characters of a restored text -/

theorem restore_eq_nil_iff {text : List Char} : restore text = [] ↔ text = [] := by
  unfold restore
  split <;> simp

theorem getLast?_cons_cases {c d : Char} {text : List Char} (h : (d :: text).getLast? = some c) :
    text = [] ∧ d = c ∨ text.getLast? = some c := by
  cases text with
  | nil => exact .inl ⟨rfl, Option.some.inj h⟩
  | cons e text => exact .inr (List.getLast?_cons_cons.symm.trans h)

theorem getLast?_cons_of_some {c : Char} {text : List Char} (h : text.getLast? = some c)
    (d : Char) : (d :: text).getLast? = some c := by
  rw [List.getLast?_cons, h]
  rfl

section Characters

variable {p : Char → Prop} {text : List Char}

/-- What holds of all characters of a text holds of those of the restored text, if it holds of
brackets. -/
theorem forall_mem_restore (less : p '<') (greater : p '>') (h : ∀ c ∈ text, p c) :
    ∀ c ∈ restore text, p c := by
  fun_induction restore text with
  | case1 => exact h
  | case2 rest ih =>
      exact List.forall_mem_cons.mpr ⟨less, ih fun c member => h c (by simp [member])⟩
  | case3 rest ih =>
      exact List.forall_mem_cons.mpr ⟨greater, ih fun c member => h c (by simp [member])⟩
  | case4 c rest _ _ ih =>
      rw [List.forall_mem_cons] at h ⊢
      exact ⟨h.1, ih h.2⟩

/-- The same for the first character. -/
theorem forall_head?_restore (less : p '<') (greater : p '>') (h : ∀ c ∈ text.head?, p c) :
    ∀ c ∈ (restore text).head?, p c := by
  fun_cases restore text with
  | case1 => exact h
  | case2 => simpa using less
  | case3 => simpa using greater
  | case4 => exact h

/-- The same for the last character. -/
theorem forall_getLast?_restore (less : p '<') (greater : p '>') (h : ∀ c ∈ text.getLast?, p c) :
    ∀ c ∈ (restore text).getLast?, p c := by
  fun_induction restore text with
  | case1 => exact h
  | case2 rest ih =>
      intro c last
      rcases getLast?_cons_cases last with ⟨_, rfl⟩ | later
      · exact less
      · exact ih (fun d last => h d (by simp [getLast?_cons_of_some last])) c later
  | case3 rest ih =>
      intro c last
      rcases getLast?_cons_cases last with ⟨_, rfl⟩ | later
      · exact greater
      · exact ih (fun d last => h d (by simp [getLast?_cons_of_some last])) c later
  | case4 first rest _ _ ih =>
      intro c last
      rcases getLast?_cons_cases last with ⟨empty, rfl⟩ | later
      · rw [restore_eq_nil_iff.mp empty] at h
        exact h _ rfl
      · exact ih (fun d last => h d (getLast?_cons_of_some last first)) c later

end Characters

/-- A text without brackets and ampersands is the restored form of no other text. -/
theorem restore_eq_iff {text word : List Char} (plain : '&' ∉ word ∧ '<' ∉ word ∧ '>' ∉ word) :
    restore text = word ↔ text = word := by
  refine ⟨fun h => ?_, fun h => h ▸ (restores_of_plain plain.1).restore_eq⟩
  fun_induction restore text generalizing word with
  | case1 => exact h
  | case2 rest ih => exact (plain.2.1 (h ▸ List.mem_cons_self)).elim
  | case3 rest ih => exact (plain.2.2 (h ▸ List.mem_cons_self)).elim
  | case4 c rest _ _ ih =>
      subst h
      simp only [List.mem_cons, not_or] at plain
      exact congrArg (c :: ·) (ih ⟨plain.1.2, plain.2.1.2, plain.2.2.2⟩ rfl)

/-! ## Blanks and names -/

theorem continuesEscape_of_isBlank {c : Char} (blank : isBlank c = true) :
    continuesEscape c = false := by
  simp only [isBlank, Bool.or_eq_true, decide_eq_true_eq, or_assoc] at blank
  rcases blank with rfl | rfl | rfl | rfl <;> rfl

theorem dropWhile_isBlank_restore (text : List Char) :
    (restore text).dropWhile isBlank = restore (text.dropWhile isBlank) := by
  obtain ⟨gap, blanks, split⟩ := Xml.exists_blanks text
  have head : ∀ c ∈ (text.dropWhile isBlank).head?, isBlank c = false := by
    intro c first
    obtain ⟨rest, found⟩ := List.head?_eq_some_iff.mp first
    exact Xml.isBlank_of_dropWhile found
  have headRestored : ∀ c ∈ (restore (text.dropWhile isBlank)).head?, isBlank c = false :=
    forall_head?_restore rfl rfl head
  conv => lhs; rw [split, restores_blanks blanks]
  rw [blanks.dropWhile_append]
  cases found : restore (text.dropWhile isBlank) with
  | nil => rfl
  | cons c rest => exact Xml.dropWhile_isBlank_cons (headRestored c (congrArg List.head? found))

theorem dropTrailing_restore (text : List Char) :
    Text.dropTrailing isBlank (restore text) = restore (Text.dropTrailing isBlank text) := by
  change List.rdropWhile isBlank (restore text) = restore (List.rdropWhile isBlank text)
  induction text using List.reverseRecOn with
  | nil => rfl
  | append_singleton text last ih =>
      by_cases blank : isBlank last = true
      · rw [restore_append_cons (Xml.ne_of_isBlank blank (by decide))
          (continuesEscape_of_isBlank blank), List.rdropWhile_concat_pos isBlank text last blank]
        exact (List.rdropWhile_concat_pos isBlank _ last blank).trans ih
      · rw [List.rdropWhile_concat_neg isBlank text last blank, List.rdropWhile_eq_self_iff]
        intro some_
        have isLast : ∀ c ∈ (text ++ [last]).getLast?, ¬ isBlank c = true := by
          rw [List.getLast?_concat]
          simpa using blank
        have isLastRestored : ∀ c ∈ (restore (text ++ [last])).getLast?, ¬ isBlank c = true :=
          forall_getLast?_restore (by decide) (by decide) isLast
        exact isLastRestored _ (List.getLast?_eq_some_getLast some_)

theorem closingName_restore (content : List Char) :
    Xml.closingName (restore content) = restore (Xml.closingName content) := by
  unfold Xml.closingName
  rw [dropTrailing_restore]
  cases Text.dropTrailing isBlank content with
  | nil => rfl
  | cons c name =>
      cases found : restore (c :: name) with
      | nil => cases restore_eq_nil_iff.mp found
      | cons => rfl

/-- A name ends where it did. -/
theorem span_restore (text : List Char) :
    (restore text).takeWhile (!isBlank ·) = restore (text.takeWhile (!isBlank ·)) ∧
      (restore text).dropWhile (!isBlank ·) = restore (text.dropWhile (!isBlank ·)) := by
  have inName : ∀ c ∈ restore (text.takeWhile (!isBlank ·)), (!isBlank c) = true := by
    exact forall_mem_restore rfl rfl fun c member => by simpa using List.mem_takeWhile_imp member
  have head : ∀ c ∈ (text.dropWhile (!isBlank ·)).head?, isBlank c = true := by
    intro c first
    have stops := List.head?_dropWhile_not (!isBlank ·) text
    rw [Option.mem_def.mp first] at stops
    simpa using stops
  have whole : restore text =
      restore (text.takeWhile (!isBlank ·)) ++ restore (text.dropWhile (!isBlank ·)) := by
    rw [← restore_append fun c first => continuesEscape_of_isBlank (head c first),
      List.takeWhile_append_dropWhile]
  have stops : ∀ c ∈ (restore (text.dropWhile (!isBlank ·))).head?, (!isBlank c) = false := by
    cases found : text.dropWhile (!isBlank ·) with
    | nil => exact fun c first => by cases first
    | cons blank rest =>
        have blank' : isBlank blank = true := head blank (by rw [found]; rfl)
        rw [restore_cons (Xml.ne_of_isBlank blank' (by decide))]
        intro c first
        cases first
        rw [blank']
        rfl
  rw [whole]
  exact Text.run_append inName stops

/-! ## References and attributes -/

/-- References with different names cannot be confused. -/
theorem name_eq_of_append {name other text rest : List Char}
    (inName : ∀ d ∈ name, Xml.endsName d = false) (inOther : ∀ d ∈ other, Xml.endsName d = false)
    (h : name ++ ';' :: text = other ++ ';' :: rest) : name = other := by
  rw [← (Xml.cut_name inName text).1, h, (Xml.cut_name inOther rest).1]

/-- **Restoring brackets does not change what a text stands for**: an escaped bracket stands for the
bracket, and a bracket for itself. -/
theorem resolves_restore {text content : List Char} (resolves : Resolves text content) :
    Resolves (restore text) content := by
  induction resolves with
  | nil => exact .nil
  | plain noReference _ ih =>
      rw [restore_cons noReference]
      exact .plain noReference ih
  | @reference name c text content inName stands _ ih =>
      obtain ⟨inLess, isLess⟩ := @Xml.standsFor_of_predefined ['l', 't'] '<' rfl
      obtain ⟨inGreater, isGreater⟩ := @Xml.standsFor_of_predefined ['g', 't'] '>' rfl
      by_cases less : name = ['l', 't']
      · subst less
        cases isLess.symm.trans stands
        exact .plain (by decide) ih
      · by_cases greater : name = ['g', 't']
        · subst greater
          cases isGreater.symm.trans stands
          exact .plain (by decide) ih
        · have noEscape : '&' ∉ name := fun member => absurd (inName _ member) (by decide)
          have whole : restore ('&' :: (name ++ ';' :: text)) =
              '&' :: (name ++ ';' :: restore text) := by
            rw [restore, restores_of_plain noEscape, restore_cons (by decide)]
            · intro rest _ found
              exact less (name_eq_of_append inName inLess found)
            · intro rest _ found
              exact greater (name_eq_of_append inName inGreater found)
          rw [whole]
          exact .reference inName stands ih

theorem isKey_restore {key : List Char} (isKey : IsKey key) : IsKey (restore key) := by
  fun_cases restore key with
  | case1 => exact isKey
  | case2 rest =>
      exact ⟨rfl, forall_mem_restore rfl rfl fun c member => isKey.2 c (by simp [member])⟩
  | case3 rest =>
      exact ⟨rfl, forall_mem_restore rfl rfl fun c member => isKey.2 c (by simp [member])⟩
  | case4 first more => exact ⟨isKey.1, forall_mem_restore rfl rfl isKey.2⟩

theorem writes_restore {text key written rest : List Char} (writes : Writes text key written rest) :
    Writes (restore text) (restore key) (restore written) (restore rest) := by
  cases writes with
  | @intro gap _ before after _ _ quote blanks isKey blanksBefore blanksAfter isQuote inside =>
      have ends : ∀ more, ∀ c ∈ (before ++ '=' :: more).head?, continuesEscape c = false := by
        intro more c head
        cases before with
        | nil =>
            obtain rfl : '=' = c := Option.some.inj head
            rfl
        | cons blank before =>
            obtain rfl : blank = c := Option.some.inj head
            exact continuesEscape_of_isBlank (blanksBefore _ List.mem_cons_self)
      have isPlain : quote ≠ '&' ∧ continuesEscape quote = false ∧ '<' ≠ quote ∧ '>' ≠ quote := by
        rcases isQuote with rfl | rfl <;> decide
      have differ : ∀ c ∈ restore written, c ≠ quote :=
        forall_mem_restore isPlain.2.2.1 isPlain.2.2.2 fun c member same => inside (same ▸ member)
      rw [restores_blanks blanks, restore_append (ends _), restores_blanks blanksBefore,
        restore_cons (by decide), restores_blanks blanksAfter, restore_cons isPlain.1,
        restore_append_cons isPlain.1 isPlain.2.1]
      exact .intro blanks (isKey_restore isKey) blanksBefore blanksAfter isQuote
        fun member => differ quote member rfl

/-- The attributes of a restored text, from those of the text itself. -/
theorem attributes_restore {text : List Char} {attributes : List (List Char × List Char)}
    (grammar : Attributes text attributes) :
    Attributes (restore text) (attributes.map fun pair => (restore pair.1, pair.2)) := by
  induction grammar with
  | @nil gap blanks =>
      rw [(restores_blanks blanks).restore_eq]
      exact .nil blanks
  | cons writes resolves _ ih => exact .cons (writes_restore writes) (resolves_restore resolves) ih

end LivingDoc.SpecRun
