import LivingDoc.Text.Blank
import LivingDoc.Xml.Tag

/-!
The tokens of an XML text.

A reader cuts a text into tags, text and other markup, and matches each closing tag with the
element that is open. It looks at nothing inside a token: attributes and references are left to
those who need them. Blanks around text are no part of it.
-/

namespace LivingDoc.Xml

open LivingDoc.Text (dropTrailing length_dropWhile_le)

/-- A piece of an XML text. -/
inductive Token where
  | start (tag : Tag)
  | empty (tag : Tag)
  | close (name : List Char)
  | text (content : List Char)
  | cdata (content : List Char)
  | comment (content : List Char)
  | doctype (content : List Char)
  /-- A processing instruction or the declaration at the front. -/
  | instruction (content : List Char)
  deriving DecidableEq, Repr

/-- Why markup cannot be read. -/
inductive MarkupCause where
  | unknown
  | unclosedInstruction
  | unclosedComment
  | unclosedDoctype
  | unclosedCdata
  | unclosedTag
  | namelessDoctype
  /-- A closing tag where no element is open. -/
  | nothingOpen (found : List Char)
  /-- A closing tag of another element than the one that is open. -/
  | otherOpen (expected found : List Char)
  deriving DecidableEq, Repr

/-- A fault in markup and its position. -/
structure MarkupFault where
  position : Nat
  cause : MarkupCause
  deriving DecidableEq, Repr

/-- A closing tag as it is shown in messages. -/
def showClosing (name : List Char) : String :=
  "`</" ++ String.ofList name ++ ">`"

/-- The words that state why markup cannot be read. -/
def MarkupCause.message : MarkupCause → String
  | unknown => "syntax error: unknown or missed symbol in markup"
  | unclosedInstruction =>
    "syntax error: processing instruction or xml declaration not closed: "
      ++ "`?>` not found before end of input"
  | unclosedComment => "syntax error: comment not closed: `-->` not found before end of input"
  | unclosedDoctype => "syntax error: DOCTYPE not closed: `>` not found before end of input"
  | unclosedCdata => "syntax error: CDATA not closed: `]]>` not found before end of input"
  | unclosedTag => "syntax error: tag not closed: `>` not found before end of input"
  | namelessDoctype =>
    "ill-formed document: `<!DOCTYPE>` declaration does not contain a name of a document type"
  | nothingOpen found =>
    "ill-formed document: close tag " ++ showClosing found ++ " does not match any open tag"
  | otherOpen expected found =>
    "ill-formed document: expected " ++ showClosing expected ++ ", but " ++ showClosing found
      ++ " was found"

/-- The words that state a fault. -/
def MarkupFault.message (fault : MarkupFault) : String :=
  "invalid xml at byte " ++ toString fault.position ++ ": " ++ fault.cause.message

/-! ## The ends of markup -/

/-- What stands before and after the angle bracket that ends a tag. Inside quotes, and `quote` is
the open one, an angle bracket ends nothing. -/
def cutTag? (quote : Option Char) : List Char → Option (List Char × List Char)
  | [] => none
  | c :: rest =>
    if quote = none && c = '>' then some ([], rest)
    else
      let within :=
        match quote with
        | none => if c = '"' || c = '\'' then some c else none
        | some current => if c = current then none else some current
      (cutTag? within rest).map fun parts => (c :: parts.1, parts.2)

/-- What stands before and after the angle bracket that ends a document type, inside a number of
nested pairs of brackets. Quotes do not matter. -/
def cutDoctype? (nested : Nat) : List Char → Option (List Char × List Char)
  | [] => none
  | c :: rest =>
    if nested = 0 && c = '>' then some ([], rest)
    else
      let within := if c = '<' then nested + 1 else if c = '>' then nested - 1 else nested
      (cutDoctype? within rest).map fun parts => (c :: parts.1, parts.2)

theorem cutTag?_length {quote : Option Char} {text before after : List Char}
    (h : cutTag? quote text = some (before, after)) : after.length < text.length := by
  induction text generalizing quote before with
  | nil => simp [cutTag?] at h
  | cons c rest ih =>
    unfold cutTag? at h
    dsimp only at h
    split at h
    · simp_all
    · simp only [Option.map_eq_some_iff, Prod.mk.injEq, Prod.exists] at h
      obtain ⟨_, _, found, _, rfl⟩ := h
      have := ih found
      simp only [List.length_cons]
      omega

theorem cutDoctype?_length {nested : Nat} {text before after : List Char}
    (h : cutDoctype? nested text = some (before, after)) : after.length < text.length := by
  induction text generalizing nested before with
  | nil => simp [cutDoctype?] at h
  | cons c rest ih =>
    unfold cutDoctype? at h
    dsimp only at h
    split at h
    · simp_all
    · simp only [Option.map_eq_some_iff, Prod.mk.injEq, Prod.exists] at h
      obtain ⟨_, _, found, _, rfl⟩ := h
      have := ih found
      simp only [List.length_cons]
      omega

/-! ## One piece of markup

Each reader is given the text after the angle bracket and the position of the bracket. -/

/-- What a reader of one piece returns: the piece, the names of the elements that are then open,
innermost first, and what is left of the text. -/
abbrev Piece := Token × List (List Char) × List Char

/-- Reads a comment, whose body is at least empty. -/
def takeComment (position : Nat) (names : List (List Char)) (text : List Char) :
    Except MarkupFault Piece :=
  if ['!', '-', '-'].isPrefixOf text then
    match Text.cut? ['-', '-', '>'] (text.drop 3) with
    | some (body, rest) => .ok (.comment body, names, rest)
    | none => .error ⟨position, .unclosedComment⟩
  else .error ⟨position, .unclosedComment⟩

/-- The word that begins character data. -/
def cdataMark : List Char := ['!', '[', 'C', 'D', 'A', 'T', 'A', '[']

/-- Reads character data. -/
def takeCdata (position : Nat) (names : List (List Char)) (text : List Char) :
    Except MarkupFault Piece :=
  if cdataMark.isPrefixOf text then
    match Text.cut? [']', ']', '>'] (text.drop cdataMark.length) with
    | some (body, rest) => .ok (.cdata body, names, rest)
    | none => .error ⟨position, .unclosedCdata⟩
  else .error ⟨position, .unclosedCdata⟩

/-- The word that begins a document type, in any case. -/
def doctypeMark : List Char := ['!', 'd', 'o', 'c', 't', 'y', 'p', 'e']

/-- Reads a document type in a text of a total size. A missing name is reported where it should
end. -/
def takeDoctype (total position : Nat) (names : List (List Char)) (text : List Char) :
    Except MarkupFault Piece :=
  match cutDoctype? 0 text with
  | none => .error ⟨position, .unclosedDoctype⟩
  | some (body, rest) =>
    if doctypeMark.isPrefixOf (body.map Char.toLower) then
      match (body.drop doctypeMark.length).dropWhile isBlank with
      | [] => .error ⟨total - size rest - 1, .namelessDoctype⟩
      | content => .ok (.doctype content, names, rest)
    else .error ⟨position, .unclosedDoctype⟩

/-- Reads a processing instruction. The text begins with its first question mark, which does not
end it at the same time. -/
def takeInstruction (position : Nat) (names : List (List Char)) (text : List Char) :
    Except MarkupFault Piece :=
  match Text.cut? ['?', '>'] text with
  | some (_ :: body, rest) => .ok (.instruction body, names, rest)
  | _ => .error ⟨position, .unclosedInstruction⟩

/-- The name in a closing tag: blanks after it are no part of it, unless there is nothing else. -/
def closingName (content : List Char) : List Char :=
  match dropTrailing isBlank content with
  | [] => content
  | name => name

/-- Reads a closing tag after its slash. It must close the innermost open element. -/
def takeClosing (position : Nat) (names : List (List Char)) (text : List Char) :
    Except MarkupFault Piece :=
  match cutTag? none text with
  | none => .error ⟨position, .unclosedTag⟩
  | some (content, rest) =>
    let name := closingName content
    match names with
    | [] => .error ⟨position, .nothingOpen name⟩
    | expected :: names =>
      if name = expected then .ok (.close name, names, rest)
      else .error ⟨position, .otherOpen expected name⟩

/-- Reads a tag that opens an element. A slash at its end closes the element at once. -/
def takeOpening (position : Nat) (names : List (List Char)) (text : List Char) :
    Except MarkupFault Piece :=
  match cutTag? none text with
  | none => .error ⟨position, .unclosedTag⟩
  | some (content, rest) =>
    if content.getLast? = some '/' then .ok (.empty ⟨content.dropLast⟩, names, rest)
    else .ok (.start ⟨content⟩, (Tag.mk content).name :: names, rest)

/-- Reads markup by the characters after its angle bracket. -/
def takeMarkup (total position : Nat) (names : List (List Char)) (text : List Char) :
    Except MarkupFault Piece :=
  match text with
  | '!' :: '[' :: _ => takeCdata position names text
  | '!' :: '-' :: _ => takeComment position names text
  | '!' :: 'D' :: _ => takeDoctype total position names text
  | '!' :: 'd' :: _ => takeDoctype total position names text
  | '!' :: _ => .error ⟨position, .unknown⟩
  | '/' :: rest => takeClosing position names rest
  | '?' :: _ => takeInstruction position names text
  | _ => takeOpening position names text

/-! ## The whole text -/

/-- Reads the next piece of a text of a total size, if blanks are not all that is left. -/
def take (total : Nat) (names : List (List Char)) (text : List Char) :
    Except MarkupFault (Option Piece) :=
  match text.dropWhile isBlank with
  | [] => .ok none
  | '<' :: markup => (takeMarkup total (total - size ('<' :: markup)) names markup).map some
  | content =>
    .ok (some (.text (dropTrailing isBlank (content.takeWhile (· != '<'))), names,
      content.dropWhile (· != '<')))

theorem takeComment_length {position : Nat} {names : List (List Char)} {text : List Char}
    {piece : Piece} (h : takeComment position names text = .ok piece) :
    piece.2.2.length ≤ text.length := by
  unfold takeComment at h
  split at h
  · split at h
    · next found =>
      have := Text.cut?_length found
      simp only [Except.ok.injEq] at h
      simp only [← h, List.length_drop] at this ⊢
      omega
    · cases h
  · cases h

theorem takeCdata_length {position : Nat} {names : List (List Char)} {text : List Char}
    {piece : Piece} (h : takeCdata position names text = .ok piece) :
    piece.2.2.length ≤ text.length := by
  unfold takeCdata at h
  split at h
  · split at h
    · next found =>
      have := Text.cut?_length found
      simp only [Except.ok.injEq] at h
      simp only [← h, List.length_drop] at this ⊢
      omega
    · cases h
  · cases h

theorem takeDoctype_length {total position : Nat} {names : List (List Char)} {text : List Char}
    {piece : Piece} (h : takeDoctype total position names text = .ok piece) :
    piece.2.2.length ≤ text.length := by
  unfold takeDoctype at h
  split at h
  · cases h
  · next found =>
    have := cutDoctype?_length found
    split at h
    · split at h
      · cases h
      · simp only [Except.ok.injEq] at h
        simp only [← h]
        omega
    · cases h

theorem takeInstruction_length {position : Nat} {names : List (List Char)} {text : List Char}
    {piece : Piece} (h : takeInstruction position names text = .ok piece) :
    piece.2.2.length ≤ text.length := by
  unfold takeInstruction at h
  split at h
  · next found =>
    have := Text.cut?_length found
    simp only [Except.ok.injEq] at h
    simpa only [← h] using this
  · cases h

theorem takeClosing_length {position : Nat} {names : List (List Char)} {text : List Char}
    {piece : Piece} (h : takeClosing position names text = .ok piece) :
    piece.2.2.length ≤ text.length := by
  unfold takeClosing at h
  split at h
  · cases h
  · next found =>
    have := cutTag?_length found
    dsimp only at h
    split at h
    · cases h
    · split at h
      · simp only [Except.ok.injEq] at h
        simp only [← h]
        omega
      · cases h

theorem takeOpening_length {position : Nat} {names : List (List Char)} {text : List Char}
    {piece : Piece} (h : takeOpening position names text = .ok piece) :
    piece.2.2.length ≤ text.length := by
  unfold takeOpening at h
  split at h
  · cases h
  · next found =>
    have := cutTag?_length found
    split at h <;> simp only [Except.ok.injEq] at h <;> simp only [← h] <;> omega

theorem takeMarkup_length {total position : Nat} {names : List (List Char)} {text : List Char}
    {piece : Piece} (h : takeMarkup total position names text = .ok piece) :
    piece.2.2.length ≤ text.length := by
  unfold takeMarkup at h
  split at h
  · exact takeCdata_length h
  · exact takeComment_length h
  · exact takeDoctype_length h
  · exact takeDoctype_length h
  · cases h
  · have := takeClosing_length h
    simp only [List.length_cons]
    omega
  · exact takeInstruction_length h
  · exact takeOpening_length h

/-- Reading a piece takes at least one character. -/
theorem take_length {total : Nat} {names : List (List Char)} {text : List Char} {piece : Piece}
    (h : take total names text = .ok (some piece)) : piece.2.2.length < text.length := by
  unfold take at h
  have shorter := length_dropWhile_le isBlank text
  split at h
  · cases h
  · next markup found =>
    cases taken : takeMarkup total (total - size ('<' :: markup)) names markup with
    | error fault => simp [taken, Except.map] at h
    | ok other =>
      simp only [taken, Except.map, Except.ok.injEq, Option.some.injEq] at h
      have := takeMarkup_length taken
      rw [found, List.length_cons] at shorter
      rw [← h]
      omega
  · next empty noTag =>
    simp only [Except.ok.injEq, Option.some.injEq] at h
    rw [← h]
    match found : text.dropWhile isBlank with
    | [] => exact absurd found empty
    | c :: rest =>
      have other : (c != '<') = true := by
        rw [bne_iff_ne]
        rintro rfl
        exact noTag rest found
      have := length_dropWhile_le (· != '<') rest
      rw [found, List.length_cons] at shorter
      simp only [List.dropWhile_cons, other, if_true]
      omega

/-- Reads the tokens of the rest of a text of a total size, where elements with the given names
are open, up to the first markup that cannot be read. -/
def readFrom (total : Nat) (names : List (List Char)) (text : List Char) :
    Progress MarkupFault Token :=
  match _h : take total names text with
  | .error fault => .failed fault
  | .ok none => .done
  | .ok (some (token, names, rest)) => .cons token (readFrom total names rest)
termination_by text.length
decreasing_by exact take_length _h

/-- A text without the byte order mark that may stand in front of it. -/
def withoutMark : List Char → List Char
  | '\uFEFF' :: text => text
  | text => text

/-- Reads the tokens of a whole text. -/
def read (text : List Char) : Progress MarkupFault Token :=
  readFrom (size (withoutMark text)) [] (withoutMark text)

end LivingDoc.Xml
