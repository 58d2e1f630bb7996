import LivingDoc.Proofs.Gherkin.RoundTrip
import LivingDoc.Proofs.Json.Forms

/-!
A behaviour description is read as itself in whatever form it is written.

The forms of a node follow from the list of its fields: which of them must be given, which may be
null, and which may be left out because they hold their default. Nodes that are examined in full
before their kind is known accept their forms only where these are sound, so that is asked of the
whole text.
-/

namespace LivingDoc.Gherkin

open Json (Field Form SoundAt Given inherited_soundAt)
open Json.Decoder (Accepts)

/-! ## Forms -/

/-- The forms of a tag. -/
def tagForm : Form String :=
  .record fun name => [.required "name" .text name]

/-- The forms of a cell of a table. -/
def cellForm : Form String :=
  .record fun text => [.required "value" .text text]

/-- The forms of a row of a table. -/
def Row.form : Form Row :=
  .record fun row => [.required "cells" cellForm.list row.cells]

/-- The fields of a text given to a step. -/
def DocString.fields (text : DocString) : List Field :=
  [.optional "contentType" .text text.contentType, .required "content" .text text.content]

/-- The fields of a table given to a step. -/
def DataTable.fields (table : DataTable) : List Field :=
  [.required "rows" Row.form.list table.rows]

/-- The fields of an argument besides its kind. -/
def Argument.fields : Argument → List Field
  | docString text => text.fields
  | dataTable table => table.fields

/-- The forms of an argument. -/
def Argument.form : Form Argument :=
  .tagged kind fields

/-- The forms of a step. -/
def Step.form : Form Step :=
  .record fun step => [.required "keyword" .text step.keyword, .required "text" .text step.text,
    .optional "argument" Argument.form step.argument]

/-- The fields of a background. -/
def Background.fields (background : Background) : List Field :=
  [.required "keyword" .text background.keyword, .orElse "name" .text "" background.name,
    .optional "description" .text background.description,
    .items "steps" Step.form background.steps]

/-- The fields of a scenario. -/
def Scenario.fields (scenario : Scenario) : List Field :=
  [.required "keyword" .text scenario.keyword, .required "name" .text scenario.name,
    .optional "description" .text scenario.description, .items "tags" tagForm scenario.tags,
    .items "steps" Step.form scenario.steps]

/-- The forms of a block of examples. -/
def Examples.form : Form Examples :=
  .record fun examples => [.required "keyword" .text examples.keyword,
    .orElse "name" .text "" examples.name, .optional "description" .text examples.description,
    .items "tags" tagForm examples.tags, .optional "tableHeader" Row.form examples.header,
    .items "tableBody" Row.form examples.body]

/-- The fields of an outline. -/
def Outline.fields (outline : Outline) : List Field :=
  [.required "keyword" .text outline.keyword, .required "name" .text outline.name,
    .optional "description" .text outline.description, .items "tags" tagForm outline.tags,
    .items "steps" Step.form outline.steps, .items "examples" Examples.form outline.examples]

/-- The fields of a child of a feature besides its kind. -/
def Definition.fields : Definition → List Field
  | background child => child.fields
  | scenario child => child.fields
  | outline child => child.fields

/-- The forms of a child of a feature. -/
def Definition.form : Form Definition :=
  .tagged kind fields

/-- The forms of a feature. -/
def Feature.form : Form Feature :=
  .record fun feature => [.optional "language" .text feature.language,
    .required "keyword" .text feature.keyword, .required "name" .text feature.name,
    .optional "description" .text feature.description, .items "tags" tagForm feature.tags,
    .items "children" Definition.form feature.children]

/-- The forms of a whole file. -/
def Document.form : Form Document :=
  .record fun document => [.optional "feature" Feature.form document.feature]

/-! ## The usual form -/

theorem form_encodeOptional {α : Type} {form : Form α} {encode : α → Json}
    (isForm : ∀ x, form x (encode x)) (x : Option α) :
    form.optional x (encodeOptional encode x) := by
  cases x with
  | none => rfl
  | some x => exact isForm x

theorem form_optionalText (text : Option String) :
    Form.text.optional text (encodeOptional Json.text text) :=
  by cases text <;> rfl

theorem form_encodeTag (name : String) : tagForm name (encodeTag name) :=
  Form.record_of_given (.member rfl .nil)

theorem form_encodeCell (text : String) : cellForm text (encodeCell text) :=
  Form.record_of_given (.member rfl .nil)

theorem Row.form_encode (row : Row) : form row row.encode :=
  Form.record_of_given (.member (Form.list_map form_encodeCell row.cells) .nil)

theorem Argument.given_members (argument : Argument) :
    Given argument.fields argument.members := by
  cases argument with
  | docString text => exact .member (form_optionalText text.contentType) (.member rfl .nil)
  | dataTable table => exact .member (Form.list_map Row.form_encode table.rows) .nil

theorem Argument.form_encode (argument : Argument) : form argument argument.encode := by
  rw [encode_eq]
  exact Form.record_of_given (.member rfl argument.given_members)

theorem Step.form_encode (step : Step) : form step step.encode :=
  Form.record_of_given (.member rfl (.member rfl
    (.member (form_encodeOptional Argument.form_encode step.argument) .nil)))

theorem form_encodeTags (names : List String) : tagForm.list names (encodeTags names) :=
  Form.list_map form_encodeTag names

theorem form_encodeSteps (steps : List Step) :
    Step.form.list steps (.list (steps.map Step.encode)) :=
  Form.list_map Step.form_encode steps

theorem Examples.form_encode (examples : Examples) : form examples examples.encode :=
  Form.record_of_given (.member rfl (.member rfl (.member (form_optionalText examples.description)
    (.member (form_encodeTags examples.tags)
      (.member (form_encodeOptional Row.form_encode examples.header)
        (.member (Form.list_map Row.form_encode examples.body) .nil))))))

theorem Background.given_members (background : Background) :
    Given background.fields background.members :=
  .member rfl (.member rfl (.member (form_optionalText background.description)
    (.member (form_encodeSteps background.steps) .nil)))

theorem Scenario.given_members (scenario : Scenario) : Given scenario.fields scenario.members :=
  .member rfl (.member rfl (.member (form_optionalText scenario.description)
    (.member (form_encodeTags scenario.tags) (.member (form_encodeSteps scenario.steps) .nil))))

theorem Outline.given_members (outline : Outline) : Given outline.fields outline.members :=
  .member rfl (.member rfl (.member (form_optionalText outline.description)
    (.member (form_encodeTags outline.tags) (.member (form_encodeSteps outline.steps)
      (.member (Form.list_map Examples.form_encode outline.examples) .nil)))))

theorem Definition.form_encode (child : Definition) : form child child.encode := by
  cases child with
  | background child => exact Form.record_of_given (.member rfl child.given_members)
  | scenario child => exact Form.record_of_given (.member rfl child.given_members)
  | outline child => exact Form.record_of_given (.member rfl child.given_members)

theorem Feature.form_encode (feature : Feature) : form feature feature.encode :=
  Form.record_of_given (.member (form_optionalText feature.language) (.member rfl (.member rfl
    (.member (form_optionalText feature.description) (.member (form_encodeTags feature.tags)
      (.member (Form.list_map Definition.form_encode feature.children) .nil))))))

theorem Document.form_encode (document : Document) : form document document.encode :=
  Form.record_of_given
    (.member (form_encodeOptional Feature.form_encode document.feature) .nil)

/-! ## Decoding -/

theorem accepts_tag : Accepts SoundAt decodeTag tagForm := by
  refine .record inherited_soundAt (by decide) (fun _ => rfl) fun tag given found => ?_
  obtain ⟨name, -⟩ := List.forall_mem_cons.mp found
  exact name.required .text

theorem accepts_cell : Accepts SoundAt decodeCell cellForm := by
  refine .record inherited_soundAt (by decide) (fun _ => rfl) fun cell given found => ?_
  obtain ⟨text, -⟩ := List.forall_mem_cons.mp found
  exact text.required .text

theorem Row.accepts : Accepts SoundAt decode form := by
  refine .record inherited_soundAt (by decide) (fun _ => rfl) fun row given found => ?_
  obtain ⟨cells, -⟩ := List.forall_mem_cons.mp found
  rw [cells.required (.list inherited_soundAt accepts_cell)]
  rfl

theorem DocString.accepts : Accepts SoundAt decode (.record fields) := by
  refine .record inherited_soundAt (by decide) (fun _ => rfl) fun text given found => ?_
  simp only [fields, List.forall_mem_cons] at found
  obtain ⟨contentType, content, -⟩ := found
  rw [contentType.optional .optionalText, content.required .text]
  rfl

theorem DataTable.accepts : Accepts SoundAt decode (.record fields) := by
  refine .record inherited_soundAt (by decide) (fun _ => rfl) fun table given found => ?_
  obtain ⟨rows, -⟩ := List.forall_mem_cons.mp found
  rw [rows.required (.list inherited_soundAt Row.accepts)]
  rfl

theorem Argument.accepts : Accepts SoundAt decode form := by
  refine .tagged (fun argument => ?_) fun argument => ?_
  · cases argument with
    | docString => exact (by decide : Json.tagKey ∉ ["contentType", "content"])
    | dataTable => exact (by decide : Json.tagKey ∉ ["rows"])
  · cases argument with
    | docString text =>
        exact ⟨_, rfl, fun place value isForm sound =>
          congrArg (Option.map docString) (DocString.accepts place text value isForm sound)⟩
    | dataTable table =>
        exact ⟨_, rfl, fun place value isForm sound =>
          congrArg (Option.map dataTable) (DataTable.accepts place table value isForm sound)⟩

theorem Step.accepts : Accepts SoundAt decode form := by
  refine .record inherited_soundAt (by decide) (fun _ => rfl) fun step given found => ?_
  simp only [List.forall_mem_cons] at found
  obtain ⟨keyword, text, argument, -⟩ := found
  rw [keyword.required .text, text.required .text,
    argument.optional (.optional Argument.accepts Form.not_record_null)]
  rfl

theorem accepts_tags : Accepts SoundAt (.list decodeTag) tagForm.list :=
  .list inherited_soundAt accepts_tag

theorem accepts_steps : Accepts SoundAt (.list Step.decode) Step.form.list :=
  .list inherited_soundAt Step.accepts

theorem Background.accepts : Accepts SoundAt decode (.record fields) := by
  refine .record inherited_soundAt (by decide) (fun _ => rfl) fun background given found => ?_
  simp only [fields, List.forall_mem_cons] at found
  obtain ⟨keyword, name, description, steps, -⟩ := found
  rw [keyword.required .text, name.orElse .text, description.optional .optionalText,
    steps.items accepts_steps]
  rfl

theorem Scenario.accepts : Accepts SoundAt decode (.record fields) := by
  refine .record inherited_soundAt (by decide) (fun _ => rfl) fun scenario given found => ?_
  simp only [fields, List.forall_mem_cons] at found
  obtain ⟨keyword, name, description, tags, steps, -⟩ := found
  rw [keyword.required .text, name.required .text, description.optional .optionalText,
    tags.items accepts_tags, steps.items accepts_steps]
  rfl

theorem Examples.accepts : Accepts SoundAt decode form := by
  refine .record inherited_soundAt (by decide) (fun _ => rfl) fun examples given found => ?_
  simp only [List.forall_mem_cons] at found
  obtain ⟨keyword, name, description, tags, header, body, -⟩ := found
  rw [keyword.required .text, name.orElse .text, description.optional .optionalText,
    tags.items accepts_tags, header.optional (.optional Row.accepts Form.not_record_null),
    body.items (.list inherited_soundAt Row.accepts)]
  rfl

theorem Outline.accepts : Accepts SoundAt decode (.record fields) := by
  refine .record inherited_soundAt (by decide) (fun _ => rfl) fun outline given found => ?_
  simp only [fields, List.forall_mem_cons] at found
  obtain ⟨keyword, name, description, tags, steps, examples, -⟩ := found
  rw [keyword.required .text, name.required .text, description.optional .optionalText,
    tags.items accepts_tags, steps.items accepts_steps,
    examples.items (.list inherited_soundAt Examples.accepts)]
  rfl

theorem Definition.accepts : Accepts SoundAt decode form := by
  refine .tagged (fun child => ?_) fun child => ?_
  · cases child with
    | background =>
        exact (by decide : Json.tagKey ∉ ["keyword", "name", "description", "steps"])
    | scenario =>
        exact (by decide : Json.tagKey ∉ ["keyword", "name", "description", "tags", "steps"])
    | outline =>
        exact (by decide :
          Json.tagKey ∉ ["keyword", "name", "description", "tags", "steps", "examples"])
  · cases child with
    | background child =>
        exact ⟨_, rfl, fun place value isForm sound =>
          congrArg (Option.map background) (Background.accepts place child value isForm sound)⟩
    | scenario child =>
        exact ⟨_, rfl, fun place value isForm sound =>
          congrArg (Option.map scenario) (Scenario.accepts place child value isForm sound)⟩
    | outline child =>
        exact ⟨_, rfl, fun place value isForm sound =>
          congrArg (Option.map outline) (Outline.accepts place child value isForm sound)⟩

theorem Feature.accepts : Accepts SoundAt decode form := by
  refine .record inherited_soundAt (by decide) (fun _ => rfl) fun feature given found => ?_
  simp only [List.forall_mem_cons] at found
  obtain ⟨language, keyword, name, description, tags, children, -⟩ := found
  rw [language.optional .optionalText, keyword.required .text, name.required .text,
    description.optional .optionalText, tags.items accepts_tags,
    children.items (.list inherited_soundAt Definition.accepts)]
  rfl

theorem Document.accepts : Accepts SoundAt decode form := by
  refine .record inherited_soundAt (by decide) (fun _ => rfl) fun document given found => ?_
  obtain ⟨feature, -⟩ := List.forall_mem_cons.mp found
  rw [feature.optional (.optional Feature.accepts Form.not_record_null)]
  rfl

/-! ## Texts -/

/-- **A document is read as itself in every form.** Its own encoding is one; in others, the members
of any object stand in another order, fields that hold their default are left out, and members that
a node does not know are added. Any text that spells such a value is decoded to the document, as
long as all its numbers and strings can be represented and at most 127 lists and objects are open at
once. -/
theorem decode?_of_form (document : Document) :
    Document.form document document.encode ∧
      ∀ (value : Json) (text : String), Document.form document value →
        Json.Spells text.toList value.tokens → value.IsRepresentable → value.depth ≤ 127 →
        Json.decode? Document.decode text = some document := by
  refine ⟨document.form_encode, fun value text isForm spells representable fits => ?_⟩
  have sound : SoundAt .whole value := Json.isSound_of_depth value representable fits
  exact Document.accepts.decode?_eq isForm spells sound

/-- All members stand in reverse, so the kinds stand behind what they choose. What holds a default
is left out, a member is added to a child and repeated, and there is a blank after every token. -/
theorem decode?_of_form_reversed :
    let step : Step := ⟨"* ", "s", some (.dataTable ⟨[⟨["c"]⟩]⟩)⟩
    let feature : Feature :=
      ⟨none, "Feature", "f", none, [], [.background ⟨"Background", "", none, [step]⟩]⟩
    let rows : Json := .list [.record [("cells", .list [.record [("value", .text "c")]])]]
    let table : Json := .record [("type", .text "DataTable"), ("rows", rows)].reverse
    let stepValue : Json :=
      .record [("keyword", .text "* "), ("text", .text "s"), ("argument", table)].reverse
    let child : Json := .record [("type", .text "Background"), ("keyword", .text "Background"),
      ("steps", .list [stepValue]), ("added", .list [.null]),
      ("added", .num ⟨true, ['1'], none, some ⟨'e', none, ['3']⟩⟩)].reverse
    let featureValue : Json := .record [("keyword", .text "Feature"), ("name", .text "f"),
      ("children", .list [child])].reverse
    let value : Json := .record [("feature", featureValue)]
    let text := String.ofList (value.tokens.flatMap fun token => token.text ++ ['\n'])
    Document.form ⟨some feature⟩ value ∧ Json.Spells text.toList value.tokens ∧
      value.IsRepresentable ∧ value.depth ≤ 127 ∧
      Json.decode? Document.decode text = some ⟨some feature⟩ := by
  intro step feature rows table stepValue child featureValue value text
  have isRows : Row.form.list [⟨["c"]⟩] rows := Form.list_map Row.form_encode [⟨["c"]⟩]
  have isTable : Argument.form (.dataTable ⟨[⟨["c"]⟩]⟩) table :=
    Form.record_of_perm (.member rfl (.member isRows .nil)) (List.reverse_perm _)
  have isStep : Step.form step stepValue :=
    Form.record_of_perm (.member rfl (.member rfl (.member isTable .nil))) (List.reverse_perm _)
  have isChild : Definition.form (.background ⟨"Background", "", none, [step]⟩) child :=
    ⟨_, [("added", .list [.null]), ("added", .num _)], _,
      .member rfl (.member rfl (.leftOut rfl (.leftOut rfl
        (.member ⟨_, rfl, .cons isStep .nil⟩ .nil)))),
      by simp [Field.required, Field.orElse, Field.optional, Field.items, Definition.fields,
        Background.fields, Json.tagKey],
      List.reverse_perm _, rfl⟩
  have isFeature : Feature.form feature featureValue :=
    Form.record_of_perm (.leftOut rfl (.member rfl (.member rfl (.leftOut rfl (.leftOut rfl
      (.member ⟨_, rfl, .cons isChild .nil⟩ .nil)))))) (List.reverse_perm _)
  have isForm : Document.form ⟨some feature⟩ value :=
    Form.record_of_given (.member isFeature .nil)
  have spells : Json.Spells text.toList value.tokens := by
    rw [String.toList_ofList]
    exact Json.spells_spaced rfl (by decide)
  have representable : value.IsRepresentable := by decide +kernel
  have fits : value.depth ≤ 127 := by decide
  exact ⟨isForm, spells, representable, fits,
    (decode?_of_form ⟨some feature⟩).2 value text isForm spells representable fits⟩

end LivingDoc.Gherkin
