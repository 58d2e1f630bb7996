import LivingDoc.Gherkin.Encoding
import LivingDoc.Loading
import LivingDoc.Proofs.Except
import LivingDoc.Proofs.Json.Decoder
import LivingDoc.Proofs.Text.Utf8

/-!
A behaviour description that is written as JSON is read as itself.

The law for a node names how many lists and records the node opens at once: 11 for a whole document,
whose deepest parts are the cells of a table given to a step. So there is always room for the nodes
that are examined in full before their kind is known.
-/

namespace LivingDoc.Gherkin

open Json (Fields IsPlain)
open Json.Decoder (Undoes)

/-- A value that may be absent is read as it is written, as long as no value is written as null. -/
theorem undoes_optional {α : Type} {decoder : Json.Decoder α} {room : Nat} {encode : α → Json}
    (undoes : Undoes decoder room encode) (some_ : ∀ value, encode value ≠ .null) :
    Undoes decoder.optional room (encodeOptional encode) where
  plain
    | none => .null
    | some value => undoes.plain value
  decodes place value fits := by
    cases value with
    | none => rfl
    | some value =>
        have decoded := undoes.decodes place value fits
        unfold Json.Decoder.optional encodeOptional
        split
        · next null => exact absurd null (some_ value)
        · rw [decoded]
          rfl

/-! ## Nodes -/

theorem undoes_text : Undoes (.optional .string) 0 (encodeOptional Json.text) :=
  undoes_optional .string nofun

theorem undoes_tag : Undoes decodeTag 1 encodeTag :=
  .record (by decide) (fun _ => rfl) (by simpa using IsPlain.text) fun _ _ _ => rfl

theorem undoes_tags : Undoes (.list decodeTag) 2 encodeTags :=
  undoes_tag.list

theorem undoes_cell : Undoes decodeCell 1 encodeCell :=
  .record (by decide) (fun _ => rfl) (by simpa using IsPlain.text) fun _ _ _ => rfl

theorem Row.undoes : Undoes decode 3 encode := by
  have cells := undoes_cell.list
  refine .record (by decide) (fun _ => rfl) (fun row => ?_) fun place row fits => ?_
  · simpa using cells.plain row.cells
  · simp [Fields.required, cells.decodes place _ fits]

theorem DocString.undoes : Undoes decode 1 fun text => .record text.members := by
  refine .record (by decide) (fun _ => rfl) (fun text => ?_) fun place text fits => ?_
  · simp [members, undoes_text.plain, IsPlain.text]
  · simp [members, Fields.required, Fields.optional, Fields.orElse, List.lookup_cons,
      undoes_text.decodes place _ fits]

theorem DataTable.undoes : Undoes decode 5 fun table => .record table.members := by
  have rows := Row.undoes.list
  refine .record (by decide) (fun _ => rfl) (fun table => ?_) fun place table fits => ?_
  · simpa [members] using rows.plain table.rows
  · simp [members, Fields.required, rows.decodes place _ fits]

/-- The name of the kind of an argument. -/
def Argument.kind : Argument → String
  | docString _ => "DocString"
  | dataTable _ => "DataTable"

/-- The members of an argument besides its kind. -/
def Argument.members : Argument → List (String × Json)
  | docString text => text.members
  | dataTable table => table.members

theorem Argument.encode_eq :
    encode = fun argument => .record ((Json.tagKey, .text argument.kind) :: argument.members) := by
  funext argument
  cases argument <;> rfl

theorem Argument.undoes : Undoes decode 5 encode := by
  rw [encode_eq]
  refine .tagged (fun argument => ?_) fun argument => ?_
  · cases argument <;> simp [members, DocString.members, DataTable.members, Json.tagKey]
  · cases argument with
    | docString text =>
        have undoes : Undoes DocString.decode 5 fun text => .record text.members :=
          DocString.undoes.mono (by decide)
        exact ⟨_, rfl, undoes.plain text, fun place fits =>
          congrArg (Option.map docString) (undoes.decodes place text fits)⟩
    | dataTable table =>
        exact ⟨_, rfl, DataTable.undoes.plain table, fun place fits =>
          congrArg (Option.map dataTable) (DataTable.undoes.decodes place table fits)⟩

theorem undoes_argument : Undoes (.optional Argument.decode) 5 (encodeOptional Argument.encode) :=
  undoes_optional Argument.undoes (by rintro (_ | _) <;> nofun)

theorem Step.undoes : Undoes decode 6 encode := by
  refine .record (by decide) (fun _ => rfl) (fun step => ?_) fun place step fits => ?_
  · simp [undoes_argument.plain, IsPlain.text]
  · simp [Fields.required, Fields.optional, Fields.orElse, List.lookup_cons,
      undoes_argument.decodes place _ fits]

theorem undoes_steps : Undoes (.list Step.decode) 7 fun steps => .list (steps.map Step.encode) :=
  Step.undoes.list

theorem Background.undoes : Undoes decode 8 fun background => .record background.members := by
  have description := undoes_text.mono (Nat.zero_le 7)
  refine .record (by decide) (fun _ => rfl) (fun background => ?_) fun place background fits => ?_
  · simp [members, description.plain, undoes_steps.plain, IsPlain.text]
  · simp [members, Fields.required, Fields.optional, Fields.orElse, Fields.items, List.lookup_cons,
      description.decodes place _ fits, undoes_steps.decodes place _ fits]

theorem Scenario.undoes : Undoes decode 8 fun scenario => .record scenario.members := by
  have description := undoes_text.mono (Nat.zero_le 7)
  have tags : Undoes _ 7 _ := undoes_tags.mono (by decide)
  refine .record (by decide) (fun _ => rfl) (fun scenario => ?_) fun place scenario fits => ?_
  · simp [members, description.plain, tags.plain, undoes_steps.plain, IsPlain.text]
  · simp [members, Fields.required, Fields.optional, Fields.orElse, Fields.items, List.lookup_cons,
      description.decodes place _ fits, tags.decodes place _ fits,
      undoes_steps.decodes place _ fits]

theorem Examples.undoes : Undoes decode 5 encode := by
  have description := undoes_text.mono (Nat.zero_le 4)
  have tags : Undoes _ 4 _ := undoes_tags.mono (by decide)
  have header : Undoes _ 4 _ := (undoes_optional Row.undoes nofun).mono (by decide)
  have body := Row.undoes.list
  refine .record (by decide) (fun _ => rfl) (fun examples => ?_) fun place examples fits => ?_
  · simp [description.plain, tags.plain, header.plain, body.plain, IsPlain.text]
  · simp [Fields.required, Fields.optional, Fields.orElse, Fields.items, List.lookup_cons,
      description.decodes place _ fits, tags.decodes place _ fits, header.decodes place _ fits,
      body.decodes place _ fits]

theorem Outline.undoes : Undoes decode 8 fun outline => .record outline.members := by
  have description := undoes_text.mono (Nat.zero_le 7)
  have tags : Undoes _ 7 _ := undoes_tags.mono (by decide)
  have examples : Undoes _ 7 _ := Examples.undoes.list.mono (by decide)
  refine .record (by decide) (fun _ => rfl) (fun outline => ?_) fun place outline fits => ?_
  · simp [members, description.plain, tags.plain, undoes_steps.plain, examples.plain, IsPlain.text]
  · simp [members, Fields.required, Fields.optional, Fields.orElse, Fields.items, List.lookup_cons,
      description.decodes place _ fits, tags.decodes place _ fits,
      undoes_steps.decodes place _ fits, examples.decodes place _ fits]

theorem Definition.undoes : Undoes decode 8 encode := by
  refine .tagged (fun child => ?_) fun child => ?_
  · cases child <;> simp [Background.members, Scenario.members, Outline.members, Json.tagKey]
  · cases child with
    | background child =>
        exact ⟨_, rfl, Background.undoes.plain child, fun place fits =>
          congrArg (Option.map background) (Background.undoes.decodes place child fits)⟩
    | scenario child =>
        exact ⟨_, rfl, Scenario.undoes.plain child, fun place fits =>
          congrArg (Option.map scenario) (Scenario.undoes.decodes place child fits)⟩
    | outline child =>
        exact ⟨_, rfl, Outline.undoes.plain child, fun place fits =>
          congrArg (Option.map outline) (Outline.undoes.decodes place child fits)⟩

theorem Feature.undoes : Undoes decode 10 encode := by
  have language := undoes_text.mono (Nat.zero_le 9)
  have tags : Undoes _ 9 _ := undoes_tags.mono (by decide)
  have children := Definition.undoes.list
  refine .record (by decide) (fun _ => rfl) (fun feature => ?_) fun place feature fits => ?_
  · simp [language.plain, tags.plain, children.plain, IsPlain.text]
  · simp [Fields.required, Fields.optional, Fields.orElse, Fields.items, List.lookup_cons,
      language.decodes place _ fits, tags.decodes place _ fits, children.decodes place _ fits]

theorem Document.undoes : Undoes decode 11 encode := by
  have feature := undoes_optional Feature.undoes nofun
  refine .record (by decide) (fun _ => rfl) (fun document => ?_) fun place document fits => ?_
  · simpa using feature.plain document.feature
  · simp [Fields.optional, Fields.orElse, feature.decodes place _ fits]

/-! ## Texts and files -/

/-- Whether the text of each value is decoded as the value. -/
def RoundTrips {α : Type} (encode : α → Json) (decoder : Json.Decoder α) : Prop :=
  ∀ value, Json.decode? decoder (encode value).compact = some value

/-- A file that holds the UTF-8 encoding of a text holds this text. -/
theorem readText_of_read {directory : Directory} {path text : String}
    (held : directory.read path = .ok text.toUTF8.data.toList) :
    directory.readText path = .ok text := by
  refine bind_eq_ok_iff.mpr ⟨_, held, ?_⟩
  rw [Text.Utf8.decode?_toUTF8]
  rfl

/-- **Decoding undoes encoding**, for each type of node on its own and for whole documents. A file
that holds the text of a document, in UTF-8, is loaded as this document. -/
theorem decode_encode :
    RoundTrips encodeTag decodeTag ∧ RoundTrips encodeCell decodeCell ∧
      RoundTrips Row.encode Row.decode ∧
      RoundTrips (fun text => .record text.members) DocString.decode ∧
      RoundTrips (fun table => .record table.members) DataTable.decode ∧
      RoundTrips Argument.encode Argument.decode ∧ RoundTrips Step.encode Step.decode ∧
      RoundTrips (fun background => .record background.members) Background.decode ∧
      RoundTrips (fun scenario => .record scenario.members) Scenario.decode ∧
      RoundTrips Examples.encode Examples.decode ∧
      RoundTrips (fun outline => .record outline.members) Outline.decode ∧
      RoundTrips Definition.encode Definition.decode ∧
      RoundTrips Feature.encode Feature.decode ∧ RoundTrips Document.encode Document.decode ∧
      ∀ (directory : Directory) (path : String) (document : Document),
        directory.read path = .ok document.encode.compact.toUTF8.data.toList →
        Document.load directory path = .ok document := by
  have whole : RoundTrips Document.encode Document.decode :=
    Document.undoes.decode?_compact (by decide)
  refine ⟨undoes_tag.decode?_compact (by decide), undoes_cell.decode?_compact (by decide),
    Row.undoes.decode?_compact (by decide), DocString.undoes.decode?_compact (by decide),
    DataTable.undoes.decode?_compact (by decide), Argument.undoes.decode?_compact (by decide),
    Step.undoes.decode?_compact (by decide), Background.undoes.decode?_compact (by decide),
    Scenario.undoes.decode?_compact (by decide), Examples.undoes.decode?_compact (by decide),
    Outline.undoes.decode?_compact (by decide), Definition.undoes.decode?_compact (by decide),
    Feature.undoes.decode?_compact (by decide), whole, fun directory path document held => ?_⟩
  unfold Document.load
  rw [readText_of_read held]
  dsimp only
  rw [whole document]

/-- A document with escapes, and with children and arguments of every kind. -/
theorem decode_encode_escapes :
    let document : Document := ⟨some ⟨none, "Feature", "\"\\/\n\x00\u2028𝄞", none, ["@a"], [
      .background ⟨"", "", some "", []⟩, .scenario ⟨"", "", none, [], []⟩,
      .outline ⟨"", "", none, [], [⟨"* ", "s", some (.docString ⟨none, "\t"⟩)⟩,
        ⟨"* ", "t", some (.dataTable ⟨[⟨["c"]⟩]⟩)⟩], [⟨"", "", none, [], none, []⟩]⟩]⟩⟩
    let directory := Directory.ofEntries
      [("d", .file document.encode.compact.toUTF8.data.toList)]
    directory.read "d" = .ok document.encode.compact.toUTF8.data.toList ∧
      Document.load directory "d" = .ok document := by
  intro document directory
  have held : directory.read "d" = .ok document.encode.compact.toUTF8.data.toList := by
    have read : ∀ bytes, (Directory.ofEntries [("d", .file bytes)]).read "d" = .ok bytes := by
      intro bytes
      rfl
    exact read _
  obtain ⟨_, _, _, _, _, _, _, _, _, _, _, _, _, _, loads⟩ := decode_encode
  exact ⟨held, loads directory "d" document held⟩

end LivingDoc.Gherkin
