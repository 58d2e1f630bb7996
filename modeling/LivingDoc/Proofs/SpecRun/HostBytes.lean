import LivingDoc.Loading
import LivingDoc.Proofs.SpecRun.Page
import LivingDoc.Proofs.Text.Markers

/-!
The bytes around the results in the file of a page.

A page is decoded as a whole, before the markers are looked for. Both markers are ASCII text, so
what stands around them is decoded on its own and the markers are found where their bytes stand.
Main statement: of the bytes of a page only those of the results count.
-/

namespace LivingDoc.SpecRun

open Text.Utf8 (IsAscii decodeLossy encode)

theorem isAscii_beginMarker : IsAscii beginMarker := by
  decide

theorem isAscii_endMarker : IsAscii endMarker := by
  decide

/-- `Embeds page results`: the bytes of a page hold those of the results between its first opening
marker and the first closing marker after it. -/
def Embeds (page results : List UInt8) : Prop :=
  ∃ before after, ¬ encode beginMarker <:+: before ∧ ¬ encode endMarker <:+: results ∧
    page = before ++ (encode beginMarker ++ (results ++ (encode endMarker ++ after)))

/-- A page with nothing around the results but the markers. -/
def barePage (results : List Char) : String :=
  String.ofList (beginMarker ++ (results ++ endMarker))

/-- The results are found in the decoded page, decoded on their own. -/
theorem embedded_decodeLossy {page results : List UInt8} (embeds : Embeds page results) :
    embedded (decodeLossy page).toList = .ok (restore (decodeLossy results).toList) := by
  obtain ⟨before, after, noBegin, noEnd, rfl⟩ := embeds
  have decoded : (decodeLossy (before ++ (encode beginMarker ++
        (results ++ (encode endMarker ++ after))))).toList =
      (decodeLossy before).toList ++ (beginMarker ++ ((decodeLossy results).toList ++
        (endMarker ++ (decodeLossy after).toList))) := by
    rw [Text.Utf8.decodeLossy_marker (by decide) isAscii_beginMarker,
      Text.Utf8.decodeLossy_marker (by decide) isAscii_endMarker]
  have noBegin' := mt (Text.Utf8.infix_of_infix_decodeLossy isAscii_beginMarker) noBegin
  have noEnd' := mt (Text.Utf8.infix_of_infix_decodeLossy isAscii_endMarker) noEnd
  rw [decoded]
  exact embedded_of_markers noBegin' noEnd' _

theorem embedded_barePage {page results : List UInt8} (embeds : Embeds page results) :
    embedded (barePage (decodeLossy results).toList).toList =
      .ok (restore (decodeLossy results).toList) := by
  obtain ⟨_, _, _, noEnd, _⟩ := embeds
  have noEnd' := mt (Text.Utf8.infix_of_infix_decodeLossy isAscii_endMarker) noEnd
  have noBegin : ¬ beginMarker <:+: [] := by decide
  have found := embedded_of_markers noBegin noEnd' []
  rw [List.append_nil] at found
  rw [barePage, String.toList_ofList]
  exact found

/-- A file that can be read is taken for a page, whatever its bytes are. -/
theorem read_eq_mapError {directory : Directory} {path : String} {page : List UInt8}
    (held : directory.read path = .ok page) :
    Report.read directory .specRun path =
      (Report.parse .specRun (decodeLossy page)).mapError .malformed := by
  have text : Report.readText directory .specRun path = .ok (decodeLossy page) := by
    change (directory.read path).map decodeLossy = _
    rw [held]
    rfl
  unfold Report.read
  rw [text]
  dsimp only
  cases Report.parse .specRun (decodeLossy page) <;> rfl

/-- The report on a page depends on nothing but the results found in it. -/
theorem parse_congr {page page' : String} (same : embedded page.toList = embedded page'.toList) :
    Report.parse .specRun page = Report.parse .specRun page' := by
  change Report.ofPage page = Report.ofPage page'
  unfold Report.ofPage
  rw [same]

/-- **The page around the results has no influence on the report.** Whatever its bytes, in UTF-8 or
not, it is loaded as the bare page of the decoded results would be; pages that agree on the results
are loaded alike; and no file that can be read is refused for its bytes. -/
theorem read_page :
    (∀ {directory : Directory} {path : String} {page results : List UInt8},
      directory.read path = .ok page → Embeds page results →
      Report.read directory .specRun path =
        (Report.parse .specRun (barePage (decodeLossy results).toList)).mapError .malformed) ∧
    (∀ {directory directory' : Directory} {path path' : String} {page page' results : List UInt8},
      directory.read path = .ok page → directory'.read path' = .ok page' →
      Embeds page results → Embeds page' results →
      Report.read directory .specRun path = Report.read directory' .specRun path') ∧
    ∀ {directory : Directory} {path : String} {page : List UInt8},
      directory.read path = .ok page →
      ∀ path' fault, Report.read directory .specRun path ≠ .error (.unreadable path' fault) := by
  have bare {directory : Directory} {path : String} {page results : List UInt8}
      (held : directory.read path = .ok page) (embeds : Embeds page results) :
      Report.read directory .specRun path =
        (Report.parse .specRun (barePage (decodeLossy results).toList)).mapError .malformed := by
    have same := (embedded_decodeLossy embeds).trans (embedded_barePage embeds).symm
    rw [read_eq_mapError held, parse_congr same]
  refine ⟨bare, fun held held' embeds embeds' => (bare held embeds).trans (bare held' embeds').symm,
    fun {directory path page} held path' fault refused => ?_⟩
  rw [read_eq_mapError held] at refused
  cases parsed : Report.parse .specRun (decodeLossy page) with
  | ok report =>
      rw [parsed] at refused
      cases refused
  | error malformed =>
      rw [parsed] at refused
      cases refused

/-- A page that is no UTF-8 in front of the results, in them and behind them, and one that differs
in what is around the results. -/
theorem read_page_latin :
    let results := encode "<feature title='R".toList ++ (0xE9 :: encode "'/>".toList)
    let page := 0xE2 :: 0x82 :: (encode beginMarker ++ (results ++ (encode endMarker ++ [0xFF])))
    let bare := encode beginMarker ++ (results ++ encode endMarker)
    let directory := Directory.ofEntries [("page", .file page), ("bare", .file bare)]
    directory.read "page" = .ok page ∧ directory.read "bare" = .ok bare ∧
      Embeds page results ∧ Embeds bare results ∧
      Report.read directory .specRun "page" = .ok ⟨.specRun, [⟨"R\uFFFD", []⟩]⟩ ∧
      Report.read directory .specRun "bare" = Report.read directory .specRun "page" ∧
      Report.read directory .specRun "page" ≠ .error (.unreadable "page" .notText) := by
  intro results page bare directory
  have heldPage : directory.read "page" = .ok page := by
    have read : ∀ file other,
        (Directory.ofEntries [("page", .file file), ("bare", .file other)]).read "page" =
          .ok file := fun _ _ => rfl
    exact read page bare
  have heldBare : directory.read "bare" = .ok bare := by
    have read : ∀ other file,
        (Directory.ofEntries [("page", .file other), ("bare", .file file)]).read "bare" =
          .ok file := fun _ _ => rfl
    exact read page bare
  have noEnd : ¬ encode endMarker <:+: results := by decide +kernel
  have embedsPage : Embeds page results :=
    ⟨[0xE2, 0x82], [0xFF], by decide +kernel, noEnd, rfl⟩
  have embedsBare : Embeds bare results := ⟨[], [], by decide +kernel, noEnd, by simp [bare]⟩
  refine ⟨heldPage, heldBare, embedsPage, embedsBare, ?_, ?_, ?_⟩
  · rw [read_page.1 heldPage embedsPage]
    decide +kernel
  · exact read_page.2.1 heldBare heldPage embedsBare embedsPage
  · exact read_page.2.2 heldPage "page" .notText

end LivingDoc.SpecRun
