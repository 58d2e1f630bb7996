import LivingDoc.Loading
import LivingDoc.Proofs.Except

/-!
Reports that cannot be loaded, and what is said of them.

There are five ways: the file cannot be read, in either format; a page does not hold its results as
it should; and a Cucumber report is no text or not the JSON value it should be. In each of them the
message names the report and its format, the step that failed, and the cause.
-/

namespace LivingDoc

/-! ## Texts -/

theorem Directory.readText_eq_ok_iff {directory : Directory} {path text : String} :
    directory.readText path = .ok text ↔
      ∃ bytes, directory.read path = .ok bytes ∧ Text.Utf8.decode? bytes = some text := by
  unfold readText
  rw [bind_eq_ok_iff]
  refine exists_congr fun bytes => and_congr_right fun _ => ?_
  cases Text.Utf8.decode? bytes with
  | none => exact ⟨nofun, nofun⟩
  | some found => exact ⟨fun h => congrArg some (Except.ok.inj h), fun h => h ▸ rfl⟩

theorem Directory.readText_eq_error_iff {directory : Directory} {path : String}
    {fault : ReadFault} :
    directory.readText path = .error fault ↔
      directory.read path = .error fault ∨
      ∃ bytes, directory.read path = .ok bytes ∧ Text.Utf8.decode? bytes = none ∧
        fault = .notText := by
  unfold readText
  cases found : directory.read path with
  | error unread => simp [bind, Except.bind]
  | ok bytes =>
      dsimp only [bind, Except.bind]
      cases decoded : Text.Utf8.decode? bytes with
      | none =>
          change Except.error ReadFault.notText = _ ↔ _
          simp [decoded, eq_comm]
      | some text =>
          change Except.ok text = _ ↔ _
          simp [decoded]

/-! ## Reports -/

namespace Report

theorem ofCucumber_eq_error_iff {content : String} {malformed : Malformed} :
    ofCucumber content = .error malformed ↔
      Json.decode? (.list Cucumber.Feature.decode) content = none ∧
        malformed = .notCucumberJson content := by
  unfold ofCucumber Cucumber.features
  cases Json.decode? (.list Cucumber.Feature.decode) content with
  | none => simp [bind, Except.bind, eq_comm]
  | some features => simp [bind, Except.bind, pure, Except.pure]

/-- A report cannot be loaded if its text cannot be read, or if the text is malformed. -/
theorem load_eq_error_iff {directory : Directory} {location : ReportLocation} {cause : LoadFault} :
    load directory location = .error cause ↔
      (∃ unread, readText directory location.format location.path = .error unread ∧
        cause = ⟨location, .unreadable location.path unread⟩) ∨
      ∃ text malformed, readText directory location.format location.path = .ok text ∧
        parse location.format text = .error malformed ∧
        cause = ⟨location, .malformed malformed⟩ := by
  unfold load read
  cases readText directory location.format location.path with
  | error unread => simp [eq_comm]
  | ok text => cases parsed : parse location.format text <;> simp [parsed, eq_comm]

end Report

/-! ## Error chains -/

section Faults

variable [Wording] {directory : Directory} {location : ReportLocation} {text : String}

/-- `ErrorChain directory location text`: the report at a location cannot be loaded, and `text`
leads from the report to the cause. -/
inductive ErrorChain (directory : Directory) : ReportLocation → String → Prop
  | specRunUnreadable {path : String} {fault : ReadFault} :
    directory.read path = .error fault →
    ErrorChain directory ⟨path, .specRun⟩ ("load spec run report " ++ path ++ ": " ++
      ("read report " ++ path ++ ": " ++ fault.message))
  /-- The results cannot be read off the page, whatever its encoding is. -/
  | specRunMalformed {path : String} {bytes : List UInt8} {malformed : Report.Malformed} :
    directory.read path = .ok bytes →
    Report.ofPage (Text.Utf8.decodeLossy bytes) = .error malformed →
    ErrorChain directory ⟨path, .specRun⟩ ("load spec run report " ++ path ++ ": " ++
      ("malformed report: " ++ malformed.detail))
  | cucumberUnreadable {path : String} {fault : ReadFault} :
    directory.read path = .error fault →
    ErrorChain directory ⟨path, .cucumberJson⟩ ("load cucumber report " ++ path ++ ": " ++
      ("read report " ++ path ++ ": " ++ fault.message))
  | cucumberNotText {path : String} {bytes : List UInt8} :
    directory.read path = .ok bytes → Text.Utf8.decode? bytes = none →
    ErrorChain directory ⟨path, .cucumberJson⟩ ("load cucumber report " ++ path ++ ": " ++
      ("read report " ++ path ++ ": " ++ "stream did not contain valid UTF-8"))
  | cucumberMalformed {path content : String} {bytes : List UInt8} :
    directory.read path = .ok bytes → Text.Utf8.decode? bytes = some content →
    Json.decode? (.list Cucumber.Feature.decode) content = none →
    ErrorChain directory ⟨path, .cucumberJson⟩ ("load cucumber report " ++ path ++ ": " ++
      ("malformed report: " ++ ("invalid cucumber json: " ++ Wording.cucumber content)))

theorem LoadFault.message_specRun (path : String) (fault : ReportFault) :
    (LoadFault.mk ⟨path, .specRun⟩ fault).message =
      "load spec run report " ++ path ++ ": " ++ fault.message := by
  have opening : "load " ++ ReportFormat.specRun.title ++ " report " = "load spec run report " := by
    decide
  exact congrArg (· ++ path ++ ": " ++ fault.message) opening

theorem LoadFault.message_cucumberJson (path : String) (fault : ReportFault) :
    (LoadFault.mk ⟨path, .cucumberJson⟩ fault).message =
      "load cucumber report " ++ path ++ ": " ++ fault.message := by
  have opening : "load " ++ ReportFormat.cucumberJson.title ++ " report " =
      "load cucumber report " := by decide
  exact congrArg (· ++ path ++ ": " ++ fault.message) opening

theorem errorChain_of_unread {unread : ReadFault}
    (failed : Report.readText directory location.format location.path = .error unread) :
    ErrorChain directory location
      (LoadFault.mk location (.unreadable location.path unread)).message := by
  obtain ⟨path, format⟩ := location
  cases format with
  | specRun =>
      rw [LoadFault.message_specRun]
      exact .specRunUnreadable (map_eq_error_iff.mp failed)
  | cucumberJson =>
      rw [LoadFault.message_cucumberJson]
      rcases Directory.readText_eq_error_iff.mp failed with unread | ⟨bytes, found, noText, rfl⟩
      · exact .cucumberUnreadable unread
      · exact .cucumberNotText found noText

theorem errorChain_of_malformed {content : String} {malformed : Report.Malformed}
    (held : Report.readText directory location.format location.path = .ok content)
    (refused : Report.parse location.format content = .error malformed) :
    ErrorChain directory location (LoadFault.mk location (.malformed malformed)).message := by
  obtain ⟨path, format⟩ := location
  cases format with
  | specRun =>
      rw [LoadFault.message_specRun]
      obtain ⟨bytes, found, rfl⟩ := map_eq_ok_iff.mp held
      exact .specRunMalformed found refused
  | cucumberJson =>
      rw [LoadFault.message_cucumberJson]
      obtain ⟨bytes, found, decoded⟩ := Directory.readText_eq_ok_iff.mp held
      obtain ⟨unparsed, rfl⟩ := Report.ofCucumber_eq_error_iff.mp refused
      exact .cucumberMalformed found decoded unparsed

theorem ErrorChain.exists_load_eq_error (chain : ErrorChain directory location text) :
    ∃ cause, Report.load directory location = .error cause ∧ text = cause.message := by
  cases chain with
  | @specRunUnreadable path unread failed =>
      have failed : Report.readText directory .specRun path = .error unread :=
        map_eq_error_iff.mpr failed
      exact ⟨_, Report.load_eq_error_iff.mpr (.inl ⟨unread, failed, rfl⟩),
        (LoadFault.message_specRun path (.unreadable path unread)).symm⟩
  | @specRunMalformed path bytes malformed found refused =>
      have held : Report.readText directory .specRun path = .ok _ :=
        map_eq_ok_iff.mpr ⟨bytes, found, rfl⟩
      exact ⟨_, Report.load_eq_error_iff.mpr (.inr ⟨_, malformed, held, refused, rfl⟩),
        (LoadFault.message_specRun path (.malformed malformed)).symm⟩
  | @cucumberUnreadable path unread failed =>
      have failed := Directory.readText_eq_error_iff.mpr (.inl failed)
      exact ⟨_, Report.load_eq_error_iff.mpr (.inl ⟨unread, failed, rfl⟩),
        (LoadFault.message_cucumberJson path (.unreadable path unread)).symm⟩
  | @cucumberNotText path bytes found noText =>
      have failed := Directory.readText_eq_error_iff.mpr (.inr ⟨bytes, found, noText, rfl⟩)
      exact ⟨_, Report.load_eq_error_iff.mpr (.inl ⟨.notText, failed, rfl⟩),
        (LoadFault.message_cucumberJson path (.unreadable path .notText)).symm⟩
  | @cucumberMalformed path content bytes found decoded unparsed =>
      have held := Directory.readText_eq_ok_iff.mpr ⟨bytes, found, decoded⟩
      have refused := Report.ofCucumber_eq_error_iff.mpr ⟨unparsed, rfl⟩
      exact ⟨_, Report.load_eq_error_iff.mpr (.inr ⟨content, _, held, refused, rfl⟩),
        (LoadFault.message_cucumberJson path (.malformed (.notCucumberJson content))).symm⟩

/-- **A report that cannot be loaded has one error chain, the message of its fault.** -/
theorem errorChain_iff :
    ErrorChain directory location text ↔
      ∃ cause, Report.load directory location = .error cause ∧ text = cause.message := by
  refine ⟨ErrorChain.exists_load_eq_error, ?_⟩
  rintro ⟨cause, failed, rfl⟩
  rcases Report.load_eq_error_iff.mp failed with ⟨_, unread, rfl⟩ | ⟨_, _, found, refused, rfl⟩
  · exact errorChain_of_unread unread
  · exact errorChain_of_malformed found refused

end Faults

end LivingDoc
