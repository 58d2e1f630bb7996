/-!
Texts that libraries word.

The reader of the command line explains what it refuses and answers requests for help, and the
parsers of JSON and TOML say what is wrong with a text that they refuse. How they word this is left
to them; a program only decides where it is printed.
-/

namespace LivingDoc

/-- What can be asked to be explained: the program or one of its commands. -/
inductive Topic where
  | program
  | map
  | results
  | help
  deriving DecidableEq, Repr

/-- How libraries word their messages. -/
class Wording where
  /-- The message about arguments that are not well formed. -/
  usage : List String → String
  /-- The explanation of a topic. -/
  help : Topic → String
  /-- What is wrong with a text that holds no configuration. -/
  config : String → String
  /-- What is wrong with a text that holds no document. -/
  document : String → String
  /-- What is wrong with a text that holds no Cucumber report. -/
  cucumber : String → String

namespace Wording

/-- The wording where none is given: help in full, and nothing more than a reason for what is
refused. -/
instance standard : Wording where
  usage _ := "usage error"
  help
    | .program =>
      "Gherkin domain model mapping and test-result correlation\n\n" ++
      "Usage: pickles <COMMAND>\n\n" ++
      "Commands:\n" ++
      "  map      Print the domain model of a Gherkin AST document as JSON\n" ++
      "  results  Print per-feature and per-scenario verdicts from test reports as JSON\n" ++
      "  help     Print this message or the help of the given subcommand(s)\n\n" ++
      "Options:\n" ++
      "  -h, --help     Print help\n" ++
      "  -V, --version  Print version\n"
    | .map =>
      "Print the domain model of a Gherkin AST document as JSON\n\n" ++
      "Usage: pickles map [OPTIONS] <DOCUMENT>\n\n" ++
      "Arguments:\n" ++
      "  <DOCUMENT>  Gherkin AST JSON produced by the parser\n\n" ++
      "Options:\n" ++
      "      --config <CONFIG>      Config file; missing file means defaults " ++
      "[default: pickles.toml]\n" ++
      "      --language <LANGUAGE>  Keyword language, " ++
      "overriding the document's and the config's\n" ++
      "  -h, --help                 Print help\n"
    | .results =>
      "Print per-feature and per-scenario verdicts from test reports as JSON\n\n" ++
      "Usage: pickles results [OPTIONS] <DOCUMENT>\n\n" ++
      "Arguments:\n" ++
      "  <DOCUMENT>  Gherkin AST JSON produced by the parser\n\n" ++
      "Options:\n" ++
      "      --config <CONFIG>       Config file; missing file means defaults " ++
      "[default: pickles.toml]\n" ++
      "      --language <LANGUAGE>   Keyword language, " ++
      "overriding the document's and the config's\n" ++
      "      --spec-run <PATH>       SpecRun HTML report (repeatable)\n" ++
      "      --cucumber-json <PATH>  Cucumber JSON report (repeatable)\n" ++
      "  -h, --help                  Print help\n"
    | .help =>
      "Print this message or the help of the given subcommand(s)\n\n" ++
      "Usage: pickles help [COMMAND]...\n\n" ++
      "Arguments:\n" ++
      "  [COMMAND]...  Print help for the subcommand(s)\n"
  config _ := "no configuration"
  document _ := "no document"
  cucumber _ := "no Cucumber report"

end Wording
end LivingDoc
