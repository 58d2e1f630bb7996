import LivingDoc.Keyword
import LivingDoc.Text.Ascii
import LivingDoc.Text.Blank

/-!
The languages a behaviour description can be written in, and the reading of their keywords.

A language is asked for by a tag such as `fr` or `de-AT`; what follows the first hyphen or
underscore names a region and has no influence. A spelling counts with any white space around it.
-/

namespace LivingDoc

/-- A language with a table of keyword spellings. -/
inductive Language where
  | english
  | french
  | german
  | dutch
  | spanish
  deriving DecidableEq, Repr

namespace Language

/-- All languages with a table. -/
def all : List Language :=
  [english, french, german, dutch, spanish]

/-- The language used where none is asked for. -/
def standard : Language := english

/-! ## Tags -/

/-- The tag a language is known by. -/
def tag : Language → String
  | english => "en"
  | french => "fr"
  | german => "de"
  | dutch => "nl"
  | spanish => "es"

/-- The part of a language tag that names the language: all of it before the region. -/
def primarySubtag (tag : String) : String :=
  String.ofList (tag.toList.takeWhile fun c => c != '-' && c != '_')

/-- The language a tag asks for, whatever the case of its letters and whatever its region. -/
def ofTag? (tag : String) : Option Language :=
  all.find? fun language => Text.sameIgnoringCase language.tag (primarySubtag tag)

/-! ## Spellings -/

/-- The spellings of English. -/
def englishSpellings : Keyword → List String
  | .given => ["*", "Given"]
  | .when => ["*", "When"]
  | .«then» => ["*", "Then"]
  | .and => ["*", "And"]
  | .but => ["*", "But"]
  | .feature => ["Feature", "Business Need", "Ability"]
  | .background => ["Background"]
  | .scenario => ["Scenario"]
  | .scenarioOutline => ["Scenario Outline", "Scenario Template"]
  | .examples => ["Examples", "Scenarios"]

/-- The spellings of French. -/
def frenchSpellings : Keyword → List String
  | .given =>
    ["*", "Soit", "Etant donné que", "Etant donné qu'", "Etant donné", "Etant donnée",
     "Etant donnés", "Etant données", "Étant donné que", "Étant donné qu'", "Étant donné",
     "Étant donnée", "Étant donnés", "Étant données"]
  | .when => ["*", "Quand", "Lorsque", "Lorsqu'"]
  | .«then» => ["*", "Alors"]
  | .and => ["*", "Et que", "Et qu'", "Et"]
  | .but => ["*", "Mais que", "Mais qu'", "Mais"]
  | .feature => ["Fonctionnalité"]
  | .background => ["Contexte"]
  | .scenario => ["Scénario"]
  | .scenarioOutline => ["Plan du scénario", "Plan du Scénario"]
  | .examples => ["Exemples"]

/-- The spellings of German. -/
def germanSpellings : Keyword → List String
  | .given => ["*", "Angenommen", "Gegeben sei", "Gegeben seien"]
  | .when => ["*", "Wenn"]
  | .«then» => ["*", "Dann"]
  | .and => ["*", "Und"]
  | .but => ["*", "Aber"]
  | .feature => ["Funktionalität"]
  | .background => ["Grundlage"]
  | .scenario => ["Szenario"]
  | .scenarioOutline => ["Szenariogrundriss"]
  | .examples => ["Beispiele"]

/-- The spellings of Dutch. -/
def dutchSpellings : Keyword → List String
  | .given => ["*", "Gegeven", "Stel"]
  | .when => ["*", "Als", "Wanneer"]
  | .«then» => ["*", "Dan"]
  | .and => ["*", "En"]
  | .but => ["*", "Maar"]
  | .feature => ["Functionaliteit"]
  | .background => ["Achtergrond"]
  | .scenario => ["Scenario"]
  | .scenarioOutline => ["Abstract Scenario"]
  | .examples => ["Voorbeelden"]

/-- The spellings of Spanish. -/
def spanishSpellings : Keyword → List String
  | .given => ["*", "Dado", "Dada", "Dados", "Dadas"]
  | .when => ["*", "Cuando"]
  | .«then» => ["*", "Entonces"]
  | .and => ["*", "Y", "E"]
  | .but => ["*", "Pero"]
  | .feature => ["Característica"]
  | .background => ["Antecedentes"]
  | .scenario => ["Escenario"]
  | .scenarioOutline => ["Esquema del escenario"]
  | .examples => ["Ejemplos"]

/-- The ways a language spells a keyword, without white space around them. -/
def spellings : Language → Keyword → List String
  | english => englishSpellings
  | french => frenchSpellings
  | german => germanSpellings
  | dutch => dutchSpellings
  | spanish => spanishSpellings

/-- The keyword that a text spells in a language, with any white space around it. A spelling that
several keywords share stands for the first of them. -/
def keyword? (language : Language) (text : String) : Option Keyword :=
  Keyword.all.find? fun keyword => (language.spellings keyword).contains (Text.trim text)

end Language

end LivingDoc
