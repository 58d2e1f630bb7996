import LivingDoc.Toml.Value

/-!
The tables that the lines of a TOML document build up.

While a document is read, each table remembers how it came to be, because this decides which later
lines may add to it: a table with a header of its own is complete when the next header begins, one
that is only named in the headers of others may still get its own, and one that arises from dotted
keys grows by dotted keys only.
-/

namespace LivingDoc.Toml

/-- How a table came to be. -/
inductive Origin where
  /-- By a header of its own. -/
  | header
  /-- By the header of a table inside it. -/
  | implied
  /-- By dotted keys. -/
  | dotted
  deriving DecidableEq, Repr

/-- What a key of an unfinished table holds. -/
inductive Node where
  | value (value : Value)
  | table (origin : Origin) (entries : List (String × Node))
  /-- An array of tables, of which the last may still grow. -/
  | tables (items : List (List (String × Node)))

/-- The entries of a table that is not finished. -/
abbrev Entries := List (String × Node)

namespace Entries

/-- Puts a node in the place of the one under a key. -/
def replace (entries : Entries) (key : String) (node : Node) : Entries :=
  entries.map fun (name, old) => if name = key then (name, node) else (name, old)

/-- Changes the last table of an array of tables, which has at least one. -/
def changeLast? (items : List Entries) (change : Entries → Option Entries) : Option Node := do
  let last ← items.getLast?
  return .tables (items.dropLast ++ [← change last])

/-- Adds a value under a dotted key. `grows` says whether keys may be added to the table itself. -/
def addValue? (value : Value) : List String → Bool → Entries → Option Entries
  | [], _, _ => none
  | [key], grows, entries =>
    if grows && (entries.lookup key).isNone then some (entries ++ [(key, .value value)]) else none
  | key :: path, _, entries =>
    match entries.lookup key with
    | none => do return entries ++ [(key, .table .dotted (← addValue? value path true []))]
    | some (.table .header _) => none
    | some (.table origin inner) => do
      let inner ← addValue? value path (origin = .dotted) inner
      return replace entries key (.table origin inner)
    | some (.tables items) => do
      return replace entries key (← changeLast? items (addValue? value path false))
    | some (.value _) => none

/-- Begins the table with a header, or one more table of an array of tables. -/
def addHeader? (array : Bool) : List String → Entries → Option Entries
  | [], _ => none
  | [key], entries =>
    match entries.lookup key, array with
    | none, false => some (entries ++ [(key, .table .header [])])
    | none, true => some (entries ++ [(key, .tables [[]])])
    | some (.table .implied inner), false => some (replace entries key (.table .header inner))
    | some (.tables items), true => some (replace entries key (.tables (items ++ [[]])))
    | some _, _ => none
  | key :: path, entries =>
    match entries.lookup key with
    | none => do return entries ++ [(key, .table .implied (← addHeader? array path []))]
    | some (.table origin inner) => do
      return replace entries key (.table origin (← addHeader? array path inner))
    | some (.tables items) => do
      return replace entries key (← changeLast? items (addHeader? array path))
    | some (.value _) => none

/-- Changes the table with a header. -/
def changeAt? (change : Entries → Option Entries) : List String → Entries → Option Entries
  | [], entries => change entries
  | key :: path, entries =>
    match entries.lookup key with
    | some (.table origin inner) => do
      return replace entries key (.table origin (← changeAt? change path inner))
    | some (.tables items) => do
      return replace entries key (← changeLast? items (changeAt? change path))
    | _ => none

end Entries

mutual

/-- The value of a node when the document ends. -/
def Node.finish : Node → Value
  | .value value => value
  | .table _ entries => .table (finishEntries entries)
  | .tables items => .array (finishTables items)

/-- The entries of a table when the document ends. -/
def finishEntries : List (String × Node) → List (String × Value)
  | [] => []
  | (key, node) :: entries => (key, node.finish) :: finishEntries entries

/-- The tables of an array when the document ends. -/
def finishTables : List (List (String × Node)) → List Value
  | [] => []
  | entries :: items => .table (finishEntries entries) :: finishTables items

end

end LivingDoc.Toml
