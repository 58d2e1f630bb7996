import LivingDoc.Text.Utf8

/-!
The files a program can read, seen from its working directory.

A program asks for the bytes under a path and gets them or the reason why it cannot. A directory
whose whole content is known is built from a list of its entries.
-/

namespace LivingDoc

/-- Why a file cannot be read. -/
inductive ReadFault where
  | missing
  /-- A file stands where the path needs a directory. -/
  | notADirectory
  | isADirectory
  /-- A file that should hold text holds bytes that are no UTF-8. -/
  | notText
  deriving DecidableEq, Repr

/-- The message that states a fault. -/
def ReadFault.message : ReadFault → String
  | missing => "No such file or directory (os error 2)"
  | notADirectory => "Not a directory (os error 20)"
  | isADirectory => "Is a directory (os error 21)"
  | notText => "stream did not contain valid UTF-8"

/-- What can be read from a working directory: the bytes under each path, or why there are none. -/
structure Directory where
  read : String → Except ReadFault (List UInt8)

namespace Directory

/-- The text under a path. -/
def readText (directory : Directory) (path : String) : Except ReadFault String := do
  match Text.Utf8.decode? (← directory.read path) with
  | some text => return text
  | none => throw .notText

/-- Whether there is anything under a path. -/
def holds (directory : Directory) (path : String) : Bool :=
  match directory.read path with
  | .error .missing => false
  | .error .notADirectory => false
  | _ => true

/-! ## Directories from lists of entries -/

/-- A file with its bytes, or a directory. -/
inductive Entry where
  | file (bytes : List UInt8)
  | directory
  deriving DecidableEq, Repr

/-- The components of a path, with an empty one for each slash that has nothing in front of it or
after it. -/
def components (path : String) : List String :=
  go path.toList []
where
  /-- Splits the rest of a path; `part` is what has been read of the current component. -/
  go : List Char → List Char → List String
    | [], part => [String.ofList part.reverse]
    | '/' :: rest, part => String.ofList part.reverse :: go rest []
    | c :: rest, part => go rest (c :: part)

/-- What stands under the components of a path. A directory stands there also if an entry lies
below. -/
def entryAt? (entries : List (List String × Entry)) (path : List String) : Option Entry :=
  if path = [] then some .directory
  else
    match entries.lookup path with
    | some entry => some entry
    | none => if entries.any fun entry => path.isPrefixOf entry.1 then some .directory else none

/-- Walks along the components of a path from a place given by components. -/
def walk (entries : List (List String × Entry)) :
    List String → List String → Except ReadFault Entry
  | [], place =>
    match entryAt? entries place with
    | none => .error .missing
    | some entry => .ok entry
  | component :: rest, place =>
    match entryAt? entries place with
    | none => .error .missing
    | some (.file _) => .error .notADirectory
    | some .directory =>
      if component = "" || component = "." then walk entries rest place
      else if component = ".." then
        if place = [] then .error .missing else walk entries rest place.dropLast
      else walk entries rest (place ++ [component])

/-- The directory with the given entries. Nothing outside it can be reached. -/
def ofEntries (entries : List (String × Entry)) : Directory where
  read path :=
    if path = "" || path.toList.head? = some '/' then .error .missing
    else
      match walk (entries.map fun (name, entry) => (components name, entry)) (components path) []
      with
      | .error fault => .error fault
      | .ok (.file bytes) => .ok bytes
      | .ok .directory => .error .isADirectory

end Directory
end LivingDoc
