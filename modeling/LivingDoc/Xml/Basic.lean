/-!
What all readers of XML share: blanks, positions, and the result of reading up to a first fault.

Positions count bytes of UTF-8. A reader knows what is left of its text, so it finds the position
of a place from the size of the whole text and the size of what is left there.
-/

namespace LivingDoc.Xml

/-- The blanks of XML: space, tab, carriage return and line feed. -/
def isBlank (c : Char) : Bool :=
  c = ' ' || c = '\t' || c = '\r' || c = '\n'

/-- The size of a text in bytes. -/
def size (text : List Char) : Nat :=
  text.foldr (fun c rest => c.utf8Size + rest) 0

/-- What was read before the first fault, and the fault if there was one. -/
structure Progress (ε α : Type) where
  items : List α
  fault : Option ε
  deriving DecidableEq, Repr

namespace Progress

/-- Everything has been read. -/
def done {ε α : Type} : Progress ε α := ⟨[], none⟩

/-- Nothing was read before a fault. -/
def failed {ε α : Type} (fault : ε) : Progress ε α := ⟨[], some fault⟩

/-- One more item was read in front. -/
def cons {ε α : Type} (item : α) (progress : Progress ε α) : Progress ε α :=
  ⟨item :: progress.items, progress.fault⟩

end Progress
end LivingDoc.Xml
