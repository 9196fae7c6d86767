/-!
# Data

Settings and addresses are exchanged as data: a few simple values, lists, and records with named
fields.  A structure is read from a record that has all of its fields, whatever other fields it
has, or from a list of exactly its fields in their order.
-/

namespace SemanticMemory

inductive Datum where
  | null
  | truth (value : Bool)
  /-- A number that is written as an integer. -/
  | integer (value : Int)
  /-- A number that is written in any other way. -/
  | decimal
  | text (value : String)
  | list (items : List Datum)
  | record (fields : List (String × Datum))
  deriving Inhabited

namespace Datum

def ofWord (word : UInt16) : Datum :=
  integer word.toNat

def word? : Datum → Option UInt16
  | integer value =>
      if 0 ≤ value ∧ value < 65536 then some (UInt16.ofNat value.toNat) else none
  | _ => none

def text? : Datum → Option String
  | text value => some value
  | _ => none

/-- Reads each of some data, if all of them can be read. -/
def readAll {α : Type} (read : Datum → Option α) : List Datum → Option (List α)
  | [] => some []
  | item :: items => do
      let value ← read item
      let values ← readAll read items
      return value :: values

def texts? : Datum → Option (List String)
  | list items => readAll text? items
  | _ => none

/-- Finds the fields of the given names, if all of them are there. -/
def pick (fields : List (String × Datum)) : List String → Option (List Datum)
  | [] => some []
  | name :: names => do
      let value ← fields.lookup name
      let values ← pick fields names
      return value :: values

/-- The fields of a structure in the order of their names. -/
def fields? (names : List String) : Datum → Option (List Datum)
  | record fields => pick fields names
  | list items => if items.length = names.length then some items else none
  | _ => none

@[simp]
theorem word?_ofWord (word : UInt16) : word? (ofWord word) = some word := by
  have bound := word.toNat_lt
  have inRange : (0 : Int) ≤ word.toNat ∧ (word.toNat : Int) < 65536 := by omega
  simp [word?, ofWord, inRange]

@[simp]
theorem texts?_list (texts : List String) : texts? (list (texts.map text)) = some texts := by
  simp only [texts?]
  induction texts with
  | nil => rfl
  | cons first rest ih => simp [readAll, text?, ih]

end Datum

end SemanticMemory
