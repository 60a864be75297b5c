import ScriptLiterals.Text.Basic

/-!
Values of a TOML document. Floats and times are kept as they are written: nothing here computes with
them.

Main statement: what is set in a table is found there, and nothing else changes (`find?_set`).
-/

namespace ScriptLiterals.Toml

abbrev Key := List Text

inductive Value
  | text (content : Text)
  | integer (value : Int)
  | boolean (value : Bool)
  | float (written : Text)
  | moment (written : Text)
  | array (items : List Value)
  | table (entries : List (Text × Value))

abbrev Table := List (Text × Value)

namespace Table

def find? (table : Table) (name : Text) : Option Value :=
  (List.find? (fun entry => entry.1 = name) table).map (·.2)

def set (name : Text) (value : Value) : Table → Table
  | [] => [(name, value)]
  | (other, old) :: rest =>
    if name = other then (other, value) :: rest else (other, old) :: set name value rest

theorem find?_set (table : Table) (name other : Text) (value : Value) :
    find? (set name value table) other =
      if other = name then some value else find? table other := by
  induction table with
  | nil => by_cases h : name = other <;> simp [set, find?, h, eq_comm]
  | cons entry rest ih =>
    obtain ⟨first, old⟩ := entry
    simp only [find?] at ih ⊢
    unfold set
    split
    · next h =>
      subst h
      by_cases h : name = other <;> simp [h, eq_comm]
    · next h =>
      by_cases h' : first = other
      · have : other ≠ name := h' ▸ Ne.symm h
        simp [h', this]
      · simp [h', ih]

/-- Changes the table behind a key, with the tables on the way made as needed. If `throughArrays`,
an array on the way stands for its last item. There is no table behind the key if something else is
in the way. -/
def update (throughArrays : Bool) (change : Table → Option Table) : Key → Table → Option Table
  | [], table => change table
  | name :: key, table =>
    match table.find? name with
    | none => (update throughArrays change key []).map fun inner => table.set name (.table inner)
    | some (.table inner) =>
      (update throughArrays change key inner).map fun inner => table.set name (.table inner)
    | some (.array items) =>
      match throughArrays, items.getLast? with
      | true, some (.table inner) =>
        (update throughArrays change key inner).map fun inner =>
          table.set name (.array (items.dropLast ++ [.table inner]))
      | _, _ => none
    | some _ => none

def add? (name : Text) (value : Value) (table : Table) : Option Table :=
  match table.find? name with
  | none => some (table.set name value)
  | some _ => none

def append? (name : Text) (table : Table) : Option Table :=
  match table.find? name with
  | none => some (table.set name (.array [.table []]))
  | some (.array items) => some (table.set name (.array (items ++ [.table []])))
  | some _ => none

end Table

namespace Value

def text? : Value → Option Text
  | text content => some content
  | _ => none

def boolean? : Value → Option Bool
  | boolean value => some value
  | _ => none

/-- A boolean counts as the integer 0 or 1. -/
def integer? : Value → Option Int
  | integer value => some value
  | boolean value => some (if value then 1 else 0)
  | _ => none

def table? : Value → Option Table
  | table entries => some entries
  | _ => none

end Value
end ScriptLiterals.Toml
