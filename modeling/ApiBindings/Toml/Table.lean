import ApiBindings.Toml.Value

/-!
# Tables from statements

A document is a list of statements about paths.  Tables come to be by a header of their own, by
being on the path of another header, or by being on the path of a dotted key, and this decides which
of them later statements may add to.
-/

namespace ApiBindings.Toml

/-- How a table came to be. -/
inductive Origin where
  /-- By its own header. -/
  | header
  /-- On the path of the header of another table. -/
  | way
  /-- On the path of a dotted key. -/
  | dotted
  deriving DecidableEq, Repr

/-- What a key of a table stands for while a document is read. -/
inductive Node where
  /-- A value that is complete. -/
  | value (value : Value)
  | table (origin : Origin) (entries : List (String × Node))
  /-- Tables with one header each, the last first. -/
  | tables (last : List (String × Node)) (before : List (List (String × Node)))

/-- The entries of a table. -/
abbrev Entries := List (String × Node)

/-- A value to be given to the path of a key. -/
structure Assignment where
  way : List String
  key : String
  value : Value

/-- A header: the table that the assignments after it belong to. -/
structure Header where
  way : List String
  key : String
  /-- Whether it stands for one more table of several. -/
  repeats : Bool

/-- A header and the assignments up to the next one. -/
structure Section where
  header : Header
  assignments : List Assignment

namespace Entries

/-- Put a node at a key, in place of what is there. -/
def set (key : String) (node : Node) : Entries → Entries
  | [] => [(key, node)]
  | (other, old) :: rest =>
      if other == key then (key, node) :: rest else (other, old) :: set key node rest

/-- Change the table at the end of a way of headers. Tables that are missing come to be; of several
tables the last one is meant. -/
def changeAt? (change : Entries → Option Entries) : List String → Entries → Option Entries
  | [], entries => change entries
  | key :: way, entries => do
      match List.lookup key entries with
      | none => return set key (.table .way (← changeAt? change way [])) entries
      | some (.table origin inner) =>
          return set key (.table origin (← changeAt? change way inner)) entries
      | some (.tables last before) =>
          return set key (.tables (← changeAt? change way last) before) entries
      | some (.value _) => none

/-- Give a new key a value. -/
def add? (key : String) (value : Value) (entries : Entries) : Option Entries :=
  match List.lookup key entries with
  | none => some (set key (.value value) entries)
  | some _ => none

/-- Give a value to a dotted key. On its way there may only be tables that come from dotted keys,
and before the last of them tables on the way of a header. -/
def assign? (key : String) (value : Value) : List String → Entries → Option Entries
  | [], entries => add? key value entries
  | first :: way, entries => do
      match List.lookup first entries with
      | none => return set first (.table .dotted (← assign? key value way [])) entries
      | some (.table .dotted inner) =>
          return set first (.table .dotted (← assign? key value way inner)) entries
      | some (.table .way inner) =>
          if way.isEmpty then none
          else return set first (.table .way (← assign? key value way inner)) entries
      | some (.tables last before) =>
          if way.isEmpty then none
          else return set first (.tables (← assign? key value way last) before) entries
      | some (.table .header _) | some (.value _) => none

/-- Carry out assignments. -/
def assignAll? (assignments : List Assignment) (entries : Entries) : Option Entries :=
  assignments.foldlM (fun entries a => assign? a.key a.value a.way entries) entries

/-- Open the table of a header next to its siblings and fill it. A table may have one header, which
may come after those of tables inside of it. -/
def fill? (key : String) (repeats : Bool) (assignments : List Assignment) (siblings : Entries) :
    Option Entries := do
  match repeats, List.lookup key siblings with
  | false, none => return set key (.table .header (← assignAll? assignments [])) siblings
  | false, some (.table .way inner) =>
      return set key (.table .header (← assignAll? assignments inner)) siblings
  | true, none => return set key (.tables (← assignAll? assignments []) []) siblings
  | true, some (.tables last before) =>
      return set key (.tables (← assignAll? assignments []) (last :: before)) siblings
  | _, _ => none

/-- Carry out a section. -/
def addSection? (entries : Entries) (part : Section) : Option Entries :=
  changeAt? (fill? part.header.key part.header.repeats part.assignments) part.header.way entries

end Entries

mutual

/-- The value of a node. -/
def Node.toValue : Node → Value
  | .value value => value
  | .table _ entries => .table (entriesToValues entries)
  | .tables last before => .array (rowsToValues before [.table (entriesToValues last)])

/-- The values of a table. -/
def entriesToValues : List (String × Node) → List (String × Value)
  | [] => []
  | (key, node) :: rest => (key, node.toValue) :: entriesToValues rest

/-- The values of several tables, the last of them first, in front of others. -/
def rowsToValues : List (List (String × Node)) → List Value → List Value
  | [], after => after
  | row :: before, after => rowsToValues before (.table (entriesToValues row) :: after)

end

/-- The table that assignments alone make. -/
def tableOf? (assignments : List Assignment) : Option Value :=
  (Entries.assignAll? assignments []).map fun entries => .table (entriesToValues entries)

/-- The entries of a whole document. -/
def documentOf? (assignments : List Assignment) (sections : List Section) :
    Option (List (String × Value)) := do
  let entries ← Entries.assignAll? assignments []
  return entriesToValues (← sections.foldlM Entries.addSection? entries)

end ApiBindings.Toml
