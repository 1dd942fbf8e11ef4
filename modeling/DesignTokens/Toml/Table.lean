import DesignTokens.Json.Basic

/-!
# Tables under construction

The tables of a TOML file are built up statement by statement. Each table remembers how it came to
be, as this decides which later statements may add to it; what stands on the right of an equals sign
is closed for good.
-/

namespace DesignTokens.Toml

/-- How a table came to be. -/
inductive Opening where
  /-- It holds a table with a header of its own. -/
  | implied
  /-- By a dotted key in the section with this number; it is open in that section only. -/
  | dotted (number : Nat)
  /-- By a header of its own. -/
  | declared
deriving DecidableEq, Repr

/-- What a key stands for. -/
inductive Node where
  | value (value : Json)
  | table (opening : Opening) (fields : List (String × Node))
  /-- A list of tables, of which the last one is open. -/
  | tables (closed : List Json) (fields : List (String × Node))

/-- The keys of a table and what they stand for. -/
abbrev Table := List (String × Node)

mutual

/-- A node as plain data. -/
def Node.toJson : Node → Json
  | .value v => v
  | .table _ fields => .object (fieldsToJson fields)
  | .tables closed fields => .list (closed ++ [.object (fieldsToJson fields)])

/-- The fields of a table as plain data. -/
def fieldsToJson : List (String × Node) → List (String × Json)
  | [] => []
  | (key, node) :: rest => (key, node.toJson) :: fieldsToJson rest

end

namespace Table

/-- A table as plain data. -/
def toJson (t : Table) : Json :=
  .object (fieldsToJson t)

/-- Changes what a key stands for; the change may be refused. -/
def alter (key : String) (change : Option Node → Option Node) (t : Table) : Option Table :=
  (change (OrderedMap.find? key t)).map fun node => OrderedMap.set key node t

/-- Changes the table at a path. Tables on the way that do not exist are implied; of a list of tables
the last one is meant. -/
def within (path : List String) (change : Table → Option Table) (t : Table) : Option Table :=
  match path with
  | [] => change t
  | key :: rest => t.alter key fun node => match node with
    | none => (within rest change []).map (.table .implied)
    | some (.table opening fields) => (within rest change fields).map (.table opening)
    | some (.tables closed fields) => (within rest change fields).map (.tables closed)
    | some (.value _) => none

/-- Declares a table by its header, which is possible once. -/
def declare (key : String) : Table → Option Table :=
  alter key fun node => match node with
    | none => some (.table .declared [])
    | some (.table .implied fields) => some (.table .declared fields)
    | _ => none

/-- Adds an empty table to a list of tables. -/
def append (key : String) : Table → Option Table :=
  alter key fun node => match node with
    | none => some (.tables [] [])
    | some (.tables closed fields) => some (.tables (closed ++ [.object (fieldsToJson fields)]) [])
    | _ => none

/-- Stores a value under a dotted key that does not exist yet. -/
def insert (number : Nat) (value : Json) : List String → Table → Option Table
  | [], _ => none
  | [key], t => t.alter key fun node => match node with
    | none => some (.value value)
    | some _ => none
  | key :: rest, t => t.alter key fun node => match node with
    | none => (insert number value rest []).map (.table (.dotted number))
    | some (.table .implied fields) =>
      (insert number value rest fields).map (.table (.dotted number))
    | some (.table (.dotted n) fields) =>
      if n = number then (insert number value rest fields).map (.table (.dotted n)) else none
    | _ => none

end Table

end DesignTokens.Toml
