import Jukebox.Decimal.Binary64

/-!
# TOML values and the tree they grow in

`Toml` is a finished value. While a document is read, its tables are `Node`s, which remember how a
table came about: a table may get its header once, a table that dotted keys have made gets none,
and values written in one piece are closed.

`insert` and `declare` are the only ways in which a tree grows; each refuses what would define a
key twice.
-/

set_option autoImplicit false
set_option relaxedAutoImplicit false

namespace Jukebox

inductive Toml where
  | string (s : String)
  | integer (n : Int)
  | float (x : Decimal.Binary64)
  | bool (b : Bool)
  /-- A date, a time of day or both, as written. -/
  | moment (text : String)
  | array (elements : List Toml)
  | table (members : List (String × Toml))

namespace Toml

/-- How a table came about. -/
inductive Origin where
  /-- It has a header of its own. -/
  | header
  /-- It lies on the way to the header of another table. -/
  | implied
  /-- It lies on the way of a dotted key. -/
  | dotted
  deriving DecidableEq

inductive Node where
  /-- A value in one piece. -/
  | value (v : Toml)
  | table (origin : Origin) (members : List (String × Node))
  /-- Tables under one name, each with a header; the last one still grows. -/
  | tables (elements : List (List (String × Node)))

/-- Members of a table that is still growing. -/
abbrev Members := List (String × Node)

namespace Members

/-- The members with the node under `key` changed; `change` is given the old node, if any. -/
def update (key : String) (change : Option Node → Option Node) : Members → Option Members
  | [] => (change none).map fun n ↦ [(key, n)]
  | (k, n) :: rest =>
    if k = key then (change (some n)).map fun n ↦ (k, n) :: rest
    else (update key change rest).map ((k, n) :: ·)

/-- Changes the last of some tables. -/
def updateLast (change : Members → Option Members) : List Members → Option (List Members)
  | [] => none
  | [last] => (change last).map fun m ↦ [m]
  | m :: rest => (updateLast change rest).map (m :: ·)

/-- Goes through the tables on the way of a header and changes the members it arrives at. -/
def descend (change : Members → Option Members) : List String → Members → Option Members
  | [], members => change members
  | key :: path, members => members.update key fun
    | none => (descend change path []).map (.table .implied)
    | some (.table origin inner) => (descend change path inner).map (.table origin)
    | some (.tables elements) => (updateLast (descend change path) elements).map .tables
    | some (.value _) => none

/--
Puts a value under a dotted key. The key goes through tables that have no header of their own; the
table that takes the value must have come about by dotted keys.
-/
def insert (v : Toml) : List String → Members → Option Members
  | [], _ => none
  | [key], members => members.update key fun
    | none => some (.value v)
    | some _ => none
  | key :: path, members => members.update key fun
    | none => (insert v path []).map (.table .dotted)
    | some (.table .dotted inner) => (insert v path inner).map (.table .dotted)
    | some (.table .implied inner) =>
      if path.length = 1 then none else (insert v path inner).map (.table .implied)
    | some (.tables elements) =>
      if path.length = 1 then none else (updateLast (insert v path) elements).map .tables
    | some _ => none

/-- Gives a table its header. -/
def declare (key : String) (members : Members) : Option Members :=
  members.update key fun
    | none => some (.table .header [])
    | some (.table .implied inner) => some (.table .header inner)
    | some _ => none

/-- Begins the next table under a name. -/
def declareNext (key : String) (members : Members) : Option Members :=
  members.update key fun
    | none => some (.tables [[]])
    | some (.tables elements) => some (.tables (elements ++ [[]]))
    | some _ => none

end Members

mutual

/-- The value that a node has become. -/
def Node.close : Node → Toml
  | .value v => v
  | .table _ members => .table (closeMembers members)
  | .tables elements => .array (closeTables elements)

def closeMembers : List (String × Node) → List (String × Toml)
  | [] => []
  | (k, n) :: rest => (k, n.close) :: closeMembers rest

def closeTables : List (List (String × Node)) → List Toml
  | [] => []
  | members :: rest => .table (closeMembers members) :: closeTables rest

end

end Toml

end Jukebox
