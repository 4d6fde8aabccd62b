import Schemata.Json.Basic

/-!
# Tables of a settings file

A TOML file is put together line by line. Headers open tables, dotted keys open tables of
their own, and a table that was written out at one place must not be continued at another.
-/
namespace Schemata.Toml

/-- How a table came to be: as a part of a header's path, by its own header, by dotted keys,
or within braces. -/
inductive TableKind where
  | implied
  | header
  | dotted
  | inline
deriving DecidableEq

/-- What a key stands for. The content of numbers, truth values and times is not kept. -/
inductive Item where
  | text (value : String)
  | plain
  | time
  | array (items : List Item)
  | table (kind : TableKind) (members : List (String × Item))
  | elements (tables : List (List (String × Item)))

/-- The members of a table in the order in which they were first met. -/
abbrev Table := List (String × Item)

def alter (key : String) (edit : Option Item → Option Item) : Table → Option Table
  | [] => (edit none).map fun item => [(key, item)]
  | member :: rest =>
      if member.1 = key then (edit (some member.2)).map fun item => (key, item) :: rest
      else (alter key edit rest).map (member :: ·)

def alterLast (edit : Table → Option Table) : List Table → Option (List Table)
  | [] => none
  | [last] => (edit last).map ([·])
  | first :: rest => (alterLast edit rest).map (first :: ·)

def putNew (item : Item) : Option Item → Option Item
  | none => some item
  | some _ => none

/-- Changes the table that the path of a header leads to. Tables on the way are opened if they
are not there; of several elements the last one is meant. -/
def within (edit : Table → Option Table) : List String → Table → Option Table
  | [], table => edit table
  | key :: rest, table =>
      alter key (fun
        | none => (within edit rest []).map (.table .implied)
        | some (.table kind members) =>
            if kind = .inline then none else (within edit rest members).map (.table kind)
        | some (.elements tables) => (alterLast (within edit rest) tables).map .elements
        | some _ => none) table

/-- Puts an item under a dotted key. The table that takes it has to be one that dotted keys
opened. On the way to it there may be tables of a header's path and elements, of which the
last one is meant. -/
def putDotted (item : Item) : List String → Table → Option Table
  | [], _ => none
  | [key], table => alter key (putNew item) table
  | key :: rest, table =>
      alter key (fun
        | none => (putDotted item rest []).map (.table .dotted)
        | some (.table .dotted members) => (putDotted item rest members).map (.table .dotted)
        | some (.table .implied members) =>
            if rest.length = 1 then none
            else (putDotted item rest members).map (.table .implied)
        | some (.elements tables) =>
            if rest.length = 1 then none
            else (alterLast (putDotted item rest) tables).map .elements
        | some _ => none) table

/-- Opens the table of a header. A table of a longer header's path may still be opened. -/
def openTable (path : List String) (table : Table) : Option Table :=
  match path.getLast? with
  | none => none
  | some key =>
      within (alter key fun
        | none => some (.table .header [])
        | some (.table .implied members) => some (.table .header members)
        | some _ => none) path.dropLast table

def openElement (path : List String) (table : Table) : Option Table :=
  match path.getLast? with
  | none => none
  | some key =>
      within (alter key fun
        | none => some (.elements [[]])
        | some (.elements tables) => some (.elements (tables ++ [[]]))
        | some _ => none) path.dropLast table

inductive Line where
  | header (path : List String)
  | element (path : List String)
  | entry (key : List String) (item : Item)

/-- A file in the making: its table, and the path of the last header. -/
structure Draft where
  table : Table
  current : List String

def Draft.add (draft : Draft) : Line → Option Draft
  | .header path => (openTable path draft.table).map fun table => ⟨table, path⟩
  | .element path => (openElement path draft.table).map fun table => ⟨table, path⟩
  | .entry key item =>
      (within (putDotted item key) draft.current draft.table).map fun table =>
        { draft with table }

def ofLines? (lines : List Line) : Option Table :=
  (lines.foldlM Draft.add ⟨[], []⟩).map Draft.table

mutual

/-- An item as a JSON value. What is not kept is null, but a time, which has parts, is an
object without any of them. -/
def Item.toJson : Item → Json
  | .text value => .string value
  | .plain => .null
  | .time => .object []
  | .array items => .array (itemsToJson items)
  | .table _ members => .object (membersToJson members)
  | .elements tables => .array (tablesToJson tables)

def itemsToJson : List Item → List Json
  | [] => []
  | item :: rest => item.toJson :: itemsToJson rest

def membersToJson : List (String × Item) → Members
  | [] => []
  | (name, item) :: rest => (name, item.toJson) :: membersToJson rest

def tablesToJson : List (List (String × Item)) → List Json
  | [] => []
  | table :: rest => .object (membersToJson table) :: tablesToJson rest

end

end Schemata.Toml
