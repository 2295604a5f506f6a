import AccessControl.Json

namespace AccessControl.Toml

/-- How a table came to be: by a header of its own, by the header of a table inside it, or by the dots of a key. -/
inductive TableKind
  | explicit | implied | dotted
  deriving DecidableEq, Repr

/-- What a key of a document stands for: a value, a table that can still grow, or an array of tables. -/
inductive Node
  | value (v : Json)
  | table (kind : TableKind) (nodes : List (String × Node))
  | tables (elements : List (List (String × Node)))

abbrev Nodes := List (String × Node)

namespace Nodes

/-- Sets the node of a key. -/
def put (nodes : Nodes) (key : String) (node : Node) : Nodes :=
  if (nodes.lookup key).isSome then nodes.map fun e => if e.1 = key then (key, node) else e
  else nodes ++ [(key, node)]

/-- Changes the table at a path, making the tables on the way that are missing. The path of a header leads through
every table and into the last table of an array; the dots of a key lead neither into values nor into tables that
have a header of their own. -/
def changeAt (dots : Bool) (change : TableKind → Nodes → Option Nodes) :
    List String → TableKind → Nodes → Option Nodes
  | [], kind, nodes => change kind nodes
  | key :: path, _, nodes =>
    match nodes.lookup key with
    | none => do
      let kind := if dots then .dotted else .implied
      let inner ← changeAt dots change path kind []
      pure (nodes.put key (.table kind inner))
    | some (.value _) => none
    | some (.tables elements) =>
      match elements.getLast? with
      | none => none
      | some last => do
        let inner ← changeAt dots change path .explicit last
        pure (nodes.put key (.tables (elements.dropLast ++ [inner])))
    | some (.table kind inner) =>
      if dots && kind == .explicit then none
      else do
        let inner ← changeAt dots change path kind inner
        pure (nodes.put key (.table kind inner))

/-- Sets a key to a value. The key must be new, and dots may only extend tables that dots have made. -/
def define (nodes : Nodes) (path : List String) (v : Json) : Option Nodes :=
  match path.getLast? with
  | none => none
  | some key =>
    let parents := path.dropLast
    changeAt true (fun kind inner =>
      if (kind == .dotted) == parents.isEmpty then none
      else if (inner.lookup key).isSome then none
      else some (inner ++ [(key, .value v)])) parents .explicit nodes

/-- What a header finds: the tables inside a table that has had no header yet. -/
def childrenAt : List String → Nodes → Nodes
  | [], _ => []
  | key :: path, nodes =>
    match nodes.lookup key, path with
    | some (.table .implied inner), [] => inner
    | some (.table _ inner), _ => childrenAt path inner
    | some (.tables elements), _ => childrenAt path (elements.getLast?.getD [])
    | _, _ => []

/-- Puts the table of a finished section in its place. A table may have one header; a table in an array is appended
to the array. -/
def place (root : Nodes) (path : List String) (inArray : Bool) (inner : Nodes) : Option Nodes :=
  match path.getLast? with
  | none => some inner
  | some key =>
    changeAt false (fun _ nodes =>
      match nodes.lookup key, inArray with
      | none, true => some (nodes.put key (.tables [inner]))
      | some (.tables elements), true => some (nodes.put key (.tables (elements ++ [inner])))
      | none, false => some (nodes.put key (.table .explicit inner))
      | some (.table .implied _), false => some (nodes.put key (.table .explicit inner))
      | _, _ => none) path.dropLast .explicit root

end Nodes

mutual

/-- The value of a node. -/
def Node.toJson : Node → Json
  | .value v => v
  | .table _ nodes => .obj (membersOf nodes)
  | .tables elements => .arr (objectsOf elements)

/-- The members of a table, in ascending order of their names. -/
def membersOf : List (String × Node) → List (String × Json)
  | [] => []
  | (key, node) :: rest => insertSorted key node.toJson (membersOf rest)

def objectsOf : List (List (String × Node)) → List Json
  | [] => []
  | nodes :: rest => .obj (membersOf nodes) :: objectsOf rest

end

end AccessControl.Toml
