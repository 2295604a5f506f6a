import AccessControl.Toml.Moment
import AccessControl.Toml.Number
import AccessControl.Toml.Table
import AccessControl.Toml.Text

namespace AccessControl.Toml

mutual

/-- Reads one value. The first argument bounds the steps, the second the nesting. -/
def value : Nat → Nat → Reader Json
  | 0, _ => failure
  | fuel + 1, depth => do
    match ← peek with
    | some '"' | some '\'' => .str <$> text
    | some '[' => do
      takeChar '['
      if depth = 0 then failure
      let items ← arrayItems fuel (depth - 1)
      takeChar ']'
      pure (.arr items)
    | some '\x7b' => do
      takeChar '\x7b'
      if depth = 0 then failure
      let nodes ← inlinePairs fuel (depth - 1) []
      pure (.obj (membersOf nodes))
    | some 't' => do
      takeWord "true"
      pure (.bool true)
    | some 'f' => do
      takeWord "false"
      pure (.bool false)
    | some _ => moment <|> pointNumber <|> specialNumber <|> integer
    | none => failure

/-- Reads the items of an array up to its closing bracket. A comma may follow the last item. -/
def arrayItems : Nat → Nat → Reader (List Json)
  | 0, _ => failure
  | fuel + 1, depth => do
    skipAllLines
    match ← peek with
    | some ']' => pure []
    | _ => do
      let item ← value fuel depth
      skipAllLines
      match ← peek with
      | some ',' => do
        takeChar ','
        let items ← arrayItems fuel depth
        pure (item :: items)
      | _ => pure [item]

/-- Reads the keys and values of an inline table up to its closing brace. It stands on one line, and no comma follows
its last value. -/
def inlinePairs : Nat → Nat → Nodes → Reader Nodes
  | 0, _, _ => failure
  | fuel + 1, depth, nodes => do
    skipBlanks
    match ← peek, nodes with
    | some '\x7d', [] => do
      takeChar '\x7d'
      pure []
    | _, _ => do
      let path ← key
      takeChar '='
      skipBlanks
      let v ← value fuel depth
      let nodes ← nodes.define path v
      skipBlanks
      match ← peek with
      | some ',' => do
        takeChar ','
        inlinePairs fuel depth nodes
      | _ => do
        takeChar '\x7d'
        pure nodes

end

/-- The sections of a document that have been read: all finished ones, and the one that is open. -/
structure Progress where
  root : Nodes
  path : List String
  inArray : Bool
  current : Nodes

namespace Progress

def start : Progress := ⟨[], [], false, []⟩

/-- Closes the open section. -/
def finish (p : Progress) : Option Nodes := p.root.place p.path p.inArray p.current

/-- Closes the open section and opens the one of a header. -/
def openSection (p : Progress) (path : List String) (inArray : Bool) : Option Progress := do
  let root ← p.finish
  pure ⟨root, path, inArray, if inArray then [] else root.childrenAt path⟩

end Progress

/-- Reads a header and opens its section. -/
def header (p : Progress) : Reader Progress := do
  takeChar '['
  let inArray := (← maybe (takeChar '[')).isSome
  let path ← key
  takeWord (if inArray then "]]" else "]")
  restOfLine
  p.openSection path inArray

/-- Reads a key with its value into the open section. -/
def definition (p : Progress) : Reader Progress := do
  let path ← key
  takeChar '='
  skipBlanks
  let v ← value (2 * (← get).length + 2) (depthLimit - 1)
  restOfLine
  let nodes ← p.current.define path v
  pure { p with current := nodes }

/-- Reads the lines of a document. -/
def lines : Nat → Progress → Reader Progress
  | 0, _ => failure
  | fuel + 1, p => do
    skipBlanks
    match ← peek with
    | none => pure p
    | some '#' => do
      comment
      lineEnd
      lines fuel p
    | some '\n' | some '\r' => do
      newline
      lines fuel p
    | some '[' => do
      let p ← header p
      lines fuel p
    | some _ => do
      let p ← definition p
      lines fuel p

/-- The byte order mark that may open a document. -/
def byteOrderMark : Char := '\uFEFF'

/-- Reads a whole document as an object. -/
def read? (source : String) : Option Json := do
  let cs := source.toList
  let cs := if cs.head? = some byteOrderMark then cs.drop 1 else cs
  let (p, rest) ← (lines (cs.length + 1) .start).run cs
  if !rest.isEmpty then none
  let nodes ← p.finish
  pure (.obj (membersOf nodes))

end AccessControl.Toml
