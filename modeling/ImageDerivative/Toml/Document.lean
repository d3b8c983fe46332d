import ImageDerivative.Toml.Lexical

/-! TOML documents. Headers and dotted keys build a tree in which each table is
known to have been written out, or only to follow from a longer path; no table is
written out twice, and no key is bound twice. -/
namespace ImageDerivative.Toml

/-- A node of the document under way. -/
inductive Item where
  | value (value : TomlValue)
  /-- A table. It is implicit when only longer paths have named it, and dotted when
  those were keys. -/
  | table (implicit dotted : Bool) (items : List (String × Item))
  /-- The tables of one repeated header. -/
  | tables (elements : List (List (String × Item)))
  deriving Inhabited

abbrev Items := List (String × Item)

mutual

def Item.toValue : Item → TomlValue
  | .value value => value
  | .table _ _ items => .table (toFields items)
  | .tables elements => .array (toElements elements)

def toFields : List (String × Item) → List (String × TomlValue)
  | [] => []
  | (key, item) :: rest => (key, item.toValue) :: toFields rest

def toElements : List (List (String × Item)) → List TomlValue
  | [] => []
  | items :: rest => .table (toFields items) :: toElements rest

end

/-- Changes the items at the end of a path, making implicit tables where there is
nothing. `keys` says that the path is a dotted key, which does not lead through
tables that have been written out. The change is told whether its table is dotted. -/
def changeAt (keys : Bool) (change : (dotted : Bool) → Items → Option Items) :
    (path : List String) → (dotted : Bool) → Items → Option Items
  | [], dotted, items => change dotted items
  | key :: path, _, items => do
    match Dict.get? items key with
    | none => return Dict.put items key (.table true keys (← changeAt keys change path keys []))
    | some (.value _) => none
    | some (.table implicit dotted inner) =>
      if keys && !implicit then none
      else
        let inner ← changeAt keys change path dotted inner
        return Dict.put items key (.table implicit dotted inner)
    | some (.tables elements) =>
      match elements.reverse with
      | [] => none
      | last :: before =>
        let last ← changeAt keys change path false last
        return Dict.put items key (.tables (last :: before).reverse)

/-- Binds a dotted key. Its table is dotted exactly when the key has more than one part. -/
def bind (path : List String) (value : TomlValue) (items : Items) : Option Items :=
  match path.reverse with
  | [] => none
  | key :: above =>
    changeAt true (fun dotted items =>
      if dotted = above.isEmpty || (Dict.get? items key).isSome then none
      else some (Dict.put items key (.value value))) above.reverse false items

def openTable (path : List String) (root : Items) : Option Items :=
  match path.reverse with
  | [] => none
  | key :: above =>
    changeAt false (fun _ items =>
      match Dict.get? items key with
      | none => some (Dict.put items key (.table false false []))
      | some (.table true false inner) => some (Dict.put items key (.table false false inner))
      | some _ => none) above.reverse false root

/-- Writes out one more table under a repeated header. -/
def openElement (path : List String) (root : Items) : Option Items :=
  match path.reverse with
  | [] => none
  | key :: above =>
    changeAt false (fun _ items =>
      match Dict.get? items key with
      | none => some (Dict.put items key (.tables [[]]))
      | some (.tables elements) => some (Dict.put items key (.tables (elements ++ [[]])))
      | some _ => none) above.reverse false root

mutual

/-- A value; `depth` more arrays or tables may be opened. -/
def readValue : (fuel depth : Nat) → Reader TomlValue
  | 0, _, _ => none
  | fuel + 1, depth, cs =>
    match cs with
    | '[' :: rest =>
      if depth = 0 then none
      else do
        let (items, rest) ← readItems fuel (depth - 1) rest
        return (.array items, rest)
    | '\x7b' :: rest =>
      if depth = 0 then none
      else match skipBlanks rest with
        | '\x7d' :: rest => some (.table [], rest)
        | rest => do
          let (items, rest) ← readPairs fuel (depth - 1) [] rest
          return (.table (toFields items), rest)
    | 't' :: 'r' :: 'u' :: 'e' :: rest => some (.boolean true, rest)
    | 'f' :: 'a' :: 'l' :: 's' :: 'e' :: rest => some (.boolean false, rest)
    | '"' :: _ => (readString? cs).map fun (text, rest) => (.string text, rest)
    | '\'' :: _ => (readString? cs).map fun (text, rest) => (.string text, rest)
    | cs => readNumeric? cs

/-- The items of an array up to its bracket; a comma may follow the last one. -/
def readItems : (fuel depth : Nat) → Reader (List TomlValue)
  | 0, _, _ => none
  | fuel + 1, depth, cs =>
    match skipLines (cs.length + 1) cs with
    | ']' :: rest => some ([], rest)
    | cs => do
      let (item, rest) ← readValue fuel depth cs
      match skipLines (rest.length + 1) rest with
      | ',' :: rest =>
        let (items, rest) ← readItems fuel depth rest
        return (item :: items, rest)
      | ']' :: rest => return ([item], rest)
      | _ => none

/-- The pairs of an inline table, of one at least, up to its brace. -/
def readPairs : (fuel depth : Nat) → Items → Reader Items
  | 0, _, _, _ => none
  | fuel + 1, depth, items, cs => do
    let (key, rest) ← readKey? cs
    let rest ← expect? '=' (skipBlanks rest)
    let (value, rest) ← readValue fuel depth (skipBlanks rest)
    let items ← bind key value items
    match skipBlanks rest with
    | ',' :: rest => readPairs fuel depth items rest
    | '\x7d' :: rest => return (items, rest)
    | _ => none

end

/-- A document under way: its tree, and where the keys of the next line go. -/
structure Draft where
  root : Items := []
  path : List String := []

/-- One line, or several where a value spans them. -/
def readLine (draft : Draft) (cs : Chars) : Option (Draft × Chars) := do
  match skipBlanks cs with
  | '[' :: '[' :: rest =>
    let (path, rest) ← readKey? rest
    let rest ← expect? ']' (← expect? ']' rest)
    return ({ root := ← openElement path draft.root, path }, ← endLine? rest)
  | '[' :: rest =>
    let (path, rest) ← readKey? rest
    let rest ← expect? ']' rest
    return ({ root := ← openTable path draft.root, path }, ← endLine? rest)
  | cs =>
    match cs with
    | [] => return (draft, [])
    | c :: _ =>
      if c = '#' ∨ c = '\n' ∨ c = '\r' then return (draft, ← endLine? cs)
      else
        let (key, rest) ← readKey? cs
        let rest ← expect? '=' (skipBlanks rest)
        let (value, rest) ← readValue (2 * rest.length + 2) maxDepth (skipBlanks rest)
        let root ← changeAt false (fun _ items => bind key value items) draft.path false draft.root
        return ({ draft with root }, ← endLine? rest)

/-- All lines; each of them uses up a character at least. -/
def readLines : (fuel : Nat) → Draft → Chars → Option Draft
  | _, draft, [] => some draft
  | 0, _, _ => none
  | fuel + 1, draft, cs => do
    let (draft, rest) ← readLine draft cs
    readLines fuel draft rest

/-- The table that a text is a document of. A byte order mark may begin it. -/
def parse? (source : String) : Option TomlValue := do
  let cs := match source.toList with
    | '\uFEFF' :: rest => rest
    | cs => cs
  let draft ← readLines (cs.length + 1) {} cs
  return .table (toFields draft.root)

end ImageDerivative.Toml
