/-! Paths as text: names separated by slashes. Repeated and trailing slashes and
single dots say nothing, except that a path may begin with one dot. -/
namespace ImageDerivative

abbrev Path := String

namespace Path

inductive Component where
  | root
  | current
  | parent
  | name (text : String)
  deriving DecidableEq, Repr

def Component.name? : Component → Option String
  | name text => some text
  | _ => none

def pieces (path : Path) : List String := (path.split '/').toList.map (·.toString)

def isAbsolute (path : Path) : Bool := path.startsWith "/"

/-- A dot is kept only where a relative path begins with it. -/
def components (path : Path) : List Component :=
  let all := pieces path
  let rest := all.filterMap fun piece =>
    if piece = "" ∨ piece = "." then none
    else if piece = ".." then some .parent
    else some (.name piece)
  if isAbsolute path then .root :: rest
  else if all.head? = some "." then .current :: rest
  else rest

def Component.text : Component → String
  | root => ""
  | current => "."
  | parent => ".."
  | name text => text

/-- The pieces that a path is followed by, without those that say nothing. -/
def steps (path : Path) : List String := (components path).map Component.text

/-- The path of the directory that a path names an entry of. -/
def parent (path : Path) : Path := String.intercalate "/" (steps path).dropLast

/-- Two spellings of one path. -/
def same (a b : Path) : Bool := components a = components b

/-- The last component, if it is a name. -/
def fileName? (path : Path) : Option String := (components path).getLast?.bind Component.name?

/-- What follows the last dot of a name. A dot that begins the name does not count. -/
def extensionOfName? (name : String) : Option String :=
  let cs := name.toList.reverse
  let after := cs.takeWhile (· ≠ '.')
  match cs.drop (after.length + 1) with
  | [] => none
  | _ => some (String.ofList after.reverse)

def extension? (path : Path) : Option String := (fileName? path).bind extensionOfName?

def lowerExtension (path : Path) : String := ((extension? path).getD "").toLower

/-- `name` inside the directory `dir`. -/
def join (dir name : Path) : Path :=
  if isAbsolute name || dir.isEmpty then name
  else if dir.endsWith "/" then dir ++ name
  else dir ++ "/" ++ name

end Path

end ImageDerivative
