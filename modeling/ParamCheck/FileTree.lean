/-!
# File trees

Files and directories as data: a file is its text, and a directory holds what is in it in the order
of the names. A route is the list of names that leads to a file or a directory; `FileTree.find`
follows one and tells a missing name from a file on the way.
-/

namespace ParamCheck

/-- A file or a directory. -/
inductive FileTree where
  | file (text : String)
  /-- What is in a directory, in the order of the names. -/
  | directory (entries : List (String × FileTree))
  deriving Inhabited

/-- The names that lead to a file or a directory. The name `/` stands for the top of all
directories. -/
abbrev Route := List String

/-- Why a route leads nowhere. -/
inductive FileTree.Lost where
  | missing
  /-- The route goes on after a file. -/
  | throughFile
  deriving DecidableEq, Repr

namespace Route

/-- The names in a text, with those that are empty or a single point. -/
def spelled (text : String) : Route :=
  match text.toList with
  | '/' :: cs => "/" :: (cs.splitOn '/').map String.ofList
  | cs => (cs.splitOn '/').map String.ofList

/-- The route that a text describes. -/
def ofText (text : String) : Route := (spelled text).filter fun name => name ≠ "" ∧ name ≠ "."

/-- The text of a route. -/
def text : Route → String
  | [] => "."
  | "/" :: names => "/" ++ "/".intercalate names
  | names => "/".intercalate names

/-- The last name of a route, empty if there is none. -/
def name (r : Route) : String :=
  match r.getLast? with
  | some "/" | none => ""
  | some name => name

/-- Split a name before its last point, if the point is neither first nor last. -/
def splitName (name : String) : String × String :=
  let cs := name.toList
  let after := (cs.reverse.takeWhile (· ≠ '.')).length
  let before := cs.length - (after + 1)
  if after < cs.length ∧ 0 < before ∧ 0 < after then
    (String.ofList (cs.take before), String.ofList (cs.drop before))
  else (name, "")

/-- The last name without its ending. -/
def stem (r : Route) : String := (splitName r.name).1

/-- The ending of the last name, with its point. -/
def ending (r : Route) : String := (splitName r.name).2

end Route

namespace FileTree

/-- Follow a route; the directories that have been passed are at hand, the nearest one first. Where
a directory has no entry for its parent, that is the directory passed before it. -/
def find (t : FileTree) (r : Route) : Except Lost FileTree := walk [] t r
where
  /-- Follow the rest of a route. -/
  walk : List FileTree → FileTree → Route → Except Lost FileTree
    | _, here, [] => .ok here
    | _, file _, _ :: _ => .error .throughFile
    | passed, directory entries, name :: rest =>
      if name = "" ∨ name = "." then walk passed (directory entries) rest
      else
        match entries.lookup name, passed with
        | some next, _ => walk (directory entries :: passed) next rest
        | none, parent :: passed =>
          if name = ".." then walk passed parent rest else .error .missing
        | none, [] => .error .missing

/-- Whether a text leads to something. -/
def reaches (t : FileTree) (text : String) : Bool :=
  text ≠ "" && (t.find (Route.spelled text)).isOk

/-- What is in a directory. -/
def entries : FileTree → List (String × FileTree)
  | file _ => []
  | directory entries => entries

/-- Change what a name stands for, which is an empty directory if it is new. -/
def alter (name : String) (f : FileTree → FileTree) :
    List (String × FileTree) → List (String × FileTree)
  | [] => [(name, f (directory []))]
  | (other, t) :: rest =>
    if name = other then (name, f t) :: rest
    else if name < other then (name, f (directory [])) :: (other, t) :: rest
    else (other, t) :: alter name f rest

/-- Put a file with the given text, or else a directory, at a route. -/
def put (text? : Option String) : Route → FileTree → FileTree
  | [], t =>
    match text? with
    | some text => file text
    | none => directory t.entries
  | name :: rest, t => directory (alter name (put text? rest) t.entries)

/-- The directory with the given files and directories. -/
def ofList (files : List (String × Option String)) : FileTree :=
  files.foldl (fun t (path, text?) => t.put text? (Route.ofText path)) (directory [])

end FileTree

end ParamCheck
