import ParamCheck.FileTree
import ParamCheck.Profile

/-!
# Profiles from documents

A profile can be written down as a document with a section of fields and a section of mixins.
`Profile.ofDocument` takes a document that has been read, and `Profile.load` a file, or all files of
a directory in the order of their names. What reads a file is up to the program.
-/

namespace ParamCheck

/-- What reads the text of a document. -/
abbrev Reader := String → Except Fault Value

namespace Profile

/-- The sections of a document. -/
def sectionNames : List String := ["fields", "mixins"]

/-- The keys of a document that are no sections. -/
def unsupported (data : Entries Value) : List Value :=
  data.keys.filter fun key => !sectionNames.any fun name => key.same (.str name)

/-- The texts of keys, in order. -/
def keyTexts (keys : List Value) : Except Fault (List String) :=
  return (← keys.mapM Value.write).mergeSort fun a b => a ≤ b

/-- The entries of a section, none if the section is missing or empty. -/
def sectionEntries (source : String) (data : Entries Value) (name : String) :
    Except Fault (Entries Value) :=
  match (data.lookup (.str name)).getD .null with
  | .dict entries => .ok entries
  | v => if v.truthy then .error (.sectionNotMapping source name) else .ok []

/-- Make a declaration as it stands in a section: the name counts as a text, and nothing as no
directives. -/
def declareEntry (define : Profile → Value → Value → Except Fault Profile) (p : Profile)
    (name spec : Value) : Except Fault Profile := do
  define p (.str (← name.write)) (match spec with | .null => .dict [] | spec => spec)

/-- A profile with everything declared, or the fault of what could not be. -/
def complete : Profile × Option Fault → Except Fault Profile
  | (p, none) => .ok p
  | (_, some e) => .error e

/-- The profile that the sections of a document declare. -/
def ofSections (source : String) (data : Entries Value) : Except Fault Profile := do
  let others ← keyTexts (unsupported data)
  if !others.isEmpty then throw (.unsupportedKeys source others)
  let fields ← sectionEntries source data "fields"
  let p ←
    complete (defineAll (declareEntry defineField) fields { name := (Route.ofText source).stem })
  let mixins ← sectionEntries source data "mixins"
  complete (defineAll (declareEntry defineMixin) mixins p)

/-- The profile that a document declares. An empty document declares nothing. -/
def ofDocument (source : String) (document : Value) : Except Fault Profile :=
  match document with
  | .null => ofSections source []
  | .dict data => ofSections source data
  | _ => .error (.profileNotMapping source)

/-- Whether a directory lists a file as part of a profile. -/
def isPart (name : String) : Bool :=
  ".yaml".toList.isSuffixOf name.toList || ".yml".toList.isSuffixOf name.toList

/-- The profile with the declarations of a file added. -/
def adding (p : Profile) (file : Route) (other : Profile) : Journaled Profile :=
  match p.update other with
  | (p, none) => return p
  | (_, some e) => throw (.inFile file.text e)

variable (read : Reader)

/-- The profile of a file or of a directory. -/
def loadTree (route : Route) : FileTree → Journaled Profile
  | .file text => do
    let document ← read text
    Journaled.note (.loadedProfile route.text)
    ofDocument route.text document
  | .directory entries => loadEntries route entries { name := route.name }
where
  /-- The profile with the declarations of the files of a directory added. -/
  loadEntries (route : Route) : List (String × FileTree) → Profile → Journaled Profile
    | [], p => return p
    | (name, t) :: rest, p => do
      if isPart name then
        let other ← loadTree (route ++ [name]) t
        loadEntries route rest (← p.adding (route ++ [name]) other)
      else loadEntries route rest p

/-- The fault of opening what a route does not lead to. -/
def lost : FileTree.Lost → Fault
  | .missing => .missingFile
  | .throughFile => .notDirectory

/-- The profile that a file, or all files of a directory, declare. -/
def load (files : FileTree) (path : String) : Journaled Profile :=
  match files.find (Route.ofText path) with
  | .ok t => loadTree read (Route.ofText path) t
  | .error e => throw (lost e)

/-- The profile that all files of a directory declare, an empty one if there is no such
directory. -/
def loadDirectory (files : FileTree) (path : String) : Journaled Profile :=
  let route := Route.ofText path
  match files.find route with
  | .ok (.directory entries) => loadTree read route (.directory entries)
  | _ => return { name := route.name }

end Profile

end ParamCheck
