import DesignTokens.Fault
import DesignTokens.OrderedMap

/-!
# Workspaces

The files a program works on, as texts by their paths, seen from a directory. Files in or below that
directory have relative paths and all others absolute ones. A directory exists when it holds a file
or has been made.

Messages show paths without empty segments and without segments that stay where they are. Two slashes
at the start, but not three, differ from one.
-/

namespace DesignTokens

/-! ### Paths -/

namespace PathText

/-- The slashes an absolute path begins with. -/
def root (cs : List Char) : List Char :=
  match cs.takeWhile (· == '/') with
  | [] => []
  | ['/', '/'] => ['/', '/']
  | _ => ['/']

/-- The segments of a path that lead somewhere. -/
def segments (cs : List Char) : List (List Char) :=
  (cs.splitOn '/').filter fun s => !s.isEmpty && s != ['.']

/-- A path in the form in which messages show it. -/
def normal (path : String) : String :=
  let cs := path.toList
  let text := root cs ++ ['/'].intercalate (segments cs)
  if text.isEmpty then "." else String.ofList text

/-- Segments in which a step up takes back the step before it. -/
def withoutSteps (segments : List (List Char)) : List (List Char) :=
  segments.foldl (fun done s => if s = ['.', '.'] then done.dropLast else done ++ [s]) []

/-- The text of segments below a directory, which has none itself. -/
def ofSegments (segments : List (List Char)) : String :=
  if segments.isEmpty then "." else String.ofList (['/'].intercalate segments)

/-- A path begins at the root of all directories. -/
def isAbsolute (path : String) : Bool :=
  path.toList.head? = some '/'

/-- A path seen from a directory, all steps up taken: below the directory without its segments, and
from the root of all directories otherwise. -/
def locate (directory path : String) : String :=
  let home := withoutSteps (segments directory.toList)
  let start := if isAbsolute path then [] else home
  let place := withoutSteps (start ++ segments path.toList)
  if home.isPrefixOf place then ofSegments (place.drop home.length)
  else String.ofList ('/' :: ['/'].intercalate place)

/-- The directory of a path. -/
def parent (path : String) : String :=
  let text := root path.toList ++ ['/'].intercalate (segments path.toList).dropLast
  if text.isEmpty then "." else String.ofList text

/-- A path below a directory. -/
def join (directory path : String) : String :=
  if isAbsolute path then normal path else normal (directory ++ "/" ++ path)

/-- The last segment of a path. -/
def fileName (path : String) : String :=
  String.ofList ((segments path.toList).getLast?.getD [])

/-- A file name without its last extension. A point at the start or at the end begins none. -/
def stem (path : String) : String :=
  let name := (fileName path).toList
  let extension := name.reverse.takeWhile (· != '.')
  let before := name.take (name.length - extension.length - 1)
  if extension.isEmpty || before.isEmpty then String.ofList name else String.ofList before

end PathText

/-! ### Files -/

/-- The files seen from a directory. -/
structure Workspace where
  /-- The absolute path of the directory. -/
  root : String := ""
  files : OrderedMap String := []
  /-- Directories that need not hold a file. -/
  directories : List String := []

namespace Workspace

/-- The path under which a file or directory is kept. -/
def key (w : Workspace) (path : String) : String :=
  PathText.locate w.root path

/-- The absolute path of a file or directory. -/
def absolute (w : Workspace) (path : String) : String :=
  let key := w.key path
  if key = "." then w.root
  else if PathText.isAbsolute key then key
  else w.root ++ "/" ++ key

/-- A path leads into a directory. -/
def isBelow (directory path : String) : Bool :=
  (directory ++ "/").toList.isPrefixOf path.toList

/-- The text of a file as it is stored. -/
def stored? (w : Workspace) (path : String) : Option String :=
  OrderedMap.find? (w.key path) w.files

/-- Whether a file exists. -/
def hasFile (w : Workspace) (path : String) : Bool :=
  (w.stored? path).isSome

/-- Whether a directory exists. -/
def hasDirectory (w : Workspace) (path : String) : Bool :=
  let key := w.key path
  key = "." || (w.files.keys ++ w.directories).any (isBelow key) || w.directories.contains key

/-- Whether a file or a directory exists. -/
def has (w : Workspace) (path : String) : Bool :=
  w.hasFile path || w.hasDirectory path

/-- A path leads through a file. -/
def isThroughFile (w : Workspace) (path : String) : Bool :=
  w.files.keys.any fun file => isBelow file (w.key path)

/-- Why there is nothing at a path. -/
def absence (w : Workspace) (path : String) : FileProblem :=
  if w.isThroughFile path then .notDirectory else .missing

/-- Characters with all line ends made line feeds. -/
def uniformLines : List Char → List Char
  | '\r' :: '\n' :: rest => '\n' :: uniformLines rest
  | '\r' :: rest => '\n' :: uniformLines rest
  | c :: rest => c :: uniformLines rest
  | [] => []

/-- The text of a file with uniform line ends. -/
def read (w : Workspace) (path : String) : Except Fault String :=
  match w.stored? path with
  | some text => .ok (String.ofList (uniformLines text.toList))
  | none => .error (.file (if w.hasDirectory path then .isDirectory else w.absence path))

/-- Stores the text of a file, whatever directories it needs. -/
def store (w : Workspace) (path text : String) : Workspace :=
  { w with files := OrderedMap.set (w.key path) text w.files }

/-- Stores the text of a file in a directory that has to exist. -/
def write (w : Workspace) (path text : String) : Except Fault Workspace :=
  if w.hasDirectory path then .error (.file .isDirectory)
  else if w.hasDirectory (PathText.parent path) then .ok (w.store path text)
  else .error (.file (w.absence path))

/-- Makes a directory and all it lies in, as far as they do not exist. -/
def makeDirectory (w : Workspace) (path : String) : Except Fault Workspace :=
  if w.hasDirectory path then .ok w
  else if w.hasFile path then .error (.file .occupied)
  else if w.isThroughFile path then .error (.file .notDirectory)
  else .ok { w with directories := w.directories ++ [w.key path] }

end Workspace

end DesignTokens
