import TypeSchema.Dict
import TypeSchema.Names
import TypeSchema.Text.Split

/-!
# File trees

The files that a command can see, by their places.  A place is a list of names, starting in the
working directory; `..` at its front leads out of that directory, and a slash as its first name
leads to the root of all files.
-/

namespace TypeSchema

abbrev Place := List String

namespace Place

def components (path : String) : List String :=
  let (first, others) := Text.split '/' path.toList
  (first :: others).map String.ofList

def start (path : String) : Place := if path.startsWith "/" then ["/"] else []

/-- One step up; above the working directory every step counts, above the root none. -/
def up (place : Place) : Place :=
  match place.reverse with
  | [] => [".."]
  | ".." :: _ => place ++ [".."]
  | ["/"] => place
  | _ :: rest => rest.reverse

/-- Names and paths are limited in bytes; a path counts with a byte for its end. -/
def maxNameLength : Nat := 255

def maxPathLength : Nat := 4096

def isTooLong (name : String) : Bool := decide (maxNameLength < name.utf8ByteSize)

/-- The place that a path names, whether there is anything or not. -/
def ofPath (path : String) : Place :=
  (components path).foldl (fun place name =>
    if name = "" ∨ name = "." then place
    else if name = ".." then place.up
    else place ++ [name]) (start path)

def isOutermost (place : Place) : Bool := place.all (· == "..") || place == ["/"]

def text (place : Place) : String :=
  match place with
  | "/" :: rest => "/" ++ "/".intercalate rest
  | place => "/".intercalate place

end Place

inductive FileError where
  | missing
  | exists
  | notDirectory
  | isDirectory
  | nameTooLong
  | nullCharacter
  deriving DecidableEq

def FileError.message : FileError → String
  | .missing => "No such file or directory (os error 2)"
  | .exists => "File exists (os error 17)"
  | .notDirectory => "Not a directory (os error 20)"
  | .isDirectory => "Is a directory (os error 21)"
  | .nameTooLong => "File name too long (os error 36)"
  | .nullCharacter => "file name contained an unexpected NUL byte"

structure Files where
  contents : Dict Place String
  /-- Directories that may hold no file. -/
  directories : List Place

namespace Files

def empty : Files := ⟨Dict.empty, []⟩

def addFile (files : Files) (path content : String) : Files :=
  { files with contents := files.contents.insert (Place.ofPath path) content }

def addDirectory (files : Files) (path : String) : Files :=
  { files with directories := files.directories ++ [Place.ofPath path] }

def ofList (files : List (String × String)) : Files :=
  files.foldl (fun files file => files.addFile file.1 file.2) empty

def isFile (files : Files) (place : Place) : Bool := files.contents.contains place

def isDirectory (files : Files) (place : Place) : Bool :=
  place.isOutermost || place ∈ files.directories ||
    files.contents.keys.any fun file => place.isPrefixOf file && place ≠ file

/-- Where a path leads; every name but the last must be that of a directory. -/
def walk (files : Files) (place : Place) : List String → Except FileError Place
  | [] => .ok place
  | name :: rest =>
    if files.isDirectory place then
      if name = "" ∨ name = "." then walk files place rest
      else if name = ".." then walk files place.up rest
      else if Place.isTooLong name then .error .nameTooLong
      else walk files (place ++ [name]) rest
    else .error (if files.isFile place then .notDirectory else .missing)

def pathError (path : String) : Option FileError :=
  if path.contains '\x00' then some .nullCharacter
  else if path = "" then some .missing
  else if path.utf8ByteSize ≥ Place.maxPathLength then some .nameTooLong
  else none

def resolve (files : Files) (path : String) : Except FileError Place :=
  match pathError path with
  | some error => .error error
  | none => do
    let place ← files.walk (Place.start path) (Place.components path)
    if files.isFile place || files.isDirectory place then return place else throw .missing

def isDirectoryPath (files : Files) (path : String) : Bool :=
  match files.resolve path with
  | .ok place => files.isDirectory place
  | .error _ => false

def read (files : Files) (path : String) : Except FileError String := do
  let place ← files.resolve path
  match files.contents.find? place with
  | some content => return content
  | none => throw .isDirectory

def children (files : Files) (place : Place) : List String :=
  Names.ofList ((files.contents.keys ++ files.directories).filterMap fun file =>
    if place.isPrefixOf file then file[place.length]? else none)

/-! ## Writing -/

def createDirectories (files : Files) (place : Place) : List String →
    Except FileError (Files × Place)
  | [] => .ok (files, place)
  | name :: rest =>
    if name = ".." then createDirectories files place.up rest
    else
      let place := place ++ [name]
      if Place.isTooLong name then .error .nameTooLong
      else if files.isFile place then .error (if rest.isEmpty then .exists else .notDirectory)
      else if files.isDirectory place then createDirectories files place rest
      else createDirectories { files with directories := files.directories ++ [place] } place rest

/-- A path that ends in a slash, or in a point after one, can only be that of a directory. -/
def namesDirectory (path : String) : Bool :=
  match (Place.components path).reverse with
  | last :: _ :: _ => last = "" ∨ last = "."
  | _ => false

def write (files : Files) (path content : String) : Except FileError Files := do
  let names := (Place.components path).filter fun name => name ≠ "" ∧ name ≠ "."
  match names.reverse with
  | [] => throw (if path = "" then .missing else .isDirectory)
  | last :: above =>
    if above.any (·.contains '\x00') then throw .nullCharacter
    let (files, place) ← files.createDirectories (Place.start path) above.reverse
    if let some error := pathError path then throw error
    if last = ".." then throw .isDirectory
    let target := place ++ [last]
    if Place.isTooLong last then throw .nameTooLong
    else if files.isDirectory target then throw .isDirectory
    else if namesDirectory path then
      throw (if files.isFile target then .notDirectory
        else if path.endsWith "/" then .isDirectory
        else .missing)
    else return { files with contents := files.contents.insert target content }

/-- The files of a later tree that are new or have other contents, by their paths. -/
def changes (files later : Files) : List (String × String) :=
  let changed := later.contents.entries.filter fun file =>
    files.contents.find? file.1 ≠ some file.2
  (changed.map fun file => (Place.text file.1, file.2)).mergeSort fun a b => decide (a.1 ≤ b.1)

end Files

end TypeSchema
