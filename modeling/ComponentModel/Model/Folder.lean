import ComponentModel.Model.Library

/-!
# Libraries in folders

A folder holds documents and further folders under names. A path leads from a folder to a place
inside it, name by name. The library of a folder holds the documents in it and in all folders
inside it, each under its path. Files whose names do not end in `.json` are left out, and so are
documents that are no models.
-/

namespace ComponentModel

/-- What is stored in a place. -/
inductive Stored where
  | directory
  | text (content : String)
  /-- A file whose bytes are no text. -/
  | binary
  deriving Repr

/-- A place inside a folder: the names that lead to it. The place without names is the folder
itself. -/
abbrev Place := List String

/-- The place that the next part of a path leads to. An empty part and a single dot stay, and a
double dot goes back to the folder around, but not out of the outermost one. -/
def Place.next? (place : Place) (part : String) : Option Place :=
  if part == "" || part == "." then some place
  else if part == ".." then if place.isEmpty then none else some place.dropLast
  else some (place ++ [part])

/-- What is stored in each place. No place occurs twice. -/
abbrev Folder := List (Place × Stored)

namespace Folder

/-- What is stored inside the folder of a place, in places relative to it. -/
def inside (folder : Folder) (place : Place) : Folder :=
  folder.filterMap fun entry =>
    if place.isPrefixOf entry.1 && place.length < entry.1.length then
      some (entry.1.drop place.length, entry.2)
    else
      none

/-- Whether a place is that of a folder. -/
def isDirectory (folder : Folder) (place : Place) : Bool :=
  place.isEmpty || !(folder.inside place).isEmpty ||
    folder.any fun entry => entry.1 == place && entry.2 matches .directory

/-- Whether anything is stored in a place. -/
def holds (folder : Folder) (place : Place) : Bool :=
  folder.isDirectory place || folder.any fun entry => entry.1 == place

/-- Make a place a folder, unless something is stored there already. -/
def create (folder : Folder) (place : Place) : Folder :=
  if folder.holds place then folder else folder ++ [(place, .directory)]

/-- Store something in a place, instead of what is there. -/
def put (folder : Folder) (place : Place) (stored : Stored) : Folder :=
  folder.filter (fun entry => entry.1 != place) ++ [(place, stored)]

/-- Store something under a path, instead of what is there. The folders on the way are created. A
path that leads out of the folder changes nothing. -/
def write (folder : Folder) (path : String) (stored : Stored) : Folder :=
  let reached := (path.splitOn "/").foldlM (fun (folder, place) part => do
    return (folder.create place, ← Place.next? place part)) (folder, ([] : Place))
  match reached with
  | some (folder, place) => folder.put place stored
  | none => folder

/-- The place that a path leads to. Every part of the path, empty ones and dots included, needs a
folder to start from; the place at the end may be empty. -/
def locate? (folder : Folder) (path : String) : Option Place :=
  (path.splitOn "/").foldlM (fun place part =>
    if folder.isDirectory place then Place.next? place part else none) []

/-- Whether a name is that of a document: something in front of `.json`. -/
def isDocumentName (name : String) : Bool :=
  name.endsWith ".json" && name != ".json"

/-- A path behind the path of a folder. A path that begins with a slash stands alone. -/
def joined (folderPath path : String) : String :=
  if path.startsWith "/" then path
  else folderPath ++ (if folderPath.endsWith "/" then "" else "/") ++ path

/-- Put the document of one place into a library, if it is one. `location` is the path of the
folder in messages. -/
def addDocument (location : String) (library : Library) (place : Place) (stored : Stored) :
    Except ModelFault Library :=
  if isDocumentName (place.getLastD "") then
    let url := "/".intercalate place
    match stored with
    | .directory => .ok library
    | .binary => .error (.undecodableFile (joined location url))
    | .text content =>
        match Model.read content with
        | .ok model => .ok (library.add url model)
        | .error _ => .ok library
  else
    .ok library

/-- The library of the folder that a path names inside `folder`. `root` is the path of `folder`
itself in messages. A path that begins with a slash does not start from `folder`, so nothing is
found there. -/
def library (folder : Folder) (root path : String) : Except ModelFault Library :=
  let location := joined root path
  let reached := if path.startsWith "/" then none else folder.locate? path
  match reached.filter folder.holds with
  | none => .error (.missingDirectory location)
  | some place =>
      if folder.isDirectory place then
        (folder.inside place).foldlM
          (fun library entry => addDocument location library entry.1 entry.2) Library.empty
      else
        .error .notADirectory

end Folder

end ComponentModel
