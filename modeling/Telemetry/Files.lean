/-!
# Reading files

What can go wrong when a file is read, and the few rules for paths that decide it. A directory is
given as the list of the files in it and around it.

A path is a list of steps between slashes, walked from the directory, or from the root if the path
begins with a slash. An empty step and `.` stay where they are, `..` goes up, and anything else goes
down to what has that name. Each step but the last has to end in a directory, so the order of the
steps decides which of several mistakes is reported.
-/

namespace Telemetry

/-- Why a file could not be read or written. -/
inductive FileError where
  /-- there is no such file, or no such directory on the way to it -/
  | notFound
  /-- the file is a directory -/
  | isDirectory
  /-- what should be a directory is a file -/
  | notDirectory
  /-- access is denied -/
  | denied
  /-- a step of the path, or the whole path, is too long -/
  | nameTooLong
  /-- the path holds the character that ends paths -/
  | nulInName
  /-- the file holds no text -/
  | notText
  /-- anything else, as the system describes it -/
  | other (reason : String)
  deriving DecidableEq, Repr, Inhabited

namespace FileError

/-- The text of an error: what the system says and the number it has for it. -/
def message : FileError → String
  | notFound => "No such file or directory (os error 2)"
  | isDirectory => "Is a directory (os error 21)"
  | notDirectory => "Not a directory (os error 20)"
  | denied => "Permission denied (os error 13)"
  | nameTooLong => "File name too long (os error 36)"
  | nulInName => "file name contained an unexpected NUL byte"
  | notText => "stream did not contain valid UTF-8"
  | other reason => reason

end FileError

/-! ## Places -/

/-- A place: the steps that lead there without a detour. -/
structure Place where
  /-- whether the steps start at the root, and not at the directory -/
  fromRoot : Bool
  /-- steps up and then steps down; the root has nothing above it -/
  steps : List String
  deriving DecidableEq, Repr

namespace Place

/-- The place where the walk along a path starts. -/
def start (path : String) : Place :=
  { fromRoot := path.startsWith "/", steps := [] }

/-- The place above. -/
def up (p : Place) : Place :=
  match p.steps.getLast? with
  | none => if p.fromRoot then p else { p with steps := [".."] }
  | some ".." => { p with steps := p.steps ++ [".."] }
  | some _ => { p with steps := p.steps.dropLast }

/-- The place of a name below. -/
def down (p : Place) (name : String) : Place :=
  { p with steps := p.steps ++ [name] }

/-- Going down to a name and up again leads back. -/
theorem up_down (p : Place) (name : String) (h : name ≠ "..") : (p.down name).up = p := by
  simp [up, down]

/-- Whether a place is the start of the walk, or above it. -/
def isAncestor (p : Place) : Bool := p.steps.all (· == "..")

/-- Whether a place lies below another. -/
def isBelow (p q : Place) : Bool :=
  p.fromRoot == q.fromRoot && q.steps.isPrefixOf p.steps && q.steps.length < p.steps.length

end Place

/-- The steps of a path. -/
def pathSteps (path : String) : List String := path.splitOn "/"

/-- The place that a path names if every name on the way is a directory. -/
def Place.ofPath (path : String) : Place :=
  (pathSteps path).foldl (fun place step =>
    if step == "" || step == "." then place
    else if step == ".." then place.up
    else place.down step) (.start path)

/-! ## Directories -/

/-- The files of one directory, and those around it. -/
structure Directory where
  /-- places and contents -/
  files : List (Place × ByteArray) := []
  /-- the length in bytes of what is put before a path to walk it from this directory -/
  pathBytes : Nat := 0

/-- What is at the end of a path. -/
inductive Target where
  | directory
  | file (place : Place) (content : ByteArray)
  /-- nothing yet, but there could be a file -/
  | vacant (place : Place)

namespace Directory

/-- The directory that holds files, which are given by path. -/
def ofList (files : List (String × ByteArray)) : Directory :=
  { files := files.map fun (path, content) => (.ofPath path, content) }

/-- The length in bytes that a name must not exceed. -/
def nameLimit : Nat := 255

/-- The length in bytes that a path must not reach. -/
def pathLimit : Nat := 4096

/-- What a file holds. -/
def content? (d : Directory) (place : Place) : Option ByteArray :=
  (d.files.find? (·.1 == place)).map (·.2)

/-- Whether there is a directory. -/
def hasDirectory (d : Directory) (place : Place) : Bool :=
  place.isAncestor || d.files.any fun (file, _) => file.isBelow place

/-- Walk on from a directory. -/
def walk (d : Directory) (here : Place) : List String → Except FileError Target
  | [] => .ok .directory
  | step :: rest =>
    if step == "" || step == "." then d.walk here rest
    else if step == ".." then d.walk here.up rest
    else if nameLimit < step.utf8ByteSize then .error .nameTooLong
    else
      let place := here.down step
      match d.content? place with
      | some content => if rest.isEmpty then .ok (.file place content) else .error .notDirectory
      | none =>
        if d.hasDirectory place then d.walk place rest
        else if rest.isEmpty then .ok (.vacant place)
        else .error .notFound

/-- Whether a path can be walked at all. -/
def checkPath (d : Directory) (path : String) : Except FileError Unit :=
  let before := if path.startsWith "/" then 0 else d.pathBytes
  if path.any (· == Char.ofNat 0) then .error .nulInName
  else if pathLimit ≤ before + path.utf8ByteSize then .error .nameTooLong
  else .ok ()

/-- The contents of a file. -/
def read (d : Directory) (path : String) : Except FileError ByteArray := do
  d.checkPath path
  match ← d.walk (.start path) (pathSteps path) with
  | .directory => .error .isDirectory
  | .file _ content => .ok content
  | .vacant _ => .error .notFound

/-- The steps by which something at the end of a path is made. A path that ends with a slash can
only make a directory, so that all that matters is the directory it would be in. -/
def stepsToMake (path : String) : List String :=
  if path.endsWith "/" then ((pathSteps path).reverse.dropWhile (· == "")).tail.reverse ++ ["."]
  else pathSteps path

/-- Add to the end of a file, which is made if it is missing. -/
def append (d : Directory) (path : String) (content : ByteArray) :
    Except FileError Directory := do
  d.checkPath path
  match ← d.walk (.start path) (stepsToMake path) with
  | .directory => .error .isDirectory
  | .vacant place => .ok { d with files := d.files ++ [(place, content)] }
  | .file place _ =>
    .ok { d with files := d.files.map fun (other, old) =>
      if other == place then (other, old ++ content) else (other, old) }

end Directory

/-- The text in the contents of a file. -/
def textOfFile (content : ByteArray) : Except FileError String :=
  match String.fromUTF8? content with
  | some text => .ok text
  | none => .error .notText

end Telemetry
