import SiteScript.CommandLine.Run

/-!
# A folder of files

`Folder` models the files below one directory and `Folder.access` the access to them, so that runs
of the program can be computed and compared. `Folder.resolve` walks along a path part by part from
the folder, or from the root if the path starts with a slash: empty parts and single dots lead
nowhere else, two dots lead up, and every other part before the last has to name a directory. A
directory exists if a file lies in it. Of what lies elsewhere on the machine only the directories
above the folder, the root and the null device are known.
-/

namespace SiteScript

/-- The files below a directory, each with its path. -/
abbrev Folder := List (String × ByteArray)

namespace Folder

/-! ## Paths -/

/-- Take a text apart at slashes. -/
def split : List Char → List (List Char)
  | [] => [[]]
  | c :: cs =>
    if c = '/' then [] :: split cs
    else
      match split cs with
      | [] => [[c]]
      | part :: parts => (c :: part) :: parts

/-- The parts of a path. -/
def parts (path : String) : List String :=
  (split path.toList).map String.ofList

/-- The path along some names. -/
def join (names : List String) : String :=
  "/".intercalate names

/-- The root, whose path is that of one empty name. -/
def root : List String := [""]

/-- The device that holds nothing and keeps nothing. -/
def nullDevice : List String := root ++ ["dev", "null"]

/-- The directory above one. The root is above itself; to go up from the folder leaves it. -/
def parent (here : List String) : List String :=
  if here = root then root
  else if here.all (· = "..") then here ++ [".."]
  else here.dropLast

/-- The bytes that a name may have at most. -/
def nameLimit : Nat := 255

/-- The bytes that a path may have at most. -/
def pathLimit : Nat := 4095

/-! ## Files -/

/-- The content of a file. -/
def get? (d : Folder) (path : String) : Option ByteArray :=
  d.lookup path

/-- The folder with a file put into it, in place of one with that path. -/
def put (d : Folder) (path : String) (bytes : ByteArray) : Folder :=
  (path, bytes) :: d.filter fun f => f.1 ≠ path

/-- Whether names lead to a directory: the root, the folder, one above it, the one of the null
device, or one with a file in it. -/
def isDirectory (d : Folder) (names : List String) : Bool :=
  names = root || names.all (· = "..") || names = nullDevice.dropLast ||
    d.any fun f => names.isPrefixOf (parts f.1).dropLast

/-- What a path leads to. -/
inductive Place where
  /-- A file, or a place for one. -/
  | file (path : String)
  /-- A name with a slash behind it and no directory of that name: what reading it meets. -/
  | slashed (fault : FileFault)
  | directory
  | null
  | unreachable (fault : FileFault)
deriving DecidableEq, Repr

/-- What a path meets that goes on behind a name in a directory, if the name is no directory's. -/
def faultBehind (d : Folder) (here : List String) (name : String) : FileFault :=
  let there := here ++ [name]
  if nameLimit < name.utf8ByteSize then .nameTooLong
  else if (d.get? (join there)).isSome || there = nullDevice then .notDirectory
  else .notFound

/-- What a path leads to that ends with a name in a directory, if the name is no directory's. -/
def placeOf (here : List String) (name : String) : Place :=
  let there := here ++ [name]
  if nameLimit < name.utf8ByteSize then .unreachable .nameTooLong
  else if there = nullDevice then .null
  else .file (join there)

/-- What the parts of a path lead to from a directory. -/
def walk (d : Folder) (here : List String) : List String → Place
  | [] => .directory
  | part :: rest =>
    if part = "" ∨ part = "." then walk d here rest
    else if part = ".." then walk d (parent here) rest
    else if d.isDirectory (here ++ [part]) then walk d (here ++ [part]) rest
    else if rest.isEmpty then placeOf here part
    else if rest.all (· = "") then .slashed (d.faultBehind here part)
    else .unreachable (d.faultBehind here part)

/-- What a path leads to from a folder. -/
def resolve (d : Folder) (path : String) : Place :=
  if path = "" then .unreachable .notFound
  else if pathLimit < path.utf8ByteSize then .unreachable .nameTooLong
  else d.walk (if (parts path).head? = some "" then root else []) (parts path)

/-- The content of the file that a path leads to. -/
def contents? (d : Folder) (path : String) : Option ByteArray :=
  match d.resolve path with
  | .file path => d.get? path
  | .null => some .empty
  | _ => none

/-- Access to the files of a folder. -/
def access : FileAccess (StateM Folder) where
  read path := do
    let d ← get
    match d.resolve path with
    | .file path =>
      match d.get? path with
      | some bytes => return .ok bytes
      | none => return .error .notFound
    | .null => return .ok .empty
    | .directory => return .error .isDirectory
    | .slashed fault | .unreachable fault => return .error fault
  write path bytes := do
    let d ← get
    match d.resolve path with
    | .file path =>
      set (d.put path bytes)
      return .ok ()
    | .null => return .ok ()
    | .slashed _ | .directory => return .error .isDirectory
    | .unreachable fault => return .error fault

/-- Run the program on a folder; answers its report and the folder after it. -/
def run (d : Folder) (args : List String) : Report × Folder :=
  (Command.runArguments access args).run d

end Folder

end SiteScript
