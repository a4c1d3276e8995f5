import PrintfLint.Command.Path
import PrintfLint.Text.Quoted

/-!
# PrintfLint.Command.Workspace — files that a check can read

* `ReadFault` — why a file cannot be read;
* `Workspace` — files and directories below the current directory;
* `Workspace.read` — the contents of a file.

A name is followed component by component, and the first one that fails decides on the fault.
-/

namespace PrintfLint.Command

/-- Why a file cannot be read. -/
inductive ReadFault where
  | notFound
  /-- The system refuses, with a number and a reason. -/
  | refused (number : Nat) (reason : String)
  /-- The name holds a character that no file name can hold. -/
  | nullByte
deriving DecidableEq, Repr

namespace ReadFault

/-- A directory has no contents to read. -/
def isDirectory : ReadFault := .refused 21 "Is a directory"

/-- A file has nothing below it. -/
def notDirectory : ReadFault := .refused 20 "Not a directory"

/-- The name, or a component of it, takes too many bytes. -/
def nameTooLong : ReadFault := .refused 36 "File name too long"

end ReadFault

/-- Files and directories, by the components of their names. -/
structure Workspace where
  files : List (List String × ByteArray)
  directories : List (List String)

namespace Workspace

/-- A directory that a name leads to. -/
inductive Place where
  /-- Below the current directory, by components. -/
  | inside (components : List String)
  /-- Some levels above the current directory. -/
  | above (levels : Nat)
  /-- The directory at the root of all names. -/
  | top
deriving DecidableEq, Repr

/-- What a component leads to. -/
inductive Target where
  | directory (place : Place)
  | file (contents : ByteArray)

/-- Is there a directory of this name? The directories above a file or directory exist. -/
def hasDirectory (w : Workspace) (components : List String) : Bool :=
  (w.directories ++ (w.files.map fun f => f.1.dropLast)).any fun d => components.isPrefixOf d

/-- What a component leads to from a directory. Nothing is known outside the current directory but
the directories above it. -/
def enter (w : Workspace) (place : Place) (component : String) : Except ReadFault Target :=
  if component = ".." then
    .ok (.directory (match place with
      | .inside [] => .above 1
      | .inside cs => .inside cs.dropLast
      | .above n => .above (n + 1)
      | .top => .top))
  else if 255 < component.utf8ByteSize then .error .nameTooLong
  else
    match place with
    | .inside cs =>
      let name := cs ++ [component]
      match w.files.lookup name with
      | some contents => .ok (.file contents)
      | none => if w.hasDirectory name then .ok (.directory (.inside name)) else .error .notFound
    | _ => .error .notFound

/-- What components lead to from a directory. -/
def follow (w : Workspace) (place : Place) : List String → Except ReadFault Target
  | [] => .ok (.directory place)
  | c :: cs =>
    match w.enter place c with
    | .error e => .error e
    | .ok (.directory next) => follow w next cs
    | .ok (.file contents) => if cs.isEmpty then .ok (.file contents) else .error .notDirectory

/-- The contents of a file. -/
def read (w : Workspace) (name : String) : Except ReadFault ByteArray :=
  if name.toList.contains '\x00' then .error .nullByte
  else
    let path := Path.ofName name
    if 4095 < path.render.utf8ByteSize then .error .nameTooLong
    else
      match w.follow (if path.root = "" then .inside [] else .top) path.components with
      | .error e => .error e
      | .ok (.directory _) => .error .isDirectory
      | .ok (.file contents) => .ok contents

end Workspace

end PrintfLint.Command
