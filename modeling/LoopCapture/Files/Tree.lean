import LoopCapture.Files.Fault
import LoopCapture.Files.Path

/-!
Trees of files held in memory.

The tree is the directory that relative paths start from. Outside of it are the directories that
every system has, without files except for the null device, and what is written there is not kept.
-/

set_option autoImplicit false

namespace LoopCapture

structure FileTree where
  directories : List (List String)
  files : List (List String × List UInt8)

namespace FileTree

def empty : FileTree := ⟨[], []⟩

def isDirectory (tree : FileTree) (names : List String) : Bool :=
  names.isEmpty || tree.directories.any names.isPrefixOf ||
    tree.files.any fun (file, _) => names.isPrefixOf file && names != file

def bytes? (tree : FileTree) (names : List String) : Option (List UInt8) :=
  tree.files.lookup names

def put (tree : FileTree) (names : List String) (bytes : List UInt8) : FileTree :=
  let known := tree.files.any fun (file, _) => file == names
  { tree with
    files :=
      if known then
        tree.files.map fun (file, old) => (file, if file == names then bytes else old)
      else tree.files ++ [(names, bytes)] }

inductive Spot where
  | file (names : List String) (bytes : List UInt8)
  | directory
  /-- A name that is free in a directory of the tree. -/
  | free (names : List String)
  /-- A name that is free in a directory outside of the tree. -/
  | outside
  /-- The device that holds nothing and keeps nothing. -/
  | null

inductive Directory where
  | inside (names : List String)
  /-- A directory that the tree lies in. -/
  | above
  | absolute (names : List String)

def Directory.parent : Directory → Directory
  | .inside [] => .above
  | .inside names => .inside names.dropLast
  | .above => .above
  | .absolute names => .absolute names.dropLast

def nameLimit : Nat := 255

def pathLimit : Nat := 4095

def rootDirectories : List String :=
  ["bin", "dev", "etc", "home", "lib", "opt", "proc", "root", "run", "sbin", "sys", "tmp", "usr", "var"]

/-- What a name means in a directory: another directory, or what the path leads to if it ends
there. -/
def step (tree : FileTree) (name : String) : Directory → Directory ⊕ Spot
  | .inside names =>
    let next := names ++ [name]
    match tree.bytes? next with
    | some bytes => .inr (.file next bytes)
    | none => if tree.isDirectory next then .inl (.inside next) else .inr (.free next)
  | .above => .inr .outside
  | .absolute [] => if rootDirectories.contains name then .inl (.absolute [name]) else .inr .outside
  | .absolute names => .inr (if names = ["dev"] && name = "null" then .null else .outside)

/-- Why a path cannot go on from a spot that is no directory. -/
def Spot.barrier : Spot → FileFault
  | .file _ _ => .notDirectory
  | .null => .notDirectory
  | _ => .missing

def follow (tree : FileTree) (here : Directory) : List String → Except FileFault Spot
  | [] => .ok .directory
  | ".." :: rest => follow tree here.parent rest
  | name :: rest =>
    if nameLimit < name.utf8ByteSize then .error .nameTooLong
    else match tree.step name here with
      | .inl next => follow tree next rest
      | .inr spot => if rest.isEmpty then .ok spot else .error spot.barrier

def spot (tree : FileTree) (path : Path) : Except FileFault Spot :=
  if path.text.contains '\x00' then .error .nulInPath
  else if pathLimit < path.text.utf8ByteSize then .error .nameTooLong
  else tree.follow (if path.root.isEmpty then .inside [] else .absolute []) path.names

def read (tree : FileTree) (path : Path) : FileContents := do
  match ← tree.spot path with
  | .file _ bytes => return bytes
  | .directory => .error .isDirectory
  | .free _ => .error .missing
  | .outside => .error .missing
  | .null => return []

def write (tree : FileTree) (path : Path) (text : String) : Except FileFault FileTree := do
  let bytes := text.toUTF8.toList
  match ← tree.spot path with
  | .file names _ => return tree.put names bytes
  | .directory => .error .isDirectory
  | .free names => return tree.put names bytes
  | .outside => return tree
  | .null => return tree

def changes (before after : FileTree) : List (List String × List UInt8) :=
  after.files.filter fun (file, bytes) => before.bytes? file != some bytes

end FileTree

end LoopCapture
