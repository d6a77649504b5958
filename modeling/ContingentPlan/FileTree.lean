import ContingentPlan.Catalog
import ContingentPlan.Fault
import ContingentPlan.FreshName
import ContingentPlan.Path
import ContingentPlan.Table

/-!
A tree of files and directories with the operations that read and write plans. A path leads through
directories only, from the root or from the working directory. An operation that fails changes no
file, though it may leave directories that it has made on its way.
-/

namespace ContingentPlan

abbrev Location := List OsText

inductive Entry
  | directory
  | file (content : ByteArray)

instance : DecidableEq Entry
  | .directory, .directory => isTrue rfl
  | .directory, .file _ => isFalse nofun
  | .file _, .directory => isFalse nofun
  | .file left, .file right =>
      @decidable_of_iff _ (left = right) ⟨congrArg Entry.file, Entry.file.inj⟩
        (ByteArray.instDecidableEq left right)

structure FileTree where
  entries : Table Location Entry := ∅
  workingDirectory : Location := []
deriving DecidableEq

namespace FileTree

def entry? (tree : FileTree) (location : Location) : Option Entry :=
  if location = [] then some .directory else tree.entries.find? location

def put (tree : FileTree) (location : Location) (entry : Entry) : FileTree :=
  { tree with entries := tree.entries.insert location entry }

def erase (tree : FileTree) (location : Location) : FileTree :=
  { tree with entries := tree.entries.erase location }

def pieces (path : OsText) : List OsText := (Path.splitSlash path.bytes).map OsText.mk

def start (tree : FileTree) (path : OsText) : Location :=
  if Path.isAbsolute path then [] else tree.workingDirectory

def upward : OsText where
  bytes := [Path.dot, Path.dot]

def step (current : Location) (piece : OsText) : Location :=
  if Path.isIdle piece.bytes then current
  else if piece = upward then current.dropLast
  else current ++ [piece]

def walk (tree : FileTree) (current : Location) : List OsText → Except FileFault Location
  | [] => .ok current
  | piece :: rest =>
      match tree.entry? current with
      | none => .error .notFound
      | some (.file _) => .error .notDirectory
      | some .directory => tree.walk (step current piece) rest

def locate (tree : FileTree) (path : OsText) : Except FileFault Location :=
  if path.bytes = [] then .error .notFound else tree.walk (tree.start path) (pieces path)

def isDirectory (tree : FileTree) (path : OsText) : Bool :=
  match tree.locate path with
  | .ok location => tree.entry? location == some .directory
  | .error _ => false

def freshName (tree : FileTree) (directory : Location) : OsText :=
  OsText.ofText (firstAdmissible
    (fun name => (tree.entry? (directory ++ [OsText.ofText name])).isNone)
    (fun number => s!".unfinished-{number}") tree.entries.entries.length 0)

/-- What a tree does not show of the system behind it: the steps that it refuses, for want of room or of
rights, and the names that it gives to temporary files. -/
structure System where
  refusesReading : OsText → Option FileFault := fun _ => none
  refusesDirectory : OsText → Option FileFault := fun _ => none
  refusesTemporary : Option FileFault := none
  refusesOpening : Option FileFault := none
  refusesContent : Option FileFault := none
  refusesMove : Option FileFault := none
  temporaryName : FileTree → Location → OsText := freshName

def read (tree : FileTree) (path : OsText) (system : System := {}) : Except FileFault String := do
  match system.refusesReading path with
  | some fault => throw fault
  | none =>
      match tree.entry? (← tree.locate path) with
      | none => throw .notFound
      | some .directory => throw .isDirectory
      | some (.file content) =>
          match String.fromUTF8? content with
          | none => throw .notText
          | some text => return text

def load {α : Type} (tree : FileTree) (path : OsText) (make : String → Except PlanFault α)
    (system : System := {}) : Except PlanFault α :=
  match tree.read path system with
  | .ok text => make text
  | .error fault => .error (.file path fault)

inductive Target
  | place (location : Location) (slashed : Bool)
  | nameless

def target (tree : FileTree) (path : OsText) : Except FileFault Target := do
  if path.bytes = [] then throw .notFound
  match (pieces path).reverse.span (·.bytes = []) with
  | (_, []) => return .nameless
  | (slashes, last :: earlier) =>
      let directory ← tree.walk (tree.start path) (earlier.reverse ++ [⟨[]⟩])
      if last.bytes = [Path.dot] ∨ last = upward then return .nameless
      return .place (directory ++ [last]) (!slashes.isEmpty)

def makeDirectory (tree : FileTree) (path : OsText) (system : System := {}) :
    Except FileFault FileTree := do
  match system.refusesDirectory path with
  | some fault => throw fault
  | none =>
      match ← tree.target path with
      | .nameless => throw .alreadyExists
      | .place location _ =>
          if (tree.entry? location).isSome then throw .alreadyExists
          return tree.put location .directory

def ancestors : (bound : Nat) → OsText → List OsText
  | 0, _ => []
  | bound + 1, path =>
      if path.bytes = [] then []
      else match Path.parent? path with
        | none => [path]
        | some parent => path :: ancestors bound parent

/-- Makes the first of the directories, and before it those behind it that are missing. -/
def makeMissing (tree : FileTree) (system : System) : List OsText → FileTree × Option FileFault
  | [] => (tree, none)
  | path :: parents =>
      match tree.makeDirectory path system with
      | .ok tree => (tree, none)
      | .error .notFound =>
          match tree.makeMissing system parents with
          | (tree, some fault) => (tree, some fault)
          | (tree, none) =>
              match tree.makeDirectory path system with
              | .ok tree => (tree, none)
              | .error fault => (tree, if tree.isDirectory path then none else some fault)
      | .error fault => (tree, if tree.isDirectory path then none else some fault)

def makeDirectories (tree : FileTree) (path : OsText) (system : System := {}) :
    FileTree × Option FileFault :=
  tree.makeMissing system (ancestors path.bytes.length path)

def filePlace (tree : FileTree) (path : OsText) : Except FileFault Location := do
  match ← tree.target path with
  | .nameless => throw .isDirectory
  | .place location slashed =>
      if slashed ∨ tree.entry? location = some .directory then throw .isDirectory
      return location

/-- Writes a file in its place. It is emptied first, and stays so if its content is refused. -/
def overwrite (tree : FileTree) (path : OsText) (content : ByteArray) (system : System := {}) :
    FileTree × Option FileFault :=
  match system.refusesOpening, tree.filePlace path with
  | some fault, _ => (tree, some fault)
  | none, .error fault => (tree, some fault)
  | none, .ok location =>
      match system.refusesContent with
      | some fault => (tree.put location (.file .empty), some fault)
      | none => (tree.put location (.file content), none)

def unlessStopped {ε : Type} : FileTree × Option ε → Except ε FileTree
  | (tree, none) => .ok tree
  | (_, some fault) => .error fault

def write (tree : FileTree) (path : OsText) (content : ByteArray) : Except FileFault FileTree :=
  unlessStopped (tree.overwrite path content)

def move (tree : FileTree) (source : Location) (content : ByteArray) (path : OsText)
    (system : System := {}) : Except FileFault FileTree := do
  match system.refusesMove with
  | some fault => throw fault
  | none =>
      match ← tree.target path with
      | .nameless => throw .busy
      | .place location slashed =>
          if slashed then throw .notDirectory
          if tree.entry? location = some .directory then throw .isDirectory
          return (tree.erase source).put location (.file content)

def temporaryPlace (tree : FileTree) (directory : OsText) (system : System) :
    Except FileFault Location := do
  let location ← tree.locate directory
  match system.refusesTemporary with
  | some fault => throw fault
  | none => return location ++ [system.temporaryName tree location]

def parentDirectory (path : OsText) : OsText :=
  match Path.parent? path with
  | none => ⟨[Path.dot]⟩
  | some parent => if parent.bytes = [] then ⟨[Path.dot]⟩ else parent

/-- Writes a file beside its place and then moves it there, so that the place holds either its
former content or all of the new one. Missing directories are made before, and a temporary file that
cannot be filled or moved is erased. -/
def writeAtomically (tree : FileTree) (path : OsText) (content : ByteArray) (system : System := {}) :
    FileTree × Option PlanFault :=
  let parent := parentDirectory path
  match tree.makeDirectories parent system with
  | (tree, some fault) => (tree, some (.file parent fault))
  | (tree, none) =>
      match tree.temporaryPlace parent system with
      | .error fault => (tree, some (.file parent fault))
      | .ok temporary =>
          match system.refusesContent with
          | some fault =>
              ((tree.put temporary (.file .empty)).erase temporary, some (.file path fault))
          | none =>
              let staged := tree.put temporary (.file content)
              match staged.move temporary content path system with
              | .ok tree => (tree, none)
              | .error fault => (staged.erase temporary, some (.file path fault))

def files (tree : FileTree) : Catalog ByteArray :=
  tree.entries.entries.foldl
    (fun files entry =>
      match entry with
      | (location, .file content) =>
          if tree.workingDirectory.isPrefixOf location then
            files.insert
              ("/".intercalate ((location.drop tree.workingDirectory.length).map OsText.lossy)) content
          else files
      | (_, .directory) => files)
    ∅

end FileTree

end ContingentPlan
