import ContingentPlan.OsText

/-!
Paths. A path has a head, which is a slash, a dot or nothing, and pieces between slashes; empty pieces
and dots among them do not count. Paths are cut and joined without a look at files.
-/

namespace ContingentPlan.Path

def slash : UInt8 := 0x2F

def dot : UInt8 := 0x2E

def splitSlash : List UInt8 → List (List UInt8)
  | [] => [[]]
  | byte :: rest =>
      if byte = slash then [] :: splitSlash rest
      else match splitSlash rest with
        | [] => [[byte]]
        | piece :: pieces => (byte :: piece) :: pieces

def joinSlash (pieces : List (List UInt8)) : List UInt8 := [slash].intercalate pieces

def cutHead : List UInt8 → List UInt8 × List UInt8
  | [] => ([], [])
  | first :: rest =>
      if first = slash then ([slash], rest)
      else if first = dot ∧ (rest = [] ∨ rest.head? = some slash) then ([dot], rest)
      else ([], first :: rest)

def isIdle (piece : List UInt8) : Bool := piece == [] || piece == [dot]

/-- The head of a path with the pieces of its body, last one first, from the last that counts. -/
def cutBack (path : List UInt8) : List UInt8 × List (List UInt8) :=
  let (head, body) := cutHead path
  (head, (splitSlash body).reverse.dropWhile isIdle)

def components (path : OsText) : List OsText :=
  let (head, body) := cutHead path.bytes
  ((if head = [] then [] else [head]) ++ (splitSlash body).filter (!isIdle ·)).map OsText.mk

def parent? (path : OsText) : Option OsText :=
  match cutBack path.bytes with
  | (head, []) => if head = [dot] then some ⟨[]⟩ else none
  | (head, _ :: earlier) => some ⟨head ++ joinSlash (earlier.dropWhile isIdle).reverse⟩

def fileName? (path : OsText) : Option OsText :=
  match cutBack path.bytes with
  | (_, []) => none
  | (_, name :: _) => if name = [dot, dot] then none else some ⟨name⟩

def isAbsolute (path : OsText) : Bool := path.bytes.head? == some slash

def join (base part : OsText) : OsText :=
  if isAbsolute part then part
  else if base.bytes = [] ∨ base.bytes.getLast? = some slash then ⟨base.bytes ++ part.bytes⟩
  else ⟨base.bytes ++ slash :: part.bytes⟩

/-- What stands behind the last dot of the file name, unless that dot begins the name. -/
def extension? (path : OsText) : Option OsText :=
  match fileName? path with
  | none => none
  | some name =>
      let bytes := name.bytes.reverse
      match bytes.dropWhile (· ≠ dot) with
      | [] => none
      | [_] => none
      | _ => some ⟨(bytes.takeWhile (· ≠ dot)).reverse⟩

end ContingentPlan.Path
