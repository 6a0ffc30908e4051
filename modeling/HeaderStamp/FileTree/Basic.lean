import HeaderStamp.Text.Utf8

namespace HeaderStamp

/-- The entries of a directory, in the order in which they were made. -/
inductive Folder
  | empty
  | file (name : Text) (bytes : Bytes) (rest : Folder)
  | link (name target : Text) (rest : Folder)
  | folder (name : Text) (inside rest : Folder)
deriving DecidableEq, Repr

inductive Node
  | file (bytes : Bytes)
  | link (target : Text)
  | folder (inside : Folder)
deriving DecidableEq, Repr

/-- The names on the way from the root directory. -/
abbrev Location := List Text

namespace Folder

def find? (name : Text) : Folder → Option Node
  | .empty => none
  | .file n bytes rest => if n = name then some (.file bytes) else rest.find? name
  | .link n target rest => if n = name then some (.link target) else rest.find? name
  | .folder n inside rest => if n = name then some (.folder inside) else rest.find? name

/-- The node at a location, links on the way not followed. -/
def at? (root : Folder) : Location → Option Node
  | [] => some (.folder root)
  | name :: below =>
    match root.find? name with
    | some (.folder inside) => inside.at? below
    | some node => if below = [] then some node else none
    | none => none

def cons (name : Text) : Node → Folder → Folder
  | .file bytes, rest => .file name bytes rest
  | .link target, rest => .link name target rest
  | .folder inside, rest => .folder name inside rest

def put (name : Text) (node : Node) : Folder → Folder
  | .empty => cons name node .empty
  | .file n bytes rest =>
    if n = name then cons name node rest else .file n bytes (rest.put name node)
  | .link n target rest =>
    if n = name then cons name node rest else .link n target (rest.put name node)
  | .folder n inside rest =>
    if n = name then cons name node rest else .folder n inside (rest.put name node)

/-- The tree with the node at this location. Nothing happens where the folder of it is missing. -/
def putAt (node : Node) : Location → Folder → Folder
  | [], root => root
  | [name], root => root.put name node
  | name :: next :: below, root =>
    match root.find? name with
    | some (.folder inside) => root.put name (.folder (putAt node (next :: below) inside))
    | _ => root

def entries : Folder → List (Text × Node)
  | .empty => []
  | .file n bytes rest => (n, .file bytes) :: rest.entries
  | .link n target rest => (n, .link target) :: rest.entries
  | .folder n inside rest => (n, .folder inside) :: rest.entries

def names (folder : Folder) : List Text := folder.entries.map Prod.fst

end Folder

inductive PathFault
  | notFound
  | notDirectory
  | isDirectory
  | tooManyLinks
deriving DecidableEq, Repr

def PathFault.message : PathFault → Text
  | .notFound => "No such file or directory (os error 2)".toList
  | .notDirectory => "Not a directory (os error 20)".toList
  | .isDirectory => "Is a directory (os error 21)".toList
  | .tooManyLinks => "Too many levels of symbolic links (os error 40)".toList

inductive TextFault
  | path (fault : PathFault)
  | encoding (fault : Utf8.Fault)
deriving DecidableEq, Repr

end HeaderStamp
