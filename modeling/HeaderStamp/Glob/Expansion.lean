import HeaderStamp.FileTree.Machine
import HeaderStamp.Glob.Pattern

namespace HeaderStamp

def Folder.depth : Folder → Nat
  | .empty => 0
  | .file _ _ rest => rest.depth
  | .link _ _ rest => rest.depth
  | .folder _ inside rest => max (inside.depth + 1) rest.depth

namespace Glob

structure Search where
  machine : Machine
  foldersOnly : Bool

def Search.names (search : Search) (path : Text) : List Text :=
  match search.machine.node? path with
  | some (.folder inside) => inside.names.mergeSort Text.le
  | _ => []

def Search.isFolder (search : Search) (path : Text) : Bool := search.machine.isFolder path

def Search.finish (search : Search) (path : Text) : List Text :=
  if search.foldersOnly && !search.isFolder path then [] else [path]

def Search.child (path name : Text) : Text :=
  if Path.components path = [.here] then name else Path.append path name

def special : List Text := [['.', '.'], ['.']]

def afterRecursive : List Pattern → List Pattern
  | [] => []
  | pattern :: rest => if isRecursive pattern then afterRecursive rest else pattern :: rest

mutual

def below (search : Search) : Nat → List Pattern → Text → List Text
  | 0, _, _ => []
  | _ + 1, [], _ => []
  | fuel + 1, pattern :: rest, path =>
    let proceed (next : Text) : List Text :=
      if rest = [] then search.finish next else below search fuel rest next
    match literal? pattern with
    | some name =>
      let next := Search.child path name
      let found :=
        if special.contains name then search.isFolder path else search.machine.pathExists next
      if found then proceed next else []
    | none =>
      if search.isFolder path then
        let dots :=
          if pattern.head? = some (.char '.') then special.filter (accepts pattern) else []
        (dots.flatMap fun name ↦ proceed (Path.append path name)) ++
          (search.names path).flatMap fun name ↦
            entry search fuel (pattern :: rest) (Search.child path name)
      else []

def entry (search : Search) : Nat → List Pattern → Text → List Text
  | 0, _, _ => []
  | _ + 1, [], _ => []
  | fuel + 1, pattern :: rest, path =>
    if isRecursive pattern then
      match afterRecursive rest with
      | [] => if search.isFolder path then path :: below search fuel [pattern] path else []
      | next :: more =>
        named search fuel (next :: more) path ++
          (if search.isFolder path then below search fuel (pattern :: next :: more) path else [])
    else named search fuel (pattern :: rest) path

def named (search : Search) : Nat → List Pattern → Text → List Text
  | 0, _, _ => []
  | _ + 1, [], _ => []
  | fuel + 1, pattern :: rest, path =>
    match Path.fileName? path with
    | none => []
    | some name =>
      if !accepts pattern name then []
      else if rest = [] then search.finish path
      else below search fuel rest path

end

def pieces (pattern : Text) : List Text :=
  let steps := if Path.isAbsolute pattern then pattern.tail else pattern
  if steps = [] then [[]]
  else
    let all := Text.split '/' steps
    if all.getLast? = some [] then all.dropLast else all

/-- So many steps are enough, since no path leads through more than the permitted number of links. -/
def patience (machine : Machine) (count : Nat) : Nat :=
  4 * (count + (Machine.linkLimit + 1) * (machine.tree.depth + 2)) + 8

def expand (machine : Machine) (pattern : Text) : Except PatternError (List Text) :=
  match parse pattern with
  | .error e => .error e
  | .ok _ =>
    match (pieces pattern).mapM parse with
    | .error e => .error e
    | .ok steps =>
      let search : Search := ⟨machine, pattern.getLast? = some '/'⟩
      .ok (below search (patience machine steps.length) steps
        (if Path.isAbsolute pattern then ['/'] else ['.']))

end Glob

end HeaderStamp
