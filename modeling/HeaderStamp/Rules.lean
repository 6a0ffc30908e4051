import HeaderStamp.Config.Error
import HeaderStamp.Header.Block
import HeaderStamp.Paths

namespace HeaderStamp

structure DirectoryRule where
  directory : Text
  component : Text
  usage : Text
  notes : Text
deriving DecidableEq, Repr

namespace DirectoryRule

def fallback (component usage notes : Text) : DirectoryRule := ⟨[], component, usage, notes⟩

def covers (rule : DirectoryRule) (path : Text) : Bool :=
  match Text.dropStart? rule.directory path with
  | none => false
  | some [] => true
  | some (c :: _) => c = '/'

def metadata (rule : DirectoryRule) : Metadata where
  directory? := if rule.directory = [] then none else some rule.directory
  component := rule.component
  usage := rule.usage
  notes := rule.notes

/-- The later of two rules, unless the earlier one has the longer directory. -/
def deeper : Option DirectoryRule → DirectoryRule → Option DirectoryRule
  | none, rule => some rule
  | some best, rule =>
    if rule.directory.length < best.directory.length then some best else some rule

end DirectoryRule

structure RuleTable where
  rules : List DirectoryRule
  fallback : DirectoryRule
deriving DecidableEq, Repr

namespace RuleTable

/-- The normal form of a directory: no blanks around it, forward slashes, no `./` in front and no
slash at either end. -/
def normalize (directory : Text) : Text :=
  let slashed := Text.replaceChar '\\' ['/'] (Text.trim directory)
  let inner := (Text.dropLeadingPairs '.' '/' slashed).dropWhile (· = '/')
  (inner.reverse.dropWhile (· = '/')).reverse

/-- Rules brought to their normal form after rules whose normal and written directories are given.
An empty directory and a second spelling of one directory are refused. -/
def normalizeFrom (seen : List (Text × Text)) :
    List DirectoryRule → Except ConfigError (List DirectoryRule)
  | [] => .ok []
  | rule :: rules =>
    let directory := normalize rule.directory
    if directory = [] then
      .error (.invalidRule rule.directory "prefix cannot be empty".toList)
    else
      match seen.lookup directory with
      | some first => .error (.ambiguous directory first rule.directory)
      | none =>
        match normalizeFrom ((directory, rule.directory) :: seen) rules with
        | .ok rest => .ok ({ rule with directory } :: rest)
        | .error e => .error e

def ofRules (rules : List DirectoryRule) (fallback : DirectoryRule) :
    Except ConfigError RuleTable :=
  (normalizeFrom [] rules).map fun normal ↦ ⟨normal, { fallback with directory := [] }⟩

/-- The covering rule with the longest directory, else the fallback rule. -/
def resolve (table : RuleTable) (path : Text) : Metadata :=
  let target := Text.dropLeadingPairs '.' '/' path
  let best := (table.rules.filter (·.covers target)).foldl DirectoryRule.deeper none
  (best.getD table.fallback).metadata

def size (table : RuleTable) : Nat := table.rules.length

def isEmpty (table : RuleTable) : Bool := table.rules.isEmpty

end RuleTable

end HeaderStamp
