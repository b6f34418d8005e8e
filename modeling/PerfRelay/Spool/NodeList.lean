import PerfRelay.Collection.Source
import PerfRelay.Spool.FileTree
import PerfRelay.Text.Blank
import PerfRelay.Text.Lines
import PerfRelay.Text.Utf8

/-!
# Node lists

The remote nodes are listed in a file of the spool directory, one name per line.  Blank characters
around a name do not count, and neither do blank lines and lines that begin with a number sign.

Main results:

- Theorem `mem_parse`: the names of a list are its trimmed lines that are neither blank nor
  comments.
-/

namespace PerfRelay

namespace NodeList

/-- Whether a trimmed line is a name. -/
def isName (line : List Char) : Bool :=
  !line.isEmpty && line.head? != some '#'

/-- The names in a text. -/
def parse (text : List Char) : List String :=
  (((splitLines text).map trimBlank).filter isName).map String.ofList

theorem mem_parse {text : List Char} {name : String} :
    name ∈ parse text ↔
      ∃ line ∈ splitLines text, isName (trimBlank line) = true ∧
        String.ofList (trimBlank line) = name := by
  simp [parse]
  grind

end NodeList

/-- Lists the nodes in a file of a spool directory whose files stand as given. -/
structure SpoolLister where
  path : String
  files : FileTree

namespace SpoolLister

/-- The lister for a spool directory. -/
def ofRoot (root : String) (files : FileTree) : SpoolLister := ⟨joinPath root "nodes", files⟩

/-- Whether there is a list. -/
def hasList (lister : SpoolLister) : Bool := lister.files.isFile lister.path

/-- The text of the list. -/
def readText (lister : SpoolLister) : Except IoKind String :=
  match lister.files.read lister.path with
  | .error kind => .error kind
  | .ok content =>
    match Utf8.decode? content with
    | none => .error .invalidData
    | some text => .ok text

/-- The nodes in the list. -/
def list (lister : SpoolLister) : Except Failure (List String) :=
  match lister.readText with
  | .error kind => .error ⟨[s!"reading node list {lister.path}"], .io kind⟩
  | .ok text => .ok (NodeList.parse text.toList)

instance : NodeLister SpoolLister where
  list lister := pure (lister.list, lister)

end SpoolLister

end PerfRelay
