import PerfRelay.Failure

/-!
# File trees

The files and directories of a machine, as a program sees them through paths.  A path is followed
name by name from the top directory, and where a name cannot be followed there is a reason.

Main results:

- Theorem `find_write`: the path along which a file was written leads to that file.
- Theorem `locate_put_file`: putting a file somewhere does not change the way there.
-/

namespace PerfRelay

/-- A path continued by another one.  An absolute path takes its place. -/
def joinPath (base part : String) : String :=
  if part.startsWith "/" || base.isEmpty then part
  else if base.endsWith "/" then base ++ part
  else base ++ "/" ++ part

/-- What stands at a place, with the time of its last change. -/
inductive FileNode where
  | directory (modified : Int)
  | file (modified : Int) (content : List UInt8)
deriving DecidableEq, Repr

namespace FileNode

/-- The time of the last change. -/
def modified : FileNode → Int
  | directory modified => modified
  | file modified _ => modified

/-- Whether it is a directory. -/
def isDirectory : FileNode → Bool
  | directory _ => true
  | file _ _ => false

end FileNode

/-- What stands below the top directory. -/
structure FileTree where
  /-- Places, as the lists of names that lead there from the top, and what stands there. -/
  nodes : List (List String × FileNode)
deriving DecidableEq, Repr

namespace FileTree

/-! ## Places -/

/-- A top directory with nothing in it. -/
def empty : FileTree := ⟨[]⟩

/-- What stands at a place.  There is always a directory at the top. -/
def node? (tree : FileTree) (place : List String) : Option FileNode :=
  if place = [] then some (.directory 0)
  else (tree.nodes.find? (·.1 = place)).map (·.2)

/-- Whether a directory stands at a place. -/
def hasDirectory (tree : FileTree) (place : List String) : Bool :=
  (tree.node? place).any (·.isDirectory)

/-- Puts something at a place, instead of what stood there. -/
def put (tree : FileTree) (place : List String) (node : FileNode) : FileTree :=
  ⟨(place, node) :: tree.nodes.filter (·.1 ≠ place)⟩

/-- Removes everything below a place. -/
def clear (tree : FileTree) (place : List String) : FileTree :=
  ⟨tree.nodes.filter fun (other, _) => other = place || !place.isPrefixOf other⟩

/-- Removes what stands at a place, and everything below it. -/
def erase (tree : FileTree) (place : List String) : FileTree :=
  ⟨tree.nodes.filter fun (other, _) => !place.isPrefixOf other⟩

theorem node?_put_self (tree : FileTree) {place : List String} (node : FileNode)
    (h : place ≠ []) : (tree.put place node).node? place = some node := by
  simp [put, node?, h]

theorem node?_put_of_ne (tree : FileTree) {place other : List String} (node : FileNode)
    (h : other ≠ place) : (tree.put place node).node? other = tree.node? other := by
  have hkept : (fun entry : List String × FileNode =>
      !decide (entry.1 = place) && decide (entry.1 = other)) = (decide <| ·.1 = other) := by
    funext entry
    by_cases hother : entry.1 = other <;> simp [hother, h]
  simp [put, node?, hkept, Ne.symm h]

/-! ## Following paths -/

/-- The most bytes in a name. -/
def longestName : Nat := 255

/-- The most bytes in a path. -/
def longestPath : Nat := 4095

/-- The names in a path, if it can be one. -/
def pathNames (path : String) : Except IoKind (List String) :=
  if path.toList.any (·.toNat == 0) then .error .invalidInput
  else if path.isEmpty then .error .notFound
  else if longestPath < path.utf8ByteSize then .error .invalidFilename
  else .ok (path.splitOn "/")

/-- The place that a name leads to from a place where a directory has to stand.  Two dots lead one
directory up; at the top they lead nowhere else. -/
def follow (tree : FileTree) (place : List String) (name : String) :
    Except IoKind (List String) :=
  match tree.node? place with
  | none => .error .notFound
  | some (.file _ _) => .error .notADirectory
  | some (.directory _) =>
    if name = "" ∨ name = "." then .ok place
    else if name = ".." then .ok place.dropLast
    else if longestName < name.utf8ByteSize then .error .invalidFilename
    else .ok (place ++ [name])

/-- The place that names lead to from a place.  Whatever stands there, directories have to stand on
the way. -/
def locate (tree : FileTree) : List String → List String → Except IoKind (List String)
  | place, [] => .ok place
  | place, name :: names =>
    match tree.follow place name with
    | .error kind => .error kind
    | .ok next => tree.locate next names

-- Nothing has to stand where names lead, and there is no way above the top.
example : empty.locate [] ["..", "", "etc"] = .ok ["etc"] := rfl
example : empty.locate [] ["etc", ".."] = .error .notFound := rfl

/-- What a path leads to. -/
def find (tree : FileTree) (path : String) : Except IoKind FileNode := do
  let names ← pathNames path
  let place ← tree.locate [] names
  match tree.node? place with
  | none => .error .notFound
  | some node => .ok node

/-- The time of the last change of what a path leads to. -/
def modified (tree : FileTree) (path : String) : Except IoKind Int :=
  (tree.find path).map (·.modified)

/-- The content of the file that a path leads to. -/
def read (tree : FileTree) (path : String) : Except IoKind (List UInt8) :=
  match tree.find path with
  | .error kind => .error kind
  | .ok (.directory _) => .error .isADirectory
  | .ok (.file _ content) => .ok content

/-- Whether a path leads to a file. -/
def isFile (tree : FileTree) (path : String) : Bool :=
  match tree.find path with
  | .ok (.file _ _) => true
  | _ => false

/-- A name is followed from a directory only. -/
theorem hasDirectory_of_follow {tree : FileTree} {place next : List String} {name : String}
    (h : tree.follow place name = .ok next) : tree.hasDirectory place = true := by
  unfold follow at h
  split at h <;> simp_all [hasDirectory, FileNode.isDirectory]

/-- Putting a file where no directory stands does not change the way there. -/
theorem locate_put_file {tree : FileTree} {start place names : List String} {modified : Int}
    {content : List UInt8} (hlocate : tree.locate start names = .ok place)
    (hplace : tree.hasDirectory place = false) :
    (tree.put place (.file modified content)).locate start names = .ok place := by
  induction names generalizing start with
  | nil => exact hlocate
  | cons name names ih =>
    unfold locate at hlocate ⊢
    cases hfollow : tree.follow start name with
    | error kind => simp [hfollow] at hlocate
    | ok next =>
      rw [hfollow] at hlocate
      have hne : start ≠ place := by
        rintro rfl
        simp [hasDirectory_of_follow hfollow] at hplace
      have hsame : (tree.put place (.file modified content)).follow start name = .ok next := by
        rw [← hfollow]
        simp only [follow, node?_put_of_ne tree _ hne]
      rw [hsame]
      exact ih hlocate

/-! ## Changing the tree -/

/-- Makes a directory at a place where nothing stands. -/
def makeDirectory (tree : FileTree) (now : Int) (place : List String) : FileTree :=
  match tree.node? place with
  | none => tree.put place (.directory now)
  | some _ => tree

/-- Makes the directories that are missing where names lead from a place. -/
def makeAlong (now : Int) : FileTree → List String → List String → Except IoKind FileTree
  | tree, _, [] => .ok tree
  | tree, place, name :: names =>
    match tree.follow place name with
    | .error kind => .error kind
    | .ok next => makeAlong now (tree.makeDirectory now next) next names

/-- Makes the directories that are missing along a path. -/
def makeDirectories (tree : FileTree) (now : Int) (path : String) : Except IoKind FileTree := do
  makeAlong now tree [] (← pathNames path)

/-- Writes a file, and makes the directories that are missing on the way to it. -/
def write (tree : FileTree) (now : Int) (path : String) (modified : Int) (content : List UInt8) :
    Except IoKind FileTree := do
  let names ← pathNames path
  let tree ← makeAlong now tree [] names.dropLast
  let place ← tree.locate [] names
  if tree.hasDirectory place then .error .isADirectory
  else .ok (tree.put place (.file modified content))

/-- Removes what a path leads to, and everything below it.  A directory that is named by dots stays
and is only emptied. -/
def remove (tree : FileTree) (path : String) : Except IoKind FileTree := do
  let names ← pathNames path
  let place ← tree.locate [] names
  match (names.filter (· ≠ "")).getLast? with
  | none | some "." | some ".." => .ok (tree.clear place)
  | some _ => .ok (tree.erase place)

/-- The path along which a file was written leads to that file. -/
theorem find_write {tree after : FileTree} {now : Int} {path : String} {modified : Int}
    {content : List UInt8} (h : tree.write now path modified content = .ok after) :
    after.find path = .ok (.file modified content) := by
  unfold write at h
  cases hnames : pathNames path with
  | error kind => simp [hnames, bind, Except.bind] at h
  | ok names =>
    cases hmade : makeAlong now tree [] names.dropLast with
    | error kind => simp [hnames, hmade, bind, Except.bind] at h
    | ok made =>
      cases hlocate : made.locate [] names with
      | error kind => simp [hnames, hmade, hlocate, bind, Except.bind] at h
      | ok place =>
        cases hplace : made.hasDirectory place with
        | true => simp [hnames, hmade, hlocate, hplace, bind, Except.bind] at h
        | false =>
          simp only [hnames, hmade, hlocate, hplace, bind, Except.bind, Bool.false_eq_true,
            if_false, Except.ok.injEq] at h
          subst h
          have hne : place ≠ [] := by
            rintro rfl
            simp [hasDirectory, node?, FileNode.isDirectory] at hplace
          simp [find, hnames, bind, Except.bind, locate_put_file hlocate hplace,
            node?_put_self made _ hne]

end FileTree

end PerfRelay
