import Mathlib.Data.String.Basic
import PerfRelay.Proofs.Json.Grammar
import PerfRelay.Spool.Source

/-!
# Files of a spool

The names in a path are what its slashes separate, so they can be computed from the characters of
the path, and so can what it leads to.  A file that can be read can be written anew.  The records in
a file are wanted by the namespace that they carry, if they carry any.

Main results:

- Theorem `splitOn_slash`: the names in a path, from its characters.
- Theorem `FileTree.exists_write`: what becomes of a file that is written anew.
- Theorem `Spool.path_getD`: the local node has the files of the node with the empty name.
- Theorem `Spool.wants_iff`: which records are wanted.
- Theorems `Spool.find_localFile` and `Spool.parseRecords_oneRecord`: a spool with a single record.
-/

namespace PerfRelay

/-! ## Names -/

/-- Looking for a slash as a text is looking for it as a character. -/
theorem splitOnAux_slash (text : String) (start here : String.Pos.Raw) (parts : List String) :
    text.splitOnAux "/" start here 0 parts = text.splitAux (· == '/') start here parts := by
  have hget : String.Pos.Raw.get "/" 0 = '/' := by decide
  have hnext : String.Pos.Raw.next "/" 0 = ⟨1⟩ := by decide
  have hover : String.Pos.Raw.atEnd "/" ⟨1⟩ = true := by decide
  fun_induction text.splitAux (· == '/') start here parts with
  | case1 start here parts hend =>
    rw [String.splitOnAux, if_pos hend]
  | case2 start here parts hend _ hslash next ih =>
    have hchar : here.get text = '/' := by simpa using hslash
    have hsize : (here.get text).utf8Size = 1 := by
      rw [hchar]
      decide
    have hback : (here.next text).unoffsetBy ⟨1⟩ = here := by
      simp [String.Pos.Raw.next, hsize, String.Pos.Raw.ext_iff]
    rw [String.splitOnAux, if_neg hend, hget, if_pos hslash, hnext, if_pos hover, hback]
    exact ih
  | case3 start here parts hend _ hslash ih =>
    rw [String.splitOnAux, if_neg hend, hget, if_neg hslash]
    exact ih

/-- The names in a path, from its characters. -/
theorem splitOn_slash (text : String) :
    text.splitOn "/" = (text.toList.splitOnP (· == '/')).map String.ofList := by
  rw [← String.splitToList_of_valid, String.splitToList, String.splitOn, if_neg (by decide)]
  exact splitOnAux_slash text 0 0 []

/-- A path continued by no name leads on as it is. -/
theorem joinPath_joinPath_empty (root file : String) :
    joinPath (joinPath root "") file = joinPath root file := by
  have hpart : ("".startsWith "/") = false := by decide +kernel
  have hended : (root ++ "/").endsWith "/" = true := by
    rw [← String.endsWith_toSlice, String.Slice.endsWith_string_iff]
    simp
  by_cases hroot : root = ""
  · have hbase : joinPath root "" = root := by simp [joinPath, hroot]
    rw [hbase]
  · by_cases hslash : root.endsWith "/" = true
    · have hbase : joinPath root "" = root := by simp [joinPath, hpart, hroot, hslash]
      rw [hbase]
    · have hbase : joinPath root "" = root ++ "/" := by simp [joinPath, hpart, hroot, hslash]
      rw [hbase]
      simp [joinPath, hended, hroot, hslash]

/-! ## Files that are written anew -/

namespace FileTree

variable {tree : FileTree} {now : Int} {path : String}

theorem hasDirectory_of_locate {start place names : List String} (hsome : names ≠ [])
    (h : tree.locate start names = .ok place) : tree.hasDirectory start = true := by
  rcases names with _ | ⟨name, names⟩
  · exact absurd rfl hsome
  · rw [locate] at h
    cases hfollow : tree.follow start name with
    | error kind => simp [hfollow] at h
    | ok next => exact hasDirectory_of_follow hfollow

theorem makeDirectory_of_hasDirectory {place : List String} (h : tree.hasDirectory place = true) :
    tree.makeDirectory now place = tree := by
  cases hnode : tree.node? place with
  | none => simp [hasDirectory, hnode] at h
  | some node => rw [makeDirectory, hnode]

/-- On the way to a place that can be found no directory is missing. -/
theorem makeAlong_of_locate {start place names : List String} {name : String}
    (h : tree.locate start (names ++ [name]) = .ok place) :
    makeAlong now tree start names = .ok tree := by
  induction names generalizing start with
  | nil => rfl
  | cons first names ih =>
    rw [List.cons_append, locate] at h
    rw [makeAlong]
    cases hfollow : tree.follow start first with
    | error kind => simp [hfollow] at h
    | ok next =>
      rw [hfollow] at h
      have hmade : tree.makeDirectory now next = tree :=
        makeDirectory_of_hasDirectory (hasDirectory_of_locate (by simp) h)
      simp only [hmade]
      exact ih h

theorem exists_find_of_read {content : List UInt8} (h : tree.read path = .ok content) :
    ∃ modified, tree.find path = .ok (.file modified content) := by
  unfold read at h
  split at h
  · cases h
  · cases h
  · rename_i modified _ hfind
    cases h
    exact ⟨modified, hfind⟩

theorem exists_place_of_find {node : FileNode} (h : tree.find path = .ok node) :
    ∃ names place, pathNames path = .ok names ∧ tree.locate [] names = .ok place ∧
      tree.node? place = some node := by
  unfold find at h
  cases hnames : pathNames path with
  | error kind => simp [hnames, bind, Except.bind] at h
  | ok names =>
    cases hlocate : tree.locate [] names with
    | error kind => simp [hnames, hlocate, bind, Except.bind] at h
    | ok place =>
      cases hnode : tree.node? place with
      | none => simp [hnames, hlocate, hnode, bind, Except.bind] at h
      | some found =>
        simp only [hnames, hlocate, hnode, bind, Except.bind, Except.ok.injEq] at h
        exact ⟨names, place, rfl, hlocate, h ▸ hnode⟩

/-- A file that can be read can be written, and is read as it was written. -/
theorem exists_write {old : List UInt8} (h : tree.read path = .ok old) (now modified : Int)
    (content : List UInt8) :
    ∃ after, tree.write now path modified content = .ok after ∧ after.read path = .ok content := by
  obtain ⟨time, hfind⟩ := exists_find_of_read h
  obtain ⟨names, place, hnames, hlocate, hnode⟩ := exists_place_of_find hfind
  have hmade : makeAlong now tree [] names.dropLast = .ok tree := by
    rcases List.eq_nil_or_concat names with rfl | ⟨front, last, rfl⟩
    · rfl
    · rw [List.concat_eq_append] at hlocate ⊢
      rw [List.dropLast_concat]
      exact makeAlong_of_locate hlocate
  have hfile : tree.hasDirectory place = false := by
    rw [hasDirectory, hnode]
    rfl
  have hwrite : tree.write now path modified content =
      .ok (tree.put place (.file modified content)) := by
    simp only [write, hnames, hmade, hlocate, hfile, bind, Except.bind, Bool.false_eq_true,
      if_false]
  refine ⟨_, hwrite, ?_⟩
  rw [read, find_write hwrite]

end FileTree

/-! ## Files of a spool -/

namespace Spool

/-- The local node and the node with the empty name have the same files. -/
theorem path_getD (root : String) (stream : Stream) (node : Option String) :
    path root stream (some (node.getD "")) = path root stream node := by
  cases node with
  | none => simp [path, joinPath_joinPath_empty]
  | some node => simp

/-! ### Records -/

/-- The text in the namespace field of a record. -/
def namespaceOf? (record : Record) : Option String :=
  (record.field? "Namespace").bind (·.asString?)

theorem wants_iff {query : Query} {record : Record} :
    wants query record = true ↔ ∀ name ∈ namespaceOf? record, query.allows name = true := by
  rw [wants, ← namespaceOf?]
  cases namespaceOf? record <;> simp

/-! ### A single record -/

/-- A spool at `/s` with nothing but a file of the local node. -/
def localFile (modified : Int) (content : List UInt8) : FileTree :=
  ⟨[(["s"], .directory 0), (["s", "perf.json"], .file modified content)]⟩

variable (modified : Int) (content : List UInt8)

theorem find_localFile :
    (localFile modified content).find (path "/s" .perf (some "")) =
      .ok (.file modified content) := by
  have hpath : path "/s" .perf (some "") = "/s/perf.json" := by decide +kernel
  have hnames : FileTree.pathNames "/s/perf.json" = .ok ["", "s", "perf.json"] := by
    rw [FileTree.pathNames, splitOn_slash]
    rfl
  rw [hpath, FileTree.find, hnames]
  rfl

theorem modified_localFile :
    (localFile modified content).modified (path "/s" .perf (some "")) = .ok modified := by
  rw [FileTree.modified, find_localFile]
  rfl

theorem read_localFile :
    (localFile modified content).read (path "/s" .perf (some "")) = .ok content := by
  rw [FileTree.read, find_localFile]

open Json

/-- A text in quotes, with something behind it. -/
def quoted (text : String) (rest : List UInt8) : List UInt8 :=
  byte '"' :: ((text.toList.flatMap escape).flatMap String.utf8EncodeChar ++ byte '"' :: rest)

/-- An array of one record, which carries a namespace. -/
def oneRecord (name : String) : List UInt8 :=
  byte '[' :: byte '\x7b' :: quoted "Namespace" (byte ':' :: quoted name [byte '\x7d', byte ']'])

theorem readString_quoted (text : String) (rest : List UInt8) :
    ∃ s, quoted text rest = byte '"' :: s ∧ readString s = .ok (text, rest) :=
  ⟨_, rfl, readString_of_spells (spells_escape text.toList) rest⟩

theorem readKey_quoted (text : String) (rest : List UInt8) :
    Treatment.keep.readKey (quoted text (byte ':' :: rest)) = .ok (text, rest) := by
  obtain ⟨s, hs, hread⟩ := readString_quoted text (byte ':' :: rest)
  have hopen : expect (byte '"') (byte '"' :: s) = .ok ((), s) := expect_of_next rfl
  have hkept : Treatment.keep.name s = .ok (text, byte ':' :: rest) := hread
  rw [hs, Treatment.readKey, hopen]
  simp only [hkept]
  rfl

theorem step_quoted (stack : List (Frame Value String)) (text : String) (rest : List UInt8) :
    Treatment.keep.step 0 (.before stack) (quoted text rest) =
      .ok (.again (.after stack (.string text)), rest) := by
  obtain ⟨s, hs, hread⟩ := readString_quoted text rest
  have hscalar : Treatment.keep.scalar (byte '"') s = .ok (.string text, rest) := by
    change Except.map _ (readString s) = _
    rw [hread]
    rfl
  rw [hs]
  change Except.map _ (Treatment.keep.scalar (byte '"') s) = _
  rw [hscalar]
  rfl

/-- The single record is read; its words are followed one by one. -/
theorem parseRecords_oneRecord (name : String) :
    parseRecords (oneRecord name) = .ok [.object [("Namespace", .string name)]] := by
  have hvalue : readValue 0 (oneRecord name) =
      .ok (.array [.object [("Namespace", .string name)]], []) := by
    calc
      _ = (Treatment.keep.loop 0).run (.before [.array []]) (byte '\x7b' ::
            quoted "Namespace" (byte ':' :: quoted name [byte '\x7d', byte ']'])) :=
        Loop.run_of_again rfl
      _ = (Treatment.keep.loop 0).run (.before [.object [] "Namespace", .array []])
            (quoted name [byte '\x7d', byte ']']) := by
        apply Loop.run_of_again
        change Except.map _ (Treatment.keep.readKey _) = _
        rw [readKey_quoted]
        rfl
      _ = (Treatment.keep.loop 0).run (.after [.object [] "Namespace", .array []] (.string name))
            [byte '\x7d', byte ']'] :=
        Loop.run_of_again (step_quoted _ name _)
      _ = (Treatment.keep.loop 0).run (.after [.array []] (.object [("Namespace", .string name)]))
            [byte ']'] :=
        Loop.run_of_again rfl
      _ = (Treatment.keep.loop 0).run
            (.after [] (.array [.object [("Namespace", .string name)]])) [] :=
        Loop.run_of_again rfl
      _ = _ := Loop.run_of_finish rfl
  rw [parseRecords, readDocument, readArray, hvalue]
  rfl

end Spool

end PerfRelay
