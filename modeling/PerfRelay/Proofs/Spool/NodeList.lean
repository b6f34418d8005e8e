import PerfRelay.Proofs.Spool.Files
import PerfRelay.Proofs.Text.Trimming
import PerfRelay.Spool.NodeList

/-!
# The grammar of node lists

A node list is a text of lines.  A line holds a name between blank characters, or it is blank or a
comment.  A line ends at a line feed, with a carriage return before it or without, and the last line
needs no end.

Trimming takes a carriage return at the end of a line as well, so a list is read as if its lines
ended at the line feeds alone.  Every text is a node list: the names that are read from it are the
ones that it is a list of, and there are no others.

Main results:

- Theorems `parse_append` and `parse_line`: a list is read line by line.
- Theorem `parse_eq_iff`: the names that are read from a text are those that it lists.
- Theorem `listing_grammar`: which names are listed from a file, and that they are listed again once
  they are written one per line.
-/

namespace PerfRelay

/-! ## Lines of a text -/

/-- A text is its last line, or a line with its line feed before a text. -/
theorem line_induction {motive : List Char → Prop} (last : ∀ line, '\n' ∉ line → motive line)
    (more : ∀ line rest, '\n' ∉ line → motive rest → motive (line ++ '\n' :: rest))
    (text : List Char) : motive text := by
  by_cases hfeed : '\n' ∈ text
  · obtain ⟨line, rest, htext, hline⟩ := List.eq_append_cons_of_mem hfeed
    have hlength : rest.length < text.length := by
      rw [htext, List.length_append, List.length_cons]
      omega
    rw [htext]
    exact more line rest hline (line_induction last more rest)
  · exact last text hfeed
termination_by text.length

/-- A line ends at its line feed, and a carriage return before that belongs to the end. -/
theorem splitLines_append {line : List Char} (h : '\n' ∉ line) (rest : List Char) :
    ∃ kept after, line = kept ++ after ∧ AllBlank after ∧
      splitLines (line ++ '\n' :: rest) = kept :: splitLines rest := by
  induction line with
  | nil => exact ⟨[], [], rfl, by simp [AllBlank], by rw [List.nil_append, splitLines]⟩
  | cons c line ih =>
    rw [List.mem_cons, not_or] at h
    obtain ⟨kept, after, hline, hafter, hsplit⟩ := ih h.2
    by_cases hreturn : c = '\r' ∧ line = []
    · obtain ⟨rfl, rfl⟩ := hreturn
      refine ⟨[], ['\r'], rfl, ?_, ?_⟩
      · intro c hc
        rw [List.mem_singleton.1 hc]
        decide
      · rw [List.cons_append, List.nil_append, splitLines]
    · refine ⟨c :: kept, after, by rw [hline, List.cons_append], hafter, ?_⟩
      rw [List.cons_append, splitLines, hsplit]
      · exact Ne.symm h.1
      · rintro tail rfl heq
        rcases line with _ | ⟨d, line⟩
        · exact hreturn ⟨rfl, rfl⟩
        · rw [List.cons_append, List.cons.injEq] at heq
          exact h.2 (heq.1 ▸ List.mem_cons_self)

/-- The last line of a text, if there is anything on it. -/
theorem splitLines_line {line : List Char} (h : '\n' ∉ line) :
    splitLines line = if line = [] then [] else [line] := by
  induction line with
  | nil => rfl
  | cons c line ih =>
    rw [List.mem_cons, not_or] at h
    rw [splitLines, ih h.2]
    · cases line <;> rfl
    · exact Ne.symm h.1
    · rintro tail rfl rfl
      exact h.2 List.mem_cons_self

namespace NodeList

/-! ## Lists are read line by line -/

/-- The names on a line: one or none. -/
def namesOn (line : List Char) : List String :=
  if isName (trimBlank line) then [String.ofList (trimBlank line)] else []

theorem namesOn_append (line : List Char) {after : List Char} (h : AllBlank after) :
    namesOn (line ++ after) = namesOn line := by
  rw [namesOn, namesOn, trimBlank_append_right h]

theorem parse_eq (text : List Char) : parse text = (splitLines text).flatMap namesOn := by
  rw [parse]
  induction splitLines text with
  | nil => rfl
  | cons line lines ih =>
    rw [List.map_cons, List.filter_cons, List.flatMap_cons, ← ih, namesOn]
    split <;> rfl

theorem parse_append {line : List Char} (h : '\n' ∉ line) (rest : List Char) :
    parse (line ++ '\n' :: rest) = namesOn line ++ parse rest := by
  obtain ⟨kept, after, rfl, hafter, hsplit⟩ := splitLines_append h rest
  rw [parse_eq, hsplit, List.flatMap_cons, namesOn_append kept hafter, parse_eq]

theorem parse_line {line : List Char} (h : '\n' ∉ line) : parse line = namesOn line := by
  rw [parse_eq, splitLines_line h]
  split
  · rename_i hline
    rw [hline]
    rfl
  · exact List.flatMap_singleton ..

/-! ## The grammar -/

/-- A name that can stand in a list. -/
structure IsListable (name : String) : Prop where
  ne_nil : name.toList ≠ []
  oneLine : '\n' ∉ name.toList
  isTrimmed : IsTrimmed name.toList
  noComment : name.toList.head? ≠ some '#'

/-- Blank characters on one line. -/
structure IsGap (cs : List Char) : Prop where
  allBlank : AllBlank cs
  oneLine : '\n' ∉ cs

/-- A line without its end, and the names on it. -/
inductive Line : List String → List Char → Prop where
  | name {name : String} {before after : List Char} (hbefore : IsGap before)
      (hafter : IsGap after) : Line [name] (before ++ (name.toList ++ after))
  | blank {gap : List Char} (hgap : IsGap gap) : Line [] gap
  | comment {gap remark : List Char} (hgap : IsGap gap) (hremark : '\n' ∉ remark) :
      Line [] (gap ++ '#' :: remark)

/-- A text that lists some names, one per line. -/
inductive Lists : List String → List Char → Prop where
  /-- The last line needs no end, and may be empty. -/
  | last {names : List String} {line : List Char} (h : Line names line) : Lists names line
  /-- A line with its end. -/
  | line {first names : List String} {line ending text : List Char} (hline : Line first line)
      (hending : ending = ['\n'] ∨ ending = ['\r', '\n']) (h : Lists names text) :
      Lists (first ++ names) (line ++ (ending ++ text))

theorem hash_not_blank : isBlank '#' = false := by decide

theorem isGap_nil : IsGap [] := ⟨by simp [AllBlank], by simp⟩

theorem Line.oneLine {names : List String} {line : List Char} (h : Line names line)
    (hnames : ∀ name ∈ names, IsListable name) : '\n' ∉ line := by
  cases h with
  | @name name before after hbefore hafter =>
    have hname := (hnames name (List.mem_singleton_self name)).oneLine
    simp [hbefore.oneLine, hname, hafter.oneLine]
  | blank hgap => exact hgap.oneLine
  | comment hgap hremark => simp [hgap.oneLine, hremark]

/-- The names on a line are those that are read from it. -/
theorem Line.namesOn_eq {names : List String} {line : List Char} (h : Line names line)
    (hnames : ∀ name ∈ names, IsListable name) : namesOn line = names := by
  cases h with
  | @name name before after hbefore hafter =>
    have hname := hnames name (List.mem_singleton_self name)
    have hsome : isName name.toList = true := by
      simp [isName, hname.ne_nil, hname.noComment]
    rw [namesOn, trimBlank_between hbefore.allBlank hname.isTrimmed hafter.allBlank, if_pos hsome,
      String.ofList_toList]
  | blank hgap =>
    rw [namesOn, trimBlank_of_allBlank hgap.allBlank]
    rfl
  | @comment gap remark hgap _ =>
    have hnone : isName (trimBlank ('#' :: remark)) = false := by
      simp [isName, head?_trimBlank_cons hash_not_blank]
    rw [namesOn, trimBlank_append_left hgap.allBlank, hnone]
    rfl

/-- A line is one of the three kinds, whatever stands on it. -/
theorem line_namesOn {line : List Char} (h : '\n' ∉ line) : Line (namesOn line) line := by
  obtain ⟨before, after, hbefore, hafter, hline⟩ := exists_eq_trimBlank line
  have hparts : '\n' ∉ before ∧ '\n' ∉ trimBlank line ∧ '\n' ∉ after := by
    rw [hline] at h
    simpa only [List.mem_append, not_or] using h
  have hgap : IsGap before := ⟨hbefore, hparts.1⟩
  have hgap' : IsGap after := ⟨hafter, hparts.2.2⟩
  rw [namesOn]
  split
  · have hname : Line [String.ofList (trimBlank line)]
        (before ++ ((String.ofList (trimBlank line)).toList ++ after)) := .name hgap hgap'
    rwa [String.toList_ofList, ← hline] at hname
  · rename_i hnone
    rcases hcore : trimBlank line with _ | ⟨c, core⟩
    · rw [hcore, List.nil_append] at hline
      have hblank : IsGap line := by
        refine ⟨fun c hc => ?_, h⟩
        rw [hline, List.mem_append] at hc
        exact hc.elim (hbefore c) (hafter c)
      exact .blank hblank
    · obtain rfl : c = '#' := by simpa [isName, hcore] using hnone
      rw [hcore] at hline hparts
      rw [hline, List.cons_append]
      have hremark : '\n' ∉ core ++ after := by
        rw [List.mem_append, not_or]
        exact ⟨fun hmem => hparts.2.1 (List.mem_cons_of_mem _ hmem), hparts.2.2⟩
      exact .comment hgap hremark

theorem isListable_of_mem_namesOn {line : List Char} (h : '\n' ∉ line) {name : String}
    (hname : name ∈ namesOn line) : IsListable name := by
  rw [namesOn] at hname
  split at hname
  · rename_i hsome
    rw [isName, Bool.and_eq_true, Bool.not_eq_true', List.isEmpty_eq_false_iff, bne_iff_ne] at hsome
    obtain ⟨before, after, -, -, hline⟩ := exists_eq_trimBlank line
    have hfeed : '\n' ∉ trimBlank line := by
      rw [hline, List.mem_append, List.mem_append, not_or, not_or] at h
      exact h.2.1
    rw [List.mem_singleton.1 hname]
    constructor
    all_goals rw [String.toList_ofList]
    · exact hsome.1
    · exact hfeed
    · exact isTrimmed_trimBlank line
    · exact hsome.2
  · cases hname

theorem parse_of_lists {names : List String} {text : List Char} (h : Lists names text)
    (hnames : ∀ name ∈ names, IsListable name) : parse text = names := by
  induction h with
  | last h => rw [parse_line (h.oneLine hnames), h.namesOn_eq hnames]
  | @line first names line ending text hline hending _ ih =>
    rw [List.forall_mem_append] at hnames
    have hfeed := hline.oneLine hnames.1
    have hnamesOn := hline.namesOn_eq hnames.1
    rw [← ih hnames.2]
    rcases hending with rfl | rfl
    · rw [List.singleton_append, parse_append hfeed, hnamesOn]
    · have hfeed' : '\n' ∉ line ++ ['\r'] := by simp [hfeed]
      have hreturn : AllBlank ['\r'] := by
        intro c hc
        rw [List.mem_singleton.1 hc]
        decide
      have hend : line ++ (['\r', '\n'] ++ text) = line ++ ['\r'] ++ '\n' :: text := by simp
      rw [hend, parse_append hfeed', namesOn_append line hreturn, hnamesOn]

theorem lists_parse (text : List Char) : Lists (parse text) text := by
  induction text using line_induction with
  | last line h =>
    rw [parse_line h]
    exact .last (line_namesOn h)
  | more line rest h ih =>
    rw [parse_append h]
    exact .line (line_namesOn h) (.inl rfl) ih

theorem isListable_of_mem_parse {text : List Char} {name : String} (h : name ∈ parse text) :
    IsListable name := by
  induction text using line_induction with
  | last line hline =>
    rw [parse_line hline] at h
    exact isListable_of_mem_namesOn hline h
  | more line rest hline ih =>
    rw [parse_append hline, List.mem_append] at h
    exact h.elim (isListable_of_mem_namesOn hline) ih

/-- The names that are read from a text are those that it lists. -/
theorem parse_eq_iff {names : List String} {text : List Char} :
    parse text = names ↔ (∀ name ∈ names, IsListable name) ∧ Lists names text := by
  constructor
  · rintro rfl
    exact ⟨fun _ => isListable_of_mem_parse, lists_parse text⟩
  · rintro ⟨hnames, hlists⟩
    exact parse_of_lists hlists hnames

/-- Some names, one per line. -/
def listing (names : List String) : String :=
  String.ofList (names.flatMap fun name => name.toList ++ ['\n'])

theorem lists_listing (names : List String) : Lists names (listing names).toList := by
  rw [listing, String.toList_ofList]
  induction names with
  | nil => exact .last (.blank isGap_nil)
  | cons name names ih =>
    have hline : Line [name] ([] ++ (name.toList ++ [])) := .name isGap_nil isGap_nil
    rw [List.nil_append, List.append_nil] at hline
    rw [List.flatMap_cons, List.append_assoc]
    exact .line hline (.inl rfl) ih

end NodeList

/-! ## Lists in files -/

namespace SpoolLister

open NodeList

theorem list_of_read {lister : SpoolLister} {text : String}
    (h : lister.files.read lister.path = .ok (Utf8.encode text)) :
    lister.list = .ok (parse text.toList) := by
  rw [list, readText, h]
  simp only [Utf8.decode?_encode]

/-- From a file whose content is a text the names are listed that this text lists, one per line,
with blank characters around them, among blank lines and comments, and with either kind of line
ends.  There always are such names, and if they are written to the file, one per line, they are
listed again. -/
theorem listing_grammar {lister : SpoolLister} {text : String}
    (h : lister.files.read lister.path = .ok (Utf8.encode text)) :
    (∀ names, lister.list = .ok names ↔
      (∀ name ∈ names, IsListable name) ∧ Lists names text.toList) ∧
    ∃ names, lister.list = .ok names ∧ (∀ name ∈ names, IsListable name) ∧
      ∀ now modified, ∃ files,
        lister.files.write now lister.path modified (Utf8.encode (listing names)) = .ok files ∧
          list { lister with files := files } = .ok names := by
  have hlist : lister.list = .ok (parse text.toList) := list_of_read h
  have hnames : ∀ name ∈ parse text.toList, IsListable name := fun _ => isListable_of_mem_parse
  refine ⟨fun names => ?_, parse text.toList, hlist, hnames, fun now modified => ?_⟩
  · rw [hlist, Except.ok.injEq, parse_eq_iff]
  · obtain ⟨files, hwrite, hread⟩ :=
      FileTree.exists_write h now modified (Utf8.encode (listing (parse text.toList)))
    have hagain : list { lister with files := files } = _ := list_of_read hread
    refine ⟨files, hwrite, ?_⟩
    rw [hagain, parse_of_lists (lists_listing _) hnames]

/-- A list of two names with either kind of line end, a comment, a comment behind a line separator,
a blank line, and a carriage return at the end. -/
def mixedText : String := "# windows nodes\r\n\u3000win-1\t\r\n \u2028#win-0\n\nwin 2\r"

/-- A spool at `/s` with nothing but this list. -/
def mixedList : SpoolLister :=
  .ofRoot "/s" ⟨[(["s"], .directory 0), (["s", "nodes"], .file 5 (Utf8.encode mixedText))]⟩

theorem lists_mixedText : Lists ["win-1", "win 2"] mixedText.toList := by
  have hgap : ∀ gap : List Char, gap.all (fun c => isBlank c && c != '\n') = true → IsGap gap := by
    intro gap hall
    simp only [List.all_eq_true, Bool.and_eq_true, bne_iff_ne] at hall
    exact ⟨fun c hc => (hall c hc).1, fun hmem => (hall _ hmem).2 rfl⟩
  have htext : mixedText.toList = ([] ++ '#' :: " windows nodes".toList) ++ (['\r', '\n'] ++
      ((['\u3000'] ++ ("win-1".toList ++ ['\t'])) ++ (['\r', '\n'] ++
        (([' ', '\u2028'] ++ '#' :: "win-0".toList) ++ (['\n'] ++
          ([] ++ (['\n'] ++ ([] ++ ("win 2".toList ++ ['\r']))))))))) := by decide
  rw [htext]
  refine .line (.comment isGap_nil (by decide)) (.inr rfl) ?_
  refine .line (.name (hgap _ (by decide)) (hgap _ (by decide))) (.inr rfl) ?_
  refine .line (.comment (hgap _ (by decide)) (by decide)) (.inl rfl) ?_
  refine .line (.blank isGap_nil) (.inl rfl) ?_
  exact .last (.name isGap_nil (hgap _ (by decide)))

/-- The two names are listed, and once they are written one per line they are listed again. -/
theorem listing_grammar_mixedList :
    mixedList.files.read mixedList.path = .ok (Utf8.encode mixedText) ∧
      mixedList.list = .ok ["win-1", "win 2"] ∧
      ∃ files,
        mixedList.files.write 0 mixedList.path 7 (Utf8.encode "win-1\nwin 2\n") = .ok files ∧
          list { mixedList with files := files } = .ok ["win-1", "win 2"] := by
  have hread : mixedList.files.read mixedList.path = .ok (Utf8.encode mixedText) := by
    have hpath : mixedList.path = "/s/nodes" := by decide +kernel
    have hnames : FileTree.pathNames "/s/nodes" = .ok ["", "s", "nodes"] := by
      rw [FileTree.pathNames, splitOn_slash]
      rfl
    rw [hpath, FileTree.read, FileTree.find, hnames]
    rfl
  have hlistable : ∀ name ∈ ["win-1", "win 2"], IsListable name := by
    intro name hname
    have hparsed : parse "win-1\nwin 2".toList = ["win-1", "win 2"] := by decide
    exact isListable_of_mem_parse (hparsed ▸ hname)
  obtain ⟨hlists, names, hlist, -, hagain⟩ := listing_grammar hread
  have hmixed : mixedList.list = .ok ["win-1", "win 2"] :=
    (hlists _).2 ⟨hlistable, lists_mixedText⟩
  obtain rfl : names = ["win-1", "win 2"] := by
    rw [hmixed, Except.ok.injEq] at hlist
    exact hlist.symm
  exact ⟨hread, hmixed, hagain 0 7⟩

end SpoolLister

end PerfRelay
