import Mathlib.Data.List.Induction
import PerfRelay.Proofs.Spool.Files

/-!
# Fetches from a spool that changes

A fetch looks at the time of a file and then reads its content, and the files may change between the
two.  What it can come to is told here once: it takes the file, and then the time that it looked at
is remembered for this stream and node, or it leaves alone what is remembered.

A spool is moved by fetches, by forgetting nodes, and by whoever changes the files; a run is one
move after another.

Main results:

- Theorem `fetched`: what a fetch comes to.
- Theorem `remembers_after`: what a move does to what is remembered of a file.
- Theorem `exists_recorder`: what is remembered stems from a fetch that took the file.
-/

namespace PerfRelay

/-! ## Fetches -/

/-- A fetch, and what becomes of the files between its look at the time and its look at the
content. -/
structure SpoolFetch where
  stream : Stream
  query : Query
  /-- The states of the files after its look at the time, in their order. -/
  meanwhile : List FileTree

/-- The name under which a fetch is remembered. -/
def SpoolFetch.node (fetch : SpoolFetch) : String := fetch.query.node.getD ""

namespace SpoolSource

/-- The path of the file of a stream and a node. -/
def path (source : SpoolSource) (stream : Stream) (node : String) : String :=
  Spool.path source.root stream (some node)

/-- The files as they stand when a fetch reads the content. -/
def filesAtRead (source : SpoolSource) (fetch : SpoolFetch) : FileTree :=
  fetch.meanwhile.getLastD source.files

/-- What a fetch gives, and what is remembered after it. -/
def answer (source : SpoolSource) (fetch : SpoolFetch) :
    Except Failure (List Record) × Spool.Consumed :=
  (Spool.consume source.root fetch.stream fetch.query source.files (source.filesAtRead fetch)
    source.consumed).value

/-- The fetch takes the file: its time is another one than the one that is remembered, and its
content can be read as records. -/
structure Takes (source : SpoolSource) (fetch : SpoolFetch) (modified : Int)
    (content : List UInt8) (records : List Record) : Prop where
  looked : source.files.modified (source.path fetch.stream fetch.node) = .ok modified
  changed : source.consumed.get? fetch.stream fetch.node ≠ some modified
  read : (source.filesAtRead fetch).read (source.path fetch.stream fetch.node) = .ok content
  parsed : Spool.parseRecords content = .ok records

/-- What a fetch can come to. -/
inductive Fetched (source : SpoolSource) (fetch : SpoolFetch) :
    Except Failure (List Record) × Spool.Consumed → Prop where
  /-- There is no file. -/
  | absent (h : source.files.modified (source.path fetch.stream fetch.node) = .error .notFound) :
      Fetched source fetch (.ok [], source.consumed)
  /-- The file was taken already. -/
  | unchanged {modified : Int}
      (hlooked : source.files.modified (source.path fetch.stream fetch.node) = .ok modified)
      (hsame : source.consumed.get? fetch.stream fetch.node = some modified) :
      Fetched source fetch (.ok [], source.consumed)
  /-- The time cannot be looked at. -/
  | unseen {kind : IoKind}
      (h : source.files.modified (source.path fetch.stream fetch.node) = .error kind)
      (hkind : kind ≠ .notFound) :
      Fetched source fetch
        (.error ⟨[s!"reading {source.path fetch.stream fetch.node}"], .io kind⟩, source.consumed)
  /-- The content cannot be read. -/
  | unread {kind : IoKind}
      (h : (source.filesAtRead fetch).read (source.path fetch.stream fetch.node) = .error kind) :
      Fetched source fetch
        (.error ⟨[s!"reading {source.path fetch.stream fetch.node}"], .io kind⟩, source.consumed)
  /-- The content is no array of records. -/
  | unparsed {content : List UInt8} {stop : Json.Stop}
      (hread : (source.filesAtRead fetch).read (source.path fetch.stream fetch.node) = .ok content)
      (hparsed : Spool.parseRecords content = .error stop) :
      Fetched source fetch
        (.error ⟨[s!"parsing {source.path fetch.stream fetch.node}"], .json stop⟩, source.consumed)
  /-- The file is taken. -/
  | takes {modified : Int} {content : List UInt8} {records : List Record}
      (h : source.Takes fetch modified content records) :
      Fetched source fetch
        (.ok (records.filter (Spool.wants fetch.query)),
          source.consumed.insert fetch.stream fetch.node modified)

variable {source : SpoolSource} {fetch : SpoolFetch}

theorem fetched (source : SpoolSource) (fetch : SpoolFetch) :
    source.Fetched fetch (source.answer fetch) := by
  have hpath : Spool.path source.root fetch.stream fetch.query.node =
      source.path fetch.stream fetch.node :=
    (Spool.path_getD source.root fetch.stream fetch.query.node).symm
  have hnode : fetch.query.node.getD "" = fetch.node := rfl
  simp only [answer, Spool.consume, hpath, hnode]
  cases hlooked : source.files.modified (source.path fetch.stream fetch.node) with
  | error kind =>
    by_cases hkind : kind = .notFound
    · subst hkind
      simp only [Spool.look, hlooked]
      exact .absent hlooked
    · have hlook : Spool.look source.files (source.path fetch.stream fetch.node)
          (source.consumed.get? fetch.stream fetch.node) =
          .error ⟨[s!"reading {source.path fetch.stream fetch.node}"], .io kind⟩ := by
        rw [Spool.look, hlooked]
        cases kind <;> simp_all
      rw [hlook]
      exact .unseen hlooked hkind
  | ok modified =>
    by_cases hsame : source.consumed.get? fetch.stream fetch.node = some modified
    · simp only [Spool.look, hlooked, if_pos hsame]
      exact .unchanged hlooked hsame
    · simp only [Spool.look, hlooked, if_neg hsame, Spool.readRecords]
      cases hread : (source.filesAtRead fetch).read (source.path fetch.stream fetch.node) with
      | error kind => exact .unread hread
      | ok content =>
        simp only
        cases hparsed : Spool.parseRecords content with
        | error stop => exact .unparsed hread hparsed
        | ok records => exact .takes ⟨hlooked, hsame, hread, hparsed⟩

/-- A fetch that takes its file gives the wanted records and remembers the time. -/
theorem Takes.answer_eq {modified : Int} {content : List UInt8} {records : List Record}
    (h : source.Takes fetch modified content records) :
    source.answer fetch = (.ok (records.filter (Spool.wants fetch.query)),
      source.consumed.insert fetch.stream fetch.node modified) := by
  have hfetched := source.fetched fetch
  generalize source.answer fetch = answer at hfetched
  cases hfetched with
  | absent habsent => simp [h.looked] at habsent
  | unchanged hlooked hsame =>
    rw [h.looked, Except.ok.injEq] at hlooked
    exact absurd (hlooked ▸ hsame) h.changed
  | unseen hunseen => simp [h.looked] at hunseen
  | unread hunread => simp [h.read] at hunread
  | unparsed hread hparsed =>
    rw [h.read, Except.ok.injEq] at hread
    simp [← hread, h.parsed] at hparsed
  | takes hother =>
    have hmodified := h.looked.symm.trans hother.looked
    have hcontent := h.read.symm.trans hother.read
    rw [Except.ok.injEq] at hmodified hcontent
    subst hmodified hcontent
    have hrecords := h.parsed.symm.trans hother.parsed
    rw [Except.ok.injEq] at hrecords
    rw [hrecords]

/-- A batch is empty, since there is no file or it was taken already, or it consists of the wanted
records of the file that was taken. -/
theorem batch_cases {batch : List Record} (h : (source.answer fetch).1 = .ok batch) :
    (batch = [] ∧ (source.answer fetch).2 = source.consumed ∧
      (source.files.modified (source.path fetch.stream fetch.node) = .error .notFound ∨
        ∃ modified,
          source.files.modified (source.path fetch.stream fetch.node) = .ok modified ∧
            source.consumed.get? fetch.stream fetch.node = some modified)) ∨
    ∃ modified content records, source.Takes fetch modified content records ∧
      batch = records.filter (Spool.wants fetch.query) := by
  have hfetched := source.fetched fetch
  generalize source.answer fetch = answer at hfetched h ⊢
  cases hfetched with
  | absent habsent => exact .inl ⟨by simpa using h.symm, rfl, .inl habsent⟩
  | unchanged hlooked hsame =>
    exact .inl ⟨by simpa using h.symm, rfl, .inr ⟨_, hlooked, hsame⟩⟩
  | unseen => simp at h
  | unread => simp at h
  | unparsed => simp at h
  | takes htakes => exact .inr ⟨_, _, _, htakes, (Except.ok.inj h).symm⟩

/-- A fetch that does not take its file leaves alone what is remembered. -/
theorem consumed_of_not_takes
    (h : ∀ modified content records, ¬ source.Takes fetch modified content records) :
    (source.answer fetch).2 = source.consumed := by
  have hfetched := source.fetched fetch
  generalize source.answer fetch = answer at hfetched
  cases hfetched with
  | takes htakes => exact absurd htakes (h _ _ _)
  | _ => rfl

/-- A fetch of local records takes the record that stands there when it reads. -/
theorem takes_localFile {query : Query} {modified replaced : Int} {previous : List UInt8}
    {name : String} {meanwhile : List FileTree} {consumed : Spool.Consumed}
    (hnode : query.node = none) (hchanged : consumed.get? .perf "" ≠ some modified)
    (hmeanwhile : meanwhile.getLastD (Spool.localFile modified previous) =
      Spool.localFile replaced (Spool.oneRecord name)) :
    Takes ⟨"/s", Spool.localFile modified previous, consumed⟩ ⟨.perf, query, meanwhile⟩ modified
      (Spool.oneRecord name) [.object [("Namespace", .string name)]] := by
  have hlocal : SpoolFetch.node ⟨.perf, query, meanwhile⟩ = "" := by
    simp [SpoolFetch.node, hnode]
  constructor
  · rw [path, hlocal]
    exact Spool.modified_localFile modified previous
  · rw [hlocal]
    exact hchanged
  · rw [filesAtRead, hmeanwhile, path, hlocal]
    exact Spool.read_localFile replaced (Spool.oneRecord name)
  · exact Spool.parseRecords_oneRecord name

end SpoolSource

/-! ## Moves -/

/-- What happens to a spool. -/
inductive SpoolMove where
  /-- Someone changes the files. -/
  | change (files : FileTree)
  | fetch (fetch : SpoolFetch)
  | reset
  | prune (live : List String)

namespace SpoolMove

/-- The states of the files that come about in a move. -/
def files : SpoolMove → List FileTree
  | .change files => [files]
  | .fetch request => request.meanwhile
  | .reset => []
  | .prune _ => []

/-- The move makes a source forget a node. -/
def Forgets (node : String) : SpoolMove → Prop
  | .change _ => False
  | .fetch _ => False
  | .reset => node ≠ ""
  | .prune live => node ≠ "" ∧ node ∉ live

end SpoolMove

namespace SpoolSource

/-- The source after a move. -/
def after (source : SpoolSource) : SpoolMove → SpoolSource
  | .change files => { source with files }
  | .fetch fetch =>
    { source with files := source.filesAtRead fetch, consumed := (source.answer fetch).2 }
  | .reset => MetricSource.resetNodeCache source
  | .prune live => MetricSource.pruneNodeCache live source

/-- The source after one move after another. -/
def run (source : SpoolSource) (moves : List SpoolMove) : SpoolSource := moves.foldl after source

variable {source : SpoolSource} {move : SpoolMove} {stream : Stream} {node : String}

/-- A source is asked for records by a fetch during which nobody changes the files. -/
theorem fetch_eq (source : SpoolSource) (stream : Stream) (query : Query) :
    (MetricSource.fetch stream query source).value =
      ((source.answer ⟨stream, query, []⟩).1, source.after (.fetch ⟨stream, query, []⟩)) :=
  rfl

theorem Takes.after_eq {modified : Int} {content : List UInt8} {records : List Record}
    {fetch : SpoolFetch} (h : source.Takes fetch modified content records) :
    source.after (.fetch fetch) = { source with
      files := source.filesAtRead fetch
      consumed := source.consumed.insert fetch.stream fetch.node modified } := by
  rw [after, h.answer_eq]

@[simp]
theorem run_nil (source : SpoolSource) : source.run [] = source := rfl

@[simp]
theorem run_append (source : SpoolSource) (first second : List SpoolMove) :
    source.run (first ++ second) = (source.run first).run second :=
  List.foldl_append

@[simp]
theorem run_cons (source : SpoolSource) (move : SpoolMove) (moves : List SpoolMove) :
    source.run (move :: moves) = (source.after move).run moves := rfl

@[simp]
theorem root_after (source : SpoolSource) (move : SpoolMove) :
    (source.after move).root = source.root := by
  cases move <;> rfl

@[simp]
theorem root_run (source : SpoolSource) (moves : List SpoolMove) :
    (source.run moves).root = source.root := by
  induction moves generalizing source with
  | nil => simp
  | cons move moves ih => simp [ih]

/-- The move takes the file of a stream and a node. -/
def TakesAt (source : SpoolSource) (move : SpoolMove) (stream : Stream) (node : String)
    (modified : Int) : Prop :=
  ∃ fetch content records, move = .fetch fetch ∧ fetch.stream = stream ∧ fetch.node = node ∧
    source.Takes fetch modified content records

/-- What a move can do to the time that is remembered of a file. -/
inductive Remembers (source : SpoolSource) (move : SpoolMove) (stream : Stream) (node : String) :
    Option Int → Prop where
  | taken {modified : Int} (h : source.TakesAt move stream node modified) :
      Remembers source move stream node (some modified)
  | forgotten (h : move.Forgets node) : Remembers source move stream node none
  | kept (htakes : ∀ modified, ¬ source.TakesAt move stream node modified)
      (hforgets : ¬ move.Forgets node) :
      Remembers source move stream node (source.consumed.get? stream node)

theorem remembers_filterNodes (passes : String → Bool)
    (hafter : (source.after move).consumed = source.consumed.filterNodes passes)
    (htakes : ∀ modified, ¬ source.TakesAt move stream node modified)
    (hpasses : passes node = true ↔ ¬ move.Forgets node) :
    source.Remembers move stream node ((source.after move).consumed.get? stream node) := by
  rw [hafter, Spool.Consumed.get?_filterNodes]
  by_cases hforgets : move.Forgets node
  · rw [if_neg fun h => hpasses.1 h hforgets]
    exact .forgotten hforgets
  · rw [if_pos (hpasses.2 hforgets)]
    exact .kept htakes hforgets

/-- A fetch of another file, or one that does not take its file, leaves alone what is remembered. -/
theorem remembers_fetch (source : SpoolSource) (fetch : SpoolFetch) (stream : Stream)
    (node : String) :
    source.Remembers (.fetch fetch) stream node ((source.answer fetch).2.get? stream node) := by
  by_cases htakes : ∃ modified content records, source.Takes fetch modified content records
  · obtain ⟨modified, content, records, htakes⟩ := htakes
    rw [htakes.answer_eq]
    by_cases hkey : (stream, node) = (fetch.stream, fetch.node)
    · obtain ⟨rfl, rfl⟩ := Prod.mk.inj hkey
      rw [Spool.Consumed.get?_insert_self]
      exact .taken ⟨fetch, content, records, rfl, rfl, rfl, htakes⟩
    · rw [Spool.Consumed.get?_insert_of_ne _ _ hkey]
      refine .kept ?_ (by simp [SpoolMove.Forgets])
      rintro other ⟨_, _, _, hfetch, rfl, rfl, -⟩
      rw [SpoolMove.fetch.injEq] at hfetch
      rw [hfetch] at hkey
      exact hkey rfl
  · have hnone : ∀ modified content records, ¬ source.Takes fetch modified content records :=
      fun modified content records h => htakes ⟨modified, content, records, h⟩
    rw [consumed_of_not_takes hnone]
    refine .kept ?_ (by simp [SpoolMove.Forgets])
    rintro modified ⟨_, content, records, hfetch, -, -, h⟩
    rw [SpoolMove.fetch.injEq] at hfetch
    exact hnone modified content records (hfetch ▸ h)

theorem remembers_after (source : SpoolSource) (move : SpoolMove) (stream : Stream)
    (node : String) :
    source.Remembers move stream node ((source.after move).consumed.get? stream node) := by
  cases move with
  | change files =>
    exact .kept (by simp [TakesAt]) (by simp [SpoolMove.Forgets])
  | fetch fetch => exact source.remembers_fetch fetch stream node
  | reset =>
    refine remembers_filterNodes Spool.isLocal rfl (by simp [TakesAt]) ?_
    simp [Spool.isLocal, SpoolMove.Forgets]
  | prune live =>
    refine remembers_filterNodes (fun node => Spool.isLocal node || live.contains node) rfl
      (by simp [TakesAt]) ?_
    by_cases hlocal : node = "" <;> simp [Spool.isLocal, SpoolMove.Forgets, hlocal]

/-! ## Runs -/

/-- What is remembered of a file stays while it is neither taken again nor forgotten.  The induction
is on the moves that are over. -/
theorem get?_run_of_kept {moves : List SpoolMove}
    (htakes : ∀ done next, done ++ [next] <+: moves →
      ∀ modified, ¬ (source.run done).TakesAt next stream node modified)
    (hforgets : ∀ move ∈ moves, ¬ move.Forgets node) :
    (source.run moves).consumed.get? stream node = source.consumed.get? stream node := by
  induction moves using List.reverseRecOn with
  | nil => simp
  | append_singleton moves move ih =>
    have hearlier : (source.run moves).consumed.get? stream node =
        source.consumed.get? stream node := by
      apply ih
      · intro done next hbegins
        exact htakes done next (hbegins.trans (List.prefix_append moves [move]))
      · intro other hother
        exact hforgets other (List.mem_append_left _ hother)
    have hlast : ¬ move.Forgets node := hforgets move (by simp)
    have hremembers := (source.run moves).remembers_after move stream node
    rw [run_append, run_cons, run_nil, ← hearlier]
    generalize ((source.run moves).after move).consumed.get? stream node = time at hremembers
    cases hremembers with
    | taken htaken => exact absurd htaken (htakes moves move (List.prefix_refl _) _)
    | forgotten hforgotten => exact absurd hforgotten hlast
    | kept => rfl

/-- What is remembered of a file stems from a fetch that took it, and was remembered ever since. -/
theorem exists_recorder (hempty : source.consumed = .empty) {moves : List SpoolMove}
    {modified : Int} (h : (source.run moves).consumed.get? stream node = some modified) :
    ∃ earlier fetch later content records, moves = earlier ++ .fetch fetch :: later ∧
      fetch.stream = stream ∧ fetch.node = node ∧
      (source.run earlier).Takes fetch modified content records ∧
      ∀ part, part <+: later →
        (((source.run earlier).after (.fetch fetch)).run part).consumed.get? stream node =
          some modified := by
  induction moves using List.reverseRecOn with
  | nil =>
    have hnone : Spool.Consumed.empty.get? stream node = none := by cases stream <;> rfl
    rw [run_nil, hempty, hnone] at h
    exact absurd h (by simp)
  | append_singleton moves move ih =>
    rw [run_append, run_cons, run_nil] at h
    have hremembers := (source.run moves).remembers_after move stream node
    generalize htime : ((source.run moves).after move).consumed.get? stream node = time
      at hremembers
    cases hremembers with
    | taken htaken =>
      obtain ⟨fetch, content, records, rfl, hstream, hnode, htakes⟩ := htaken
      rw [h, Option.some.injEq] at htime
      refine ⟨moves, fetch, [], content, records, rfl, hstream, hnode, htime ▸ htakes, ?_⟩
      intro part hpart
      rw [List.prefix_nil.1 hpart]
      exact h
    | forgotten => simp [h] at htime
    | kept =>
      obtain ⟨earlier, fetch, later, content, records, rfl, hstream, hnode, htakes, hsince⟩ :=
        ih (htime ▸ h)
      refine ⟨earlier, fetch, later ++ [move], content, records, by simp, hstream, hnode, htakes,
        ?_⟩
      intro part hpart
      rcases List.prefix_concat_iff.1 hpart with rfl | hpart
      · simpa using h
      · exact hsince part hpart

end SpoolSource

end PerfRelay
