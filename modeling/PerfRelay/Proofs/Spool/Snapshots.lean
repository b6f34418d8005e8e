import PerfRelay.Proofs.Spool.Fetches

/-!
# What becomes of snapshots

Producers replace the files of a spool whenever they like.  A file is not taken twice in a row while
its time stays the same, unless its node is forgotten in between, and the local node never is.

No snapshot is passed over either.  The time of a file is looked at before its content, so a file
that is replaced in between is remembered by the time of the older version and taken again.  If the
time that is remembered is the one of the version that stands there, its content is what was taken,
provided that the times tell the versions of a file apart.

Main results:

- Theorem `snapshots_taken_once`: what fetches give, and how often they take a file.
- Theorem `FreshVersions.find_eq`: between two moments with the same time stands the same version.
- Theorem `snapshots_not_lost`: a version that counts as taken was taken.
-/

namespace PerfRelay

namespace SpoolSource

/-! ## Snapshots are taken once -/

/-- A fetch that fails leaves alone what is remembered, and no fetch touches what is remembered of
other files.  A batch is empty, since there is no file or it was taken already, or it consists of
the records of the file without a namespace or with one that the query allows. -/
structure Careful (source : SpoolSource) (fetch : SpoolFetch) : Prop where
  consumed_of_error : ∀ failure, (source.answer fetch).1 = .error failure →
    (source.answer fetch).2 = source.consumed
  consumed_of_ne : ∀ stream node, (stream, node) ≠ (fetch.stream, fetch.node) →
    (source.answer fetch).2.get? stream node = source.consumed.get? stream node
  batch : ∀ batch, (source.answer fetch).1 = .ok batch →
    (batch = [] ∧ (source.answer fetch).2 = source.consumed ∧
      (source.files.modified (source.path fetch.stream fetch.node) = .error .notFound ∨
        ∃ modified,
          source.files.modified (source.path fetch.stream fetch.node) = .ok modified ∧
            source.consumed.get? fetch.stream fetch.node = some modified)) ∨
    ∃ modified content records, source.Takes fetch modified content records ∧
      batch = records.filter fun record =>
        decide (∀ name ∈ Spool.namespaceOf? record, fetch.query.allows name = true)

theorem careful (source : SpoolSource) (fetch : SpoolFetch) : source.Careful fetch := by
  have hfetched := source.fetched fetch
  constructor
  · intro failure hfailure
    generalize source.answer fetch = answer at hfetched hfailure
    cases hfetched with
    | takes => simp at hfailure
    | _ => rfl
  · intro stream node hne
    generalize source.answer fetch = answer at hfetched
    cases hfetched with
    | takes => exact Spool.Consumed.get?_insert_of_ne _ _ hne
    | _ => rfl
  · intro batch hbatch
    rcases batch_cases hbatch with hempty | ⟨modified, content, records, htakes, rfl⟩
    · exact .inl hempty
    · refine .inr ⟨modified, content, records, htakes, ?_⟩
      apply List.filter_congr
      intro record _
      rw [Bool.eq_iff_iff, Spool.wants_iff, decide_eq_true_iff]

/-- Every fetch is careful, and two fetches in a row that take the file of a stream and a node take
it at different times, unless what is remembered of the node was dropped in between.  What is
remembered of the local node is never dropped. -/
theorem snapshots_taken_once (source : SpoolSource) :
    (∀ fetch, source.Careful fetch) ∧
    ∀ (first second : SpoolMove) (between : List SpoolMove) (stream : Stream) (node : String)
      (earlier later : Int),
      source.TakesAt first stream node earlier →
      (∀ done next, done ++ [next] <+: between →
        ∀ modified, ¬ ((source.after first).run done).TakesAt next stream node modified) →
      (.reset ∈ between → node = "") →
      (∀ live, .prune live ∈ between → node = "" ∨ node ∈ live) →
      (source.run (first :: between)).TakesAt second stream node later →
      earlier ≠ later := by
  refine ⟨source.careful, ?_⟩
  rintro first second between stream node earlier later hfirst hbetween hreset hprune hsecond rfl
  have hforgets : ∀ move ∈ between, ¬ move.Forgets node := by
    intro move hmove hforgets
    cases move with
    | change files => exact hforgets
    | fetch fetch => exact hforgets
    | reset => exact hforgets (hreset hmove)
    | prune live =>
      rcases hprune live hmove with hlocal | hlive
      · exact hforgets.1 hlocal
      · exact hforgets.2 hlive
  have hremembered : (source.after first).consumed.get? stream node = some earlier := by
    obtain ⟨fetch, content, records, rfl, rfl, rfl, htakes⟩ := hfirst
    simp [after, htakes.answer_eq]
  obtain ⟨fetch, content, records, -, rfl, rfl, htakes⟩ := hsecond
  apply htakes.changed
  rw [run_cons, get?_run_of_kept hbetween hforgets, hremembered]

/-- A fetch of the records of the local node, whatever namespace they carry. -/
def localFetch (meanwhile : List FileTree) : SpoolFetch :=
  ⟨.perf, ⟨none, .off, .empty, ""⟩, meanwhile⟩

/-- A spool with a record of the local node. -/
def oneLocalRecord : SpoolSource := start "/s" (Spool.localFile 5 (Spool.oneRecord "app"))

/-- Everything but the local node is forgotten, and the file of the local node is replaced. -/
def resetAndReplaced : List SpoolMove :=
  [.reset, .change (Spool.localFile 6 (Spool.oneRecord "web"))]

/-- The two versions of the file are taken one after the other, at different times. -/
theorem snapshots_taken_once_resetAndReplaced :
    oneLocalRecord.TakesAt (.fetch (localFetch [])) .perf "" 5 ∧
      (oneLocalRecord.run (.fetch (localFetch []) :: resetAndReplaced)).TakesAt
        (.fetch (localFetch [])) .perf "" 6 ∧
      (5 : Int) ≠ 6 := by
  have hfirst : oneLocalRecord.Takes (localFetch []) 5 _ _ := takes_localFile rfl (by decide) rfl
  have hsecond : (oneLocalRecord.run (.fetch (localFetch []) :: resetAndReplaced)).TakesAt
      (.fetch (localFetch [])) .perf "" 6 := by
    rw [run_cons, hfirst.after_eq]
    exact ⟨_, _, _, rfl, rfl, rfl, takes_localFile rfl (by decide) rfl⟩
  have hfirst' : oneLocalRecord.TakesAt (.fetch (localFetch [])) .perf "" 5 :=
    ⟨_, _, _, rfl, rfl, rfl, hfirst⟩
  refine ⟨hfirst', hsecond, ?_⟩
  refine (snapshots_taken_once oneLocalRecord).2 _ _ resetAndReplaced _ _ _ _ hfirst' ?_ ?_ ?_
    hsecond
  · rintro done next hbegins modified ⟨fetch, -, -, rfl, -⟩
    have hfetch : SpoolMove.fetch fetch ∈ resetAndReplaced := hbegins.subset (by simp)
    simp [resetAndReplaced] at hfetch
  · simp
  · simp [resetAndReplaced]

end SpoolSource

/-! ## No snapshot is passed over -/

/-- Whenever what stands at a path changes, it gets a time that nothing there has had before. -/
def FreshVersions (path : String) (states : List FileTree) : Prop :=
  ∀ past now next, past ++ [now, next] <+: states →
    next.find path = now.find path ∨
      ∀ modified, next.modified path = .ok modified →
        ∀ earlier ∈ past ++ [now], earlier.modified path ≠ .ok modified

/-- Between two moments with the same time stands the same version.  The induction is on the states
in between, from the last one on. -/
theorem FreshVersions.find_eq {path : String} {past later : List FileTree} {first : FileTree}
    {modified : Int} (h : FreshVersions path (past ++ first :: later))
    (hfirst : first.modified path = .ok modified)
    (hlast : (later.getLastD first).modified path = .ok modified) :
    ∀ tree ∈ first :: later, tree.find path = first.find path := by
  induction later using List.reverseRecOn with
  | nil => simp
  | append_singleton later last ih =>
    rw [List.getLastD_concat] at hlast
    obtain ⟨before, now, hsplit⟩ : ∃ before now, first :: later = before ++ [now] :=
      ⟨_, _, (List.dropLast_concat_getLast (List.cons_ne_nil first later)).symm⟩
    have hnow : later.getLastD first = now := by
      rw [← List.getLast_eq_getLastD (List.cons_ne_nil first later)]
      simp [hsplit]
    have hstates : past ++ first :: (later ++ [last]) = (past ++ before) ++ [now, last] := by
      rw [← List.cons_append, hsplit]
      simp
    have hsame : last.find path = now.find path := by
      rcases h (past ++ before) now last (hstates ▸ List.prefix_refl _) with hsame | hfresh
      · exact hsame
      · have hmem : first ∈ (past ++ before) ++ [now] := by
          rw [List.append_assoc, ← hsplit]
          simp
        exact absurd hfirst (hfresh modified hlast first hmem)
    have hearlier := ih
      (fun past' now' next hbegins => h past' now' next (hbegins.trans ⟨[last], by simp⟩))
      (by rw [hnow, FileTree.modified, ← hsame]; exact hlast)
    intro tree htree
    rw [← List.cons_append, List.mem_append, List.mem_singleton] at htree
    rcases htree with htree | rfl
    · exact hearlier tree htree
    · rw [hsame]
      exact hearlier now (hsplit ▸ by simp)

namespace SpoolSource

variable (source : SpoolSource)

/-- The states of the files, from the first one on. -/
def states (moves : List SpoolMove) : List FileTree :=
  source.files :: moves.flatMap SpoolMove.files

theorem files_after (move : SpoolMove) :
    (source.after move).files = move.files.getLastD source.files := by
  cases move <;> rfl

theorem files_run (moves : List SpoolMove) :
    (source.run moves).files = (moves.flatMap SpoolMove.files).getLastD source.files := by
  induction moves using List.reverseRecOn with
  | nil => rfl
  | append_singleton moves move ih =>
    rw [run_append, run_cons, run_nil, files_after, ih, List.flatMap_append]
    simp only [List.flatMap_singleton, List.getLastD_eq_getLast?, List.getLast?_append]
    cases move.files.getLast? <;> rfl

/-- The files stand as in the last of their states. -/
theorem states_eq (moves : List SpoolMove) :
    source.states moves = (source.states moves).dropLast ++ [(source.run moves).files] := by
  have hlast := List.getLast_eq_getLastD (List.cons_ne_nil source.files
    (moves.flatMap SpoolMove.files))
  rw [files_run, ← hlast]
  exact (List.dropLast_concat_getLast _).symm

theorem states_append (first second : List SpoolMove) :
    source.states (first ++ second) =
      (source.states first).dropLast ++ (source.run first).states second := by
  calc
    _ = source.states first ++ second.flatMap SpoolMove.files := by simp [states]
    _ = _ := by
      conv_lhs => rw [states_eq]
      simp [states]

variable {source}

/-- What a fetch read is the version that stands there now, if it looked at the time of this
version.  The fetch looked in the first of the states and read in one of the others. -/
theorem read_of_freshVersions {path : String} {past : List FileTree} {fetch : SpoolFetch}
    {later : List SpoolMove} {modified : Int} {content : List UInt8}
    (hfresh : FreshVersions path (past ++ source.states (.fetch fetch :: later)))
    (hlooked : source.files.modified path = .ok modified)
    (hcurrent : (source.run (.fetch fetch :: later)).files.find path =
      .ok (.file modified content)) :
    (source.filesAtRead fetch).read path = .ok content := by
  rw [files_run] at hcurrent
  have hlast : (((SpoolMove.fetch fetch :: later).flatMap SpoolMove.files).getLastD
      source.files).modified path = .ok modified := by
    rw [FileTree.modified, hcurrent]
    rfl
  have hsame := FreshVersions.find_eq hfresh hlooked hlast
  have hmem : source.filesAtRead fetch ∈ source.states (.fetch fetch :: later) := by
    rw [filesAtRead, states, List.flatMap_cons]
    exact List.cons_subset_cons source.files (List.subset_append_left _ _)
      List.getLastD_mem_cons
  rw [FileTree.read, hsame _ hmem, ← hsame _ List.getLastD_mem_cons, hcurrent]

/-- If the time of the version that stands there is remembered, this version was taken by the fetch
that the time stems from: the records that the fetch gave are those of this very version that it
wanted, and the time was remembered ever since.  A moment between the two looks of a fetch is the
end of a run whose last moves are the changes up to that moment. -/
theorem snapshots_not_lost {root : String} {files : FileTree} {moves : List SpoolMove}
    {stream : Stream} {node : String} {modified : Int} {content : List UInt8}
    (hfresh : FreshVersions (Spool.path root stream (some node)) ((start root files).states moves))
    (hremembered : ((start root files).run moves).consumed.get? stream node = some modified)
    (hcurrent : ((start root files).run moves).files.find (Spool.path root stream (some node)) =
      .ok (.file modified content)) :
    ∃ earlier fetch later records, moves = earlier ++ .fetch fetch :: later ∧
      fetch.stream = stream ∧ fetch.node = node ∧
      ((start root files).run earlier).Takes fetch modified content records ∧
      ((start root files).run earlier).answer fetch =
        (.ok (records.filter (Spool.wants fetch.query)),
          ((start root files).run earlier).consumed.insert stream node modified) ∧
      ∀ part, part <+: later →
        ((((start root files).run earlier).after (.fetch fetch)).run part).consumed.get? stream
          node = some modified := by
  obtain ⟨earlier, fetch, later, taken, records, rfl, rfl, rfl, htakes, hsince⟩ :=
    exists_recorder rfl hremembered
  have hpath : ((start root files).run earlier).path fetch.stream fetch.node =
      Spool.path root fetch.stream (some fetch.node) := by
    rw [path, root_run]
    rfl
  have hlooked := htakes.looked
  have hread := htakes.read
  rw [hpath] at hlooked hread
  rw [states_append] at hfresh
  rw [run_append] at hcurrent
  have hcontent : taken = content := by
    rw [read_of_freshVersions hfresh hlooked hcurrent] at hread
    exact (Except.ok.inj hread).symm
  subst hcontent
  exact ⟨earlier, fetch, later, records, rfl, rfl, rfl, htakes, htakes.answer_eq, hsince⟩

/-- The file of the local node is replaced between the two looks of the first fetch. -/
def replacedInBetween : List SpoolMove :=
  [.fetch (localFetch [Spool.localFile 6 (Spool.oneRecord "web")]), .fetch (localFetch [])]

theorem freshVersions_replacedInBetween :
    FreshVersions (Spool.path "/s" .perf (some "")) (oneLocalRecord.states replacedInBetween) := by
  intro past now next hbegins
  have hpast : past = [] := by
    have hlength := hbegins.length_le
    simp [states, replacedInBetween, SpoolMove.files, localFetch] at hlength
    exact hlength
  subst hpast
  obtain ⟨rfl, rfl⟩ : now = oneLocalRecord.files ∧
      next = Spool.localFile 6 (Spool.oneRecord "web") := by
    simpa [states, replacedInBetween, SpoolMove.files, localFetch] using hbegins
  right
  intro modified hnext earlier hearlier hsame
  rw [List.nil_append, List.mem_singleton] at hearlier
  rw [hearlier, oneLocalRecord, start, Spool.modified_localFile, Except.ok.injEq] at hsame
  rw [Spool.modified_localFile, Except.ok.injEq] at hnext
  omega

/-- The version that stands there in the end was read by both fetches.  The first one remembers the
time of the version before, so there is another one, and it is the one that the time stems from. -/
theorem snapshots_not_lost_replacedInBetween :
    (oneLocalRecord.run replacedInBetween).consumed.get? .perf "" = some 6 ∧
      ∃ earlier fetch later records, replacedInBetween = earlier ++ .fetch fetch :: later ∧
        (oneLocalRecord.run earlier).Takes fetch 6 (Spool.oneRecord "web") records := by
  have hfirst : oneLocalRecord.Takes
      (localFetch [Spool.localFile 6 (Spool.oneRecord "web")]) 5 _ _ :=
    takes_localFile rfl (by decide) rfl
  have hsecond : (oneLocalRecord.after
      (.fetch (localFetch [Spool.localFile 6 (Spool.oneRecord "web")]))).Takes (localFetch []) 6
        (Spool.oneRecord "web") [.object [("Namespace", .string "web")]] := by
    rw [hfirst.after_eq]
    exact takes_localFile rfl (by decide) rfl
  have hremembered : (oneLocalRecord.run replacedInBetween).consumed.get? .perf "" = some 6 := by
    rw [replacedInBetween, run_cons, run_cons, hsecond.after_eq, run_nil]
    exact Spool.Consumed.get?_insert_self _ .perf "" 6
  obtain ⟨earlier, fetch, later, records, hmoves, -, -, htakes, -⟩ :=
    snapshots_not_lost freshVersions_replacedInBetween hremembered
      (Spool.find_localFile 6 (Spool.oneRecord "web"))
  exact ⟨hremembered, earlier, fetch, later, records, hmoves, htakes⟩

end SpoolSource

end PerfRelay
