import PerfRelay.Proofs.Json.Printed
import PerfRelay.Sink.Console

/-!
# What the console sink writes can be taken back

Batches that are written one after another leave one line for each record, in order.  A line ends at
the first newline, because a newline inside a text is printed as an escape, and it is read as an
object that has the record and its tag as its only members.  So nothing of what was handed on is
lost, wherever the batches begin and end, and whatever stands in tags, names and texts.

JSON itself does not limit how deep values are nested.  The reader of this library does, and for it
the object on a line is one level deeper than the record.

Main results:

- Theorem `emitAll_of_quiet`: as long as nothing is reported, each batch is written as a whole.
- Theorem `recoverable_emitAll`: the records and their tags are found again in what was written.
-/

namespace PerfRelay

/-! ## Writing -/

namespace Outlet

variable {outlet outlet' : Outlet} {bytes : List UInt8}

/-- An outlet to which some bytes were written. -/
def append (outlet : Outlet) (bytes : List UInt8) : Outlet :=
  { outlet with written := outlet.written ++ bytes }

@[simp] theorem append_nil (outlet : Outlet) : outlet.append [] = outlet := by
  simp only [append, List.append_nil]

@[simp] theorem append_append (outlet : Outlet) (s t : List UInt8) :
    (outlet.append s).append t = outlet.append (s ++ t) := by
  simp only [append, List.append_assoc]

@[simp] theorem flushFault_append (outlet : Outlet) (bytes : List UInt8) :
    (outlet.append bytes).flushFault = outlet.flushFault := rfl

/-- If all bytes were written, they stand behind those that were there. -/
theorem eq_append_of_write (h : outlet.write bytes = (true, outlet')) :
    outlet' = outlet.append bytes := by
  unfold write at h
  split at h
  · cases h
    rfl
  · cases h

/-- Everything fits where there is no limit. -/
theorem write_of_unlimited (h : outlet.capacity = none) (bytes : List UInt8) :
    outlet.write bytes = (true, outlet.append bytes) := by
  apply write_of_fits
  rw [fits, h]
  rfl

end Outlet

namespace Console

open Json (byte)

/-- Batches with their tags, in the order in which they are handed on. -/
abbrev Batches := List (String × List Record)

/-- Writes batches one after another. -/
def emitAll (batches : Batches) (outlet : Outlet) : Noted Entry Outlet :=
  batches.foldlM (fun outlet batch => emit batch.1 batch.2 outlet) outlet

/-- The records of some batches in their order, each with its tag. -/
def entries (batches : Batches) : List (String × Record) :=
  batches.flatMap fun batch => batch.2.map fun record => (batch.1, record)

/-- The object on the line of a record. -/
def lineObject (entry : String × Record) : Json.Value :=
  .object [("record", entry.2), ("tag", .string entry.1)]

/-- The lines of some records, a newline after each. -/
def transcript (entries : List (String × Record)) : List UInt8 :=
  entries.flatMap fun entry => (lineObject entry).bytes ++ [byte '\n']

theorem encode_line (tag : String) (record : Record) :
    Utf8.encode (line tag record) = (lineObject (tag, record)).bytes ++ [byte '\n'] := by
  have hnewline : Utf8.encode "\n" = [byte '\n'] := by decide
  rw [← hnewline]
  simp [line, lineObject, Json.Value.bytes, Utf8.encode]

theorem transcript_append (front back : List (String × Record)) :
    transcript (front ++ back) = transcript front ++ transcript back :=
  List.flatMap_append

/-- The records of one batch with its tag. -/
abbrev tagged (tag : String) (records : List Record) : List (String × Record) :=
  records.map fun record => (tag, record)

theorem entries_cons (batch : String × List Record) (batches : Batches) :
    entries (batch :: batches) = tagged batch.1 batch.2 ++ entries batches :=
  List.flatMap_cons

variable {batches : Batches} {tag : String} {records : List Record} {outlet outlet' : Outlet}

/-- A batch that was written as a whole has left its lines. -/
theorem eq_append_of_writeAll (h : writeAll tag records outlet = (true, outlet')) :
    outlet' = outlet.append (transcript (tagged tag records)) := by
  induction records generalizing outlet with
  | nil =>
    cases h
    exact (Outlet.append_nil _).symm
  | cons record records ih =>
    cases hwrite : outlet.write (Utf8.encode (line tag record)) with
    | mk written after =>
      cases written with
      | false => simp [writeAll, hwrite] at h
      | true =>
        simp only [writeAll, hwrite] at h
        rw [ih h, Outlet.eq_append_of_write hwrite, encode_line, Outlet.append_append]
        rfl

/-- If nothing is reported, the lines of the batch were written. -/
theorem emit_of_quiet (h : (emit tag records outlet).notes = []) :
    (emit tag records outlet).value = outlet.append (transcript (tagged tag records)) := by
  cases hwrite : writeAll tag records outlet with
  | mk written after =>
    cases written with
    | false => simp [emit, hwrite] at h
    | true =>
      cases hflush : after.flushFault with
      | some fault => simp [emit, hwrite, hflush] at h
      | none =>
        simp only [emit, hwrite, hflush]
        exact eq_append_of_writeAll hwrite

/-- As long as nothing is reported, the batches are written as a whole.  The induction is on the
batches: what one of them reports is part of what all of them report. -/
theorem emitAll_of_quiet (h : (emitAll batches outlet).notes = []) :
    (emitAll batches outlet).value = outlet.append (transcript (entries batches)) := by
  induction batches generalizing outlet with
  | nil => exact (Outlet.append_nil outlet).symm
  | cons batch batches ih =>
    rw [emitAll, List.foldlM_cons, Noted.notes_bind, List.append_eq_nil_iff] at h
    obtain ⟨hfirst, hmore⟩ := h
    rw [emitAll, List.foldlM_cons, Noted.value_bind, ← emitAll, ih hmore, emit_of_quiet hfirst,
      Outlet.append_append, entries_cons, transcript_append]

/-! ## A writer that does not fail -/

theorem writeAll_of_unlimited (h : outlet.capacity = none) :
    writeAll tag records outlet = (true, outlet.append (transcript (tagged tag records))) := by
  induction records generalizing outlet with
  | nil => rw [writeAll, tagged, List.map_nil, transcript, List.flatMap_nil, Outlet.append_nil]
  | cons record records ih =>
    have hmore : writeAll tag records (outlet.append (Utf8.encode (line tag record))) = _ := ih h
    simp only [writeAll, Outlet.write_of_unlimited h]
    rw [hmore, encode_line, Outlet.append_append]
    rfl

theorem emit_of_unlimited (hcapacity : outlet.capacity = none) (hflush : outlet.flushFault = none) :
    emit tag records outlet = ⟨outlet.append (transcript (tagged tag records)), []⟩ := by
  simp only [emit, writeAll_of_unlimited hcapacity, Outlet.flushFault_append, hflush]

/-- A writer that takes everything and can be flushed gives no reason for a report. -/
theorem quiet_of_unlimited (hcapacity : outlet.capacity = none)
    (hflush : outlet.flushFault = none) : (emitAll batches outlet).notes = [] := by
  induction batches generalizing outlet with
  | nil => rfl
  | cons batch batches ih =>
    rw [emitAll, List.foldlM_cons, emit_of_unlimited hcapacity hflush, Noted.notes_bind]
    exact ih hcapacity hflush

/-! ## Taking the records back -/

/-- The bytes of the lines of an output, without what follows the last newline. -/
def outputLines (output : List UInt8) : List (List UInt8) := (output.splitOn (byte '\n')).dropLast

/-- The record on a line and its tag, if the line is an object that has them. -/
def taggedRecord? (line : List UInt8) : Option (String × Record) :=
  match Json.parseWithin none line with
  | .error _ => none
  | .ok value => do
    let tag ← (← value.field? "tag").asString?
    let record ← value.field? "record"
    return (tag, record)

/-- The records on the lines of an output and their tags, if each line has them. -/
def recover? (output : List UInt8) : Option (List (String × Record)) :=
  (outputLines output).mapM taggedRecord?

/-- An output from which records and their tags can be recovered. -/
structure Recoverable (entries : List (String × Record)) (output : List UInt8) : Prop where
  /-- Between its newlines the output has a line for each record, and nothing after the last one. -/
  lines : output.splitOn (byte '\n') = entries.map (fun entry => (lineObject entry).bytes) ++ [[]]
  /-- Each line says a JSON object with the record and the tag and no other members. -/
  reads : ∀ entry ∈ entries,
    Json.parseWithin none (lineObject entry).bytes = .ok (lineObject entry)
  /-- With at most 127 arrays and objects open at a time it is read so as well, unless the record
  itself has that many inside one another. -/
  parses : ∀ entry ∈ entries, entry.2.depth ≤ 126 →
    Json.parse (lineObject entry).bytes = .ok (lineObject entry)
  /-- The records and their tags are found again, in order. -/
  recovers : recover? output = some entries

/-- Lines without newlines are found again between the newlines. -/
theorem splitOn_lines {newline : UInt8} {lines : List (List UInt8)}
    (h : ∀ line ∈ lines, newline ∉ line) :
    (lines.flatMap (· ++ [newline])).splitOn newline = lines ++ [[]] := by
  induction lines with
  | nil => rfl
  | cons line lines ih =>
    obtain ⟨hline, hlines⟩ := List.forall_mem_cons.1 h
    have hplain : ∀ b ∈ line, (b == newline) = false := by
      intro b hb
      rw [beq_eq_false_iff_ne]
      rintro rfl
      exact hline hb
    have hmore := ih hlines
    rw [List.splitOn_eq_splitOnP] at hmore ⊢
    rw [List.flatMap_cons, List.append_assoc, List.singleton_append,
      List.splitOnP_append_cons (p := (· == newline)) _ _ (beq_self_eq_true newline),
      List.splitOnP_eq_singleton hplain, hmore]
    rfl

/-- The object on a line is one level deeper than the record. -/
theorem depth_lineObject (entry : String × Record) :
    (lineObject entry).depth = entry.2.depth + 1 := by
  simp [lineObject, Json.Value.depth, Json.Value.depthMembers]

variable {entry : String × Record} {handed : List (String × Record)}

theorem isExact_lineObject (h : entry.2.IsExact) : (lineObject entry).IsExact := by
  have hsorted : ("record" : String) < "tag" := by decide
  refine .object (List.pairwise_pair.2 hsorted) ?_
  rw [List.forall_mem_cons, List.forall_mem_singleton]
  exact ⟨h, .string entry.1⟩

/-- A line is the object that was printed on it, for every reader that reads as deep. -/
theorem parseWithin_lineObject (h : entry.2.IsExact) {limit : Option Nat}
    (hroom : (Json.Treatment.keepWithin limit).Allows (entry.2.depth + 1)) :
    Json.parseWithin limit (lineObject entry).bytes = .ok (lineObject entry) := by
  rw [← depth_lineObject] at hroom
  exact (isExact_lineObject h).parseWithin_bytes hroom

theorem newline_not_mem_lineObject (h : entry.2.IsExact) :
    byte '\n' ∉ (lineObject entry).bytes := by
  intro hmem
  have hprintable := (isExact_lineObject h).isPrintable_bytes _ hmem
  exact absurd hprintable (by decide)

theorem taggedRecord?_lineObject (h : entry.2.IsExact) :
    taggedRecord? (lineObject entry).bytes = some entry := by
  rw [taggedRecord?, parseWithin_lineObject h Json.allows_of_unlimited]
  rfl

/-- Lines that are read one by one are read as a whole. -/
theorem mapM_taggedRecord? (h : ∀ entry ∈ handed, entry.2.IsExact) :
    (handed.map fun entry => (lineObject entry).bytes).mapM taggedRecord? = some handed := by
  induction handed with
  | nil => rfl
  | cons entry handed ih =>
    obtain ⟨hentry, hmore⟩ := List.forall_mem_cons.1 h
    rw [List.map_cons, List.mapM_cons, taggedRecord?_lineObject hentry, ih hmore]
    rfl

/-- What is written can be taken back. -/
theorem recoverable_transcript (h : ∀ entry ∈ handed, entry.2.IsExact) :
    Recoverable handed (transcript handed) := by
  have hsplit : (transcript handed).splitOn (byte '\n') =
      handed.map (fun entry => (lineObject entry).bytes) ++ [[]] := by
    rw [transcript, ← splitOn_lines, List.flatMap_map]
    exact List.forall_mem_map.2 fun entry hentry => newline_not_mem_lineObject (h entry hentry)
  constructor
  case lines => exact hsplit
  case reads =>
    intro entry hentry
    exact parseWithin_lineObject (h entry hentry) Json.allows_of_unlimited
  case parses =>
    intro entry hentry hdepth
    rw [Json.parse_eq_parseWithin]
    exact parseWithin_lineObject (h entry hentry) (Json.keep_allows (Nat.succ_le_succ hdepth))
  case recovers => rw [recover?, outputLines, hsplit, List.dropLast_concat, mapM_taggedRecord? h]

/-- For batches of records without binary64 numbers, a writer that takes everything reports nothing;
and whenever nothing is reported, what was written is one line for each record, in order, from which
the records and their tags can be recovered. -/
theorem recoverable_emitAll
    (hexact : ∀ batch ∈ batches, ∀ record ∈ batch.2, Json.Value.IsExact record) :
    (outlet.capacity = none → outlet.flushFault = none → (emitAll batches outlet).notes = []) ∧
    ((emitAll batches outlet).notes = [] →
      ∃ output, (emitAll batches outlet).value = outlet.append output ∧
        Recoverable (entries batches) output) := by
  have hentries : ∀ entry ∈ entries batches, entry.2.IsExact := by
    intro entry hentry
    obtain ⟨batch, hbatch, hentry⟩ := List.mem_flatMap.1 hentry
    obtain ⟨record, hrecord, rfl⟩ := List.mem_map.1 hentry
    exact hexact batch hbatch record hrecord
  constructor
  · exact quiet_of_unlimited
  · intro hquiet
    exact ⟨transcript (entries batches), emitAll_of_quiet hquiet, recoverable_transcript hentries⟩

/-- Newlines, quotes and backslashes in a tag, in names and in a text, a batch without records, and
whole numbers at both ends of the words. -/
def awkwardBatches : Batches :=
  [("line\none", [.object [("a\"b\\", .array [.null, .int (-9223372036854775808)]),
      ("c\nd", .string "\u000b\n\u2028")]]),
    ("none", []),
    ("", [.bool true, .int 18446744073709551615])]

/-- An outlet that takes everything. -/
def openOutlet : Outlet := ⟨[], none, "disk full", none⟩

/-- Three records are recovered with their tags. -/
theorem recoverable_emitAll_awkwardBatches :
    (∀ batch ∈ awkwardBatches, ∀ record ∈ batch.2, Json.Value.IsExact record) ∧
      (emitAll awkwardBatches openOutlet).notes = [] ∧
      ∃ output, (emitAll awkwardBatches openOutlet).value = openOutlet.append output ∧
        Recoverable [("line\none", .object [("a\"b\\", .array [.null, .int (-9223372036854775808)]),
            ("c\nd", .string "\u000b\n\u2028")]),
          ("", .bool true), ("", .int 18446744073709551615)] output := by
  have hexact : ∀ batch ∈ awkwardBatches, ∀ record ∈ batch.2, Json.Value.IsExact record := by
    simp only [awkwardBatches, List.forall_mem_cons, List.not_mem_nil, false_imp_iff, implies_true,
      and_true, true_and]
    refine ⟨.object (by decide) ?_, .bool _, .int (by decide) (by decide)⟩
    simp only [List.forall_mem_cons, List.not_mem_nil, false_imp_iff, implies_true, and_true]
    refine ⟨.array ?_, .string _⟩
    simp only [List.forall_mem_cons, List.not_mem_nil, false_imp_iff, implies_true, and_true]
    exact ⟨.null, .int (by decide) (by decide)⟩
  obtain ⟨hquiet, hrecoverable⟩ := @recoverable_emitAll awkwardBatches openOutlet hexact
  exact ⟨hexact, hquiet rfl rfl, hrecoverable (hquiet rfl rfl)⟩

end Console

end PerfRelay
