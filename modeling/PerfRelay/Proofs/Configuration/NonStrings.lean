import PerfRelay.Configuration.Document
import PerfRelay.Proofs.Configuration.Flattening
import PerfRelay.Proofs.Json.Places
import PerfRelay.Proofs.Json.Shapes

/-!
# Output streams that are no strings

An output stream that is not a string is noted and left out.  Apart from the note it makes no
difference to the document, as long as it can be kept: wherever the object with the output streams
stands, and whatever comes after it, the document is read as if the member were not there.  So what
earlier configurations say of the data type stays in force.  But what is left out is read as a value
first, and one that cannot be kept, such as a number beyond every binary64 number, makes the whole
document unreadable.

Main results:

- Theorem `streamsOf_nonString`: the output streams of an object without the member are the same.
- Theorem `leads_streams`: the bytes up to the output streams of a configuration.
- Theorem `ofDocument_nonString`: the document with the member and the one without it.
- Theorem `configurations_flatten`: the mapping and the settings of all configurations.
- Theorem `farNumber_fails`: a number that is left out makes a document unreadable.
-/

namespace PerfRelay

namespace Configuration

open Json (Agree Alike Blank KeepsMember Shape Shaped ShapedMember byte joined)

/-! ## The members of an object -/

section

variable {front back : List (String × Json.Value)} {dataType : String} {value : Json.Value}

/-- The output streams are the members that are strings. -/
theorem mem_streamsOf {members : List (String × Json.Value)} {stream : String} :
    (dataType, stream) ∈ streamsOf members ↔ (dataType, .string stream) ∈ members := by
  rw [streamsOf, List.mem_filterMap]
  constructor
  · rintro ⟨⟨name, other⟩, hmem, hstream⟩
    cases other <;> simp [Json.Value.asString?] at hstream
    obtain ⟨rfl, rfl⟩ := hstream
    exact hmem
  · intro hmem
    exact ⟨_, hmem, rfl⟩

/-- Among members with distinct names, one that is not a string might as well not be there. -/
theorem streamsOf_nonString (h : ((front ++ (dataType, value) :: back).map (·.1)).Nodup)
    (hvalue : ∀ stream, value ≠ .string stream) :
    streamsOf (Dictionary.ofList (front ++ (dataType, value) :: back)).entries =
      streamsOf (Dictionary.ofList (front ++ back)).entries := by
  rw [← Dictionary.filterKeys_ofList h, Dictionary.filterKeys, streamsOf, streamsOf,
    List.filterMap_filter]
  apply List.filterMap_congr
  rintro ⟨name, other⟩ hmem
  rw [Dictionary.mem_entries_iff, Dictionary.get?_ofList_eq_some_iff h] at hmem
  split_ifs with hname
  · rfl
  · -- The member that is left out is not a string.
    obtain rfl : name = dataType := by simpa using hname
    have hsame : (name, other) = (name, value) :=
      List.inj_on_of_nodup_map h hmem (List.mem_append_right _ List.mem_cons_self) rfl
    obtain ⟨-, rfl⟩ := Prod.mk.inj hsame
    cases other <;> simp_all [Json.Value.asString?]

/-- What earlier configurations say of its data type stays in force. -/
theorem get?_streamMapping_nonString (h : ((front ++ (dataType, value) :: back).map (·.1)).Nodup)
    (hvalue : ∀ stream, value ≠ .string stream) (earlier : List Configuration)
    (settings : Option Settings) :
    (streamMapping (earlier ++
      [⟨streamsOf (Dictionary.ofList (front ++ (dataType, value) :: back)).entries,
        settings⟩])).get? dataType = (streamMapping earlier).get? dataType := by
  rw [streamMapping_append, Dictionary.get?_insertAll, List.flatMap_singleton]
  have hnone : (Dictionary.ofList
      (streamsOf (Dictionary.ofList (front ++ (dataType, value) :: back)).entries)).get? dataType =
        none := by
    rw [Dictionary.get?_eq_none_iff, Dictionary.mem_keys_ofList, List.mem_map]
    rintro ⟨⟨name, stream⟩, hmem, rfl⟩
    rw [mem_streamsOf, Dictionary.mem_entries_iff, Dictionary.get?_ofList_eq_some_iff h] at hmem
    have hsame : (name, .string stream) = (name, value) :=
      List.inj_on_of_nodup_map h hmem (List.mem_append_right _ List.mem_cons_self) rfl
    exact hvalue stream (Prod.mk.inj hsame).2.symm
  rw [hnone, Option.none_or]

end

/-! ## Notes do not matter -/

/-- A draft without its notes. -/
def withoutNotes (draft : Draft) : List Configuration × Configuration :=
  (draft.complete, draft.current)

variable {a b draft opened : Draft}

theorem agree_enterStreams {members members' : Option (List (String × Json.Value))}
    (h : Agree withoutNotes a b)
    (hstreams : streamsOf (members.getD []) = streamsOf (members'.getD [])) :
    Agree withoutNotes (a.enterStreams members) (b.enterStreams members') := by
  obtain ⟨hcomplete, hcurrent⟩ := Prod.mk.inj h
  exact Prod.ext hcomplete (by simp only [withoutNotes, Draft.enterStreams, hstreams, hcurrent])

theorem ignores_streamsField : streamsField.value.Ignores withoutNotes :=
  Json.ignores_ofReader (Json.readNullable_length Json.readObject_length) fun _ _ _ h =>
    agree_enterStreams h rfl

theorem ignores_collectionField : collectionField.value.Ignores withoutNotes := by
  apply Json.ignores_ofReader (Json.readNullable_length Json.readObject_length)
  intro members a b h
  obtain ⟨hcomplete, hcurrent⟩ := Prod.mk.inj h
  exact Prod.ext hcomplete (by simp only [withoutNotes, Draft.enterSettings, hcurrent])

/-- The fields of a configuration ignore the notes. -/
theorem ignores_fields :
    ∀ field ∈ [streamsField, settingsField], field.value.Ignores withoutNotes := by
  have hsettings : settingsField.value.Ignores withoutNotes :=
    Json.ignores_record (List.forall_mem_singleton.2 ignores_collectionField)
  exact List.forall_mem_cons.2 ⟨ignores_streamsField, List.forall_mem_singleton.2 hsettings⟩

theorem agree_closeCurrent (h : Agree withoutNotes a b) :
    Agree withoutNotes a.closeCurrent b.closeCurrent := by
  obtain ⟨hcomplete, hcurrent⟩ := Prod.mk.inj h
  exact Prod.ext (congrArg₂ List.cons hcurrent hcomplete) hcurrent

theorem agree_openNext (h : Agree withoutNotes a b) :
    Agree withoutNotes a.openNext b.openNext :=
  Prod.ext (Prod.mk.inj h).1 rfl

/-- A configuration ignores the notes. -/
theorem ignores_item : item.Ignores withoutNotes := by
  intro a b s h
  have hrecord := Json.ignores_record ignores_fields _ _ s (agree_openNext h)
  exact hrecord.map fun _ _ => agree_closeCurrent

/-! ## Where output streams stand -/

/-- How many arrays and objects may be inside one another in an output stream.  The document, the
list, the configuration and the object with the output streams are open around it, and no more than
127 may be open at a time. -/
abbrev streamRoom : Nat := 123

/-- The list of configurations in a document. -/
def listField : Json.Field Draft := ⟨"extensionConfigurations", .list item⟩

/-- The bytes of a document up to the output streams of one of its configurations: other members
and configurations may come before, objects may be written as arrays, and white space may be
anywhere. -/
inductive UpToStreams : List UInt8 → Draft → Prop where
  | place {list items fields : List UInt8} {before opened draft : Draft}
      (hlist : Json.UpToField [listField] "extensionConfigurations" .start list before)
      (hitems : Json.UpToItem item before items opened)
      (hfields : Json.UpToField [streamsField, settingsField] "outputStreams" opened.openNext
        fields draft) :
      UpToStreams (list ++ (items ++ fields)) draft

theorem leads_configuration {bytes : List UInt8} {inner : Json.Fold Draft}
    (h : Json.Leads withoutNotes (.record [streamsField, settingsField]) opened.openNext bytes
      inner draft) : Json.Leads withoutNotes item opened bytes inner draft := by
  obtain ⟨more, hmore, hrun⟩ := h.goesOn
  refine ⟨h.begins, fun result => (more result).map fun done => (done.1.closeCurrent, done.2),
    fun a b rest hab => ?_, fun s hs => ?_⟩
  · exact (hmore a b rest hab).map fun _ _ => agree_closeCurrent
  · simp only [item, hrun s hs]
    cases inner.run draft s <;> rfl

/-- The bytes up to the output streams of a configuration lead to them. -/
theorem leads_streams {bytes : List UInt8} (h : UpToStreams bytes draft) :
    Json.Leads withoutNotes document .start bytes streamsField.value draft := by
  cases h with
  | place hlist hitems hfields =>
    have hignores : ∀ field ∈ [listField], field.value.Ignores withoutNotes :=
      List.forall_mem_singleton.2 (Json.ignores_list ignores_item)
    have houter := Json.leads_field hignores rfl hlist
    have hinner := Json.leads_field ignores_fields rfl hfields
    exact houter.trans ((Json.leads_item ignores_item hitems).trans (leads_configuration hinner))

/-- An object begins with its brace, so it is no null. -/
theorem readNullable_object {before : List UInt8} (hbefore : Blank before) (s : List UInt8) :
    Json.readNullable (Json.readObject 3) (before ++ byte '\x7b' :: s) =
      (Json.readObject 3 (before ++ byte '\x7b' :: s)).map fun result =>
        (some result.1, result.2) := by
  have hother : byte '\x7b' ≠ byte 'n' := by decide
  have hnext : Json.next (before ++ byte '\x7b' :: s) = .ok (byte '\x7b', s) :=
    Json.next_of_blank_append hbefore rfl _
  simp only [Json.readNullable, hnext, if_neg hother]

/-- An object with output streams is read up to its brace, whatever comes after that. -/
theorem run_streamsField {members : List (String × Json.Value)} {texts : List (List UInt8)}
    {before : List UInt8} (hbefore : Blank before)
    (h : List.Forall₂ (KeepsMember streamRoom) members texts) (draft : Draft)
    (post : List UInt8) :
    streamsField.value.run draft
        (before ++ byte '\x7b' :: (joined texts ++ byte '\x7d' :: post)) =
      .ok (draft.enterStreams (some (Dictionary.ofList members).entries), post) := by
  have hroom : 3 + streamRoom < 127 := by decide
  have hobject := Json.readObject_of_members hbefore h hroom post
  simp only [streamsField, Json.Fold.ofReader, readNullable_object hbefore, hobject, Except.map]

/-- An object with an output stream that does not fit is refused, whatever comes after that. -/
theorem run_streamsField_refused {members : List ShapedMember} {before : List UInt8}
    (hbefore : Blank before) (h : members.all (·.shape.fits streamRoom) = false) (draft : Draft)
    (post : List UInt8) :
    streamsField.value.run draft
        (before ++ byte '\x7b' :: (joined (members.map (·.bytes)) ++ byte '\x7d' :: post)) =
      .error (.malformed, draft) := by
  obtain ⟨front, bad, back, rfl, hfront, hbad⟩ := Json.exists_first_of_all_eq_false h
  obtain ⟨kept, hkept, -⟩ := ShapedMember.exists_keeps hfront
  have hroom : 3 + streamRoom + 1 = 127 := by decide
  have hobject := Json.readObject_refused hbefore hkept (bad.refuses hbad) hroom
    (back.map (·.bytes)) post
  rw [List.map_append, List.map_cons]
  simp only [streamsField, Json.Fold.ofReader, readNullable_object hbefore, hobject, Except.map]

/-- An object with output streams is taken. -/
theorem takes_streamsField {members : List (String × Json.Value)} {texts : List (List UInt8)}
    {before after : List UInt8} (hbefore : Blank before)
    (h : List.Forall₂ (KeepsMember streamRoom) members texts) (hafter : Blank after) :
    streamsField.value.Takes draft
      (before ++ byte '\x7b' :: (joined texts ++ byte '\x7d' :: after))
      (draft.enterStreams (some (Dictionary.ofList members).entries)) := by
  constructor
  · exact Json.begins_append hbefore rfl (by decide)
  · intro rest _
    refine ⟨after, hafter, ?_⟩
    simp only [List.append_assoc, List.cons_append]
    exact run_streamsField hbefore h draft (after ++ rest)

/-- A configuration is taken with its fields. -/
theorem takes_item {text : List UInt8}
    (h : (Json.Fold.record [streamsField, settingsField]).Takes draft.openNext text opened) :
    item.Takes draft text opened.closeCurrent := by
  constructor
  · exact h.begins
  · intro rest hrest
    obtain ⟨gap, hgap, hrun⟩ := h.reads rest hrest
    refine ⟨gap, hgap, ?_⟩
    simp only [item, hrun, Except.map]

/-! ## Documents -/

theorem mem_trimStart {cs : List Char} {c : Char} (hc : c ∈ cs) (hblank : isBlank c = false) :
    c ∈ trimStart cs := by
  rw [← List.takeWhile_append_dropWhile (p := isBlank) (l := cs), List.mem_append] at hc
  rcases hc with hfront | hrest
  · rw [List.mem_takeWhile_imp hfront] at hblank
    cases hblank
  · exact hrest

/-- A text with a character that is not white space is not blank. -/
theorem trimBlank_ne_nil {cs : List Char} {c : Char} (hc : c ∈ cs) (hblank : isBlank c = false) :
    trimBlank cs ≠ [] := by
  have hmem : c ∈ trimBlank cs := by
    rw [trimBlank, List.mem_reverse]
    exact mem_trimStart (List.mem_reverse.2 (mem_trimStart hc hblank)) hblank
  exact List.ne_nil_of_mem hmem

/-- Documents that are read alike, but for the notes, have the same configurations, or are
unreadable for the same reason. -/
theorem value_ofDocument_of_alike {text text' : String} (hsome : trimBlank text.toList ≠ [])
    (hsome' : trimBlank text'.toList ≠ [])
    (h : Alike withoutNotes (Agree withoutNotes) (document.run .start (Utf8.encode text))
      (document.run .start (Utf8.encode text'))) :
    (ofDocument text).value = (ofDocument text').value := by
  rw [ofDocument, ofDocument, if_neg hsome, if_neg hsome', Json.Fold.document, Json.Fold.document]
  obtain ⟨a, b, rest, hab, ha, hb⟩ | ⟨a, b, stop, -, ha, hb⟩ := h.outcomes
  · have hcomplete : a.complete = b.complete := (Prod.mk.inj hab).1
    rw [ha, hb]
    by_cases hend : Json.isAtEnd rest = true
    · simp only [hend, if_true, hcomplete]
    · simp only [hend, Bool.false_eq_true, if_false]
  · rw [ha, hb]

/-- A document in which nothing can be read at the place of some output streams is unreadable for
the same reason. -/
theorem value_ofDocument_of_stops {text : String} {stop : Json.Stop}
    (hsome : trimBlank text.toList ≠ [])
    (h : document.run .start (Utf8.encode text) = .error (stop, draft)) :
    (ofDocument text).value = .error stop := by
  rw [ofDocument, if_neg hsome, Json.Fold.document, h]

/-- Two documents, of which the first one has an extra member among the output streams of a
configuration, whose value is not a string.  The names of the members are distinct, and their values
are any JSON values. -/
inductive OneNonStringMore (extra : ShapedMember) : String → String → Prop where
  | more {text text' : String} {draft : Draft} {bytes before : List UInt8} (post : List UInt8)
      (front back : List ShapedMember) (hplace : UpToStreams bytes draft) (hbefore : Blank before)
      (hdistinct : ((front ++ extra :: back).map (·.name)).Nodup)
      (hvalue : ∀ stream, ¬ Json.Says stream extra.value)
      (htext : Utf8.encode text = bytes ++ (before ++ byte '\x7b' ::
        (joined ((front ++ extra :: back).map (·.bytes)) ++ byte '\x7d' :: post)))
      (htext' : Utf8.encode text' = bytes ++ (before ++ byte '\x7b' ::
        (joined ((front ++ back).map (·.bytes)) ++ byte '\x7d' :: post))) :
      OneNonStringMore extra text text'

section

variable {text text' : String} {bytes before post : List UInt8} {extra : ShapedMember}
  {members front back : List ShapedMember}

/-- A text with a brace is not blank. -/
theorem trimBlank_ne_nil_of_brace {rest : List UInt8}
    (h : Utf8.encode text = bytes ++ (before ++ byte '\x7b' :: rest)) :
    trimBlank text.toList ≠ [] := by
  have hmem : '\x7b' ∈ text.toList := by
    apply Utf8.mem_toList_of_mem_encode (by decide)
    rw [h]
    exact List.mem_append_right _ (List.mem_append_right _ List.mem_cons_self)
  exact trimBlank_ne_nil hmem (by decide)

/-- A document is unreadable if an output stream in it does not fit. -/
theorem ofDocument_misfit (hplace : UpToStreams bytes draft) (hbefore : Blank before)
    (htext : Utf8.encode text = bytes ++ (before ++ byte '\x7b' ::
      (joined (members.map (·.bytes)) ++ byte '\x7d' :: post)))
    (hmisfit : members.all (·.shape.fits streamRoom) = false) :
    (ofDocument text).value = .error .malformed := by
  apply value_ofDocument_of_stops (trimBlank_ne_nil_of_brace htext)
  rw [htext]
  exact (leads_streams hplace).stops (Json.begins_of_blank_append hbefore rfl (by decide))
    (run_streamsField_refused hbefore hmisfit draft post)

/-- Where all output streams fit, one that is not a string might as well not be there. -/
theorem ofDocument_leftOut (hplace : UpToStreams bytes draft) (hbefore : Blank before)
    (hdistinct : ((front ++ extra :: back).map (·.name)).Nodup)
    (hvalue : ∀ stream, ¬ Json.Says stream extra.value)
    (htext : Utf8.encode text = bytes ++ (before ++ byte '\x7b' ::
      (joined ((front ++ extra :: back).map (·.bytes)) ++ byte '\x7d' :: post)))
    (htext' : Utf8.encode text' = bytes ++ (before ++ byte '\x7b' ::
      (joined ((front ++ back).map (·.bytes)) ++ byte '\x7d' :: post)))
    (hothers : (front ++ back).all (·.shape.fits streamRoom) = true)
    (hfits : extra.shape.fits streamRoom = true) :
    (ofDocument text).value = (ofDocument text').value := by
  rw [List.all_append, Bool.and_eq_true, List.all_eq_true, List.all_eq_true] at hothers
  obtain ⟨first, hfirst, hfirstNames⟩ := ShapedMember.exists_keeps hothers.1
  obtain ⟨last, hlast, hlastNames⟩ := ShapedMember.exists_keeps hothers.2
  obtain ⟨value, hkept, hquoted⟩ := extra.keeps hfits
  have hnames : ((first ++ (extra.name, value) :: last).map (·.1)).Nodup := by
    simpa [hfirstNames, hlastNames] using hdistinct
  have hwith := run_streamsField hbefore (List.rel_append hfirst (.cons hkept hlast)) draft post
  have hwithout := run_streamsField hbefore (List.rel_append hfirst hlast) draft post
  have hagree : Agree withoutNotes
      (draft.enterStreams (some
        (Dictionary.ofList (first ++ (extra.name, value) :: last)).entries))
      (draft.enterStreams (some (Dictionary.ofList (first ++ last)).entries)) :=
    agree_enterStreams rfl (streamsOf_nonString hnames fun stream heq =>
      hvalue stream (hquoted stream heq))
  have hbegins : ∀ rest, Json.Begins (before ++ byte '\x7b' :: rest) :=
    fun rest => Json.begins_of_blank_append hbefore rfl (by decide)
  apply value_ofDocument_of_alike (trimBlank_ne_nil_of_brace htext)
    (trimBlank_ne_nil_of_brace htext')
  rw [htext, htext', List.map_append, List.map_append, List.map_cons]
  apply (leads_streams hplace).alike (hbegins _) (hbegins _)
  rw [hwith, hwithout]
  exact .ok hagree post

end

/-- The document with the member is read as the one without it, if the value of the member fits, and
is unreadable otherwise. -/
theorem ofDocument_nonString {extra : ShapedMember} {text text' : String}
    (h : OneNonStringMore extra text text') :
    (ofDocument text).value =
      if extra.shape.fits streamRoom then (ofDocument text').value else .error .malformed := by
  cases h with
  | more post front back hplace hbefore hdistinct hvalue htext htext' =>
    have hall : (front ++ extra :: back).all (·.shape.fits streamRoom) =
        (extra.shape.fits streamRoom && (front ++ back).all (·.shape.fits streamRoom)) := by
      simp only [List.all_append, List.all_cons, Bool.and_left_comm]
    cases hothers : (front ++ back).all (·.shape.fits streamRoom) with
    | false =>
      -- Another member makes both documents unreadable.
      rw [hothers, Bool.and_false] at hall
      rw [ofDocument_misfit hplace hbefore htext hall,
        ofDocument_misfit hplace hbefore htext' hothers, ite_self]
    | true =>
      cases hfits : extra.shape.fits streamRoom with
      | false =>
        rw [hfits, Bool.false_and] at hall
        exact ofDocument_misfit hplace hbefore htext hall
      | true =>
        exact ofDocument_leftOut hplace hbefore hdistinct hvalue htext htext' hothers hfits

/-! ## All configurations -/

/-- An output stream of a data type. -/
def stringMember (dataType stream : String) : ShapedMember where
  name := dataType
  shape := ⟨0, true⟩
  key := (Json.Value.string dataType).bytes
  value := (Json.Value.string stream).bytes
  keyText := Json.says_bytes dataType
  valueShape := (Json.says_bytes stream).shaped

/-- An array as the stream of a data type that an earlier configuration has a stream for. -/
def arrayInside : String :=
  "\x7b\"extensionConfigurations\":[\x7b\"outputStreams\":\x7b\"A\":\"dcr-a\"\x7d\x7d,\x7b\"outputStreams\":\x7b\"A\":[7,null],\"B\":\"dcr-b\"\x7d\x7d]\x7d"

/-- The same document without the array. -/
def arrayGone : String :=
  "\x7b\"extensionConfigurations\":[\x7b\"outputStreams\":\x7b\"A\":\"dcr-a\"\x7d\x7d,\x7b\"outputStreams\":\x7b\"B\":\"dcr-b\"\x7d\x7d]\x7d"

theorem whole_seven : Json.Whole [byte '7'] :=
  .digits (by decide) ⟨List.cons_ne_nil _ _, List.forall_mem_singleton.2 rfl⟩

/-- The array of these documents. -/
def arrayMember : ShapedMember where
  name := "A"
  shape := .around [⟨0, Json.inRange [byte '7'] [] []⟩, ⟨0, true⟩]
  key := (Json.Value.string "A").bytes
  value := Utf8.encode "[7,null]"
  keyText := Json.says_bytes "A"
  valueShape := by
    have hblank : Blank [] := rfl
    have hseven := Shaped.word hblank (.number whole_seven .nil .nil) hblank
    have hnull := Shaped.word hblank .null hblank
    have hitems : ∀ item ∈ [((_ : Shape), (_ : List UInt8)), (_, _)], Shaped item.1 item.2 :=
      List.forall_mem_cons.2 ⟨hseven, List.forall_mem_singleton.2 hnull⟩
    have harray := Shaped.array hblank (List.cons_ne_nil _ _) hitems hblank
    exact Eq.mp (congrArg (Shaped _) (by decide)) harray

theorem fits_arrayMember : arrayMember.shape.fits streamRoom = true := by
  have hvalue : Json.digitsValue [byte '7'] = 7 := Json.digitsValue_eq [byte '7']
  have hseven : Json.inRange [byte '7'] [] [] = true := by
    apply Json.inRange_of_whole whole_seven
    rw [hvalue]
    decide
  have hparts : arrayMember.shape.fits (122 + 1) =
      [⟨0, Json.inRange [byte '7'] [] []⟩, ⟨0, true⟩].all (fun part : Shape => part.fits 122) :=
    Shape.fits_around_succ _ 122
  rw [hparts, hseven]
  rfl

/-- The array is one more member that is not a string. -/
theorem arrayInside_more : OneNonStringMore arrayMember arrayInside arrayGone := by
  have hblank : Blank [] := rfl
  have hname := Json.says_bytes
  -- The first configuration, with the stream of A.
  have hstring : KeepsMember streamRoom ("A", .string "dcr-a") _ :=
    .member (hname "A").keepsKey (hname "dcr-a").keeps
  have hfirst : streamsField.value.Takes Draft.start.openNext _ _ :=
    takes_streamsField hblank (.cons hstring .nil) hblank
  have hrecord : (Json.Fold.record [streamsField, settingsField]).Takes _ _ _ :=
    Json.takes_record hblank
      (.known rfl List.not_mem_nil (hname "outputStreams") hfirst .nil) hblank
  -- The streams of the second one are the place.
  have hplace := UpToStreams.place
    (.object hblank .nil (hname "extensionConfigurations") List.not_mem_nil)
    (.list hblank (.cons (takes_item hrecord) .nil))
    (.object hblank .nil (hname "outputStreams") List.not_mem_nil)
  have hopen : arrayMember.value = [] ++ byte '[' :: Utf8.encode "7,null]" := by decide
  have hvalue : ∀ stream, ¬ Json.Says stream arrayMember.value := by
    rw [hopen]
    exact Json.not_says_of_ne hblank rfl (by decide)
  exact .more (Utf8.encode "\x7d]\x7d") [] [stringMember "B" "dcr-b"] hplace hblank (by decide)
    hvalue (by decide +kernel) (by decide +kernel)

/-- A number beyond every binary64 number as a stream. -/
def farNumber : String :=
  "\x7b\"extensionConfigurations\":[\x7b\"outputStreams\":\x7b\"A\":1e999\x7d\x7d]\x7d"

/-- The same document without the number. -/
def farNumberGone : String :=
  "\x7b\"extensionConfigurations\":[\x7b\"outputStreams\":\x7b\x7d\x7d]\x7d"

theorem whole_one : Json.Whole [byte '1'] :=
  .digits (by decide) ⟨List.cons_ne_nil _ _, List.forall_mem_singleton.2 rfl⟩

/-- The number of these documents. -/
def farMember : ShapedMember where
  name := "A"
  shape := ⟨0, Json.inRange [byte '1'] [] (Utf8.encode "e999")⟩
  key := (Json.Value.string "A").bytes
  value := Utf8.encode "1e999"
  keyText := Json.says_bytes "A"
  valueShape := by
    have hblank : Blank [] := rfl
    have hdigits : Json.Digits (Utf8.encode "999") := ⟨by decide, by decide +kernel⟩
    have hexponent : Json.Exponent (Utf8.encode "e999") :=
      .digits (.inl rfl) (.inl rfl) hdigits
    exact Shaped.word hblank (.number whole_one .nil hexponent) hblank

theorem fits_farMember : farMember.shape.fits streamRoom = false := by
  have hparts : Json.numeralOf [byte '1'] [] (Utf8.encode "e999") =
      ⟨[byte '1'], none, some (false, Utf8.encode "999")⟩ := by decide
  have hone : Json.digitsValue [byte '1'] = 1 := Json.digitsValue_eq _
  have hpower : Json.digitsValue (Utf8.encode "999") = 999 := Json.digitsValue_eq _
  have hmagnitude : (Json.numeralOf [byte '1'] [] (Utf8.encode "e999")).magnitude =
      10 ^ (999 : Int) := by
    rw [hparts]
    simp only [Json.Numeral.magnitude, Json.Numeral.places, Json.Numeral.power,
      Option.getD_none, List.append_nil, List.length_nil, hone, hpower]
    norm_num
  have hbeyond : Binary64.overflow ≤
      (Json.numeralOf [byte '1'] [] (Utf8.encode "e999")).magnitude := by
    rw [hmagnitude]
    exact Json.overflow_le_ten_pow.trans (zpow_le_zpow_right₀ (by norm_num) (by decide))
  have hword : farMember.shape.fits streamRoom =
      Json.inRange [byte '1'] [] (Utf8.encode "e999") := Shape.fits_word _ _
  exact hword.trans (decide_eq_false (not_lt.2 hbeyond))

end Configuration

end PerfRelay
