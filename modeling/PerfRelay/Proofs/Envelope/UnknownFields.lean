import PerfRelay.Proofs.Envelope.Formats
import PerfRelay.Proofs.Envelope.RoundTrip
import PerfRelay.Proofs.Json.Members
import PerfRelay.Proofs.MessagePack.Values

/-!
# Envelopes with unknown fields

An envelope may have fields that nobody knows, before and after the known one, with values of every
kind.  They do not change the text that is read, whichever widths the heads of a MessagePack map
have and whatever white space and spelling a JSON object has.  A known field that comes a second
time makes the bytes no envelope, whatever comes after its name.

Main results:

- Theorem `run_entries`: the entries of a MessagePack map, read one after the other.
- Theorem `members_of_fields`: the members of a JSON object with the known field among them.
- Theorem `unknown_fields_ignored`: the text of an envelope is that of its only known field.
-/

namespace PerfRelay.Envelope

variable {text : String}

/-- The fields of an envelope, known and unknown ones in any order, with the texts of the known
ones. -/
inductive Fields (Known : String → List UInt8 → Prop) (Unknown : List UInt8 → Prop) :
    List String → List (List UInt8) → Prop where
  | nil : Fields Known Unknown [] []
  | known {text : String} {texts : List String} {field : List UInt8} {fields : List (List UInt8)}
      (hfield : Known text field) (h : Fields Known Unknown texts fields) :
      Fields Known Unknown (text :: texts) (field :: fields)
  | unknown {texts : List String} {field : List UInt8} {fields : List (List UInt8)}
      (hfield : Unknown field) (h : Fields Known Unknown texts fields) :
      Fields Known Unknown texts (field :: fields)

/-! ## Entries of a MessagePack map -/

/-- The known field. -/
inductive KnownEntry : String → List UInt8 → Prop where
  | entry {text : String} {key value : List UInt8} (hkey : MessagePack.Says fieldName key)
      (hvalue : MessagePack.Says text value) : KnownEntry text (key ++ value)

/-- A field with another name; with the map around it, its values are not nested too deep. -/
inductive UnknownEntry : List UInt8 → Prop where
  | entry {name : String} {key value : List UInt8} (hname : name ≠ fieldName)
      (hkey : MessagePack.Says name key) (hvalue : MessagePack.Packs 1022 value) :
      UnknownEntry (key ++ value)

/-- A key selects the known field just if it is its name. -/
theorem readKey_of_says {name : String} {key : List UInt8} (h : MessagePack.Says name key)
    (rest : List UInt8) : readKey (key ++ rest) = .ok (decide (name = fieldName), rest) := by
  have hname : (Utf8.encode name == Utf8.encode fieldName) = decide (name = fieldName) := by
    rw [Bool.eq_iff_iff, beq_iff_eq, decide_eq_true_eq]
    constructor
    · intro heq
      have hdecoded := congrArg Utf8.decode? heq
      rw [Utf8.decode?_encode, Utf8.decode?_encode] at hdecoded
      exact Option.some.inj hdecoded
    · exact congrArg Utf8.encode
  cases h with
  | written h =>
    have htake : MessagePack.takeBytes (Utf8.encode name).length (Utf8.encode name ++ rest) =
        .ok (Utf8.encode name, rest) :=
      MessagePack.takeBytes_append rfl rest
    simp only [List.append_assoc, readKey, MessagePack.readHead_of_written h, readKeyAfter, htake,
      Except.map, hname]

theorem entryStep_known {entry : List UInt8} (h : KnownEntry text entry) (left : Nat)
    (rest : List UInt8) :
    entryStep (left + 1, none) (entry ++ rest) = .ok (.again (left, some text), rest) := by
  cases h with
  | entry hkey hvalue =>
    simp only [List.append_assoc, entryStep, readKey_of_says hkey, decide_true, readEntryAfter,
      MessagePack.readText_of_says hvalue, Except.map]

theorem entryStep_unknown {entry : List UInt8} (h : UnknownEntry entry) (left : Nat)
    (found : Option String) (rest : List UInt8) :
    entryStep (left + 1, found) (entry ++ rest) = .ok (.again (left, found), rest) := by
  cases h with
  | entry hname hkey hvalue =>
    have hroom : 1 + 1 + 1022 ≤ MessagePack.depthLimit := by decide
    have hskip := MessagePack.skipValue_of_packs hvalue hroom rest
    simp only [List.append_assoc, entryStep, readKey_of_says hkey, decide_eq_false hname,
      readEntryAfter, hskip, Except.map]

/-- The entries of a map are read one after the other, if the known field comes once at most.  The
induction is on the entries; `found` is the text of the known field once it has come. -/
theorem run_entries {texts : List String} {fields : List (List UInt8)}
    (h : Fields KnownEntry UnknownEntry texts fields) (found : Option String)
    (honce : (found.toList ++ texts).length ≤ 1) (left : Nat) (rest : List UInt8) :
    entryLoop.run (fields.length + left, found) (fields.flatten ++ rest) =
      entryLoop.run (left, (found.toList ++ texts).head?) rest := by
  induction h generalizing found with
  | nil => cases found <;> simp
  | @known text texts field fields hfield _ ih =>
    -- The known field has not come before, and will not come again.
    cases found with
    | some other => simp at honce
    | none =>
      have hstep : entryLoop.step (fields.length + left + 1, none)
          (field ++ (fields.flatten ++ rest)) =
          .ok (.again (fields.length + left, some text), fields.flatten ++ rest) :=
        entryStep_known hfield _ _
      rw [List.length_cons, Nat.succ_add, List.flatten_cons, List.append_assoc,
        Loop.run_of_again hstep, ih _ honce]
      rfl
  | @unknown texts field fields hfield _ ih =>
    have hstep : entryLoop.step (fields.length + left + 1, found)
        (field ++ (fields.flatten ++ rest)) =
        .ok (.again (fields.length + left, found), fields.flatten ++ rest) :=
      entryStep_unknown hfield _ _ _
    rw [List.length_cons, Nat.succ_add, List.flatten_cons, List.append_assoc,
      Loop.run_of_again hstep, ih _ honce]

/-- A map is read entry by entry. -/
theorem readPacked_map {head : List UInt8} {count : Nat}
    (h : (MessagePack.Head.map count).Written head) (rest : List UInt8) :
    readPacked (head ++ rest) = entryLoop.run (count, none) rest := by
  rw [readPacked, MessagePack.readHead_of_written h]
  rfl

/-- No map begins with a byte below `0x80`. -/
theorem exists_high_of_map {head : List UInt8} {count : Nat}
    (h : (MessagePack.Head.map count).Written head) : ∃ b tail, head = b :: tail ∧ 0x80 ≤ b := by
  have hread := MessagePack.readHead_of_written h []
  rcases head with _ | ⟨b, tail⟩
  · cases hread
  · refine ⟨b, tail, rfl, ?_⟩
    by_contra hlow
    have hform : MessagePack.form? b = some (.plain (.unsigned b.toNat)) :=
      if_pos (UInt8.lt_iff_toNat_lt.1 (UInt8.not_le.1 hlow))
    simp [MessagePack.readHead, hform] at hread

/-- A map with the known field and any others carries its text, whatever follows the map. -/
theorem decode_map {head : List UInt8} {fields : List (List UInt8)}
    (h : Fields KnownEntry UnknownEntry [text] fields)
    (hhead : (MessagePack.Head.map fields.length).Written head) (rest : List UInt8) :
    decode (head ++ (fields.flatten ++ rest)) = .accepted text := by
  have hread : readPacked (head ++ (fields.flatten ++ rest)) = .ok (text, rest) := by
    have hrun := run_entries h none (by simp) 0 rest
    rw [readPacked_map hhead, ← Nat.add_zero fields.length, hrun]
    exact Loop.run_of_finish rfl
  exact decode_of_packed_ok hread

/-- A map in which the known field comes again is refused at its second name. -/
theorem decode_map_again {head key : List UInt8} {fields : List (List UInt8)} {count : Nat}
    (h : Fields KnownEntry UnknownEntry [text] fields) (hcount : fields.length < count)
    (hhead : (MessagePack.Head.map count).Written head) (hkey : MessagePack.Says fieldName key)
    (rest : List UInt8) :
    decode (head ++ (fields.flatten ++ (key ++ rest))) = .rejected .mismatch := by
  obtain ⟨left, rfl⟩ := Nat.exists_eq_add_of_lt hcount
  have hread : readPacked (head ++ (fields.flatten ++ (key ++ rest))) = .error .mismatch := by
    have hrun := run_entries h none (by simp) (left + 1) (key ++ rest)
    have hstep : entryLoop.step (left + 1, some text) (key ++ rest) = .error .mismatch := by
      simp only [entryLoop, entryStep, readKey_of_says hkey, decide_true, readEntryAfter]
    rw [readPacked_map hhead, Nat.add_assoc, hrun]
    exact Loop.run_of_error hstep
  obtain ⟨b, tail, rfl, hb⟩ := exists_high_of_map hhead
  rw [List.cons_append] at hread ⊢
  rw [decode_of_high hb, hread]
  rfl

/-! ## Members of a JSON object -/

/-- The known field, its name and its text spelled in any way. -/
inductive KnownMember : String → List UInt8 → Prop where
  | member {text : String} {name value : List UInt8} (hname : Json.Says fieldName name)
      (hvalue : Json.Says text value) : KnownMember text (Json.member (name, value))

/-- A field with another name and any value. -/
inductive UnknownMember : List UInt8 → Prop where
  | member {other : String} {name value : List UInt8} (hother : other ≠ fieldName)
      (hname : Json.Says other name) (hvalue : Json.Element value) :
      UnknownMember (Json.member (name, value))

/-- How far the reading has come after some members, with the text of the known field once it has
come. -/
def progressOf (found : Option String) : Json.Progress String :=
  ⟨found.getD "", found.toList.map fun _ => fieldName, true⟩

/-- The value of the known field is a string, spelled in any way. -/
theorem takes_field {value : List UInt8} (h : Json.Says text value) (found : String) :
    field.value.Takes found value text := by
  constructor
  · intro rest
    obtain ⟨tail, hnext⟩ := h.next_eq rest
    exact ⟨_, tail, hnext, by decide⟩
  · intro rest _
    obtain ⟨gap, hgap, htext⟩ := Json.readText_of_says h rest
    refine ⟨gap, hgap, ?_⟩
    simp only [field, Json.Fold.ofReader, htext]

/-- Known and unknown fields are the members of a record, if the known field comes once at most.
The induction is on the fields. -/
theorem members_of_fields {texts : List String} {members : List (List UInt8)}
    (h : Fields KnownMember UnknownMember texts members) (found : Option String)
    (honce : (found.toList ++ texts).length ≤ 1) :
    Json.Members [field] (progressOf found).state (progressOf found).seen members
      (progressOf (found.toList ++ texts).head?).state
      (progressOf (found.toList ++ texts).head?).seen := by
  induction h generalizing found with
  | nil =>
    have hfound : (found.toList ++ []).head? = found := by cases found <;> rfl
    rw [hfound]
    exact .nil
  | known hmember _ ih =>
    cases found with
    | some other => simp at honce
    | none =>
      cases hmember with
      | member hname hvalue =>
        exact .known rfl List.not_mem_nil hname (takes_field hvalue _) (ih (some _) honce)
  | unknown hmember _ ih =>
    cases hmember with
    | @member other _ _ hother hname hvalue =>
      have hfield : [field].find? (·.name = other) = none := by
        have hname : field.name ≠ other := fun heq => hother heq.symm
        simp [hname]
      exact .unknown hfield hname hvalue (ih found honce)

/-- An object is read up to what comes after its members, the known field among them. -/
theorem run_object {before : List UInt8} {members : List (List UInt8)}
    (h : Fields KnownMember UnknownMember [text] members) (hbefore : Json.Blank before)
    {rest : List UInt8} (hrest : Json.Follows rest) :
    ∃ gap, Json.Blank gap ∧ (Json.Fold.record [field]).run ""
        (before ++ Json.byte '\x7b' :: (Json.joined members ++ rest)) =
      (Json.memberLoop [field]).run (progressOf (some text)) (gap ++ rest) := by
  have hsome : members ≠ [] := by
    rintro rfl
    cases h
  have hnone : Json.Blank [] := rfl
  have hmembers := members_of_fields h none (by simp)
  obtain ⟨gap, hgap, hrun⟩ := Json.run_members hmembers hnone hrest
  refine ⟨gap, hgap, ?_⟩
  rw [Json.run_record_object hbefore]
  exact (Json.run_joined hmembers hsome rest).trans hrun

/-- An object with the known field and any others carries its text. -/
theorem decode_object {before after : List UInt8} {members : List (List UInt8)}
    (h : Fields KnownMember UnknownMember [text] members) (hbefore : Json.Blank before)
    (hafter : Json.Blank after) :
    decode (before ++ Json.byte '\x7b' :: (Json.joined members ++ Json.byte '\x7d' :: after)) =
      .accepted text := by
  have hend : Json.Follows (Json.byte '\x7d' :: after) := Json.follows_cons (.inr (.inr rfl)) _
  obtain ⟨gap, hgap, hrun⟩ := run_object h hbefore hend
  have hclose : (Json.memberLoop [field]).run (progressOf (some text))
      (gap ++ Json.byte '\x7d' :: after) = .ok (text, after) :=
    Json.run_closeObject hgap true after
  exact decode_eq_accepted_iff.2 (.inr (readPlain_eq_ok.2 ⟨after, hrun.trans hclose, hafter⟩))

/-- White space and a brace are below `0x80`. -/
theorem exists_low_of_object {before : List UInt8} (hbefore : Json.Blank before) (s : List UInt8) :
    ∃ b tail, before ++ Json.byte '\x7b' :: s = b :: tail ∧ b < 0x80 := by
  rcases before with _ | ⟨b, before⟩
  · exact ⟨_, _, rfl, by decide⟩
  · have hspace : Json.isSpace b = true := Json.blank_iff.1 hbefore b List.mem_cons_self
    simp only [Json.isSpace, Bool.or_eq_true, beq_iff_eq] at hspace
    refine ⟨b, _, rfl, ?_⟩
    rcases hspace with ((rfl | rfl) | rfl) | rfl <;> decide

/-- An object in which the known field comes again is refused at its second name. -/
theorem decode_object_again {before name : List UInt8} {members : List (List UInt8)}
    (h : Fields KnownMember UnknownMember [text] members) (hbefore : Json.Blank before)
    (hname : Json.Says fieldName name) (rest : List UInt8) :
    decode (before ++ Json.byte '\x7b' ::
      (Json.joined members ++ Json.byte ',' :: (name ++ rest))) = .rejected .mismatch := by
  have hmore : Json.Follows (Json.byte ',' :: (name ++ rest)) := Json.follows_cons (.inl rfl) _
  obtain ⟨gap, hgap, hrun⟩ := run_object h hbefore hmore
  have hagain : (Json.memberLoop [field]).run (progressOf (some text))
      (gap ++ Json.byte ',' :: (name ++ rest)) = .error (.mismatch, text) := by
    have hrefused : Json.readMember [field] (progressOf (some text)) (name ++ rest) =
        .error (.mismatch, text) :=
      Json.readMember_again rfl List.mem_cons_self hname rest
    apply Loop.run_of_error
    rw [progressOf, Json.step_nextMember hgap, ← progressOf, hrefused]
    rfl
  have hplain : readPlain (before ++ Json.byte '\x7b' ::
      (Json.joined members ++ Json.byte ',' :: (name ++ rest))) = .error .mismatch := by
    rw [readPlain, Json.Fold.document, hrun, hagain]
    rfl
  obtain ⟨b, tail, hbytes, hb⟩ := exists_low_of_object hbefore
    (Json.joined members ++ Json.byte ',' :: (name ++ rest))
  rw [hbytes] at hplain ⊢
  rw [decode_of_low hb, decodePlain, hplain]

/-! ## Both formats -/

/-- An envelope carries the text of its only known field, whatever other fields it has: a
MessagePack map with heads of any width and unknown values of every kind that are not nested too
deep, and a JSON object with any white space and unknown values of any depth.  Where the known
field comes a second time, the bytes are no envelope. -/
theorem unknown_fields_ignored (text : String) :
    (∀ fields head rest, Fields KnownEntry UnknownEntry [text] fields →
      (MessagePack.Head.map fields.length).Written head →
        decode (head ++ (fields.flatten ++ rest)) = .accepted text) ∧
    (∀ members before after, Fields KnownMember UnknownMember [text] members →
      Json.Blank before → Json.Blank after →
        decode (before ++ Json.byte '\x7b' ::
          (Json.joined members ++ Json.byte '\x7d' :: after)) = .accepted text) ∧
    (∀ fields count head key rest, Fields KnownEntry UnknownEntry [text] fields →
      fields.length < count → (MessagePack.Head.map count).Written head →
        MessagePack.Says fieldName key →
          decode (head ++ (fields.flatten ++ (key ++ rest))) = .rejected .mismatch) ∧
    ∀ members before name rest, Fields KnownMember UnknownMember [text] members →
      Json.Blank before → Json.Says fieldName name →
        decode (before ++ Json.byte '\x7b' ::
          (Json.joined members ++ Json.byte ',' :: (name ++ rest))) = .rejected .mismatch := by
  refine ⟨?_, ?_, ?_, ?_⟩
  · intro fields head rest h hhead
    exact decode_map h hhead rest
  · intro members before after h hbefore hafter
    exact decode_object h hbefore hafter
  · intro fields count head key rest h hcount hhead hkey
    exact decode_map_again h hcount hhead hkey rest
  · intro members before name rest h hbefore hname
    exact decode_object_again h hbefore hname rest

/-! ### A nested value beside the known field -/

/-- An array of a floating point number and a map from true to an application value. -/
def nestedValue : List UInt8 :=
  [0xdc, 0x00, 0x02, 0xca, 0x3f, 0x80, 0x00, 0x00, 0x81, 0xc3, 0xd4, 0x05, 0xff]

theorem packs_nestedValue : MessagePack.Packs 1022 nestedValue := by
  have hfloat : MessagePack.Packs 1021 [0xca, 0x3f, 0x80, 0x00, 0x00] :=
    .scalar (@MessagePack.Head.Written.sized 0xca 4 0x3f800000 (fun _ => .scalar)
      (by simp [MessagePack.sizedHeads]) (by decide))
  have hextension : MessagePack.Packs 1020 ([0xd4] ++ 0x05 :: [0xff]) :=
    .extension (.fixedExtension (k := 0) (by decide))
  have hmap : MessagePack.Packs 1021
      ([0x81] ++ [([0xc3], [0xd4, 0x05, 0xff])].flatMap fun entry => entry.1 ++ entry.2) := by
    refine .map (.shortMap (by decide)) (fun entry hentry => ?_) fun entry hentry => ?_
    · rw [List.mem_singleton.1 hentry]
      exact .scalar .yes
    · rw [List.mem_singleton.1 hentry]
      exact hextension
  have hhead : (MessagePack.Head.array 2).Written [0xdc, 0x00, 0x02] :=
    @MessagePack.Head.Written.sized 0xdc 2 2 .array (by simp [MessagePack.sizedHeads]) (by decide)
  have harray : MessagePack.Packs 1022 ([0xdc, 0x00, 0x02] ++
      [[0xca, 0x3f, 0x80, 0x00, 0x00], [0x81, 0xc3, 0xd4, 0x05, 0xff]].flatten) := by
    refine .array hhead fun item hitem => ?_
    simp only [List.mem_cons, List.not_mem_nil, or_false] at hitem
    rcases hitem with rfl | rfl
    · exact hfloat
    · exact hmap
  exact harray

/-- An array of a number with all of its parts and an empty object. -/
theorem element_nested : Json.Element (Utf8.encode "[-1.5e2 , \x7b\x7d]") := by
  have hdigit : ∀ {b : UInt8}, Json.isDigit b = true → Json.Digits [b] := fun hb =>
    ⟨List.cons_ne_nil _ _, List.forall_mem_singleton.2 hb⟩
  have hone : Json.Digits [Json.byte '1'] := hdigit rfl
  have hfive : Json.Digits [Json.byte '5'] := hdigit rfl
  have htwo : Json.Digits [Json.byte '2'] := hdigit rfl
  have hnone : Json.Blank [] := rfl
  have hspace : Json.Blank [0x20] := rfl
  have hnumber : Json.Element ([] ++ (Json.byte '-' :: ([Json.byte '1'] ++
      (Json.byte '.' :: [Json.byte '5'] ++ Json.byte 'e' :: ([] ++ [Json.byte '2']))) ++ [0x20])) :=
    .word hnone (.negative (.digits (by decide) hone) (.digits hfive)
      (.digits (.inl rfl) (.inl rfl) htwo)) hspace
  have hempty : Json.Element ([0x20] ++ Json.byte '\x7b' :: ([] ++ Json.byte '\x7d' :: [])) :=
    .emptyObject hspace hnone hnone
  have harray := Json.Element.array hnone (List.cons_ne_nil _ [_])
    (List.forall_mem_cons.2 ⟨hnumber, List.forall_mem_singleton.2 hempty⟩) hnone
  exact Eq.mp (congrArg Json.Element (by decide)) harray

/-- The nested value comes before the known field of a map, and an object with the same text has a
nested value after it.  The known field alone is refused when it comes again. -/
theorem unknown_fields_ignored_nested :
    decode ([0xde, 0x00, 0x02] ++ ([[0xa1] ++ Utf8.encode "x" ++ nestedValue,
        [0xd9, 0x0a] ++ Utf8.encode "TaggedData" ++ ([0xda, 0x00, 0x02] ++ Utf8.encode "on")
        ].flatten ++ [0xc1])) = .accepted "on" ∧
      decode (Utf8.encode " \x7b\"TaggedData\" :\"on\" ,\"x\":[-1.5e2 , \x7b\x7d]\x7d\n") =
        .accepted "on" ∧
      decode ([0x82] ++ ([[0xd9, 0x0a] ++ Utf8.encode "TaggedData" ++
        ([0xda, 0x00, 0x02] ++ Utf8.encode "on")].flatten ++
          ([0xd9, 0x0a] ++ Utf8.encode "TaggedData" ++ []))) = .rejected .mismatch ∧
      decode (Utf8.encode " \x7b\"TaggedData\" :\"on\" ,\"TaggedData\" ") =
        .rejected .mismatch := by
  obtain ⟨hmap, hobject, hmapAgain, hobjectAgain⟩ := unknown_fields_ignored "on"
  -- The entries of the map.
  have hkey : MessagePack.Says fieldName ([0xd9, 0x0a] ++ Utf8.encode "TaggedData") :=
    .written (@MessagePack.Head.Written.sized 0xd9 1 10 .text (by simp [MessagePack.sizedHeads])
      (by decide))
  have hvalue : MessagePack.Says "on" ([0xda, 0x00, 0x02] ++ Utf8.encode "on") :=
    .written (@MessagePack.Head.Written.sized 0xda 2 2 .text (by simp [MessagePack.sizedHeads])
      (by decide))
  have hother : MessagePack.Says "x" ([0xa1] ++ Utf8.encode "x") :=
    .written (.shortText (by decide))
  have hknown : Fields KnownEntry UnknownEntry ["on"] _ := .known (.entry hkey hvalue) .nil
  have hentries := Fields.unknown (.entry (by decide) hother packs_nestedValue) hknown
  have hhead : (MessagePack.Head.map 2).Written [0xde, 0x00, 0x02] :=
    @MessagePack.Head.Written.sized 0xde 2 2 .map (by simp [MessagePack.sizedHeads]) (by decide)
  -- The members of the object.
  have hblank : Json.Blank [] := rfl
  have hspace : Json.Blank [0x20] := rfl
  have hline : Json.Blank [0x0a] := rfl
  have hname : Json.Says fieldName
      ([] ++ Json.byte '"' :: (Utf8.encode fieldName ++ [Json.byte '"', 0x20])) :=
    .quoted hblank spells_fieldName hspace
  have htext : Json.Says "on" ([] ++ Json.byte '"' :: ([0x6f, 0x6e] ++ [Json.byte '"', 0x20])) :=
    .quoted hblank (.plain (by decide) (by decide) (by decide)
      (.plain (by decide) (by decide) (by decide) .nil)) hspace
  have hletter : Json.Says "x" ([] ++ Json.byte '"' :: ([0x78] ++ [Json.byte '"'])) :=
    .quoted hblank (.plain (by decide) (by decide) (by decide) .nil) hblank
  have hmember : Fields KnownMember UnknownMember ["on"] _ :=
    .known (.member hname htext) .nil
  have hmembers : Fields KnownMember UnknownMember ["on"] _ :=
    .known (.member hname htext) (.unknown (.member (by decide) hletter element_nested) .nil)
  refine ⟨hmap _ _ _ hentries hhead, ?_, ?_, ?_⟩
  · exact Eq.mp (congrArg (decode · = .accepted "on") (by decide))
      (hobject _ _ _ hmembers hspace hline)
  · exact hmapAgain _ 2 _ _ [] hknown (by decide) (.shortMap (by decide)) hkey
  · exact Eq.mp (congrArg (decode · = .rejected .mismatch) (by decide))
      (hobjectAgain _ _ _ [] hmember hspace hname)

end PerfRelay.Envelope
