import PerfRelay.Proofs.Envelope.Truncation
import PerfRelay.Proofs.Json.Strings
import PerfRelay.Proofs.MessagePack.Texts

/-!
# Envelopes around a text

An envelope that is made around a text gives that text back and says itself where it ends: what
may follow it does not count, and wherever it is cut more bytes are asked for.  This holds for the
MessagePack map and for the compact JSON object, however the text is spelled between its quotes.

Main results:

- Theorems `readPacked_wrap` and `run_record_enclose`: the envelopes are read to their last byte.
- Theorem `IsExact.needsMore`: an envelope that is cut outside of numbers asks for more bytes.
- Theorem `envelopes_delimit`: both envelopes around a text delimit themselves.
-/

namespace PerfRelay.Envelope

variable {text : String}

/-! ## MessagePack envelopes -/

/-- The name of the known field is a key that selects it. -/
theorem readKey_fieldName (rest : List UInt8) :
    readKey (MessagePack.renderText fieldName ++ rest) = .ok (true, rest) := by
  have hhead : MessagePack.readHead (MessagePack.renderText fieldName ++ rest) =
      .ok (.text (Utf8.encode fieldName).length, Utf8.encode fieldName ++ rest) := by
    rw [MessagePack.renderText, MessagePack.framed, List.append_assoc]
    exact MessagePack.readHead_textHead (by decide) _
  have hname : MessagePack.takeBytes (Utf8.encode fieldName).length
      (Utf8.encode fieldName ++ rest) = .ok (Utf8.encode fieldName, rest) :=
    MessagePack.takeBytes_append rfl rest
  simp only [readKey, hhead, readKeyAfter, hname, Except.map, beq_self_eq_true]

/-- The MessagePack envelope around a text is read to its last byte. -/
theorem readPacked_wrap (h : (Utf8.encode text).length < 2 ^ 32) :
    readPacked (wrap (Utf8.encode text)) = .ok (text, []) := by
  have hmarker : MessagePack.form? 0x81 = some (.plain (.map 1)) := rfl
  have hhead : MessagePack.readHead (wrap (Utf8.encode text)) =
      .ok (.map 1, MessagePack.renderText fieldName ++ MessagePack.renderText text) := by
    rw [wrap, List.cons_append, MessagePack.readHead, hmarker]
    rfl
  have hvalue : MessagePack.readText (MessagePack.renderText text) = .ok (text, []) := by
    have hread := MessagePack.readText_renderText h []
    rwa [List.append_nil] at hread
  have hentry : entryLoop.step (1, none)
      (MessagePack.renderText fieldName ++ MessagePack.renderText text) =
        .ok (.again (0, some text), []) := by
    simp only [entryLoop, entryStep, readKey_fieldName, readEntryAfter, hvalue, Except.map]
  have hend : entryLoop.step (0, some text) [] = .ok (.finish text, []) := rfl
  simp only [readPacked, hhead, readBody, Loop.run_of_again hentry, Loop.run_of_finish hend]

/-! ## JSON envelopes -/

/-- The compact JSON object whose known field is spelled in a given way. -/
def enclose (spelled : List UInt8) : List UInt8 :=
  Json.byte '\x7b' :: Json.byte '"' :: (Utf8.encode fieldName ++ Json.byte '"' ::
    Json.byte ':' :: Json.byte '"' :: (spelled ++ [Json.byte '"', Json.byte '\x7d']))

/-- The compact JSON object around a text, as it is printed. -/
def printed (text : String) : List UInt8 :=
  Utf8.encode (Json.Value.object [(fieldName, .string text)]).text

theorem spells_fieldName : Json.Spells fieldName.toList (Utf8.encode fieldName) := by
  have hbytes : (fieldName.toList.flatMap Json.escape).flatMap String.utf8EncodeChar =
      Utf8.encode fieldName := by decide
  rw [← hbytes]
  exact Json.spells_escape fieldName.toList

/-- What is printed spells the text. -/
theorem printed_eq (text : String) :
    printed text = enclose ((text.toList.flatMap Json.escape).flatMap String.utf8EncodeChar) := by
  have hopen : ('\x7b' :: (Json.renderString fieldName ++ [':', '"'])).flatMap
      String.utf8EncodeChar = Json.byte '\x7b' :: Json.byte '"' :: (Utf8.encode fieldName ++
        [Json.byte '"', Json.byte ':', Json.byte '"']) := by decide
  have hclose : ['"', '\x7d'].flatMap String.utf8EncodeChar =
      [Json.byte '"', Json.byte '\x7d'] := by decide
  have hrender : Json.render (.object [(fieldName, .string text)]) =
      ('\x7b' :: (Json.renderString fieldName ++ [':', '"'])) ++
        (text.toList.flatMap Json.escape ++ ['"', '\x7d']) := by
    simp [Json.render, Json.renderMembers, Json.renderString]
  rw [printed, Json.Value.text, Utf8.encode_ofList, hrender, List.flatMap_append, hopen,
    List.flatMap_append, hclose, enclose]
  simp only [List.cons_append, List.append_assoc, List.nil_append]

/-- Reading the known field of a JSON envelope up to the closing brace. -/
theorem readMember_enclosed {spelled : List UInt8} (h : Json.Spells text.toList spelled)
    (rest : List UInt8) :
    Json.readMember [field] ⟨"", [], false⟩ (Json.byte '"' :: (Utf8.encode fieldName ++
      Json.byte '"' :: Json.byte ':' :: Json.byte '"' :: (spelled ++ Json.byte '"' :: rest))) =
      .ok (⟨text, [fieldName], true⟩, rest) := by
  have hname : ∀ s, Json.readName (Json.byte '"' :: (Utf8.encode fieldName ++
      Json.byte '"' :: s)) = .ok (fieldName, s) := by
    intro s
    have hquote : ∀ t, Json.expect (Json.byte '"') (Json.byte '"' :: t) = .ok ((), t) :=
      fun t => Json.expect_of_next rfl
    rw [Json.readName, hquote]
    exact Json.readString_of_spells spells_fieldName s
  have hcolon : ∀ s, Json.expect (Json.byte ':') (Json.byte ':' :: s) = .ok ((), s) :=
    fun s => Json.expect_of_next rfl
  have htext : Json.readText (Json.byte '"' :: (spelled ++ Json.byte '"' :: rest)) =
      .ok (text, rest) :=
    Json.readString_of_spells h rest
  have hfield : [field].find? (·.name = fieldName) = some field := rfl
  have hvalue : field.value.run "" (Json.byte '"' :: (spelled ++ Json.byte '"' :: rest)) =
      .ok (text, rest) := by
    simp only [field, Json.Fold.ofReader, htext]
  simp only [Json.readMember, hname, Json.readMemberValue, hfield, List.not_mem_nil, if_false,
    hcolon, hvalue]

/-- The JSON envelope around a text is read to its last byte, and what follows is left. -/
theorem run_record_enclose {spelled : List UInt8} (h : Json.Spells text.toList spelled)
    (rest : List UInt8) :
    (Json.Fold.record [field]).run "" (enclose spelled ++ rest) = .ok (text, rest) := by
  have hnext : ∀ (state : String) (b : UInt8) (s : List UInt8), Json.isSpace b = false →
      Json.nextOf state (b :: s) = .ok (b, s) := by
    intro state b s hb
    apply Json.nextOf_of_next
    rw [Json.next, Json.skipSpace, List.dropWhile_cons_of_neg (by simp [hb])]
  have hmember := readMember_enclosed h (Json.byte '\x7d' :: rest)
  have hentry : Json.memberStep [field] ⟨"", [], false⟩ (Json.byte '"' ::
      (Utf8.encode fieldName ++ Json.byte '"' :: Json.byte ':' :: Json.byte '"' ::
        (spelled ++ Json.byte '"' :: Json.byte '\x7d' :: rest))) =
      .ok (.again ⟨text, [fieldName], true⟩, Json.byte '\x7d' :: rest) := by
    rw [Json.memberStep, hnext _ _ _ (by decide), hmember]
    rfl
  have hend : Json.memberStep [field] ⟨text, [fieldName], true⟩ (Json.byte '\x7d' :: rest) =
      .ok (.finish text, rest) := by
    rw [Json.memberStep, hnext _ _ _ (by decide)]
    rfl
  have hlast : (Json.memberLoop [field]).run ⟨text, [fieldName], true⟩
      (Json.byte '\x7d' :: rest) = .ok (text, rest) := Loop.run_of_finish hend
  have hwhole : enclose spelled ++ rest = Json.byte '\x7b' :: Json.byte '"' ::
      (Utf8.encode fieldName ++ Json.byte '"' :: Json.byte ':' :: Json.byte '"' ::
        (spelled ++ Json.byte '"' :: Json.byte '\x7d' :: rest)) := by
    simp only [enclose, List.cons_append, List.append_assoc, List.nil_append]
  change Json.readRecord [field] "" (enclose spelled ++ rest) = .ok (text, rest)
  rw [hwhole, Json.readRecord, hnext _ _ _ (by decide)]
  exact (Loop.run_of_again hentry).trans hlast

/-- The JSON envelope around a text stops in no number. -/
theorem carries_enclose {spelled : List UInt8} (h : Json.Spells text.toList spelled) :
    Json.Mode.plain.Carries (enclose spelled) .plain := by
  have hopen : Json.Mode.plain.Carries (Json.byte '\x7b' :: Json.byte '"' ::
      (Utf8.encode fieldName ++ [Json.byte '"', Json.byte ':', Json.byte '"'])) .quoted :=
    ⟨by decide, by decide⟩
  have hclose : Json.Mode.quoted.Carries [Json.byte '"', Json.byte '\x7d'] .plain := ⟨rfl, rfl⟩
  have hwhole := (hopen.append h.carries).append hclose
  simpa only [enclose, List.cons_append, List.append_assoc, List.nil_append] using hwhole

/-! ## Envelopes that say where they end -/

/-- The bytes are an envelope around a text: with anything behind them that may follow they are
accepted, and wherever they are cut more bytes are asked for. -/
structure Delimits (whole : List UInt8) (text : String) (mayFollow : List UInt8 → Prop) :
    Prop where
  accepted : ∀ rest, mayFollow rest → decode (whole ++ rest) = .accepted text
  needsMore : ∀ s t, s ++ t = whole → t ≠ [] → ∃ n, decode s = .needsMore n

/-- An exact envelope that stops in no number asks for more wherever it is cut. -/
theorem IsExact.needsMore {s t : List UInt8} (h : IsExact (s ++ t)) (ht : t ≠ [])
    (hcut : ¬ CutInNumber s) : ∃ n, decode s = .needsMore n := by
  obtain ⟨text, haccepted, -⟩ := id h
  rcases (prefix_verdict_iff haccepted).2 hcut with hwhole | hmore
  · exact (h.not_accepted ht text hwhole).elim
  · exact hmore

/-- The MessagePack envelope around a text delimits itself; anything may follow it. -/
theorem delimits_wrap (h : (Utf8.encode text).length < 2 ^ 32) :
    Delimits (wrap (Utf8.encode text)) text fun _ => True := by
  have hread : readPacked (wrap (Utf8.encode text)) = .ok (text, []) := readPacked_wrap h
  have hexact : IsExact (wrap (Utf8.encode text)) :=
    ⟨text, decode_of_packed_ok hread, .inl hread⟩
  constructor
  · intro rest _
    exact decode_of_packed_ok (steady_readPacked.ok hread)
  · intro s t hst ht
    rw [← hst] at hexact
    apply hexact.needsMore ht
    rintro ⟨hfirst, hmode⟩
    rcases s with _ | ⟨b, s⟩
    · cases hmode
    · -- A first byte from 0x80 on is that of no JSON text.
      have hb : b = 0x81 := (List.cons.inj hst).1
      have hlow : b < 0x80 := hfirst b rfl
      rw [hb] at hlow
      exact absurd hlow (by decide)

/-- The JSON envelope around a text delimits itself; white space may follow it. -/
theorem delimits_enclose {spelled : List UInt8} (h : Json.Spells text.toList spelled) :
    Delimits (enclose spelled) text Json.Blank := by
  have haccepted : ∀ rest, Json.Blank rest →
      decode (enclose spelled ++ rest) = .accepted text := by
    intro rest hrest
    have hplain : readPlain (enclose spelled ++ rest) = .ok text :=
      readPlain_eq_ok.2 ⟨rest, run_record_enclose h rest, hrest⟩
    have hbrace : Json.byte '\x7b' < 0x80 := by decide
    have hdecode : decode (enclose spelled ++ rest) =
        decodePlain .mismatch (enclose spelled ++ rest) :=
      decode_of_low hbrace
    rw [hdecode, decodePlain, hplain]
  have hexact : IsExact (enclose spelled) := by
    have hall := haccepted [] rfl
    have hread := run_record_enclose h []
    rw [List.append_nil] at hall hread
    exact ⟨text, hall, .inr hread⟩
  refine ⟨haccepted, fun s t hst ht => ?_⟩
  rw [← hst] at hexact
  apply hexact.needsMore ht
  rintro ⟨-, hmode⟩
  have hcarries := carries_enclose h
  rw [← hst] at hcarries
  exact hcarries.after_ne_dangling hmode

/-- Both envelopes around a text delimit themselves: the MessagePack map, whatever the length of
the text, and the compact JSON object, as it is printed and with any other spelling of the text. -/
theorem envelopes_delimit (h : (Utf8.encode text).length < 2 ^ 32) :
    Delimits (wrap (Utf8.encode text)) text (fun _ => True) ∧
      Delimits (printed text) text Json.Blank ∧
      ∀ spelled, Json.Spells text.toList spelled →
        Delimits (enclose spelled) text Json.Blank := by
  refine ⟨delimits_wrap h, ?_, fun spelled hspelled => delimits_enclose hspelled⟩
  rw [printed_eq]
  exact delimits_enclose (Json.spells_escape text.toList)

/-- A clef takes four bytes in MessagePack and two escapes in JSON; more is asked for inside the
bytes, and between the two escapes. -/
theorem envelopes_delimit_clef :
    (Utf8.encode "𝄞").length < 2 ^ 32 ∧
      decode (wrap (Utf8.encode "𝄞") ++ [0xc1]) = .accepted "𝄞" ∧
      (∃ n, decode (0x81 :: (MessagePack.renderText fieldName ++ [0xa4, 0xf0, 0x9d])) =
        .needsMore n) ∧
      decode (enclose (Utf8.encode "\\ud834\\udd1e") ++ [0x0a]) = .accepted "𝄞" ∧
      ∃ n, decode (Utf8.encode "\x7b\"TaggedData\":\"\\ud834") = .needsMore n := by
  have hlength : (Utf8.encode "𝄞").length < 2 ^ 32 := by decide
  have hspells : Json.Spells "𝄞".toList (Utf8.encode "\\ud834\\udd1e") := by
    have hhigh : Json.hexUnit? 0x64 0x38 0x33 0x34 = some 0xd834 := rfl
    have hlow : Json.hexUnit? 0x64 0x64 0x31 0x65 = some 0xdd1e := rfl
    have hpair := Json.Escapes.pair hhigh hlow (by decide) (by decide)
    exact Json.Spells.escaped hpair Json.Spells.nil
  obtain ⟨hpacked, -, hplain⟩ := envelopes_delimit hlength
  have hjson := hplain _ hspells
  refine ⟨hlength, hpacked.accepted _ trivial, ?_, hjson.accepted _ rfl, ?_⟩
  · exact hpacked.needsMore _ [0x84, 0x9e] (by decide) (by simp)
  · exact hjson.needsMore _ (Utf8.encode "\\udd1e\"\x7d") (by decide) (by decide)

end PerfRelay.Envelope
