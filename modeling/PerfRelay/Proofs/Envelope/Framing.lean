import PerfRelay.Envelope.Request
import PerfRelay.Proofs.Json.Kept
import PerfRelay.Proofs.MessagePack.Values

/-!
# Requests on the wire

A request is two encodings inside one another: a JSON object with its four texts, and a MessagePack
string with the bytes of that object.  Whatever the texts are, both are undone by the readers at the
other end, which find the end of the request by themselves.

Main results:

- Theorem `RequestBody.parse_text`: the JSON text gives the four members back.
- Theorem `RequestBody.framed_encode`: how a request stands on the wire.
- Theorem `RequestBody.framing`: requests are read back, and different ones are sent differently.
-/

namespace PerfRelay

namespace RequestBody

variable {body other : RequestBody}

/-- The value of the object in a request. -/
def value (body : RequestBody) : Json.Value :=
  .object (body.members.map fun (name, text) => (name, .string text))

/-! ## The object -/

/-- The names of the members are in order. -/
theorem sorted_members (body : RequestBody) :
    (body.members.map fun (name, text) => (name, Json.Value.string text)).Pairwise (·.1 < ·.1) := by
  have hnames : ["Request", "RequestId", "Tag", "Version"].Pairwise (· < ·) := by decide
  rw [← List.pairwise_map (f := Prod.fst)]
  exact hnames

/-- The JSON text of a request is read back, whatever its texts are. -/
theorem parse_text (body : RequestBody) : Json.parse (Utf8.encode body.text) = .ok body.value := by
  have hstrings : ∀ entry ∈ body.members.map fun (name, text) => (name, Json.Value.string text),
      Json.Keeps 0 entry.2 entry.2.bytes := by
    intro entry hentry
    obtain ⟨⟨name, text⟩, -, rfl⟩ := List.mem_map.1 hentry
    exact (Json.says_bytes text).keeps
  have hkeeps : Json.Keeps 1 body.value body.value.bytes :=
    Json.keeps_object_bytes body.sorted_members hstrings
  exact Json.parse_of_keeps hkeeps (by decide)

/-- A request is known by its object. -/
theorem value_injective (h : body.value = other.value) : body = other := by
  cases body
  cases other
  simp only [value, members, List.map_cons, List.map_nil, Json.Value.object.injEq, List.cons.injEq,
    Prod.mk.injEq, Json.Value.string.injEq, true_and, and_true] at h
  obtain ⟨rfl, rfl, rfl, rfl⟩ := h
  rfl

theorem text_injective (h : body.text = other.text) : body = other := by
  have hparse := body.parse_text
  rw [h, other.parse_text, Except.ok.injEq] at hparse
  exact (value_injective hparse).symm

/-! ## The string around it -/

/-- How a request stands on the wire. -/
structure Framed (body : RequestBody) (bytes : List UInt8) : Prop where
  /-- One string with the JSON text, its head as short as any head of a string of that length. -/
  shortest : ∃ head, bytes = head ++ Utf8.encode body.text ∧
    (MessagePack.Head.text (Utf8.encode body.text).length).Written head ∧
    ∀ other, (MessagePack.Head.text (Utf8.encode body.text).length).Written other →
      head.length ≤ other.length
  /-- It is read as the JSON text, and what follows is left. -/
  reads : ∀ rest, MessagePack.readText (bytes ++ rest) = .ok (body.text, rest)
  /-- The JSON text is an object with just the four members. -/
  parses : Json.parse (Utf8.encode body.text) =
    .ok (.object [("Request", .string body.subject), ("RequestId", .string body.id),
      ("Tag", .string body.tag), ("Version", .string body.version)])
  /-- A beginning is no string, and where it ends more bytes are asked for. -/
  incomplete : ∀ s t, s ++ t = bytes → t ≠ [] →
    (∃ missing, MessagePack.readText s = .error (.endOfInput missing)) ∧
      ∀ text, ¬ MessagePack.Says text s
  /-- Who looks at the bytes as they arrive finds the text with the last one. -/
  complete_iff : ∀ n, (∃ text rest, MessagePack.readText (bytes.take n) = .ok (text, rest)) ↔
    bytes.length ≤ n

/-- A request is one string that says itself where it ends. -/
theorem framed_encode (h : (Utf8.encode body.text).length < 2 ^ 32) : body.Framed body.encode := by
  have hexact : MessagePack.readText body.encode = .ok (body.text, []) := by
    have hread := MessagePack.readText_renderText h []
    rwa [List.append_nil] at hread
  constructor
  case shortest =>
    exact ⟨_, rfl, MessagePack.written_textHead h, fun _ => MessagePack.length_textHead_le⟩
  case reads =>
    exact MessagePack.readText_renderText h
  case parses =>
    exact body.parse_text
  case incomplete =>
    intro s t hwhole ht
    rw [← hwhole] at hexact
    obtain ⟨missing, hread⟩ := MessagePack.steady_readText.needsMore_of_exact hexact ht
    refine ⟨⟨missing, hread⟩, fun text hsays => ?_⟩
    have hstring := MessagePack.readText_of_says hsays []
    rw [List.append_nil, hread] at hstring
    cases hstring
  case complete_iff =>
    exact MessagePack.steady_readText.exists_ok_take_iff hexact

/-- Every request whose JSON text is not too long for a string is framed by itself: as one string
with the shortest head, which gives back the JSON text and with it the four texts, and of which no
beginning is complete.  Different requests are sent differently. -/
theorem framing (h : (Utf8.encode body.text).length < 2 ^ 32) :
    body.Framed body.encode ∧
      ∀ other : RequestBody, (Utf8.encode other.text).length < 2 ^ 32 →
        other.encode = body.encode → other = body := by
  refine ⟨framed_encode h, fun other hother heq => ?_⟩
  have hread := (framed_encode hother).reads []
  rw [heq, (framed_encode h).reads [], Except.ok.injEq, Prod.mk.injEq] at hread
  exact (text_injective hread.1).symm

/-- A request whose id has a quote, a backslash, control characters and a clef. -/
def awkward : RequestBody := ⟨"AgentTaggedData", "\"\\\n\x01é𝄞", "ContainerInsights", "1"⟩

/-- Its text takes a head of two bytes, as the escapes count, and the bytes of a character, too. -/
theorem framing_awkward :
    (Utf8.encode awkward.text).length < 2 ^ 32 ∧
      awkward.encode.take 2 = [0xd9, 0x66] ∧
      Json.parse (Utf8.encode awkward.text) =
        .ok (.object [("Request", .string "AgentTaggedData"),
          ("RequestId", .string "\"\\\n\x01é𝄞"), ("Tag", .string "ContainerInsights"),
          ("Version", .string "1")]) ∧
      MessagePack.readText (awkward.encode ++ [0xc1]) = .ok (awkward.text, [0xc1]) ∧
      ∃ missing, MessagePack.readText (awkward.encode.take 40) = .error (.endOfInput missing) := by
  have hlength : (Utf8.encode awkward.text).length < 2 ^ 32 := by decide +kernel
  obtain ⟨hframed, -⟩ := framing hlength
  have hcut : awkward.encode.drop 40 ≠ [] := by decide +kernel
  refine ⟨hlength, by decide +kernel, hframed.parses, hframed.reads _, ?_⟩
  exact (hframed.incomplete _ _ (List.take_append_drop 40 awkward.encode) hcut).1

end RequestBody

end PerfRelay
