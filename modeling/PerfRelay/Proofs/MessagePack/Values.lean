import PerfRelay.MessagePack.Skip
import PerfRelay.Proofs.MessagePack.Texts

/-!
# MessagePack values of every kind

The format of MessagePack as such: which bytes are the head of which kind of value, every width of
it included, and which bytes are a value with values inside it.  Whatever the kinds are and however
they are written, a value that is not nested too deep is passed over to its last byte, and what
follows it is left.

Main results:

- Theorem `readHead_of_written`: every head is read as what it is.
- Theorem `length_textHead_le`: a string is written with the shortest head.
- Theorem `readText_of_says`: a text is read whatever the width of its head.
- Theorem `skipValue_of_packs`: a value is passed over to its last byte.
-/

namespace PerfRelay.MessagePack

/-! ## Heads -/

/-- The markers that a number follows, with the number of its bytes and what it stands for.  The
data of a number with a sign and of a floating point number is such a number, too. -/
def sizedHeads : List (UInt8 × Nat × (Nat → Head)) :=
  [(0xc4, 1, .binary), (0xc5, 2, .binary), (0xc6, 4, .binary),
    (0xc7, 1, .extension), (0xc8, 2, .extension), (0xc9, 4, .extension),
    (0xca, 4, fun _ => .scalar), (0xcb, 8, fun _ => .scalar),
    (0xcc, 1, .unsigned), (0xcd, 2, .unsigned), (0xce, 4, .unsigned), (0xcf, 8, .unsigned),
    (0xd0, 1, fun _ => .scalar), (0xd1, 2, fun _ => .scalar), (0xd2, 4, fun _ => .scalar),
    (0xd3, 8, fun _ => .scalar), (0xd9, 1, .text), (0xda, 2, .text), (0xdb, 4, .text),
    (0xdc, 2, .array), (0xdd, 4, .array), (0xde, 2, .map), (0xdf, 4, .map)]

/-- The bytes of a head. -/
inductive Head.Written : Head → List UInt8 → Prop where
  | nil : Written .scalar [0xc0]
  | no : Written .scalar [0xc2]
  | yes : Written .scalar [0xc3]
  | positive {n : Nat} (h : n < 0x80) : Written (.unsigned n) [n.toUInt8]
  | negative {n : Nat} (h : n < 0x20) : Written .scalar [(0xe0 + n).toUInt8]
  | shortMap {count : Nat} (h : count < 0x10) : Written (.map count) [(0x80 + count).toUInt8]
  | shortArray {count : Nat} (h : count < 0x10) : Written (.array count) [(0x90 + count).toUInt8]
  | shortText {length : Nat} (h : length < 0x20) : Written (.text length) [(0xa0 + length).toUInt8]
  | fixedExtension {k : Nat} (h : k < 5) :
      Written (.extension (Nat.pow 2 k)) [(0xd4 + k).toUInt8]
  | sized {marker : UInt8} {width n : Nat} {head : Nat → Head}
      (hkind : (marker, width, head) ∈ sizedHeads) (h : n < Nat.pow 256 width) :
      Written (head n) (marker :: bigEndianDigits width n)

theorem form?_of_mem_sizedHeads {marker : UInt8} {width : Nat} {head : Nat → Head}
    (h : (marker, width, head) ∈ sizedHeads) : form? marker = some (.sized width head) := by
  simp only [sizedHeads, List.mem_cons, Prod.mk.injEq, List.not_mem_nil, or_false] at h
  rcases h with ⟨rfl, rfl, rfl⟩ | ⟨rfl, rfl, rfl⟩ | ⟨rfl, rfl, rfl⟩ | ⟨rfl, rfl, rfl⟩ |
    ⟨rfl, rfl, rfl⟩ | ⟨rfl, rfl, rfl⟩ | ⟨rfl, rfl, rfl⟩ | ⟨rfl, rfl, rfl⟩ | ⟨rfl, rfl, rfl⟩ |
    ⟨rfl, rfl, rfl⟩ | ⟨rfl, rfl, rfl⟩ | ⟨rfl, rfl, rfl⟩ | ⟨rfl, rfl, rfl⟩ | ⟨rfl, rfl, rfl⟩ |
    ⟨rfl, rfl, rfl⟩ | ⟨rfl, rfl, rfl⟩ | ⟨rfl, rfl, rfl⟩ | ⟨rfl, rfl, rfl⟩ | ⟨rfl, rfl, rfl⟩ |
    ⟨rfl, rfl, rfl⟩ | ⟨rfl, rfl, rfl⟩ | ⟨rfl, rfl, rfl⟩ | ⟨rfl, rfl, rfl⟩ <;> rfl

/-- A marker that is the whole head. -/
theorem readHead_plain {marker : UInt8} {head : Head} (hform : form? marker = some (.plain head))
    (rest : List UInt8) : readHead ([marker] ++ rest) = .ok (head, rest) := by
  rw [List.singleton_append, readHead, hform]

/-- Every head is read as what it is. -/
theorem readHead_of_written {head : Head} {bytes : List UInt8} (h : head.Written bytes)
    (rest : List UInt8) : readHead (bytes ++ rest) = .ok (head, rest) := by
  have hbyte : ∀ n, n < 0x100 → n.toUInt8.toNat = n := fun n hn => Nat.mod_eq_of_lt hn
  cases h with
  | nil => exact readHead_plain rfl rest
  | no => exact readHead_plain rfl rest
  | yes => exact readHead_plain rfl rest
  | positive h =>
    refine readHead_plain ?_ rest
    rw [form?, hbyte _ (by omega)]
    exact if_pos h
  | @negative n h =>
    refine readHead_plain ?_ rest
    rw [form?, hbyte _ (by omega)]
    have hhigh : 0xe0 ≤ 0xe0 + n := by omega
    simp only [if_neg (show ¬ 0xe0 + n < 0x80 by omega), if_neg (show ¬ 0xe0 + n < 0x90 by omega),
      if_neg (show ¬ 0xe0 + n < 0xa0 by omega), if_neg (show ¬ 0xe0 + n < 0xc0 by omega),
      if_pos hhigh]
  | @shortMap count h =>
    refine readHead_plain ?_ rest
    rw [form?, hbyte _ (by omega)]
    simp only [if_neg (show ¬ 0x80 + count < 0x80 by omega),
      if_pos (show 0x80 + count < 0x90 by omega), Nat.add_sub_cancel_left]
  | @shortArray count h =>
    refine readHead_plain ?_ rest
    rw [form?, hbyte _ (by omega)]
    simp only [if_neg (show ¬ 0x90 + count < 0x80 by omega),
      if_neg (show ¬ 0x90 + count < 0x90 by omega), if_pos (show 0x90 + count < 0xa0 by omega),
      Nat.add_sub_cancel_left]
  | shortText h => exact readHead_plain (form?_shortText (by omega)) rest
  | @fixedExtension k h =>
    refine readHead_plain ?_ rest
    rcases k with _ | _ | _ | _ | _ | k
    iterate 5 rfl
    omega
  | sized hkind h => exact readHead_sized (form?_of_mem_sizedHeads hkind) h rest

/-! ## The head of a string that is written -/

theorem length_textHead (length : Nat) : (textHead length).length =
    if length ≤ 31 then 1 else if length ≤ 0xff then 2 else if length ≤ 0xffff then 3 else 5 := by
  unfold textHead
  split
  · rfl
  · split
    · rfl
    · split <;> rfl

theorem written_textHead {length : Nat} (h : length < 2 ^ 32) :
    (Head.text length).Written (textHead length) := by
  have hone : (0xd9, 1, Head.text) ∈ sizedHeads := by simp [sizedHeads]
  have htwo : (0xda, 2, Head.text) ∈ sizedHeads := by simp [sizedHeads]
  have hfour : (0xdb, 4, Head.text) ∈ sizedHeads := by simp [sizedHeads]
  unfold textHead
  split
  · exact .shortText (by omega)
  · split
    · exact .sized hone (Nat.lt_succ_of_le ‹_›)
    · split
      · exact .sized htwo (Nat.lt_succ_of_le ‹_›)
      · exact .sized hfour h

/-- No head of a string is shorter than the one that is written. -/
theorem length_textHead_le {length : Nat} {head : List UInt8}
    (h : (Head.text length).Written head) : (textHead length).length ≤ head.length := by
  generalize hkind : Head.text length = kind at h
  cases h with
  | shortText hshort =>
    cases hkind
    rw [length_textHead, if_pos (Nat.le_of_lt_succ hshort)]
    exact Nat.le_refl 1
  | @sized marker width n head hmem hlt =>
    -- Of the heads with a number only three are heads of a string.
    have hall : ∀ kind ∈ sizedHeads, kind.2.2 n = .text length →
        n = length ∧ (kind.2.1 = 1 ∨ kind.2.1 = 2 ∨ kind.2.1 = 4) := by
      simp [sizedHeads]
    obtain ⟨rfl, hwidth⟩ := hall _ hmem hkind.symm
    simp only at hwidth
    rw [List.length_cons, length_bigEndianDigits, length_textHead]
    rcases hwidth with rfl | rfl | rfl
    · have hfits : n ≤ 0xff := Nat.le_of_lt_succ hlt
      split_ifs <;> omega
    · have hfits : n ≤ 0xffff := Nat.le_of_lt_succ hlt
      split_ifs <;> omega
    · split_ifs <;> omega
  | _ => cases hkind

/-! ## Texts -/

/-- The bytes are a string with a text, its head of any width. -/
inductive Says : String → List UInt8 → Prop where
  | written {text : String} {head : List UInt8}
      (h : (Head.text (Utf8.encode text).length).Written head) :
      Says text (head ++ Utf8.encode text)

/-- A text is read whatever the width of its head. -/
theorem readText_of_says {text : String} {bytes : List UInt8} (h : Says text bytes)
    (rest : List UInt8) : readText (bytes ++ rest) = .ok (text, rest) := by
  cases h with
  | written h =>
    have htake : takeBytes (Utf8.encode text).length (Utf8.encode text ++ rest) =
        .ok (Utf8.encode text, rest) :=
      takeBytes_append rfl rest
    simp only [List.append_assoc, readText, readHead_of_written h, readTextAfter, readTextBody,
      htake, Utf8.decode?_encode]

/-! ## Values -/

/-- The bytes are a value with at most so many arrays, maps and application values inside one
another. -/
inductive Packs : Nat → List UInt8 → Prop where
  | scalar {depth : Nat} {head : List UInt8} (h : Head.scalar.Written head) : Packs depth head
  | unsigned {depth n : Nat} {head : List UInt8} (h : (Head.unsigned n).Written head) :
      Packs depth head
  | text {depth : Nat} {head payload : List UInt8}
      (h : (Head.text payload.length).Written head) : Packs depth (head ++ payload)
  | binary {depth : Nat} {head payload : List UInt8}
      (h : (Head.binary payload.length).Written head) : Packs depth (head ++ payload)
  | extension {depth : Nat} {head payload : List UInt8} {kind : UInt8}
      (h : (Head.extension payload.length).Written head) :
      Packs (depth + 1) (head ++ kind :: payload)
  | array {depth : Nat} {head : List UInt8} {items : List (List UInt8)}
      (h : (Head.array items.length).Written head) (hitems : ∀ item ∈ items, Packs depth item) :
      Packs (depth + 1) (head ++ items.flatten)
  | map {depth : Nat} {head : List UInt8} {entries : List (List UInt8 × List UInt8)}
      (h : (Head.map entries.length).Written head) (hkeys : ∀ entry ∈ entries, Packs depth entry.1)
      (hvalues : ∀ entry ∈ entries, Packs depth entry.2) :
      Packs (depth + 1) (head ++ entries.flatMap fun entry => entry.1 ++ entry.2)

/-! ## Passing over values -/

section Passing

variable {enclosing : Nat}

/-- How it goes on after a value with so many values pending. -/
def resume (enclosing : Nat) (pending : List Nat) (s : List UInt8) : Reading Stop Unit :=
  match goOn pending with
  | .finish value => .ok (value, s)
  | .again next => (skipLoop enclosing).run next s

theorem resume_succ (count : Nat) (stack : List Nat) (s : List UInt8) :
    resume enclosing ((count + 1) :: stack) s = (skipLoop enclosing).run ((count + 1) :: stack) s :=
  rfl

/-- The next value is passed over once its head is read and its body is. -/
theorem run_of_body {head : Head} {count : Nat} {stack pending : List Nat}
    {s body rest : List UInt8} (hhead : readHead s = .ok (head, body))
    (hbody : skipBody enclosing (count :: stack) head body = .ok (goOn pending, rest)) :
    (skipLoop enclosing).run ((count + 1) :: stack) s = resume enclosing pending rest := by
  have hstep : (skipLoop enclosing).step ((count + 1) :: stack) s = .ok (goOn pending, rest) := by
    simp only [skipLoop, skipStep, hhead, Nat.add_sub_cancel, hbody]
  rw [Loop.run_eq, hstep, resume]
  cases goOn pending <;> rfl

/-- The bytes are passed over as the next value, whatever is pending after it in the innermost
array or map, in those around it, and behind it. -/
def PassedOver (enclosing : Nat) (stack : List Nat) (bytes : List UInt8) : Prop :=
  ∀ count rest, (skipLoop enclosing).run ((count + 1) :: stack) (bytes ++ rest) =
    resume enclosing (count :: stack) rest

/-- The values in an array are passed over one after the other. -/
theorem resume_items {items : List (List UInt8)} {stack : List Nat}
    (h : ∀ item ∈ items, PassedOver enclosing stack item) (rest : List UInt8) :
    resume enclosing (items.length :: stack) (items.flatten ++ rest) =
      resume enclosing stack rest := by
  induction items with
  | nil => rfl
  | cons item items ih =>
    have hitem : PassedOver enclosing stack item := h item List.mem_cons_self
    rw [List.length_cons, resume_succ, List.flatten_cons, List.append_assoc, hitem]
    exact ih fun other hmem => h other (List.mem_cons_of_mem _ hmem)

/-- The keys and values of a map, which are as many values one after the other. -/
def parts (entries : List (List UInt8 × List UInt8)) : List (List UInt8) :=
  entries.flatMap fun entry => [entry.1, entry.2]

theorem length_parts (entries : List (List UInt8 × List UInt8)) :
    (parts entries).length = 2 * entries.length := by
  induction entries with
  | nil => rfl
  | cons entry entries ih =>
    have hcons : parts (entry :: entries) = entry.1 :: entry.2 :: parts entries := rfl
    rw [hcons, List.length_cons, List.length_cons, ih, List.length_cons, Nat.mul_succ]

theorem flatten_parts (entries : List (List UInt8 × List UInt8)) :
    (parts entries).flatten = entries.flatMap fun entry => entry.1 ++ entry.2 := by
  simp [parts, List.flatten_eq_flatMap, List.flatMap_assoc]

/-- Where there is room for a value with values inside it, one more array or map may be open, and
there is room inside it. -/
theorem room_inside {depth : Nat} {stack : List Nat}
    (hroom : enclosing + (stack.length + 1) + (depth + 1) ≤ depthLimit) (count : Nat) :
    ¬ depthLimit ≤ enclosing + (count :: stack).length ∧
      enclosing + ((count :: stack).length + 1) + depth ≤ depthLimit := by
  rw [List.length_cons]
  omega

/-- A value is passed over wherever there is room for the arrays and maps inside it.  The induction
is on the value; the values inside it have one more number on the stack. -/
theorem Packs.passedOver {depth : Nat} {bytes : List UInt8} (h : Packs depth bytes)
    {stack : List Nat} (hroom : enclosing + (stack.length + 1) + depth ≤ depthLimit) :
    PassedOver enclosing stack bytes := by
  induction h generalizing stack with
  | scalar h =>
    intro count rest
    exact run_of_body (readHead_of_written h rest) rfl
  | unsigned h =>
    intro count rest
    exact run_of_body (readHead_of_written h rest) rfl
  | @text depth head payload h =>
    intro count rest
    rw [List.append_assoc]
    refine run_of_body (readHead_of_written h _) ?_
    rw [skipBody, dropBytes_append]
    rfl
  | @binary depth head payload h =>
    intro count rest
    rw [List.append_assoc]
    refine run_of_body (readHead_of_written h _) ?_
    rw [skipBody, dropBytes_append]
    rfl
  | @extension depth head payload kind h =>
    intro count rest
    obtain ⟨hopen, -⟩ := room_inside hroom count
    have hdrop : dropBytes (1 + payload.length) (kind :: payload ++ rest) = .ok ((), rest) := by
      rw [Nat.add_comm]
      exact dropBytes_append (kind :: payload) rest
    rw [List.append_assoc]
    refine run_of_body (readHead_of_written h _) ?_
    rw [skipBody, if_neg hopen, hdrop]
    rfl
  | @array depth head items h _ ih =>
    intro count rest
    obtain ⟨hopen, hinside⟩ := room_inside hroom count
    have hitems : ∀ item ∈ items, PassedOver enclosing (count :: stack) item :=
      fun item hmem => ih item hmem hinside
    rw [List.append_assoc, run_of_body (readHead_of_written h _) (if_neg hopen)]
    exact resume_items hitems rest
  | @map depth head entries h _ _ ihkeys ihvalues =>
    intro count rest
    obtain ⟨hopen, hinside⟩ := room_inside hroom count
    have hparts : ∀ part ∈ parts entries, PassedOver enclosing (count :: stack) part := by
      intro part hmem
      obtain ⟨entry, hentry, hpart⟩ := List.mem_flatMap.1 hmem
      rcases List.mem_cons.1 hpart with rfl | hpart
      · exact ihkeys entry hentry hinside
      · rw [List.mem_singleton.1 hpart]
        exact ihvalues entry hentry hinside
    rw [List.append_assoc, run_of_body (readHead_of_written h _) (if_neg hopen), ← length_parts,
      ← flatten_parts]
    exact resume_items hparts rest

/-- A value around which some arrays and maps are open is passed over to its last byte. -/
theorem skipValue_of_packs {depth : Nat} {bytes : List UInt8} (h : Packs depth bytes)
    (hroom : enclosing + 1 + depth ≤ depthLimit) (rest : List UInt8) :
    skipValue enclosing (bytes ++ rest) = .ok ((), rest) := by
  have hpassed : PassedOver enclosing [] bytes := h.passedOver hroom
  exact hpassed 0 rest

end Passing

end PerfRelay.MessagePack
