import PerfRelay.Proofs.Json.Exact

/-!
# What is printed is read back

A value without binary64 numbers is read back from what is printed of it, however its arrays and
objects are nested, and no other values come out of JSON texts without such numbers.  It is printed
on one line, because control characters are printed as escapes.

Main results:

- Theorem `IsExact.keeps`: such a value is kept from what is printed of it.
- Theorem `IsExact.parseWithin_bytes`: the printed text is read as the value, if its depth is within
  the limit.
- Theorem `isExact_iff_exists_parseWithin`: these are the values of the texts without such numbers.
- Theorem `IsExact.isPrintable_bytes`: no control character is printed.
-/

namespace PerfRelay.Json

/-! ## Depth -/

namespace Value

mutual

/-- How many arrays and objects stand inside one another at most. -/
def depth : Value → Nat
  | .null | .bool _ | .int _ | .float _ | .string _ => 0
  | .array items => depthItems items + 1
  | .object members => depthMembers members + 1

/-- The greatest depth of some items. -/
def depthItems : List Value → Nat
  | [] => 0
  | item :: items => max (depth item) (depthItems items)

/-- The greatest depth of the values of some members. -/
def depthMembers : List (String × Value) → Nat
  | [] => 0
  | (_, value) :: members => max (depth value) (depthMembers members)

end

theorem depth_le_depthItems {item : Value} {items : List Value} (h : item ∈ items) :
    item.depth ≤ depthItems items := by
  induction items with
  | nil => cases h
  | cons first items ih =>
    rw [depthItems]
    rcases List.mem_cons.1 h with rfl | h
    · exact Nat.le_max_left ..
    · exact (ih h).trans (Nat.le_max_right ..)

theorem depth_le_depthMembers {entry : String × Value} {members : List (String × Value)}
    (h : entry ∈ members) : entry.2.depth ≤ depthMembers members := by
  induction members with
  | nil => cases h
  | cons first members ih =>
    rw [depthMembers]
    rcases List.mem_cons.1 h with rfl | h
    · exact Nat.le_max_left ..
    · exact (ih h).trans (Nat.le_max_right ..)

end Value

/-! ## Whole numbers -/

/-- A character below `0x80` is a single byte. -/
theorem encodeChar_of_lt {c : Char} (h : c.toNat < 0x80) : String.utf8EncodeChar c = [byte c] :=
  if_pos (Nat.le_of_lt_succ h)

/-- The bytes of the digits of a natural number. -/
def digitBytes (n : Nat) : List UInt8 := (Nat.toDigits 10 n).map byte

theorem toNat_of_mem_toDigits {n : Nat} {c : Char} (h : c ∈ Nat.toDigits 10 n) :
    0x30 ≤ c.toNat ∧ c.toNat ≤ 0x39 := by
  have hdigit : c.isDigit = true := Nat.isDigit_of_mem_toDigits (by decide) (by decide) h
  rw [Char.isDigit, Bool.and_eq_true, decide_eq_true_eq, decide_eq_true_eq] at hdigit
  exact hdigit

theorem toNat_byte_of_mem_toDigits {n : Nat} {c : Char} (h : c ∈ Nat.toDigits 10 n) :
    (byte c).toNat = c.toNat := by
  have hrange := toNat_of_mem_toDigits h
  exact Nat.mod_eq_of_lt (by omega)

theorem flatMap_toDigits (n : Nat) :
    (Nat.toDigits 10 n).flatMap String.utf8EncodeChar = digitBytes n := by
  have hbyte : ∀ c ∈ Nat.toDigits 10 n, String.utf8EncodeChar c = [byte c] := by
    intro c hc
    have hrange := toNat_of_mem_toDigits hc
    exact encodeChar_of_lt (by omega)
  rw [digitBytes, List.map_eq_flatMap, List.flatMap_def, List.flatMap_def,
    List.map_congr_left hbyte]

theorem Value.bytes_int (n : Int) :
    (Value.int n).bytes = (if n < 0 then [byte '-'] else []) ++ digitBytes n.natAbs := by
  have hminus : String.utf8EncodeChar '-' = [byte '-'] := by decide
  rw [Value.bytes_eq, render, renderInt, List.flatMap_append, flatMap_toDigits]
  split <;> simp [hminus]

/-- A number above zero does not begin with a zero. -/
theorem exists_toDigits {n : Nat} (h : 0 < n) :
    ∃ c digits, Nat.toDigits 10 n = c :: digits ∧ c ≠ '0' := by
  induction n using Nat.strongRecOn with
  | ind n ih =>
    rw [Nat.toDigits_eq_if (by decide)]
    by_cases hsmall : n < 10
    · have hdigit : ∀ k < 10, 0 < k → Nat.digitChar k ≠ '0' := by decide
      exact ⟨_, [], if_pos hsmall, hdigit n hsmall h⟩
    · obtain ⟨c, digits, hdigits, hne⟩ := ih (n / 10) (by omega) (by omega)
      refine ⟨c, digits ++ [Nat.digitChar (n % 10)], ?_, hne⟩
      rw [if_neg hsmall, hdigits, List.cons_append]

theorem digits_digitBytes (n : Nat) : Digits (digitBytes n) := by
  constructor
  · exact List.map_eq_nil_iff.not.2 Nat.toDigits_ne_nil
  · intro b hb
    obtain ⟨c, hc, rfl⟩ := List.mem_map.1 hb
    have hrange := toNat_of_mem_toDigits hc
    have hvalue := toNat_byte_of_mem_toDigits hc
    rw [isDigit, Bool.and_eq_true, decide_eq_true_eq, decide_eq_true_eq, UInt8.le_iff_toNat_le,
      UInt8.le_iff_toNat_le, hvalue]
    exact hrange

/-- A natural number is written without needless zeros. -/
theorem whole_digitBytes (n : Nat) : Whole (digitBytes n) := by
  rcases Nat.eq_zero_or_pos n with rfl | hpos
  · exact .zero
  · obtain ⟨c, digits, hdigits, hne⟩ := exists_toDigits hpos
    have hbytes : digitBytes n = byte c :: digits.map byte := by
      rw [digitBytes, hdigits, List.map_cons]
    have hmem : c ∈ Nat.toDigits 10 n := by
      rw [hdigits]
      exact List.mem_cons_self
    have hzero : byte c ≠ byte '0' := by
      intro heq
      have hvalue := toNat_byte_of_mem_toDigits hmem
      rw [heq] at hvalue
      exact hne (Char.toNat_inj.1 hvalue.symm)
    have hall := digits_digitBytes n
    rw [hbytes] at hall ⊢
    exact .digits hzero hall

/-- The digits of a natural number have its value. -/
theorem digitsValue_digitBytes (n : Nat) : digitsValue (digitBytes n) = n := by
  have hdigit : ∀ value, ∀ c ∈ Nat.toDigits 10 n,
      10 * value + ((byte c).toNat - 0x30) = 10 * value + (c.toNat - '0'.toNat) := by
    intro value c hc
    rw [toNat_byte_of_mem_toDigits hc]
    rfl
  calc digitsValue (digitBytes n)
      = (Nat.toDigits 10 n).foldl (fun value c => 10 * value + ((byte c).toNat - 0x30)) 0 := by
        rw [digitsValue_eq, digitBytes, List.foldl_map]
    _ = (Nat.toDigits 10 n).foldl (fun value c => 10 * value + (c.toNat - '0'.toNat)) 0 :=
        List.foldl_ext _ _ _ hdigit
    _ = n := Nat.ofDigitChars_toDigits (by decide) (by decide)

/-! ## Values that are kept from what is printed -/

section

variable {limit : Option Nat} {depth : Nat} {v : Value}

theorem keeps_bool_bytes (b : Bool) : KeepsWithin limit depth (.bool b) (Value.bool b).bytes := by
  have hblank : Blank [] := rfl
  rw [Value.bytes_eq]
  cases b with
  | false =>
    have hword : KeepsWithin limit depth (.bool false)
        ([] ++ (byte 'f' :: [byte 'a', byte 'l', byte 's', byte 'e'] ++ [])) :=
      Treatment.takes_word hblank ⟨rfl, by decide, by decide, by decide⟩ (fun _ _ => rfl) hblank
    exact hword
  | true =>
    have hword : KeepsWithin limit depth (.bool true)
        ([] ++ (byte 't' :: [byte 'r', byte 'u', byte 'e'] ++ [])) :=
      Treatment.takes_word hblank ⟨rfl, by decide, by decide, by decide⟩ (fun _ _ => rfl) hblank
    exact hword

/-- A whole number that fits a word is kept from what is printed of it. -/
theorem keeps_int_bytes {n : Int} (hlow : -(Nat.pow 2 63 : Int) ≤ n)
    (hhigh : n < (Nat.pow 2 64 : Int)) : KeepsWithin limit depth (.int n) (Value.int n).bytes := by
  have hblank : Blank [] := rfl
  have hwhole := whole_digitBytes n.natAbs
  have hvalue := digitsValue_digitBytes n.natAbs
  rw [Value.bytes_int]
  by_cases hsign : n < 0
  · have hkept : KeepsWithin limit depth _ _ :=
      keeps_negativeWhole hblank hwhole (by rw [hvalue]; omega) hblank
    have hn : -(n.natAbs : Int) = n := by omega
    rw [hvalue, hn] at hkept
    rw [if_pos hsign, List.singleton_append]
    simpa only [List.nil_append, List.append_nil] using hkept
  · have hkept : KeepsWithin limit depth _ _ :=
      keeps_whole hblank hwhole (by rw [hvalue]; omega) hblank
    have hn : (n.natAbs : Int) = n := by omega
    rw [hvalue, hn] at hkept
    rw [if_neg hsign]
    simpa only [List.nil_append, List.append_nil] using hkept

/-- A value without binary64 numbers is kept from what is printed of it. -/
theorem Value.IsExact.keeps (h : v.IsExact) (hdepth : v.depth ≤ depth) :
    KeepsWithin limit depth v v.bytes := by
  have hblank : Blank [] := rfl
  induction h generalizing depth with
  | null =>
    rw [Value.bytes_eq]
    exact keeps_null hblank hblank
  | bool b => exact keeps_bool_bytes b
  | int hlow hhigh => exact keeps_int_bytes hlow hhigh
  | string text => exact (says_bytes text).keeps
  | array _ ih =>
    rw [Value.depth] at hdepth
    obtain ⟨inner, rfl⟩ := Nat.exists_eq_add_of_le' (Nat.le_of_add_left_le hdepth)
    refine keeps_array_bytes fun item hitem => ih item hitem ?_
    exact (Value.depth_le_depthItems hitem).trans (Nat.le_of_add_le_add_right hdepth)
  | object hsorted _ ih =>
    rw [Value.depth] at hdepth
    obtain ⟨inner, rfl⟩ := Nat.exists_eq_add_of_le' (Nat.le_of_add_left_le hdepth)
    refine keeps_object_bytes hsorted fun entry hentry => ih entry hentry ?_
    exact (Value.depth_le_depthMembers hentry).trans (Nat.le_of_add_le_add_right hdepth)

/-- The printed text is read as the value, if as many arrays and objects may be open. -/
theorem Value.IsExact.parseWithin_bytes (h : v.IsExact)
    (hroom : (Treatment.keepWithin limit).Allows v.depth) : parseWithin limit v.bytes = .ok v :=
  parseWithin_of_keeps (h.keeps (Nat.le_refl _)) hroom

/-- There is always room where nothing limits the depth. -/
theorem allows_of_unlimited : (Treatment.keepWithin none).Allows depth := by
  intro limit hlimit
  cases hlimit

/-- The exact values are those that JSON texts stand for, unless there is a binary64 number in them.
-/
theorem Value.isExact_iff_exists_parseWithin :
    v.IsExact ↔ ¬ v.HasFloat ∧ ∃ s, parseWithin none s = .ok v := by
  constructor
  · intro h
    exact ⟨h.not_hasFloat, v.bytes, h.parseWithin_bytes allows_of_unlimited⟩
  · rintro ⟨hfloat, s, hread⟩
    exact isExact_of_parseWithin hread hfloat

end

/-! ## No control characters -/

/-- There is no control character among the bytes. -/
def IsPrintable (s : List UInt8) : Prop := ∀ b ∈ s, 0x20 ≤ b.toNat

theorem isPrintable_nil : IsPrintable [] := List.forall_mem_nil _

theorem isPrintable_append {s t : List UInt8} (hs : IsPrintable s) (ht : IsPrintable t) :
    IsPrintable (s ++ t) :=
  List.forall_mem_append.2 ⟨hs, ht⟩

theorem isPrintable_cons {b : UInt8} {s : List UInt8} (hb : 0x20 ≤ b.toNat) (hs : IsPrintable s) :
    IsPrintable (b :: s) :=
  List.forall_mem_cons.2 ⟨hb, hs⟩

/-- The character is no control character. -/
def isPlain (c : Char) : Bool := 0x20 ≤ c.toNat

theorem isPrintable_chars {chars : List Char} (h : chars.all isPlain = true) :
    IsPrintable (chars.flatMap String.utf8EncodeChar) := by
  intro b hb
  obtain ⟨c, hc, hb⟩ := List.mem_flatMap.1 hb
  have hplain : 0x20 ≤ c.toNat := of_decide_eq_true (List.all_eq_true.1 h c hc)
  rcases Utf8.toNat_of_mem_encodeChar hb with hself | hhigh <;> omega

theorem isPrintable_joined {parts : List (List UInt8)} (h : ∀ part ∈ parts, IsPrintable part) :
    IsPrintable (joined parts) := by
  rcases parts with _ | ⟨first, more⟩
  · exact isPrintable_nil
  · obtain ⟨hfirst, hmore⟩ := List.forall_mem_cons.1 h
    refine isPrintable_append hfirst fun b hb => ?_
    obtain ⟨part, hpart, hb⟩ := List.mem_flatMap.1 hb
    exact isPrintable_cons (by decide) (hmore part hpart) b hb

/-- Control characters are written as escapes. -/
theorem all_isPlain_escape (c : Char) : (escape c).all isPlain = true := by
  by_cases hcontrol : c.toNat < 0x20
  · have hall : ∀ n < 0x20, (escape (Char.ofNat n)).all isPlain = true := by decide
    rw [← Char.ofNat_toNat c]
    exact hall _ hcontrol
  · unfold escape
    split
    · rfl
    · split
      · rfl
      · have hplain : isPlain c = true := decide_eq_true (Nat.not_lt.1 hcontrol)
        rw [List.all_cons, hplain, List.all_nil]
        rfl

theorem isPrintable_string_bytes (text : String) : IsPrintable (Value.string text).bytes := by
  have hquote : isPlain '"' = true := rfl
  have htext : (text.toList.flatMap escape).all isPlain = true := by
    rw [List.all_flatMap, List.all_eq_true]
    exact fun c _ => all_isPlain_escape c
  rw [Value.bytes_eq, render_string]
  apply isPrintable_chars
  rw [renderString, List.cons_append, List.all_cons, List.all_append, List.all_cons, List.all_nil,
    hquote, htext]
  rfl

theorem isPrintable_digitBytes (n : Nat) : IsPrintable (digitBytes n) := by
  intro b hb
  obtain ⟨c, hc, rfl⟩ := List.mem_map.1 hb
  have hrange := toNat_of_mem_toDigits hc
  rw [toNat_byte_of_mem_toDigits hc]
  omega

/-- A value without binary64 numbers is printed without control characters. -/
theorem Value.IsExact.isPrintable_bytes {v : Value} (h : v.IsExact) : IsPrintable v.bytes := by
  induction h with
  | null =>
    rw [Value.bytes_eq]
    exact isPrintable_chars rfl
  | bool b =>
    rw [Value.bytes_eq]
    cases b with
    | false => exact isPrintable_chars rfl
    | true => exact isPrintable_chars rfl
  | @int n =>
    rw [Value.bytes_int]
    refine isPrintable_append ?_ (isPrintable_digitBytes _)
    split
    · exact isPrintable_cons (by decide) isPrintable_nil
    · exact isPrintable_nil
  | string text => exact isPrintable_string_bytes text
  | @array items _ ih =>
    have hitems : ∀ part ∈ items.map Value.bytes, IsPrintable part := List.forall_mem_map.2 ih
    have hclose : IsPrintable [byte ']'] := isPrintable_cons (by decide) isPrintable_nil
    rw [Value.bytes_array]
    exact isPrintable_cons (by decide) (isPrintable_append (isPrintable_joined hitems) hclose)
  | @object members _ _ ih =>
    have hmembers : ∀ part ∈ members.map fun entry =>
        member ((Value.string entry.1).bytes, entry.2.bytes), IsPrintable part := by
      refine List.forall_mem_map.2 fun entry hentry => ?_
      exact isPrintable_append (isPrintable_string_bytes entry.1)
        (isPrintable_cons (by decide) (ih entry hentry))
    have hclose : IsPrintable [byte '\x7d'] := isPrintable_cons (by decide) isPrintable_nil
    rw [Value.bytes_object]
    exact isPrintable_cons (by decide) (isPrintable_append (isPrintable_joined hmembers) hclose)

end PerfRelay.Json
