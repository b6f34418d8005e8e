import PerfRelay.Json.Lexical
import PerfRelay.Json.Value

/-!
# JSON numbers

A number is scanned into its parts first and given a value afterwards.  Where the bytes end inside a
number, a number that is kept may still be continued, but one that is passed over counts as
malformed.

Main results:

- Theorem `digitsValue_eq`: every digit is worth ten times the next one.
- Theorem `scanNumeral_length`: a scan that succeeds has moved on.
-/

namespace PerfRelay.Json

/-- The parts of a number: the digits before the point, those after it, and the exponent with its
sign. -/
structure Numeral where
  whole : List UInt8
  fraction : Option (List UInt8)
  exponent : Option (Bool × List UInt8)
deriving DecidableEq, Repr

/-- The number with the given digits to a base, the lowest one first. -/
def ofDigits (base : Nat) (digits : List Nat) : Nat :=
  digits.foldr (fun d n => d + base * n) 0

/-- Makes every two digits to a base one digit to its square, and puts them behind those that are
`done`, which stand in reverse. -/
def pairDigits (base : Nat) (done : List Nat) : List Nat → List Nat
  | low :: high :: digits => pairDigits base ((low + base * high) :: done) digits
  | [digit] => (digit :: done).reverse
  | [] => done.reverse

theorem pairDigits_length (base : Nat) (done digits : List Nat) :
    (pairDigits base done digits).length = done.length + (digits.length + 1) / 2 := by
  fun_induction pairDigits base done digits with
  | case1 done low high digits ih => simp only [ih, List.length_cons]; omega
  | case2 => simp
  | case3 => simp

/-- The number with the given digits to a base.  The digits are made fewer and greater until one is
left, so that long numbers are multiplied with numbers as long. -/
def gatherDigits (base : Nat) : List Nat → Nat
  | [] => 0
  | [digit] => digit
  | low :: high :: digits =>
    gatherDigits (base * base) (pairDigits base [low + base * high] digits)
termination_by digits => digits.length
decreasing_by
  simp only [pairDigits_length, List.length_cons, List.length_nil]
  omega

/-- The natural number written by decimal digits. -/
def digitsValue (digits : List UInt8) : Nat :=
  gatherDigits 10 (digits.foldl (fun before d => (d.toNat - 0x30) :: before) [])

theorem ofDigits_pairDigits (base : Nat) (done digits : List Nat) :
    ofDigits (base * base) (pairDigits base done digits) =
      done.foldl (fun n d => d + base * base * n) (ofDigits base digits) := by
  fun_induction pairDigits base done digits with
  | case1 done low high digits ih =>
    rw [ih, List.foldl_cons]
    simp only [ofDigits, List.foldr_cons, Nat.mul_add, Nat.mul_assoc, Nat.add_assoc]
  | case2 => simp [ofDigits, List.foldr_reverse]
  | case3 => simp [ofDigits, List.foldr_reverse]

theorem gatherDigits_eq (base : Nat) (digits : List Nat) :
    gatherDigits base digits = ofDigits base digits := by
  fun_induction gatherDigits base digits with
  | case1 => rfl
  | case2 => simp [ofDigits]
  | case3 base low high digits ih =>
    rw [ih, ofDigits_pairDigits]
    simp [ofDigits, Nat.mul_add, Nat.mul_assoc, Nat.add_assoc]

/-- Every digit is worth ten times the next one. -/
theorem digitsValue_eq (digits : List UInt8) :
    digitsValue digits = digits.foldl (fun n d => 10 * n + (d.toNat - 0x30)) 0 := by
  have hfold : ∀ (digits : List UInt8) (before : List Nat),
      ofDigits 10 (digits.foldl (fun before d => (d.toNat - 0x30) :: before) before) =
        digits.foldl (fun n d => 10 * n + (d.toNat - 0x30)) (ofDigits 10 before) := by
    intro digits
    induction digits with
    | nil => intro before; rfl
    | cons d digits ih =>
      intro before
      rw [List.foldl_cons, ih, List.foldl_cons, ofDigits, List.foldr_cons, Nat.add_comm]
      rfl
  rw [digitsValue, gatherDigits_eq, hfold]
  rfl

/-- The binary64 number nearest to the number written by decimal digits times `10 ^ exponent`;
`none` when that lies beyond the greatest one.  Magnitudes far outside the range are told apart by
the number of their digits alone. -/
def decimal? (negative : Bool) (digits : List UInt8) (exponent : Int) : Option Binary64 :=
  let digits := digits.dropWhile (· == byte '0')
  let order := (digits.length : Int) + exponent
  if digits.isEmpty ∨ order < -330 then some (.zero negative)
  else if 310 < order then none
  else Binary64.ofDecimal? negative (digitsValue digits) exponent

/-- The value of a number; `none` when its magnitude exceeds every binary64 number.  Whole numbers
outside the range of 64-bit words, and the negative zero, become binary64 numbers. -/
def Numeral.value? (negative : Bool) (n : Numeral) : Option Value :=
  let whole := digitsValue n.whole
  match n.fraction, n.exponent with
  | none, none =>
    if negative then
      if 0 < whole ∧ whole ≤ Nat.pow 2 63 then some (.int (-whole))
      else (decimal? true n.whole 0).map .float
    else
      if whole < Nat.pow 2 64 then some (.int whole)
      else (decimal? false n.whole 0).map .float
  | fraction, exponent =>
    let fraction := fraction.getD []
    let power : Int :=
      match exponent with
      | none => 0
      | some (down, digits) => if down then -(digitsValue digits) else digitsValue digits
    (decimal? negative (n.whole ++ fraction) (power - fraction.length)).map .float

/-! ## Scanning -/

/-- Takes the digits at the front. -/
@[inline]
def takeDigits (s : List UInt8) : List UInt8 × List UInt8 :=
  (s.takeWhile isDigit, s.dropWhile isDigit)

theorem takeDigits_length (s : List UInt8) : (takeDigits s).2.length ≤ s.length :=
  (List.dropWhile_suffix isDigit).length_le

/-- Takes one digit or more; `atEnd` tells what it means that there is no byte. -/
@[inline]
def scanDigits (atEnd : Stop) : List UInt8 → Reading Stop (List UInt8)
  | [] => .error atEnd
  | b :: rest =>
    if isDigit b then .ok (b :: (takeDigits rest).1, (takeDigits rest).2) else .error .malformed

/-- Takes the digits before the point: a zero alone, or digits that do not begin with zero. -/
@[inline]
def scanWhole (atEnd : Stop) : List UInt8 → Reading Stop (List UInt8)
  | [] => .error atEnd
  | b :: rest =>
    if b = byte '0' then
      match rest with
      | [] => .ok ([b], [])
      | c :: _ => if isDigit c then .error .malformed else .ok ([b], rest)
    else scanDigits atEnd (b :: rest)

/-- Takes the fraction, if there is a point. -/
@[inline]
def scanFraction (atEnd : Stop) : List UInt8 → Reading Stop (Option (List UInt8))
  | [] => .ok (none, [])
  | b :: rest =>
    if b = byte '.' then (scanDigits atEnd rest).map fun (digits, rest) => (some digits, rest)
    else .ok (none, b :: rest)

/-- Takes the sign of an exponent. -/
@[inline]
def scanSign : List UInt8 → Bool × List UInt8
  | [] => (false, [])
  | b :: rest =>
    if b = byte '-' then (true, rest)
    else if b = byte '+' then (false, rest)
    else (false, b :: rest)

/-- Takes the exponent, if there is one. -/
@[inline]
def scanExponent (atEnd : Stop) :
    List UInt8 → Reading Stop (Option (Bool × List UInt8))
  | [] => .ok (none, [])
  | b :: rest =>
    if b = byte 'e' ∨ b = byte 'E' then
      let (down, rest) := scanSign rest
      (scanDigits atEnd rest).map fun (digits, rest) => (some (down, digits), rest)
    else .ok (none, b :: rest)

/-- Takes a number without its sign. -/
@[inline]
def scanNumeral (atEnd : Stop) (s : List UInt8) : Reading Stop Numeral :=
  match scanWhole atEnd s with
  | .error stop => .error stop
  | .ok (whole, s) =>
    match scanFraction atEnd s with
    | .error stop => .error stop
    | .ok (fraction, s) =>
      (scanExponent atEnd s).map fun (exponent, s) => (⟨whole, fraction, exponent⟩, s)

theorem scanDigits_length {atEnd : Stop} {s digits rest : List UInt8}
    (h : scanDigits atEnd s = .ok (digits, rest)) : rest.length < s.length := by
  unfold scanDigits at h
  split at h
  · cases h
  · split at h
    · rename_i b tail _
      cases h
      have := takeDigits_length tail
      simp only [List.length_cons]
      omega
    · cases h

theorem scanWhole_length {atEnd : Stop} {s digits rest : List UInt8}
    (h : scanWhole atEnd s = .ok (digits, rest)) : rest.length < s.length := by
  unfold scanWhole at h
  split at h
  · cases h
  · split at h
    · split at h
      · cases h; simp
      · split at h
        · cases h
        · cases h; simp
    · exact scanDigits_length h

theorem scanFraction_length {atEnd : Stop} {s rest : List UInt8} {fraction : Option (List UInt8)}
    (h : scanFraction atEnd s = .ok (fraction, rest)) : rest.length ≤ s.length := by
  unfold scanFraction at h
  split at h
  · cases h; exact Nat.le_refl _
  · split at h
    · rename_i b tail _
      cases hdigits : scanDigits atEnd tail with
      | error => rw [hdigits] at h; cases h
      | ok result =>
        rw [hdigits] at h
        cases h
        have := scanDigits_length hdigits
        simp only [List.length_cons]
        omega
    · cases h; exact Nat.le_refl _

theorem scanSign_length (s : List UInt8) : (scanSign s).2.length ≤ s.length := by
  unfold scanSign
  split
  · exact Nat.le_refl _
  · split
    · simp
    · split <;> simp

theorem scanExponent_length {atEnd : Stop} {s rest : List UInt8}
    {exponent : Option (Bool × List UInt8)} (h : scanExponent atEnd s = .ok (exponent, rest)) :
    rest.length ≤ s.length := by
  unfold scanExponent at h
  split at h
  · cases h; exact Nat.le_refl _
  · split at h
    · rename_i b tail _
      simp only at h
      cases hdigits : scanDigits atEnd (scanSign tail).2 with
      | error => rw [hdigits] at h; cases h
      | ok result =>
        rw [hdigits] at h
        cases h
        have := scanDigits_length hdigits
        have := scanSign_length tail
        simp only [List.length_cons]
        omega
    · cases h; exact Nat.le_refl _

theorem scanNumeral_length {atEnd : Stop} {s rest : List UInt8} {n : Numeral}
    (h : scanNumeral atEnd s = .ok (n, rest)) : rest.length < s.length := by
  unfold scanNumeral at h
  split at h
  · cases h
  · rename_i hwhole
    split at h
    · cases h
    · rename_i after hfraction
      cases hexponent : scanExponent atEnd after with
      | error => rw [hexponent] at h; cases h
      | ok =>
        rw [hexponent] at h
        cases h
        have := scanWhole_length hwhole
        have := scanFraction_length hfraction
        have := scanExponent_length hexponent
        omega

/-- Reads a number that is kept, its sign gone. -/
def readNumber (negative : Bool) (s : List UInt8) : Reading Stop Value :=
  match scanNumeral .endOfInput s with
  | .error stop => .error stop
  | .ok (n, rest) =>
    match n.value? negative with
    | some v => .ok (v, rest)
    | none => .error .malformed

theorem readNumber_length {negative : Bool} {s rest : List UInt8} {v : Value}
    (h : readNumber negative s = .ok (v, rest)) : rest.length < s.length := by
  unfold readNumber at h
  split at h
  · cases h
  · rename_i hscan
    split at h
    · cases h; exact scanNumeral_length hscan
    · cases h

/-- Passes over a number, its sign gone. -/
def skipNumber (s : List UInt8) : Reading Stop Unit :=
  (scanNumeral .malformed s).map fun (_, rest) => ((), rest)

theorem skipNumber_length {s rest : List UInt8} {u : Unit} (h : skipNumber s = .ok (u, rest)) :
    rest.length < s.length := by
  unfold skipNumber at h
  cases hscan : scanNumeral .malformed s with
  | error => rw [hscan] at h; cases h
  | ok result =>
    rw [hscan] at h
    cases h
    exact scanNumeral_length hscan

end PerfRelay.Json
