import PerfRelay.Text.LowerCase

/-!
# Lower case twice

The lower case of a text is its own lower case.  The characters that it is made of are no capitals
any more, and only capitals change; the capital sigma is the only character whose lower case depends
on its neighbours, and it does not occur in a lower case.

That no lower case is a capital is a property of the character table.  It is checked run by run:
where the lower cases of one run lie between the capitals of another, they are the odd ones.

Main results:

- Theorem `isSettled_of_mem_lowerChar`: the lower case of a character consists of settled ones.
- Theorem `lowerCase_lowerCase`: a lower case is its own lower case.
-/

namespace PerfRelay

open LowerCase

namespace LowerCase

/-- A character that is its own lower case, wherever it stands. -/
structure IsSettled (c : Char) : Prop where
  ne_sigma : c.toNat ≠ 0x3a3
  lowerChar_eq : lowerChar c = [c]

/-! ## Capitals -/

/-- All characters with another lower case.  What the lower case of the dotted capital I is does not
matter here. -/
def capitalRuns : List CaseRun :=
  ⟨0x41, 0x5a, 1, 32⟩ :: ⟨0x130, 0x130, 1, 0⟩ :: caseRuns

theorem covers_iff {run : CaseRun} {n : Nat} :
    run.covers n = true ↔ run.first ≤ n ∧ n ≤ run.last ∧ (n - run.first) % run.step = 0 := by
  simp [CaseRun.covers, and_assoc]

/-- A character that is no capital is settled. -/
theorem isSettled_of_not_covers {c : Char} (h : ∀ run ∈ capitalRuns, run.covers c.toNat = false) :
    IsSettled c := by
  have hascii := h ⟨0x41, 0x5a, 1, 32⟩ (by simp [capitalRuns])
  have hdotted := h ⟨0x130, 0x130, 1, 0⟩ (by simp [capitalRuns])
  have hsigma := h ⟨0x3a3, 0x3ab, 1, 32⟩ (by decide +kernel)
  rw [← Bool.not_eq_true, covers_iff] at hascii hdotted hsigma
  dsimp only at hascii hdotted hsigma
  refine ⟨by omega, ?_⟩
  unfold lowerChar
  split
  · have hupper : ¬ (65 ≤ c.val ∧ c.val ≤ 90) := by
      simp only [UInt32.le_iff_toNat_le, Char.toNat_val, UInt32.reduceToNat]
      omega
    have hsame : c.toLower = c := dif_neg hupper
    rw [hsame]
  · rw [if_neg (by omega), List.find?_eq_none.2]
    intro run hrun
    simp [h run (by simp [capitalRuns, hrun])]

/-- Whether a character number stands for a capital. -/
def isCapital (n : Nat) : Bool := capitalRuns.any (·.covers n)

theorem isSettled_of_not_isCapital {c : Char} (h : isCapital c.toNat = false) : IsSettled c := by
  apply isSettled_of_not_covers
  intro run hrun
  simpa using List.any_eq_false.1 h run hrun

/-! ## Lower cases are no capitals -/

/-- The lower case of the first character of a run. -/
def CaseRun.lowFirst (run : CaseRun) : Nat := ((run.first : Int) + run.shift).toNat

/-- The lower case of the last character of a run. -/
def CaseRun.lowLast (run : CaseRun) : Nat := ((run.last : Int) + run.shift).toNat

/-- Whether the lower cases in one run lie outside another run: below it, above it, or between its
capitals if these are every second character. -/
def CaseRun.misses (run other : CaseRun) : Bool :=
  Nat.blt run.lowLast other.first || Nat.blt other.last run.lowFirst ||
    (Nat.beq other.step 2 && (Nat.beq run.step 2 || Nat.beq run.first run.last) &&
      decide (0 ≤ (run.first : Int) + run.shift) &&
      Nat.beq ((run.lowFirst + other.first) % 2) 1)

theorem not_covers_of_misses {run other : CaseRun} (h : run.misses other = true) {n : Nat}
    (hn : run.covers n = true) : other.covers ((n : Int) + run.shift).toNat = false := by
  rw [covers_iff] at hn
  rw [← Bool.not_eq_true, covers_iff]
  rintro ⟨hfirst, hlast, hstep⟩
  simp only [CaseRun.misses, CaseRun.lowFirst, CaseRun.lowLast, Bool.or_eq_true, Bool.and_eq_true,
    Nat.blt_eq, Nat.beq_eq, decide_eq_true_eq] at h
  rcases h with (hbelow | habove) | ⟨⟨⟨hother, hrun⟩, hshift⟩, hodd⟩
  · omega
  · omega
  · rw [hother] at hstep
    rcases hrun with hrun | hrun
    · rw [hrun] at hn
      omega
    · omega

/-- A number that is no character stands for the first one. -/
theorem toNat_ofNat_or (n : Nat) : (Char.ofNat n).toNat = n ∨ (Char.ofNat n).toNat = 0 := by
  by_cases hvalid : n.isValidChar
  · have hchar : Char.ofNat n = Char.ofNatAux n hvalid := dif_pos hvalid
    exact .inl (congrArg Char.toNat hchar)
  · have hchar : Char.ofNat n = Char.ofNat 0 := dif_neg hvalid
    exact .inr (congrArg Char.toNat hchar)

/-- No lower case in the table is a capital. -/
theorem misses_capitalRuns : (caseRuns.all fun run => capitalRuns.all run.misses) = true := by
  decide +kernel

/-- The lower case of a character consists of settled ones. -/
theorem isSettled_of_mem_lowerChar {c d : Char} (hsigma : c.toNat ≠ 0x3a3)
    (h : d ∈ lowerChar c) : IsSettled d := by
  have hmisses : ∀ run ∈ caseRuns, ∀ other ∈ capitalRuns, run.misses other = true := by
    simpa using misses_capitalRuns
  unfold lowerChar at h
  split at h
  · rename_i hascii
    have hall : ∀ n < 0x80, (Char.ofNat n).toLower.toNat < 0x80 ∧
        (Char.ofNat n).toLower.toLower = (Char.ofNat n).toLower := by
      decide
    have hc := hall c.toNat hascii
    rw [Char.ofNat_toNat] at hc
    rw [List.mem_singleton.1 h]
    exact ⟨by omega, by rw [lowerChar, if_pos hc.1, hc.2]⟩
  · rename_i hascii
    split at h
    · rw [List.mem_cons, List.mem_singleton] at h
      rcases h with rfl | rfl
      · exact isSettled_of_not_isCapital (by decide +kernel)
      · exact isSettled_of_not_isCapital (by decide +kernel)
    · rename_i hdotted
      split at h
      · rename_i hnone
        rw [List.mem_singleton.1 h]
        refine ⟨hsigma, ?_⟩
        rw [lowerChar, if_neg hascii, if_neg hdotted, hnone]
      · rename_i run hfound
        have hrun := List.mem_of_find?_eq_some hfound
        have hcovers := List.find?_some hfound
        rw [List.mem_singleton.1 h]
        apply isSettled_of_not_covers
        intro other hother
        rcases toNat_ofNat_or ((c.toNat : Int) + run.shift).toNat with hsame | hfirst
        · rw [hsame]
          exact not_covers_of_misses (hmisses run hrun other hother) hcovers
        · have hzero : isCapital 0 = false := by decide +kernel
          rw [hfirst]
          simpa using List.any_eq_false.1 hzero other hother

/-- So do both forms of the small sigma. -/
theorem isSettled_sigma (final : Bool) :
    IsSettled (Char.ofNat (if final then 0x3c2 else 0x3c3)) := by
  apply isSettled_of_not_isCapital
  cases final <;> decide +kernel

/-! ## Texts -/

theorem isSettled_of_mem_lowerChars {before after : List Char} {d : Char}
    (h : d ∈ lowerChars before after) : IsSettled d := by
  induction after generalizing before with
  | nil => simp [lowerChars] at h
  | cons c after ih =>
    rw [lowerChars, List.mem_append] at h
    rcases h with hfirst | hrest
    · split at hfirst
      · rw [List.mem_singleton.1 hfirst]
        exact isSettled_sigma _
      · rename_i hsigma
        exact isSettled_of_mem_lowerChar hsigma hfirst
    · exact ih hrest

/-- Settled characters stay as they are. -/
theorem lowerChars_of_isSettled {cs : List Char} (h : ∀ c ∈ cs, IsSettled c)
    (before : List Char) : lowerChars before cs = cs := by
  induction cs generalizing before with
  | nil => simp [lowerChars]
  | cons c cs ih =>
    have hc := h c (by simp)
    rw [lowerChars, if_neg hc.ne_sigma, hc.lowerChar_eq, ih fun d hd => h d (by simp [hd])]
    simp

end LowerCase

/-- A lower case is its own lower case. -/
@[simp]
theorem lowerCase_lowerCase (text : String) : lowerCase (lowerCase text) = lowerCase text := by
  have hsettled : ∀ c ∈ lowerChars [] text.toList, IsSettled c :=
    fun _ hc => isSettled_of_mem_lowerChars hc
  rw [lowerCase, lowerCase, String.toList_ofList, lowerChars_of_isSettled hsettled]

end PerfRelay
