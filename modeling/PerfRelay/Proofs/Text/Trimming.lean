import Mathlib.Data.List.DropRight
import PerfRelay.Text.Blank

/-!
# What trimming leaves

Trimming takes the blank characters at both ends of a text and nothing else.  What is left neither
begins nor ends blank, and a text like this is left as it is, whatever blank characters stand around
it.

Main results:

- Theorem `exists_eq_trimBlank`: a text is what trimming leaves, between blank characters.
- Theorem `isTrimmed_trimBlank`: what is left neither begins nor ends blank.
- Theorem `trimBlank_between`: blank characters around a trimmed text are taken away.
-/

namespace PerfRelay

/-- Nothing but blank characters. -/
def AllBlank (cs : List Char) : Prop := ∀ c ∈ cs, isBlank c = true

/-- A text that neither begins nor ends blank. -/
structure IsTrimmed (cs : List Char) : Prop where
  head : ∀ c, cs.head? = some c → isBlank c = false
  last : ∀ c, cs.getLast? = some c → isBlank c = false

variable {before cs after : List Char}

theorem trimBlank_eq (cs : List Char) : trimBlank cs = (trimStart cs).rdropWhile isBlank := rfl

theorem trimStart_of_head (h : ∀ c, cs.head? = some c → isBlank c = false) : trimStart cs = cs :=
  trimStart_eq_self_iff.2 h

/-- A text is what trimming leaves, between blank characters. -/
theorem exists_eq_trimBlank (cs : List Char) :
    ∃ before after, AllBlank before ∧ AllBlank after ∧ cs = before ++ (trimBlank cs ++ after) := by
  have hbefore : AllBlank (cs.takeWhile isBlank) := fun _ hc => List.mem_takeWhile_imp hc
  have hafter : AllBlank ((trimStart cs).rtakeWhile isBlank) :=
    fun _ hc => List.mem_rtakeWhile_imp hc
  refine ⟨_, _, hbefore, hafter, ?_⟩
  rw [trimBlank_eq, List.rdropWhile_append_rtakeWhile]
  exact List.takeWhile_append_dropWhile.symm

/-- What trimming leaves neither begins nor ends blank. -/
theorem isTrimmed_trimBlank (cs : List Char) : IsTrimmed (trimBlank cs) := by
  constructor
  · intro c hc
    obtain ⟨tail, htail⟩ := List.rdropWhile_prefix isBlank (trimStart cs)
    have hstart : (trimStart cs).head? = some c := by
      rw [← htail, List.head?_append, ← trimBlank_eq, hc, Option.some_or]
    have hhead := List.head?_dropWhile_not isBlank cs
    rw [← trimStart, hstart] at hhead
    exact hhead
  · intro c hc
    have hsome : trimBlank cs ≠ [] := by
      rintro hnil
      rw [hnil] at hc
      cases hc
    rw [List.getLast?_eq_some_getLast hsome, Option.some.injEq] at hc
    rw [← hc]
    exact Bool.eq_false_iff.2 (List.rdropWhile_last_not isBlank (trimStart cs) hsome)

theorem trimBlank_append_left (h : AllBlank before) : trimBlank (before ++ cs) = trimBlank cs := by
  rw [trimBlank_eq, trimStart, List.dropWhile_append_of_pos h]
  rfl

theorem trimBlank_append_right (h : AllBlank after) : trimBlank (cs ++ after) = trimBlank cs := by
  rw [trimBlank_eq, trimBlank_eq, trimStart, trimStart, List.dropWhile_append]
  split
  · rename_i hblank
    rw [List.isEmpty_iff] at hblank
    rw [hblank, List.dropWhile_eq_nil_iff.2 h]
  · rw [List.rdropWhile, List.reverse_append,
      List.dropWhile_append_of_pos fun c hc => h c (List.mem_reverse.1 hc)]
    rfl

theorem IsTrimmed.trimBlank_eq_self (h : IsTrimmed cs) : trimBlank cs = cs := by
  rw [trimBlank_eq, trimStart_of_head h.head, List.rdropWhile_eq_self_iff]
  intro hsome hblank
  have hlast := h.last _ (List.getLast?_eq_some_getLast hsome)
  rw [hblank] at hlast
  cases hlast

theorem trimBlank_of_allBlank (h : AllBlank cs) : trimBlank cs = [] := by
  rw [← List.nil_append cs, trimBlank_append_right h]
  rfl

/-- What begins with a character that is not blank begins with it after trimming. -/
theorem head?_trimBlank_cons {c : Char} (h : isBlank c = false) (cs : List Char) :
    (trimBlank (c :: cs)).head? = some c := by
  have hstart : trimStart (c :: cs) = c :: cs := by
    apply trimStart_of_head
    rintro _ ⟨⟩
    exact h
  rw [trimBlank_eq, hstart]
  obtain ⟨tail, htail⟩ := List.rdropWhile_prefix isBlank (c :: cs)
  cases hleft : (c :: cs).rdropWhile isBlank with
  | nil =>
    have hblank := List.rdropWhile_eq_nil_iff.1 hleft c List.mem_cons_self
    rw [h] at hblank
    cases hblank
  | cons d left =>
    rw [hleft, List.cons_append, List.cons.injEq] at htail
    rw [List.head?_cons, htail.1]

/-- Blank characters around a trimmed text are taken away, and nothing else. -/
theorem trimBlank_between (hbefore : AllBlank before) (h : IsTrimmed cs) (hafter : AllBlank after) :
    trimBlank (before ++ (cs ++ after)) = cs := by
  rw [trimBlank_append_left hbefore, trimBlank_append_right hafter, h.trimBlank_eq_self]

end PerfRelay
