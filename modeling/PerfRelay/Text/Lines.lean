/-!
# Lines of a text

A line ends at a line feed, and one carriage return just before the line feed belongs to the line
end.  What follows the last line feed is a line of its own unless it is empty.

Main results:

- Theorem `not_mem_of_mem_splitLines`: no line holds a line feed.
-/

namespace PerfRelay

/-- The lines of a text, without their ends. -/
def splitLines : List Char → List (List Char)
  | [] => []
  | '\n' :: rest => [] :: splitLines rest
  | '\r' :: '\n' :: rest => [] :: splitLines rest
  | c :: rest =>
    match splitLines rest with
    | [] => [[c]]
    | line :: lines => (c :: line) :: lines

/-- No line holds a line feed. -/
theorem not_mem_of_mem_splitLines {cs line : List Char} (h : line ∈ splitLines cs) :
    '\n' ∉ line := by
  fun_induction splitLines cs generalizing line with
  | case1 => simp at h
  | case2 rest ih =>
    rcases List.mem_cons.1 h with rfl | h
    · simp
    · exact ih h
  | case3 rest ih =>
    rcases List.mem_cons.1 h with rfl | h
    · simp
    · exact ih h
  | case4 c rest hn _ hrest ih =>
    simp only [List.mem_singleton] at h
    subst h
    simp only [List.mem_singleton]
    exact fun heq => hn heq.symm
  | case5 c rest hn _ first lines hrest ih =>
    rcases List.mem_cons.1 h with rfl | h
    · simp only [List.mem_cons, not_or]
      exact ⟨fun heq => hn heq.symm, ih (by rw [hrest]; simp)⟩
    · exact ih (by rw [hrest]; simp [h])

end PerfRelay
