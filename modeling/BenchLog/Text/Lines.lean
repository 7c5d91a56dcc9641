/-
# Lines of a text

A line ends with a line feed, or with a carriage return and a line feed; the
last line may lack its end. A carriage return anywhere else belongs to the
line. A line feed at the end of the text opens no further line.

Key definitions: `segments`, `dropReturn`, `lines`.
Key theorems: `lines_append_feed`, `lines_of_no_feed`.
-/
namespace BenchLog.Text

/-- The segments of a text between its line feeds: the first one and the others. -/
def segments (cs : List Char) : List Char × List (List Char) :=
  cs.foldr (fun c s => if c = '\n' then ([], s.1 :: s.2) else (c :: s.1, s.2)) ([], [])

/-- A line without the carriage return of its end. -/
def dropReturn (l : List Char) : List Char :=
  if l.getLast? = some '\r' then l.dropLast else l

/-- The lines made of segments. All but the last segment had a line feed. -/
def closeLines : List Char → List (List Char) → List (List Char)
  | last, [] => if last = [] then [] else [last]
  | l, next :: others => dropReturn l :: closeLines next others

/-- The lines of a text, without their ends. -/
def lines (cs : List Char) : List (List Char) :=
  closeLines (segments cs).1 (segments cs).2

theorem segments_append_of_no_feed {l : List Char} (h : '\n' ∉ l) (cs : List Char) :
    segments (l ++ cs) = (l ++ (segments cs).1, (segments cs).2) := by
  induction l with
  | nil => rfl
  | cons c l ih =>
    simp only [List.mem_cons, not_or] at h
    have hc : c ≠ '\n' := fun e => h.1 e.symm
    have := ih h.2
    simp_all [segments]

/-- A finished line in front of a text is its first line. -/
theorem lines_append_feed {l : List Char} (h : '\n' ∉ l) (cs : List Char) :
    lines (l ++ '\n' :: cs) = dropReturn l :: lines cs := by
  rw [lines, segments_append_of_no_feed h]
  simp [segments, lines, closeLines]

/-- A text without a line feed is one line, unless it is empty. -/
theorem lines_of_no_feed {cs : List Char} (h : '\n' ∉ cs) (hne : cs ≠ []) : lines cs = [cs] := by
  have := segments_append_of_no_feed h []
  rw [List.append_nil] at this
  rw [lines, this]
  simp [segments, closeLines, hne]

end BenchLog.Text
