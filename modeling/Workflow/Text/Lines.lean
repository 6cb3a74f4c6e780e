/-!
# Lines of a text

A text is taken apart at its line breaks. Putting the lines together again gives the text
(`intercalate_lines`), and lines without breaks of their own are found again (`lines_intercalate`).

**Parts of a line.** A line is taken apart at the first character that is not of a kind
(`takeWhile_until`, `dropWhile_until`).
-/

namespace Workflow.Text

/-- The lines of a text. -/
def lines (s : String) : List String := (s.toList.splitOn '\n').map String.ofList

theorem map_toList_lines (s : String) : (lines s).map String.toList = s.toList.splitOn '\n' := by
  simp [lines, Function.comp_def]

theorem lines_ne_nil (s : String) : lines s ≠ [] := by
  simp [lines]

theorem intercalate_lines (s : String) : String.intercalate "\n" (lines s) = s := by
  rw [← String.toList_inj, String.toList_intercalate, map_toList_lines]
  exact List.intercalate_splitOn '\n'

theorem lines_intercalate {ls : List String} (hne : ls ≠ []) (h : ∀ l ∈ ls, '\n' ∉ l.toList) :
    lines (String.intercalate "\n" ls) = ls := by
  have hsplit : (['\n'].intercalate (ls.map String.toList)).splitOn '\n' =
      ls.map String.toList :=
    List.splitOn_intercalate '\n' (List.forall_mem_map.2 h) (by simpa using hne)
  unfold lines
  rw [String.toList_intercalate, show "\n".toList = ['\n'] from rfl, hsplit]
  simp [Function.comp_def]

/-- Lines behind a text, and lines behind its lines. -/
theorem intercalate_lines_append (s : String) (ls : List String) :
    String.intercalate "\n" (lines s ++ ls) = String.intercalate "\n" (s :: ls) := by
  cases ls with
  | nil => rw [List.append_nil, intercalate_lines, String.intercalate_singleton]
  | cons l rest =>
    rw [String.intercalate_append_of_ne_nil (lines_ne_nil s) (List.cons_ne_nil l rest),
      intercalate_lines, String.intercalate_cons_cons]

theorem prefix_intercalate_cons (between s : String) (ls : List String) :
    s.toList <+: (String.intercalate between (s :: ls)).toList := by
  cases ls <;> simp

/-! ## Parts of a line -/

section Parts

variable {p : Char → Bool} {cs rest : List Char} {c : Char}

theorem takeWhile_until (hcs : ∀ x ∈ cs, p x) (hc : p c = false) :
    (cs ++ c :: rest).takeWhile p = cs := by
  simp [List.takeWhile_append_of_pos hcs, hc]

theorem dropWhile_until (hcs : ∀ x ∈ cs, p x) (hc : p c = false) :
    (cs ++ c :: rest).dropWhile p = c :: rest := by
  simp [List.dropWhile_append_of_pos hcs, hc]

end Parts

end Workflow.Text
