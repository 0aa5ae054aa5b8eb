-- The lines of a text of bytes.
import TateyamaBootstrap.Json

namespace json

/-- The lines of a text. -/
def lines : Text → List Text
  | [] => []
  | b :: text =>
    if b = 0x0a then [] :: lines text
    else
      match lines text with
      | [] => [[b]]
      | line :: rest => (b :: line) :: rest

theorem lines_end {line : Text} (h : 0x0a ∉ line) (text : Text) :
    lines (line ++ 0x0a :: text) = line :: lines text := by
  induction line with
  | nil => simp [lines]
  | cons b line ih =>
    simp only [List.mem_cons, not_or] at h
    have hrest := ih h.2
    simp only [List.cons_append, lines, hrest]
    rw [if_neg (Ne.symm h.1)]

theorem lines_ne_nil {text : Text} (h : text ≠ []) : lines text ≠ [] := by
  rcases text with _ | ⟨b, text⟩
  · exact absurd rfl h
  · unfold lines
    split
    · simp
    · split <;> simp

/-- The lines of a text that ends in an end of line do not depend on what follows. -/
theorem lines_append (text text' : Text) :
    lines (text ++ 0x0a :: text') = lines (text ++ [0x0a]) ++ lines text' := by
  induction text with
  | nil => simp [lines]
  | cons b text ih =>
    simp only [List.cons_append, lines]
    split
    · rw [ih, List.cons_append]
    · rw [ih]
      rcases hlines : lines (text ++ [0x0a]) with _ | ⟨line, rest⟩
      · exact absurd hlines (lines_ne_nil (by simp))
      · rfl

/-- A text with an end of line in it breaks there. -/
theorem mem_lines_of_mem {text : Text} (h : 0x0a ∈ text) (tail : Text) :
    ∃ line ∈ lines (text ++ tail), ∀ b ∈ line, b ∈ text := by
  obtain ⟨line, rest, rfl, hline⟩ := List.eq_append_cons_of_mem h
  refine ⟨line, ?_, fun b hb => List.mem_append_left _ hb⟩
  rw [List.append_assoc, List.cons_append, lines_end hline]
  exact List.mem_cons_self

theorem lines_flatMap {α : Type} (f : α → Text) (l : List α) :
    lines (l.flatMap fun a => f a ++ ascii "\n") =
      l.flatMap fun a => lines (f a ++ [0x0a]) := by
  induction l with
  | nil => rfl
  | cons a l ih =>
    have hend : f a ++ ascii "\n" ++ (l.flatMap fun a => f a ++ ascii "\n") =
        f a ++ 0x0a :: (l.flatMap fun a => f a ++ ascii "\n") := by
      rw [List.append_assoc]
      rfl
    rw [List.flatMap_cons, List.flatMap_cons, hend, lines_append, ih]

/-- Texts without an end of line are the lines. -/
theorem lines_flatMap_of {α : Type} {f : α → Text} {l : List α} (h : ∀ a ∈ l, 0x0a ∉ f a) :
    lines (l.flatMap fun a => f a ++ ascii "\n") = l.map f := by
  rw [lines_flatMap]
  induction l with
  | nil => rfl
  | cons a l ih =>
    have hrest := ih fun b hb => h b (List.mem_cons_of_mem _ hb)
    have hline := lines_end (h a (by simp)) []
    rw [List.flatMap_cons, hline, hrest]
    rfl

end json
