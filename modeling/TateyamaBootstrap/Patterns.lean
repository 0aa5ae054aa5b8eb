-- Patterns that are matched by backtracking, as a regular expression of Perl is. A
-- pattern is a sequence of pieces; a piece tries the lengths that it can take in a
-- fixed order, and the first one that lets the rest match wins.
import Mathlib.Data.List.Forall2
import Mathlib.Data.List.TakeWhile

namespace patterns

variable {α : Type}

/-! ## The pieces -/

inductive Piece (α : Type)
  /-- One of the words, in their order. -/
  | words (ws : List (List α))
  /-- An element of the class. -/
  | one (p : α → Bool)
  /-- An element of the class if possible, else nothing. -/
  | optional (p : α → Bool)
  /-- As many elements of the class as possible, and `min` at least. -/
  | many (min : Nat) (p : α → Bool)

namespace Piece

def Accepts : Piece α → List α → Prop
  | words ws, part => part ∈ ws
  | one p, part => ∃ a, part = [a] ∧ p a = true
  | optional p, part => part = [] ∨ ∃ a, part = [a] ∧ p a = true
  | many min p, part => min ≤ part.length ∧ ∀ a ∈ part, p a = true

variable [DecidableEq α]

/-- The lengths that the piece tries at the head of `s`. -/
def tries : Piece α → List α → List Nat
  | words ws, s => (ws.filter (·.isPrefixOf s)).map List.length
  | one p, s => if s.head?.any p then [1] else []
  | optional p, s => if s.head?.any p then [1, 0] else [0]
  | many min p, s => (List.range' min ((s.takeWhile p).length + 1 - min)).reverse

theorem accepts_of_mem_tries {piece : Piece α} {s : List α} {n : Nat} (h : n ∈ piece.tries s) :
    piece.Accepts (s.take n) := by
  have hhead : ∀ p, s.head?.any p = true → ∃ a, s.take 1 = [a] ∧ p a = true := by
    intro p hp
    cases s with
    | nil => simp at hp
    | cons a s => exact ⟨a, rfl, by simpa using hp⟩
  cases piece with
  | words ws =>
    simp only [tries, List.mem_map, List.mem_filter] at h
    obtain ⟨w, ⟨hw, hpre⟩, rfl⟩ := h
    obtain ⟨rest, rfl⟩ := List.isPrefixOf_iff_prefix.mp hpre
    simpa [Accepts] using hw
  | one p =>
    simp only [tries] at h
    split at h
    · rename_i hp
      obtain rfl := List.mem_singleton.mp h
      exact hhead p hp
    · cases h
  | optional p =>
    simp only [tries] at h
    split at h
    · rename_i hp
      simp only [List.mem_cons, List.not_mem_nil, or_false] at h
      rcases h with rfl | rfl
      · exact .inr (hhead p hp)
      · exact .inl rfl
    · obtain rfl := List.mem_singleton.mp h
      exact .inl rfl
  | many min p =>
    simp only [tries, List.mem_reverse, List.mem_range'_1] at h
    have hle : n ≤ (s.takeWhile p).length := by omega
    have hpre : s.take n <+: s.takeWhile p := by
      have hs : s.take n = (s.takeWhile p).take n := by
        conv_lhs => rw [← List.takeWhile_append_dropWhile (p := p) (l := s)]
        rw [List.take_append_of_le_length hle]
      rw [hs]
      exact List.take_prefix _ _
    refine ⟨?_, fun a ha => List.mem_takeWhile_imp (hpre.subset ha)⟩
    have := (List.takeWhile_prefix p (l := s)).length_le
    rw [List.length_take]
    omega

theorem mem_tries_of_accepts {piece : Piece α} {part rest : List α} (h : piece.Accepts part) :
    part.length ∈ piece.tries (part ++ rest) := by
  cases piece with
  | words ws =>
    simp only [tries, List.mem_map, List.mem_filter]
    exact ⟨part, ⟨h, by simp⟩, rfl⟩
  | one p =>
    obtain ⟨a, rfl, ha⟩ := h
    simp [tries, ha]
  | optional p =>
    rcases h with rfl | ⟨a, rfl, ha⟩
    · simp only [tries]
      split <;> simp
    · simp [tries, ha]
  | many min p =>
    obtain ⟨hmin, hall⟩ := h
    have hlen : part.length ≤ ((part ++ rest).takeWhile p).length := by
      rw [List.takeWhile_append_of_pos hall, List.length_append]
      exact Nat.le_add_right _ _
    simp only [tries, List.mem_reverse, List.mem_range'_1]
    omega

end Piece

/-! ## Matching -/

variable [DecidableEq α]

/-- What the pieces match when the whole of `s` is matched, by the first choice that
succeeds. -/
def find : List (Piece α) → List α → Option (List (List α))
  | [], s => if s.isEmpty then some [] else none
  | piece :: pieces, s =>
    (piece.tries s).findSome? fun n => (find pieces (s.drop n)).map (s.take n :: ·)

/-- A match splits the text into parts that the pieces accept. -/
theorem find_sound {pieces : List (Piece α)} {s : List α} {parts : List (List α)}
    (h : find pieces s = some parts) :
    parts.flatten = s ∧ List.Forall₂ Piece.Accepts pieces parts := by
  induction pieces generalizing s parts with
  | nil =>
    simp only [find] at h
    split at h
    · rename_i hs
      cases h
      exact ⟨(List.isEmpty_iff.mp hs).symm, .nil⟩
    · cases h
  | cons piece pieces ih =>
    simp only [find] at h
    obtain ⟨n, hn, hrest⟩ := List.exists_of_findSome?_eq_some h
    obtain ⟨rest, hfind, rfl⟩ := Option.map_eq_some_iff.mp hrest
    obtain ⟨hflat, hall⟩ := ih hfind
    refine ⟨?_, .cons (Piece.accepts_of_mem_tries hn) hall⟩
    rw [List.flatten_cons, hflat, List.take_append_drop]

/-- A text that can be split so has a match. -/
theorem find_complete {pieces : List (Piece α)} {parts : List (List α)}
    (h : List.Forall₂ Piece.Accepts pieces parts) : (find pieces parts.flatten).isSome := by
  induction h with
  | nil => rfl
  | @cons piece part pieces parts hpart _ ih =>
    rw [List.flatten_cons, find, List.findSome?_isSome_iff]
    refine ⟨part.length, Piece.mem_tries_of_accepts hpart, ?_⟩
    rw [Option.isSome_map, List.drop_left]
    exact ih

theorem find_isSome_iff {pieces : List (Piece α)} {s : List α} :
    (find pieces s).isSome = true ↔
      ∃ parts, parts.flatten = s ∧ List.Forall₂ Piece.Accepts pieces parts := by
  constructor
  · intro h
    obtain ⟨parts, hparts⟩ := Option.isSome_iff_exists.mp h
    exact ⟨parts, find_sound hparts⟩
  · rintro ⟨parts, rfl, hall⟩
    exact find_complete hall

/-! ## The first choice -/

section Greedy

variable {pieces : List (Piece α)} {s : List α} {parts : List (List α)} {p : α → Bool}

/-- A word wins when the rest of the text does not match behind any earlier word. -/
theorem find_words (ws : List (List α)) (w : List α) (ws' : List (List α))
    (hno : ∀ v ∈ ws, v <+: w ++ s → find pieces ((w ++ s).drop v.length) = none)
    (h : find pieces s = some parts) :
    find (.words (ws ++ w :: ws') :: pieces) (w ++ s) = some (w :: parts) := by
  have hearlier : ((ws.filter (·.isPrefixOf (w ++ s))).map List.length).findSome?
      (fun n => (find pieces ((w ++ s).drop n)).map ((w ++ s).take n :: ·)) = none := by
    rw [List.findSome?_eq_none_iff]
    intro n hn
    obtain ⟨v, hv, rfl⟩ := List.mem_map.mp hn
    obtain ⟨hmem, hpre⟩ := List.mem_filter.mp hv
    rw [hno v hmem (List.isPrefixOf_iff_prefix.mp hpre), Option.map_none]
  have hself : w.isPrefixOf (w ++ s) = true := by simp
  rw [find, Piece.tries, List.filter_append, List.map_append, List.findSome?_append, hearlier,
    Option.none_or, List.filter_cons_of_pos (p := fun v : List α => v.isPrefixOf (w ++ s)) hself,
    List.map_cons, List.findSome?_cons, List.drop_left, List.take_left, h]
  rfl

theorem find_optional_some {a : α} (ha : p a = true) (h : find pieces s = some parts) :
    find (.optional p :: pieces) (a :: s) = some ([a] :: parts) := by
  simp [find, Piece.tries, ha, h]

theorem find_optional_none (hs : s.head?.any p = false) (h : find pieces s = some parts) :
    find (.optional p :: pieces) s = some ([] :: parts) := by
  simp [find, Piece.tries, hs, h]

/-- A greedy run takes all it can when the rest matches then. -/
theorem find_many {min : Nat} (run : List α) (hmin : min ≤ run.length)
    (hrun : ∀ a ∈ run, p a = true) (hs : s.head?.any p = false)
    (h : find pieces s = some parts) :
    find (.many min p :: pieces) (run ++ s) = some (run :: parts) := by
  have htake : (run ++ s).takeWhile p = run := by
    rw [List.takeWhile_append_of_pos hrun]
    cases s with
    | nil => simp
    | cons a s =>
      simp only [List.head?_cons, Option.any_some] at hs
      simp [hs]
  have hlen : run.length + 1 - min = run.length - min + 1 := by omega
  have hlast : min + (run.length - min) = run.length := by omega
  rw [find, Piece.tries, htake, hlen, List.range'_1_concat, hlast, List.reverse_append,
    List.reverse_singleton, List.singleton_append, List.findSome?_cons, List.take_left,
    List.drop_left, h]
  rfl

end Greedy

end patterns
