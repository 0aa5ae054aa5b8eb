-- Maps and sets that keep their keys in order, as lists: the entry of a key is made in
-- its place when the key is not there yet.
import Mathlib.Init

namespace ordered_maps

variable {α β : Type} [LT α] [DecidableLT α]

/-! ## Sets -/

def emplace (a : α) : List α → List α
  | [] => [a]
  | b :: s => if a < b then a :: b :: s else if b < a then b :: emplace a s else b :: s

/-- The elements of `as` one after the other. -/
def emplaceAll (as : List α) (s : List α) : List α := as.foldl (fun s a => emplace a s) s

/-! ## Maps -/

/-- What `f` makes of the value of `k`, which is `d` when `k` is new. -/
def upsert (k : α) (d : β) (f : β → β) : List (α × β) → List (α × β)
  | [] => [(k, f d)]
  | (j, b) :: m =>
    if k < j then (k, f d) :: (j, b) :: m
    else if j < k then (j, b) :: upsert k d f m
    else (j, f b) :: m

def Ordered (m : List (α × β)) : Prop := m.Pairwise fun x y => x.1 < y.1

theorem forall_upsert {k : α} {d : β} {f : β → β} {m : List (α × β)} {Q : β → Prop}
    (hd : Q (f d)) (hf : ∀ b, Q b → Q (f b)) (h : ∀ x ∈ m, Q x.2) :
    ∀ x ∈ upsert k d f m, Q x.2 := by
  induction m with
  | nil => simpa [upsert] using hd
  | cons y m ih =>
    obtain ⟨i, b⟩ := y
    obtain ⟨hb, hm⟩ := List.forall_mem_cons.mp h
    rw [upsert]
    split
    · exact List.forall_mem_cons.mpr ⟨hd, h⟩
    · split
      · exact List.forall_mem_cons.mpr ⟨hb, ih hm⟩
      · exact List.forall_mem_cons.mpr ⟨hf b hb, hm⟩

section

variable [LE α] [Std.IsLinearOrder α] [Std.LawfulOrderLT α]

omit [DecidableLT α] in
theorem eq_of_not_lt {a b : α} (h : ¬ a < b) (h' : ¬ b < a) : a = b :=
  Std.le_antisymm (Std.not_lt.mp h') (Std.not_lt.mp h)

theorem mem_emplace {a b : α} {s : List α} : b ∈ emplace a s ↔ b = a ∨ b ∈ s := by
  induction s with
  | nil => simp [emplace]
  | cons c s ih =>
    rw [emplace]
    split
    · simp
    · rename_i hlt
      split
      · simp only [List.mem_cons, ih]
        exact or_left_comm
      · rename_i hgt
        obtain rfl := eq_of_not_lt hlt hgt
        simp

theorem emplace_pairwise {a : α} {s : List α} (h : s.Pairwise (· < ·)) :
    (emplace a s).Pairwise (· < ·) := by
  induction s with
  | nil => simp [emplace]
  | cons c s ih =>
    obtain ⟨hc, hs⟩ := List.pairwise_cons.mp h
    rw [emplace]
    split
    · rename_i hlt
      refine List.pairwise_cons.mpr ⟨?_, h⟩
      intro b hb
      rcases List.mem_cons.mp hb with rfl | hb
      · exact hlt
      · exact Std.lt_trans hlt (hc b hb)
    · split
      · rename_i hgt
        refine List.pairwise_cons.mpr ⟨?_, ih hs⟩
        intro b hb
        rcases mem_emplace.mp hb with rfl | hb
        · exact hgt
        · exact hc b hb
      · exact h

theorem mem_emplaceAll {as s : List α} {b : α} : b ∈ emplaceAll as s ↔ b ∈ as ∨ b ∈ s := by
  induction as generalizing s with
  | nil => simp [emplaceAll]
  | cons a as ih =>
    change b ∈ emplaceAll as (emplace a s) ↔ _
    rw [ih, mem_emplace, List.mem_cons, or_left_comm, or_assoc]

theorem emplaceAll_pairwise {as s : List α} (h : s.Pairwise (· < ·)) :
    (emplaceAll as s).Pairwise (· < ·) := by
  induction as generalizing s with
  | nil => exact h
  | cons a as ih => exact ih (emplace_pairwise h)

theorem mem_keys_upsert {k j : α} {d : β} {f : β → β} {m : List (α × β)} :
    j ∈ (upsert k d f m).map (·.1) ↔ j = k ∨ j ∈ m.map (·.1) := by
  induction m with
  | nil => simp [upsert]
  | cons x m ih =>
    obtain ⟨i, b⟩ := x
    rw [upsert]
    split
    · simp
    · rename_i hlt
      split
      · simp only [List.map_cons, List.mem_cons, ih]
        exact or_left_comm
      · rename_i hgt
        obtain rfl := eq_of_not_lt hlt hgt
        simp

theorem upsert_ordered {k : α} {d : β} {f : β → β} {m : List (α × β)} (h : Ordered m) :
    Ordered (upsert k d f m) := by
  induction m with
  | nil => simp [upsert, Ordered]
  | cons x m ih =>
    obtain ⟨i, b⟩ := x
    obtain ⟨hi, hm⟩ := List.pairwise_cons.mp h
    rw [upsert]
    split
    · rename_i hlt
      refine List.pairwise_cons.mpr ⟨?_, h⟩
      intro y hy
      rcases List.mem_cons.mp hy with rfl | hy
      · exact hlt
      · exact Std.lt_trans hlt (hi y hy)
    · split
      · rename_i hgt
        refine List.pairwise_cons.mpr ⟨?_, ih hm⟩
        intro y hy
        rcases mem_keys_upsert.mp (List.mem_map_of_mem hy) with hk | hk
        · rw [hk]
          exact hgt
        · obtain ⟨z, hz, hzy⟩ := List.mem_map.mp hk
          rw [← hzy]
          exact hi z hz
      · exact List.pairwise_cons.mpr ⟨hi, hm⟩

/-- What holds of the value of a key, when `f` adds `A` to it. -/
theorem exists_upsert {k j : α} {d : β} {f : β → β} {m : List (α × β)} {P : β → Prop} {A : Prop}
    (hd : ¬ P d) (hf : ∀ b, P (f b) ↔ A ∨ P b) :
    (∃ b, (j, b) ∈ upsert k d f m ∧ P b) ↔ j = k ∧ A ∨ ∃ b, (j, b) ∈ m ∧ P b := by
  induction m with
  | nil => simp [upsert, and_assoc, hf, hd]
  | cons x m ih =>
    obtain ⟨i, b⟩ := x
    rw [upsert]
    split
    · simp only [List.mem_cons, Prod.mk.injEq, or_and_right, exists_or, and_assoc,
        exists_and_left, exists_eq_left, hf, hd, or_false]
    · rename_i hlt
      split
      · simp only [List.mem_cons, or_and_right, exists_or, ih]
        exact or_left_comm
      · rename_i hgt
        obtain rfl := eq_of_not_lt hlt hgt
        simp only [List.mem_cons, Prod.mk.injEq, or_and_right, exists_or, and_assoc,
          exists_and_left, exists_eq_left, hf, and_or_left]
        exact or_assoc

end

end ordered_maps
