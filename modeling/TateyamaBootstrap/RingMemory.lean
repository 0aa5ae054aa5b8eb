-- A memory of `cap` cells that is used as a ring: position `i` of an endless
-- stream stands in cell `i % cap`. A slice reads a run of positions, and a
-- write keeps every slice that the written positions do not lap.
import Mathlib.Data.List.Basic
import Mathlib.Data.Nat.ModEq

namespace ring_memory

variable {β : Type}

/-- Two positions less than one lap apart stand in different cells. -/
theorem mod_ne_mod {cap i j : Nat} (hij : i < j) (hj : j < i + cap) : i % cap ≠ j % cap := by
  intro h
  have hd : cap ∣ j - i := (Nat.modEq_iff_dvd' (Nat.le_of_lt hij)).mp h
  have hle := Nat.le_of_dvd (by omega) hd
  omega

/-! ## Slices -/

/-- The `len` cells of the positions from `lo` on. -/
def slice (mem : Nat → β) (cap lo len : Nat) : List β :=
  (List.range len).map fun i => mem ((lo + i) % cap)

@[simp] theorem length_slice (mem : Nat → β) (cap lo len : Nat) :
    (slice mem cap lo len).length = len := by simp [slice]

@[simp] theorem slice_zero (mem : Nat → β) (cap lo : Nat) : slice mem cap lo 0 = [] := rfl

theorem slice_add (mem : Nat → β) (cap lo m n : Nat) :
    slice mem cap lo (m + n) = slice mem cap lo m ++ slice mem cap (lo + m) n := by
  simp only [slice, List.range_add, List.map_append, List.map_map]
  congr 1
  apply List.map_congr_left
  intro i _
  simp [Nat.add_assoc]

theorem slice_cons (mem : Nat → β) (cap lo len : Nat) :
    slice mem cap lo (len + 1) = mem (lo % cap) :: slice mem cap (lo + 1) len := by
  rw [Nat.add_comm len 1, slice_add]
  rfl

theorem slice_congr {mem mem' : Nat → β} {cap lo len : Nat}
    (h : ∀ i < len, mem ((lo + i) % cap) = mem' ((lo + i) % cap)) :
    slice mem cap lo len = slice mem' cap lo len := by
  apply List.map_congr_left
  intro i hi
  exact h i (List.mem_range.mp hi)

theorem slice_getElem? (mem : Nat → β) (cap lo len i : Nat) (h : i < len) :
    (slice mem cap lo len)[i]? = some (mem ((lo + i) % cap)) := by
  simp [slice, h]

/-! ## Writes -/

/-- `mem'` is `mem` with `src` written over the positions from `pos` on. -/
structure Written (mem mem' : Nat → β) (cap pos : Nat) (src : List β) : Prop where
  here : slice mem' cap pos src.length = src
  elsewhere : ∀ a, (∀ i < src.length, (pos + i) % cap ≠ a) → mem' a = mem a

/-- A write of one cell. -/
theorem Written.update (mem : Nat → β) (cap pos : Nat) (v : β) :
    Written mem (Function.update mem (pos % cap) v) cap pos [v] := by
  refine ⟨by simp [slice], ?_⟩
  intro a ha
  have hne : a ≠ pos % cap := fun h => ha 0 (by simp) (by simp [h])
  simp [hne]

/-- The positions before the write, back to one lap before its end, keep
their cells. -/
theorem Written.slice_before {mem mem' : Nat → β} {cap pos lo len : Nat} {src : List β}
    (h : Written mem mem' cap pos src) (hlo : lo + len ≤ pos)
    (hlap : pos + src.length ≤ lo + cap) :
    slice mem' cap lo len = slice mem cap lo len := by
  apply slice_congr
  intro i hi
  apply h.elsewhere
  intro j hj he
  exact mod_ne_mod (by omega) (by omega) he.symm

/-- The positions after the write, up to one lap after its start, keep their
cells. -/
theorem Written.slice_after {mem mem' : Nat → β} {cap pos lo len : Nat} {src : List β}
    (h : Written mem mem' cap pos src) (hlo : pos + src.length ≤ lo)
    (hlap : lo + len ≤ pos + cap) :
    slice mem' cap lo len = slice mem cap lo len := by
  apply slice_congr
  intro i hi
  apply h.elsewhere
  intro j hj he
  exact mod_ne_mod (by omega) (by omega) he

/-- A write at the end of a slice makes the slice longer by what was written. -/
theorem Written.slice_append {mem mem' : Nat → β} {cap lo len : Nat} {src : List β}
    (h : Written mem mem' cap (lo + len) src) (hlap : len + src.length ≤ cap) :
    slice mem' cap lo (len + src.length) = slice mem cap lo len ++ src := by
  rw [slice_add, h.here, h.slice_before (Nat.le_refl _) (by omega)]

/-- A write after a write, at its end, is one write. -/
theorem Written.trans {m0 m1 m2 : Nat → β} {cap pos : Nat} {src src' : List β}
    (h1 : Written m0 m1 cap pos src) (h2 : Written m1 m2 cap (pos + src.length) src')
    (hlap : src.length + src'.length ≤ cap) : Written m0 m2 cap pos (src ++ src') := by
  refine ⟨?_, ?_⟩
  · rw [List.length_append, slice_add, h2.here, h2.slice_before (Nat.le_refl _) (by omega), h1.here]
  · intro a ha
    simp only [List.length_append] at ha
    rw [h2.elsewhere a, h1.elsewhere a]
    · intro i hi
      exact ha i (by omega)
    · intro i hi
      have := ha (src.length + i) (by omega)
      rwa [← Nat.add_assoc] at this

/-! ## Copies of consecutive cells -/

/-- `memcpy` from a list into the memory. -/
def memcpy (mem : Nat → β) (top : Nat) (src : List β) : Nat → β := fun a =>
  if a < top then mem a else (src[a - top]?).getD (mem a)

/-- `memcpy` of `len` cells out of the memory. -/
def memread (mem : Nat → β) (top len : Nat) : List β :=
  (List.range len).map fun i => mem (top + i)

/-- Positions that do not cross the end of the ring stand side by side. -/
theorem add_mod_of_fits {cap pos i : Nat} (h : pos % cap + i < cap) :
    (pos + i) % cap = pos % cap + i := by
  rw [← Nat.mod_add_mod, Nat.mod_eq_of_lt h]

theorem slice_eq_memread (mem : Nat → β) {cap pos len : Nat} (h : pos % cap + len ≤ cap) :
    slice mem cap pos len = memread mem (pos % cap) len := by
  apply List.map_congr_left
  intro i hi
  have hi' := List.mem_range.mp hi
  rw [add_mod_of_fits (by omega)]

theorem written_memcpy (mem : Nat → β) (cap pos : Nat) (src : List β)
    (h : pos % cap + src.length ≤ cap) : Written mem (memcpy mem (pos % cap) src) cap pos src := by
  refine ⟨?_, ?_⟩
  · rw [slice_eq_memread _ h]
    apply List.ext_getElem (by simp [memread])
    intro i hi hi'
    simp [memread, memcpy, hi']
  · intro a ha
    unfold memcpy
    split
    · rfl
    · rename_i hle
      rcases Nat.lt_or_ge (a - pos % cap) src.length with hlt | hge
      · refine absurd ?_ (ha (a - pos % cap) hlt)
        rw [add_mod_of_fits (by omega)]
        omega
      · rw [List.getElem?_eq_none hge]
        rfl

/-- The cells from `pos` up to the end of the ring are followed by cell 0. -/
theorem wrap_mod {cap pos : Nat} (hcap : 0 < cap) : (pos + (cap - pos % cap)) % cap = 0 := by
  have hlt := Nat.mod_lt pos hcap
  rw [← Nat.mod_add_mod, Nat.add_sub_cancel' (Nat.le_of_lt hlt), Nat.mod_self]

/-- A copy that crosses the end of the ring is done in two parts. -/
theorem written_memcpy_wrap (mem : Nat → β) (cap pos : Nat) (src : List β) (hcap : 0 < cap)
    (hlen : src.length ≤ cap) (h : cap < pos % cap + src.length) :
    Written mem (memcpy (memcpy mem (pos % cap) (src.take (cap - pos % cap))) 0
      (src.drop (cap - pos % cap))) cap pos src := by
  have hlt := Nat.mod_lt pos hcap
  have hl1 : (src.take (cap - pos % cap)).length = cap - pos % cap := by
    rw [List.length_take]
    omega
  have h1 := written_memcpy mem cap pos (src.take (cap - pos % cap)) (by omega)
  have h2 := written_memcpy (memcpy mem (pos % cap) (src.take (cap - pos % cap))) cap
    (pos + (cap - pos % cap)) (src.drop (cap - pos % cap))
    (by rw [wrap_mod hcap, List.length_drop]; omega)
  rw [wrap_mod hcap] at h2
  have ht := h1.trans (by rw [hl1]; exact h2) (by rw [hl1, List.length_drop]; omega)
  rwa [List.take_append_drop] at ht

theorem slice_eq_memread_wrap (mem : Nat → β) {cap pos len : Nat} (hcap : 0 < cap)
    (hlen : len ≤ cap) (h : cap < pos % cap + len) :
    slice mem cap pos len =
      memread mem (pos % cap) (cap - pos % cap) ++ memread mem 0 (len - (cap - pos % cap)) := by
  have hlt := Nat.mod_lt pos hcap
  have hsum : len = (cap - pos % cap) + (len - (cap - pos % cap)) := by omega
  rw [hsum, slice_add, ← hsum, slice_eq_memread _ (by omega), slice_eq_memread _, wrap_mod hcap]
  rw [wrap_mod hcap]
  omega

end ring_memory
