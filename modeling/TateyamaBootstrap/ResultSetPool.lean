-- The pool of result-set wires over any order of `acquire` and `release`: each
-- buffer has one place, no search ends in `std::abort()`, and the destructor
-- gives back everything that is allocated.
import TateyamaBootstrap.ResultSetWires

open runs

namespace tateyama_bootstrap.resultset_wires

/-! ## The invariant -/

/-- The wires of `held` are those that the server holds: they are the ones with
a buffer, each with its own. -/
structure Held (w : Wires) (held : List Nat) : Prop where
  nodup : held.Nodup
  count_using : w.count_using = held.length
  below : ∀ i ∈ held, i < w.next_index
  next_le : w.next_index ≤ w.count
  handle_ne : ∀ i ∈ held, (w.wires i).buffer_handle ≠ 0
  free : ∀ i, i ∉ held → (w.wires i).buffer_handle = 0
  distinct : ∀ i ∈ held, ∀ j ∈ held,
    (w.wires i).buffer_handle = (w.wires j).buffer_handle → i = j

/-- Each buffer that is allocated is the reserved one or the buffer of one held
wire. -/
structure PoolOk (w : Wires) (held : List Nat) : Prop extends Held w held where
  reserved_ne : ∀ b, w.reserved = some b →
    b ≠ 0 ∧ ∀ i ∈ held, (w.wires i).buffer_handle ≠ b
  live_nodup : w.live.Nodup
  live_iff : ∀ b, b ∈ w.live ↔
    w.reserved = some b ∨ ∃ i ∈ held, (w.wires i).buffer_handle = b
  reserved_some : w.count_using = 0 → w.reserved.isSome

/-- What the shared memory promises: a buffer that it hands out has a handle of
its own, which is not 0. -/
def Fresh (w : Wires) (fresh : Option Nat) : Prop := ∀ b, fresh = some b → b ≠ 0 ∧ b ∉ w.live

instance (w : Wires) (fresh : Option Nat) : Decidable (Fresh w fresh) :=
  match fresh with
  | none => .isTrue (by simp [Fresh])
  | some b => decidable_of_iff (b ≠ 0 ∧ b ∉ w.live) (by simp [Fresh])

theorem poolOk_construct {count buffer_size buffer : Nat} {memory : Nat → Nat → UInt8}
    (hb : buffer ≠ 0) : PoolOk (Wires.construct count buffer_size buffer memory) [] := by
  refine ⟨?_, ?_, ?_, ?_, ?_⟩
  · constructor <;> simp [Wires.construct, Wire.fresh]
  all_goals simp [Wires.construct, hb, eq_comm]

section Search

variable {w : Wires} {held : List Nat}

/-- A search finds a wire when there is one. -/
theorem search_found {handle : Nat} {xs : List Nat} (hc : ∀ i ∈ xs, i < w.count)
    (h : ∃ i ∈ xs, (w.wires i).buffer_handle = handle) :
    ∃ i ∈ xs, w.search handle xs = .ok i ∧ (w.wires i).buffer_handle = handle := by
  induction xs with
  | nil => simp at h
  | cons x xs ih =>
    have hx : x < w.count := hc x (by simp)
    by_cases heq : (w.wires x).buffer_handle = handle
    · refine ⟨x, by simp, ?_, heq⟩
      simp [Wires.search, Wires.wire_at, hx, Wire.equal, heq, Bind.bind, Except.bind, Pure.pure,
        Except.pure]
    · obtain ⟨i, hi, hh⟩ := h
      have hi' : i ∈ xs := by
        rcases List.mem_cons.mp hi with rfl | hi
        · exact absurd hh heq
        · exact hi
      obtain ⟨j, hj, hs, hjh⟩ := ih (fun i hi => hc i (by simp [hi])) ⟨i, hi', hh⟩
      refine ⟨j, by simp [hj], ?_, hjh⟩
      have hne : ¬ handle = (w.wires x).buffer_handle := fun h => heq h.symm
      simpa [Wires.search, Wires.wire_at, hx, Wire.equal, hne, Bind.bind, Except.bind] using hs

/-- Fewer wires are held than the pool has used, so one of those is free. -/
theorem Held.exists_free (h : Held w held) (hlt : w.count_using < w.next_index) :
    ∃ i ∈ List.range w.next_index, (w.wires i).buffer_handle = 0 := by
  by_contra hno
  have hsub : List.range w.next_index ⊆ held := by
    intro i hi
    by_contra hni
    exact hno ⟨i, hi, h.free i hni⟩
  have hle := List.Nodup.length_le_of_subset List.nodup_range hsub
  rw [List.length_range, ← h.count_using] at hle
  omega

theorem Held.search_free_wire (h : Held w held) (hlt : held.length < w.count) :
    ∃ i next, w.search_free_wire =
        .ok (i, { w with count_using := w.count_using + 1, next_index := next }) ∧
      i ∉ held ∧ i < next ∧ w.next_index ≤ next ∧ next ≤ w.count := by
  have hle := h.next_le
  have hcu := h.count_using
  unfold Wires.search_free_wire
  split
  · rename_i heq
    refine ⟨w.next_index, w.next_index + 1, rfl, ?_, by omega, by omega, by omega⟩
    intro hm
    exact Nat.lt_irrefl _ (h.below _ hm)
  · rename_i hne
    have hcount : w.count_using ≤ w.next_index := by
      have hsub : held ⊆ List.range w.next_index := fun i hi => List.mem_range.mpr (h.below i hi)
      have := List.Nodup.length_le_of_subset h.nodup hsub
      rw [List.length_range] at this
      omega
    have hc : ∀ i ∈ List.range w.next_index, i < w.count := by
      intro i hi
      have := List.mem_range.mp hi
      omega
    obtain ⟨i, hi, hs, hh⟩ := search_found hc (h.exists_free (by omega))
    refine ⟨i, w.next_index, ?_, ?_, List.mem_range.mp hi, Nat.le_refl _, hle⟩
    · rw [hs]
      rfl
    · intro hm
      exact h.handle_ne i hm hh

/-- The search by handle finds the wire itself. -/
theorem Held.search_wire (h : Held w held) {i : Nat} (hi : i ∈ held) :
    w.search_wire i = .ok i := by
  have hle := h.next_le
  have hc : ∀ j ∈ List.range w.next_index, j < w.count := by
    intro j hj
    have := List.mem_range.mp hj
    omega
  obtain ⟨j, -, hs, hh⟩ := search_found hc
    ⟨i, List.mem_range.mpr (h.below i hi), (rfl : _ = (w.wires i).buffer_handle)⟩
  have hj : j ∈ held := by
    by_contra hn
    rw [h.free j hn] at hh
    exact h.handle_ne i hi hh.symm
  rw [h.distinct j hj i hi hh] at hs
  exact hs

end Search

/-! ## `acquire` -/

section Acquire

variable {w w' : Wires} {held : List Nat} {i b : Nat}

/-- What `acquire` leaves alone, and the wire that it attaches buffer `b` to. -/
structure Attached (w w' : Wires) (i b : Nat) : Prop where
  wires : w'.wires = Function.update w.wires i ((w.wires i).attach_buffer b w.buffer_size)
  count : w'.count = w.count
  buffer_size : w'.buffer_size = w.buffer_size
  eor : w'.eor = w.eor
  memory : w'.memory = w.memory

theorem Attached.handle (ha : Attached w w' i b) : (w'.wires i).buffer_handle = b := by
  rw [ha.wires, Function.update_self]
  rfl

theorem Attached.other (ha : Attached w w' i b) {j : Nat} (hj : j ≠ i) :
    w'.wires j = w.wires j := by
  rw [ha.wires, Function.update_of_ne hj]

/-- A free wire with a buffer that nobody has joins the held ones. -/
theorem PoolOk.add (h : PoolOk w held) (ha : Attached w w' i b) (hi : i ∉ held) (hb : b ≠ 0)
    (hbh : ∀ j ∈ held, (w.wires j).buffer_handle ≠ b) (hcu : w'.count_using = held.length + 1)
    (hbelow : ∀ j ∈ i :: held, j < w'.next_index) (hle : w'.next_index ≤ w'.count)
    (hres : w'.reserved = none) (hnd : w'.live.Nodup)
    (hl : ∀ x, x ∈ w'.live ↔ x = b ∨ ∃ j ∈ held, (w.wires j).buffer_handle = x) :
    PoolOk w' (i :: held) := by
  have hother : ∀ j ∈ held, w'.wires j = w.wires j := fun j hj =>
    ha.other (by rintro rfl; exact hi hj)
  refine ⟨⟨List.nodup_cons.mpr ⟨hi, h.nodup⟩, hcu, hbelow, hle, ?_, ?_, ?_⟩, ?_, hnd, ?_, ?_⟩
  · intro j hj
    rcases List.mem_cons.mp hj with rfl | hj
    · rw [ha.handle]
      exact hb
    · rw [hother j hj]
      exact h.handle_ne j hj
  · intro j hj
    rw [List.mem_cons, not_or] at hj
    rw [ha.other hj.1]
    exact h.free j hj.2
  · intro j hj k hk he
    rcases List.mem_cons.mp hj with hji | hj <;> rcases List.mem_cons.mp hk with hki | hk
    · rw [hji, hki]
    · rw [hji, ha.handle, hother k hk] at he
      exact absurd he.symm (hbh k hk)
    · rw [hki, ha.handle, hother j hj] at he
      exact absurd he (hbh j hj)
    · rw [hother j hj, hother k hk] at he
      exact h.distinct j hj k hk he
  · intro x hx
    rw [hres] at hx
    cases hx
  · intro x
    rw [hl, hres]
    simp only [reduceCtorEq, false_or, List.mem_cons, exists_eq_or_imp, ha.handle]
    constructor
    · rintro (rfl | ⟨j, hj, he⟩)
      · exact .inl rfl
      · exact .inr ⟨j, hj, by rw [hother j hj]; exact he⟩
    · rintro (he | ⟨j, hj, he⟩)
      · exact .inl he.symm
      · exact .inr ⟨j, hj, by rw [← hother j hj]; exact he⟩
  · intro h0
    omega

/-- The buffer for one more wire is one that no wire has. -/
theorem PoolOk.take_buffer (h : PoolOk w held) {fresh : Option Nat} (hf : Fresh w fresh) :
    ((w.reserved = none ∧ fresh = none) ∧ w.take_buffer fresh =
      .error (.throws (.runtime_error .internal "cannot allocate shared memory"))) ∨
    ∃ b live, w.take_buffer fresh = .ok (b, { w with reserved := none, live := live }) ∧ b ≠ 0 ∧
      (∀ j ∈ held, (w.wires j).buffer_handle ≠ b) ∧ live.Nodup ∧
      ∀ x, x ∈ live ↔ x = b ∨ ∃ j ∈ held, (w.wires j).buffer_handle = x := by
  unfold Wires.take_buffer
  cases hr : w.reserved with
  | some b =>
    obtain ⟨hb, hbh⟩ := h.reserved_ne b hr
    refine .inr ⟨b, w.live, rfl, hb, hbh, h.live_nodup, ?_⟩
    intro x
    rw [h.live_iff, hr, Option.some.injEq, eq_comm]
  | none =>
    cases hfr : fresh with
    | none => exact .inl ⟨⟨rfl, rfl⟩, rfl⟩
    | some b =>
      obtain ⟨hb, hnew⟩ := hf b hfr
      have hbh : ∀ j ∈ held, (w.wires j).buffer_handle ≠ b := by
        intro j hj he
        exact hnew ((h.live_iff b).mpr (.inr ⟨j, hj, he⟩))
      refine .inr ⟨b, b :: w.live, ?_, hb, hbh, List.nodup_cons.mpr ⟨hnew, h.live_nodup⟩, ?_⟩
      · simp [← hr]
      · intro x
        rw [List.mem_cons, h.live_iff, hr]
        simp

/-- A call of `acquire` gives the server a wire that it did not hold, unless it needs a buffer
and the shared memory is used up, which leaves the pool as it was. -/
theorem PoolOk.acquire (h : PoolOk w held) (hlt : held.length < w.count) {fresh : Option Nat}
    (hf : Fresh w fresh) :
    ((w.count_using ≠ 0 ∧ w.reserved = none ∧ fresh = none) ∧ w.acquire fresh =
      .error (.throws (.runtime_error .internal "cannot allocate shared memory"))) ∨
    ∃ i b w', w.acquire fresh = .ok (i, w') ∧ i ∉ held ∧ Attached w w' i b ∧
      PoolOk w' (i :: held) := by
  have hcu := h.count_using
  unfold Wires.acquire
  split
  · rename_i h0
    have hnil : held = [] := List.length_eq_zero_iff.mp (by omega)
    obtain ⟨b, hr⟩ := Option.isSome_iff_exists.mp (h.reserved_some h0)
    obtain ⟨hb, -⟩ := h.reserved_ne b hr
    have hc : 0 < w.count := by omega
    simp only [Wires.attach, Wires.wire_at, hc, if_true, hr, Bind.bind, Except.bind, Pure.pure,
      Except.pure, Wires.put]
    have ha : Attached w { w with
        count_using := 1, next_index := 1, reserved := none, only_one_buffer := true,
        wires := Function.update w.wires 0 ((w.wires 0).attach_buffer b w.buffer_size) } 0 b :=
      ⟨rfl, rfl, rfl, rfl, rfl⟩
    refine .inr ⟨0, b, _, rfl, by simp [hnil], ha, ?_⟩
    refine h.add ha (by simp [hnil]) hb (by simp [hnil]) (by simp [hnil]) (by simp [hnil]) hc rfl
      h.live_nodup ?_
    intro x
    rw [h.live_iff, hr, hnil]
    simp [eq_comm]
  · rename_i h0
    rcases h.take_buffer hf with ⟨hnone, he⟩ | ⟨b, live, he, hb, hbh, hnd, hl⟩
    · exact .inl ⟨⟨h0, hnone⟩, by rw [he]; rfl⟩
    · have hheld : Held { w with reserved := none, live := live } held :=
        ⟨h.nodup, hcu, h.below, h.next_le, h.handle_ne, h.free, h.distinct⟩
      obtain ⟨i, next, hs, hi, hin, hnn, hnc⟩ := hheld.search_free_wire hlt
      dsimp only at hs hnn hnc
      have hic : i < w.count := by omega
      rw [he]
      simp only [Bind.bind, Except.bind, hs, Wires.attach, Wires.wire_at, hic, if_true, Pure.pure,
        Except.pure, Wires.put]
      have ha : Attached w { w with
          reserved := none, live := live, count_using := w.count_using + 1, next_index := next,
          only_one_buffer := false,
          wires := Function.update w.wires i ((w.wires i).attach_buffer b w.buffer_size) } i b :=
        ⟨rfl, rfl, rfl, rfl, rfl⟩
      refine .inr ⟨i, b, _, rfl, hi, ha, h.add ha hi hb hbh (by simp [hcu]) ?_ hnc rfl hnd hl⟩
      intro j hj
      rcases List.mem_cons.mp hj with rfl | hj
      · exact hin
      · exact Nat.lt_of_lt_of_le (h.below j hj) hnn

end Acquire

/-! ## `release` -/

section Release

variable {w w' : Wires} {held : List Nat} {i : Nat}

/-- What `release` leaves alone, and the wire whose handle it resets. -/
structure Detached (w w' : Wires) (i : Nat) : Prop where
  wires : w'.wires = Function.update w.wires i (w.wires i).reset_handle
  count : w'.count = w.count
  buffer_size : w'.buffer_size = w.buffer_size
  eor : w'.eor = w.eor
  memory : w'.memory = w.memory

theorem Detached.handle (hd : Detached w w' i) : (w'.wires i).buffer_handle = 0 := by
  rw [hd.wires, Function.update_self]
  rfl

theorem Detached.other (hd : Detached w w' i) {j : Nat} (hj : j ≠ i) :
    w'.wires j = w.wires j := by
  rw [hd.wires, Function.update_of_ne hj]

/-- A held wire goes back, and its buffer is reserved or freed. -/
theorem PoolOk.remove (h : PoolOk w held) (hd : Detached w w' i) (hi : i ∈ held)
    (hcu : w'.count_using = held.length - 1) (hnext : w'.next_index = w.next_index)
    (hres : ∀ b, w'.reserved = some b → b ≠ 0 ∧ ∀ j ∈ held, j ≠ i → (w.wires j).buffer_handle ≠ b)
    (hsome : w'.reserved.isSome) (hnd : w'.live.Nodup)
    (hl : ∀ b, b ∈ w'.live ↔
      w'.reserved = some b ∨ ∃ j ∈ held, j ≠ i ∧ (w.wires j).buffer_handle = b) :
    PoolOk w' (held.erase i) := by
  have hmem : ∀ j, j ∈ held.erase i ↔ j ≠ i ∧ j ∈ held := fun j => h.nodup.mem_erase_iff
  refine ⟨⟨h.nodup.erase i, ?_, ?_, ?_, ?_, ?_, ?_⟩, ?_, hnd, ?_, fun _ => hsome⟩
  · rw [hcu, List.length_erase_of_mem hi]
  · intro j hj
    rw [hnext]
    exact h.below j ((hmem j).mp hj).2
  · rw [hnext, hd.count]
    exact h.next_le
  · intro j hj
    obtain ⟨hne, hj⟩ := (hmem j).mp hj
    rw [hd.other hne]
    exact h.handle_ne j hj
  · intro j hj
    by_cases hji : j = i
    · rw [hji, hd.handle]
    · rw [hd.other hji]
      exact h.free j fun hh => hj ((hmem j).mpr ⟨hji, hh⟩)
  · intro j hj k hk he
    obtain ⟨hjne, hj⟩ := (hmem j).mp hj
    obtain ⟨hkne, hk⟩ := (hmem k).mp hk
    rw [hd.other hjne, hd.other hkne] at he
    exact h.distinct j hj k hk he
  · intro b hb
    obtain ⟨hb0, hbj⟩ := hres b hb
    refine ⟨hb0, ?_⟩
    intro j hj
    obtain ⟨hne, hj⟩ := (hmem j).mp hj
    rw [hd.other hne]
    exact hbj j hj hne
  · intro b
    rw [hl b]
    constructor
    · rintro (hb | ⟨j, hj, hne, hh⟩)
      · exact .inl hb
      · exact .inr ⟨j, (hmem j).mpr ⟨hne, hj⟩, by rw [hd.other hne]; exact hh⟩
    · rintro (hb | ⟨j, hj, hh⟩)
      · exact .inl hb
      · obtain ⟨hne, hj⟩ := (hmem j).mp hj
        rw [hd.other hne] at hh
        exact .inr ⟨j, hj, hne, hh⟩

/-- Another held wire has another buffer. -/
theorem Held.other_handle (h : Held w held) (hi : i ∈ held) {j : Nat} (hj : j ∈ held)
    (hne : j ≠ i) : (w.wires j).buffer_handle ≠ (w.wires i).buffer_handle :=
  fun he => hne (h.distinct j hj i hi he)

theorem PoolOk.release (h : PoolOk w held) (hi : i ∈ held) :
    ∃ w', w.release i = .ok w' ∧ Detached w w' i ∧ PoolOk w' (held.erase i) := by
  have hic : i < w.count := Nat.lt_of_lt_of_le (h.below i hi) h.next_le
  have hne := h.handle_ne i hi
  have hbuf : (w.wires i).get_bip_address = some (w.wires i).buffer_handle := by
    simp [Wire.get_bip_address, hne]
  have hlive : (w.wires i).buffer_handle ∈ w.live := (h.live_iff _).mpr (.inr ⟨i, hi, rfl⟩)
  unfold Wires.release
  rw [h.search_wire hi, hbuf]
  cases hr : w.reserved with
  | none =>
    simp only [Bind.bind, Except.bind, Wires.wire_at, hic, if_true, Wires.put, hr, Pure.pure,
      Except.pure]
    have hd : Detached w { w with
        wires := Function.update w.wires i (w.wires i).reset_handle,
        reserved := some (w.wires i).buffer_handle, count_using := w.count_using - 1 } i :=
      ⟨rfl, rfl, rfl, rfl, rfl⟩
    refine ⟨_, rfl, hd, h.remove hd hi (by simp [h.count_using]) rfl ?_ rfl h.live_nodup ?_⟩
    · intro b hb
      cases hb
      exact ⟨hne, fun j hj hji => h.other_handle hi hj hji⟩
    · intro b
      rw [h.live_iff, hr]
      constructor
      · rintro (hb | ⟨j, hj, hh⟩)
        · cases hb
        · by_cases hji : j = i
          · exact .inl (by rw [← hh, hji])
          · exact .inr ⟨j, hj, hji, hh⟩
      · rintro (hb | ⟨j, hj, -, hh⟩)
        · exact .inr ⟨i, hi, Option.some.inj hb⟩
        · exact .inr ⟨j, hj, hh⟩
  | some r =>
    obtain ⟨hr0, hrh⟩ := h.reserved_ne r hr
    simp only [Bind.bind, Except.bind, Wires.wire_at, hic, if_true, Wires.put, hr, Pure.pure,
      Except.pure, Wires.deallocate, hlive]
    have hd : Detached w { w with
        wires := Function.update w.wires i (w.wires i).reset_handle,
        live := w.live.erase (w.wires i).buffer_handle, count_using := w.count_using - 1,
        reserved := some r } i := ⟨rfl, rfl, rfl, rfl, rfl⟩
    refine ⟨_, rfl, hd, h.remove hd hi (by simp [h.count_using]) rfl ?_ rfl
      (h.live_nodup.erase _) ?_⟩
    · intro b hb
      cases hb
      exact ⟨hr0, fun j hj _ => hrh j hj⟩
    · intro b
      rw [h.live_nodup.mem_erase_iff, h.live_iff, hr]
      constructor
      · rintro ⟨hb, hb' | ⟨j, hj, hh⟩⟩
        · exact .inl hb'
        · refine .inr ⟨j, hj, ?_, hh⟩
          rintro rfl
          exact hb hh.symm
      · rintro (hb | ⟨j, hj, hji, hh⟩)
        · refine ⟨?_, .inl hb⟩
          rintro rfl
          exact hrh i hi (Option.some.inj hb).symm
        · refine ⟨?_, .inr ⟨j, hj, hh⟩⟩
          rintro rfl
          exact h.other_handle hi hj hji hh

end Release

/-! ## The destructor -/

/-- The loop frees the buffer of every wire that has one. -/
theorem destroy_loop {w : Wires} {xs : List Nat} (hxs : xs.Nodup) (hnd : w.live.Nodup)
    (hinj : ∀ i ∈ xs, ∀ j ∈ xs, (w.wires i).buffer_handle ≠ 0 →
      (w.wires i).buffer_handle = (w.wires j).buffer_handle → i = j)
    (hl : ∀ b, b ∈ w.live ↔ b ≠ 0 ∧ ∃ i ∈ xs, (w.wires i).buffer_handle = b) :
    ∃ w', xs.foldlM Wires.destroy_wire w = .ok w' ∧ w'.live = [] := by
  induction xs generalizing w with
  | nil =>
    refine ⟨w, rfl, ?_⟩
    rw [List.eq_nil_iff_forall_not_mem]
    intro b hb
    simpa using (hl b).mp hb
  | cons x xs ih =>
    obtain ⟨hx, hxs⟩ := List.nodup_cons.mp hxs
    rw [List.foldlM_cons]
    by_cases h0 : (w.wires x).buffer_handle = 0
    · have hd : w.destroy_wire x = .ok w := by
        simp [Wires.destroy_wire, Wire.equal, h0]
      rw [hd]
      refine ih hxs hnd (fun i hi j hj => hinj i (by simp [hi]) j (by simp [hj])) ?_
      intro b
      rw [hl b, List.exists_mem_cons_iff, h0]
      refine and_congr_right fun hb => ⟨?_, .inr⟩
      rintro (rfl | h)
      · exact absurd rfl hb
      · exact h
    · have hmem : (w.wires x).buffer_handle ∈ w.live := (hl _).mpr ⟨h0, x, by simp, rfl⟩
      have hd : w.destroy_wire x = .ok ({ w with
          live := w.live.erase (w.wires x).buffer_handle }.put x (w.wires x).detach_buffer) := by
        simp [Wires.destroy_wire, Wire.equal, Ne.symm h0, Wire.get_bip_address, h0,
          Wires.deallocate, hmem, Bind.bind, Except.bind, Pure.pure, Except.pure]
      rw [hd]
      have hother : ∀ i ∈ xs, Function.update w.wires x (w.wires x).detach_buffer i = w.wires i :=
        fun i hi => Function.update_of_ne (by rintro rfl; exact hx hi) _ _
      refine ih hxs (hnd.erase _) ?_ ?_
      · intro i hi j hj hne he
        simp only [Wires.put, hother i hi, hother j hj] at hne he
        exact hinj i (by simp [hi]) j (by simp [hj]) hne he
      · intro b
        rw [Wires.put, hnd.mem_erase_iff, hl b]
        dsimp only
        constructor
        · rintro ⟨hbx, hb, i, hi, hh⟩
          rcases List.mem_cons.mp hi with rfl | hi
          · exact absurd hh.symm hbx
          · exact ⟨hb, i, hi, by rw [hother i hi]; exact hh⟩
        · rintro ⟨hb, i, hi, hh⟩
          rw [hother i hi] at hh
          refine ⟨?_, hb, i, by simp [hi], hh⟩
          rintro rfl
          have hix := hinj i (by simp [hi]) x (by simp) (by rw [hh]; exact hb) hh
          exact hx (hix ▸ hi)

theorem PoolOk.destroy {w : Wires} {held : List Nat} (h : PoolOk w held) :
    ∃ w', w.destroy = .ok w' ∧ w'.live = [] := by
  have hinj : ∀ i ∈ List.range w.count, ∀ j ∈ List.range w.count, (w.wires i).buffer_handle ≠ 0 →
      (w.wires i).buffer_handle = (w.wires j).buffer_handle → i = j := by
    intro i _ j _ hne he
    have hi : i ∈ held := by
      by_contra hn
      exact hne (h.free i hn)
    have hj : j ∈ held := by
      by_contra hn
      exact hne (he.trans (h.free j hn))
    exact h.distinct i hi j hj he
  have hall : ∀ b, (b ≠ 0 ∧ ∃ i ∈ List.range w.count, (w.wires i).buffer_handle = b) ↔
      ∃ i ∈ held, (w.wires i).buffer_handle = b := by
    intro b
    constructor
    · rintro ⟨hb, i, -, hh⟩
      refine ⟨i, ?_, hh⟩
      by_contra hn
      exact hb (hh ▸ h.free i hn)
    · rintro ⟨i, hi, hh⟩
      exact ⟨hh ▸ h.handle_ne i hi, i,
        List.mem_range.mpr (Nat.lt_of_lt_of_le (h.below i hi) h.next_le), hh⟩
  unfold Wires.destroy
  cases hr : w.reserved with
  | none =>
    simp only [Option.isSome_none, Bool.false_eq_true, if_false, Bind.bind, Except.bind]
    refine destroy_loop List.nodup_range h.live_nodup hinj ?_
    intro b
    rw [h.live_iff, hr, hall]
    simp
  | some r =>
    obtain ⟨-, hrh⟩ := h.reserved_ne r hr
    have hmem : r ∈ w.live := (h.live_iff r).mpr (.inl hr)
    simp only [Option.isSome_some, if_true, Wires.deallocate, hmem, Bind.bind, Except.bind]
    refine destroy_loop List.nodup_range (h.live_nodup.erase r) hinj ?_
    intro b
    rw [h.live_nodup.mem_erase_iff, h.live_iff, hr, hall]
    constructor
    · rintro ⟨hb, hb' | hb'⟩
      · exact absurd (Option.some.inj hb').symm hb
      · exact hb'
    · rintro ⟨i, hi, hh⟩
      refine ⟨?_, .inr ⟨i, hi, hh⟩⟩
      rintro rfl
      exact hrh i hi hh

/-! ## Runs of the pool -/

/-- The pool, the wires that the server holds, and the call that did not return,
if there was one. -/
structure PoolSys where
  pool : Wires
  held : List Nat
  fault : Option Fault

namespace PoolSys

def init (count buffer_size buffer : Nat) (memory : Nat → Nat → UInt8) : PoolSys where
  pool := Wires.construct count buffer_size buffer memory
  held := []
  fault := none

inductive Act
  /-- The answer of `allocate_aligned`, should the call ask for a buffer. -/
  | acquire (fresh : Option Nat)
  | release (wire : Nat)

/-- The server holds at most `count` wires and releases only what it holds. -/
def step (s : PoolSys) : Act → Option PoolSys
  | .acquire fresh =>
    if s.held.length < s.pool.count ∧ Fresh s.pool fresh then
      match s.pool.acquire fresh with
      | .ok (index, pool) => some { s with pool, held := index :: s.held }
      | .error (.throws (.runtime_error _ _)) => some s
      | .error fault => some { s with fault := some fault }
    else none
  | .release wire =>
    if wire ∈ s.held then
      match s.pool.release wire with
      | .ok pool => some { s with pool, held := s.held.erase wire }
      | .error fault => some { s with fault := some fault }
    else none

/-- What holds of the pool after every call. -/
structure Law (s : PoolSys) : Prop where
  count_using : s.pool.count_using = s.held.length
  held : s.held.Nodup ∧ ∀ i ∈ s.held, i < s.pool.count ∧ (s.pool.wires i).buffer_handle ≠ 0
  distinct : ∀ i ∈ s.held, ∀ j ∈ s.held,
    (s.pool.wires i).buffer_handle = (s.pool.wires j).buffer_handle → i = j
  live_nodup : s.pool.live.Nodup
  place : ∀ b, b ∈ s.pool.live ↔
    s.pool.reserved = some b ∨ ∃ i ∈ s.held, (s.pool.wires i).buffer_handle = b
  one_place : ∀ b, s.pool.reserved = some b → ∀ i ∈ s.held, (s.pool.wires i).buffer_handle ≠ b
  reserved : s.pool.count_using = 0 → s.pool.reserved.isSome
  /-- No call has ended in `std::abort()`, an index out of range or a bad free. -/
  no_fault : s.fault = none
  /-- The destructor frees every buffer, each once. -/
  destroy : ∃ pool, s.pool.destroy = .ok pool ∧ pool.live = []

def Inv (s : PoolSys) : Prop := PoolOk s.pool s.held ∧ s.fault = none

theorem Inv.law {s : PoolSys} (h : Inv s) : Law s := by
  obtain ⟨hp, hf⟩ := h
  refine ⟨hp.count_using, ⟨hp.nodup, ?_⟩, hp.distinct, hp.live_nodup, hp.live_iff,
    fun b hb => (hp.reserved_ne b hb).2, hp.reserved_some, hf, hp.destroy⟩
  intro i hi
  exact ⟨Nat.lt_of_lt_of_le (hp.below i hi) hp.next_le, hp.handle_ne i hi⟩

theorem inv_step {s t : PoolSys} {a : Act} (h : Inv s) (ha : step s a = some t) : Inv t := by
  obtain ⟨hp, hf⟩ := h
  cases a with
  | acquire fresh =>
    simp only [step] at ha
    split at ha
    · rename_i hc
      rcases hp.acquire hc.1 hc.2 with ⟨-, he⟩ | ⟨i, b, w', he, hi, -, hp'⟩
      · rw [he] at ha
        cases ha
        exact ⟨hp, hf⟩
      · rw [he] at ha
        cases ha
        exact ⟨hp', hf⟩
    · cases ha
  | release wire =>
    simp only [step] at ha
    split at ha
    · rename_i hm
      obtain ⟨w', he, -, hp'⟩ := hp.release hm
      rw [he] at ha
      cases ha
      exact ⟨hp', hf⟩
    · cases ha

/-- Whatever the order of the calls, the pool keeps its law. -/
theorem every_buffer_has_one_place (count buffer_size buffer : Nat)
    (memory : Nat → Nat → UInt8) (hb : buffer ≠ 0) (acts : List Act)
    (s : PoolSys) (hr : RunOf step Free (init count buffer_size buffer memory) acts s) :
    Law s := by
  refine (hr.inv ?_ ?_ : Inv s).law
  · exact ⟨poolOk_construct hb, rfl⟩
  · intro t a u ht _ ha
    exact inv_step ht ha

/-- A pool of two wires that becomes empty, and then runs out of shared memory. -/
def busyPool : List Act :=
  [.acquire none, .acquire (some 20), .release 0, .acquire none, .release 1, .release 0,
    .acquire none, .acquire none, .acquire (some 30), .release 0]

theorem every_buffer_has_one_place_in_a_busy_pool :
    ∃ s, RunOf step Free (init 2 64 10 fun _ _ => 0) busyPool s ∧ s.held = [1] ∧ Law s := by
  obtain ⟨s, hr, hp⟩ := RunOf.exists_free (s := init 2 64 10 fun _ _ => 0)
    (p := fun s => s.held = [1])
    (by decide : (exec step _ busyPool).any _ = true)
  exact ⟨s, hr, by simpa using hp,
    every_buffer_has_one_place 2 64 10 _ (by decide) _ s hr⟩

end PoolSys

end tateyama_bootstrap.resultset_wires
