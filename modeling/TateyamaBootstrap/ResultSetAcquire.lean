-- What a failed `acquire` of unidirectional_simple_wires leaves behind (transport/wire.h): the
-- counters move and the buffer is taken before the access that can throw.
import TateyamaBootstrap.ResultSetPool

open runs

namespace tateyama_bootstrap.resultset_wires

/-! ## A call and its state -/

namespace Wires

/-- `acquire` with the state that it leaves, also where it ends in a fault. -/
def acquire_call (w : Wires) (fresh : Option Nat) : Except Fault Nat × Wires :=
  if w.count_using = 0 then
    let w := { w with count_using := 1, next_index := 1 }
    match w.attach 0 w.reserved with
    | .error fault => (.error fault, w)
    | .ok w => (.ok 0, { w with reserved := none, only_one_buffer := true })
  else
    match w.take_buffer fresh with
    | .error fault => (.error fault, w)
    | .ok (buffer, w) =>
      match w.search_free_wire with
      | .error fault => (.error fault, w)
      | .ok (index, w) =>
        match w.attach index (some buffer) with
        | .error fault => (.error fault, w)
        | .ok w => (.ok index, { w with only_one_buffer := false })

/-- What a failed call is to leave as it is. -/
structure Unchanged (w w' : Wires) : Prop where
  reserved : w'.reserved = w.reserved
  count_using : w'.count_using = w.count_using
  next_index : w'.next_index = w.next_index
  only_one_buffer : w'.only_one_buffer = w.only_one_buffer
  handles : ∀ i, (w'.wires i).buffer_handle = (w.wires i).buffer_handle
  live : w'.live = w.live

theorem Unchanged.refl (w : Wires) : Unchanged w w := ⟨rfl, rfl, rfl, rfl, fun _ => rfl, rfl⟩

variable {w w' : Wires} {fresh : Option Nat}

/-- The result of the call is the one of `acquire`. -/
theorem acquire_eq (w : Wires) (fresh : Option Nat) :
    w.acquire fresh =
      (w.acquire_call fresh).1.map fun index => (index, (w.acquire_call fresh).2) := by
  unfold acquire acquire_call
  split
  · dsimp only
    generalize attach _ 0 w.reserved = attached
    rcases attached with fault | w1 <;> rfl
  · generalize w.take_buffer fresh = taken
    rcases taken with fault | ⟨buffer, w1⟩
    · rfl
    dsimp only [Bind.bind, Except.bind]
    generalize w1.search_free_wire = found
    rcases found with fault | ⟨index, w2⟩
    · rfl
    dsimp only
    generalize w2.attach index (some buffer) = attached
    rcases attached with fault | w3 <;> rfl

theorem acquire_of_error {fault : Fault} (h : w.acquire_call fresh = (.error fault, w')) :
    w.acquire fresh = .error fault := by
  rw [acquire_eq, h]
  rfl

theorem acquire_of_ok {index : Nat} (h : w.acquire_call fresh = (.ok index, w')) :
    w.acquire fresh = .ok (index, w') := by
  rw [acquire_eq, h]
  rfl

end Wires

/-! ## What a call that throws leaves -/

section

variable {w : Wires} {held : List Nat} {fresh : Option Nat}

/-- The pool has given out as many wires as it has ever used when all of them are held. -/
theorem Held.next_index_of_full (h : Held w held) (hfull : w.count ≤ held.length) :
    w.count_using = w.count ∧ w.next_index = w.count := by
  have hsub : held ⊆ List.range w.next_index := fun i hi => List.mem_range.mpr (h.below i hi)
  have hlen := List.Nodup.length_le_of_subset h.nodup hsub
  rw [List.length_range] at hlen
  have hnext := h.next_le
  have hcu := h.count_using
  omega

/-- With all wires held, the call throws at the access to the vector, after the counters have
moved. -/
theorem PoolOk.acquire_full (h : PoolOk w held) (hfull : w.count ≤ held.length)
    (fresh : Option Nat) (hbuffer : held = [] ∨ w.reserved ≠ none ∨ fresh ≠ none) :
    ∃ e w', w.acquire_call fresh = (.error (.throws e), w') ∧
      w'.count_using = w.count_using + 1 := by
  obtain ⟨hcu, hnext⟩ := h.next_index_of_full hfull
  unfold Wires.acquire_call
  split
  · rename_i h0
    have hcount : ¬0 < w.count := by omega
    simp only [Wires.attach, Wires.wire_at, hcount, if_false, Bind.bind, Except.bind]
    exact ⟨_, _, rfl, by simp [h0]⟩
  · rename_i h0
    have hne : held ≠ [] := by
      rintro rfl
      exact h0 h.count_using
    obtain ⟨b, w1, htake, hcu1, hnext1, hcount1⟩ : ∃ b w1, w.take_buffer fresh = .ok (b, w1) ∧
        w1.count_using = w.count_using ∧ w1.next_index = w.next_index ∧ w1.count = w.count := by
      unfold Wires.take_buffer
      rcases hr : w.reserved with _ | b
      · rcases fresh with _ | b
        · simp [hne, hr] at hbuffer
        · exact ⟨_, _, rfl, rfl, rfl, rfl⟩
      · exact ⟨_, _, rfl, rfl, rfl, rfl⟩
    rw [htake]
    dsimp only
    have hfound : w1.search_free_wire = .ok (w1.next_index,
        { w1 with count_using := w1.count_using + 1, next_index := w1.next_index + 1 }) := by
      unfold Wires.search_free_wire
      rw [if_pos (by omega)]
    have hcount : ¬w1.next_index < w1.count := by omega
    rw [hfound]
    simp only [Wires.attach, Wires.wire_at, hcount, if_false, Bind.bind, Except.bind]
    exact ⟨_, _, rfl, by simp [hcu1]⟩

theorem PoolOk.count_using_ne (h : PoolOk w held) (hne : held ≠ []) : w.count_using ≠ 0 := by
  rw [h.count_using]
  exact mt List.length_eq_zero_iff.mp hne

/-- Without a buffer the call throws at once. -/
theorem acquire_without_buffer (h0 : w.count_using ≠ 0) (hr : w.reserved = none) :
    w.acquire_call none =
      (.error (.throws (.runtime_error .internal "cannot allocate shared memory")), w) := by
  unfold Wires.acquire_call Wires.take_buffer
  rw [if_neg h0, hr]

/-- With a wire left, a call that throws has got no buffer. -/
theorem PoolOk.acquire_left (h : PoolOk w held) (hlt : held.length < w.count)
    (hf : Fresh w fresh) {e : Error} {w' : Wires}
    (hcall : w.acquire_call fresh = (.error (.throws e), w')) : w' = w := by
  rcases h.acquire hlt hf with ⟨⟨h0, hr, rfl⟩, -⟩ | ⟨i, b, w1, he, -⟩
  · rw [acquire_without_buffer h0 hr] at hcall
    exact (congrArg Prod.snd hcall).symm
  · rw [Wires.acquire_of_error hcall] at he
    simp at he

end

/-! ## The system -/

/-- The pool and the wires that its caller holds; `ended` after `std::abort()` and the like. -/
structure CallSys where
  pool : Wires
  held : List Nat
  ended : Bool

namespace CallSys

open PoolSys (Act)

def init (count buffer_size buffer : Nat) (memory : Nat → Nat → UInt8) : CallSys where
  pool := Wires.construct count buffer_size buffer memory
  held := []
  ended := false

/-- The caller may ask for a wire at any time, also when it holds all of them, and goes on after
an exception. It releases what it holds. -/
def step (s : CallSys) : Act → Option CallSys
  | .acquire fresh =>
    if s.ended = false ∧ Fresh s.pool fresh then
      match s.pool.acquire_call fresh with
      | (.ok index, pool) => some { s with pool, held := index :: s.held }
      | (.error (.throws _), pool) => some { s with pool }
      | (.error _, pool) => some { s with pool, ended := true }
    else none
  | .release wire =>
    if s.ended = false ∧ wire ∈ s.held then
      match s.pool.release wire with
      | .ok pool => some { s with pool, held := s.held.erase wire }
      | .error _ => some { s with ended := true }
    else none

/-- An `acquire` that throws changes nothing. -/
def AllOrNothing (s : CallSys) : Act → Prop
  | .acquire fresh => ∀ e pool, s.pool.acquire_call fresh = (.error (.throws e), pool) →
      Wires.Unchanged s.pool pool
  | .release _ => True

/-- A wire is left, or the call already fails at the buffer: there is no reserved one and none
is allocated. -/
def WireLeft (s : CallSys) : Act → Prop
  | .acquire fresh => s.held.length < s.pool.count ∨
      s.held ≠ [] ∧ s.pool.reserved = none ∧ fresh = none
  | .release _ => True

def Inv (s : CallSys) : Prop := PoolOk s.pool s.held

variable {s t : CallSys} {a : Act}

theorem fresh_of_step {fresh : Option Nat} (hs : step s (.acquire fresh) = some t) :
    Fresh s.pool fresh := by
  simp only [step] at hs
  split at hs
  · rename_i h
    exact h.2
  · simp at hs

theorem allOrNothing_iff (h : Inv s) (hs : step s a = some t) :
    AllOrNothing s a ↔ WireLeft s a := by
  rcases a with fresh | wire
  · unfold AllOrNothing WireLeft
    dsimp only
    constructor
    · intro hall
      by_contra hno
      obtain ⟨hfull, hbuffer⟩ := not_or.mp hno
      obtain ⟨e, w', hcall, hcu⟩ := PoolOk.acquire_full h (Nat.le_of_not_lt hfull) fresh
        (by simpa only [not_and_or, ne_eq, not_not] using hbuffer)
      have hsame := (hall e w' hcall).count_using
      omega
    · rintro (hlt | ⟨hne, hr, rfl⟩) e w' hcall
      · rw [PoolOk.acquire_left h hlt (fresh_of_step hs) hcall]
        exact Wires.Unchanged.refl _
      · rw [acquire_without_buffer (PoolOk.count_using_ne h hne) hr, Prod.mk.injEq] at hcall
        rw [← hcall.2]
        exact Wires.Unchanged.refl _
  · simp [AllOrNothing, WireLeft]

theorem inv_step (h : Inv s) (hleft : WireLeft s a) (hs : step s a = some t) : Inv t := by
  rcases a with fresh | wire
  · have hf := fresh_of_step hs
    simp only [step] at hs
    split at hs
    · rcases hleft with hlt | ⟨hne, hr, rfl⟩
      · rcases hcall : s.pool.acquire_call fresh with ⟨fault | index, w'⟩
        · rcases PoolOk.acquire h hlt hf with ⟨⟨h0, hr, rfl⟩, -⟩ | ⟨i, b, w1, he, -⟩
          · rw [acquire_without_buffer h0 hr] at hs
            obtain rfl := Option.some.inj hs
            exact h
          · rw [Wires.acquire_of_error hcall] at he
            simp at he
        · rw [hcall] at hs
          obtain rfl := Option.some.inj hs
          rcases PoolOk.acquire h hlt hf with ⟨-, he⟩ | ⟨i, b, w1, he, -, -, hp⟩
          · rw [Wires.acquire_of_ok hcall] at he
            simp at he
          · rw [Wires.acquire_of_ok hcall, Except.ok.injEq, Prod.mk.injEq] at he
            obtain ⟨rfl, rfl⟩ := he
            exact hp
      · rw [acquire_without_buffer (PoolOk.count_using_ne h hne) hr] at hs
        obtain rfl := Option.some.inj hs
        exact h
    · simp at hs
  · simp only [step] at hs
    split at hs
    · rename_i hm
      obtain ⟨w', he, -, hp⟩ := PoolOk.release h hm.2
      rw [he] at hs
      obtain rfl := Option.some.inj hs
      exact hp
    · simp at hs

/-- In every run, the calls of `acquire` that throw change nothing exactly when each of them is
made while a wire is left or fails at the allocation. -/
theorem acquire_is_all_or_nothing_iff (count buffer_size buffer : Nat)
    (memory : Nat → Nat → UInt8) (hb : buffer ≠ 0) (acts : List Act) (s : CallSys) :
    RunOf step AllOrNothing (init count buffer_size buffer memory) acts s ↔
      RunOf step WireLeft (init count buffer_size buffer memory) acts s := by
  refine RunOf.congr (I := Inv) (poolOk_construct hb) ?_ ?_
  · intro t a u ht hleft hs
    exact inv_step ht hleft hs
  · intro t a u ht hs
    exact allOrNothing_iff ht hs

instance (s : CallSys) (a : Act) : Decidable (WireLeft s a) :=
  match a with
  | .acquire fresh => inferInstanceAs (Decidable (s.held.length < s.pool.count ∨
      s.held ≠ [] ∧ s.pool.reserved = none ∧ fresh = none))
  | .release _ => .isTrue trivial

/-- Two wires; the second call fails at the allocation and is repeated, and so does a third one
with all wires held. -/
def refused : List Act :=
  [.acquire none, .acquire none, .acquire (some 20), .acquire none, .release 0]

theorem a_refused_allocation_changes_nothing :
    ∃ s, RunOf step AllOrNothing (init 2 64 10 fun _ _ => 0) refused s ∧ s.held = [1] := by
  obtain ⟨s, hr, hp⟩ := RunOf.exists_of_exec (C := WireLeft) (s := init 2 64 10 fun _ _ => 0)
    (c := fun s a => decide (WireLeft s a)) (p := fun s => decide (s.held = [1]))
    (fun _ _ h => of_decide_eq_true h) (by decide : (exec (guarded step _) _ refused).any _ = true)
  exact ⟨s, (acquire_is_all_or_nothing_iff 2 64 10 _ (by decide) _ s).mpr hr, of_decide_eq_true hp⟩

/-- One wire, which is held: the next call takes a buffer and moves the counters before it
throws. -/
theorem an_acquire_without_a_wire_leaks_its_buffer :
    ∃ s, RunOf step Free (init 1 64 10 fun _ _ => 0) [Act.acquire none] s ∧
      Fresh s.pool (some 20) ∧
      ∃ pool, s.pool.acquire_call (some 20) = (.error (.throws .out_of_range), pool) ∧
        pool.count_using = 2 ∧ pool.live = [20, 10] ∧ ¬Wires.Unchanged s.pool pool := by
  refine ⟨_, RunOf.single trivial rfl, by decide, _, rfl, rfl, rfl, ?_⟩
  intro h
  exact absurd h.live (by decide)

end CallSys

end tateyama_bootstrap.resultset_wires
