-- Who reads the response wire. `using_wire_` is set by a compare and exchange
-- and cleared by hand on each way out of `receive`. Two ways out forget it, and
-- then it stays set for good.
import TateyamaBootstrap.SessionWire

open runs

namespace tateyama_bootstrap.session_wire

open simple_wire

/-! ## The section -/

/-- The thread is between its successful compare and exchange and its release. -/
def Pc.in_section : Pc → Bool
  | .await | .loaded _ | .waiting | .timed_out | .caught | .header | .own | .own_count _
  | .own_release | .other _ _ | .other_count _ _ | .other_release | .fail_release => true
  | _ => false

/-- `using_wire_` is set exactly when one thread is in the section. -/
structure WireOwned (s : Sys) : Prop where
  flag : s.using_wire = true ↔ ∃ t, (s.pc t).in_section = true
  one : ∀ t u, (s.pc t).in_section = true → (s.pc u).in_section = true → t = u

/-- The flag is set, and nobody is there to clear it. -/
structure LockedOut (s : Sys) : Prop where
  flag : s.using_wire = true
  nobody : ∀ t, (s.pc t).in_section = false

theorem LockedOut.not_owned {s : Sys} (h : LockedOut s) : ¬ WireOwned s := by
  intro ho
  obtain ⟨t, ht⟩ := ho.flag.mp h.flag
  rw [h.nobody t] at ht
  cases ht

/-- All that a step can do to the section and to the flag. -/
inductive SectionMove (s t : Sys) : Act → Prop
  | still {a : Act} : t.using_wire = s.using_wire →
      (∀ u, (t.pc u).in_section = (s.pc u).in_section) → SectionMove s t a
  | acquire {u : Nat} : s.using_wire = false → t.using_wire = true →
      (t.pc u).in_section = true → (∀ v, v ≠ u → t.pc v = s.pc v) → SectionMove s t (.exchange u true)
  | release {u : Nat} : (s.pc u).in_section = true → (t.pc u).in_section = false →
      t.using_wire = false → (∀ v, v ≠ u → t.pc v = s.pc v) → SectionMove s t (.release u)
  /-- `continue` in the handler of `receive`, without a release. -/
  | go_on {u : Nat} : (s.pc u).in_section = true → (t.pc u).in_section = false →
      t.using_wire = s.using_wire → (∀ v, v ≠ u → t.pc v = s.pc v) →
      SectionMove s t (.probe_again u true)
  /-- An exception that the handler of `receive` does not catch. -/
  | escape {u : Nat} : s.header_received.idx.toNat ≠ s.slot_index u →
      slot_size ≤ s.header_received.idx.toNat → (s.pc u).in_section = true →
      (t.pc u).in_section = false → t.using_wire = s.using_wire →
      (∀ v, v ≠ u → t.pc v = s.pc v) → SectionMove s t (.dispatch u)

/-- A step of one thread between two places of which both or none is in the section. -/
theorem section_still {s t : Sys} {u : Nat} {p : Pc} (ht : t.pc = Function.update s.pc u p)
    (hp : p.in_section = (s.pc u).in_section) (v : Nat) :
    (t.pc v).in_section = (s.pc v).in_section := by
  rw [ht]
  by_cases hv : v = u
  · subst hv
    rw [Function.update_self, hp]
  · rw [Function.update_of_ne hv]

theorem pc_other {s t : Sys} {u : Nat} {p : Pc} (ht : t.pc = Function.update s.pc u p) (v : Nat)
    (hv : v ≠ u) : t.pc v = s.pc v := by
  rw [ht, Function.update_of_ne hv]

/-- A wake-up moves threads that are outside of the section. -/
theorem section_notify {s t : Sys} {u : Nat} {p : Pc}
    (ht : t.pc = Function.update s.notify_all.pc u p) (hp : p.in_section = false)
    (hu : (s.pc u).in_section = false) (v : Nat) :
    (t.pc v).in_section = (s.pc v).in_section := by
  rw [ht]
  by_cases hv : v = u
  · subst hv
    rw [Function.update_self, hp, hu]
  · rw [Function.update_of_ne hv]
    simp only [Sys.notify_all]
    split
    · rename_i hb
      rw [hb]
      rfl
    · rfl

theorem read_step_keeps {s t : Sys} {u : Nat} {a : simple_wire.Act ResponseHeader}
    (h : read_step s u a = some t) :
    ∃ wire, simple_wire.step s.wire a = some wire ∧ t = { s with wire } ∧
      (s.pc u = .own ∨ ∃ j head, s.pc u = .other j head) := by
  unfold read_step at h
  split at h
  · rename_i hp
    obtain ⟨wire, hw, rfl⟩ := Option.map_eq_some_iff.mp h
    exact ⟨wire, hw, rfl, Or.inl hp⟩
  · rename_i j head hp
    obtain ⟨wire, hw, rfl⟩ := Option.map_eq_some_iff.mp h
    exact ⟨wire, hw, rfl, Or.inr ⟨j, head, hp⟩⟩
  · cases h

theorem step_section {s t : Sys} {a : Act} (h : step s a = some t) : SectionMove s t a := by
  cases a with
  | search u =>
    simp only [step] at h
    split at h
    · rename_i i hp
      split at h
      · split at h
        · cases h
          exact .still rfl (section_still rfl (by rw [hp]; rfl))
        · cases h
          exact .still rfl (section_still (p := .send) rfl (by rw [hp]; rfl))
      · cases h
        exact .still rfl (section_still rfl (by rw [hp]; rfl))
    · cases h
  | send u | call u | spurious u | block u | load u =>
    simp only [step] at h
    split at h
    · rename_i hp
      cases h
      exact .still rfl (section_still rfl (by rw [hp]; rfl))
    · cases h
  | lock u | wake u | time_out u =>
    simp only [step] at h
    split at h
    · rename_i hp
      split at h <;> cases h
      exact .still rfl (section_still rfl (by rw [hp]; rfl))
    · cases h
  | evaluate u | test u =>
    simp only [step] at h
    split at h
    · rename_i hp
      split at h <;> cases h <;> exact .still rfl (section_still rfl (by rw [hp]; rfl))
    · cases h
  | consume u =>
    simp only [step] at h
    split at h
    · rename_i hp
      cases h
      exact .still rfl (section_still (p := .notify) rfl (by rw [hp]; rfl))
    · cases h
  | exchange u succeeds =>
    simp only [step] at h
    split at h
    · rename_i hp
      cases succeeds with
      | true =>
        simp only [if_true] at h
        split at h
        · cases h
        · rename_i hflag
          cases h
          refine .acquire (by simpa using hflag) rfl ?_ (pc_other (p := .await) rfl)
          simp only [Sys.set_pc, Function.update_self]
          rfl
      | false =>
        cases h
        exact .still rfl (section_still rfl (by rw [hp]; rfl))
    · cases h
  | examine u =>
    simp only [step] at h
    split at h
    · rename_i f hp
      split at h
      · obtain ⟨wire, -, rfl⟩ := Option.map_eq_some_iff.mp h
        exact .still rfl (section_still (p := .header) rfl (by rw [hp]; rfl))
      · split at h <;> cases h
        · exact .still rfl (section_still (p := .header) rfl (by rw [hp]; rfl))
        · exact .still rfl (section_still rfl (by rw [hp]; rfl))
    · cases h
  | probe u alive =>
    simp only [step] at h
    split at h
    · rename_i hp
      cases h
      exact .still rfl (section_still rfl (by rw [hp]; cases alive <;> rfl))
    · cases h
  | probe_again u alive =>
    simp only [step] at h
    split at h
    · rename_i hp
      cases h
      cases alive with
      | true =>
        refine .go_on (by rw [hp]; rfl) ?_ rfl (pc_other rfl)
        simp only [Sys.set_pc, Function.update_self]
        rfl
      | false => exact .still rfl (section_still rfl (by rw [hp]; rfl))
    · cases h
  | dispatch u =>
    simp only [step] at h
    split at h
    · rename_i hp
      split at h
      · cases h
        exact .still rfl (section_still rfl (by rw [hp]; rfl))
      · rename_i hne
        split at h
        · cases h
          exact .still rfl (section_still (p := .other _ _) rfl (by rw [hp]; rfl))
        · rename_i hlt
          cases h
          refine .escape hne (Nat.le_of_not_lt hlt) (by rw [hp]; rfl) ?_ rfl (pc_other rfl)
          simp only [Sys.set_pc, Function.update_self]
          rfl
    · cases h
  | read u | read_chunk u =>
    obtain ⟨wire, -, rfl, -⟩ := read_step_keeps h
    exact .still rfl fun _ => rfl
  | advance u =>
    simp only [step] at h
    split at h
    · cases h
    · rename_i t' hread
      obtain ⟨wire, -, rfl, -⟩ := read_step_keeps hread
      split at h
      · rename_i hp
        cases h
        exact .still rfl (section_still rfl (by rw [hp]; rfl))
      · rename_i j head _ hp
        cases h
        exact .still rfl (section_still (p := .other_count j head) rfl (by rw [hp]; rfl))
      · cases h
        exact .still rfl fun _ => rfl
  | count u =>
    simp only [step] at h
    split at h
    · rename_i d hp
      cases h
      exact .still rfl (section_still (p := .own_release) rfl (by rw [hp]; rfl))
    · rename_i j head hp
      cases h
      exact .still rfl (section_still (p := .other_release) rfl (by rw [hp]; rfl))
    · cases h
  | release u =>
    simp only [step] at h
    split at h
    · rename_i hp
      cases h
      refine .release (by rw [hp]; rfl) ?_ rfl (pc_other (p := .own_notify) rfl)
      simp only [Sys.set_pc, Function.update_self]
      rfl
    · rename_i hp
      cases h
      refine .release (by rw [hp]; rfl) ?_ rfl (pc_other (p := .other_notify) rfl)
      simp only [Sys.set_pc, Function.update_self]
      rfl
    · rename_i hp
      cases h
      refine .release (by rw [hp]; rfl) ?_ rfl (pc_other (p := .fail_notify) rfl)
      simp only [Sys.set_pc, Function.update_self]
      rfl
    · cases h
  | notify u =>
    simp only [step] at h
    split at h
    · rename_i hp
      cases h
      exact .still rfl (section_notify rfl rfl (by rw [hp]; rfl))
    · rename_i hp
      cases h
      exact .still rfl (section_notify rfl rfl (by rw [hp]; rfl))
    · rename_i hp
      cases h
      exact .still rfl (section_notify rfl rfl (by rw [hp]; rfl))
    · rename_i hp
      cases h
      exact .still rfl (section_notify rfl rfl (by rw [hp]; rfl))
    · cases h
  | write m | answer u m | server x =>
    obtain ⟨wire, -, rfl⟩ := Option.map_eq_some_iff.mp h
    exact .still rfl fun _ => rfl
  | close | notify_shutdown =>
    cases h
    exact .still rfl fun _ => rfl

/-! ## The flag over every run -/

/-- The second question whether the server is alive is not answered with yes,
and every header that a thread takes from the wire names a slot. -/
def Released (s : Sys) : Act → Prop
  | .probe_again _ alive => alive = false
  | .dispatch t => s.header_received.idx.toNat = s.slot_index t ∨
      s.header_received.idx.toNat < slot_size
  | _ => True

section Steps

variable {s t : Sys} {a : Act}

theorem wireOwned_init (capacity : Nat) (buffer : Nat → UInt8) :
    WireOwned (Sys.init capacity buffer) := by
  refine ⟨⟨fun h => ?_, fun ⟨t, ht⟩ => ?_⟩, fun t u ht => ?_⟩
  · cases h
  · cases ht
  · cases ht

theorem wireOwned_step (h : WireOwned s) (ha : Released s a) (hs : step s a = some t) :
    WireOwned t := by
  cases step_section hs with
  | still hflag hsec =>
    refine ⟨?_, ?_⟩
    · rw [hflag, h.flag]
      simp only [hsec]
    · intro u v
      rw [hsec, hsec]
      exact h.one u v
  | @acquire u hfree hset hin hother =>
    -- the flag was clear, so nobody else is in the section
    have hnobody : ∀ v, (s.pc v).in_section = false := by
      intro v
      by_contra hv
      have := h.flag.mpr ⟨v, by simpa using hv⟩
      rw [hfree] at this
      cases this
    have honly : ∀ v, (t.pc v).in_section = true → v = u := by
      intro v hv
      by_contra hne
      rw [hother v hne, hnobody v] at hv
      cases hv
    refine ⟨⟨fun _ => ⟨u, hin⟩, fun _ => hset⟩, ?_⟩
    intro v w hv hw
    rw [honly v hv, honly w hw]
  | @release u hin hout hclear hother =>
    have hnobody : ∀ v, (t.pc v).in_section = false := by
      intro v
      by_cases hne : v = u
      · rw [hne]
        exact hout
      · rw [hother v hne]
        by_contra hv
        exact hne (h.one v u (by simpa using hv) hin)
    refine ⟨⟨fun hf => ?_, fun ⟨v, hv⟩ => ?_⟩, fun v w hv => ?_⟩
    · rw [hclear] at hf
      cases hf
    · rw [hnobody v] at hv
      cases hv
    · rw [hnobody v] at hv
      cases hv
  | go_on _ _ _ _ => cases ha
  | escape hne hge _ _ _ _ =>
    rcases ha with ha | ha
    · exact absurd ha hne
    · omega

/-- A way out of the section that forgets the flag locks every thread out. -/
theorem lockedOut_of_not_released (h : WireOwned s) (ha : ¬ Released s a)
    (hs : step s a = some t) : LockedOut t := by
  have hleave : ∀ u, (s.pc u).in_section = true → (t.pc u).in_section = false →
      t.using_wire = s.using_wire → (∀ v, v ≠ u → t.pc v = s.pc v) → LockedOut t := by
    intro u hin hout hflag hother
    refine ⟨hflag.trans (h.flag.mpr ⟨u, hin⟩), ?_⟩
    intro v
    by_cases hne : v = u
    · rw [hne]
      exact hout
    · rw [hother v hne]
      by_contra hv
      exact hne (h.one v u (by simpa using hv) hin)
  cases a with
  | probe_again u alive =>
    obtain rfl : alive = true := by simpa [Released] using ha
    simp only [step] at hs
    split at hs
    · rename_i hp
      cases hs
      refine hleave u (by rw [hp]; rfl) ?_ rfl (pc_other rfl)
      simp only [Sys.set_pc, Function.update_self]
      rfl
    · cases hs
  | dispatch u =>
    simp only [Released, not_or] at ha
    simp only [step] at hs
    split at hs
    · rename_i hp
      rw [if_neg ha.1, if_neg ha.2] at hs
      cases hs
      refine hleave u (by rw [hp]; rfl) ?_ rfl (pc_other rfl)
      simp only [Sys.set_pc, Function.update_self]
      rfl
    · cases hs
  | _ => exact absurd trivial ha

/-- Nobody comes back to clear the flag. -/
theorem lockedOut_step (h : LockedOut s) (hs : step s a = some t) : LockedOut t := by
  cases step_section hs with
  | still hflag hsec => exact ⟨hflag.trans h.flag, fun u => (hsec u).trans (h.nobody u)⟩
  | acquire hfree _ _ _ =>
    rw [h.flag] at hfree
    cases hfree
  | @release u hin _ _ _ =>
    rw [h.nobody u] at hin
    cases hin
  | @go_on u hin _ _ _ =>
    rw [h.nobody u] at hin
    cases hin
  | @escape u _ _ hin _ _ _ =>
    rw [h.nobody u] at hin
    cases hin

end Steps

/-- After every run the wire is owned, or locked for good by a step that forgot
the flag. -/
theorem run_section {capacity : Nat} {buffer : Nat → UInt8} {acts : List Act} {s : Sys}
    (hr : RunOf step Free (Sys.init capacity buffer) acts s) :
    (RunOf step Released (Sys.init capacity buffer) acts s ∧ WireOwned s) ∨
      (¬ RunOf step Released (Sys.init capacity buffer) acts s ∧ LockedOut s) := by
  induction hr with
  | nil => exact Or.inl ⟨.nil, wireOwned_init capacity buffer⟩
  | @snoc as t u a hrun _ hs ih =>
    rcases ih with ⟨hrel, ho⟩ | ⟨hrel, hl⟩
    · by_cases ha : Released t a
      · exact Or.inl ⟨.snoc hrel ha hs, wireOwned_step ho ha hs⟩
      · refine Or.inr ⟨?_, lockedOut_of_not_released ho ha hs⟩
        intro h
        obtain ⟨t', h1, h2, -⟩ := h.last
        rw [h1.unique hrun] at h2
        exact ha h2
    · refine Or.inr ⟨?_, lockedOut_step hl hs⟩
      intro h
      obtain ⟨t', h1, -, -⟩ := h.last
      rw [h1.unique hrun] at h1
      exact hrel h1

/-- `using_wire_` tells who reads the wire after a run exactly when no thread
left the section by the `continue` of its handler or by an exception that the
handler does not catch. -/
theorem the_wire_is_released_by_its_reader (capacity : Nat) (buffer : Nat → UInt8)
    (acts : List Act) (s : Sys) (hr : RunOf step Free (Sys.init capacity buffer) acts s) :
    WireOwned s ↔ RunOf step Released (Sys.init capacity buffer) acts s := by
  rcases run_section hr with ⟨hrel, ho⟩ | ⟨hrel, hl⟩
  · exact ⟨fun _ => hrel, fun _ => ho⟩
  · exact ⟨fun ho => absurd ho hl.not_owned, fun h => absurd h hrel⟩

/-- The test for `Released`. -/
def released (s : Sys) : Act → Bool
  | .probe_again _ alive => !alive
  | .dispatch t => s.header_received.idx.toNat == s.slot_index t ||
      decide (s.header_received.idx.toNat < slot_size)
  | _ => true

theorem released_of_test (s : Sys) (a : Act) (h : released s a = true) : Released s a := by
  cases a with
  | probe_again t alive => simpa [released, Released] using h
  | dispatch t => simpa [released, Released] using h
  | _ => trivial

/-- A thread takes a slot, sends its request, and wins the wire. -/
def winTheWire (t : Nat) : List Act :=
  [.search t, .send t, .call t, .lock t, .evaluate t, .test t, .exchange t true]

/-- The server writes a message that fits the buffer. -/
def writeOut (m : Message ResponseHeader) : List Act :=
  [.write m, .server .wait, .server .check, .server .store, .server .publish]

/-- A thread that holds the wire reads the message at its head. -/
def readHead (t : Nat) : List Act :=
  [.load t, .examine t, .dispatch t, .read t, .advance t, .count t, .release t, .notify t]

/-- A thread times out once while the server is alive, then reads its own
message, and the next one finds the server dead. -/
theorem the_wire_is_released_by_its_reader_and_by_a_failed_one :
    ∃ s, RunOf step Free (Sys.init 64 fun _ => 0)
      (winTheWire 0 ++ [Act.load 0, .examine 0, .time_out 0, .probe 0 true] ++
        writeOut ⟨⟨0, 1, 2⟩, [5, 6], rfl⟩ ++ readHead 0 ++ winTheWire 1 ++
        [Act.load 1, .examine 1, .time_out 1, .probe 1 false, .probe_again 1 false, .release 1,
          .notify 1]) s ∧
      s.results 0 = [[5, 6]] ∧ s.pc 1 = .threw ∧ WireOwned s := by
  obtain ⟨s, hr, hp⟩ := RunOf.exists_of_exec (s := Sys.init 64 fun _ => 0) released_of_test
    (p := fun s => s.results 0 = [[5, 6]] ∧ s.pc 1 = .threw)
    (by decide +kernel : (exec (guarded step released) _
      (winTheWire 0 ++ [Act.load 0, .examine 0, .time_out 0, .probe 0 true] ++
        writeOut ⟨⟨0, 1, 2⟩, [5, 6], rfl⟩ ++ readHead 0 ++ winTheWire 1 ++
        [Act.load 1, .examine 1, .time_out 1, .probe 1 false, .probe_again 1 false, .release 1,
          .notify 1])).any _ = true)
  obtain ⟨h0, h1⟩ : s.results 0 = [[5, 6]] ∧ s.pc 1 = .threw := by simpa using hp
  have hfree := hr.mono (D := Free) fun _ _ _ => trivial
  exact ⟨s, hfree, h0, h1,
    (the_wire_is_released_by_its_reader 64 _ _ s hfree).mpr hr⟩

theorem not_escaped {s t : Sys} {u : Nat} (ha : Released s (.dispatch u))
    (hs : step s (.dispatch u) = some t) : t.pc u ≠ .escaped := by
  simp only [step] at hs
  split at hs
  · split at hs
    · cases hs
      simp [Sys.set_pc]
    · rename_i hne
      rw [if_pos (ha.resolve_left hne)] at hs
      cases hs
      simp [Sys.set_pc]
  · cases hs

/-- The server seems dead to the container and alive to `receive`, or a header
names slot 16. Both leave the flag set with nobody at the wire. -/
theorem a_reader_leaves_the_wire_locked :
    (∃ s, RunOf step Free (Sys.init 64 fun _ => 0)
      (winTheWire 0 ++ [Act.load 0, .examine 0, .time_out 0, .probe 0 false] ++
        [Act.probe_again 0 true]) s ∧
      s.pc 0 = .enter ∧ s.using_wire = true ∧ ¬ WireOwned s) ∧
    ∃ s, RunOf step Free (Sys.init 64 fun _ => 0)
      (winTheWire 0 ++ writeOut ⟨⟨16, 1, 0⟩, [], rfl⟩ ++ [Act.load 0, .examine 0] ++
        [Act.dispatch 0]) s ∧
      s.pc 0 = .escaped ∧ s.using_wire = true ∧ ¬ WireOwned s := by
  refine ⟨?_, ?_⟩
  · obtain ⟨s, hr, hp⟩ := RunOf.exists_free (s := Sys.init 64 fun _ => 0)
      (p := fun s => s.pc 0 = .enter ∧ s.using_wire = true)
      (by decide +kernel : (exec step _ (winTheWire 0 ++
        [Act.load 0, .examine 0, .time_out 0, .probe 0 false] ++
        [Act.probe_again 0 true])).any _ = true)
    obtain ⟨h1, h2⟩ : s.pc 0 = .enter ∧ s.using_wire = true := by simpa using hp
    refine ⟨s, hr, h1, h2, ?_⟩
    rcases run_section hr with ⟨hrel, -⟩ | ⟨-, hl⟩
    · obtain ⟨t, -, ha, -⟩ := hrel.last
      cases ha
    · exact hl.not_owned
  · obtain ⟨s, hr, hp⟩ := RunOf.exists_free (s := Sys.init 64 fun _ => 0)
      (p := fun s => s.pc 0 = .escaped ∧ s.using_wire = true)
      (by decide +kernel : (exec step _ (winTheWire 0 ++ writeOut ⟨⟨16, 1, 0⟩, [], rfl⟩ ++
        [Act.load 0, .examine 0] ++ [Act.dispatch 0])).any _ = true)
    obtain ⟨h1, h2⟩ : s.pc 0 = .escaped ∧ s.using_wire = true := by simpa using hp
    refine ⟨s, hr, h1, h2, ?_⟩
    rcases run_section hr with ⟨hrel, -⟩ | ⟨-, hl⟩
    · obtain ⟨t, -, ha, hs⟩ := hrel.last
      exact absurd h1 (not_escaped ha hs)
    · exact hl.not_owned

end tateyama_bootstrap.session_wire
