-- Whether a receiver gets stuck. `using_wire_` and the counters of the slots
-- change, and `notify_all` is called, without `mtx_receive_`, so a wake-up may
-- fall between the predicate of another thread and its blocking.
import TateyamaBootstrap.SessionSection

open runs

namespace tateyama_bootstrap.session_wire

open simple_wire

/-! ## Who sleeps and who still notifies -/

/-- The thread has seen its predicate false, and blocks or is about to. -/
def Pc.sleeps : Pc → Bool
  | .window | .blocked => true
  | _ => false

/-- The thread has stored a message or cleared the flag, and its `notify_all`
for that is still to come. -/
def Pc.owes : Pc → Bool
  | .other_release | .own_notify | .other_notify | .fail_notify => true
  | _ => false

/-- The thread holds the wire and has no header yet. -/
def Pc.awaits : Pc → Bool
  | .await | .loaded _ | .waiting | .timed_out => true
  | _ => false

/-- No thread is blocked with a true predicate that nobody notifies it of, and
none waits for the wire while its own message is in its slot. -/
structure NoStuckReceiver (s : Sys) : Prop where
  notified : ∀ t, s.pc t = .blocked → s.predicate t = true → ∃ u, (s.pc u).owes = true
  own_message : ∀ t, s.pc t = .waiting → (s.my_slot t).valid = false

/-- The last owed `notify_all` does not pass while a thread whose predicate is
true again is about to block, and no thread wins the wire while its own message
is in its slot. -/
def Timely (s : Sys) : Act → Prop
  | .notify t => (s.pc t).owes = true → ∀ u, s.pc u = .window → s.predicate u = true →
      ∃ v, v ≠ t ∧ (s.pc v).owes = true
  | .exchange t succeeds => succeeds = true → (s.my_slot t).valid = false
  | _ => True

/-! ## The invariant -/

/-- At most one thread is in the section, and then the flag is set. -/
structure Exclusive (s : Sys) : Prop where
  flag : ∀ t, (s.pc t).in_section = true → s.using_wire = true
  one : ∀ t u, (s.pc t).in_section = true → (s.pc u).in_section = true → t = u

/-- Who sleeps with a true predicate is still to be notified. -/
def Waits (s : Sys) : Prop :=
  ∀ t, (s.pc t).sleeps = true → s.predicate t = true → ∃ u, (s.pc u).owes = true

/-- Who awaits a header has no message in its slot. -/
def Awaits (s : Sys) : Prop := ∀ t, (s.pc t).awaits = true → (s.my_slot t).valid = false

theorem exclusive_init (capacity : Nat) (buffer : Nat → UInt8) :
    Exclusive (Sys.init capacity buffer) := by
  refine ⟨?_, ?_⟩
  · intro t ht
    cases ht
  · intro t u ht
    cases ht

section Steps

variable {s t : Sys} {a : Act}

theorem exclusive_step (h : Exclusive s) (hs : step s a = some t) : Exclusive t := by
  -- the threads in the section after a way out of it were there before
  have hsub : ∀ u, (t.pc u).in_section = false → (∀ v, v ≠ u → t.pc v = s.pc v) →
      ∀ v, (t.pc v).in_section = true → (s.pc v).in_section = true ∧ v ≠ u := by
    intro u hout hother v hv
    have hne : v ≠ u := by
      rintro rfl
      rw [hout] at hv
      cases hv
    exact ⟨by rw [← hother v hne]; exact hv, hne⟩
  cases step_section hs with
  | still hflag hsec =>
    refine ⟨fun u hu => ?_, fun u v hu hv => ?_⟩
    · rw [hflag]
      exact h.flag u (by rw [← hsec]; exact hu)
    · exact h.one u v (by rw [← hsec]; exact hu) (by rw [← hsec]; exact hv)
  | @acquire u hfree hset _ hother =>
    have honly : ∀ v, (t.pc v).in_section = true → v = u := by
      intro v hv
      by_contra hne
      rw [hother v hne] at hv
      have := h.flag v hv
      rw [hfree] at this
      cases this
    exact ⟨fun _ _ => hset, fun v w hv hw => by rw [honly v hv, honly w hw]⟩
  | @release u hin hout _ hother =>
    have hno : ∀ v, (t.pc v).in_section ≠ true := by
      intro v hv
      obtain ⟨hv', hne⟩ := hsub u hout hother v hv
      exact hne (h.one v u hv' hin)
    exact ⟨fun v hv => absurd hv (hno v), fun v w hv => absurd hv (hno v)⟩
  | @go_on u _ hout hflag hother =>
    refine ⟨fun v hv => ?_, fun v w hv hw => ?_⟩
    · rw [hflag]
      exact h.flag v (hsub u hout hother v hv).1
    · exact h.one v w (hsub u hout hother v hv).1 (hsub u hout hother w hw).1
  | @escape u _ _ _ hout hflag hother =>
    refine ⟨fun v hv => ?_, fun v w hv hw => ?_⟩
    · rw [hflag]
      exact h.flag v (hsub u hout hother v hv).1
    · exact h.one v w (hsub u hout hother v hv).1 (hsub u hout hother w hw).1

/-- A step of one thread that makes no predicate true and leaves no notification out. -/
theorem Waits.one (h : Waits s) {u : Nat} {p : Pc} (ht : t.pc = Function.update s.pc u p)
    (hp : p.sleeps = true → (s.pc u).sleeps = true ∨ t.predicate u = false)
    (hpred : ∀ v, (t.pc v).sleeps = true → t.predicate v = true → s.predicate v = true)
    (howes : (s.pc u).owes = true → p.owes = true) : Waits t := by
  intro v hv hpv
  have hv' : (s.pc v).sleeps = true := by
    by_cases hvu : v = u
    · subst hvu
      rw [ht, Function.update_self] at hv
      refine (hp hv).resolve_right fun hf => ?_
      rw [hf] at hpv
      cases hpv
    · rw [ht, Function.update_of_ne hvu] at hv
      exact hv
  obtain ⟨w, hw⟩ := h v hv' (hpred v hv hpv)
  refine ⟨w, ?_⟩
  rw [ht]
  by_cases hwu : w = u
  · subst hwu
    rw [Function.update_self]
    exact howes hw
  · rw [Function.update_of_ne hwu]
    exact hw

theorem predicate_mono {v : Nat} (hi : t.slot_index v = s.slot_index v)
    (hslot : ∀ i, (t.slots i).valid = true → (s.slots i).valid = true)
    (hflag : s.using_wire = true → t.using_wire = true) (h : t.predicate v = true) :
    s.predicate v = true := by
  unfold Sys.predicate Sys.my_slot at h ⊢
  rw [hi] at h
  simp only [Bool.or_eq_true, Bool.not_eq_true'] at h ⊢
  refine h.imp (hslot _) fun hf => ?_
  by_contra hn
  rw [hflag (by simpa using hn)] at hf
  cases hf

end Steps

/-! ## What the methods of a slot do to its validity -/

section Valid

variable (r : Slot)

theorem expect_valid (msg_type : UInt16) : (r.expect msg_type).valid = r.valid := by
  unfold Slot.expect
  split <;> rfl

theorem set_target_valid (head : Bool) (data : List UInt8) :
    (r.set_target head data).valid = r.valid := by
  unfold Slot.set_target
  split <;> rfl

theorem pre_receive_valid (msg_type : UInt16) (head : Bool) (length : Nat) :
    ((r.pre_receive msg_type).2.resize head length).valid = r.valid := by
  unfold Slot.resize
  rw [set_target_valid]
  exact expect_valid r msg_type

theorem consume_valid (h : r.consume.2.valid = true) : r.valid = true := by
  unfold Slot.consume at h
  split at h
  · simp only [Slot.valid, decide_eq_true_eq] at h ⊢
    omega
  · cases h

theorem receive_and_consume_valid (msg_type : UInt16)
    (h : (r.receive_and_consume msg_type).valid = true) : r.valid = true := by
  rw [← expect_valid r msg_type]
  unfold Slot.receive_and_consume at h
  dsimp only at h
  split at h
  · simp only [Slot.valid, decide_eq_true_eq] at h ⊢
    omega
  · cases h

end Valid

/-! ## What a step does to the predicates -/

/-- A step of one thread that makes no slot valid and does not clear the flag. -/
structure Lulls (s t : Sys) (u : Nat) (p : Pc) : Prop where
  pc : t.pc = Function.update s.pc u p
  valid : ∀ i, (t.slots i).valid = true → (s.slots i).valid = true
  flag : s.using_wire = true → t.using_wire = true
  index : ∀ v, v ≠ u → t.slot_index v = s.slot_index v
  own_index : t.slot_index u = s.slot_index u ∨ p.sleeps = false ∧ p.awaits = false
  sleeps : p.sleeps = true → (s.pc u).sleeps = true ∨ t.predicate u = false
  owes : (s.pc u).owes = true → p.owes = true
  awaits : p.awaits = true → (s.pc u).awaits = true

/-- The thread that an action is a step of. -/
def Act.thread : Act → Option Nat
  | .search t | .send t | .call t | .lock t | .evaluate t | .block t | .spurious t | .test t
  | .consume t | .exchange t _ | .load t | .examine t | .wake t | .time_out t | .probe t _
  | .probe_again t _ | .dispatch t | .read t | .read_chunk t | .advance t | .count t | .release t
  | .notify t => some t
  | _ => none

/-- All that a step can do to the predicates, the sleepers and the notifications. -/
inductive WakeMove (s t : Sys) : Act → Prop
  | quiet {a : Act} : t.pc = s.pc → t.slots = s.slots → t.using_wire = s.using_wire →
      t.slot_index = s.slot_index → WakeMove s t a
  | lull {a : Act} {u : Nat} {p : Pc} : a.thread = some u → Lulls s t u p → WakeMove s t a
  | win {u : Nat} : t.pc = Function.update s.pc u .await → s.pc u = .exchange →
      t.slots = s.slots → t.using_wire = true → t.slot_index = s.slot_index →
      WakeMove s t (.exchange u true)
  | store {a : Act} {u : Nat} : a.thread = some u → (s.pc u).in_section = true →
      t.pc = Function.update s.pc u .other_release → WakeMove s t a
  | release {a : Act} {u : Nat} {p : Pc} : a.thread = some u →
      t.pc = Function.update s.pc u p → p.owes = true → p.awaits = false → t.slots = s.slots →
      t.slot_index = s.slot_index → WakeMove s t a
  | notify {u : Nat} {p : Pc} : t.pc = Function.update s.notify_all.pc u p → p.sleeps = false →
      p.awaits = false → t.slots = s.slots → t.using_wire = s.using_wire →
      t.slot_index = s.slot_index → WakeMove s t (.notify u)

/-- A step that moves one thread and nothing that the predicates read. -/
theorem lulls_pc {s t : Sys} {u : Nat} {p : Pc} (hpc : t.pc = Function.update s.pc u p)
    (hslots : t.slots = s.slots) (hflag : t.using_wire = s.using_wire)
    (hidx : t.slot_index = s.slot_index)
    (hsleeps : p.sleeps = true → (s.pc u).sleeps = true ∨ t.predicate u = false)
    (howes : (s.pc u).owes = true → p.owes = true)
    (hawaits : p.awaits = true → (s.pc u).awaits = true) : Lulls s t u p := by
  refine ⟨hpc, ?_, ?_, ?_, Or.inl ?_, hsleeps, howes, hawaits⟩
  · rw [hslots]
    exact fun _ h => h
  · rw [hflag]
    exact id
  · rw [hidx]
    exact fun _ _ => rfl
  · rw [hidx]

/-- A step of a thread into a place at which it neither sleeps nor awaits. -/
theorem lulls_plain {s t : Sys} {u : Nat} {p : Pc} (hpc : t.pc = Function.update s.pc u p)
    (hslots : t.slots = s.slots) (hflag : t.using_wire = s.using_wire)
    (hidx : t.slot_index = s.slot_index) (hp : p.sleeps = false ∧ p.awaits = false)
    (howes : (s.pc u).owes = false) : Lulls s t u p := by
  refine lulls_pc hpc hslots hflag hidx ?_ ?_ ?_
  · rw [hp.1]
    exact fun h => by cases h
  · rw [howes]
    exact fun h => by cases h
  · rw [hp.2]
    exact fun h => by cases h

/-- A step that changes one slot, and does not make it valid. -/
theorem lulls_slot {s t : Sys} {u i : Nat} {p : Pc} {r : Slot}
    (hpc : t.pc = Function.update s.pc u p) (hslots : t.slots = Function.update s.slots i r)
    (hr : r.valid = true → (s.slots i).valid = true) (hflag : t.using_wire = s.using_wire)
    (hidx : ∀ v, v ≠ u → t.slot_index v = s.slot_index v)
    (hp : p.sleeps = false ∧ p.awaits = false) (howes : (s.pc u).owes = false) :
    Lulls s t u p := by
  refine ⟨hpc, ?_, ?_, hidx, Or.inr hp, ?_, ?_, ?_⟩
  · intro k hk
    rw [hslots] at hk
    by_cases hki : k = i
    · subst hki
      rw [Function.update_self] at hk
      exact hr hk
    · rwa [Function.update_of_ne hki] at hk
  · rw [hflag]
    exact id
  · rw [hp.1]
    exact fun h => by cases h
  · rw [howes]
    exact fun h => by cases h
  · rw [hp.2]
    exact fun h => by cases h

theorem step_wake {s t : Sys} {a : Act} (h : step s a = some t) : WakeMove s t a := by
  cases a with
  | search u =>
    simp only [step] at h
    split at h
    · rename_i i hp
      split at h
      · split at h
        · cases h
          exact .lull rfl (lulls_plain rfl rfl rfl rfl ⟨rfl, rfl⟩ (by rw [hp]; rfl))
        · cases h
          exact .lull rfl (lulls_slot (p := .send) rfl rfl (fun hv => hv) rfl
            (fun v hv => Function.update_of_ne hv _ _) ⟨rfl, rfl⟩ (by rw [hp]; rfl))
      · cases h
        exact .lull rfl (lulls_plain rfl rfl rfl rfl ⟨rfl, rfl⟩ (by rw [hp]; rfl))
    · cases h
  | send u | call u | spurious u =>
    simp only [step] at h
    split at h
    · rename_i hp
      cases h
      exact .lull rfl (lulls_plain rfl rfl rfl rfl ⟨rfl, rfl⟩ (by rw [hp]; rfl))
    · cases h
  | lock u =>
    simp only [step] at h
    split at h
    · rename_i hp
      split at h
      · cases h
      · cases h
        exact .lull rfl (lulls_plain (p := .evaluate) rfl rfl rfl rfl ⟨rfl, rfl⟩ (by rw [hp]; rfl))
    · cases h
  | evaluate u =>
    simp only [step] at h
    split at h
    · rename_i hp
      split at h
      · cases h
        exact .lull rfl (lulls_plain (p := .passed) rfl rfl rfl rfl ⟨rfl, rfl⟩ (by rw [hp]; rfl))
      · rename_i hpred
        cases h
        have hfalse : s.predicate u = false := by simpa using hpred
        refine .lull rfl (lulls_pc rfl rfl rfl rfl (fun _ => Or.inr hfalse) ?_ ?_)
        · rw [hp]
          exact fun h => by cases h
        · exact fun h => by cases h
    · cases h
  | block u =>
    simp only [step] at h
    split at h
    · rename_i hp
      cases h
      refine .lull rfl (lulls_pc (p := .blocked) rfl rfl rfl rfl ?_ ?_ ?_)
      · rw [hp]
        exact fun _ => Or.inl rfl
      · rw [hp]
        exact fun h => by cases h
      · exact fun h => by cases h
    · cases h
  | test u =>
    simp only [step] at h
    split at h
    · rename_i hp
      split at h <;> cases h <;>
        exact .lull rfl (lulls_plain rfl rfl rfl rfl ⟨rfl, rfl⟩ (by rw [hp]; rfl))
    · cases h
  | consume u =>
    simp only [step] at h
    split at h
    · rename_i hp
      cases h
      exact .lull rfl (lulls_slot (p := .notify) rfl rfl (consume_valid _) rfl (fun _ _ => rfl)
        ⟨rfl, rfl⟩ (by rw [hp]; rfl))
    · cases h
  | exchange u succeeds =>
    simp only [step] at h
    split at h
    · rename_i hp
      cases succeeds with
      | true =>
        simp only [if_true] at h
        split at h
        · cases h
        · cases h
          exact .win rfl hp rfl rfl rfl
      | false =>
        cases h
        exact .lull rfl (lulls_plain rfl rfl rfl rfl ⟨rfl, rfl⟩ (by rw [hp]; rfl))
    · cases h
  | load u =>
    simp only [step] at h
    split at h
    · rename_i hp
      cases h
      refine .lull rfl (lulls_pc rfl rfl rfl rfl ?_ ?_ ?_)
      · exact fun h => by cases h
      · rw [hp]
        exact fun h => by cases h
      · rw [hp]
        exact fun _ => rfl
    · cases h
  | examine u =>
    simp only [step] at h
    split at h
    · rename_i f hp
      split at h
      · obtain ⟨wire, -, rfl⟩ := Option.map_eq_some_iff.mp h
        exact .lull rfl (lulls_plain (p := .header) rfl rfl rfl rfl ⟨rfl, rfl⟩ (by rw [hp]; rfl))
      · split at h <;> cases h
        · exact .lull rfl (lulls_plain (p := .header) rfl rfl rfl rfl ⟨rfl, rfl⟩ (by rw [hp]; rfl))
        · refine .lull rfl (lulls_pc rfl rfl rfl rfl ?_ ?_ ?_)
          · exact fun h => by cases h
          · rw [hp]
            exact fun h => by cases h
          · rw [hp]
            exact fun _ => rfl
    · cases h
  | wake u | time_out u =>
    simp only [step] at h
    split at h
    · rename_i hp
      split at h <;> cases h
      refine .lull rfl (lulls_pc rfl rfl rfl rfl ?_ ?_ ?_)
      · exact fun h => by cases h
      · rw [hp]
        exact fun h => by cases h
      · rw [hp]
        exact fun _ => rfl
    · cases h
  | probe u alive =>
    simp only [step] at h
    split at h
    · rename_i hp
      cases h
      refine .lull rfl (lulls_pc rfl rfl rfl rfl ?_ ?_ ?_)
      · cases alive <;> exact fun h => by cases h
      · rw [hp]
        exact fun h => by cases h
      · rw [hp]
        exact fun _ => rfl
    · cases h
  | probe_again u alive =>
    simp only [step] at h
    split at h
    · rename_i hp
      cases h
      exact .lull rfl (lulls_plain rfl rfl rfl rfl (by cases alive <;> exact ⟨rfl, rfl⟩)
        (by rw [hp]; rfl))
    · cases h
  | dispatch u =>
    simp only [step] at h
    split at h
    · rename_i hp
      split at h
      · cases h
        exact .lull rfl (lulls_plain rfl rfl rfl rfl ⟨rfl, rfl⟩ (by rw [hp]; rfl))
      · split at h
        · cases h
          refine .lull rfl (lulls_slot (p := .other _ _) rfl rfl ?_ rfl (fun _ _ => rfl) ⟨rfl, rfl⟩
            (by rw [hp]; rfl))
          rw [pre_receive_valid]
          exact id
        · cases h
          exact .lull rfl (lulls_plain rfl rfl rfl rfl ⟨rfl, rfl⟩ (by rw [hp]; rfl))
    · cases h
  | read u | read_chunk u =>
    obtain ⟨wire, -, rfl, -⟩ := read_step_keeps h
    exact .quiet rfl rfl rfl rfl
  | advance u =>
    simp only [step] at h
    split at h
    · cases h
    · rename_i t' hread
      obtain ⟨wire, -, rfl, -⟩ := read_step_keeps hread
      split at h
      · rename_i hp
        cases h
        exact .lull rfl (lulls_plain rfl rfl rfl rfl ⟨rfl, rfl⟩ (by rw [hp]; rfl))
      · rename_i j head _ hp
        cases h
        refine .lull rfl (lulls_slot (p := .other_count j head) rfl rfl ?_ rfl (fun _ _ => rfl)
          ⟨rfl, rfl⟩ (by rw [hp]; rfl))
        rw [set_target_valid]
        exact id
      · cases h
        exact .quiet rfl rfl rfl rfl
  | count u =>
    simp only [step] at h
    split at h
    · rename_i d hp
      cases h
      exact .lull rfl (lulls_slot (p := .own_release) rfl rfl (receive_and_consume_valid _ _) rfl
        (fun _ _ => rfl) ⟨rfl, rfl⟩ (by rw [hp]; rfl))
    · rename_i j head hp
      cases h
      exact .store rfl (by rw [hp]; rfl : (s.pc u).in_section = true) rfl
    · cases h
  | release u =>
    simp only [step] at h
    split at h
    · cases h
      exact .release (p := .own_notify) rfl rfl rfl rfl rfl rfl
    · cases h
      exact .release (p := .other_notify) rfl rfl rfl rfl rfl rfl
    · cases h
      exact .release (p := .fail_notify) rfl rfl rfl rfl rfl rfl
    · cases h
  | notify u =>
    simp only [step] at h
    split at h <;> cases h <;> exact .notify rfl rfl rfl rfl rfl rfl
  | write m | answer u m | server x =>
    obtain ⟨wire, -, rfl⟩ := Option.map_eq_some_iff.mp h
    exact .quiet rfl rfl rfl rfl
  | close | notify_shutdown =>
    cases h
    exact .quiet rfl rfl rfl rfl

/-! ## Over every run -/

section Run

variable {s t : Sys} {a : Act}

theorem notify_pc {u v : Nat} {p q : Pc} (ht : t.pc = Function.update s.notify_all.pc u p)
    (hv : v ≠ u) (hq : t.pc v = q) (hne : q ≠ .enter) : s.pc v = q := by
  rw [ht, Function.update_of_ne hv] at hq
  simp only [Sys.notify_all] at hq
  split at hq
  · exact absurd hq.symm hne
  · exact hq

theorem sleeps_cases {p : Pc} (h : p.sleeps = true) : p = .window ∨ p = .blocked := by
  cases p <;> first | exact Or.inl rfl | exact Or.inr rfl | cases h

theorem awaits_in_section {p : Pc} (h : p.awaits = true) : p.in_section = true := by
  cases p <;> first | rfl | cases h

theorem waits_step (h : Waits s) (ha : Timely s a) (hs : step s a = some t) : Waits t := by
  cases step_wake hs with
  | quiet hpc hslots hflag hidx =>
    intro v hv hp
    rw [hpc] at hv ⊢
    refine h v hv (predicate_mono (by rw [hidx]) ?_ ?_ hp)
    · rw [hslots]
      exact fun _ hi => hi
    · rw [hflag]
      exact id
  | @lull _ u p _ hl =>
    refine h.one hl.pc hl.sleeps ?_ hl.owes
    intro v hv
    refine predicate_mono ?_ hl.valid hl.flag
    by_cases hvu : v = u
    · subst hvu
      refine hl.own_index.resolve_right fun hp => ?_
      rw [hl.pc, Function.update_self, hp.1] at hv
      cases hv
    · exact hl.index v hvu
  | @win u hpc hp hslots hflag hidx =>
    refine h.one hpc (fun h => by cases h) ?_ (fun h => by rw [hp] at h; cases h)
    intro v _
    refine predicate_mono (by rw [hidx]) ?_ (fun _ => hflag)
    rw [hslots]
    exact fun _ hi => hi
  | @store _ u _ _ hpc =>
    intro v _ _
    exact ⟨u, by rw [hpc, Function.update_self]; rfl⟩
  | @release _ u p _ hpc howes _ _ _ =>
    intro v _ _
    exact ⟨u, by rw [hpc, Function.update_self]; exact howes⟩
  | @notify u p hpc hp _ hslots hflag hidx =>
    intro v hv hpv
    have hvu : v ≠ u := by
      rintro rfl
      rw [hpc, Function.update_self, hp] at hv
      cases hv
    have hpred : s.predicate v = true := by
      refine predicate_mono (by rw [hidx]) ?_ ?_ hpv
      · rw [hslots]
        exact fun _ hi => hi
      · rw [hflag]
        exact id
    -- everyone who was blocked is awake, so `v` has not blocked yet
    have hsv : s.pc v = .window := by
      rcases sleeps_cases hv with htv | htv
      · exact notify_pc hpc hvu htv (by simp)
      · rw [hpc, Function.update_of_ne hvu] at htv
        simp only [Sys.notify_all] at htv
        split at htv
        · cases htv
        · rename_i hb
          exact absurd htv hb
    have hother : ∀ w, w ≠ u → (s.pc w).owes = true → (t.pc w).owes = true := by
      intro w hw ho
      rw [hpc, Function.update_of_ne hw]
      simp only [Sys.notify_all]
      split
      · rename_i hb
        rw [hb] at ho
        cases ho
      · exact ho
    obtain ⟨w, hw⟩ := h v (by rw [hsv]; rfl) hpred
    by_cases hwu : w = u
    · subst hwu
      obtain ⟨w', hne, hw'⟩ := ha hw v hsv hpred
      exact ⟨w', hother w' hne hw'⟩
    · exact ⟨w, hother w hwu hw⟩

theorem awaits_step (h : Awaits s) (he : Exclusive s) (ha : Timely s a) (hs : step s a = some t) :
    Awaits t := by
  cases step_wake hs with
  | quiet hpc hslots _ hidx =>
    intro v hv
    unfold Sys.my_slot
    rw [hslots, hidx]
    rw [hpc] at hv
    exact h v hv
  | @win u hpc _ hslots _ hidx =>
    intro v hv
    unfold Sys.my_slot
    rw [hslots, hidx]
    by_cases hvu : v = u
    · subst hvu
      exact ha rfl
    · rw [hpc, Function.update_of_ne hvu] at hv
      exact h v hv
  | @lull _ u p _ hl =>
    intro v hv
    have hinv : (s.my_slot v).valid = false ∧ t.slot_index v = s.slot_index v := by
      by_cases hvu : v = u
      · subst hvu
        rw [hl.pc, Function.update_self] at hv
        refine ⟨h v (hl.awaits hv), hl.own_index.resolve_right fun hp => ?_⟩
        rw [hp.2] at hv
        cases hv
      · rw [hl.pc, Function.update_of_ne hvu] at hv
        exact ⟨h v hv, hl.index v hvu⟩
    unfold Sys.my_slot at hinv ⊢
    rw [hinv.2]
    by_contra hn
    have := hl.valid _ (by simpa using hn)
    rw [hinv.1] at this
    cases this
  | @store _ u _ hin hpc =>
    -- the thread that stores holds the wire, so nobody else awaits
    intro v hv
    by_cases hvu : v = u
    · subst hvu
      rw [hpc, Function.update_self] at hv
      cases hv
    · rw [hpc, Function.update_of_ne hvu] at hv
      exact absurd (he.one v u (awaits_in_section hv) hin) hvu
  | @release _ u p _ hpc _ hp hslots hidx =>
    intro v hv
    unfold Sys.my_slot
    rw [hslots, hidx]
    by_cases hvu : v = u
    · subst hvu
      rw [hpc, Function.update_self, hp] at hv
      cases hv
    · rw [hpc, Function.update_of_ne hvu] at hv
      exact h v hv
  | @notify u p hpc _ hp hslots _ hidx =>
    intro v hv
    unfold Sys.my_slot
    rw [hslots, hidx]
    by_cases hvu : v = u
    · subst hvu
      rw [hpc, Function.update_self, hp] at hv
      cases hv
    · have hsame : s.pc v = t.pc v := notify_pc hpc hvu rfl fun he => by
        rw [he] at hv
        cases hv
      exact h v (by rw [hsame]; exact hv)

end Run

/-- All that is kept by the steps of a timely run. -/
structure Awake (s : Sys) : Prop where
  exclusive : Exclusive s
  waits : Waits s
  awaits : Awaits s

theorem awake_init (capacity : Nat) (buffer : Nat → UInt8) : Awake (Sys.init capacity buffer) := by
  refine ⟨exclusive_init capacity buffer, ?_, ?_⟩
  · intro t ht
    cases ht
  · intro t ht
    cases ht

theorem awake_step {s t : Sys} {a : Act} (h : Awake s) (ha : Timely s a) (hs : step s a = some t) :
    Awake t :=
  ⟨exclusive_step h.exclusive hs, waits_step h.waits ha hs, awaits_step h.awaits h.exclusive ha hs⟩

/-- No receiver is stuck at any moment of a run in which no wake-up passes a
thread on its way to block, and no thread wins the wire over its own message. -/
theorem no_receiver_is_stuck (capacity : Nat) (buffer : Nat → UInt8) (acts : List Act) (s : Sys)
    (hr : RunOf step Timely (Sys.init capacity buffer) acts s) : NoStuckReceiver s := by
  have h := hr.inv (awake_init capacity buffer) fun _ _ _ h ha hs => awake_step h ha hs
  refine ⟨?_, ?_⟩
  · intro t ht hp
    exact h.waits t (by rw [ht]; rfl) hp
  · intro t ht
    exact h.awaits t (by rw [ht]; rfl)

/-! ## Runs of a few threads -/

/-- The action is not a step of thread `n` or of a later one. -/
def Act.below (n : Nat) (a : Act) : Bool := a.thread.all fun t => decide (t < n)

/-- The threads from `n` on have not begun. -/
def Idle (n : Nat) (s : Sys) : Prop := ∀ v, n ≤ v → s.pc v = .search 0

theorem idle_step {n : Nat} {s t : Sys} {a : Act} (h : Idle n s) (ha : a.below n = true)
    (hs : step s a = some t) : Idle n t := by
  intro v hv
  have hne : ∀ u, a.thread = some u → v ≠ u := by
    rintro u hu rfl
    simp only [Act.below, hu, Option.all_some, decide_eq_true_eq] at ha
    omega
  have hsv := h v hv
  cases step_wake hs with
  | quiet hpc _ _ _ =>
    rw [hpc]
    exact hsv
  | lull hu hl =>
    rw [hl.pc, Function.update_of_ne (hne _ hu)]
    exact hsv
  | win hpc _ _ _ _ =>
    rw [hpc, Function.update_of_ne (hne _ rfl)]
    exact hsv
  | store hu _ hpc =>
    rw [hpc, Function.update_of_ne (hne _ hu)]
    exact hsv
  | release hu hpc _ _ _ _ =>
    rw [hpc, Function.update_of_ne (hne _ hu)]
    exact hsv
  | notify hpc _ _ _ _ _ =>
    rw [hpc, Function.update_of_ne (hne _ rfl)]
    simp [Sys.notify_all, hsv]

theorem run_idle {n capacity : Nat} {buffer : Nat → UInt8} {C : Sys → Act → Prop}
    {acts : List Act} {s : Sys} (hr : RunOf step C (Sys.init capacity buffer) acts s)
    (h : acts.all (Act.below n) = true) : Idle n s := by
  induction hr with
  | nil => exact fun _ _ => rfl
  | snoc _ _ hs ih =>
    rw [List.all_append, Bool.and_eq_true] at h
    refine idle_step (ih h.1) ?_ hs
    simpa using h.2

/-- A test for `Timely` in a run of the first `n` threads. -/
def timely (n : Nat) (s : Sys) : Act → Bool
  | .notify _ => (List.range n).all fun u => s.pc u != .window
  | .exchange t _ => !(s.my_slot t).valid
  | _ => true

theorem timely_of_test {n : Nat} (s : Sys) (a : Act) (hi : Idle n s)
    (h : (a.below n && timely n s a) = true) : Timely s a := by
  rw [Bool.and_eq_true] at h
  cases a with
  | notify t =>
    intro _ u hu
    have hun : u < n := by
      by_contra hge
      rw [hi u (Nat.le_of_not_lt hge)] at hu
      cases hu
    have hall := List.all_eq_true.mp h.2 u (List.mem_range.mpr hun)
    simp [hu] at hall
  | exchange t succeeds => exact fun _ => by simpa [timely] using h.2
  | _ => trivial

/-- Thread 1 blocks, thread 0 stores its message, and thread 1 wakes up and takes it. -/
def blockAndWake : List Act :=
  winTheWire 0 ++ [Act.search 1, .search 1, .send 1, .call 1, .lock 1, .evaluate 1, .block 1] ++
    writeOut ⟨⟨1, 1, 1⟩, [9], rfl⟩ ++ readHead 0 ++
    [Act.lock 1, .evaluate 1, .test 1, .consume 1, .notify 1]

theorem no_receiver_is_stuck_when_it_blocks_in_time :
    ∃ s, RunOf step Timely (Sys.init 64 fun _ => 0) blockAndWake s ∧ s.results 1 = [[9]] ∧
      NoStuckReceiver s := by
  obtain ⟨s, hr, hp⟩ := RunOf.exists_of_exec_inv (s := Sys.init 64 fun _ => 0) (I := Idle 2)
    (c := fun s a => a.below 2 && timely 2 s a) (fun _ _ => rfl)
    (fun _ _ _ hi ha hs => idle_step hi (Bool.and_eq_true_iff.mp ha).1 hs) timely_of_test
    (p := fun s => s.results 1 = [[9]])
    (by decide +kernel : (exec (guarded step _) _ blockAndWake).any _ = true)
  exact ⟨s, hr, by simpa using hp, no_receiver_is_stuck 64 _ _ s hr⟩

/-- Thread 1 sees the wire in use, thread 0 releases it and notifies, and then
thread 1 blocks. Or thread 1 finds its slot empty, thread 0 stores its message,
and then thread 1 wins the wire and waits for a message that it has already. -/
theorem a_receiver_is_stuck :
    (∃ s, RunOf step Free (Sys.init 64 fun _ => 0)
      (winTheWire 0 ++ [Act.search 1, .search 1, .send 1, .call 1, .lock 1, .evaluate 1] ++
        writeOut ⟨⟨0, 1, 0⟩, [], rfl⟩ ++ readHead 0 ++ [Act.block 1]) s ∧
      s.pc 1 = .blocked ∧ s.predicate 1 = true ∧ (∀ u, (s.pc u).owes = false) ∧
      ¬ NoStuckReceiver s) ∧
    ∃ s, RunOf step Free (Sys.init 64 fun _ => 0)
      ([Act.search 0, .send 0, .call 0, .lock 0, .evaluate 0, .test 0,
        .search 1, .search 1, .send 1, .call 1, .lock 1, .evaluate 1, .test 1, .exchange 0 true] ++
        writeOut ⟨⟨1, 1, 1⟩, [9], rfl⟩ ++ readHead 0 ++
        [Act.exchange 1 true, .load 1, .examine 1]) s ∧
      s.pc 1 = .waiting ∧ (s.my_slot 1).valid = true ∧ ¬ NoStuckReceiver s := by
  refine ⟨?_, ?_⟩
  · obtain ⟨s, hr, hp⟩ := RunOf.exists_free (s := Sys.init 64 fun _ => 0)
      (p := fun s => s.pc 0 = .ready ∧ s.pc 1 = .blocked ∧ s.predicate 1 = true)
      (by decide +kernel : (exec step _ (winTheWire 0 ++
        [Act.search 1, .search 1, .send 1, .call 1, .lock 1, .evaluate 1] ++
        writeOut ⟨⟨0, 1, 0⟩, [], rfl⟩ ++ readHead 0 ++ [Act.block 1])).any _ = true)
    obtain ⟨h0, h1, h2⟩ : s.pc 0 = .ready ∧ s.pc 1 = .blocked ∧ s.predicate 1 = true := by
      simpa using hp
    have hidle : Idle 2 s := run_idle hr (by decide)
    have howes : ∀ u, (s.pc u).owes = false := by
      intro u
      rcases Nat.lt_or_ge u 2 with hu | hu
      · obtain rfl | rfl : u = 0 ∨ u = 1 := by omega
        · rw [h0]
          rfl
        · rw [h1]
          rfl
      · rw [hidle u hu]
        rfl
    refine ⟨s, hr, h1, h2, howes, ?_⟩
    intro h
    obtain ⟨u, hu⟩ := h.notified 1 h1 h2
    rw [howes u] at hu
    cases hu
  · obtain ⟨s, hr, hp⟩ := RunOf.exists_free (s := Sys.init 64 fun _ => 0)
      (p := fun s => s.pc 1 = .waiting ∧ (s.my_slot 1).valid = true)
      (by decide +kernel : (exec step _ ([Act.search 0, .send 0, .call 0, .lock 0, .evaluate 0,
        .test 0, .search 1, .search 1, .send 1, .call 1, .lock 1, .evaluate 1, .test 1,
        .exchange 0 true] ++ writeOut ⟨⟨1, 1, 1⟩, [9], rfl⟩ ++ readHead 0 ++
        [Act.exchange 1 true, .load 1, .examine 1])).any _ = true)
    obtain ⟨h1, h2⟩ : s.pc 1 = .waiting ∧ (s.my_slot 1).valid = true := by simpa using hp
    refine ⟨s, hr, h1, h2, ?_⟩
    intro h
    have := h.own_message 1 h1
    rw [h2] at this
    cases this

end tateyama_bootstrap.session_wire
