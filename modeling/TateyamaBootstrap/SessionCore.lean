-- What the messages of a session depend on: the wire, the slots, and for each
-- thread whether it holds a header, a message or none. `CoreStep` says once all
-- that a step can do to this part. The laws on what the threads receive rest on
-- it and never look into `step` again.
import TateyamaBootstrap.SessionWakeups
import TateyamaBootstrap.WireFifo

open runs

namespace tateyama_bootstrap.simple_wire

variable {T : Type} [WireHeader T] {s t : Sys T}

/-! ## Steps inside a message -/

/-- Nothing of a message begins or ends: no header is taken, no payload completed. -/
structure Inner (s t : Sys T) : Prop where
  sent : t.sent = s.sent
  received : t.received = s.received
  header_received : t.wire.header_received = s.wire.header_received
  reader : t.reader = .idle ↔ s.reader = .idle

theorem inner_step {a : Act T} (h : step s a = some t) (hwrite : ∀ m, a ≠ .write m)
    (hcopy : a ≠ .copy_header) (hdone : a = .advance → t.reader ≠ .idle) : Inner s t := by
  cases a with
  | write m => exact absurd rfl (hwrite m)
  | copy_header => exact absurd rfl hcopy
  | wait =>
    simp only [step] at h
    split at h
    · split at h <;> cases h
      exact ⟨rfl, rfl, rfl, Iff.rfl⟩
    · cases h
  | check | publish =>
    simp only [step] at h
    split at h
    · split at h <;> cases h <;> exact ⟨rfl, rfl, rfl, Iff.rfl⟩
    · cases h
  | store =>
    simp only [step] at h
    split at h
    · rename_i j hw
      cases h
      obtain ⟨buffer, hstore⟩ := store_keeps j s.wire
      exact ⟨rfl, rfl, by rw [hstore], Iff.rfl⟩
    · cases h
  | close =>
    cases h
    exact ⟨rfl, rfl, rfl, Iff.rfl⟩
  | read =>
    simp only [step] at h
    split at h
    · rename_i hr
      cases h
      exact ⟨rfl, rfl, rfl, by simp [hr]⟩
    · cases h
  | read_chunk =>
    simp only [step] at h
    split at h
    · rename_i hr
      split at h <;> cases h
      exact ⟨rfl, rfl, rfl, by simp [hr]⟩
    · cases h
  | advance =>
    simp only [step] at h
    split at h
    · rename_i hr
      split at h <;> cases h
      · exact ⟨rfl, rfl, rfl, by simp [hr]⟩
      · exact absurd rfl (hdone rfl)
    · cases h

/-! ## Steps at the ends of a message -/

/-- A message is begun. -/
theorem step_write {m : Message T} (h : step s (.write m) = some t) :
    t.sent = s.sent ++ [m] ∧ t.received = s.received ∧ t.wire = s.wire ∧ t.reader = s.reader := by
  simp only [step] at h
  split at h
  · cases h
    exact ⟨rfl, rfl, rfl, rfl⟩
  · cases h

/-- A header is copied. -/
theorem step_copy_header (h : step s .copy_header = some t) :
    t.sent = s.sent ∧ t.received = s.received ∧ s.reader = .idle ∧ t.reader = .header := by
  simp only [step] at h
  split at h
  · rename_i hr
    split at h <;> cases h
    exact ⟨rfl, rfl, hr, rfl⟩
  · cases h

/-- A message is complete. -/
theorem step_complete (h : step s .advance = some t) (hr : t.reader = .idle) :
    t.sent = s.sent ∧ ∃ top, t.received = s.received ++ [(s.wire.header_received, top)] ∧
      t.wire.header_received = s.wire.header_received := by
  simp only [step] at h
  split at h
  · split at h <;> cases h
    · cases hr
    · exact ⟨rfl, _, rfl, rfl⟩
  · cases h

end tateyama_bootstrap.simple_wire

namespace tateyama_bootstrap.session_wire

open simple_wire

/-! ## The core -/

/-- What a thread has in hand. -/
inductive View
  /-- `search_slot` has not given it a slot. -/
  | no_slot
  /-- It is outside of `receive`. -/
  | out
  /-- It is in `receive`, without a header. -/
  | inside
  | consume
  | header
  | own
  | own_count (res_message : List UInt8)
  | other (j : Nat) (head : Bool)
  | other_count (j : Nat) (head : Bool)
deriving DecidableEq

def Pc.view : Pc → View
  | .search _ | .no_slot => .no_slot
  | .send | .ready | .notify | .own_release | .own_notify | .fail_release | .fail_notify | .threw
  | .escaped => .out
  | .consume => .consume
  | .header => .header
  | .own => .own
  | .own_count res_message => .own_count res_message
  | .other j head => .other j head
  | .other_count j head => .other_count j head
  | _ => .inside

/-- The thread has a header that is not yet counted in a slot. -/
def View.busy : View → Bool
  | .header | .own | .own_count _ | .other _ _ | .other_count _ _ => true
  | _ => false

theorem in_section_of_busy {p : Pc} (h : p.view.busy = true) : p.in_section = true := by
  cases p <;> first | rfl | cases h

structure Core where
  wire : simple_wire.Sys ResponseHeader
  slots : Nat → Slot
  slot_index : Nat → Nat
  view : Nat → View
  results : Nat → List (List UInt8)
  answers : Nat → List (Message ResponseHeader)
  stores : List (Nat × List UInt8)
  counted : Nat

def Sys.core (s : Sys) : Core where
  wire := s.wire
  slots := s.slots
  slot_index := s.slot_index
  view := fun t => (s.pc t).view
  results := s.results
  answers := s.answers
  stores := s.stores
  counted := s.counted

namespace Core

def set_view (c : Core) (t : Nat) (v : View) : Core := { c with view := Function.update c.view t v }

def set_slot (c : Core) (i : Nat) (r : Slot) : Core :=
  { c with slots := Function.update c.slots i r }

def my_slot (c : Core) (t : Nat) : Slot := c.slots (c.slot_index t)

def header_received (c : Core) : ResponseHeader := c.wire.wire.header_received

variable (c : Core) {t u : Nat} (v : View)

@[simp] theorem set_view_of_ne (h : u ≠ t) : (c.set_view t v).view u = c.view u := by
  simp [set_view, h]

end Core

/-- What `read` has copied, once it has returned. -/
def last_read (w : simple_wire.Sys ResponseHeader) : List UInt8 :=
  (w.received.getLast?.map Prod.snd).getD []

/-- All that a step can do to the core, while a header that a thread takes from
the wire is one that was written. -/
inductive CoreStep (c : Core) : Act → Core → Prop
  | still {a : Act} : CoreStep c a c
  | call {u : Nat} : c.view u = .out → CoreStep c (.call u) (c.set_view u .inside)
  /-- The handler of `receive` gives up. -/
  | leave {a : Act} {u : Nat} : c.view u = .inside → CoreStep c a (c.set_view u .out)
  | wire {a : Act} {b : simple_wire.Act ResponseHeader} {w : simple_wire.Sys ResponseHeader} :
      simple_wire.step c.wire b = some w → Inner c.wire w → CoreStep c a { c with wire := w }
  | write {m : Message ResponseHeader} {w : simple_wire.Sys ResponseHeader} :
      simple_wire.step c.wire (.write m) = some w → CoreStep c (.write m) { c with wire := w }
  | answer {u : Nat} {m : Message ResponseHeader} {w : simple_wire.Sys ResponseHeader} :
      simple_wire.step c.wire (.write m) = some w →
      CoreStep c (.answer u m)
        { c with wire := w, answers := Function.update c.answers u (c.answers u ++ [m]) }
  | take {u i : Nat} : c.view u = .no_slot → i < slot_size → (c.slots i).in_use = false →
      CoreStep c (.search u)
        { (c.set_slot i { c.slots i with in_use := true }).set_view u .out with
          slot_index := Function.update c.slot_index u i }
  | test {u : Nat} : c.view u = .inside → (c.my_slot u).valid = true →
      CoreStep c (.test u) (c.set_view u .consume)
  | consume {u : Nat} : c.view u = .consume →
      CoreStep c (.consume u)
        { (c.set_slot (c.slot_index u) (c.my_slot u).consume.2).set_view u .out with
          results := Function.update c.results u (c.results u ++ [(c.my_slot u).consume.1]) }
  | copy {u : Nat} {w : simple_wire.Sys ResponseHeader} : c.view u = .inside →
      (∀ v, (c.view v).busy = false) → simple_wire.step c.wire .copy_header = some w →
      CoreStep c (.examine u) { c.set_view u .header with wire := w }
  | own {u : Nat} : c.view u = .header → c.header_received.idx.toNat = c.slot_index u →
      CoreStep c (.dispatch u) (c.set_view u .own)
  | other {u j : Nat} {p : Bool × Slot} : c.view u = .header → c.header_received.idx.toNat = j →
      j ≠ c.slot_index u → j < slot_size → p = (c.slots j).pre_receive c.header_received.type →
      CoreStep c (.dispatch u)
        ((c.set_slot j (p.2.resize p.1 c.header_received.length.toNat)).set_view u (.other j p.1))
  | escape {u : Nat} : c.view u = .header → slot_size ≤ c.header_received.idx.toNat →
      CoreStep c (.dispatch u) (c.set_view u .out)
  | done_own {u : Nat} {w : simple_wire.Sys ResponseHeader} : c.view u = .own →
      simple_wire.step c.wire .advance = some w → w.reader = .idle →
      CoreStep c (.advance u) { c.set_view u (.own_count (last_read w)) with wire := w }
  | done_other {u j : Nat} {head : Bool} {w : simple_wire.Sys ResponseHeader} :
      c.view u = .other j head → simple_wire.step c.wire .advance = some w → w.reader = .idle →
      CoreStep c (.advance u)
        { (c.set_slot j ((c.slots j).set_target head (last_read w))).set_view u
          (.other_count j head) with wire := w }
  | count_own {u : Nat} {res_message : List UInt8} : c.view u = .own_count res_message →
      CoreStep c (.count u)
        { (c.set_slot (c.slot_index u)
            ((c.my_slot u).receive_and_consume c.header_received.type)).set_view u .out with
          results := Function.update c.results u (c.results u ++ [res_message])
          counted := c.counted + 1 }
  | count_other {u j : Nat} {head : Bool} : c.view u = .other_count j head →
      CoreStep c (.count u)
        { (c.set_slot j (c.slots j).post_receive).set_view u .inside with
          stores := c.stores ++ [(j, (c.slots j).target head)]
          counted := c.counted + 1 }

/-- A thread that has seen the wire closed or shut down finds a header on it. -/
def HeaderThere (s : Sys) : Act → Prop
  | .examine t => s.pc t = .loaded true → WireHeader.size ResponseHeader ≤ s.wire.wire.stored
  | _ => True

/-! ## The steps -/

section Steps

variable {s t : Sys} {a : Act} {u : Nat} {p : Pc}

theorem view_update (pc : Nat → Pc) (u : Nat) (p : Pc) :
    (fun v => (Function.update pc u p v).view) =
      Function.update (fun v => (pc v).view) u p.view := by
  funext v
  by_cases hv : v = u
  · subst hv
    simp
  · simp [hv]

/-- The core after a step that moves one thread. -/
theorem core_view (ht : t.pc = Function.update s.pc u p) :
    t.core = { t.core with view := Function.update s.core.view u p.view } := by
  have h : t.core.view = Function.update s.core.view u p.view := by
    simp only [Sys.core, ht, view_update]
  rw [← h]

theorem core_moves (ht : t.pc = Function.update s.pc u p)
    (h : CoreStep s.core a { t.core with view := Function.update s.core.view u p.view }) :
    CoreStep s.core a t.core := by
  rw [core_view ht]
  exact h

/-- A step of a thread that has the same in hand after it. -/
theorem core_still (ht : t.core = (s.set_pc u p).core) (hp : p.view = (s.pc u).view) :
    CoreStep s.core a t.core := by
  have h : t.core = s.core := by
    rw [ht, core_view (s := s) (p := p) rfl, hp]
    exact congrArg (fun view => { s.core with view }) (Function.update_eq_self u s.core.view)
  rw [h]
  exact .still

/-- A wake-up gives nothing into anyone's hand. -/
theorem core_notify (hp : p.view = (s.pc u).view) :
    CoreStep s.core a (s.notify_all.set_pc u p).core := by
  have h : s.notify_all.core = s.core := by
    have hview : (fun v => (s.notify_all.pc v).view) = fun v => (s.pc v).view := by
      funext v
      simp only [Sys.notify_all]
      split
      · rename_i hb
        rw [hb]
        rfl
      · rfl
    exact congrArg (fun view => { s.core with view }) hview
  have hu : p.view = (s.notify_all.pc u).view := by
    rw [hp]
    exact (congrArg (fun c => c.view u) h).symm
  rw [← h]
  exact core_still rfl hu

theorem view_of_pc (hp : s.pc u = p) : s.core.view u = p.view := by
  rw [← hp]
  rfl

/-- While a thread reads the wire, no other one has a header. -/
theorem nobody_busy (he : Exclusive s) (hin : (s.pc u).in_section = true)
    (hu : (s.core.view u).busy = false) (v : Nat) : (s.core.view v).busy = false := by
  by_contra hv
  have hbusy : (s.core.view v).busy = true := by simpa using hv
  have heq := he.one v u (in_section_of_busy hbusy) hin
  subst heq
  exact hv hu

/-- `await` on a closed wire without a header puts no message on it. -/
theorem step_phantom (hh : ¬ HeaderThere s a) (h : step s a = some t) :
    t.wire.sent = s.wire.sent := by
  cases a with
  | examine u =>
    simp only [HeaderThere, Classical.not_imp] at hh
    simp only [step, hh.1] at h
    rw [if_neg hh.2] at h
    cases h
    rfl
  | _ => exact absurd trivial hh

theorem step_core (he : Exclusive s) (hh : HeaderThere s a) (h : step s a = some t) :
    CoreStep s.core a t.core := by
  cases a with
  | search u =>
    simp only [step] at h
    split at h
    · rename_i i hp
      split at h
      · rename_i hi
        split at h
        · cases h
          exact core_still rfl (by simp [hp, Pc.view])
        · rename_i huse
          cases h
          apply core_moves (p := .send) rfl
          exact .take (view_of_pc hp) hi (Bool.eq_false_iff.mpr huse)
      · cases h
        exact core_still rfl (by simp [hp, Pc.view])
    · cases h
  | send u | block u | spurious u | load u =>
    simp only [step] at h
    split at h
    · rename_i hp
      cases h
      exact core_still rfl (by simp [hp, Pc.view])
    · cases h
  | call u =>
    simp only [step] at h
    split at h
    · rename_i hp
      cases h
      apply core_moves rfl
      exact .call (view_of_pc hp)
    · cases h
  | lock u | wake u | time_out u =>
    simp only [step] at h
    split at h
    · rename_i hp
      split at h <;> cases h
      exact core_still rfl (by simp [hp, Pc.view])
    · cases h
  | evaluate u =>
    simp only [step] at h
    split at h
    · rename_i hp
      split at h <;> cases h <;> exact core_still rfl (by simp [hp, Pc.view])
    · cases h
  | test u =>
    simp only [step] at h
    split at h
    · rename_i hp
      split at h
      · rename_i hv
        cases h
        apply core_moves rfl
        exact .test (view_of_pc hp) hv
      · cases h
        exact core_still rfl (by simp [hp, Pc.view])
    · cases h
  | consume u =>
    simp only [step] at h
    split at h
    · rename_i hp
      cases h
      apply core_moves (p := .notify) rfl
      exact .consume (view_of_pc hp)
    · cases h
  | exchange u succeeds =>
    simp only [step] at h
    split at h
    · rename_i hp
      split at h
      · split at h <;> cases h
        exact core_still rfl (by simp [hp, Pc.view])
      · cases h
        exact core_still rfl (by simp [hp, Pc.view])
    · cases h
  | examine u =>
    simp only [step] at h
    split at h
    · rename_i f hp
      split at h
      · obtain ⟨w, hw, rfl⟩ := Option.map_eq_some_iff.mp h
        have hbusy := nobody_busy (u := u) he (by simp [hp, Pc.in_section])
          (by rw [view_of_pc hp]; rfl)
        apply core_moves (p := .header) rfl
        exact .copy (view_of_pc hp) hbusy hw
      · rename_i hlt
        split at h
        · rename_i hf
          exact absurd (hh (by rw [hp, hf])) hlt
        · cases h
          exact core_still rfl (by simp [hp, Pc.view])
    · cases h
  | probe u alive =>
    simp only [step] at h
    split at h
    · rename_i hp
      cases h
      exact core_still rfl (by cases alive <;> simp [hp, Pc.view])
    · cases h
  | probe_again u alive =>
    simp only [step] at h
    split at h
    · rename_i hp
      cases h
      cases alive with
      | true => exact core_still rfl (by simp [hp, Pc.view])
      | false =>
        apply core_moves rfl
        exact .leave (view_of_pc hp)
    · cases h
  | dispatch u =>
    simp only [step] at h
    split at h
    · rename_i hp
      split at h
      · rename_i hidx
        cases h
        apply core_moves rfl
        exact .own (view_of_pc hp) hidx
      · rename_i hidx
        split at h
        · rename_i hlt
          cases h
          apply core_moves rfl
          exact .other (view_of_pc hp) rfl hidx hlt rfl
        · rename_i hge
          cases h
          apply core_moves rfl
          exact .escape (view_of_pc hp) (Nat.le_of_not_lt hge)
    · cases h
  | read u | read_chunk u =>
    obtain ⟨w, hw, rfl, -⟩ := read_step_keeps h
    exact .wire hw (inner_step hw (by simp) (by simp) (by simp))
  | advance u =>
    simp only [step] at h
    split at h
    · cases h
    · rename_i t' hread
      obtain ⟨w, hw, rfl, hor⟩ := read_step_keeps hread
      split at h
      · rename_i hr hp
        cases h
        apply core_moves rfl
        exact .done_own (view_of_pc hp) hw hr
      · rename_i j head hr hp
        cases h
        apply core_moves rfl
        exact .done_other (view_of_pc hp) hw hr
      · rename_i hown hother
        cases h
        refine .wire hw (inner_step hw (by simp) (by simp) fun _ hr => ?_)
        rcases hor with hp | ⟨j, head, hp⟩
        · exact hown hr hp
        · exact hother j head hr hp
  | count u =>
    simp only [step] at h
    split at h
    · rename_i d hp
      cases h
      apply core_moves (p := .own_release) rfl
      exact .count_own (view_of_pc hp)
    · rename_i j head hp
      cases h
      apply core_moves (p := .other_release) rfl
      exact .count_other (view_of_pc hp)
    · cases h
  | release u =>
    simp only [step] at h
    split at h
    · rename_i hp
      cases h
      exact core_still rfl (by simp [hp, Pc.view])
    · rename_i hp
      cases h
      exact core_still rfl (by simp [hp, Pc.view])
    · rename_i hp
      cases h
      exact core_still rfl (by simp [hp, Pc.view])
    · cases h
  | notify u =>
    simp only [step] at h
    split at h
    · rename_i hp
      cases h
      exact core_notify (by simp [hp, Pc.view])
    · rename_i hp
      cases h
      exact core_notify (by simp [hp, Pc.view])
    · rename_i hp
      cases h
      exact core_notify (by simp [hp, Pc.view])
    · rename_i hp
      cases h
      exact core_notify (by simp [hp, Pc.view])
    · cases h
  | write m =>
    obtain ⟨w, hw, rfl⟩ := Option.map_eq_some_iff.mp h
    exact .write hw
  | answer u m =>
    obtain ⟨w, hw, rfl⟩ := Option.map_eq_some_iff.mp h
    exact .answer hw
  | server b =>
    obtain ⟨w, hw, rfl⟩ := Option.map_eq_some_iff.mp h
    refine .wire hw (inner_step hw ?_ ?_ ?_) <;> cases b <;> simp [ServerAct.act]
  | close =>
    cases h
    have hw : simple_wire.step s.core.wire .close = some { s.core.wire with closed := true } := rfl
    exact .wire hw (inner_step hw (by simp) (by simp) (by simp))
  | notify_shutdown =>
    cases h
    exact .still

end Steps

/-! ## What every core step keeps -/

section Wire

variable {c d : Core} {a : Act}

theorem core_wire (h : CoreStep c a d) :
    d.wire = c.wire ∨ ∃ b, simple_wire.step c.wire b = some d.wire := by
  cases h with
  | wire hw _ | write hw | answer hw | copy _ _ hw | done_own _ hw _ | done_other _ hw _ =>
    exact Or.inr ⟨_, hw⟩
  | _ => exact Or.inl rfl

theorem core_sent (h : CoreStep c a d) : c.wire.sent <+: d.wire.sent := by
  rcases core_wire h with hw | ⟨b, hw⟩
  · exact ⟨[], by simp [hw]⟩
  · rcases step_sent hw with hs | ⟨m, -, hs⟩
    · exact ⟨[], by simp [hs]⟩
    · exact ⟨[m], hs.symm⟩

theorem core_inv (h : CoreStep c a d) (hi : Inv c.wire)
    (htotal : (stream d.wire.sent).length < 2 ^ 64) : Inv d.wire := by
  rcases core_wire h with hw | ⟨b, hw⟩
  · rw [hw]
    exact hi
  · exact inv_step hi hw htotal

theorem session_total {s t : Sys} (he : Exclusive s) (h : step s a = some t) :
    (stream s.wire.sent).length ≤ (stream t.wire.sent).length := by
  by_cases hh : HeaderThere s a
  · obtain ⟨ms, hms⟩ : s.wire.sent <+: t.wire.sent := core_sent (step_core he hh h)
    rw [← hms, stream_append, List.length_append]
    exact Nat.le_add_right _ _
  · rw [step_phantom hh h]

end Wire

/-- What `read` has copied is the message whose header was taken. -/
theorem last_read_sent {s w : simple_wire.Sys ResponseHeader} (hi : Inv w)
    (h : simple_wire.step s .advance = some w) (hr : w.reader = .idle) :
    ∃ m, w.sent[s.received.length]? = some m ∧ m.header = s.wire.header_received ∧
      m.payload = last_read w := by
  obtain ⟨-, top, hrec, -⟩ := step_complete h hr
  have hlast : last_read w = top := by simp [last_read, hrec]
  have hget : w.received[s.received.length]? = some (s.wire.header_received, top) := by
    simp [hrec]
  rw [hi.received, List.getElem?_map, Option.map_eq_some_iff] at hget
  obtain ⟨m, hm, hparts⟩ := hget
  obtain ⟨hheader, hpayload⟩ := Prod.mk.inj hparts
  refine ⟨m, ?_, hheader, hpayload.trans hlast.symm⟩
  rwa [List.getElem?_take_of_lt (by simp [hrec])] at hm

/-- No two threads have a header in hand. -/
def OneBusy (c : Core) : Prop :=
  ∀ u v, (c.view u).busy = true → (c.view v).busy = true → u = v

theorem Exclusive.one_busy {s : Sys} (h : Exclusive s) : OneBusy s.core := by
  intro u v hu hv
  exact h.one u v (in_section_of_busy hu) (in_section_of_busy hv)

/-- The rule for a run: a fact that the steps keep holds after it, and each step
may rely on the queue that the wire is and on its one reader. -/
theorem run_core {C : Sys → Act → Prop} {I : Sys → Prop} {capacity : Nat}
    {buffer : Nat → UInt8} {acts : List Act} {s : Sys}
    (hsize : WireHeader.size ResponseHeader < capacity) (hcap : capacity < 2 ^ 64)
    (hr : RunOf step C (Sys.init capacity buffer) acts s)
    (htotal : (stream s.wire.sent).length < 2 ^ 64) (h0 : I (Sys.init capacity buffer))
    (hh : ∀ s a, I s → C s a → HeaderThere s a)
    (hs : ∀ s a t, I s → C s a → step s a = some t → CoreStep s.core a t.core →
      OneBusy s.core → Inv s.wire → Inv t.wire → I t) :
    Inv s.wire ∧ I s := by
  have h : Exclusive s ∧ ((stream s.wire.sent).length < 2 ^ 64 → Inv s.wire ∧ I s) := by
    refine hr.inv (I := fun s => Exclusive s ∧
      ((stream s.wire.sent).length < 2 ^ 64 → Inv s.wire ∧ I s)) ?_ ?_
    · exact ⟨exclusive_init capacity buffer, fun _ => ⟨inv_init buffer _ hsize hcap, h0⟩⟩
    · intro s a t ⟨he, ih⟩ hc hst
      refine ⟨exclusive_step he hst, fun ht => ?_⟩
      obtain ⟨hi, hI⟩ := ih (Nat.lt_of_le_of_lt (session_total he hst) ht)
      have hcore := step_core he (hh s a hI hc) hst
      have hi' : Inv t.wire := core_inv hcore hi ht
      exact ⟨hi', hs s a t hI hc hst hcore he.one_busy hi hi'⟩
  exact h.2 htotal

end tateyama_bootstrap.session_wire
