-- Where the messages of a session come from. `await` answers a closed or
-- shut-down wire that is empty with the header (0, 0, 0), and nothing tells
-- `receive` that this is no message. As long as that header is not taken, and
-- no message is taken out of a slot that another thread is filling, every
-- message that `receive` gives or stores was written by the server.
import TateyamaBootstrap.SessionCore

open runs

namespace tateyama_bootstrap.session_wire

open simple_wire

/-! ## Messages that were written -/

/-- The server has begun to write `data` for slot `j`. -/
def Wrote (c : Core) (j : Nat) (data : List UInt8) : Prop :=
  ∃ m ∈ c.wire.sent, m.header.idx.toNat = j ∧ m.payload = data

/-- The message of a slot that the thread is filling. -/
def View.filling : View → Option (Nat × Bool)
  | .other j head | .other_count j head => some (j, head)
  | _ => none

/-- Somebody is filling the head or the body of slot `j`. -/
def Filling (c : Core) (j : Nat) (head : Bool) : Prop :=
  ∃ u, (c.view u).filling = some (j, head)

/-- What a slot holds was written, where `W` tells what was written for it and
`F` which of its two messages is being filled. -/
structure Slot.Traced (W : List UInt8 → Prop) (F : Bool → Prop) (r : Slot) : Prop where
  blank : r.expected = 0 → r.received = 0
  head : r.expected = 2 → r.consumed = 0 → 0 < r.received → W r.body_head_message
  body : (if r.expected = 2 then 1 else 0) < r.received → ¬ F false → W r.body_message
  filling : ∀ head, F head → r.expected ≠ 0 ∧ (head = true ↔ r.expected = 2 ∧ r.received = 0)

/-- What the thread has in hand comes from the wire. -/
def InHand (c : Core) (u : Nat) : View → Prop
  | .no_slot => c.results u = []
  | .header => c.wire.reader ≠ .idle
  | .own => c.wire.reader ≠ .idle ∧ c.header_received.idx.toNat = c.slot_index u
  | .own_count res_message => Wrote c (c.slot_index u) res_message
  | .other j _ => c.wire.reader ≠ .idle ∧ c.header_received.idx.toNat = j
  | .other_count j head => Wrote c j ((c.slots j).target head)
  | _ => True

structure Traced (c : Core) : Prop where
  in_hand : ∀ u, InHand c u (c.view u)
  slots : ∀ j, (c.slots j).Traced (Wrote c j) (Filling c j)
  results : ∀ u, ∀ data ∈ c.results u, Wrote c (c.slot_index u) data
  stores : ∀ p ∈ c.stores, Wrote c p.1 p.2

/-! ## One slot -/

theorem Slot.target_set_target (r : Slot) (head : Bool) (data : List UInt8) :
    (r.set_target head data).target head = data := by
  cases head <;> rfl

namespace Slot.Traced

variable {W W' : List UInt8 → Prop} {F F' : Bool → Prop} {r : Slot}

theorem new (h : ∀ head, ¬ F head) : Slot.new.Traced W F := by
  refine ⟨?_, ?_, ?_, ?_⟩
  · simp [Slot.new]
  · simp [Slot.new]
  · simp [Slot.new]
  · intro head hf
    exact absurd hf (h head)

theorem mono (h : r.Traced W F) (hW : ∀ data, W data → W' data) (hF : ∀ head, F' head ↔ F head) :
    r.Traced W' F' := by
  refine ⟨h.blank, ?_, ?_, ?_⟩
  · intro h1 h2 h3
    exact hW _ (h.head h1 h2 h3)
  · intro h1 h2
    rw [hF] at h2
    exact hW _ (h.body h1 h2)
  · intro head hf
    rw [hF] at hf
    exact h.filling head hf

theorem take (h : r.Traced W F) (in_use : Bool) : ({ r with in_use } : Slot).Traced W F :=
  ⟨h.blank, h.head, h.body, h.filling⟩

theorem expect (h : r.Traced W F) (hF : ∀ head, ¬ F head) (msg_type : UInt16) :
    (r.expect msg_type).Traced W F ∧ (r.expect msg_type).expected ≠ 0 := by
  unfold Slot.expect
  split
  · rename_i h0
    have hr := h.blank h0
    refine ⟨⟨?_, ?_, ?_, ?_⟩, ?_⟩
    · simp [hr]
    · simp [hr]
    · simp [hr]
    · intro head hf
      exact absurd hf (hF head)
    · dsimp only
      split <;> simp
  · rename_i h0
    exact ⟨h, h0⟩

/-- A slot that is being filled may hold anything in the place that is filled. -/
theorem set_target (h : r.Traced W F) {head : Bool} (hf : F head) (data : List UInt8) :
    (r.set_target head data).Traced W F := by
  obtain ⟨-, hiff⟩ := h.filling head hf
  unfold Slot.set_target
  split
  · rename_i hh
    obtain ⟨-, h0⟩ := hiff.mp hh
    refine ⟨h.blank, ?_, h.body, h.filling⟩
    simp [h0]
  · rename_i hh
    refine ⟨h.blank, h.head, ?_, h.filling⟩
    intro _ hn
    rw [Bool.not_eq_true] at hh
    rw [hh] at hf
    exact absurd hf hn

theorem pre_receive (h : r.Traced W F) (hF : ∀ head, ¬ F head) (msg_type : UInt16) (length : Nat)
    (hF' : ∀ head, F' head ↔ head = (r.pre_receive msg_type).1) :
    ((r.pre_receive msg_type).2.resize (r.pre_receive msg_type).1 length).Traced W F' := by
  obtain ⟨h1, h0⟩ := h.expect hF msg_type
  have h2 : (r.pre_receive msg_type).2.Traced W F' := by
    refine ⟨h1.blank, h1.head, ?_, ?_⟩
    · intro hb _
      exact h1.body hb (hF false)
    · intro head hf
      rw [hF'] at hf
      subst hf
      exact ⟨h0, by simp [Slot.pre_receive]⟩
  exact h2.set_target ((hF' _).mpr rfl) _

theorem post_receive (h : r.Traced W F) {head : Bool} (hf : F head) (hw : W (r.target head))
    (hF' : ∀ head, ¬ F' head) : r.post_receive.Traced W F' := by
  obtain ⟨h0, hiff⟩ := h.filling head hf
  refine ⟨?_, ?_, ?_, ?_⟩
  · intro h1
    exact absurd h1 h0
  · intro h2 hc _
    change r.expected = 2 at h2
    change r.consumed = 0 at hc
    change W r.body_head_message
    by_cases hr : r.received = 0
    · have hh : head = true := hiff.mpr ⟨h2, hr⟩
      simpa [Slot.target, hh] using hw
    · exact h.head h2 hc (by omega)
  · intro hb _
    change (if r.expected = 2 then 1 else 0) < r.received + 1 at hb
    change W r.body_message
    have hh : head = false := by
      rw [← Bool.not_eq_true, hiff]
      intro ⟨h2, hr⟩
      rw [if_pos h2] at hb
      omega
    simpa [Slot.target, hh] using hw
  · intro head' hf'
    exact absurd hf' (hF' head')

/-- `consume` gives a written message, unless it takes the body while that is filled. -/
theorem consume (h : r.Traced W F) (hv : r.valid = true)
    (hF : ¬ (r.expected = 2 ∧ r.consumed = 0) → ∀ head, ¬ F head) :
    W r.consume.1 ∧ r.consume.2.Traced W F := by
  have hlt : r.consumed < r.received := by simpa [Slot.valid] using hv
  unfold Slot.consume
  split
  · rename_i h2
    refine ⟨h.head h2.1 h2.2 (by omega), h.blank, ?_, h.body, h.filling⟩
    simp
  · rename_i h2
    have hn := hF h2
    refine ⟨h.body ?_ (hn false), Slot.Traced.new hn⟩
    split
    · rename_i he
      have hc : r.consumed ≠ 0 := fun hc => h2 ⟨he, hc⟩
      omega
    · omega

theorem receive_and_consume (h : r.Traced W F) (hF : ∀ head, ¬ F head) (msg_type : UInt16) :
    (r.receive_and_consume msg_type).Traced W F := by
  obtain ⟨h1, h0⟩ := h.expect hF msg_type
  unfold Slot.receive_and_consume
  dsimp only
  split
  · rename_i h2
    refine ⟨?_, ?_, ?_, ?_⟩
    · simp [h2.1]
    · simp
    · simp [h2.1, h2.2]
    · intro head hf
      exact absurd hf (hF head)
  · exact Slot.Traced.new hF

end Slot.Traced

/-! ## The core -/

section Core

variable {c d : Core} {u : Nat} {v : View} {w : simple_wire.Sys ResponseHeader}

theorem busy_of_filling {p : Nat × Bool} (h : v.filling = some p) : v.busy = true := by
  cases v <;> first | rfl | cases h

theorem OneBusy.alone (ho : OneBusy c) (hu : (c.view u).busy = true) (w : Nat) (hw : w ≠ u) :
    (c.view w).busy = false := by
  by_contra hb
  exact hw (ho w u (by simpa using hb) hu)

/-- The one thread that has a header is the only one that fills a slot. -/
theorem filling_alone (halone : ∀ w, w ≠ u → (c.view w).busy = false) (j : Nat) (head : Bool) :
    Filling c j head ↔ (c.view u).filling = some (j, head) := by
  refine ⟨?_, fun h => ⟨u, h⟩⟩
  rintro ⟨w, hw⟩
  by_cases hwu : w = u
  · rw [← hwu]
    exact hw
  · have hbusy := busy_of_filling hw
    rw [halone w hwu] at hbusy
    cases hbusy

theorem filling_same (hu : (c.view u).filling = none) (hv : v.filling = none)
    (hview : d.view = Function.update c.view u v) (j : Nat) (head : Bool) :
    Filling d j head ↔ Filling c j head := by
  unfold Filling
  rw [hview]
  apply exists_congr
  intro w
  by_cases hw : w = u
  · subst hw
    simp [hu, hv]
  · simp [hw]

theorem Wrote.mono (hsent : c.wire.sent <+: d.wire.sent) {j : Nat} {data : List UInt8}
    (h : Wrote c j data) : Wrote d j data := by
  obtain ⟨m, hm, hj, hd⟩ := h
  exact ⟨m, hsent.subset hm, hj, hd⟩

/-- Nothing is asked of a thread without a header but that it has no result yet. -/
theorem InHand.idle (h : InHand c u v) (hv : v.busy = false) (hres : d.results u = c.results u) :
    InHand d u v := by
  cases v with
  | no_slot => exact hres.trans h
  | out | inside | consume => trivial
  | header | own | own_count | other | other_count => cases hv

/-- What is in hand stays there while the header is kept, and the message that
is filled is left alone. -/
theorem InHand.mono (h : InHand c u v) (hsent : c.wire.sent <+: d.wire.sent)
    (hheader : d.header_received = c.header_received)
    (hreader : c.wire.reader ≠ .idle → d.wire.reader ≠ .idle)
    (hres : d.results u = c.results u) (hidx : d.slot_index u = c.slot_index u)
    (htarget : ∀ j head, v = .other_count j head →
      (d.slots j).target head = (c.slots j).target head) : InHand d u v := by
  cases v with
  | no_slot | out | inside | consume => exact h.idle rfl hres
  | header => exact hreader h
  | own =>
    obtain ⟨h1, h2⟩ := h
    exact ⟨hreader h1, by rw [hheader, hidx, h2]⟩
  | own_count data =>
    change Wrote d (d.slot_index u) data
    rw [hidx]
    exact Wrote.mono hsent h
  | other j head =>
    obtain ⟨h1, h2⟩ := h
    exact ⟨hreader h1, by rw [hheader, h2]⟩
  | other_count j head =>
    change Wrote d j ((d.slots j).target head)
    rw [htarget j head rfl]
    exact Wrote.mono hsent h

theorem in_hand_update (hview : d.view = Function.update c.view u v) (hu : InHand d u v)
    (h : ∀ w, w ≠ u → InHand d w (c.view w)) (w : Nat) : InHand d w (d.view w) := by
  rw [hview]
  by_cases hw : w = u
  · subst hw
    rw [Function.update_self]
    exact hu
  · rw [Function.update_of_ne hw]
    exact h w hw

theorem traced_update {slots : Nat → Slot} {i : Nat} {r : Slot} {W : Nat → List UInt8 → Prop}
    {F : Nat → Bool → Prop} (hr : r.Traced (W i) (F i))
    (h : ∀ j, j ≠ i → (slots j).Traced (W j) (F j)) (j : Nat) :
    (Function.update slots i r j).Traced (W j) (F j) := by
  by_cases hj : j = i
  · subst hj
    rw [Function.update_self]
    exact hr
  · rw [Function.update_of_ne hj]
    exact h j hj

/-- A step of a thread that changes nothing but what it has in hand. -/
theorem Traced.set_view (h : Traced c) (hu : (c.view u).filling = none) (hv : v.filling = none)
    (hin : InHand c u v) : Traced (c.set_view u v) := by
  refine ⟨in_hand_update rfl hin fun w _ => h.in_hand w, ?_, h.results, h.stores⟩
  intro j
  exact (h.slots j).mono (fun _ hd => hd) (filling_same hu hv rfl j)

/-- A step of the wire that keeps the header, and the reader at its work. -/
theorem Traced.set_wire (h : Traced c) (hsent : c.wire.sent <+: w.sent)
    (hheader : w.wire.header_received = c.wire.wire.header_received)
    (hreader : c.wire.reader ≠ .idle → w.reader ≠ .idle) : Traced { c with wire := w } := by
  have hw : ∀ j data, Wrote c j data → Wrote { c with wire := w } j data :=
    fun _ _ hd => hd.mono hsent
  refine ⟨?_, ?_, ?_, ?_⟩
  · intro u
    exact (h.in_hand u).mono hsent hheader hreader rfl rfl fun _ _ _ => rfl
  · intro j
    exact (h.slots j).mono (hw j) fun _ => Iff.rfl
  · intro u data hd
    exact hw _ _ (h.results u data hd)
  · intro p hp
    exact hw _ _ (h.stores p hp)

/-- A step of the thread that has the header, or takes it. -/
theorem Traced.solo (h : Traced c) (halone : ∀ w, w ≠ u → (c.view w).busy = false)
    (hsent : c.wire.sent <+: d.wire.sent) (hview : d.view = Function.update c.view u v)
    (hidx : d.slot_index = c.slot_index) (hres : ∀ w, w ≠ u → d.results w = c.results w)
    (hin : InHand d u v)
    (hslots : ∀ j, (d.slots j).Traced (Wrote d j) fun head => v.filling = some (j, head))
    (hown : ∀ data ∈ d.results u, Wrote d (d.slot_index u) data)
    (hstores : ∀ p ∈ d.stores, Wrote d p.1 p.2) : Traced d := by
  have hself : d.view u = v := by
    rw [hview]
    simp
  have hother : ∀ w, w ≠ u → d.view w = c.view w := by
    intro w hw
    rw [hview]
    simp [hw]
  refine ⟨in_hand_update hview hin ?_, ?_, ?_, hstores⟩
  · intro w hw
    exact (h.in_hand w).idle (halone w hw) (hres w hw)
  · intro j
    refine (hslots j).mono (fun _ hd => hd) fun head => ?_
    rw [← hself]
    apply filling_alone
    intro w hw
    rw [hother w hw]
    exact halone w hw
  · intro w data hd
    by_cases hw : w = u
    · subst hw
      exact hown data hd
    · rw [hres w hw] at hd
      rw [hidx]
      exact (h.results w data hd).mono hsent

/-- The message is still in the slot when it is taken, and nobody fills the slot
when its last message is taken. -/
def Undisturbed (c : Core) : Act → Prop
  | .consume u => (c.my_slot u).valid = true ∧
      (¬ ((c.my_slot u).expected = 2 ∧ (c.my_slot u).consumed = 0) →
        ∀ head, ¬ Filling c (c.slot_index u) head)
  | _ => True

theorem Traced.take (h : Traced c) {i : Nat} (hu : c.view u = .no_slot) :
    Traced { (c.set_slot i { c.slots i with in_use := true }).set_view u .out with
      slot_index := Function.update c.slot_index u i } := by
  have hnone : c.results u = [] := by
    have hin := h.in_hand u
    rw [hu] at hin
    exact hin
  have hidx : ∀ w, w ≠ u → Function.update c.slot_index u i w = c.slot_index w :=
    fun w hw => Function.update_of_ne hw _ _
  refine ⟨in_hand_update rfl trivial ?_, ?_, ?_, h.stores⟩
  · intro w hw
    refine (h.in_hand w).mono List.prefix_rfl rfl id rfl (hidx w hw) ?_
    intro j head _
    by_cases hj : j = i
    · subst hj
      simp [Core.set_view, Core.set_slot, Slot.target]
    · simp [Core.set_view, Core.set_slot, hj]
  · have hsame : ∀ j, (c.slots j).Traced (Wrote c j)
        (Filling (c.set_view u .out) j) := fun j =>
      (h.slots j).mono (fun _ hd => hd) (filling_same (by rw [hu]; rfl) rfl rfl j)
    exact traced_update ((hsame i).take true) fun j _ => hsame j
  · intro w data hd
    by_cases hw : w = u
    · subst hw
      change data ∈ c.results w at hd
      simp [hnone] at hd
    · change Wrote c (Function.update c.slot_index u i w) data
      rw [hidx w hw]
      exact h.results w data hd

theorem Traced.consume (h : Traced c) (hu : c.view u = .consume)
    (ha : Undisturbed c (.consume u)) :
    Traced { (c.set_slot (c.slot_index u) (c.my_slot u).consume.2).set_view u .out with
      results := Function.update c.results u (c.results u ++ [(c.my_slot u).consume.1]) } := by
  obtain ⟨hvalid, hfree⟩ := ha
  obtain ⟨hw, hslot⟩ := (h.slots (c.slot_index u)).consume hvalid hfree
  have hres : ∀ w, w ≠ u → Function.update c.results u
      (c.results u ++ [(c.my_slot u).consume.1]) w = c.results w :=
    fun w hw => Function.update_of_ne hw _ _
  refine ⟨in_hand_update rfl trivial ?_, ?_, ?_, h.stores⟩
  · intro w hne
    refine (h.in_hand w).mono List.prefix_rfl rfl id (hres w hne) rfl ?_
    intro j head hv
    by_cases hj : j = c.slot_index u
    · subst hj
      -- the slot is being filled, so this was its head, and both messages stay
      have hhead : (c.my_slot u).expected = 2 ∧ (c.my_slot u).consumed = 0 := by
        by_contra hn
        exact hfree hn head ⟨w, by rw [hv]; rfl⟩
      have hstay : (c.my_slot u).consume.2.target head = (c.my_slot u).target head := by
        simp [Slot.consume, hhead, Slot.target]
      simpa [Core.set_view, Core.set_slot, Core.my_slot] using hstay
    · simp [Core.set_view, Core.set_slot, hj]
  · have hsame : ∀ j head, Filling (c.set_view u .out) j head ↔ Filling c j head :=
      filling_same (by rw [hu]; rfl) rfl rfl
    refine traced_update (hslot.mono (fun _ hd => hd) (hsame _)) ?_
    intro j _
    exact (h.slots j).mono (fun _ hd => hd) (hsame j)
  · intro w data hd
    by_cases hwu : w = u
    · subst hwu
      simp only [Function.update_self, List.mem_append, List.mem_singleton] at hd
      rcases hd with hd | rfl
      · exact h.results w data hd
      · exact hw
    · change data ∈ Function.update c.results u _ w at hd
      rw [hres w hwu] at hd
      exact h.results w data hd

theorem traced_step {a : Act} (h : Traced c) (ho : OneBusy c) (ha : Undisturbed c a)
    (hi : Inv d.wire) (hs : CoreStep c a d) : Traced d := by
  have hsent := core_sent hs
  cases hs with
  | still => exact h
  | @call u hu =>
    apply h.set_view
    · rw [hu]
      rfl
    · rfl
    · trivial
  | @leave a u hu =>
    apply h.set_view
    · rw [hu]
      rfl
    · rfl
    · trivial
  | @test u hu hv =>
    apply h.set_view
    · rw [hu]
      rfl
    · rfl
    · trivial
  | @own u hu hidx =>
    have hin := h.in_hand u
    rw [hu] at hin
    apply h.set_view
    · rw [hu]
      rfl
    · rfl
    · exact ⟨hin, hidx⟩
  | @escape u hu hge =>
    apply h.set_view
    · rw [hu]
      rfl
    · rfl
    · trivial
  | @wire a b w hw hinner =>
    apply h.set_wire hsent hinner.header_received
    rw [not_imp_not]
    exact hinner.reader.mp
  | @write m w hw =>
    obtain ⟨-, -, hwire, hreader⟩ := step_write hw
    exact h.set_wire hsent (by rw [hwire]) (by rw [hreader]; exact id)
  | @answer u m w hw =>
    obtain ⟨-, -, hwire, hreader⟩ := step_write hw
    have h' := h.set_wire hsent (by rw [hwire]) (by rw [hreader]; exact id)
    exact ⟨h'.in_hand, h'.slots, h'.results, h'.stores⟩
  | take hu _ _ => exact h.take hu
  | consume hu => exact h.consume hu ha
  | @copy u w hu hfree hw =>
    obtain ⟨-, -, -, hreader⟩ := step_copy_header hw
    have hnone : ∀ j head, ¬ Filling c j head := by
      intro j head ⟨v, hv⟩
      have hb := busy_of_filling hv
      rw [hfree v] at hb
      cases hb
    refine h.solo (u := u) (fun v _ => hfree v) hsent rfl rfl (fun _ _ => rfl) ?_ ?_ ?_ ?_
    · change w.reader ≠ .idle
      simp [hreader]
    · intro j
      refine (h.slots j).mono (fun _ hd => hd.mono hsent) fun head => ?_
      simp [hnone, View.filling]
    · intro data hd
      exact (h.results u data hd).mono hsent
    · intro p hp
      exact (h.stores p hp).mono hsent
  | @other u j p hu hidx hne hlt hp =>
    have halone := ho.alone (u := u) (by rw [hu]; rfl)
    have hnone : ∀ k head, ¬ Filling c k head := by
      intro k head hf
      rw [filling_alone halone, hu] at hf
      cases hf
    have hin := h.in_hand u
    rw [hu] at hin
    refine h.solo halone hsent rfl rfl (fun _ _ => rfl) ⟨hin, hidx⟩ ?_ (h.results u) h.stores
    subst hp
    refine traced_update ((h.slots j).pre_receive (hnone j) _ _ ?_) ?_
    · intro head
      simp [View.filling, eq_comm]
    · intro k hk
      refine (h.slots k).mono (fun _ hd => hd) fun head => ?_
      simp [View.filling, hnone, hk.symm]
  | @done_own u w hu hw hr =>
    have halone := ho.alone (u := u) (by rw [hu]; rfl)
    have hin := h.in_hand u
    rw [hu] at hin
    obtain ⟨m, hm, hheader, hpayload⟩ := last_read_sent hi hw hr
    refine h.solo halone hsent rfl rfl (fun _ _ => rfl) ?_ ?_ ?_ ?_
    · refine ⟨m, List.mem_of_getElem? hm, ?_, hpayload⟩
      rw [hheader]
      exact hin.2
    · intro j
      refine (h.slots j).mono (fun _ hd => hd.mono hsent) fun head => ?_
      simp [filling_alone halone, hu, View.filling]
    · intro data hd
      exact (h.results u data hd).mono hsent
    · intro p hp
      exact (h.stores p hp).mono hsent
  | @done_other u j head w hu hw hr =>
    have halone := ho.alone (u := u) (by rw [hu]; rfl)
    have hin := h.in_hand u
    rw [hu] at hin
    obtain ⟨m, hm, hheader, hpayload⟩ := last_read_sent hi hw hr
    refine h.solo halone hsent rfl rfl (fun _ _ => rfl) ?_ ?_ ?_ ?_
    · refine ⟨m, List.mem_of_getElem? hm, ?_, ?_⟩
      · rw [hheader]
        exact hin.2
      · rw [hpayload]
        simp [Core.set_view, Core.set_slot, Slot.target_set_target]
    · refine traced_update ?_ ?_
      · have hfill : Filling c j head := ⟨u, by rw [hu]; rfl⟩
        refine ((h.slots j).set_target hfill _).mono (fun _ hd => hd.mono hsent) fun head' => ?_
        simp [filling_alone halone, hu, View.filling]
      · intro k _
        refine (h.slots k).mono (fun _ hd => hd.mono hsent) fun head' => ?_
        simp [filling_alone halone, hu, View.filling]
    · intro data hd
      exact (h.results u data hd).mono hsent
    · intro p hp
      exact (h.stores p hp).mono hsent
  | @count_own u data hu =>
    have halone := ho.alone (u := u) (by rw [hu]; rfl)
    have hnone : ∀ k head, ¬ Filling c k head := by
      intro k head hf
      rw [filling_alone halone, hu] at hf
      cases hf
    have hin := h.in_hand u
    rw [hu] at hin
    refine h.solo halone hsent rfl rfl ?_ trivial ?_ ?_ h.stores
    · intro w hw
      exact Function.update_of_ne hw _ _
    · have hsame : ∀ k head, View.out.filling = some (k, head) ↔ Filling c k head := by
        intro k head
        simp [View.filling, hnone]
      refine traced_update (((h.slots _).receive_and_consume (hnone _) _).mono
        (fun _ hd => hd) (hsame _)) ?_
      intro k _
      exact (h.slots k).mono (fun _ hd => hd) (hsame k)
    · intro data' hd
      simp only [Function.update_self, List.mem_append, List.mem_singleton] at hd
      rcases hd with hd | rfl
      · exact h.results u data' hd
      · exact hin
  | @count_other u j head hu =>
    have halone := ho.alone (u := u) (by rw [hu]; rfl)
    have hin := h.in_hand u
    rw [hu] at hin
    refine h.solo halone hsent rfl rfl (fun _ _ => rfl) trivial ?_ (h.results u) ?_
    · refine traced_update ?_ ?_
      · have hfill : Filling c j head := ⟨u, by rw [hu]; rfl⟩
        refine (h.slots j).post_receive hfill hin ?_
        simp [View.filling]
      · intro k hk
        refine (h.slots k).mono (fun _ hd => hd) fun head' => ?_
        simp [filling_alone halone, hu, View.filling, hk.symm]
    · intro p hp
      rcases List.mem_append.mp hp with hp | hp
      · exact h.stores p hp
      · rw [List.mem_singleton] at hp
        subst hp
        exact hin

end Core

/-! ## Over every run -/

/-- The thread has a header and has not read all of its message. -/
def View.reads : View → Bool
  | .header | .own | .other _ _ => true
  | _ => false

/-- No message is there that the server did not write. -/
structure NoPhantoms (s : Sys) : Prop where
  poped_le : s.wire.wire.poped ≤ s.wire.wire.pushed
  header : ∀ t, (s.pc t).view.reads = true → ∃ m ∈ s.wire.sent, s.header_received = m.header
  returned : ∀ t, ∀ data ∈ s.results t, Wrote s.core (s.slot_index t) data
  stored : ∀ p ∈ s.stores, Wrote s.core p.1 p.2

/-- A thread that has seen the wire closed or shut down finds a header on it, and
no message is taken out of a slot that is being filled or was emptied. -/
def Genuine (s : Sys) (a : Act) : Prop := HeaderThere s a ∧ Undisturbed s.core a

theorem traced_init (capacity : Nat) (buffer : Nat → UInt8) :
    Traced (Sys.init capacity buffer).core := by
  refine ⟨fun _ => rfl, ?_, ?_, ?_⟩
  · intro j
    apply Slot.Traced.new
    rintro head ⟨u, hu⟩
    cases hu
  · intro u data hd
    cases hd
  · intro p hp
    cases hp

theorem Traced.noPhantoms {s : Sys} (h : Traced s.core) (hi : Inv s.wire) : NoPhantoms s := by
  refine ⟨hi.bounded.poped_le, ?_, h.results, h.stores⟩
  intro t ht
  have hreader : s.wire.reader ≠ .idle := by
    have hin : InHand s.core t (s.pc t).view := h.in_hand t
    cases hv : (s.pc t).view with
    | header =>
      rw [hv] at hin
      exact hin
    | own | other j head =>
      rw [hv] at hin
      exact hin.1
    | _ =>
      rw [hv] at ht
      cases ht
  obtain ⟨m, hm, hheader⟩ := hi.wireFifo.header hreader
  exact ⟨m, List.mem_of_getElem? hm, hheader⟩

/-- Whatever the server writes, and whenever the wire is closed or shut down: as
long as no thread takes the header that stands for a closed wire, and no message
is taken out of a slot under the thread that fills it, every message that a
thread receives or stores was written for its slot. -/
theorem every_message_was_written (capacity : Nat) (buffer : Nat → UInt8)
    (hsize : WireHeader.size ResponseHeader < capacity) (hcap : capacity < 2 ^ 64)
    (acts : List Act) (s : Sys) (hr : RunOf step Genuine (Sys.init capacity buffer) acts s)
    (htotal : (stream s.wire.sent).length < 2 ^ 64) : NoPhantoms s := by
  have h : Inv s.wire ∧ Traced s.core := by
    refine run_core (I := fun s => Traced s.core) hsize hcap hr htotal
      (traced_init capacity buffer) (fun _ _ _ ha => ha.1) ?_
    intro s a t h ha _ hcore ho _ hi
    exact traced_step h ho ha.2 hi hcore
  exact h.2.noPhantoms h.1

/-- A test for `Genuine` in a run of the first `n` threads. -/
def genuine (n : Nat) (s : Sys) : Act → Bool
  | .examine t =>
    s.pc t != .loaded true || decide (WireHeader.size ResponseHeader ≤ s.wire.wire.stored)
  | .consume t => (s.my_slot t).valid &&
      (List.range n).all fun u => (s.pc u).view.filling.isNone
  | _ => true

theorem genuine_of_test {n : Nat} (s : Sys) (a : Act) (hi : Idle n s)
    (h : (a.below n && genuine n s a) = true) : Genuine s a := by
  rw [Bool.and_eq_true] at h
  cases a with
  | examine t =>
    refine ⟨?_, trivial⟩
    intro hp
    simpa [genuine, hp] using h.2
  | consume t =>
    simp only [genuine, Bool.and_eq_true, List.all_eq_true] at h
    refine ⟨trivial, h.2.1, ?_⟩
    rintro - head ⟨u, hu⟩
    have hun : u < n := by
      by_contra hge
      have hv : s.core.view u = .no_slot := by
        simp [view_of_pc (hi u (Nat.le_of_not_lt hge)), Pc.view]
      rw [hv] at hu
      cases hu
    have hnone := h.2.2 u (List.mem_range.mpr hun)
    rw [show (s.pc u).view.filling = some (s.core.slot_index t, head) from hu] at hnone
    cases hnone
  | _ => exact ⟨trivial, trivial⟩

theorem length_one_byte : ([9] : List UInt8).length = 1 := rfl

/-- The wire is shut down while a message for thread 1 is on it. Thread 0 still
stores it, and thread 1 takes it. -/
def shutdownAfterWrite : List Act :=
  winTheWire 0 ++ [Act.search 1, .search 1, .send 1, .call 1] ++
    writeOut ⟨⟨1, 1, 1⟩, [9], length_one_byte⟩ ++ [Act.notify_shutdown] ++ readHead 0 ++
    [Act.lock 1, .evaluate 1, .test 1, .consume 1]

theorem every_message_was_written_before_a_shutdown :
    ∃ s, RunOf step Genuine (Sys.init 64 fun _ => 0) shutdownAfterWrite s ∧
      s.results 1 = [[9]] ∧ NoPhantoms s := by
  obtain ⟨s, hr, hp⟩ := RunOf.exists_of_exec_inv (s := Sys.init 64 fun _ => 0) (I := Idle 2)
    (c := fun s a => a.below 2 && genuine 2 s a) (fun _ _ => rfl)
    (fun _ _ _ hi ha hs => idle_step hi (Bool.and_eq_true_iff.mp ha).1 hs) genuine_of_test
    (p := fun s => s.results 1 = [[9]] ∧ (stream s.wire.sent).length = 9)
    (by decide +kernel : (exec (guarded step _) _ shutdownAfterWrite).any _ = true)
  obtain ⟨h1, htotal⟩ : s.results 1 = [[9]] ∧ (stream s.wire.sent).length = 9 := by
    simpa using hp
  exact ⟨s, hr, h1, every_message_was_written 64 _ (by decide) (by decide) _ s hr (by omega)⟩

/-- Thread 0 shares its wire with thread 1, whose answer has two body messages.
The second is read into the slot while thread 1 takes the first. -/
def twoBodies : List Act :=
  winTheWire 0 ++ [Act.search 1, .search 1, .send 1, .call 1] ++
    writeOut ⟨⟨1, 1, 1⟩, [9], length_one_byte⟩ ++
    writeOut ⟨⟨1, 1, 2⟩, [7, 8], rfl⟩ ++ readHead 0 ++ [Act.lock 1, .evaluate 1, .test 1] ++
    [Act.lock 0, .evaluate 0, .test 0, .exchange 0 true, .load 0, .examine 0, .dispatch 0, .consume 1]

/-- On a wire that is shut down and empty, thread 0 receives an empty message and
thread 1 stores one for slot 0. Without a shutdown, thread 1 receives a message
that is the one written for it no more. -/
theorem a_shutdown_gives_a_message_that_nobody_wrote :
    (∃ s, RunOf step Free (Sys.init 64 fun _ => 0)
      (winTheWire 0 ++ [Act.notify_shutdown] ++ readHead 0) s ∧
      s.wire.sent.length = 0 ∧ s.results 0 = [[]] ∧ s.wire.wire.pushed = 0 ∧
      s.wire.wire.poped = 8 ∧ ¬ NoPhantoms s) ∧
    (∃ s, RunOf step Free (Sys.init 64 fun _ => 0)
      ([Act.search 0, .search 1, .search 1, .send 1, .call 1, .lock 1, .evaluate 1, .test 1,
        .exchange 1 true, .notify_shutdown] ++ readHead 1) s ∧
      s.wire.sent.length = 0 ∧ s.stores = [(0, [])] ∧ (s.slots 0).valid = true ∧
      ¬ NoPhantoms s) ∧
    ∃ s, RunOf step Free (Sys.init 64 fun _ => 0) twoBodies s ∧
      s.wire.sent.map (·.payload) = [[9], [7, 8]] ∧ s.results 1 = [[9, 0]] ∧ ¬ NoPhantoms s := by
  refine ⟨?_, ?_, ?_⟩
  · obtain ⟨s, hr, hp⟩ := RunOf.exists_free (s := Sys.init 64 fun _ => 0)
      (p := fun s => s.wire.sent.length = 0 ∧ s.results 0 = [[]] ∧ s.wire.wire.pushed = 0 ∧
        s.wire.wire.poped = 8)
      (by decide +kernel : (exec step _
        (winTheWire 0 ++ [Act.notify_shutdown] ++ readHead 0)).any _ = true)
    obtain ⟨h1, h2, h3, h4⟩ : s.wire.sent.length = 0 ∧ s.results 0 = [[]] ∧
        s.wire.wire.pushed = 0 ∧ s.wire.wire.poped = 8 := by simpa using hp
    refine ⟨s, hr, h1, h2, h3, h4, ?_⟩
    intro h
    have hle := h.poped_le
    omega
  · obtain ⟨s, hr, hp⟩ := RunOf.exists_free (s := Sys.init 64 fun _ => 0)
      (p := fun s => s.wire.sent.length = 0 ∧ s.stores = [(0, [])] ∧ (s.slots 0).valid = true)
      (by decide +kernel : (exec step _
        ([Act.search 0, .search 1, .search 1, .send 1, .call 1, .lock 1, .evaluate 1, .test 1,
          .exchange 1 true, .notify_shutdown] ++ readHead 1)).any _ = true)
    obtain ⟨h1, h2, h3⟩ : s.wire.sent.length = 0 ∧ s.stores = [(0, [])] ∧
        (s.slots 0).valid = true := by simpa using hp
    refine ⟨s, hr, h1, h2, h3, ?_⟩
    intro h
    obtain ⟨m, hm, -⟩ := h.stored (0, []) (by rw [h2]; exact List.mem_singleton_self _)
    have hpos := List.length_pos_of_mem hm
    change 0 < s.wire.sent.length at hpos
    omega
  · obtain ⟨s, hr, hp⟩ := RunOf.exists_free (s := Sys.init 64 fun _ => 0)
      (p := fun s => s.wire.sent.map (·.payload) = [[9], [7, 8]] ∧ s.results 1 = [[9, 0]])
      (by decide +kernel : (exec step _ twoBodies).any _ = true)
    obtain ⟨h1, h2⟩ : s.wire.sent.map (·.payload) = [[9], [7, 8]] ∧ s.results 1 = [[9, 0]] := by
      simpa using hp
    refine ⟨s, hr, h1, h2, ?_⟩
    intro h
    obtain ⟨m, hm, -, hd⟩ := h.returned 1 [9, 0] (by rw [h2]; exact List.mem_singleton_self _)
    have hmem : m.payload ∈ s.wire.sent.map (·.payload) := List.mem_map_of_mem hm
    rw [h1, hd] at hmem
    simp at hmem

end tateyama_bootstrap.session_wire
