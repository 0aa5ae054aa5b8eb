-- The requests of a session. Each message that the server writes for a request
-- is on the wire, in the slot of the request, or received. `Demux` says so, and
-- each step of the core keeps it as long as no thread takes a message from the
-- wire over an earlier one in its slot.
import TateyamaBootstrap.SessionShutdown
import TateyamaBootstrap.SessionSlots

namespace tateyama_bootstrap.session_wire

open simple_wire

/-! ## The invariant -/

/-- The messages that answer a request: a body, or a head and then a body. -/
structure Answer (headed : Bool) (ms : List (Message ResponseHeader)) : Prop where
  length_le : ms.length ≤ expects headed
  types : ∀ (i : Nat) m, ms[i]? = some m →
    (m.header.type = RESPONSE_BODYHEAD ↔ headed = true ∧ i = 0)

theorem Answer.snoc {headed : Bool} {ms : List (Message ResponseHeader)}
    {m : Message ResponseHeader} (h : Answer headed ms) (hlt : ms.length < expects headed)
    (ht : m.header.type = RESPONSE_BODYHEAD ↔ headed = true ∧ ms = []) :
    Answer headed (ms ++ [m]) := by
  refine ⟨by rw [List.length_append]; exact hlt, ?_⟩
  intro i m' hm'
  rcases Nat.lt_or_ge i ms.length with hi | hi
  · rw [List.getElem?_append_left hi] at hm'
    exact h.types i m' hm'
  · obtain ⟨hlen, rfl⟩ := List.getElem?_eq_some_iff.mp hm'
    obtain rfl : i = ms.length := by
      simp only [List.length_append, List.length_singleton] at hlen
      omega
    simpa using ht

namespace Core

/-- What the server has written for thread `t`. -/
def payloads (c : Core) (t : Nat) : List (List UInt8) := (c.answers t).map (·.payload)

/-- The messages for slot `j` that are not yet given to it. -/
def pending (c : Core) (j : Nat) : List (Message ResponseHeader) :=
  (c.wire.sent.drop c.counted).filter fun m => m.header.idx.toNat = j

end Core

/-- The thread has read all of a message for slot `j`, and has not counted it. -/
structure Read (c : Core) (j : Nat) (data : List UInt8) : Prop where
  received : c.wire.received.length = c.counted + 1
  message : ∃ m, c.wire.sent[c.counted]? = some m ∧ c.header_received = m.header ∧
    m.header.idx.toNat = j ∧ m.payload = data

/-- The thread has read a message and counts it next. -/
def View.counting : View → Bool
  | .own_count _ | .other_count _ _ => true
  | _ => false

/-- The thread has a slot, and neither fills a slot nor counts a message. -/
def View.light : View → Bool
  | .out | .inside | .consume | .header | .own => true
  | _ => false

section Requests

variable (headed : Nat → Bool)

/-- The thread has a slot, and a message to receive. -/
def Holds (c : Core) (t : Nat) : Prop :=
  c.view t ≠ .no_slot ∧ (c.results t).length < expects (headed t)

/-- The slot of a request, and what is on the wire for it. -/
structure Request (c : Core) (t : Nat) : Prop where
  index_lt : c.slot_index t < slot_size
  slot : (c.my_slot t).Serves (headed t) (c.payloads t) (c.results t).length
    (Filling c (c.slot_index t))
  pending : c.pending (c.slot_index t) = (c.answers t).drop (c.my_slot t).received

/-- What holds of a thread by what it has in hand. -/
def Carries (c : Core) (t : Nat) : View → Prop
  | .no_slot => c.results t = [] ∧ c.answers t = []
  | .out => True
  | .inside => Holds headed c t
  | .consume => Holds headed c t ∧ (c.my_slot t).valid = true
  | .header => Holds headed c t ∧ c.wire.reader ≠ .idle
  | .own => Holds headed c t ∧ c.wire.reader ≠ .idle ∧
      c.header_received.idx.toNat = c.slot_index t ∧ (c.my_slot t).valid = false
  | .own_count res_message => Holds headed c t ∧ Read c (c.slot_index t) res_message ∧
      (c.my_slot t).valid = false
  | .other j _ => Holds headed c t ∧ c.wire.reader ≠ .idle ∧ c.header_received.idx.toNat = j
  | .other_count j head => Holds headed c t ∧ Read c j ((c.slots j).target head)

/-- Each message is where it belongs: on the wire, in the slot of its request, or received. -/
structure Demux (c : Core) : Prop where
  carries : ∀ t, Carries headed c t (c.view t)
  results : ∀ t, c.results t <+: c.payloads t
  answers : ∀ t, Answer (headed t) (c.answers t)
  request : ∀ t, Holds headed c t → Request headed c t
  apart : ∀ t u, Holds headed c t → Holds headed c u → c.slot_index t = c.slot_index u → t = u
  blank : ∀ j, (c.slots j).in_use = false → c.slots j = .new
  owner : ∀ m ∈ c.wire.sent.drop c.counted,
    ∃ t, Holds headed c t ∧ c.slot_index t = m.header.idx.toNat
  counted : (∀ t, (c.view t).counting = false) → c.wire.received.length = c.counted

end Requests

/-! ## Steps of the core -/

section Pending

variable {c d : Core} {m : Message ResponseHeader}

theorem pending_append (hsent : d.wire.sent = c.wire.sent ++ [m]) (hcount : d.counted = c.counted)
    (hle : c.counted ≤ c.wire.sent.length) (j : Nat) :
    d.pending j = c.pending j ++ if m.header.idx.toNat = j then [m] else [] := by
  unfold Core.pending
  rw [hsent, hcount, List.drop_append_of_le_length hle, List.filter_append]
  congr 1
  by_cases hj : m.header.idx.toNat = j
  · simp [hj]
  · simp [hj]

/-- The next message to count is the first of its slot. -/
theorem pending_count (hm : c.wire.sent[c.counted]? = some m) (hsent : d.wire.sent = c.wire.sent)
    (hcount : d.counted = c.counted + 1) (j : Nat) :
    c.pending j = if m.header.idx.toNat = j then m :: d.pending j else d.pending j := by
  obtain ⟨hlt, hget⟩ := List.getElem?_eq_some_iff.mp hm
  unfold Core.pending
  rw [hsent, hcount, List.drop_eq_getElem_cons hlt, hget]
  by_cases hj : m.header.idx.toNat = j
  · simp [hj]
  · simp [hj]

theorem drop_succ_of_cons {α : Type} {xs ys : List α} {x : α} {n : Nat}
    (h : x :: ys = xs.drop n) : xs[n]? = some x ∧ ys = xs.drop (n + 1) := by
  refine ⟨?_, ?_⟩
  · have hget := congrArg (fun l => l[0]?) h
    simpa using hget.symm
  · have htail := congrArg List.tail h
    simpa using htail

end Pending

section Demux

variable {headed : Nat → Bool} {c d : Core} {u : Nat} {v : View}

/-- The owner of the next message to count, and its place in the answer. -/
theorem Demux.next (h : Demux headed c) {m : Message ResponseHeader}
    (hm : c.wire.sent[c.counted]? = some m) :
    ∃ t, Holds headed c t ∧ c.slot_index t = m.header.idx.toNat ∧
      (c.answers t)[(c.my_slot t).received]? = some m := by
  obtain ⟨hlt, hget⟩ := List.getElem?_eq_some_iff.mp hm
  have hmem : m ∈ c.wire.sent.drop c.counted := by
    rw [List.drop_eq_getElem_cons hlt, hget]
    exact List.mem_cons_self
  obtain ⟨t, ht, hidx⟩ := h.owner m hmem
  refine ⟨t, ht, hidx, ?_⟩
  have hp := pending_count (d := { c with counted := c.counted + 1 }) hm rfl rfl (c.slot_index t)
  rw [if_pos hidx.symm, (h.request t ht).pending] at hp
  exact (drop_succ_of_cons hp.symm).1

/-- A thread that reads the wire reads the next message of its owner. -/
theorem Demux.current (h : Demux headed c) (hi : Inv c.wire)
    (halone : ∀ w, w ≠ u → (c.view w).busy = false) (hu : (c.view u).reads = true)
    (hreader : c.wire.reader ≠ .idle) :
    c.wire.received.length = c.counted ∧
      ∃ m, c.wire.sent[c.counted]? = some m ∧ c.header_received = m.header := by
  have hlen : c.wire.received.length = c.counted := by
    apply h.counted
    intro w
    by_cases hw : w = u
    · subst hw
      cases hv : c.view w <;> first | rfl | (rw [hv] at hu; cases hu)
    · have hb := halone w hw
      cases hv : c.view w <;> first | rfl | (rw [hv] at hb; cases hb)
  obtain ⟨m, hm, hheader⟩ := hi.wireFifo.header hreader
  rw [hlen] at hm
  exact ⟨hlen, m, hm, hheader⟩

theorem Request.congr (h : Request headed c u) (hidx : d.slot_index u = c.slot_index u)
    (hslot : d.my_slot u = c.my_slot u) (hres : d.results u = c.results u)
    (hans : d.answers u = c.answers u)
    (hpending : d.pending (c.slot_index u) = c.pending (c.slot_index u))
    (hfill : ∀ head, Filling d (c.slot_index u) head ↔ Filling c (c.slot_index u) head) :
    Request headed d u := by
  refine ⟨?_, ?_, ?_⟩
  · rw [hidx]
    exact h.index_lt
  · unfold Core.payloads
    rw [hidx, hslot, hres, hans]
    exact h.slot.congr hfill
  · rw [hidx, hslot, hans, hpending]
    exact h.pending

/-- Of a thread without a header the wire is not asked. -/
theorem Carries.idle (h : Carries headed c u v) (hv : v.busy = false)
    (hno : v = .no_slot → d.results u = c.results u ∧ d.answers u = c.answers u)
    (hholds : Holds headed c u → Holds headed d u)
    (hvalid : Holds headed c u → (c.my_slot u).valid = true → (d.my_slot u).valid = true) :
    Carries headed d u v := by
  cases v with
  | no_slot =>
    obtain ⟨h1, h2⟩ := hno rfl
    exact ⟨h1.trans h.1, h2.trans h.2⟩
  | out => trivial
  | inside => exact hholds h
  | consume => exact ⟨hholds h.1, hvalid h.1 h.2⟩
  | header | own | own_count | other | other_count => cases hv

theorem Carries.mono (h : Carries headed c u v)
    (hno : v = .no_slot → d.results u = c.results u ∧ d.answers u = c.answers u)
    (hholds : Holds headed c u → Holds headed d u) (hidx : d.slot_index u = c.slot_index u)
    (hvalid : Holds headed c u → (d.my_slot u).valid = (c.my_slot u).valid)
    (hheader : d.header_received = c.header_received)
    (hreader : c.wire.reader ≠ .idle → d.wire.reader ≠ .idle)
    (hread : ∀ j data, Read c j data → Read d j data)
    (htarget : ∀ j head, v = .other_count j head →
      (d.slots j).target head = (c.slots j).target head) : Carries headed d u v := by
  cases v with
  | no_slot | out | inside | consume =>
    exact h.idle rfl hno hholds fun hh hv => (hvalid hh).trans hv
  | header => exact ⟨hholds h.1, hreader h.2⟩
  | own =>
    obtain ⟨h1, h2, h3, h4⟩ := h
    exact ⟨hholds h1, hreader h2, by rw [hheader, hidx, h3], (hvalid h1).trans h4⟩
  | own_count data =>
    obtain ⟨h1, h2, h3⟩ := h
    exact ⟨hholds h1, by rw [hidx]; exact hread _ _ h2, (hvalid h1).trans h3⟩
  | other j head =>
    obtain ⟨h1, h2, h3⟩ := h
    exact ⟨hholds h1, hreader h2, by rw [hheader, h3]⟩
  | other_count j head =>
    obtain ⟨h1, h2⟩ := h
    refine ⟨hholds h1, ?_⟩
    rw [htarget j head rfl]
    exact hread _ _ h2

theorem carries_update (hview : d.view = Function.update c.view u v) (hu : Carries headed d u v)
    (h : ∀ w, w ≠ u → Carries headed d w (c.view w)) (w : Nat) :
    Carries headed d w (d.view w) := by
  rw [hview]
  by_cases hw : w = u
  · subst hw
    rw [Function.update_self]
    exact hu
  · rw [Function.update_of_ne hw]
    exact h w hw

/-- A thread that keeps its slot. -/
theorem holds_update (hview : d.view = Function.update c.view u v) (hu : c.view u ≠ .no_slot)
    (hv : v ≠ .no_slot) {w : Nat} (hres : d.results w = c.results w) :
    Holds headed d w ↔ Holds headed c w := by
  unfold Holds
  rw [hview, hres]
  by_cases hw : w = u
  · subst hw
    simp [hu, hv]
  · rw [Function.update_of_ne hw]

theorem light_spec (h : v.light = true) :
    v ≠ .no_slot ∧ v.filling = none ∧ v.counting = false := by
  cases v with
  | out | inside | consume | header | own => exact ⟨by simp, rfl, rfl⟩
  | no_slot | own_count | other | other_count => cases h

/-- A step of a thread that changes nothing but what it has in hand. -/
theorem Demux.set_view (h : Demux headed c) (hlu : (c.view u).light = true)
    (hlv : v.light = true) (hin : Carries headed c u v) : Demux headed (c.set_view u v) := by
  obtain ⟨hu, hfu, hcu⟩ := light_spec hlu
  obtain ⟨hv, hfv, -⟩ := light_spec hlv
  have hholds : ∀ w, Holds headed (c.set_view u v) w ↔ Holds headed c w :=
    fun w => holds_update rfl hu hv rfl
  have hcarries : ∀ w x, Carries headed c w x → Carries headed (c.set_view u v) w x := by
    intro w x hx
    exact hx.mono (fun _ => ⟨rfl, rfl⟩) (hholds w).mpr rfl (fun _ => rfl) rfl id
      (fun _ _ hr => ⟨hr.received, hr.message⟩) fun _ _ _ => rfl
  refine ⟨?_, h.results, h.answers, ?_, ?_, h.blank, ?_, ?_⟩
  · exact carries_update rfl (hcarries u v hin) fun w _ => hcarries w _ (h.carries w)
  · intro w hw
    exact (h.request w ((hholds w).mp hw)).congr rfl rfl rfl rfl rfl (filling_same hfu hfv rfl _)
  · intro w x hw hx
    exact h.apart w x ((hholds w).mp hw) ((hholds x).mp hx)
  · intro m hm
    obtain ⟨w, hw, hidx⟩ := h.owner m hm
    exact ⟨w, (hholds w).mpr hw, hidx⟩
  · intro hn
    apply h.counted
    intro w
    by_cases hw : w = u
    · rw [hw]
      exact hcu
    · have hnw := hn w
      rwa [Core.set_view_of_ne c v hw] at hnw

/-- A step of the wire inside a message. -/
theorem Demux.set_wire {w : simple_wire.Sys ResponseHeader} (h : Demux headed c)
    (hw : Inner c.wire w) : Demux headed { c with wire := w } := by
  have hpending : ∀ j, ({ c with wire := w } : Core).pending j = c.pending j := by
    intro j
    unfold Core.pending
    rw [hw.sent]
  have hread : ∀ j data, Read c j data → Read { c with wire := w } j data := by
    intro j data hr
    obtain ⟨m, h1, h2, h3, h4⟩ := hr.message
    refine ⟨?_, m, ?_, ?_, h3, h4⟩
    · rw [hw.received]
      exact hr.received
    · rw [hw.sent]
      exact h1
    · exact hw.header_received.trans h2
  refine ⟨?_, h.results, h.answers, ?_, h.apart, h.blank, ?_, ?_⟩
  · intro t
    refine (h.carries t).mono (fun _ => ⟨rfl, rfl⟩) id rfl (fun _ => rfl) hw.header_received ?_
      hread fun _ _ _ => rfl
    rw [not_imp_not]
    exact hw.reader.mp
  · intro t ht
    exact (h.request t ht).congr rfl rfl rfl rfl (hpending _) fun _ => Iff.rfl
  · dsimp only
    rw [hw.sent]
    exact h.owner
  · dsimp only
    rw [hw.received]
    exact h.counted

theorem Demux.counted_le (h : Demux headed c) (hi : Inv c.wire) :
    c.counted ≤ c.wire.sent.length := by
  have hle := hi.received_le
  by_cases hn : ∀ t, (c.view t).counting = false
  · have hlen := h.counted hn
    omega
  · obtain ⟨t, ht⟩ := not_forall.mp hn
    have hcarries := h.carries t
    cases hv : c.view t with
    | own_count data =>
      rw [hv] at hcarries
      have hlen := hcarries.2.1.received
      omega
    | other_count j head =>
      rw [hv] at hcarries
      have hlen := hcarries.2.received
      omega
    | _ =>
      rw [hv] at ht
      exact absurd rfl ht

/-- The server begins to write the next answer to a request. -/
theorem Demux.answer {m : Message ResponseHeader} {w : simple_wire.Sys ResponseHeader}
    (h : Demux headed c) (hi : Inv c.wire) (hw : simple_wire.step c.wire (.write m) = some w)
    (hu : c.view u ≠ .no_slot) (hidx : m.header.idx.toNat = c.slot_index u)
    (hlt : (c.answers u).length < expects (headed u))
    (ht : m.header.type = RESPONSE_BODYHEAD ↔ headed u = true ∧ c.answers u = []) :
    Demux headed
      { c with wire := w, answers := Function.update c.answers u (c.answers u ++ [m]) } := by
  obtain ⟨hsent, hrec, hwire, hreader⟩ := step_write hw
  have hle := h.counted_le hi
  have hpending := pending_append (c := c)
    (d := { c with wire := w, answers := Function.update c.answers u (c.answers u ++ [m]) })
    hsent rfl hle
  have hpre := (h.results u).length_le
  have hholds : Holds headed c u := by
    refine ⟨hu, ?_⟩
    rw [Core.payloads, List.length_map] at hpre
    omega
  have hother : ∀ t, t ≠ u → Function.update c.answers u (c.answers u ++ [m]) t = c.answers t :=
    fun t ht => Function.update_of_ne ht _ _
  refine ⟨?_, ?_, ?_, ?_, h.apart, h.blank, ?_, ?_⟩
  · intro t
    refine (h.carries t).mono ?_ id rfl (fun _ => rfl) ?_ ?_ ?_ fun _ _ _ => rfl
    · intro hno
      refine ⟨rfl, hother t ?_⟩
      rintro rfl
      exact hu hno
    · simp [Core.header_received, hwire]
    · simp [hreader]
    · intro j data hr
      obtain ⟨m', h1, h2, h3, h4⟩ := hr.message
      refine ⟨?_, m', ?_, ?_, h3, h4⟩
      · simpa [hrec] using hr.received
      · rw [hsent, List.getElem?_append_left (List.getElem?_eq_some_iff.mp h1).1]
        exact h1
      · simpa [Core.header_received, hwire] using h2
  · intro t
    by_cases htu : t = u
    · subst htu
      refine (h.results t).trans ?_
      simp [Core.payloads]
    · have ht := h.results t
      unfold Core.payloads at ht ⊢
      dsimp only
      rw [hother t htu]
      exact ht
  · intro t
    by_cases htu : t = u
    · subst htu
      simpa using (h.answers t).snoc hlt ht
    · simpa [htu] using h.answers t
  · intro t hholds_t
    have hreq := h.request t hholds_t
    by_cases htu : t = u
    · subst htu
      refine ⟨hreq.index_lt, ?_, ?_⟩
      · have hpay : ({ c with
            wire := w
            answers := Function.update c.answers t (c.answers t ++ [m]) } : Core).payloads t =
            c.payloads t ++ [m.payload] := by simp [Core.payloads]
        rw [hpay]
        exact hreq.slot.append m.payload
      · have hrle := hreq.slot.received_le
        rw [Core.payloads, List.length_map] at hrle
        rw [hpending, if_pos hidx, hreq.pending]
        dsimp only
        rw [Function.update_self, ← List.drop_append_of_le_length hrle]
        rfl
    · refine hreq.congr rfl rfl rfl (hother t htu) ?_ fun _ => Iff.rfl
      rw [hpending, if_neg, List.append_nil]
      intro heq
      exact htu (h.apart t u hholds_t hholds (heq.symm.trans hidx))
  · intro m' hm'
    dsimp only at hm'
    rw [hsent, List.drop_append_of_le_length hle, List.mem_append, List.mem_singleton] at hm'
    rcases hm' with hm' | rfl
    · exact h.owner m' hm'
    · exact ⟨u, hholds, hidx.symm⟩
  · dsimp only
    rw [hrec]
    exact h.counted

/-- A slot is filled for the thread that holds it. -/
theorem Demux.filling_owner (h : Demux headed c) (hi : Inv c.wire) (ho : OneBusy c) {j : Nat}
    {head : Bool} (hf : Filling c j head) : ∃ t, Holds headed c t ∧ c.slot_index t = j := by
  obtain ⟨u, hu⟩ := hf
  have hcarries := h.carries u
  have halone := ho.alone (u := u) (busy_of_filling hu)
  have hmessage : ∃ m, c.wire.sent[c.counted]? = some m ∧ m.header.idx.toNat = j := by
    cases hv : c.view u with
    | other k head' =>
      rw [hv] at hcarries hu
      cases hu
      obtain ⟨-, m, hm, hheader⟩ := h.current hi halone (by rw [hv]; rfl) hcarries.2.1
      exact ⟨m, hm, by rw [← hheader]; exact hcarries.2.2⟩
    | other_count k head' =>
      rw [hv] at hcarries hu
      cases hu
      obtain ⟨m, hm, -, hidx, -⟩ := hcarries.2.message
      exact ⟨m, hm, hidx⟩
    | _ =>
      rw [hv] at hu
      cases hu
  obtain ⟨m, hm, rfl⟩ := hmessage
  obtain ⟨t, ht, hidx, -⟩ := h.next hm
  exact ⟨t, ht, hidx⟩

theorem my_slot_of_ne {i : Nat} {r : Slot} (hslots : d.slots = Function.update c.slots i r)
    (hidx : d.slot_index u = c.slot_index u) (hne : c.slot_index u ≠ i) :
    d.my_slot u = c.my_slot u := by
  unfold Core.my_slot
  rw [hslots, hidx, Function.update_of_ne hne]

/-- What a thread does that counts nothing leaves the others to their counting. -/
theorem counted_update (h : Demux headed c) (hcu : (c.view u).counting = false)
    (hview : d.view = Function.update c.view u v) (hn : ∀ t, (d.view t).counting = false) :
    c.wire.received.length = c.counted := by
  apply h.counted
  intro t
  by_cases ht : t = u
  · rw [ht]
    exact hcu
  · have hnt := hn t
    rwa [hview, Function.update_of_ne ht] at hnt

/-- `search_slot` hands out a slot that nobody holds. -/
theorem Demux.take (h : Demux headed c) (hi : Inv c.wire) (ho : OneBusy c) {i : Nat}
    (hu : c.view u = .no_slot) (hlt : i < slot_size) (hfree : (c.slots i).in_use = false)
    (hview : d.view = Function.update c.view u .out)
    (hslots : d.slots = Function.update c.slots i { c.slots i with in_use := true })
    (hidx : d.slot_index = Function.update c.slot_index u i) (hwire : d.wire = c.wire)
    (hres : d.results = c.results) (hans : d.answers = c.answers)
    (hcount : d.counted = c.counted) : Demux headed d := by
  have hnobody : ∀ t, Holds headed c t → c.slot_index t ≠ i := by
    rintro t ht rfl
    have huse := (h.request t ht).slot.in_use
    rw [Core.my_slot, hfree] at huse
    cases huse
  obtain ⟨hres0, hans0⟩ : c.results u = [] ∧ c.answers u = [] := by
    have hcarries := h.carries u
    rw [hu] at hcarries
    exact hcarries
  have hother : ∀ t, t ≠ u → d.slot_index t = c.slot_index t := by
    intro t ht
    rw [hidx, Function.update_of_ne ht]
  have hself : d.slot_index u = i := by
    rw [hidx, Function.update_self]
  have hholds : ∀ t, t ≠ u → (Holds headed d t ↔ Holds headed c t) := by
    intro t ht
    unfold Holds
    rw [hview, hres, Function.update_of_ne ht]
  have hholds_u : Holds headed d u := by
    refine ⟨by simp [hview], ?_⟩
    rw [hres, hres0]
    exact expects_pos _
  have hpending : ∀ j, d.pending j = c.pending j := by
    intro j
    unfold Core.pending
    rw [hwire, hcount]
  have hfill : ∀ j head, Filling d j head ↔ Filling c j head :=
    filling_same (by rw [hu]; rfl) rfl hview
  refine ⟨?_, ?_, ?_, ?_, ?_, ?_, ?_, ?_⟩
  · refine carries_update hview trivial ?_
    intro t ht
    refine (h.carries t).mono ?_ (hholds t ht).mpr (hother t ht) ?_ ?_ ?_ ?_ ?_
    · intro _
      rw [hres, hans]
      exact ⟨rfl, rfl⟩
    · intro hh
      rw [my_slot_of_ne hslots (hother t ht) (hnobody t hh)]
    · simp [Core.header_received, hwire]
    · simp [hwire]
    · intro j data hr
      refine ⟨?_, ?_⟩
      · rw [hwire, hcount]
        exact hr.received
      · simpa [Core.header_received, hwire, hcount] using hr.message
    · intro j head _
      rw [hslots]
      by_cases hj : j = i
      · subst hj
        simp [Slot.target]
      · simp [hj]
  · intro t
    rw [hres, Core.payloads, hans]
    exact h.results t
  · rw [hans]
    exact h.answers
  · intro t ht
    by_cases htu : t = u
    · subst htu
      have hslot : d.my_slot t = { Slot.new with in_use := true } := by
        rw [Core.my_slot, hself, hslots, Function.update_self, h.blank i hfree]
      refine ⟨by rw [hself]; exact hlt, ?_, ?_⟩
      · rw [hslot, Core.payloads, hans, hans0, hres, hres0, hself]
        apply Slot.Serves.taken
        intro head hf
        obtain ⟨w, hw, hwi⟩ := h.filling_owner hi ho ((hfill i head).mp hf)
        exact hnobody w hw hwi
      · rw [hself, hpending, hans, hans0, List.drop_nil, Core.pending, List.filter_eq_nil_iff]
        intro m hm hmi
        obtain ⟨w, hw, hwi⟩ := h.owner m hm
        exact hnobody w hw (hwi.trans (by simpa using hmi))
    · have hc := (hholds t htu).mp ht
      exact (h.request t hc).congr (hother t htu)
        (my_slot_of_ne hslots (hother t htu) (hnobody t hc)) (by rw [hres]) (by rw [hans])
        (hpending _) (hfill _)
  · intro t w ht hw heq
    by_cases htu : t = u
    · by_cases hwu : w = u
      · rw [htu, hwu]
      · subst htu
        rw [hself, hother w hwu] at heq
        exact absurd heq.symm (hnobody w ((hholds w hwu).mp hw))
    · by_cases hwu : w = u
      · subst hwu
        rw [hself, hother t htu] at heq
        exact absurd heq (hnobody t ((hholds t htu).mp ht))
      · rw [hother t htu, hother w hwu] at heq
        exact h.apart t w ((hholds t htu).mp ht) ((hholds w hwu).mp hw) heq
  · intro j huse
    rw [hslots] at huse ⊢
    by_cases hj : j = i
    · subst hj
      simp at huse
    · rw [Function.update_of_ne hj] at huse ⊢
      exact h.blank j huse
  · rw [hwire, hcount]
    intro m hm
    obtain ⟨t, ht, htidx⟩ := h.owner m hm
    have htu : t ≠ u := by
      rintro rfl
      exact ht.1 hu
    exact ⟨t, (hholds t htu).mpr ht, (hother t htu).trans htidx⟩
  · intro hn
    rw [hwire, hcount]
    exact counted_update h (by rw [hu]; rfl) hview hn

theorem snoc_of_prefix {α : Type} {xs ys : List α} {x : α} (h : xs <+: ys)
    (hx : ys[xs.length]? = some x) : xs ++ [x] <+: ys := by
  rw [List.prefix_iff_eq_take] at h ⊢
  rw [List.length_append, List.length_singleton, List.take_add_one, hx, ← h]
  rfl

/-- A thread receives the next answer to its request, and gives its slot back
after the last. -/
theorem Demux.receive {r : Slot} {data : List UInt8} (h : Demux headed c)
    (hu : Holds headed c u) (hfu : (c.view u).filling = none)
    (hdata : (c.payloads u)[(c.results u).length]? = some data)
    (hview : d.view = Function.update c.view u .out)
    (hslots : d.slots = Function.update c.slots (c.slot_index u) r)
    (hidx : d.slot_index = c.slot_index)
    (hres : d.results = Function.update c.results u (c.results u ++ [data]))
    (hans : d.answers = c.answers)
    (hmore : (c.results u).length + 1 < expects (headed u) →
      r.Serves (headed u) (c.payloads u) ((c.results u).length + 1) (Filling c (c.slot_index u)) ∧
        d.pending (c.slot_index u) = (c.answers u).drop r.received)
    (hlast : (c.results u).length + 1 = expects (headed u) →
      r = .new ∧ d.pending (c.slot_index u) = [])
    (hpending : ∀ j, j ≠ c.slot_index u → d.pending j = c.pending j)
    (hsub : d.wire.sent.drop d.counted ⊆ c.wire.sent.drop c.counted)
    (hcarries : (∀ w, w ≠ u → Holds headed c w → Holds headed d w ∧ d.my_slot w = c.my_slot w) →
      ∀ w, w ≠ u → Carries headed d w (c.view w))
    (hcounted : (∀ t, (d.view t).counting = false) → d.wire.received.length = d.counted) :
    Demux headed d := by
  have hother : ∀ t, t ≠ u → (Holds headed d t ↔ Holds headed c t) := by
    intro t ht
    unfold Holds
    rw [hview, hres, Function.update_of_ne ht, Function.update_of_ne ht]
  have hown : Holds headed d u ↔ (c.results u).length + 1 < expects (headed u) := by
    unfold Holds
    rw [hview, hres]
    simp
  have hcase : (c.results u).length + 1 < expects (headed u) ∨
      (c.results u).length + 1 = expects (headed u) := by
    have hlt := hu.2
    omega
  have hmine : ∀ t, t ≠ u → Holds headed c t → c.slot_index t ≠ c.slot_index u := by
    intro t ht hh heq
    exact ht (h.apart t u hh hu heq)
  have hkept : ∀ t, t ≠ u → Holds headed c t → Holds headed d t ∧ d.my_slot t = c.my_slot t := by
    intro t ht hh
    exact ⟨(hother t ht).mpr hh, my_slot_of_ne hslots (by rw [hidx]) (hmine t ht hh)⟩
  have hfill : ∀ j head, Filling d j head ↔ Filling c j head := filling_same hfu rfl hview
  refine ⟨carries_update hview trivial (hcarries hkept), ?_, ?_, ?_, ?_, ?_, ?_, hcounted⟩
  · intro t
    unfold Core.payloads
    rw [hres, hans]
    by_cases htu : t = u
    · subst htu
      rw [Function.update_self]
      exact snoc_of_prefix (h.results t) hdata
    · rw [Function.update_of_ne htu]
      exact h.results t
  · rw [hans]
    exact h.answers
  · intro t ht
    by_cases htu : t = u
    · subst htu
      obtain ⟨hslot, hpend⟩ := hmore (hown.mp ht)
      have hr : d.my_slot t = r := by
        rw [Core.my_slot, hslots, hidx, Function.update_self]
      refine ⟨?_, ?_, ?_⟩
      · rw [hidx]
        exact (h.request t hu).index_lt
      · rw [hr, Core.payloads, hans, hres, hidx, Function.update_self, List.length_append]
        exact hslot.congr (hfill _)
      · rw [hidx, hr, hans]
        exact hpend
    · have hc := (hother t htu).mp ht
      refine (h.request t hc).congr (by rw [hidx]) (hkept t htu hc).2 ?_ (by rw [hans])
        (hpending _ (hmine t htu hc)) (hfill _)
      rw [hres, Function.update_of_ne htu]
  · have hback : ∀ t, Holds headed d t → Holds headed c t := by
      intro t ht
      by_cases htu : t = u
      · rw [htu]
        exact hu
      · exact (hother t htu).mp ht
    intro t w ht hw
    rw [hidx]
    exact h.apart t w (hback t ht) (hback w hw)
  · intro j huse
    rw [hslots] at huse ⊢
    by_cases hj : j = c.slot_index u
    · subst hj
      rw [Function.update_self] at huse ⊢
      rcases hcase with hlt | heq
      · rw [(hmore hlt).1.in_use] at huse
        cases huse
      · exact (hlast heq).1
    · rw [Function.update_of_ne hj] at huse ⊢
      exact h.blank j huse
  · intro m hm
    obtain ⟨t, ht, htidx⟩ := h.owner m (hsub hm)
    rw [hidx]
    by_cases htu : t = u
    · subst htu
      refine ⟨t, hown.mpr (hcase.resolve_right fun heq => ?_), htidx⟩
      -- after the last answer none is left on the wire
      have hmem : m ∈ d.pending (c.slot_index t) := by
        rw [Core.pending, List.mem_filter]
        exact ⟨hm, by simpa using htidx.symm⟩
      rw [(hlast heq).2] at hmem
      cases hmem
    · exact ⟨t, (hother t htu).mpr ht, htidx⟩

theorem Demux.consume (h : Demux headed c) (hu : c.view u = .consume) :
    Demux headed
      { (c.set_slot (c.slot_index u) (c.my_slot u).consume.2).set_view u .out with
        results := Function.update c.results u (c.results u ++ [(c.my_slot u).consume.1]) } := by
  obtain ⟨hholds, hvalid⟩ : Holds headed c u ∧ (c.my_slot u).valid = true := by
    have hcarries := h.carries u
    rw [hu] at hcarries
    exact hcarries
  have hreq := h.request u hholds
  have hlen : (c.payloads u).length ≤ expects (headed u) := by
    rw [Core.payloads, List.length_map]
    exact (h.answers u).length_le
  obtain ⟨hdata, hmore, hlast⟩ := hreq.slot.consume hlen hvalid
  have hcu : (c.view u).counting = false := by rw [hu]; rfl
  refine h.receive hholds (by rw [hu]; rfl) hdata rfl rfl rfl rfl rfl ?_ ?_ (fun _ _ => rfl)
    (List.Subset.refl _) ?_ fun hn => counted_update (c := c) (v := .out) h hcu rfl hn
  · intro hlt
    obtain ⟨hslot, hrec, -⟩ := hmore hlt
    refine ⟨hslot, ?_⟩
    rw [hrec]
    exact hreq.pending
  · intro heq
    obtain ⟨hnew, hall⟩ := hlast heq
    refine ⟨hnew, hreq.pending.trans ?_⟩
    rw [hall, Core.payloads, List.length_map, List.drop_length]
  · intro hkept w hw
    refine (h.carries w).mono ?_ (fun hh => (hkept w hw hh).1) rfl
      (fun hh => by rw [(hkept w hw hh).2]) rfl id
      (fun _ _ hr => ⟨hr.received, hr.message⟩) ?_
    · intro _
      exact ⟨Function.update_of_ne hw _ _, rfl⟩
    · intro j head hv
      by_cases hj : j = c.slot_index u
      · subst hj
        -- the slot is being filled, so an answer is still to come
        obtain ⟨-, -, hfilled⟩ := hreq.slot.filling head ⟨w, by rw [hv]; rfl⟩
        have hlt : (c.results u).length + 1 < expects (headed u) := by
          have hk := hholds.2
          by_contra hge
          have hall := (hlast (by omega)).2
          omega
        simpa [Core.set_view, Core.set_slot, Core.my_slot] using (hmore hlt).2.2 head
      · simp [Core.set_view, Core.set_slot, hj]

/-- A step of the thread that has the header, or takes it. -/
theorem Demux.solo (h : Demux headed c) (halone : ∀ w, w ≠ u → (c.view w).busy = false)
    (hu : Holds headed c u) (hv : v ≠ .no_slot) (hview : d.view = Function.update c.view u v)
    (hidx : d.slot_index = c.slot_index) (hres : d.results = c.results)
    (hans : d.answers = c.answers) (hin : Holds headed d u → Carries headed d u v)
    (hrequest : ∀ t, Holds headed c t → Request headed d t)
    (hvalid : ∀ t, Holds headed c t → (c.my_slot t).valid = true → (d.my_slot t).valid = true)
    (hblank : ∀ j, (d.slots j).in_use = false → d.slots j = .new)
    (hsub : d.wire.sent.drop d.counted ⊆ c.wire.sent.drop c.counted)
    (hcounted : (∀ t, (d.view t).counting = false) → d.wire.received.length = d.counted) :
    Demux headed d := by
  have hholds : ∀ t, Holds headed d t ↔ Holds headed c t :=
    fun t => holds_update hview hu.1 hv (by rw [hres])
  refine ⟨?_, ?_, ?_, ?_, ?_, hblank, ?_, hcounted⟩
  · refine carries_update hview (hin ((hholds u).mpr hu)) ?_
    intro w hw
    refine (h.carries w).idle (halone w hw) ?_ (hholds w).mpr (hvalid w)
    intro _
    rw [hres, hans]
    exact ⟨rfl, rfl⟩
  · intro t
    rw [hres, Core.payloads, hans]
    exact h.results t
  · rw [hans]
    exact h.answers
  · intro t ht
    exact hrequest t ((hholds t).mp ht)
  · intro t w ht hw
    rw [hidx]
    exact h.apart t w ((hholds t).mp ht) ((hholds w).mp hw)
  · intro m hm
    obtain ⟨t, ht, htidx⟩ := h.owner m (hsub hm)
    exact ⟨t, (hholds t).mpr ht, by rw [hidx, htidx]⟩

/-- A thread copies the header of the next message. -/
theorem Demux.copy {w : simple_wire.Sys ResponseHeader} (h : Demux headed c)
    (hu : c.view u = .inside) (hfree : ∀ v, (c.view v).busy = false)
    (hw : simple_wire.step c.wire .copy_header = some w) :
    Demux headed { c.set_view u .header with wire := w } := by
  obtain ⟨hsent, hrec, -, hreader⟩ := step_copy_header hw
  have hholds : Holds headed c u := by
    have hcarries := h.carries u
    rw [hu] at hcarries
    exact hcarries
  have hcu : (c.view u).counting = false := by rw [hu]; rfl
  refine h.solo (fun v _ => hfree v) hholds (by simp) rfl rfl rfl rfl ?_ ?_
    (fun _ _ hv => hv) h.blank ?_ ?_
  · intro hd
    refine ⟨hd, ?_⟩
    simp [hreader]
  · intro t ht
    refine (h.request t ht).congr rfl rfl rfl rfl ?_
      (filling_same (v := .header) (by rw [hu]; rfl) rfl rfl _)
    simp [Core.pending, Core.set_view, hsent]
  · simp [Core.set_view, hsent]
  · intro hn
    simpa [Core.set_view, hrec] using counted_update (v := .header) h hcu rfl hn

/-- The header names the slot of its owner, and its message is the next one there. -/
theorem Demux.header_owner (h : Demux headed c) {m : Message ResponseHeader}
    (hm : c.wire.sent[c.counted]? = some m) {j : Nat} (hj : m.header.idx.toNat = j) :
    ∃ t, Holds headed c t ∧ c.slot_index t = j ∧ (c.payloads t).length ≤ expects (headed t) ∧
      (c.payloads t)[(c.my_slot t).received]? = some m.payload ∧
      ((c.my_slot t).received = 0 → (m.header.type = RESPONSE_BODYHEAD ↔ headed t = true)) := by
  obtain ⟨t, ht, hidx, hget⟩ := h.next hm
  refine ⟨t, ht, hidx.trans hj, ?_, ?_, ?_⟩
  · rw [Core.payloads, List.length_map]
    exact (h.answers t).length_le
  · rw [Core.payloads, List.getElem?_map, hget]
    rfl
  · intro h0
    rw [(h.answers t).types _ m hget, h0]
    simp

/-- The thread that has the header changes the slot `j` of thread `t`. -/
theorem Demux.fill {j t : Nat} {r : Slot} (h : Demux headed c)
    (halone : ∀ w, w ≠ u → (c.view w).busy = false) (hu : Holds headed c u) (hv : v ≠ .no_slot)
    (ht : Holds headed c t) (hj : c.slot_index t = j)
    (hview : d.view = Function.update c.view u v) (hslots : d.slots = Function.update c.slots j r)
    (hidx : d.slot_index = c.slot_index) (hres : d.results = c.results)
    (hans : d.answers = c.answers)
    (hslot : r.Serves (headed t) (c.payloads t) (c.results t).length
      fun head => v.filling = some (j, head))
    (hpending : d.pending j = (c.answers t).drop r.received)
    (hpending' : ∀ k, k ≠ j → d.pending k = c.pending k)
    (hvalid : (c.slots j).valid = true → r.valid = true)
    (hfu : ∀ k, k ≠ j → ∀ head, (c.view u).filling ≠ some (k, head))
    (hfv : ∀ k, k ≠ j → ∀ head, v.filling ≠ some (k, head))
    (hin : Holds headed d u → Carries headed d u v)
    (hsub : d.wire.sent.drop d.counted ⊆ c.wire.sent.drop c.counted)
    (hcounted : (∀ k, (d.view k).counting = false) → d.wire.received.length = d.counted) :
    Demux headed d := by
  have hfill : ∀ k head, Filling d k head ↔ v.filling = some (k, head) := by
    intro k head
    have hself : d.view u = v := by
      rw [hview]
      simp
    rw [← hself]
    apply filling_alone
    intro x hx
    rw [hview, Function.update_of_ne hx]
    exact halone x hx
  have hmine : d.slots j = r := by
    rw [hslots, Function.update_self]
  refine h.solo halone hu hv hview hidx hres hans hin ?_ ?_ ?_ hsub hcounted
  · intro x hx
    by_cases hxj : c.slot_index x = j
    · obtain rfl : x = t := h.apart x t hx ht (hxj.trans hj.symm)
      have hmy : d.my_slot x = r := by
        rw [Core.my_slot, hidx, hj, hmine]
      refine ⟨?_, ?_, ?_⟩
      · rw [hidx]
        exact (h.request x hx).index_lt
      · rw [hmy, Core.payloads, hans, hres, hidx, hj]
        exact hslot.congr (hfill j)
      · rw [hidx, hmy, hans, hj]
        exact hpending
    · refine (h.request x hx).congr (by rw [hidx]) (my_slot_of_ne hslots (by rw [hidx]) hxj)
        (by rw [hres]) (by rw [hans]) (hpending' _ hxj) ?_
      intro head
      rw [hfill, filling_alone halone]
      simp [hfu _ hxj, hfv _ hxj]
  · intro x hx hval
    by_cases hxj : c.slot_index x = j
    · rw [Core.my_slot, hidx, hxj, hmine]
      rw [Core.my_slot, hxj] at hval
      exact hvalid hval
    · rw [my_slot_of_ne hslots (by rw [hidx]) hxj]
      exact hval
  · intro k huse
    by_cases hk : k = j
    · subst hk
      rw [hmine, hslot.in_use] at huse
      cases huse
    · rw [hslots, Function.update_of_ne hk] at huse ⊢
      exact h.blank k huse

theorem set_target_received (r : Slot) (head : Bool) (data : List UInt8) :
    (r.set_target head data).received = r.received := by
  cases head <;> rfl

theorem pre_receive_received (r : Slot) (msg_type : UInt16) (head : Bool) (length : Nat) :
    ((r.pre_receive msg_type).2.resize head length).received = r.received := by
  rw [Slot.resize, set_target_received]
  simp only [Slot.pre_receive, Slot.expect]
  split <;> rfl

/-- The message is for another thread: its slot gets ready for it. -/
theorem Demux.other {j : Nat} {p : Bool × Slot} (h : Demux headed c) (hi : Inv c.wire)
    (ho : OneBusy c) (hu : c.view u = .header) (hidx : c.header_received.idx.toNat = j)
    (hp : p = (c.slots j).pre_receive c.header_received.type) :
    Demux headed ((c.set_slot j (p.2.resize p.1 c.header_received.length.toNat)).set_view u
      (.other j p.1)) := by
  have halone := ho.alone (u := u) (by rw [hu]; rfl)
  obtain ⟨hholds, hreader⟩ : Holds headed c u ∧ c.wire.reader ≠ .idle := by
    have hcarries := h.carries u
    rw [hu] at hcarries
    exact hcarries
  obtain ⟨hlen, m, hm, hheader⟩ := h.current hi halone (by rw [hu]; rfl) hreader
  have hmj : m.header.idx.toNat = j := by
    rw [← hheader]
    exact hidx
  obtain ⟨t, ht, htj, hle, hnext, htype⟩ := h.header_owner hm hmj
  have hreq := h.request t ht
  have hslot := hreq.slot
  have hrec := hreq.pending
  rw [Core.my_slot, htj] at hslot hrec hnext htype
  have hnone : ∀ head, ¬ Filling c j head := by
    intro head hf
    rw [filling_alone halone, hu] at hf
    cases hf
  have hlt := (List.getElem?_eq_some_iff.mp hnext).1
  subst hp
  refine h.fill halone hholds (by simp) ht htj rfl rfl rfl rfl rfl ?_ ?_ (fun _ _ => rfl)
    ?_ ?_ ?_ ?_
    (List.Subset.refl _) ?_
  · refine hslot.pre_receive hnone hle hlt (by rw [hheader]; exact htype) _ ?_
    intro head
    simp [View.filling, eq_comm]
  · rw [pre_receive_received]
    exact hrec
  · rw [pre_receive_valid]
    exact id
  · intro k _ head
    simp [hu, View.filling]
  · intro k hk head
    simp [View.filling, hk.symm]
  · intro hd
    exact ⟨hd, hreader, hidx⟩
  · intro _
    exact hlen

/-- The reader has all of the message whose header it has taken. -/
theorem Demux.read {w : simple_wire.Sys ResponseHeader} {j : Nat} (h : Demux headed c)
    (hi : Inv c.wire) (hi' : Inv w) (halone : ∀ w, w ≠ u → (c.view w).busy = false)
    (hu : (c.view u).reads = true) (hreader : c.wire.reader ≠ .idle)
    (hidx : c.header_received.idx.toNat = j)
    (hw : simple_wire.step c.wire .advance = some w) (hr : w.reader = .idle) (hwire : d.wire = w)
    (hcount : d.counted = c.counted) : Read d j (last_read w) := by
  obtain ⟨hlen, -⟩ := h.current hi halone hu hreader
  obtain ⟨-, top, hrec, hheader⟩ := step_complete hw hr
  obtain ⟨m, hm, hmh, hpayload⟩ := last_read_sent hi' hw hr
  refine ⟨?_, m, ?_, ?_, ?_, hpayload⟩
  · rw [hwire, hcount, hrec, List.length_append, hlen]
    rfl
  · rw [hwire, hcount, ← hlen]
    exact hm
  · rw [Core.header_received, hwire, hheader, hmh]
  · rw [hmh]
    exact hidx

theorem Demux.done_own {w : simple_wire.Sys ResponseHeader} (h : Demux headed c)
    (hi : Inv c.wire) (hi' : Inv w) (ho : OneBusy c) (hu : c.view u = .own)
    (hw : simple_wire.step c.wire .advance = some w) (hr : w.reader = .idle) :
    Demux headed { c.set_view u (.own_count (last_read w)) with wire := w } := by
  have halone := ho.alone (u := u) (by rw [hu]; rfl)
  obtain ⟨hholds, hreader, hidx, hvalid⟩ : Carries headed c u .own := by
    have hcarries := h.carries u
    rwa [hu] at hcarries
  obtain ⟨hsent, -⟩ := step_complete hw hr
  refine h.solo halone hholds (by simp) rfl rfl rfl rfl ?_ ?_ (fun _ _ hv => hv) h.blank ?_ ?_
  · intro hd
    exact ⟨hd, h.read hi hi' halone (by rw [hu]; rfl) hreader hidx hw hr rfl rfl, hvalid⟩
  · intro t ht
    refine (h.request t ht).congr rfl rfl rfl rfl ?_
      (filling_same (v := .own_count (last_read w)) (by rw [hu]; rfl) rfl rfl _)
    simp [Core.pending, Core.set_view, hsent]
  · simp [Core.set_view, hsent]
  · intro hn
    have hnu := hn u
    simp [Core.set_view, View.counting] at hnu

theorem Demux.done_other {w : simple_wire.Sys ResponseHeader} {j : Nat} {head : Bool}
    (h : Demux headed c) (hi : Inv c.wire) (hi' : Inv w) (ho : OneBusy c)
    (hu : c.view u = .other j head) (hw : simple_wire.step c.wire .advance = some w)
    (hr : w.reader = .idle) :
    Demux headed { (c.set_slot j ((c.slots j).set_target head (last_read w))).set_view u
      (.other_count j head) with wire := w } := by
  have halone := ho.alone (u := u) (by rw [hu]; rfl)
  obtain ⟨hholds, hreader, hidx⟩ : Carries headed c u (.other j head) := by
    have hcarries := h.carries u
    rwa [hu] at hcarries
  obtain ⟨hsent, -⟩ := step_complete hw hr
  have hfill : Filling c j head := ⟨u, by rw [hu]; rfl⟩
  obtain ⟨t, ht, htj⟩ := h.filling_owner hi ho hfill
  have hreq := h.request t ht
  have hslot := hreq.slot
  have hpending := hreq.pending
  rw [Core.my_slot, htj] at hslot hpending
  have hle : (c.payloads t).length ≤ expects (headed t) := by
    rw [Core.payloads, List.length_map]
    exact (h.answers t).length_le
  have hsame : ∀ k, ({ (c.set_slot j ((c.slots j).set_target head (last_read w))).set_view u
      (.other_count j head) with wire := w } : Core).pending k = c.pending k := by
    intro k
    simp [Core.pending, Core.set_view, Core.set_slot, hsent]
  refine h.fill halone hholds (by simp) ht htj rfl rfl rfl rfl rfl ?_ ?_ (fun k _ => hsame k) ?_ ?_
    ?_ ?_ ?_ ?_
  · refine (hslot.set_target hle hfill _).congr ?_
    intro head'
    rw [filling_alone halone, hu]
    rfl
  · rw [set_target_received, hsame]
    exact hpending
  · rw [set_target_valid]
    exact id
  · intro k hk head'
    simp [hu, View.filling, hk.symm]
  · intro k hk head'
    simp [View.filling, hk.symm]
  · intro hd
    refine ⟨hd, ?_⟩
    have hread := h.read (d := { (c.set_slot j ((c.slots j).set_target head (last_read w))).set_view u
      (.other_count j head) with wire := w }) hi hi' halone (by rw [hu]; rfl) hreader hidx hw hr rfl
      rfl
    simpa [Core.set_view, Core.set_slot, Slot.target_set_target] using hread
  · simp [Core.set_view, Core.set_slot, hsent]
  · intro hn
    have hnu := hn u
    simp [Core.set_view, View.counting] at hnu

/-- The thread counts a message of its own. -/
theorem Demux.count_own {res_message : List UInt8} (h : Demux headed c) (ho : OneBusy c)
    (hu : c.view u = .own_count res_message) :
    Demux headed
      { (c.set_slot (c.slot_index u)
          ((c.my_slot u).receive_and_consume c.header_received.type)).set_view u .out with
        results := Function.update c.results u (c.results u ++ [res_message])
        counted := c.counted + 1 } := by
  have halone := ho.alone (u := u) (by rw [hu]; rfl)
  obtain ⟨hholds, hread, hvalid⟩ : Carries headed c u (.own_count res_message) := by
    have hcarries := h.carries u
    rwa [hu] at hcarries
  obtain ⟨m, hm, hheader, hmidx, hpayload⟩ := hread.message
  obtain ⟨t, ht, htidx, hle, hnext, htype⟩ := h.header_owner hm hmidx
  obtain rfl : t = u := h.apart t u ht hholds htidx
  have hreq := h.request t hholds
  have hnone : ∀ head, ¬ Filling c (c.slot_index t) head := by
    intro head hf
    rw [filling_alone halone, hu] at hf
    cases hf
  have hlt := (List.getElem?_eq_some_iff.mp hnext).1
  obtain ⟨hk, hmore, hlast⟩ := hreq.slot.receive_and_consume hnone hle hvalid hlt htype
  generalize hd : ({ (c.set_slot (c.slot_index t)
    ((c.my_slot t).receive_and_consume c.header_received.type)).set_view t .out with
    results := Function.update c.results t (c.results t ++ [res_message])
    counted := c.counted + 1 } : Core) = d
  have hpending := pending_count (d := d) hm (by rw [← hd]; rfl) (by rw [← hd])
  have hrest : d.pending (c.slot_index t) = (c.answers t).drop ((c.my_slot t).received + 1) := by
    have hp := hpending (c.slot_index t)
    rw [if_pos hmidx, hreq.pending] at hp
    exact (drop_succ_of_cons hp.symm).2
  subst hd
  rw [hheader]
  refine h.receive hholds (by rw [hu]; rfl) ?_ rfl rfl rfl rfl rfl ?_ ?_ ?_ ?_ ?_ ?_
  · rw [hk, hnext, hpayload]
  · intro hlt'
    obtain ⟨hslot, hrec⟩ := hmore hlt'
    refine ⟨hslot, ?_⟩
    rw [hrec, hk]
    exact hrest
  · intro heq
    refine ⟨hlast heq, hrest.trans ?_⟩
    rw [List.drop_eq_nil_iff, ← hk, heq]
    exact (h.answers t).length_le
  · intro j hj
    have hp := hpending j
    rw [if_neg (by rw [hmidx]; exact hj.symm)] at hp
    exact hp.symm
  · exact List.drop_subset_drop_left _ (Nat.le_succ _)
  · intro hkept w hw
    refine (h.carries w).idle (halone w hw) ?_ (fun hh => (hkept w hw hh).1) ?_
    · intro _
      exact ⟨Function.update_of_ne hw _ _, rfl⟩
    · intro hh hv
      rw [(hkept w hw hh).2]
      exact hv
  · intro _
    exact hread.received

/-- The thread counts a message of another thread. -/
theorem Demux.count_other {j : Nat} {head : Bool} (h : Demux headed c)
    (ho : OneBusy c) (hu : c.view u = .other_count j head) :
    Demux headed
      { (c.set_slot j (c.slots j).post_receive).set_view u .inside with
        stores := c.stores ++ [(j, (c.slots j).target head)]
        counted := c.counted + 1 } := by
  have halone := ho.alone (u := u) (by rw [hu]; rfl)
  obtain ⟨hholds, hread⟩ : Carries headed c u (.other_count j head) := by
    have hcarries := h.carries u
    rwa [hu] at hcarries
  obtain ⟨m, hm, hheader, hmidx, hpayload⟩ := hread.message
  obtain ⟨t, ht, htj, hle, hnext, -⟩ := h.header_owner hm hmidx
  have hfill : Filling c j head := ⟨u, by rw [hu]; rfl⟩
  have hreq := h.request t ht
  have hslot := hreq.slot
  have hpend := hreq.pending
  rw [Core.my_slot, htj] at hslot hpend hnext
  generalize hd : ({ (c.set_slot j (c.slots j).post_receive).set_view u .inside with
    stores := c.stores ++ [(j, (c.slots j).target head)]
    counted := c.counted + 1 } : Core) = d
  have hpending := pending_count (d := d) hm (by rw [← hd]; rfl) (by rw [← hd])
  have hrest : d.pending j = (c.answers t).drop ((c.slots j).received + 1) := by
    have hp := hpending j
    rw [if_pos hmidx, hpend] at hp
    exact (drop_succ_of_cons hp.symm).2
  subst hd
  refine h.fill halone hholds (by simp) ht htj rfl rfl rfl rfl rfl ?_ hrest ?_ ?_ ?_ ?_ id ?_ ?_
  · refine hslot.post_receive hfill ?_ ?_
    · rw [hnext, hpayload]
    · simp [View.filling]
  · intro k hk
    have hp := hpending k
    rw [if_neg (by rw [hmidx]; exact hk.symm)] at hp
    exact hp.symm
  · intro hv
    have hlt : (c.slots j).consumed < (c.slots j).received := by simpa [Slot.valid] using hv
    exact decide_eq_true (Nat.lt_succ_of_lt hlt)
  · intro k hk head'
    simp [hu, View.filling, hk.symm]
  · intro k _ head'
    simp [View.filling]
  · exact List.drop_subset_drop_left _ (Nat.le_succ _)
  · intro _
    exact hread.received

/-- The wire stays open, the server answers each request with its messages, in
their order and with the index of its slot, and a thread calls `receive` once for
each of them. A thread that makes several requests counts as several threads. -/
def Polite (headed : Nat → Bool) (c : Core) : Act → Prop
  | .call t => (c.results t).length < expects (headed t)
  | .answer t m => c.view t ≠ .no_slot ∧ m.header.idx.toNat = c.slot_index t ∧
      (c.answers t).length < expects (headed t) ∧
      (m.header.type = RESPONSE_BODYHEAD ↔ headed t = true ∧ c.answers t = [])
  | .write _ | .close | .notify_shutdown => False
  | _ => True

/-- A thread that finds a message of its own on the wire has none in its slot. -/
def InTurn (c : Core) : Act → Prop
  | .dispatch t => c.header_received.idx.toNat = c.slot_index t → (c.my_slot t).valid = false
  | _ => True

theorem demux_step {a : Act} (h : Demux headed c) (hi : Inv c.wire) (hi' : Inv d.wire)
    (ho : OneBusy c) (hp : Polite headed c a) (ha : InTurn c a) (hs : CoreStep c a d) :
    Demux headed d := by
  cases hs with
  | still => exact h
  | @call u hu =>
    apply h.set_view (by rw [hu]; rfl) rfl
    exact ⟨by simp [hu], hp⟩
  | @leave a u hu =>
    apply h.set_view (by rw [hu]; rfl) rfl
    trivial
  | wire _ hw => exact h.set_wire hw
  | write _ => exact absurd hp id
  | answer hw =>
    obtain ⟨hu, hidx, hlt, ht⟩ := hp
    exact h.answer hi hw hu hidx hlt ht
  | take hu hlt hfree => exact h.take hi ho hu hlt hfree rfl rfl rfl rfl rfl rfl rfl
  | @test u hu hv =>
    have hcarries := h.carries u
    rw [hu] at hcarries
    apply h.set_view (by rw [hu]; rfl) rfl
    exact ⟨hcarries, hv⟩
  | consume hu => exact h.consume hu
  | copy hu hfree hw => exact h.copy hu hfree hw
  | @own u hu hidx =>
    have hcarries := h.carries u
    rw [hu] at hcarries
    apply h.set_view (by rw [hu]; rfl) rfl
    exact ⟨hcarries.1, hcarries.2, hidx, ha hidx⟩
  | other hu hidx _ _ hpre => exact h.other hi ho hu hidx hpre
  | @escape u hu hge =>
    -- the header is one that was written for a request, and a request has a slot
    have hcarries := h.carries u
    rw [hu] at hcarries
    obtain ⟨-, m, hm, hheader⟩ := h.current hi (ho.alone (by rw [hu]; rfl)) (by rw [hu]; rfl)
      hcarries.2
    obtain ⟨t, ht, hidx, -⟩ := h.next hm
    have hlt := (h.request t ht).index_lt
    rw [hheader] at hge
    omega
  | done_own hu hw hr => exact h.done_own hi hi' ho hu hw hr
  | done_other hu hw hr => exact h.done_other hi hi' ho hu hw hr
  | count_own hu => exact h.count_own ho hu
  | count_other hu => exact h.count_other ho hu

end Demux

end tateyama_bootstrap.session_wire
