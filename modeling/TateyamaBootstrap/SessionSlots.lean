-- The messages of one slot. A request is answered with a body, or with a head
-- and a body. `Slot.Serves` ties the counters and the two messages of a slot to
-- the answer of its request, and each method of the slot keeps it.
import TateyamaBootstrap.SessionWakeups

namespace tateyama_bootstrap.session_wire

/-! ## The messages of one slot -/

/-- How many messages answer a request. -/
def expects (headed : Bool) : Nat := if headed then 2 else 1

theorem expects_pos (headed : Bool) : 0 < expects headed := by
  cases headed <;> simp [expects]

theorem expects_eq_two (headed : Bool) : expects headed = 2 ↔ headed = true := by
  cases headed <;> simp [expects]

/-- Only after a head there is one more message. -/
theorem expects_more {headed : Bool} {k : Nat} (hk : k < expects headed) :
    k + 1 < expects headed ↔ headed = true ∧ k = 0 := by
  cases headed with
  | false => simp [expects]
  | true =>
    simp only [expects, if_true] at hk ⊢
    simp only [true_and]
    omega

/-- The slot serves a request whose answer so far is `answers`, of which `k` were
received. `F` tells which of its two messages is being filled. -/
structure Slot.Serves (headed : Bool) (answers : List (List UInt8)) (k : Nat) (F : Bool → Prop)
    (r : Slot) : Prop where
  in_use : r.in_use = true
  consumed : r.consumed = k
  le_received : k ≤ r.received
  received_le : r.received ≤ answers.length
  expected : r.expected = expects headed ∨ r.expected = 0 ∧ r.received = 0
  head : headed = true → k = 0 → 0 < r.received → answers[0]? = some r.body_head_message
  body : r.received = expects headed → answers[r.received - 1]? = some r.body_message
  filling : ∀ head, F head → r.expected = expects headed ∧
    (head = true ↔ headed = true ∧ r.received = 0) ∧ r.received < answers.length

namespace Slot.Serves

variable {headed : Bool} {answers : List (List UInt8)} {k : Nat} {F F' : Bool → Prop} {r : Slot}

theorem congr (h : r.Serves headed answers k F) (hF : ∀ head, F' head ↔ F head) :
    r.Serves headed answers k F' := by
  refine ⟨h.in_use, h.consumed, h.le_received, h.received_le, h.expected, h.head, h.body, ?_⟩
  intro head hf
  rw [hF] at hf
  exact h.filling head hf

/-- One more answer is written. -/
theorem append (h : r.Serves headed answers k F) (data : List UInt8) :
    r.Serves headed (answers ++ [data]) k F := by
  have hgrow : ∀ (i : Nat) x, answers[i]? = some x → (answers ++ [data])[i]? = some x := by
    intro i x hx
    rw [List.getElem?_append_left (List.getElem?_eq_some_iff.mp hx).1]
    exact hx
  have hle := h.received_le
  refine ⟨h.in_use, h.consumed, h.le_received, ?_, h.expected, ?_, ?_, ?_⟩
  · rw [List.length_append]
    omega
  · intro h1 h2 h3
    exact hgrow _ _ (h.head h1 h2 h3)
  · intro h1
    exact hgrow _ _ (h.body h1)
  · intro head hf
    obtain ⟨h1, h2, h3⟩ := h.filling head hf
    refine ⟨h1, h2, ?_⟩
    rw [List.length_append]
    omega

/-- A slot that was just taken. -/
theorem taken (hF : ∀ head, ¬ F head) :
    ({ Slot.new with in_use := true } : Slot).Serves headed [] 0 F := by
  refine ⟨rfl, rfl, Nat.le_refl _, Nat.le_refl _, Or.inr ⟨rfl, rfl⟩, ?_, ?_, ?_⟩
  · simp [Slot.new]
  · intro h
    have hpos := expects_pos headed
    change 0 = expects headed at h
    omega
  · intro head hf
    exact absurd hf (hF head)

/-- The first message tells how many there are. -/
theorem expect (h : r.Serves headed answers k F) (hF : ∀ head, ¬ F head) {msg_type : UInt16}
    (ht : r.received = 0 → (msg_type = RESPONSE_BODYHEAD ↔ headed = true)) :
    (r.expect msg_type).Serves headed answers k F ∧
      (r.expect msg_type).expected = expects headed := by
  unfold Slot.expect
  split
  · rename_i h0
    have hr : r.received = 0 := by
      rcases h.expected with he | he
      · have hpos := expects_pos headed
        omega
      · exact he.2
    have he : (if msg_type = RESPONSE_BODYHEAD then 2 else 1) = expects headed := by
      simp [expects, ht hr]
    refine ⟨⟨h.in_use, h.consumed, h.le_received, h.received_le, Or.inl he, h.head, h.body, ?_⟩, he⟩
    intro head hf
    exact absurd hf (hF head)
  · rename_i h0
    refine ⟨h, h.expected.resolve_right ?_⟩
    exact fun he => h0 he.1

theorem set_target (h : r.Serves headed answers k F) (hlen : answers.length ≤ expects headed)
    {head : Bool} (hf : F head) (data : List UInt8) :
    (r.set_target head data).Serves headed answers k F := by
  obtain ⟨-, hiff, hlt⟩ := h.filling head hf
  unfold Slot.set_target
  split
  · rename_i hh
    obtain ⟨-, h0⟩ := hiff.mp hh
    refine ⟨h.in_use, h.consumed, h.le_received, h.received_le, h.expected, ?_, h.body, h.filling⟩
    simp [h0]
  · refine ⟨h.in_use, h.consumed, h.le_received, h.received_le, h.expected, h.head, ?_, h.filling⟩
    -- the body is still to come
    intro hall
    change r.received = expects headed at hall
    omega

theorem pre_receive (h : r.Serves headed answers k F) (hF : ∀ head, ¬ F head)
    (hlen : answers.length ≤ expects headed) (hlt : r.received < answers.length)
    {msg_type : UInt16} (ht : r.received = 0 → (msg_type = RESPONSE_BODYHEAD ↔ headed = true))
    (length : Nat) (hF' : ∀ head, F' head ↔ head = (r.pre_receive msg_type).1) :
    ((r.pre_receive msg_type).2.resize (r.pre_receive msg_type).1 length).Serves headed answers k
      F' := by
  obtain ⟨h1, he⟩ := h.expect hF ht
  have hrec : (r.expect msg_type).received = r.received := by
    unfold Slot.expect
    split <;> rfl
  have h2 : (r.pre_receive msg_type).2.Serves headed answers k F' := by
    refine ⟨h1.in_use, h1.consumed, h1.le_received, h1.received_le, h1.expected, h1.head, h1.body,
      ?_⟩
    intro head hf
    rw [hF'] at hf
    subst hf
    refine ⟨he, ?_, ?_⟩
    · simp [Slot.pre_receive, he, expects_eq_two]
    · change (r.expect msg_type).received < answers.length
      omega
  exact h2.set_target hlen ((hF' _).mpr rfl) _

theorem post_receive (h : r.Serves headed answers k F) {head : Bool} (hf : F head)
    (hw : answers[r.received]? = some (r.target head)) (hF' : ∀ head, ¬ F' head) :
    r.post_receive.Serves headed answers k F' := by
  obtain ⟨he, hiff, hlt⟩ := h.filling head hf
  have hle := h.le_received
  refine ⟨h.in_use, h.consumed, ?_, hlt, Or.inl he, ?_, ?_, ?_⟩
  · change k ≤ r.received + 1
    omega
  · intro h1 h2 _
    by_cases h0 : r.received = 0
    · have hh : head = true := hiff.mpr ⟨h1, h0⟩
      rw [h0, hh] at hw
      exact hw
    · exact h.head h1 h2 (by omega)
  · intro hall
    change r.received + 1 = expects headed at hall
    have hh : head = false := by
      rw [← Bool.not_eq_true, hiff]
      rintro ⟨h1, h2⟩
      rw [h1, h2] at hall
      cases hall
    rw [hh] at hw
    exact hw
  · intro head' hf'
    exact absurd hf' (hF' head')

/-- `consume` gives the next answer, and frees the slot after the last. -/
theorem consume (h : r.Serves headed answers k F) (hlen : answers.length ≤ expects headed)
    (hv : r.valid = true) :
    answers[k]? = some r.consume.1 ∧
      (k + 1 < expects headed →
        r.consume.2.Serves headed answers (k + 1) F ∧ r.consume.2.received = r.received ∧
          ∀ head, r.consume.2.target head = r.target head) ∧
      (k + 1 = expects headed → r.consume.2 = Slot.new ∧ r.received = answers.length) := by
  have hc := h.consumed
  have hlt : k < r.received := by
    simp only [Slot.valid, decide_eq_true_eq] at hv
    omega
  have hle := h.received_le
  have hmore : k + 1 < expects headed ↔ headed = true ∧ k = 0 := expects_more (by omega)
  have he : r.expected = expects headed := by
    rcases h.expected with he | he
    · exact he
    · omega
  have hhead : r.expected = 2 ∧ r.consumed = 0 ↔ headed = true ∧ k = 0 := by
    rw [he, hc, expects_eq_two]
  unfold Slot.consume
  split
  · rename_i h2
    rw [hhead] at h2
    have hlast := hmore.mpr h2
    refine ⟨?_, ?_, ?_⟩
    · rw [h2.2]
      exact h.head h2.1 h2.2 (by omega)
    · intro _
      refine ⟨⟨h.in_use, congrArg (· + 1) hc, hlt, h.received_le, Or.inl he, ?_, h.body, h.filling⟩,
        rfl, fun _ => rfl⟩
      intro _ h0
      omega
    · intro h1
      omega
  · rename_i h2
    rw [hhead] at h2
    have hlast : ¬ k + 1 < expects headed := fun h1 => h2 (hmore.mp h1)
    have hall : r.received = expects headed := by omega
    refine ⟨?_, fun h1 => absurd h1 hlast, fun _ => ⟨rfl, by omega⟩⟩
    have hbody := h.body hall
    rwa [show r.received - 1 = k by omega] at hbody

/-- The thread itself takes the next answer from the wire. -/
theorem receive_and_consume (h : r.Serves headed answers k F) (hF : ∀ head, ¬ F head)
    (hlen : answers.length ≤ expects headed) (hv : r.valid = false)
    (hlt : r.received < answers.length) {msg_type : UInt16}
    (ht : r.received = 0 → (msg_type = RESPONSE_BODYHEAD ↔ headed = true)) :
    k = r.received ∧
      (k + 1 < expects headed →
        (r.receive_and_consume msg_type).Serves headed answers (k + 1) F ∧
          (r.receive_and_consume msg_type).received = k + 1) ∧
      (k + 1 = expects headed → r.receive_and_consume msg_type = Slot.new) := by
  obtain ⟨h1, he⟩ := h.expect hF ht
  have hrec : (r.expect msg_type).received = r.received := by
    unfold Slot.expect
    split <;> rfl
  have hc := h.consumed
  have hle := h.le_received
  have hk : k = r.received := by
    simp only [Slot.valid, decide_eq_false_iff_not] at hv
    omega
  have hmore : k + 1 < expects headed ↔ headed = true ∧ k = 0 := expects_more (by omega)
  have hhead : (r.expect msg_type).expected = 2 ∧ (r.expect msg_type).received = 0 ↔
      headed = true ∧ k = 0 := by
    rw [he, hrec, expects_eq_two, hk]
  refine ⟨hk, ?_⟩
  unfold Slot.receive_and_consume
  dsimp only
  split
  · rename_i h2
    rw [hhead] at h2
    have hlast := hmore.mpr h2
    have hnext : (r.expect msg_type).received + 1 = k + 1 := by omega
    refine ⟨fun _ => ⟨⟨h1.in_use, congrArg (· + 1) h1.consumed, hnext.ge, ?_, Or.inl he,
      ?_, ?_, ?_⟩,
      hnext⟩, ?_⟩
    · dsimp only
      omega
    · intro _ h0
      omega
    · dsimp only
      intro hall
      omega
    · intro head hf
      exact absurd hf (hF head)
    · intro h3
      omega
  · rename_i h2
    rw [hhead] at h2
    exact ⟨fun h3 => absurd (hmore.mp h3) h2, fun _ => rfl⟩

end Slot.Serves

end tateyama_bootstrap.session_wire
