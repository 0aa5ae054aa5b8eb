-- The control flags of the request and the response wire: `terminate` and
-- `notify` for `peep` (unidirectional_message_wire), `close` and
-- `notify_shutdown` for `await` (unidirectional_response_wire). The reader loads
-- the flags before it looks for a message, so that a flag never overtakes a
-- message that was on the wire before it.
import TateyamaBootstrap.WireFifo

open runs ring_memory

namespace tateyama_bootstrap.simple_wire

/-! ## The two waits -/

/-- Whose wait it is. `await` writes its empty header into `header_received_`. -/
inductive Wait (T : Type)
  | peep
  | await (empty : T)

/-- Where the reader stands in `peep` or `await`. -/
inductive Poll
  /-- It is not in the call, or the call has given it a message. -/
  | out
  /-- At the head of the loop. -/
  | head
  /-- The first flag is loaded. -/
  | first (raised : Bool)
  /-- All flags are loaded, and the wire is not looked at yet. -/
  | loaded (raised notified : Bool)
  | waiting
  /-- `peep` clears `termination_requested_` before it returns. -/
  | reset
  /-- The call has returned the header that stands for no message. -/
  | control
  | thrown
deriving DecidableEq, Repr

/-- How many of the messages given to `write` were behind it at some moment:
those whose call had returned, and those whose call had stored all of them. -/
structure Behind where
  returned : Nat
  completed : Nat
deriving DecidableEq, Repr

/-- A wire with its flags. `raised` is `termination_requested_` for `peep` and
`shutdown_` for `await`; the rest is not in the source: what is behind the
writer now, what was behind it at the last call that asked the reader to stop,
and at the last such call before the reader loaded the flag. -/
structure Polled (T : Type) [WireHeader T] where
  base : Sys T
  raised : Bool
  notified : Bool
  poll : Poll
  behind : Behind
  asked : Behind
  answering : Behind

section

variable {T : Type} [WireHeader T]

def Polled.init (capacity : Nat) (buffer : Nat → UInt8) (header : T) : Polled T where
  base := Sys.init capacity buffer header
  raised := false
  notified := false
  poll := .out
  behind := ⟨0, 0⟩
  asked := ⟨0, 0⟩
  answering := ⟨0, 0⟩

inductive PollAct (T : Type) [WireHeader T]
  /-- A step of `write`, or of `read` after the header. -/
  | wire (a : Act T)
  | close
  /-- `terminate` or `notify_shutdown`. -/
  | raise
  /-- `notify`. -/
  | notify
  | call
  | load
  /-- The test of `stored`, and what follows from it. -/
  | test
  | reset
  | wake
  | timeout

/-- What is behind the writer after a step of the wire that ended its call. -/
def behind_after (s : Polled T) (a : Act T) (t : Sys T) : Behind :=
  match a, t.writer with
  | .publish, .idle => ⟨t.sent.length, t.sent.length⟩
  | .check, .idle => { s.behind with returned := t.sent.length }
  | _, _ => s.behind

/-- Whether the step of the wire is one that the writer, or the reader in
`read`, takes by itself. -/
def Act.free : Act T → Bool
  | .close | .copy_header => false
  | _ => true

/-- The flag that is loaded first: `termination_requested_` or `closed_`. -/
def first_flag (k : Wait T) (s : Polled T) : Bool :=
  match k with
  | .peep => s.raised
  | .await _ => s.base.closed

/-- The loads at the head of the loop. `await` loads `shutdown_` only when
`closed_` is not set, and `peep` loads `onetime_notification_`. -/
def load_step (k : Wait T) (s : Polled T) : Option (Polled T) :=
  match s.poll with
  | .head =>
    some { s with
      poll := .first (first_flag k s)
      answering := if first_flag k s then s.asked else s.answering }
  | .first raised =>
    match k with
    | .peep => some { s with poll := .loaded raised s.notified }
    | .await _ =>
      some { s with
        poll := .loaded (raised || s.raised) false
        answering := if !raised && s.raised then s.asked else s.answering }
  | _ => none

/-- What the loop does when no message is there. -/
def no_message (k : Wait T) (s : Polled T) (raised notified : Bool) : Polled T :=
  if raised then
    match k with
    | .peep => { s with poll := .reset }
    | .await empty =>
      { s with
        base := { s.base with wire := { s.base.wire with header_received := empty } }
        poll := .control }
  else if notified then { s with poll := .thrown }
  else { s with poll := .waiting }

/-- One step of the writer, of the reader, or of whoever sets a flag. -/
def poll_step (k : Wait T) (s : Polled T) : PollAct T → Option (Polled T)
  | .wire a =>
    if a.free then
      (step s.base a).map fun t => { s with base := t, behind := behind_after s a t }
    else none
  | .close =>
    match k with
    | .peep => some { s with base := { s.base with closed := true } }
    | .await _ => some { s with base := { s.base with closed := true }, asked := s.behind }
  | .raise => some { s with raised := true, asked := s.behind }
  | .notify => some { s with notified := true }
  | .call =>
    match s.base.reader, s.poll with
    | .idle, .out | .idle, .control | .idle, .thrown => some { s with poll := .head }
    | _, _ => none
  | .load => load_step k s
  | .test =>
    match s.poll with
    | .loaded raised notified =>
      if WireHeader.size T ≤ s.base.wire.stored then
        (step s.base .copy_header).map fun t => { s with base := t, poll := .out }
      else some (no_message k s raised notified)
    | _ => none
  | .reset => if s.poll = .reset then some { s with raised := false, poll := .control } else none
  | .wake => if s.poll = .waiting then some { s with poll := .head } else none
  | .timeout => if s.poll = .waiting then some { s with poll := .thrown } else none

/-! ## The invariant -/

/-- The reader is between two messages while it is in the call. -/
def Poll.inside : Poll → Bool
  | .head | .first _ | .loaded _ _ | .waiting | .reset | .control => true
  | .out | .thrown => false

/-- The call answers a flag. -/
def Poll.stops : Poll → Bool
  | .reset | .control => true
  | _ => false

/-- What a step of the wire moves, as far as the flags are concerned. -/
structure Moves (s t : Sys T) (a : Act T) : Prop where
  pushed : s.wire.pushed ≤ t.wire.pushed
  received : s.received.length ≤ t.received.length
  between : a.free = true → s.reader = .idle → t.reader = .idle
  /-- A call of `write` that comes to its end has published everything. -/
  complete : a = .publish → t.writer = .idle → t.wire.pushed = (stream t.sent).length

/-- A step that moves neither counter nor a received message. -/
theorem Moves.still {s t : Sys T} {a : Act T} (hp : t.wire.pushed = s.wire.pushed)
    (hr : t.received = s.received) (hb : a.free = true → s.reader = .idle → t.reader = .idle)
    (ha : a ≠ .publish) : Moves s t a :=
  ⟨Nat.le_of_eq hp.symm, by rw [hr], hb, fun h => absurd h ha⟩

theorem moves_of_step {s t : Sys T} {a : Act T} (h : Inv s) (hs : step s a = some t) :
    Moves s t a := by
  cases a with
  | write m =>
    simp only [step] at hs
    split at hs
    · cases hs
      exact .still rfl rfl (fun _ hi => hi) (by simp)
    · cases hs
  | wait =>
    simp only [step] at hs
    split at hs
    · split at hs
      · cases hs
        exact .still rfl rfl (fun _ hi => hi) (by simp)
      · cases hs
    · cases hs
  | check =>
    simp only [step] at hs
    split at hs
    · split at hs <;> (cases hs; exact .still rfl rfl (fun _ hi => hi) (by simp))
    · cases hs
  | store =>
    simp only [step] at hs
    split at hs
    · rename_i j hw
      cases hs
      obtain ⟨buffer, hb⟩ := store_keeps j s.wire
      exact .still (by dsimp only; rw [hb]) rfl (fun _ hi => hi) (by simp)
    · cases hs
  | publish =>
    simp only [step] at hs
    split at hs
    · rename_i j hw
      have hwr := h.writer
      rw [WriterOk, hw] at hwr
      have hadd := hwr.1.pushed_add
      have htotal := h.total
      have hmin : j.msg_length s.wire = min j.length s.wire.capacity := rfl
      rw [Nat.mod_eq_of_lt (by omega)] at hs
      split at hs
      · cases hs
        exact ⟨Nat.le_add_right _ _, Nat.le_refl _, fun _ hi => hi, fun _ hn => by cases hn⟩
      · rename_i hrest
        cases hs
        refine ⟨Nat.le_add_right _ _, Nat.le_refl _, fun _ hi => hi, fun _ _ => ?_⟩
        have hz : j.length - j.msg_length s.wire = 0 := Nat.le_zero.mp (Nat.le_of_not_lt hrest)
        dsimp only
        omega
    · cases hs
  | close =>
    cases hs
    exact .still rfl rfl (fun _ hi => hi) (by simp)
  | copy_header =>
    simp only [step] at hs
    split at hs
    · split at hs
      · cases hs
        exact .still (copy_header_keeps s.wire).2 rfl (fun hf => by cases hf) (by simp)
      · cases hs
    · cases hs
  | read | read_chunk =>
    simp only [step] at hs
    split at hs
    · rename_i hr
      first
      | cases hs
        exact .still rfl rfl (fun _ hi => by rw [hr] at hi; cases hi) (by simp)
      | split at hs
        · cases hs
          exact .still rfl rfl (fun _ hi => by rw [hr] at hi; cases hi) (by simp)
        · cases hs
    · cases hs
  | advance =>
    simp only [step] at hs
    split at hs
    · rename_i top length advance hr
      have hne : s.reader ≠ .idle := by
        rw [hr]
        simp
      split at hs
      · cases hs
        exact ⟨Nat.le_refl _, Nat.le_refl _, fun _ hi => absurd hi hne, fun hp => by cases hp⟩
      · cases hs
        exact ⟨Nat.le_refl _, by simp, fun _ hi => absurd hi hne, fun hp => by cases hp⟩
    · cases hs

structure PolledInv (s : Polled T) : Prop where
  base : Inv s.base
  completed_le : s.behind.completed ≤ s.base.sent.length
  pushed : offset s.base.sent s.behind.completed ≤ s.base.wire.pushed
  asked : s.asked.completed ≤ s.behind.completed
  answering : s.answering.completed ≤ s.behind.completed
  between : s.poll.inside = true → s.base.reader = .idle
  stops : s.poll.stops = true → s.answering.completed ≤ s.base.received.length

section Lemmas

variable {s t : Polled T} {k : Wait T}

theorem polledInv_init {capacity : Nat} (buffer : Nat → UInt8) (header : T)
    (hsize : WireHeader.size T < capacity) (hcap : capacity < 2 ^ 64) :
    PolledInv (Polled.init capacity buffer header) := by
  refine ⟨inv_init buffer header hsize hcap, Nat.le_refl _, Nat.le_refl _, Nat.le_refl _,
    Nat.le_refl _, ?_, ?_⟩
  · intro _
    rfl
  · intro h
    cases h

/-- A message that is behind the writer and not read is on the wire. -/
theorem PolledInv.stored (h : PolledInv s) (hr : s.base.reader = .idle)
    (hlt : s.base.received.length < s.behind.completed) :
    WireHeader.size T ≤ s.base.wire.stored := by
  have hrd := h.base.reader
  rw [ReaderOk, hr] at hrd
  have hrd' : s.base.wire.poped = offset s.base.sent s.base.received.length := hrd
  have hc := h.completed_le
  obtain ⟨m, hm⟩ : ∃ m, s.base.sent[s.base.received.length]? = some m :=
    ⟨_, List.getElem?_eq_getElem (Nat.lt_of_lt_of_le hlt hc)⟩
  have hsucc := offset_succ hm
  have hmono : offset s.base.sent (s.base.received.length + 1) ≤
      offset s.base.sent s.behind.completed := offset_mono s.base.sent hlt
  have hlen := m.length_bytes
  have hp := h.pushed
  rw [h.base.bounded.stored]
  omega

/-- Nothing that a flag must not overtake is left when the test finds no
message. -/
theorem PolledInv.caught_up (h : PolledInv s) (hr : s.base.reader = .idle)
    (hno : ¬ WireHeader.size T ≤ s.base.wire.stored) :
    s.answering.completed ≤ s.base.received.length := by
  by_contra hlt
  have := h.answering
  exact hno (h.stored hr (by omega))

theorem offset_of_step {s t : Sys T} {a : Act T} (hs : step s a = some t) {n : Nat}
    (hn : n ≤ s.sent.length) : n ≤ t.sent.length ∧ offset t.sent n = offset s.sent n := by
  rcases step_sent hs with he | ⟨m, -, he⟩
  · rw [he]
    exact ⟨hn, rfl⟩
  · rw [he, offset_append _ _ hn, List.length_append]
    exact ⟨Nat.le_add_right_of_le hn, rfl⟩

theorem PolledInv.wire (h : PolledInv s) {a : Act T} {t : Sys T} (hf : a.free = true)
    (hs : step s.base a = some t) (htotal : (stream t.sent).length < 2 ^ 64) :
    PolledInv { s with base := t, behind := behind_after s a t } := by
  have hinv := inv_step h.base hs htotal
  have hm := moves_of_step h.base hs
  obtain ⟨hn, hoff⟩ := offset_of_step hs h.completed_le
  have hpush : offset t.sent s.behind.completed ≤ t.wire.pushed := by
    rw [hoff]
    exact Nat.le_trans h.pushed hm.pushed
  have hbehind : s.behind.completed ≤ (behind_after s a t).completed ∧
      (behind_after s a t).completed ≤ t.sent.length ∧
      offset t.sent (behind_after s a t).completed ≤ t.wire.pushed := by
    unfold behind_after
    split
    · rename_i hw
      refine ⟨hn, Nat.le_refl _, ?_⟩
      rw [offset_length, hm.complete rfl hw]
    · exact ⟨Nat.le_refl _, hn, hpush⟩
    · exact ⟨Nat.le_refl _, hn, hpush⟩
  refine ⟨hinv, hbehind.2.1, hbehind.2.2, Nat.le_trans h.asked hbehind.1,
    Nat.le_trans h.answering hbehind.1, ?_, ?_⟩
  · intro hin
    exact hm.between hf (h.between hin)
  · intro hc
    exact Nat.le_trans (h.stops hc) hm.received

/-- Only the reader's place in the call and what it answers have changed. -/
theorem PolledInv.with_poll (h : PolledInv s) {poll : Poll} {answering : Behind}
    (hans : answering.completed ≤ s.behind.completed)
    (hin : poll.inside = true → s.base.reader = .idle) (hc : poll.stops = false) :
    PolledInv { s with poll, answering } := by
  refine ⟨h.base, h.completed_le, h.pushed, h.asked, hans, hin, fun hp => ?_⟩
  rw [hc] at hp
  cases hp

theorem PolledInv.load (h : PolledInv s) (hs : load_step k s = some t) : PolledInv t := by
  have hans : ∀ b : Bool, (if b then s.asked else s.answering).completed ≤ s.behind.completed := by
    intro b
    cases b with
    | false => exact h.answering
    | true => exact h.asked
  unfold load_step at hs
  split at hs
  · rename_i hp
    cases hs
    exact h.with_poll (hans _) (fun _ => h.between (by rw [hp]; rfl)) rfl
  · rename_i raised hp
    have hidle : s.base.reader = .idle := h.between (by rw [hp]; rfl)
    cases k with
    | peep =>
      cases hs
      exact h.with_poll h.answering (fun _ => hidle) rfl
    | await empty =>
      cases hs
      exact h.with_poll (hans _) (fun _ => hidle) rfl
  · cases hs

/-- The header that `await` clears is not in use between two messages. -/
theorem Inv.with_header {s : Sys T} (h : Inv s) (hr : s.reader = .idle) (header : T) :
    Inv { s with wire := { s.wire with header_received := header } } := by
  have hrd := h.reader
  rw [ReaderOk, hr] at hrd
  refine ⟨⟨h.bounded.size_lt, h.bounded.capacity_lt, h.bounded.poped_le, h.bounded.pushed_le,
    h.bounded.pushed_lt⟩, h.total, h.pushed_le, h.unread, h.boundary, h.received,
    h.writer.of_reader_step rfl rfl rfl rfl rfl rfl (Nat.le_refl _), ?_⟩
  rw [ReaderOk, hr]
  exact hrd

theorem PolledInv.no_message (h : PolledInv s) {raised notified : Bool}
    (hp : s.poll = .loaded raised notified) (hno : ¬ WireHeader.size T ≤ s.base.wire.stored) :
    PolledInv (no_message k s raised notified) := by
  have hidle : s.base.reader = .idle := h.between (by rw [hp]; rfl)
  have hup := h.caught_up hidle hno
  unfold simple_wire.no_message
  split
  · cases k with
    | peep =>
      exact ⟨h.base, h.completed_le, h.pushed, h.asked, h.answering, fun _ => hidle, fun _ => hup⟩
    | await empty =>
      exact ⟨h.base.with_header hidle empty, h.completed_le, h.pushed, h.asked, h.answering,
        fun _ => hidle, fun _ => hup⟩
  · split
    · exact h.with_poll h.answering (fun hin => by cases hin) rfl
    · exact h.with_poll h.answering (fun _ => hidle) rfl

theorem polledInv_step {a : PollAct T} (h : PolledInv s) (hs : poll_step k s a = some t)
    (htotal : (stream t.base.sent).length < 2 ^ 64) : PolledInv t := by
  cases a with
  | wire a =>
    simp only [poll_step] at hs
    split at hs
    · rename_i hf
      obtain ⟨u, hu, rfl⟩ := Option.map_eq_some_iff.mp hs
      exact h.wire hf hu htotal
    · cases hs
  | close =>
    simp only [poll_step] at hs
    cases k with
    | peep =>
      cases hs
      exact ⟨h.base.close, h.completed_le, h.pushed, h.asked, h.answering, h.between, h.stops⟩
    | await empty =>
      cases hs
      exact ⟨h.base.close, h.completed_le, h.pushed, Nat.le_refl _, h.answering, h.between,
        h.stops⟩
  | raise =>
    cases hs
    exact ⟨h.base, h.completed_le, h.pushed, Nat.le_refl _, h.answering, h.between, h.stops⟩
  | notify =>
    cases hs
    exact ⟨h.base, h.completed_le, h.pushed, h.asked, h.answering, h.between, h.stops⟩
  | call =>
    simp only [poll_step] at hs
    split at hs
    · rename_i hr _
      cases hs
      exact h.with_poll h.answering (fun _ => hr) rfl
    · rename_i hr _
      cases hs
      exact h.with_poll h.answering (fun _ => hr) rfl
    · rename_i hr _
      cases hs
      exact h.with_poll h.answering (fun _ => hr) rfl
    · cases hs
  | load => exact h.load hs
  | test =>
    simp only [poll_step] at hs
    split at hs
    · rename_i raised notified hp
      split at hs
      · obtain ⟨u, hu, rfl⟩ := Option.map_eq_some_iff.mp hs
        have hm := moves_of_step h.base hu
        obtain ⟨hn, hoff⟩ := offset_of_step hu h.completed_le
        refine ⟨inv_step h.base hu htotal, hn, ?_, h.asked, h.answering, (fun hin => by cases hin),
          (fun hc => by cases hc)⟩
        dsimp only
        rw [hoff]
        exact Nat.le_trans h.pushed hm.pushed
      · rename_i hno
        cases hs
        exact h.no_message hp hno
    · cases hs
  | reset =>
    simp only [poll_step] at hs
    split at hs
    · rename_i hp
      cases hs
      exact ⟨h.base, h.completed_le, h.pushed, h.asked, h.answering,
        fun _ => h.between (by rw [hp]; rfl), fun _ => h.stops (by rw [hp]; rfl)⟩
    · cases hs
  | wake =>
    simp only [poll_step] at hs
    split at hs
    · rename_i hp
      cases hs
      exact h.with_poll h.answering (fun _ => h.between (by rw [hp]; rfl)) rfl
    · cases hs
  | timeout =>
    simp only [poll_step] at hs
    split at hs
    · cases hs
      exact h.with_poll h.answering (fun hin => by cases hin) rfl
    · cases hs

/-- Messages are only added, in this system too. -/
theorem poll_step_total {a : PollAct T} (hs : poll_step k s a = some t) :
    (stream s.base.sent).length ≤ (stream t.base.sent).length := by
  have hsame : t.base.sent = s.base.sent →
      (stream s.base.sent).length ≤ (stream t.base.sent).length := fun he => by rw [he]
  cases a with
  | wire a =>
    simp only [poll_step] at hs
    split at hs
    · obtain ⟨u, hu, rfl⟩ := Option.map_eq_some_iff.mp hs
      exact step_total hu
    · cases hs
  | test =>
    simp only [poll_step] at hs
    split at hs
    · split at hs
      · obtain ⟨u, hu, rfl⟩ := Option.map_eq_some_iff.mp hs
        exact step_total hu
      · cases hs
        apply hsame
        unfold no_message
        split
        · cases k <;> rfl
        · split <;> rfl
    · cases hs
  | close =>
    simp only [poll_step] at hs
    cases k <;> (cases hs; exact hsame rfl)
  | raise | notify =>
    cases hs
    exact hsame rfl
  | call =>
    simp only [poll_step] at hs
    split at hs <;> cases hs <;> exact hsame rfl
  | load =>
    simp only [poll_step, load_step] at hs
    split at hs
    · cases hs
      exact hsame rfl
    · cases k <;> (cases hs; exact hsame rfl)
    · cases hs
  | reset | wake | timeout =>
    simp only [poll_step] at hs
    split at hs
    · cases hs
      exact hsame rfl
    · cases hs

end Lemmas

/-! ## The law -/

/-- What the reader has when a flag makes it stop: the first `n` messages. -/
def HasRead (s : Polled T) (n : Nat) : Prop :=
  ∀ i < n, ∃ m, s.base.sent[i]? = some m ∧ s.base.received[i]? = some m.parts

theorem PolledInv.hasRead {s : Polled T} (h : PolledInv s) (hc : s.poll = .control) :
    HasRead s s.answering.completed := by
  intro i hi
  have hlt := Nat.lt_of_lt_of_le hi (h.stops (by rw [hc]; rfl))
  have hle := h.base.received_le
  obtain ⟨m, hm⟩ : ∃ m, s.base.sent[i]? = some m :=
    ⟨_, List.getElem?_eq_getElem (Nat.lt_of_lt_of_le hlt hle)⟩
  refine ⟨m, hm, ?_⟩
  rw [h.base.received, List.getElem?_map, List.getElem?_take_of_lt hlt, hm]
  rfl

theorem not_hasRead {s : Polled T} {n : Nat} (h : s.base.received.length < n) :
    ¬ HasRead s n := by
  intro hread
  obtain ⟨m, -, hm⟩ := hread _ h
  rw [List.getElem?_eq_none (Nat.le_refl _)] at hm
  cases hm

/-- When `peep` or `await` returns because of a flag, every message that was
completely written before the flag was set has been returned and read. -/
theorem no_flag_overtakes_a_message (k : Wait T) (capacity : Nat) (buffer : Nat → UInt8)
    (header : T) (hsize : WireHeader.size T < capacity) (hcap : capacity < 2 ^ 64)
    (acts : List (PollAct T)) (s : Polled T)
    (hr : RunOf (poll_step k) Free (Polled.init capacity buffer header) acts s)
    (htotal : (stream s.base.sent).length < 2 ^ 64) (hc : s.poll = .control) :
    HasRead s s.answering.completed := by
  have h : PolledInv s := by
    refine hr.inv (I := fun s => (stream s.base.sent).length < 2 ^ 64 → PolledInv s)
      (fun _ => polledInv_init buffer header hsize hcap) ?_ htotal
    intro t a u ih _ hs hu
    exact polledInv_step (ih (Nat.lt_of_le_of_lt (poll_step_total hs) hu)) hs hu
  exact h.hasRead hc

end

/-- A request of six bytes, and the steps that write it and that read it. -/
def emptyRequest : Message MessageHeader := ⟨⟨0, 0⟩, [], List.length_nil⟩

def writeRequest (m : Message MessageHeader) : List (PollAct MessageHeader) :=
  [.wire (.write m), .wire .wait, .wire .check, .wire .store, .wire .publish]

def peepRequest : List (PollAct MessageHeader) := [.call, .load, .load, .test]

def readRequest : List (PollAct MessageHeader) :=
  peepRequest ++ [PollAct.wire .read, .wire .advance]

/-- A response that the client finds on the wire when the wire is closed. -/
def closedResponses : List (PollAct ResponseHeader) :=
  [.wire (.write ⟨⟨1, 2, 0⟩, [], List.length_nil⟩), .wire .wait, .wire .check, .wire .store,
    .wire .publish, .call, .load, .close, .load, .test, .wire .read, .wire .advance, .call, .load,
    .load, .test]

theorem no_flag_overtakes_a_message_of_two_wires :
    (∃ s : Polled MessageHeader, RunOf (poll_step .peep) Free
      (Polled.init 12 (fun _ => 0) ⟨0, 0⟩)
      (writeRequest emptyRequest ++ [PollAct.raise] ++ readRequest ++ peepRequest ++
        [PollAct.reset]) s ∧
      s.poll = .control ∧ s.answering.completed = 1 ∧ HasRead s s.answering.completed) ∧
    ∃ s : Polled ResponseHeader, RunOf (poll_step (.await ⟨0, 0, 0⟩)) Free
      (Polled.init 12 (fun _ => 0) ⟨0, 0, 0⟩) closedResponses s ∧
      s.poll = .control ∧ s.answering.completed = 1 ∧ HasRead s s.answering.completed := by
  refine ⟨?_, ?_⟩
  · obtain ⟨s, hr, hp⟩ := RunOf.exists_free
      (s := Polled.init 12 (fun _ => 0) (⟨0, 0⟩ : MessageHeader))
      (p := fun s => s.poll = .control ∧ s.answering.completed = 1 ∧
        (stream s.base.sent).length = 6)
      (by decide +kernel : (exec (poll_step .peep) _
        (writeRequest emptyRequest ++ [PollAct.raise] ++ readRequest ++ peepRequest ++
          [PollAct.reset])).any _ =
          true)
    obtain ⟨h1, h2, h3⟩ : s.poll = .control ∧ s.answering.completed = 1 ∧
        (stream s.base.sent).length = 6 := by simpa using hp
    exact ⟨s, hr, h1, h2, no_flag_overtakes_a_message _ 12 _ _ (by decide) (by decide) _ s hr
      (by omega) h1⟩
  · obtain ⟨s, hr, hp⟩ := RunOf.exists_free
      (s := Polled.init 12 (fun _ => 0) (⟨0, 0, 0⟩ : ResponseHeader))
      (p := fun s => s.poll = .control ∧ s.answering.completed = 1 ∧
        (stream s.base.sent).length = 8)
      (by decide +kernel : (exec (poll_step (.await ⟨0, 0, 0⟩)) _ closedResponses).any _ = true)
    obtain ⟨h1, h2, h3⟩ : s.poll = .control ∧ s.answering.completed = 1 ∧
        (stream s.base.sent).length = 8 := by simpa using hp
    exact ⟨s, hr, h1, h2, no_flag_overtakes_a_message _ 12 _ _ (by decide) (by decide) _ s hr
      (by omega) h1⟩

/-! ## A wire that carries 2^64 bytes -/

/-- The request wire of twelve bytes, all of them 0, on which only empty
requests have gone by. -/
def zeroWire (pushed poped : Nat) : SimpleWire MessageHeader :=
  ⟨12, fun _ => 0, pushed, poped, ⟨0, 0⟩⟩

def zeroState (w : SimpleWire MessageHeader) (writer : Writer MessageHeader) (reader : Reader)
    (sent : List (Message MessageHeader)) (received : List (MessageHeader × List UInt8))
    (poll : Poll) (n : Nat) : Polled MessageHeader where
  base := { wire := w, closed := false, writer, reader, sent, received }
  raised := false
  notified := false
  poll := poll
  behind := ⟨n, n⟩
  asked := ⟨0, 0⟩
  answering := ⟨0, 0⟩

section Zero

variable {p n : Nat} {sent : List (Message MessageHeader)}
  {received : List (MessageHeader × List UInt8)}

theorem memcpy_zero (top k : Nat) :
    memcpy (fun _ => (0 : UInt8)) top (List.replicate k 0) = fun _ => 0 := by
  funext a
  unfold memcpy
  split
  · rfl
  · rw [List.getElem?_replicate]
    split <;> rfl

theorem zero_room : (zeroWire p p).room = 12 := by
  simp only [zeroWire, SimpleWire.room, SimpleWire.stored]
  omega

theorem zero_stored : (zeroWire (p + 6) p).stored = 6 := by
  simp only [zeroWire, SimpleWire.stored]
  omega

theorem zero_address {pushed offset : Nat} :
    (zeroWire pushed p).read_address offset < 12 := by
  simp only [zeroWire, SimpleWire.read_address, SimpleWire.index]
  exact Nat.mod_lt _ (by decide)

/-- An empty request leaves the bytes of the wire 0. -/
theorem zero_store (h6 : p % 12 = 0 ∨ p % 12 = 6) (hp : p < 2 ^ 64) :
    Job.store ⟨some ⟨0, 0⟩, [], 6⟩ (zeroWire p p) = zeroWire p p := by
  have hidx : (zeroWire p p).index p = p % 12 := index_of_lt _ hp
  have hlen : (WireHeader.get_buffer (⟨0, 0⟩ : MessageHeader)) = List.replicate 6 0 := rfl
  have hfit : p % 12 + (List.replicate 6 (0 : UInt8)).length ≤ 12 := by
    rw [List.length_replicate]
    omega
  simp only [zeroWire] at hidx ⊢
  simp only [Job.store, hidx, hlen, SimpleWire.write_in_buffer, if_pos hfit, memcpy_zero]
  rfl

theorem zero_copy_header (h6 : p % 12 = 0 ∨ p % 12 = 6) (hp : p < 2 ^ 64) {pushed : Nat} :
    (zeroWire pushed p).copy_header = zeroWire pushed p := by
  have haddr : (zeroWire pushed p).read_address 0 = p % 12 := index_of_lt _ hp
  have hfit : (zeroWire pushed p).read_address 0 + WireHeader.size MessageHeader ≤
      (zeroWire pushed p).capacity := by
    rw [haddr]
    show p % 12 + 6 ≤ 12
    omega
  rw [SimpleWire.copy_header, if_pos hfit]
  rfl

theorem zero_write (h6 : p % 12 = 0 ∨ p % 12 = 6) (hp : p < 2 ^ 64) :
    exec (poll_step .peep) (zeroState (zeroWire p p) .idle .idle sent received .out n)
      (writeRequest emptyRequest) =
      some (zeroState (zeroWire ((p + 6) % 2 ^ 64) p) .idle .idle (sent ++ [emptyRequest]) received
        .out (sent.length + 1)) := by
  have h1 : poll_step .peep (zeroState (zeroWire p p) .idle .idle sent received .out n)
      (.wire (.write emptyRequest)) = some (zeroState (zeroWire p p) (.wait ⟨some ⟨0, 0⟩, [], 6⟩)
        .idle (sent ++ [emptyRequest]) received .out n) := rfl
  have h2 : poll_step .peep (zeroState (zeroWire p p) (.wait ⟨some ⟨0, 0⟩, [], 6⟩)
        .idle (sent ++ [emptyRequest]) received .out n) (.wire .wait) =
      some (zeroState (zeroWire p p) (.check ⟨some ⟨0, 0⟩, [], 6⟩) .idle (sent ++ [emptyRequest])
        received .out n) := by
    have hmsg : Job.msg_length ⟨some ⟨0, 0⟩, [], 6⟩ (zeroWire p p) = 6 := rfl
    simp [poll_step, Act.free, step, zeroState, zero_room, hmsg, behind_after]
  have h3 : poll_step .peep (zeroState (zeroWire p p) (.check ⟨some ⟨0, 0⟩, [], 6⟩)
        .idle (sent ++ [emptyRequest]) received .out n) (.wire .check) =
      some (zeroState (zeroWire p p) (.store ⟨some ⟨0, 0⟩, [], 6⟩) .idle (sent ++ [emptyRequest])
        received .out n) := rfl
  have h4 : poll_step .peep (zeroState (zeroWire p p) (.store ⟨some ⟨0, 0⟩, [], 6⟩)
        .idle (sent ++ [emptyRequest]) received .out n) (.wire .store) =
      some (zeroState (zeroWire p p) (.publish ⟨some ⟨0, 0⟩, [], 6⟩) .idle (sent ++ [emptyRequest])
        received .out n) := by
    simp only [poll_step, Act.free, step, zeroState]
    rw [zero_store h6 hp]
    rfl
  have h5 : poll_step .peep (zeroState (zeroWire p p) (.publish ⟨some ⟨0, 0⟩, [], 6⟩)
        .idle (sent ++ [emptyRequest]) received .out n) (.wire .publish) =
      some (zeroState (zeroWire ((p + 6) % 2 ^ 64) p) .idle .idle (sent ++ [emptyRequest])
        received .out (sent.length + 1)) := by
    have hmsg : Job.msg_length ⟨some ⟨0, 0⟩, [], 6⟩ (zeroWire p p) = 6 := rfl
    simp only [poll_step, Act.free, step, zeroState]
    rw [hmsg]
    simp [Job.rest, Job.msg_length, behind_after, zeroWire]
  rw [writeRequest, exec_cons h1, exec_cons h2, exec_cons h3, exec_cons h4, exec_cons h5, exec]

/-- The loads of `peep` when no flag is set, and when `terminate` was called. -/
theorem zero_loads {w : SimpleWire MessageHeader} (as : List (PollAct MessageHeader)) :
    exec (poll_step .peep) (zeroState w .idle .idle sent received .out n)
      (.call :: .load :: .load :: as) =
      exec (poll_step .peep) (zeroState w .idle .idle sent received (.loaded false false) n) as :=
  rfl

theorem raised_loads {w : SimpleWire MessageHeader} (as : List (PollAct MessageHeader)) :
    exec (poll_step .peep) (zeroState w .idle .idle sent received .out n)
      (.raise :: .call :: .load :: .load :: as) =
      exec (poll_step .peep)
        { zeroState w .idle .idle sent received (.loaded true false) n with
          raised := true, asked := ⟨n, n⟩, answering := ⟨n, n⟩ } as := rfl

theorem zero_read (h6 : p % 12 = 0 ∨ p % 12 = 6) (hp : p + 6 < 2 ^ 64) :
    exec (poll_step .peep) (zeroState (zeroWire (p + 6) p) .idle .idle sent received .out n)
      readRequest =
      some (zeroState (zeroWire (p + 6) (p + 6)) .idle .idle sent (received ++ [(⟨0, 0⟩, [])]) .out
        n) := by
  have h4 : poll_step .peep
      (zeroState (zeroWire (p + 6) p) .idle .idle sent received (.loaded false false) n) .test =
      some (zeroState (zeroWire (p + 6) p) .idle .header sent received .out n) := by
    have hsize : WireHeader.size MessageHeader = 6 := rfl
    simp [poll_step, step, zeroState, zero_stored, hsize, zero_copy_header h6 (by omega)]
  have h5 : poll_step .peep (zeroState (zeroWire (p + 6) p) .idle .header sent received .out n)
      (.wire .read) = some (zeroState (zeroWire (p + 6) p) .idle (.copied [] 0 6) sent received .out
        n) := by
    have hread : (zeroWire (p + 6) p).read_from_buffer ((zeroWire (p + 6) p).read_address 6) 0 =
        [] := by
      have hlt : (zeroWire (p + 6) p).read_address 6 < 12 := zero_address
      rw [SimpleWire.read_from_buffer, if_pos (by rw [Nat.add_zero]; exact Nat.le_of_lt hlt)]
      rfl
    have hsize : WireHeader.size MessageHeader = 6 := rfl
    have hlen : (WireHeader.get_length (zeroWire (p + 6) p).header_received).toNat = 0 := rfl
    simp [poll_step, Act.free, step, zeroState, hlen, hsize, hread, behind_after]
  have h6 : poll_step .peep
      (zeroState (zeroWire (p + 6) p) .idle (.copied [] 0 6) sent received .out n)
      (.wire .advance) = some (zeroState (zeroWire (p + 6) (p + 6)) .idle .idle sent
        (received ++ [(⟨0, 0⟩, [])]) .out n) := by
    have hmod : ((zeroWire (p + 6) p).poped + 6) % 2 ^ 64 = p + 6 := Nat.mod_eq_of_lt hp
    simp only [poll_step, Act.free, step, zeroState]
    rw [hmod]
    rfl
  rw [readRequest, peepRequest]
  simp only [List.cons_append, List.nil_append]
  rw [zero_loads, exec_cons h4, exec_cons h5, exec_cons h6, exec]

/-- Any number of empty requests go by, as long as the counters do not wrap. -/
theorem zero_rounds (n : Nat) (hn : 6 * n < 2 ^ 64) :
    ∃ acts sent received, RunOf (poll_step .peep) Free
      (Polled.init 12 (fun _ => 0) (⟨0, 0⟩ : MessageHeader)) acts
      (zeroState (zeroWire (6 * n) (6 * n)) .idle .idle sent received .out n) ∧
      sent.length = n ∧ received.length = n := by
  induction n with
  | zero => exact ⟨[], [], [], .nil, rfl, rfl⟩
  | succ n ih =>
    obtain ⟨acts, sent, received, hr, hs, hrc⟩ := ih (by omega)
    have h12 : 6 * n % 12 = 0 ∨ 6 * n % 12 = 6 := by omega
    have hw := @zero_write (6 * n) n sent received h12 (by omega)
    have hd := @zero_read (6 * n) (sent.length + 1) (sent ++ [emptyRequest]) received h12
      (by omega)
    rw [Nat.mod_eq_of_lt (by omega)] at hw
    have hround := (hr.trans (.of_exec hw)).trans (.of_exec hd)
    rw [hs] at hround
    exact ⟨_, _, _, hround, by simp [hs], by simp [hrc]⟩

/-- Four bytes before the counters wrap. -/
def wrapPoint : Nat := 2 ^ 64 - 4

/-- A request that lands on the bytes of the one before it, once the counters
have wrapped in a ring whose size does not divide 2^64. -/
def overlapping : Message MessageHeader := ⟨⟨6, 0⟩, [], List.length_nil⟩

/-- The wire after it: the second request has replaced the length of the first. -/
def overlapWire (pushed poped : Nat) (header : MessageHeader) : SimpleWire MessageHeader :=
  ⟨12, memcpy (fun _ => 0) 2 [6, 0, 0, 0, 0, 0], pushed, poped, header⟩

theorem overlap_write :
    exec (poll_step .peep) (zeroState (zeroWire 2 wrapPoint) .idle .idle sent received .out n)
      (writeRequest overlapping) =
      some (zeroState (overlapWire 8 wrapPoint ⟨0, 0⟩) .idle .idle (sent ++ [overlapping])
        received .out (sent.length + 1)) := by
  have h1 : poll_step .peep
      (zeroState (zeroWire 2 wrapPoint) .idle .idle sent received .out n)
      (.wire (.write overlapping)) = some (zeroState (zeroWire 2 wrapPoint)
        (.wait ⟨some ⟨6, 0⟩, [], 6⟩) .idle (sent ++ [overlapping]) received .out n) := rfl
  have h2 : poll_step .peep (zeroState (zeroWire 2 wrapPoint) (.wait ⟨some ⟨6, 0⟩, [], 6⟩)
        .idle (sent ++ [overlapping]) received .out n) (.wire .wait) =
      some (zeroState (zeroWire 2 wrapPoint) (.check ⟨some ⟨6, 0⟩, [], 6⟩) .idle
        (sent ++ [overlapping]) received .out n) := by
    have hroom : (zeroWire 2 wrapPoint).room = 6 := by decide +kernel
    have hmsg : Job.msg_length ⟨some ⟨6, 0⟩, [], 6⟩ (zeroWire 2 wrapPoint) = 6 := rfl
    simp [poll_step, Act.free, step, zeroState, hroom, hmsg, behind_after]
  have h3 : poll_step .peep (zeroState (zeroWire 2 wrapPoint) (.check ⟨some ⟨6, 0⟩, [], 6⟩)
        .idle (sent ++ [overlapping]) received .out n) (.wire .check) =
      some (zeroState (zeroWire 2 wrapPoint) (.store ⟨some ⟨6, 0⟩, [], 6⟩) .idle
        (sent ++ [overlapping]) received .out n) := rfl
  have h4 : poll_step .peep (zeroState (zeroWire 2 wrapPoint) (.store ⟨some ⟨6, 0⟩, [], 6⟩)
        .idle (sent ++ [overlapping]) received .out n) (.wire .store) =
      some (zeroState (overlapWire 2 wrapPoint ⟨0, 0⟩) (.publish ⟨some ⟨6, 0⟩, [], 6⟩) .idle
        (sent ++ [overlapping]) received .out n) := rfl
  have h5 : poll_step .peep
      (zeroState (overlapWire 2 wrapPoint ⟨0, 0⟩) (.publish ⟨some ⟨6, 0⟩, [], 6⟩) .idle
        (sent ++ [overlapping]) received .out n) (.wire .publish) =
      some (zeroState (overlapWire 8 wrapPoint ⟨0, 0⟩) .idle .idle (sent ++ [overlapping])
        received .out (sent.length + 1)) := by
    have hlen : (sent ++ [overlapping]).length = sent.length + 1 := List.length_append
    rw [← hlen]
    rfl
  rw [writeRequest, exec_cons h1, exec_cons h2, exec_cons h3, exec_cons h4, exec_cons h5, exec]

/-- The reader takes both requests for one, and the flag finds the wire empty. -/
theorem overlap_read :
    ∃ t, exec (poll_step .peep) (zeroState (overlapWire 8 wrapPoint ⟨0, 0⟩) .idle .idle sent
        received .out n) (readRequest ++ [PollAct.raise] ++ peepRequest ++ [PollAct.reset]) =
      some t ∧
      t.base.closed = false ∧ t.poll = .control ∧
      t.base.received.length = received.length + 1 ∧ t.answering.completed = n := by
  have hcopy : (overlapWire 8 wrapPoint ⟨0, 0⟩).copy_header =
      overlapWire 8 wrapPoint ⟨0, 6⟩ := by
    have hfit : (overlapWire 8 wrapPoint ⟨0, 0⟩).read_address 0 +
        WireHeader.size MessageHeader ≤ (overlapWire 8 wrapPoint ⟨0, 0⟩).capacity := by
      decide +kernel
    have hhead : (WireHeader.of_buffer (memread (overlapWire 8 wrapPoint ⟨0, 0⟩).buffer
        ((overlapWire 8 wrapPoint ⟨0, 0⟩).read_address 0)
        (WireHeader.size MessageHeader)) : MessageHeader) = ⟨0, 6⟩ := by decide +kernel
    rw [SimpleWire.copy_header, if_pos hfit, hhead]
    rfl
  have h1 : poll_step .peep
      (zeroState (overlapWire 8 wrapPoint ⟨0, 0⟩) .idle .idle sent received (.loaded false false)
        n) .test =
      some (zeroState (overlapWire 8 wrapPoint ⟨0, 6⟩) .idle .header sent received .out n) := by
    have hstored : (overlapWire 8 wrapPoint ⟨0, 0⟩).stored = 12 := by decide +kernel
    have hsize : WireHeader.size MessageHeader = 6 := rfl
    simp [poll_step, step, zeroState, hstored, hsize, hcopy]
  have h2 : ∃ top, poll_step .peep
      (zeroState (overlapWire 8 wrapPoint ⟨0, 6⟩) .idle .header sent received .out n)
      (.wire .read) = some (zeroState (overlapWire 8 wrapPoint ⟨0, 6⟩) .idle (.copied top 0 12)
        sent received .out n) := by
    have hmax : (overlapWire 8 wrapPoint ⟨0, 6⟩).max_payload_length = 6 := by decide +kernel
    have hlen : (WireHeader.get_length (overlapWire 8 wrapPoint ⟨0, 6⟩).header_received).toNat =
        6 := rfl
    have hsize : WireHeader.size MessageHeader = 6 := rfl
    refine ⟨(overlapWire 8 wrapPoint ⟨0, 6⟩).read_from_buffer
      ((overlapWire 8 wrapPoint ⟨0, 6⟩).read_address 6) 6, ?_⟩
    simp [poll_step, Act.free, step, zeroState, hlen, hmax, hsize, behind_after]
  obtain ⟨top, h2⟩ := h2
  have h3 : poll_step .peep
      (zeroState (overlapWire 8 wrapPoint ⟨0, 6⟩) .idle (.copied top 0 12) sent received .out n)
      (.wire .advance) = some (zeroState (overlapWire 8 8 ⟨0, 6⟩) .idle .idle sent
        (received ++ [(⟨0, 6⟩, top)]) .out n) := by
    have hmod : ((overlapWire 8 wrapPoint ⟨0, 6⟩).poped + 12) % 2 ^ 64 = 8 := by decide +kernel
    simp only [poll_step, Act.free, step, zeroState]
    rw [hmod]
    rfl
  have h4 : poll_step .peep
      { zeroState (overlapWire 8 8 ⟨0, 6⟩) .idle .idle sent (received ++ [(⟨0, 6⟩, top)])
          (.loaded true false) n with
        raised := true, asked := ⟨n, n⟩, answering := ⟨n, n⟩ } .test =
      some { zeroState (overlapWire 8 8 ⟨0, 6⟩) .idle .idle sent (received ++ [(⟨0, 6⟩, top)])
          .reset n with
        raised := true, asked := ⟨n, n⟩, answering := ⟨n, n⟩ } := by
    have hstored : (overlapWire 8 8 ⟨0, 6⟩).stored = 0 := by decide +kernel
    have hsize : WireHeader.size MessageHeader = 6 := rfl
    simp [poll_step, zeroState, hstored, hsize, no_message]
  have h5 : poll_step .peep
      { zeroState (overlapWire 8 8 ⟨0, 6⟩) .idle .idle sent (received ++ [(⟨0, 6⟩, top)])
          .reset n with
        raised := true, asked := ⟨n, n⟩, answering := ⟨n, n⟩ } .reset =
      some { zeroState (overlapWire 8 8 ⟨0, 6⟩) .idle .idle sent (received ++ [(⟨0, 6⟩, top)])
          .control n with
        raised := false, asked := ⟨n, n⟩, answering := ⟨n, n⟩ } := rfl
  refine ⟨{ zeroState (overlapWire 8 8 ⟨0, 6⟩) .idle .idle sent (received ++ [(⟨0, 6⟩, top)])
      .control n with raised := false, asked := ⟨n, n⟩, answering := ⟨n, n⟩ }, ?_, rfl, rfl,
    List.length_append, rfl⟩
  rw [readRequest, peepRequest]
  simp only [List.cons_append, List.nil_append]
  rw [zero_loads, exec_cons h1, exec_cons h2, exec_cons h3, raised_loads, exec_cons h4, exec_cons h5,
    exec]

end Zero

/-- A request and a response that a closed wire drops. -/
def droppedRequest : List (PollAct MessageHeader) :=
  [PollAct.close, .wire (.write emptyRequest), .wire .wait, .wire .check, .raise] ++ peepRequest ++
    [PollAct.reset]

def droppedResponse : List (PollAct ResponseHeader) :=
  [.close, .wire (.write ⟨⟨1, 2, 0⟩, [], List.length_nil⟩), .wire .wait, .wire .check, .raise,
    .call, .load, .load, .test]

/-- A call of `write` returns without a message on the wire when the wire is
closed; and a wire that carries 2^64 bytes loses a request that was written
completely. -/
theorem a_flag_overtakes_what_a_closed_or_wrapped_wire_loses :
    (∃ s, RunOf (poll_step .peep) Free (Polled.init 12 (fun _ => 0) (⟨0, 0⟩ : MessageHeader))
      droppedRequest s ∧ s.poll = .control ∧ ¬ HasRead s s.answering.returned) ∧
    (∃ s, RunOf (poll_step (.await ⟨0, 0, 0⟩)) Free
      (Polled.init 12 (fun _ => 0) (⟨0, 0, 0⟩ : ResponseHeader)) droppedResponse s ∧
      s.poll = .control ∧ ¬ HasRead s s.answering.returned) ∧
    ∃ acts s, RunOf (poll_step .peep) Free
      (Polled.init 12 (fun _ => 0) (⟨0, 0⟩ : MessageHeader)) acts s ∧ s.base.closed = false ∧
      s.poll = .control ∧ ¬ HasRead s s.answering.completed := by
  refine ⟨?_, ?_, ?_⟩
  · obtain ⟨s, hr, hp⟩ := RunOf.exists_free
      (s := Polled.init 12 (fun _ => 0) (⟨0, 0⟩ : MessageHeader))
      (p := fun s => s.poll = .control ∧ s.answering.returned = 1 ∧ s.base.received.length = 0)
      (by decide +kernel : (exec (poll_step .peep) _ droppedRequest).any _ = true)
    obtain ⟨h1, h2, h3⟩ : s.poll = .control ∧ s.answering.returned = 1 ∧
        s.base.received.length = 0 := by simpa using hp
    refine ⟨s, hr, h1, not_hasRead ?_⟩
    omega
  · obtain ⟨s, hr, hp⟩ := RunOf.exists_free
      (s := Polled.init 12 (fun _ => 0) (⟨0, 0, 0⟩ : ResponseHeader))
      (p := fun s => s.poll = .control ∧ s.answering.returned = 1 ∧ s.base.received.length = 0)
      (by decide +kernel : (exec (poll_step (.await ⟨0, 0, 0⟩)) _ droppedResponse).any _ = true)
    obtain ⟨h1, h2, h3⟩ : s.poll = .control ∧ s.answering.returned = 1 ∧
        s.base.received.length = 0 := by simpa using hp
    refine ⟨s, hr, h1, not_hasRead ?_⟩
    omega
  · obtain ⟨acts, sent, received, hr, hs, hrc⟩ := zero_rounds (wrapPoint / 6) (by decide)
    have hw := @zero_write wrapPoint (wrapPoint / 6) sent received (.inl (by decide)) (by decide)
    obtain ⟨t, he, hcl, hc, hlen, hans⟩ := @overlap_read ((sent ++ [emptyRequest]).length + 1)
      (sent ++ [emptyRequest] ++ [overlapping]) received
    refine ⟨_, t, ((hr.trans (.of_exec hw)).trans (.of_exec overlap_write)).trans (.of_exec he),
      hcl, hc, not_hasRead ?_⟩
    rw [hlen, hans, List.length_append, List.length_singleton]
    omega

end tateyama_bootstrap.simple_wire
