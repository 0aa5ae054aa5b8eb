-- The lifetime of a transport (transport/transport.h) and of its timer
-- (transport/timer.h). The thread that owns the transport sends requests and
-- terminates the session; the thread of the timer sends a request of its own
-- whenever the time is up.
import TateyamaBootstrap.Runs

open runs

namespace tateyama_bootstrap.transport_lifetime

/-! ## The two threads -/

/-- Where the owner of the transport stands, from the moment it has its wire. -/
inductive Owner
  /-- In the handshake of the constructor. -/
  | constructing
  /-- The constructor has caught a `tgctl::runtime_error`, and `close` comes next. -/
  | refused
  /-- The constructor has thrown what it caught. -/
  | thrown
  /-- The handshake is done, and the timer is next. -/
  | starting
  /-- An exception of another class has left the constructor. -/
  | leaked
  | living
  /-- In the destructor, which waits for the thread of the timer. -/
  | joining
  /-- The timer is gone, and the destructor looks at `closed_`. -/
  | closing
  | gone
deriving DecidableEq, Repr

/-- Where the thread of the timer stands. -/
inductive Timer
  | absent
  /-- In `read`. -/
  | reading
  /-- It is about to look at `stop_flag_`. -/
  | testing
  /-- In `work_`, which has not sent yet. -/
  | working
  /-- In `work_`, which has sent its request. -/
  | asking
  | ended
deriving DecidableEq, Repr

def Timer.running : Timer → Bool
  | .absent | .ended => false
  | _ => true

inductive Event
  | sent_by_owner
  | sent_by_timer
  /-- `terminate` of the request wire. -/
  | terminate
deriving DecidableEq, Repr

/-- The transport and its threads. The fields after `aborted` are not in the
source: what went over the wire, whether the command has closed the transport by
itself, and how often the timer has sent since `stop_flag_` is set. -/
structure Sys where
  owner : Owner
  timer : Timer
  stop_flag : Bool
  closed : Bool
  /-- An exception has left the thread of the timer. -/
  aborted : Bool
  log : List Event
  early : Bool
  late : Nat

def init : Sys where
  owner := .constructing
  timer := .absent
  stop_flag := false
  closed := false
  aborted := false
  log := []
  early := false
  late := 0

inductive Act
  | send
  /-- The handshake fails with a `tgctl::runtime_error`. -/
  | refuse
  /-- It fails with another exception. -/
  | escape
  | accept
  | close_refused
  | start_timer
  /-- The constructor of the timer throws, never a `tgctl::runtime_error`. -/
  | timer_throws
  /-- The command calls `close`. -/
  | close
  | destroy
  | join
  | finish
  | fire
  | read_fails
  | test
  /-- `update_expiration_time` sends its request. -/
  | work
  /-- `work_` returns. -/
  | work_returns (success : Bool)
  | work_throws
deriving DecidableEq, Repr

/-- `close`. -/
def Sys.terminate (s : Sys) : Sys :=
  { s with closed := true, log := s.log ++ [.terminate] }

/-- A step of the owner. A command neither sends nor closes any more once it has
closed its transport. -/
def owner_step (s : Sys) : Act → Option Sys
  | .send =>
    if s.owner = .constructing ∨ s.owner = .living ∧ s.closed = false then
      some { s with log := s.log ++ [.sent_by_owner] }
    else none
  | .refuse => if s.owner = .constructing then some { s with owner := .refused } else none
  | .escape => if s.owner = .constructing then some { s with owner := .leaked } else none
  | .accept => if s.owner = .constructing then some { s with owner := .starting } else none
  | .close_refused =>
    if s.owner = .refused then some { s.terminate with owner := .thrown } else none
  | .start_timer =>
    if s.owner = .starting then some { s with owner := .living, timer := .reading } else none
  | .timer_throws => if s.owner = .starting then some { s with owner := .leaked } else none
  | .close =>
    if s.owner = .living ∧ s.closed = false then some { s.terminate with early := true } else none
  | .destroy =>
    if s.owner = .living then some { s with owner := .joining, stop_flag := true } else none
  | .join =>
    if s.owner = .joining ∧ s.timer.running = false then some { s with owner := .closing }
    else none
  | .finish =>
    if s.owner = .closing then
      some { (if s.closed then s else s.terminate) with owner := .gone }
    else none
  | _ => none

/-- A step of the thread of the timer. -/
def timer_step (s : Sys) : Act → Option Sys
  | .fire => if s.timer = .reading then some { s with timer := .testing } else none
  | .read_fails => if s.timer = .reading then some { s with timer := .ended } else none
  | .test =>
    if s.timer = .testing then
      some { s with timer := if s.stop_flag then .ended else .working }
    else none
  | .work =>
    if s.timer = .working then
      some { s with
        timer := .asking, log := s.log ++ [.sent_by_timer]
        late := if s.stop_flag then s.late + 1 else s.late }
    else none
  | .work_returns success =>
    -- without a request when the header or the request cannot be serialized
    if s.timer = .asking ∨ s.timer = .working ∧ success = false then
      some { s with timer := if success then .reading else .ended }
    else none
  | .work_throws =>
    if s.timer = .working ∨ s.timer = .asking then some { s with aborted := true } else none
  | _ => none

/-- An exception that leaves the thread of the timer ends the process. -/
def step (s : Sys) (a : Act) : Option Sys :=
  if s.aborted then none else (owner_step s a).or (timer_step s a)

/-! ## The invariant -/

/-- The owner is in its destructor. -/
def Owner.leaving : Owner → Bool
  | .joining | .closing | .gone => true
  | _ => false

/-- The owner has not started the timer. -/
def Owner.early : Owner → Bool
  | .constructing | .refused | .thrown | .starting | .leaked => true
  | _ => false

/-- What went over the wire after the session was terminated. -/
def after : List Event → List Event
  | [] => []
  | e :: log => if e = .terminate then log else after log

theorem after_snoc (log : List Event) (e : Event) :
    after (log ++ [e]) = if .terminate ∈ log then after log ++ [e] else [] := by
  induction log with
  | nil => by_cases he : e = .terminate <;> simp [after, he]
  | cons d log ih =>
    by_cases hd : d = .terminate
    · simp [after, hd]
    · simp [after, hd, ih, Ne.symm hd]

/-- The session is terminated once at most, and what comes after that is the timer's,
and nothing unless the command has closed the transport by itself. -/
structure Logged (s : Sys) : Prop where
  terminated : s.log.count .terminate = s.closed.toNat
  after_timer : ∀ e ∈ after s.log, e = .sent_by_timer
  after_last : s.early = false → after s.log = []

/-- Where owner and timer can stand together. -/
structure Control (s : Sys) : Prop where
  stop : s.stop_flag = s.owner.leaving
  absent : s.owner.early = true → s.timer = .absent
  ended : s.owner = .closing ∨ s.owner = .gone → s.timer.running = false
  closed : s.owner = .thrown ∨ s.owner = .gone → s.closed = true
  not_closed : s.owner.early = true → s.owner ≠ .thrown → s.closed = false
  closed_early : s.early = true → s.closed = true ∧ s.owner.early = false
  closed_last : s.closed = true → s.early = true ∨ s.owner = .thrown ∨ s.owner = .gone
  late_stop : s.stop_flag = false → s.late = 0
  late_working : s.timer = .working → s.late = 0
  late_le : s.late ≤ 1

theorem logged_init : Logged init := by
  constructor <;> simp [init, after]

theorem control_init : Control init := by
  constructor <;> simp [init, Owner.leaving, Owner.early]

section Steps

variable {s t : Sys} {a : Act}

theorem step_cases (hs : step s a = some t) :
    s.aborted = false ∧ (owner_step s a = some t ∨ timer_step s a = some t) := by
  unfold step at hs
  split at hs
  · cases hs
  · rename_i hab
    rw [Option.or_eq_some_iff] at hs
    exact ⟨by simpa using hab, hs.imp_right And.right⟩

/-- Until it starts the timer, the owner takes the places that are left to it. -/
theorem Control.early_moves (h : Control s) {o : Owner} (hearly : s.owner.early = true)
    (hthrown : s.owner ≠ .thrown) (ho : o.early = true) (hne : o ≠ .thrown) :
    Control { s with owner := o } := by
  have hclosed := h.not_closed hearly hthrown
  have hleaving : ∀ {o : Owner}, o.early = true → o.leaving = false := by
    intro o ho
    cases o <;> first | rfl | cases ho
  have hgone : ¬ (o = .closing ∨ o = .gone) := by
    rintro (rfl | rfl) <;> cases ho
  refine ⟨?_, fun _ => h.absent hearly, fun he => absurd he hgone, ?_, fun _ _ => hclosed, ?_, ?_,
    h.late_stop, h.late_working, h.late_le⟩
  · exact h.stop.trans ((hleaving hearly).trans (hleaving ho).symm)
  · rintro (he | he)
    · exact absurd he hne
    · exact absurd (.inr he) hgone
  · intro he
    rw [(h.closed_early he).1] at hclosed
    cases hclosed
  · intro hc
    rw [hclosed] at hc
    cases hc

theorem control_owner (h : Control s) (hs : owner_step s a = some t) : Control t := by
  cases a with
  | send =>
    simp only [owner_step] at hs
    split at hs
    · cases hs
      exact ⟨h.stop, h.absent, h.ended, h.closed, h.not_closed, h.closed_early, h.closed_last,
        h.late_stop, h.late_working, h.late_le⟩
    · cases hs
  | refuse | escape | accept | timer_throws =>
    simp only [owner_step] at hs
    split at hs
    · rename_i ho
      cases hs
      exact h.early_moves (by rw [ho]; rfl) (by rw [ho]; decide) rfl (by decide)
    · cases hs
  | start_timer | destroy | join =>
    obtain ⟨h1, h2, h3, h4, h5, h6, h7, h8, h9, h10⟩ := h
    simp only [owner_step] at hs
    split at hs
    · cases hs
      constructor <;> simp_all [Owner.leaving, Owner.early, Timer.running]
    · cases hs
  | close_refused | close =>
    obtain ⟨h1, h2, h3, h4, h5, h6, h7, h8, h9, h10⟩ := h
    simp only [owner_step, Sys.terminate] at hs
    split at hs
    · cases hs
      constructor <;> simp_all [Owner.leaving, Owner.early]
    · cases hs
  | finish =>
    obtain ⟨h1, h2, h3, h4, h5, h6, h7, h8, h9, h10⟩ := h
    simp only [owner_step, Sys.terminate] at hs
    split at hs
    · cases hs
      cases hc : s.closed <;> constructor <;> simp_all [Owner.leaving, Owner.early]
    · cases hs
  | _ => cases hs

/-- The timer runs only while the owner is past its constructor and has not joined it. -/
theorem Control.of_running (h : Control s) (hr : s.timer.running = true) :
    s.owner.early = false ∧ ¬ (s.owner = .closing ∨ s.owner = .gone) := by
  constructor
  · cases he : s.owner.early with
    | false => rfl
    | true =>
      rw [h.absent he] at hr
      cases hr
  · intro he
    rw [h.ended he] at hr
    cases hr

/-- A step of the timer moves nothing that the owner reads but its own place. -/
theorem Control.timer_moves (h : Control s) (hr : s.timer.running = true) {x : Timer}
    {late : Nat} (hstop : s.stop_flag = false → late = 0) (hwork : x = .working → late = 0)
    (hle : late ≤ 1) {log : List Event} {aborted : Bool} :
    Control { s with timer := x, aborted, log, late } := by
  obtain ⟨hearly, hjoin⟩ := h.of_running hr
  refine ⟨h.stop, ?_, fun he => absurd he hjoin, h.closed, h.not_closed, h.closed_early,
    h.closed_last, hstop, hwork, hle⟩
  intro he
  rw [hearly] at he
  cases he

theorem control_timer (h : Control s) (hs : timer_step s a = some t) : Control t := by
  cases a with
  | fire | read_fails =>
    simp only [timer_step] at hs
    split at hs
    · rename_i ht
      cases hs
      exact h.timer_moves (by rw [ht]; rfl) h.late_stop (fun hx => by cases hx) h.late_le
    · cases hs
  | test =>
    simp only [timer_step] at hs
    split at hs
    · rename_i ht
      cases hs
      refine h.timer_moves (by rw [ht]; rfl) h.late_stop ?_ h.late_le
      cases hf : s.stop_flag with
      | false => exact fun _ => h.late_stop hf
      | true =>
        intro hx
        cases hx
    · cases hs
  | work =>
    simp only [timer_step] at hs
    split at hs
    · rename_i ht
      cases hs
      have hlate := h.late_working ht
      refine h.timer_moves (by rw [ht]; rfl) ?_ (fun hx => by cases hx) ?_
      · intro hf
        simp [hf, hlate]
      · rw [hlate]
        split <;> omega
    · cases hs
  | work_returns success =>
    simp only [timer_step] at hs
    split at hs
    · rename_i ht
      cases hs
      refine h.timer_moves ?_ h.late_stop ?_ h.late_le
      · rcases ht with ht | ⟨ht, -⟩ <;> rw [ht] <;> rfl
      · cases success <;> intro hx <;> cases hx
    · cases hs
  | work_throws =>
    simp only [timer_step] at hs
    split at hs
    · rename_i ht
      cases hs
      refine h.timer_moves ?_ h.late_stop h.late_working h.late_le
      rcases ht with ht | ht <;> rw [ht] <;> rfl
    · cases hs
  | _ => cases hs

/-! ## What goes over the wire -/

theorem Logged.mem_iff (h : Logged s) : .terminate ∈ s.log ↔ s.closed = true := by
  have hcount := h.terminated
  rw [← List.count_pos_iff, hcount]
  cases s.closed <;> simp

theorem Logged.congr (h : Logged s) (hlog : t.log = s.log) (hc : t.closed = s.closed)
    (he : t.early = s.early) : Logged t := by
  refine ⟨?_, ?_, ?_⟩
  · rw [hlog, hc]
    exact h.terminated
  · rw [hlog]
    exact h.after_timer
  · rw [hlog, he]
    exact h.after_last

theorem Logged.terminate (h : Logged s) (hc : s.closed = false)
    (hlog : t.log = s.log ++ [Event.terminate]) (htc : t.closed = true) : Logged t := by
  have hmem : .terminate ∉ s.log := by
    rw [h.mem_iff, hc]
    decide
  have hafter : after t.log = [] := by rw [hlog, after_snoc, if_neg hmem]
  refine ⟨?_, ?_, fun _ => hafter⟩
  · rw [hlog, htc, List.count_append, h.terminated, hc]
    rfl
  · rw [hafter]
    intro e he
    cases he

theorem Logged.send (h : Logged s) {e : Event} (hne : e ≠ .terminate)
    (hlog : t.log = s.log ++ [e]) (hc : t.closed = s.closed) (he : t.early = s.early)
    (hafter : s.closed = true → e = .sent_by_timer ∧ s.early = true) : Logged t := by
  refine ⟨?_, ?_, ?_⟩
  · rw [hlog, hc, List.count_append, h.terminated, List.count_singleton, if_neg]
    · rfl
    · simpa using hne
  · rw [hlog, after_snoc]
    split
    · rename_i hmem
      intro d hd
      rcases List.mem_append.mp hd with hd | hd
      · exact h.after_timer d hd
      · rw [List.mem_singleton.mp hd]
        exact (hafter (h.mem_iff.mp hmem)).1
    · intro d hd
      cases hd
  · rw [hlog, he, after_snoc]
    intro hearly
    rw [if_neg]
    intro hmem
    rw [(hafter (h.mem_iff.mp hmem)).2] at hearly
    cases hearly

theorem logged_owner (h : Logged s) (hc : Control s) (hs : owner_step s a = some t) :
    Logged t := by
  cases a with
  | send =>
    simp only [owner_step] at hs
    split at hs
    · rename_i ho
      cases hs
      have hopen : s.closed = false := by
        rcases ho with ho | ⟨-, ho⟩
        · exact hc.not_closed (by rw [ho]; rfl) (by rw [ho]; decide)
        · exact ho
      refine h.send (e := .sent_by_owner) (by decide) rfl rfl rfl ?_
      intro hcl
      rw [hopen] at hcl
      cases hcl
    · cases hs
  | refuse | escape | accept | start_timer | timer_throws | destroy | join =>
    simp only [owner_step] at hs
    split at hs
    · cases hs
      exact h.congr rfl rfl rfl
    · cases hs
  | close_refused =>
    simp only [owner_step] at hs
    split at hs
    · rename_i ho
      cases hs
      exact h.terminate (hc.not_closed (by rw [ho]; rfl) (by rw [ho]; decide)) rfl rfl
    · cases hs
  | close =>
    simp only [owner_step] at hs
    split at hs
    · rename_i ho
      cases hs
      exact h.terminate ho.2 rfl rfl
    · cases hs
  | finish =>
    simp only [owner_step] at hs
    split at hs
    · cases hs
      cases hcl : s.closed with
      | true => exact h.congr rfl rfl rfl
      | false => exact h.terminate hcl rfl rfl
    · cases hs
  | _ => cases hs

theorem logged_timer (h : Logged s) (hc : Control s) (hs : timer_step s a = some t) :
    Logged t := by
  cases a with
  | work =>
    simp only [timer_step] at hs
    split at hs
    · rename_i ht
      cases hs
      refine h.send (e := .sent_by_timer) (by decide) rfl rfl rfl ?_
      intro hcl
      refine ⟨rfl, ?_⟩
      -- the owner cannot be through with the timer, so the command has closed
      obtain ⟨hearly, hjoin⟩ := hc.of_running (by rw [ht]; rfl)
      rcases hc.closed_last hcl with he | he | he
      · exact he
      · rw [he] at hearly
        cases hearly
      · exact absurd (.inr he) hjoin
    · cases hs
  | fire | read_fails | test | work_returns | work_throws =>
    simp only [timer_step] at hs
    split at hs
    · cases hs
      exact h.congr rfl rfl rfl
    · cases hs
  | _ => cases hs

end Steps

/-! ## Over every run -/

/-- The wire of a transport is terminated once, and it is when the constructor has
thrown a `tgctl::runtime_error` or the destructor is through, with no timer left. An
exception of another class leaves it as it is. After the termination only the timer
sends, and only when the command has closed the transport by itself; once it is
told to stop it sends one request at most. -/
structure Terminated (s : Sys) : Prop where
  once : s.log.count .terminate ≤ 1
  through : s.owner = .thrown ∨ s.owner = .gone →
    s.log.count .terminate = 1 ∧ s.timer.running = false
  leaked : s.owner = .leaked → .terminate ∉ s.log ∧ s.timer = .absent
  after_timer : ∀ e ∈ after s.log, e = .sent_by_timer
  after_last : s.early = false → after s.log = []
  late : s.late ≤ 1

theorem Control.terminated {s : Sys} (h : Control s) (hl : Logged s) : Terminated s := by
  refine ⟨?_, ?_, ?_, hl.after_timer, hl.after_last, h.late_le⟩
  · rw [hl.terminated]
    exact Bool.toNat_le _
  · intro ho
    refine ⟨by rw [hl.terminated, h.closed ho]; rfl, ?_⟩
    rcases ho with ho | ho
    · rw [h.absent (by rw [ho]; rfl)]
      rfl
    · exact h.ended (.inr ho)
  · intro ho
    have hopen := h.not_closed (by rw [ho]; rfl) (by rw [ho]; decide)
    refine ⟨?_, h.absent (by rw [ho]; rfl)⟩
    rw [hl.mem_iff, hopen]
    decide

theorem run_control {acts : List Act} {s : Sys} (hr : RunOf step Free init acts s) :
    Control s ∧ Logged s := by
  refine hr.inv (I := fun s => Control s ∧ Logged s) ⟨control_init, logged_init⟩ ?_
  rintro t a u ⟨hc, hl⟩ - hs
  rcases (step_cases hs).2 with ho | ht
  · exact ⟨control_owner hc ho, logged_owner hl hc ho⟩
  · exact ⟨control_timer hc ht, logged_timer hl hc ht⟩

theorem a_session_is_terminated_once (acts : List Act) (s : Sys)
    (hr : RunOf step Free init acts s) : Terminated s := by
  obtain ⟨hc, hl⟩ := run_control hr
  exact hc.terminated hl

/-- A backup that closes its transport while the timer is about to send, and a
command that leaves the closing to the destructor. -/
def closedByCommand : List Act :=
  [.send, .send, .accept, .start_timer, .send, .fire, .test, .close, .work, .destroy,
    .work_returns true, .fire, .test, .join, .finish]

def closedByDestructor : List Act :=
  [.send, .accept, .start_timer, .fire, .test, .send, .work, .work_returns true, .destroy, .fire,
    .test, .join, .finish]

theorem a_session_is_terminated_once_by_two_commands :
    (∃ s, RunOf step Free init closedByCommand s ∧ s.owner = .gone ∧
      after s.log = [.sent_by_timer] ∧ Terminated s) ∧
    ∃ s, RunOf step Free init closedByDestructor s ∧ s.owner = .gone ∧ after s.log = [] ∧
      Terminated s := by
  refine ⟨?_, ?_⟩
  · obtain ⟨s, hr, hp⟩ := RunOf.exists_free (s := init)
      (p := fun s => s.owner = .gone ∧ after s.log = [.sent_by_timer])
      (by decide : (exec step _ closedByCommand).any _ = true)
    obtain ⟨ho, ha⟩ : s.owner = .gone ∧ after s.log = [.sent_by_timer] := by simpa using hp
    exact ⟨s, hr, ho, ha, a_session_is_terminated_once _ s hr⟩
  · obtain ⟨s, hr, hp⟩ := RunOf.exists_free (s := init)
      (p := fun s => s.owner = .gone ∧ after s.log = [])
      (by decide : (exec step _ closedByDestructor).any _ = true)
    obtain ⟨ho, ha⟩ : s.owner = .gone ∧ after s.log = [] := by simpa using hp
    exact ⟨s, hr, ho, ha, a_session_is_terminated_once _ s hr⟩

end tateyama_bootstrap.transport_lifetime
