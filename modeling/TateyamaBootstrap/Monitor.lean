-- A mutex and its condition variables, each with a flag that says whether its
-- waiter may be waiting. Who signals looks at the flag first, and leaves the
-- mutex alone when the flag is down. Every lock, unlock, block and notify, and
-- every load or store of a flag, is one step.
import Mathlib.Logic.Function.Basic
import TateyamaBootstrap.Runs

open runs

namespace monitor

/-! ## The steps -/

/-- Where a party stands in a wait. -/
inductive WaitPc
  /-- It is about to take the mutex. -/
  | lock
  /-- It has the mutex, and the flag is not set yet. -/
  | arm
  /-- It is about to evaluate its condition; `last` when the wait has timed out. -/
  | test (last : Bool)
  /-- The condition was false, and it is about to block. -/
  | refused
  | blocked
  /-- It is about to take the mutex again. -/
  | woken (last : Bool)
  /-- The wait is over, and the flag is still set. -/
  | disarm (ok : Bool)
  | unlock (ok : Bool)
deriving DecidableEq, Repr

/-- Where a party stands in a signal. -/
inductive SignalPc
  /-- It is about to load the flag. -/
  | test
  | lock
  | notify
  | unlock
deriving DecidableEq, Repr

/-- Where a party stands, `C` being the condition variables. -/
inductive Pc (C : Type)
  /-- It has nothing to do with the mutex; `ok` is what its last wait returned. -/
  | out (ok : Bool)
  | wait (c : C) (pc : WaitPc)
  /-- It signals `c`, and then those of `rest` one after the other. -/
  | signal (c : C) (pc : SignalPc) (rest : List C)
deriving DecidableEq, Repr

/-- The mutex, the flags, and where each of the parties `P` stands. -/
structure Monitor (P C : Type) where
  owner : Option P
  flag : C → Bool
  pc : P → Pc C

section

variable {P C : Type}

def WaitPc.holds : WaitPc → Bool
  | .arm | .test _ | .refused | .disarm _ | .unlock _ => true
  | .lock | .blocked | .woken _ => false

def SignalPc.holds : SignalPc → Bool
  | .notify | .unlock => true
  | .test | .lock => false

/-- The party has the mutex. -/
def Pc.holds : Pc C → Bool
  | .out _ => false
  | .wait _ pc => pc.holds
  | .signal _ pc _ => pc.holds

/-- The flag is up. -/
def WaitPc.armed : WaitPc → Bool
  | .test _ | .refused | .blocked | .woken _ | .disarm _ => true
  | .lock | .arm | .unlock _ => false

/-- The party has found its condition false, and does not look again by itself. -/
def WaitPc.asleep : WaitPc → Bool
  | .refused | .blocked => true
  | _ => false

/-- The party does nothing in the monitor until it begins, or wakes up. -/
def Pc.rests : Pc C → Bool
  | .out _ | .wait _ .blocked => true
  | _ => false

/-- Where a party goes when it has signalled, or need not. -/
def Pc.after : List C → Pc C
  | [] => .out true
  | c :: rest => .signal c .test rest

/-- The party is on its way to notify the waiter of `c`. -/
def Pc.Pending (c : C) : Pc C → Prop
  | .signal d pc rest => d = c ∧ pc ≠ .unlock ∨ c ∈ rest
  | _ => False

namespace Monitor

variable [DecidableEq P] [DecidableEq C]

def init : Monitor P C where
  owner := none
  flag := fun _ => false
  pc := fun _ => .out true

def move (m : Monitor P C) (p : P) (x : Pc C) : Monitor P C :=
  { m with pc := Function.update m.pc p x }

/-- A party takes the mutex when it is free. -/
def take (m : Monitor P C) (p : P) (x : Pc C) : Option (Monitor P C) :=
  match m.owner with
  | none => some { m.move p x with owner := some p }
  | some _ => none

def free (m : Monitor P C) (p : P) (x : Pc C) : Monitor P C := { m.move p x with owner := none }

/-- `notify_one`, where only the party `w` waits on `c`. -/
def notify (m : Monitor P C) (c : C) (w : P) : Monitor P C :=
  if m.pc w = .wait c .blocked then m.move w (.wait c (.woken false)) else m

/-- The next step of a party that waits or signals. `ready` is what its wait
condition says now. -/
def step (waiter : C → P) (m : Monitor P C) (p : P) (ready : Bool) : Option (Monitor P C) :=
  match m.pc p with
  | .out _ => none
  | .wait c .lock => m.take p (.wait c .arm)
  | .wait c .arm =>
    some { m.move p (.wait c (.test false)) with flag := Function.update m.flag c true }
  | .wait c (.test last) =>
    some (m.move p (.wait c
      (if ready then .disarm true else if last then .disarm false else .refused)))
  | .wait c .refused => some (m.free p (.wait c .blocked))
  | .wait _ .blocked => none
  | .wait c (.woken last) => m.take p (.wait c (.test last))
  | .wait c (.disarm ok) =>
    some { m.move p (.wait c (.unlock ok)) with flag := Function.update m.flag c false }
  | .wait _ (.unlock ok) => some (m.free p (.out ok))
  | .signal c .test rest =>
    some (m.move p (if m.flag c then .signal c .lock rest else .after rest))
  | .signal c .lock rest => m.take p (.signal c .notify rest)
  | .signal c .notify rest => some ((m.notify c (waiter c)).move p (.signal c .unlock rest))
  | .signal _ .unlock rest => some (m.free p (.after rest))

/-- A blocked party wakes without a notify, by its timeout when `last`. -/
def wake (m : Monitor P C) (p : P) (last : Bool) : Option (Monitor P C) :=
  match m.pc p with
  | .wait c .blocked => some (m.move p (.wait c (.woken last)))
  | _ => none

end Monitor

end

/-! ## What the steps keep -/

section

variable {P C : Type}

/-- The owner of the mutex is the party that has it, only its waiter waits on a
condition variable, the flag is up while the waiter looks or sleeps, and a waiter
that sleeps with a true condition is about to be notified. -/
structure Ok (waiter : C → P) (ready : P → Bool) (m : Monitor P C) : Prop where
  owner : ∀ p, (m.pc p).holds = true ↔ m.owner = some p
  waits : ∀ p c pc, m.pc p = .wait c pc → waiter c = p
  armed : ∀ p c pc, m.pc p = .wait c pc → pc.armed = true → m.flag c = true
  awake : ∀ p c pc, m.pc p = .wait c pc → pc.asleep = true → ready p = true →
    ∃ q, (m.pc q).Pending c

variable {waiter : C → P} {ready ready' : P → Bool} {m m' : Monitor P C}
variable {p q : P} {c : C} {x : Pc C}

theorem Ok.init : Ok waiter ready (Monitor.init : Monitor P C) := by
  refine ⟨?_, ?_, ?_, ?_⟩
  · intro p
    simp [Monitor.init, Pc.holds]
  all_goals
    intro p c pc h
    simp [Monitor.init] at h

/-- A party that sleeps is not the one that is about to notify it. -/
theorem Pc.Pending.ne_wait {pc : WaitPc} (h : (m.pc q).Pending c) (hp : m.pc p = .wait c pc) :
    q ≠ p := by
  rintro rfl
  rw [hp] at h
  exact h

/-- The values of the conditions may change, as long as no sleeping party gets a
true one. -/
theorem Ok.congr (h : Ok waiter ready m)
    (hr : ∀ p c pc, m.pc p = .wait c pc → pc.asleep = true → ready' p = true → ready p = true) :
    Ok waiter ready' m :=
  ⟨h.owner, h.waits, h.armed, fun p c pc hp hs hr' =>
    h.awake p c pc hp hs (hr p c pc hp hs hr')⟩

theorem Pc.holds_of_rests {y : Pc C} (h : y.rests = true) : y.holds = false := by
  cases y with
  | out ok => rfl
  | wait c pc =>
    cases pc with
    | blocked => rfl
    | _ => cases h
  | signal c pc rest => cases h

theorem Pc.not_pending_of_rests {y : Pc C} (h : y.rests = true) : ¬ y.Pending c := by
  intro hp
  cases y with
  | signal d pc rest => cases h
  | _ => exact hp

/-- The owner of the mutex after a step of party `p` to `x`: the mutex is taken
when it is free, and given back by the party that has it. -/
inductive Hands (m : Monitor P C) (p : P) (x : Pc C) : Option P → Prop
  | kept (hx : x.holds = (m.pc p).holds) : Hands m p x m.owner
  | taken (ho : m.owner = none) (hx : x.holds = true) : Hands m p x (some p)
  | freed (hp : (m.pc p).holds = true) (hx : x.holds = false) : Hands m p x none

/-- The party that moves owns the mutex exactly if it has it then. -/
theorem Hands.self {owner : Option P} (hh : Hands m p x owner) (h : Ok waiter ready m) :
    x.holds = true ↔ owner = some p := by
  cases hh with
  | kept hx =>
    rw [hx]
    exact h.owner p
  | taken ho hx => simp [hx]
  | freed hp hx => simp [hx]

/-- For the others nothing changes. -/
theorem Hands.others {owner : Option P} (hh : Hands m p x owner) (h : Ok waiter ready m)
    (hqp : q ≠ p) : owner = some q ↔ m.owner = some q := by
  cases hh with
  | kept hx => rfl
  | taken ho hx => simp [ho, Ne.symm hqp]
  | freed hp hx => simp [(h.owner p).mp hp, Ne.symm hqp]

variable [DecidableEq P]

/-- The rule for a step of one party. A sleeping party whose condition becomes
true by the step is one that the party will notify. -/
theorem Ok.move (h : Ok waiter ready m) {owner : Option P} {flag : C → Bool}
    (hands : Hands m p x owner)
    (hflag : ∀ c, waiter c ≠ p → flag c = m.flag c)
    (hwait : ∀ c pc, x = .wait c pc → waiter c = p ∧ (pc.armed = true → flag c = true) ∧
      (pc.asleep = true → ready' p = true → ∃ q, q ≠ p ∧ (m.pc q).Pending c))
    (hpend : ∀ c pc, (m.pc p).Pending c → m.pc (waiter c) = .wait c pc → pc.asleep = true →
      x.Pending c)
    (hready : ∀ c, waiter c ≠ p → ready' (waiter c) = true →
      ready (waiter c) = true ∨ x.Pending c) :
    Ok waiter ready' { owner, flag, pc := Function.update m.pc p x } := by
  have hself : Function.update m.pc p x p = x := Function.update_self ..
  have hne : ∀ q, q ≠ p → Function.update m.pc p x q = m.pc q := fun q hq =>
    Function.update_of_ne hq ..
  refine ⟨?_, ?_, ?_, ?_⟩
  · intro q
    by_cases hqp : q = p
    · subst hqp
      simp only [hself]
      exact hands.self h
    · simp only [hne q hqp]
      exact (h.owner q).trans (hands.others h hqp).symm
  · intro q c pc hq
    by_cases hqp : q = p
    · subst hqp
      exact (hwait c pc (hself.symm.trans hq)).1
    · exact h.waits q c pc ((hne q hqp).symm.trans hq)
  · intro q c pc hq ha
    by_cases hqp : q = p
    · subst hqp
      exact (hwait c pc (hself.symm.trans hq)).2.1 ha
    · replace hq := (hne q hqp).symm.trans hq
      have hw : waiter c ≠ p := by
        rw [h.waits q c pc hq]
        exact hqp
      exact (hflag c hw).trans (h.armed q c pc hq ha)
  · intro q c pc hq hs hr
    by_cases hqp : q = p
    · subst hqp
      obtain ⟨r, hrp, hpr⟩ := (hwait c pc (hself.symm.trans hq)).2.2 hs hr
      exact ⟨r, by simpa only [hne r hrp] using hpr⟩
    · replace hq := (hne q hqp).symm.trans hq
      have hw := h.waits q c pc hq
      subst hw
      rcases hready c hqp hr with ho | hx
      · obtain ⟨r, hpr⟩ := h.awake _ c pc hq hs ho
        by_cases hrp : r = p
        · subst hrp
          exact ⟨r, by simpa only [hself] using hpend c pc hpr hq hs⟩
        · exact ⟨r, by simpa only [hne r hrp] using hpr⟩
      · exact ⟨p, by simpa only [hself] using hx⟩

/-- A party begins to wait or to signal. -/
theorem Ok.enter (h : Ok waiter ready m) {ok : Bool} (hp : m.pc p = .out ok)
    (hx : x.holds = false) (hwait : ∀ c pc, x = .wait c pc → waiter c = p ∧ pc = .lock)
    (hready : ∀ c, waiter c ≠ p → ready' (waiter c) = true →
      ready (waiter c) = true ∨ x.Pending c) :
    Ok waiter ready' (m.move p x) := by
  refine h.move (.kept ?_) (fun _ _ => rfl) ?_ ?_ hready
  · rw [hp, hx]
    rfl
  · intro c pc he
    obtain ⟨hw, rfl⟩ := hwait c pc he
    exact ⟨hw, fun ha => (by cases ha), fun hs => (by cases hs)⟩
  · intro c pc hpend
    rw [hp] at hpend
    cases hpend

/-- The rule for a step that goes on in a wait, or ends it. -/
theorem Ok.wait_moves (h : Ok waiter ready m) {pc : WaitPc} (hp : m.pc p = .wait c pc)
    {owner : Option P} {flag : C → Bool} (hands : Hands m p x owner)
    (hflag : ∀ d, d ≠ c → flag d = m.flag d)
    (hx : (∃ ok, x = .out ok) ∨ ∃ pc', x = .wait c pc' ∧ (pc'.armed = true → flag c = true) ∧
      (pc'.asleep = true → ready p = true → pc.asleep = true)) :
    Ok waiter ready { owner, flag, pc := Function.update m.pc p x } := by
  have hw := h.waits p c pc hp
  refine h.move hands ?_ ?_ ?_ (fun _ _ hr => .inl hr)
  · intro d hd
    apply hflag
    rintro rfl
    exact hd hw
  · intro d pc' he
    rcases hx with ⟨ok, rfl⟩ | ⟨pc'', rfl, ha, hs⟩
    · cases he
    · cases he
      refine ⟨hw, ha, fun hs' hr => ?_⟩
      obtain ⟨q, hq⟩ := h.awake p c pc hp (hs hs' hr) hr
      exact ⟨q, hq.ne_wait hp, hq⟩
  · intro d pc' hpend
    rw [hp] at hpend
    cases hpend

/-- The rule for a step of a signal. A condition variable that is signalled no
more has no sleeping waiter. -/
theorem Ok.signal_moves (h : Ok waiter ready m) {pc : SignalPc} {rest : List C}
    (hp : m.pc p = .signal c pc rest) {owner : Option P} (hands : Hands m p x owner)
    (hwait : ∀ d pc', x ≠ .wait d pc') (hrest : ∀ d ∈ rest, x.Pending d)
    (hpend : pc ≠ .unlock → x.Pending c ∨
      ∀ pc', m.pc (waiter c) = .wait c pc' → pc'.asleep = false) :
    Ok waiter ready { m with owner, pc := Function.update m.pc p x } := by
  refine h.move hands (fun _ _ => rfl) ?_ ?_ (fun _ _ hr => .inl hr)
  · intro d pc' he
    exact absurd he (hwait d pc')
  · intro d pc' hd hwd hs
    rw [hp] at hd
    rcases hd with ⟨rfl, hne⟩ | hd
    · rcases hpend hne with hx | hx
      · exact hx
      · rw [hx pc' hwd] at hs
        cases hs
    · exact hrest d hd

theorem take_some (h : m.take p x = some m') :
    m.owner = none ∧ m' = { m with owner := some p, pc := Function.update m.pc p x } := by
  unfold Monitor.take at h
  split at h
  · rename_i ho
    exact ⟨ho, (Option.some.inj h).symm⟩
  · cases h

/-- A blocked party wakes up, for whatever reason. -/
theorem Ok.woken (h : Ok waiter ready m) (hp : m.pc p = .wait c .blocked) (last : Bool) :
    Ok waiter ready (m.move p (.wait c (.woken last))) := by
  refine h.wait_moves hp (.kept ?_) (fun _ _ => rfl) (.inr ⟨_, rfl, ?_, ?_⟩)
  · rw [hp]
    rfl
  · intro _
    exact h.armed p c .blocked hp rfl
  · intro hs
    cases hs

theorem Ok.wake (h : Ok waiter ready m) {last : Bool} (hs : m.wake p last = some m') :
    Ok waiter ready m' := by
  unfold Monitor.wake at hs
  split at hs
  · rename_i hp
    cases hs
    exact h.woken hp last
  · cases hs

variable [DecidableEq C]

theorem Ok.notify (h : Ok waiter ready m) : Ok waiter ready (m.notify c q) := by
  unfold Monitor.notify
  split
  · rename_i hp
    exact h.woken hp false
  · exact h

/-- A notify leaves alone who is not blocked. -/
theorem notify_pc (hp : m.pc p ≠ .wait c .blocked) : (m.notify c q).pc p = m.pc p := by
  unfold Monitor.notify
  split
  · rename_i hq
    have hpq : p ≠ q := by
      rintro rfl
      exact hp hq
    exact Function.update_of_ne hpq ..
  · rfl

theorem notify_waiter : (m.notify c q).pc q ≠ .wait c .blocked := by
  unfold Monitor.notify
  split
  · simp [Monitor.move]
  · assumption

/-- The steps of a wait. -/
theorem Ok.wait_step (h : Ok waiter ready m) {pc : WaitPc} (hp : m.pc p = .wait c pc)
    (hs : m.step waiter p (ready p) = some m') : Ok waiter ready m' := by
  have hother : ∀ d, d ≠ c → ∀ b, Function.update m.flag c b d = m.flag d := fun d hd b =>
    Function.update_of_ne hd ..
  have hflag : pc.armed = true → m.flag c = true := h.armed p c pc hp
  have hold : (m.pc p).holds = pc.holds := by
    rw [hp]
    rfl
  unfold Monitor.step at hs
  rw [hp] at hs
  cases pc with
  | lock =>
    obtain ⟨ho, rfl⟩ := take_some hs
    exact h.wait_moves hp (.taken ho rfl) (fun _ _ => rfl)
      (.inr ⟨_, rfl, fun ha => (by cases ha), fun hs => (by cases hs)⟩)
  | arm =>
    cases hs
    exact h.wait_moves hp (.kept hold.symm) (fun d hd => hother d hd _)
      (.inr ⟨_, rfl, fun _ => Function.update_self .., fun hs => by cases hs⟩)
  | test last =>
    cases hs
    refine h.wait_moves hp (.kept ?_) (fun _ _ => rfl) (.inr ⟨_, rfl, fun _ => hflag rfl, ?_⟩)
    · rw [hold]
      cases ready p <;> cases last <;> rfl
    · intro hs hr
      rw [hr] at hs
      cases hs
  | refused =>
    cases hs
    exact h.wait_moves hp (.freed hold rfl) (fun _ _ => rfl)
      (.inr ⟨_, rfl, fun _ => hflag rfl, fun _ _ => rfl⟩)
  | blocked => cases hs
  | woken last =>
    obtain ⟨ho, rfl⟩ := take_some hs
    exact h.wait_moves hp (.taken ho rfl) (fun _ _ => rfl)
      (.inr ⟨_, rfl, fun _ => hflag rfl, fun hs => by cases hs⟩)
  | disarm ok =>
    cases hs
    exact h.wait_moves hp (.kept hold.symm) (fun d hd => hother d hd _)
      (.inr ⟨_, rfl, fun ha => (by cases ha), fun hs => (by cases hs)⟩)
  | unlock ok =>
    cases hs
    exact h.wait_moves hp (.freed hold rfl) (fun _ _ => rfl) (.inl ⟨ok, rfl⟩)

omit [DecidableEq P] [DecidableEq C] in
theorem after_cases (rest : List C) :
    (Pc.after rest).holds = false ∧ (∀ d pc, Pc.after rest ≠ .wait d pc) ∧
      ∀ d ∈ rest, (Pc.after rest).Pending d := by
  cases rest with
  | nil => exact ⟨rfl, fun d pc h => (by cases h), fun d h => by cases h⟩
  | cons c rest =>
    refine ⟨rfl, fun d pc h => (by cases h), ?_⟩
    intro d hd
    rcases List.mem_cons.mp hd with rfl | hd
    · exact .inl ⟨rfl, fun h => by cases h⟩
    · exact .inr hd

/-- The steps of a signal. The flag is up while the waiter sleeps, and the waiter
has the mutex until it is blocked, so neither test nor notify passes it by. -/
theorem Ok.signal_step (h : Ok waiter ready m) {pc : SignalPc} {rest : List C}
    (hp : m.pc p = .signal c pc rest) (hs : m.step waiter p (ready p) = some m') :
    Ok waiter ready m' := by
  obtain ⟨hah, haw, har⟩ := after_cases rest
  have hold : (m.pc p).holds = pc.holds := by
    rw [hp]
    rfl
  unfold Monitor.step at hs
  rw [hp] at hs
  cases pc with
  | test =>
    cases hs
    cases hf : m.flag c with
    | true =>
      exact h.signal_moves hp (.kept hold.symm) (fun d pc he => by cases he)
        (fun d hd => .inr hd) (fun _ => .inl (.inl ⟨rfl, fun he => by cases he⟩))
    | false =>
      refine h.signal_moves hp (.kept (hah.trans hold.symm)) haw har
        (fun _ => .inr fun pc hw => ?_)
      have hna : pc.armed ≠ true := by
        intro ha
        rw [h.armed _ c pc hw ha] at hf
        cases hf
      cases pc <;> simp_all [WaitPc.armed, WaitPc.asleep]
  | lock =>
    obtain ⟨ho, rfl⟩ := take_some hs
    exact h.signal_moves hp (.taken ho rfl) (fun d pc he => by cases he)
      (fun d hd => .inr hd) (fun _ => .inl (.inl ⟨rfl, fun he => by cases he⟩))
  | notify =>
    cases hs
    have hpn : (m.notify c (waiter c)).pc p = .signal c .notify rest := by
      rw [notify_pc (by rw [hp]; exact fun he => by cases he)]
      exact hp
    have hn := h.notify (c := c) (q := waiter c)
    refine hn.signal_moves hpn (.kept (by rw [hpn]; rfl))
      (fun d pc he => by cases he) (fun d hd => .inr hd) (fun _ => .inr fun pc hw => ?_)
    cases pc with
    | blocked => exact absurd hw notify_waiter
    | refused =>
      -- it would have the mutex, which the notifying party has
      have h1 := (hn.owner (waiter c)).mp (by rw [hw]; rfl)
      have h2 := (hn.owner p).mp (by rw [hpn]; rfl)
      rw [h1] at h2
      rw [← Option.some.inj h2, hw] at hpn
      cases hpn
    | _ => rfl
  | unlock =>
    cases hs
    exact h.signal_moves hp (.freed hold hah) haw har (fun hn => absurd rfl hn)

/-- Every step of a party in the monitor. -/
theorem Ok.step (h : Ok waiter ready m) (hs : m.step waiter p (ready p) = some m') :
    Ok waiter ready m' := by
  cases hp : m.pc p with
  | out ok =>
    unfold Monitor.step at hs
    rw [hp] at hs
    cases hs
  | wait c pc => exact h.wait_step hp hs
  | signal c pc rest => exact h.signal_step hp hs

/-! ## The way to the notify -/

/-- The steps that a signal has left, its unlock included. -/
def SignalPc.left : SignalPc → Nat
  | .test => 4
  | .lock => 3
  | .notify => 2
  | .unlock => 1

/-- The steps up to the notify of `c` in the signals of a list. -/
def left_after (c : C) : List C → Nat
  | [] => 0
  | d :: rest => if d = c then 3 else 4 + left_after c rest

/-- The steps that a pending party has left up to the notify of `c`, that one
included. -/
def Pc.left (c : C) : Pc C → Nat
  | .signal d pc rest => if d = c ∧ pc ≠ .unlock then pc.left - 1 else pc.left + left_after c rest
  | _ => 0

omit [DecidableEq P] in
theorem left_after_eq (c : C) (rest : List C) : (Pc.after rest).left c = left_after c rest := by
  cases rest with
  | nil => rfl
  | cons d rest =>
    by_cases hd : d = c
    · simp [Pc.after, Pc.left, left_after, hd, SignalPc.left]
    · simp [Pc.after, Pc.left, left_after, hd, SignalPc.left]

/-- Each step of a pending party brings it nearer to its notify. -/
theorem Ok.pending_step (h : Ok waiter ready m) (hw : m.pc (waiter c) = .wait c .blocked)
    (hq : (m.pc q).Pending c) {r : Bool} (hs : m.step waiter q r = some m') :
    m'.pc (waiter c) ≠ .wait c .blocked ∨
      (m'.pc q).Pending c ∧ (m'.pc q).left c < (m.pc q).left c := by
  have hflag : m.flag c = true := h.armed _ c _ hw rfl
  have hself : ∀ x, Function.update m.pc q x q = x := fun x => Function.update_self ..
  cases hp : m.pc q with
  | out ok =>
    rw [hp] at hq
    cases hq
  | wait d pc =>
    rw [hp] at hq
    cases hq
  | signal d pc rest =>
    rw [hp] at hq
    obtain ⟨-, -, har⟩ := after_cases rest
    unfold Monitor.step at hs
    rw [hp] at hs
    cases pc with
    | test =>
      cases hs
      right
      simp only [Monitor.move, hself]
      rcases hq with ⟨rfl, -⟩ | hq
      · rw [hflag]
        exact ⟨.inl ⟨rfl, fun he => by cases he⟩, by simp [Pc.left, SignalPc.left]⟩
      · cases hf : m.flag d with
        | true =>
          refine ⟨.inr hq, ?_⟩
          by_cases hd : d = c
          · simp [Pc.left, SignalPc.left, hd]
          · simp [Pc.left, SignalPc.left, hd]
        | false =>
          have hd : d ≠ c := by
            rintro rfl
            rw [hflag] at hf
            cases hf
          refine ⟨har c hq, ?_⟩
          simp only [Bool.false_eq_true, if_false, left_after_eq]
          simp [Pc.left, SignalPc.left, hd]
    | lock =>
      obtain ⟨-, rfl⟩ := take_some hs
      right
      simp only [hself]
      refine ⟨hq.imp_left fun hq => ⟨hq.1, fun he => by cases he⟩, ?_⟩
      by_cases hd : d = c
      · simp [Pc.left, SignalPc.left, hd]
      · simp [Pc.left, SignalPc.left, hd]
    | notify =>
      cases hs
      by_cases hd : d = c
      · left
        subst hd
        simp only [Monitor.move]
        have hqw : waiter d ≠ q := by
          rintro rfl
          rw [hw] at hp
          cases hp
        rw [Function.update_of_ne hqw]
        exact notify_waiter
      · right
        simp only [Monitor.move, Function.update_self]
        rcases hq with ⟨rfl, -⟩ | hq
        · exact absurd rfl hd
        · exact ⟨.inr hq, by simp [Pc.left, SignalPc.left, hd]⟩
    | unlock =>
      cases hs
      right
      simp only [Monitor.free, Monitor.move, hself, left_after_eq]
      rcases hq with ⟨-, hne⟩ | hq
      · exact absurd rfl hne
      · exact ⟨har c hq, by simp [Pc.left, SignalPc.left]⟩

/-- A step of one party leaves alone who is not blocked. -/
theorem step_pc {r : Bool} (hs : m.step waiter p r = some m') (hqp : q ≠ p)
    (hq : ∀ c, m.pc q ≠ .wait c .blocked) : m'.pc q = m.pc q := by
  have hne : ∀ x, Function.update m.pc p x q = m.pc q := fun x => Function.update_of_ne hqp ..
  unfold Monitor.step at hs
  split at hs
  case h_12 c rest _ =>
    cases hs
    simp only [Monitor.move, Function.update_of_ne hqp]
    exact notify_pc (hq c)
  all_goals first
    | (cases hs; exact hne _)
    | (obtain ⟨-, rfl⟩ := take_some hs; exact hne _)
    | cases hs

omit [DecidableEq P] [DecidableEq C] in
/-- Who is about to notify is not blocked. -/
theorem Pc.Pending.not_blocked (h : (m.pc q).Pending c) (d : C) : m.pc q ≠ .wait d .blocked := by
  intro he
  rw [he] at h
  exact h

/-- What the monitor sees of a step of party `p`: nothing, a step in the monitor,
or that the party enters it or wakes up. -/
inductive Evolves (waiter : C → P) (p : P) (m : Monitor P C) : Monitor P C → Prop
  | same (hp : (m.pc p).rests = true) : Evolves waiter p m m
  | step {r : Bool} {m' : Monitor P C} (hs : m.step waiter p r = some m') : Evolves waiter p m m'
  | move (hp : (m.pc p).rests = true) (x : Pc C) : Evolves waiter p m (m.move p x)

/-- The waiter of `c` is blocked no more, or the party `q` is still on its way,
nearer to its notify when the step was its own. -/
def Onward (waiter : C → P) (c : C) (q p : P) (m m' : Monitor P C) : Prop :=
  m'.pc (waiter c) ≠ .wait c .blocked ∨
    (m'.pc q).Pending c ∧ (m'.pc q).left c ≤ (m.pc q).left c ∧
      (q = p → (m'.pc q).left c < (m.pc q).left c)

/-- While the waiter of `c` is blocked, a pending party stays on its way. -/
theorem Evolves.onward (he : Evolves waiter p m m') (h : Ok waiter ready m)
    (hw : m.pc (waiter c) = .wait c .blocked) (hq : (m.pc q).Pending c) :
    Onward waiter c q p m m' := by
  cases he with
  | same hp =>
    refine .inr ⟨hq, Nat.le_refl _, ?_⟩
    rintro rfl
    exact absurd hq (Pc.not_pending_of_rests hp)
  | step hs =>
    by_cases hqp : q = p
    · subst hqp
      exact (h.pending_step hw hq hs).imp_right fun hp => ⟨hp.1, Nat.le_of_lt hp.2, fun _ => hp.2⟩
    · right
      rw [step_pc hs hqp hq.not_blocked]
      exact ⟨hq, Nat.le_refl _, fun he => absurd he hqp⟩
  | move hp x =>
    have hqp : q ≠ p := by
      rintro rfl
      exact Pc.not_pending_of_rests hp hq
    right
    simp only [Monitor.move, Function.update_of_ne hqp]
    exact ⟨hq, Nat.le_refl _, fun he => absurd he hqp⟩

/-! ## The way to the unlock -/

/-- The steps up to the one that gives the mutex back, that one included. -/
def WaitPc.to_release : WaitPc → Nat
  | .arm => 4
  | .test _ => 3
  | .disarm _ => 2
  | .refused | .unlock _ => 1
  | .lock | .blocked | .woken _ => 0

def SignalPc.to_release : SignalPc → Nat
  | .notify => 2
  | .unlock => 1
  | .test | .lock => 0

def Pc.to_release : Pc C → Nat
  | .out _ => 0
  | .wait _ pc => pc.to_release
  | .signal _ pc _ => pc.to_release

/-- The owner `o` has given the mutex back, or has it still, nearer to its unlock
when the step was its own. -/
def Releasing (o p : P) (m m' : Monitor P C) : Prop :=
  m'.owner = none ∧ o = p ∨
    m'.owner = some o ∧ (m'.pc o).to_release ≤ (m.pc o).to_release ∧
      (o = p → (m'.pc o).to_release < (m.pc o).to_release)

theorem notify_owner : (m.notify c q).owner = m.owner := by
  unfold Monitor.notify
  split
  · rfl
  · rfl

/-- Each step of the owner brings it nearer to its unlock. -/
theorem Ok.owner_step (h : Ok waiter ready m) (ho : m.owner = some p) {r : Bool}
    (hs : m.step waiter p r = some m') :
    m'.owner = none ∨ m'.owner = some p ∧ (m'.pc p).to_release < (m.pc p).to_release := by
  have hself : ∀ x, Function.update m.pc p x p = x := fun x => Function.update_self ..
  have hheld := (h.owner p).mpr ho
  unfold Monitor.step at hs
  cases hp : m.pc p with
  | out ok =>
    rw [hp] at hheld
    cases hheld
  | wait c pc =>
    rw [hp] at hs hheld
    cases pc with
    | lock | blocked | woken last => cases hheld
    | refused | unlock ok =>
      cases hs
      exact .inl rfl
    | arm | disarm ok =>
      cases hs
      simp only [Monitor.move, hself]
      exact .inr ⟨ho, by simp [Pc.to_release, WaitPc.to_release]⟩
    | test last =>
      cases hs
      simp only [Monitor.move, hself]
      refine .inr ⟨ho, ?_⟩
      cases r <;> cases last <;> simp [Pc.to_release, WaitPc.to_release]
  | signal c pc rest =>
    rw [hp] at hs hheld
    cases pc with
    | test | lock => cases hheld
    | notify =>
      cases hs
      simp only [Monitor.move, Function.update_self]
      exact .inr ⟨notify_owner.trans ho, by simp [Pc.to_release, SignalPc.to_release]⟩
    | unlock =>
      cases hs
      exact .inl rfl

/-- Only the owner gives the mutex back. -/
theorem Ok.other_step (h : Ok waiter ready m) (ho : m.owner = some q) (hqp : q ≠ p) {r : Bool}
    (hs : m.step waiter p r = some m') : m'.owner = some q ∧ m'.pc q = m.pc q := by
  have hp : (m.pc p).holds = false := by
    by_contra hn
    have hop := (h.owner p).mp (by simpa using hn)
    rw [ho] at hop
    exact hqp (Option.some.inj hop)
  refine ⟨?_, step_pc hs hqp ?_⟩
  · have htake : ∀ {x : Pc C}, m.take p x ≠ some m' := by
      intro x hx
      rw [(take_some hx).1] at ho
      cases ho
    unfold Monitor.step at hs
    split at hs
    all_goals
      rename_i hpc
      rw [hpc] at hp
      first
        | exact absurd hs htake
        | (cases hs; done)
        | (cases hp; done)
        | (cases hs; exact ho)
  · intro c hc
    have hheld := (h.owner q).mpr ho
    rw [hc] at hheld
    cases hheld

theorem Evolves.releasing (he : Evolves waiter p m m') (h : Ok waiter ready m)
    (ho : m.owner = some q) : Releasing q p m m' := by
  have hrests : (m.pc p).rests = true → q ≠ p := by
    rintro hp rfl
    have hheld := (h.owner q).mpr ho
    rw [Pc.holds_of_rests hp] at hheld
    cases hheld
  cases he with
  | same hp => exact .inr ⟨ho, Nat.le_refl _, fun hqp => absurd hqp (hrests hp)⟩
  | step hs =>
    by_cases hqp : q = p
    · subst hqp
      rcases h.owner_step ho hs with hn | ⟨ho', hlt⟩
      · exact .inl ⟨hn, rfl⟩
      · exact .inr ⟨ho', Nat.le_of_lt hlt, fun _ => hlt⟩
    · obtain ⟨ho', hpc⟩ := h.other_step ho hqp hs
      rw [Releasing, hpc]
      exact .inr ⟨ho', Nat.le_refl _, fun he => absurd he hqp⟩
  | move hp x =>
    have hqp := hrests hp
    simp only [Releasing, Monitor.move, Function.update_of_ne hqp]
    exact .inr ⟨ho, Nat.le_refl _, fun he => absurd he hqp⟩

/-- Whatever its condition says, the party has a step to take. -/
def Steps (waiter : C → P) (m : Monitor P C) (p : P) : Prop :=
  ∀ r, (m.step waiter p r).isSome = true

/-- Who has the mutex can go on. -/
theorem Ok.owner_steps (h : Ok waiter ready m) (ho : m.owner = some p) : Steps waiter m p := by
  intro r
  have hheld := (h.owner p).mpr ho
  unfold Monitor.step
  cases hp : m.pc p with
  | out ok =>
    rw [hp] at hheld
    cases hheld
  | wait c pc =>
    rw [hp] at hheld
    cases pc with
    | lock | blocked | woken last => cases hheld
    | _ => rfl
  | signal c pc rest =>
    rw [hp] at hheld
    cases pc with
    | test | lock => cases hheld
    | _ => rfl

/-- A pending party can go on, or the mutex that it is about to take has an owner. -/
theorem pending_steps (waiter : C → P) (hq : (m.pc q).Pending c) :
    Steps waiter m q ∨ ∃ o, m.owner = some o := by
  cases ho : m.owner with
  | some o => exact .inr ⟨o, rfl⟩
  | none =>
    left
    intro r
    unfold Monitor.step
    cases hp : m.pc q with
    | signal d pc rest =>
      cases pc with
      | lock => simp [Monitor.take, ho]
      | _ => rfl
    | _ =>
      rw [hp] at hq
      cases hq

/-- A party that is out of the monitor stays out while others act. -/
theorem Evolves.out (he : Evolves waiter p m m') {ok : Bool} (hq : m.pc q = .out ok)
    (hqp : q ≠ p) : m'.pc q = .out ok := by
  cases he with
  | same => exact hq
  | step hs =>
    rw [step_pc hs hqp (by intro c hc; rw [hq] at hc; cases hc)]
    exact hq
  | move hp x =>
    simp only [Monitor.move, Function.update_of_ne hqp]
    exact hq

/-- A blocked party is woken by a notify alone while others act. -/
theorem step_blocked {r : Bool} (hs : m.step waiter p r = some m') (hqp : q ≠ p)
    (hq : m.pc q = .wait c .blocked) :
    m'.pc q = .wait c .blocked ∨ m'.pc q = .wait c (.woken false) := by
  have hne : ∀ x, Function.update m.pc p x q = m.pc q := fun x => Function.update_of_ne hqp ..
  unfold Monitor.step at hs
  split at hs
  case h_12 d rest _ =>
    cases hs
    simp only [Monitor.move, Function.update_of_ne hqp, Monitor.notify]
    split
    · rename_i hd
      by_cases hqd : q = waiter d
      · subst hqd
        rw [hq] at hd
        cases hd
        exact .inr (Function.update_self ..)
      · exact .inl ((Function.update_of_ne hqd ..).trans hq)
    · exact .inl hq
  all_goals first
    | (cases hs; exact .inl ((hne _).trans hq))
    | (obtain ⟨-, rfl⟩ := take_some hs; exact .inl ((hne _).trans hq))
    | cases hs

theorem Evolves.blocked (he : Evolves waiter p m m') (hqp : q ≠ p)
    (hq : m.pc q = .wait c .blocked) :
    m'.pc q = .wait c .blocked ∨ m'.pc q = .wait c (.woken false) := by
  cases he with
  | same => exact .inl hq
  | step hs => exact step_blocked hs hqp hq
  | move hp x => exact .inl ((Function.update_of_ne hqp ..).trans hq)

end

/-! ## A system around a monitor -/

/-- A system whose parties use a monitor, which `view` shows. `go p` is the next
step of the party `p` in the call that it is in. -/
structure Around (S A P C : Type) where
  step : S → A → Option S
  party : A → P
  go : P → A
  view : S → Monitor P C
  waiter : C → P

section

variable {S A P C : Type} [DecidableEq P] [DecidableEq C]

/-- The party `q` will take the mutex and notify the waiter of `c`: no step of the
system turns it away, it can go on or the owner of the mutex can and gives it back,
and steps of the two kinds bring it to its notify. -/
structure Around.WillNotify (Y : Around S A P C) (c : C) (s : S) (q : P) : Prop where
  other : q ≠ Y.waiter c
  pending : ((Y.view s).pc q).Pending c
  onward : ∀ a t, Y.step s a = some t → Onward Y.waiter c q (Y.party a) (Y.view s) (Y.view t)
  goes_on : (Y.step s (Y.go q)).isSome = true ∨
    ∃ o, (Y.view s).owner = some o ∧ (Y.step s (Y.go o)).isSome = true ∧
      ∀ a t, Y.step s a = some t → Releasing o (Y.party a) (Y.view s) (Y.view t)
  arrives : ∃ acts t, RunOf Y.step Free s acts t ∧
    (∀ a ∈ acts, ∃ p, p ≠ Y.waiter c ∧ a = Y.go p) ∧
    (Y.view t).pc (Y.waiter c) = .wait c (.woken false)

/-- The system moves its monitor by the steps of the monitor, and does not stop a
party that has one to take. -/
structure Around.Sound (Y : Around S A P C) (I : S → Prop) : Prop where
  party_go : ∀ p, Y.party (Y.go p) = p
  keeps : ∀ s a t, I s → Y.step s a = some t → I t
  ok : ∀ s, I s → ∃ ready, Ok Y.waiter ready (Y.view s)
  evolves : ∀ s a t, I s → Y.step s a = some t →
    Evolves Y.waiter (Y.party a) (Y.view s) (Y.view t)
  goes : ∀ s p, I s → Steps Y.waiter (Y.view s) p → (Y.step s (Y.go p)).isSome = true

/-- The steps up to the unlock of the owner, if there is one. -/
def Monitor.to_release (m : Monitor P C) : Nat :=
  match m.owner with
  | none => 0
  | some o => (m.pc o).to_release

omit [DecidableEq P] [DecidableEq C] in
theorem Monitor.to_release_le (m : Monitor P C) : m.to_release ≤ 4 := by
  unfold Monitor.to_release
  split
  · omega
  · rename_i o _
    rcases m.pc o with ok | ⟨c, pc⟩ | ⟨c, pc, rest⟩
    · simp [Pc.to_release]
    · cases pc <;> simp [Pc.to_release, WaitPc.to_release]
    · cases pc <;> simp [Pc.to_release, SignalPc.to_release]

omit [DecidableEq C] [DecidableEq P] in
theorem Pc.to_release_pos {y : Pc C} (h : y.holds = true) : 0 < y.to_release := by
  cases y with
  | out ok => cases h
  | wait c pc => cases pc <;> first | cases h; done | simp [Pc.to_release, WaitPc.to_release]
  | signal c pc rest =>
    cases pc <;> first | cases h; done | simp [Pc.to_release, SignalPc.to_release]

omit [DecidableEq P] [DecidableEq C] in
/-- The owner is nearer to its unlock after its own step. -/
theorem Releasing.lowers {waiter : C → P} {ready : P → Bool} {m m' : Monitor P C} {o : P}
    (hr : Releasing o o m m') (h : Ok waiter ready m) (ho : m.owner = some o) :
    m'.to_release < m.to_release := by
  have hm : m.to_release = (m.pc o).to_release := by simp only [Monitor.to_release, ho]
  rw [hm]
  rcases hr with ⟨hn, -⟩ | ⟨ho', -, hlt⟩
  · simp only [Monitor.to_release, hn]
    exact Pc.to_release_pos ((h.owner o).mpr ho)
  · simp only [Monitor.to_release, ho']
    exact hlt rfl

variable {Y : Around S A P C} {I : S → Prop} {s : S} {c : C} {q : P}

/-- The next party to act on the way to the notify: the pending one where it can,
and else the owner of the mutex. -/
theorem Around.Sound.next (hY : Y.Sound I) (hs : I s)
    (hw : (Y.view s).pc (Y.waiter c) = .wait c .blocked) (hq : ((Y.view s).pc q).Pending c) :
    ∃ p t, p ≠ Y.waiter c ∧ Y.step s (Y.go p) = some t ∧
      ((Y.view t).pc (Y.waiter c) ≠ .wait c .blocked ∨ ((Y.view t).pc q).Pending c ∧
        5 * ((Y.view t).pc q).left c + (Y.view t).to_release <
          5 * ((Y.view s).pc q).left c + (Y.view s).to_release) := by
  obtain ⟨ready, hok⟩ := hY.ok s hs
  rcases pending_steps Y.waiter hq with hgo | ⟨o, ho⟩
  · obtain ⟨t, ht⟩ := Option.isSome_iff_exists.mp (hY.goes s q hs hgo)
    have hev := hY.evolves s _ t hs ht
    rw [hY.party_go] at hev
    refine ⟨q, t, hq.ne_wait hw, ht, ?_⟩
    rcases hev.onward hok hw hq with hn | ⟨hp, -, hlt⟩
    · exact .inl hn
    · have hl := hlt rfl
      have hle := (Y.view t).to_release_le
      exact .inr ⟨hp, by omega⟩
  · obtain ⟨t, ht⟩ := Option.isSome_iff_exists.mp (hY.goes s o hs (hok.owner_steps ho))
    have hev := hY.evolves s _ t hs ht
    rw [hY.party_go] at hev
    have hne : o ≠ Y.waiter c := by
      rintro rfl
      have hheld := (hok.owner _).mpr ho
      rw [hw] at hheld
      cases hheld
    refine ⟨o, t, hne, ht, ?_⟩
    rcases hev.onward hok hw hq with hn | ⟨hp, hle, -⟩
    · exact .inl hn
    · have hlt := (hev.releasing hok ho).lowers hok ho
      exact .inr ⟨hp, by omega⟩

/-- Steps of others bring a pending party to its notify. The induction is on the
steps that it and the owner of the mutex have left. -/
theorem Around.Sound.arrives (hY : Y.Sound I) (n : Nat) (hs : I s)
    (hw : (Y.view s).pc (Y.waiter c) = .wait c .blocked) (hq : ((Y.view s).pc q).Pending c)
    (hn : 5 * ((Y.view s).pc q).left c + (Y.view s).to_release = n) :
    ∃ acts t, RunOf Y.step Free s acts t ∧ (∀ a ∈ acts, ∃ p, p ≠ Y.waiter c ∧ a = Y.go p) ∧
      (Y.view t).pc (Y.waiter c) = .wait c (.woken false) := by
  induction n using Nat.strongRecOn generalizing s with
  | ind n ih =>
    obtain ⟨p, t, hp, ht, hnext⟩ := hY.next hs hw hq
    have hev := hY.evolves s _ t hs ht
    rw [hY.party_go] at hev
    by_cases hb : (Y.view t).pc (Y.waiter c) = .wait c .blocked
    · obtain ⟨hq', hlt⟩ := hnext.resolve_left (fun hnb => hnb hb)
      rw [hn] at hlt
      obtain ⟨acts, u, hr, hacts, hu⟩ := ih _ hlt (hY.keeps s _ t hs ht) hb hq' rfl
      refine ⟨Y.go p :: acts, u, RunOf.trans (.single trivial ht) hr, ?_, hu⟩
      intro a ha
      rcases List.mem_cons.mp ha with rfl | ha
      · exact ⟨p, hp, rfl⟩
      · exact hacts a ha
    · refine ⟨[Y.go p], t, .single trivial ht, by simpa using ⟨p, hp, rfl⟩, ?_⟩
      exact (hev.blocked (Ne.symm hp) hw).resolve_left hb

theorem Around.Sound.will_notify (hY : Y.Sound I) (hs : I s)
    (hw : (Y.view s).pc (Y.waiter c) = .wait c .blocked) (hq : ((Y.view s).pc q).Pending c) :
    Y.WillNotify c s q := by
  obtain ⟨ready, hok⟩ := hY.ok s hs
  refine ⟨hq.ne_wait hw, hq, ?_, ?_, hY.arrives _ hs hw hq rfl⟩
  · intro a t ht
    exact (hY.evolves s a t hs ht).onward hok hw hq
  · rcases pending_steps Y.waiter hq with hgo | ⟨o, ho⟩
    · exact .inl (hY.goes s q hs hgo)
    · exact .inr ⟨o, ho, hY.goes s o hs (hok.owner_steps ho), fun a t ht =>
        (hY.evolves s a t hs ht).releasing hok ho⟩

end

end monitor
