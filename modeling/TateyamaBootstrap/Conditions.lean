-- Condition variables, each with a mutex of its own. A thread stands in the section of
-- one of them at a time, where it waits or signals. Every lock, unlock, block and notify
-- is one step, and so is every evaluation of a wait condition.
import Mathlib.Logic.Function.Basic

namespace conditions

/-! ## The steps -/

/-- Where a thread stands in a wait. -/
inductive WaitPc
  | lock
  /-- It is about to evaluate its condition; `last` when the wait has timed out. -/
  | test (last : Bool)
  /-- The condition was false, and it is about to block. -/
  | refused
  | blocked
  /-- It is about to take the mutex again. -/
  | woken (last : Bool)
  | unlock (ok : Bool)
deriving DecidableEq, Repr

/-- Where a thread stands in a signal. -/
inductive SignalPc
  | lock
  /-- It is about to do what has to be done with the mutex before it notifies. -/
  | act
  | notify
  | unlock
deriving DecidableEq, Repr

/-- Where a thread stands, `O` being the condition variables. -/
inductive Pc (O : Type)
  | out
  | wait (o : O) (pc : WaitPc)
  | signal (o : O) (pc : SignalPc)
deriving DecidableEq, Repr

/-- Who has the mutexes, and where each of the threads `P` stands. -/
structure Conditions (O P : Type) where
  owner : O → Option P
  pc : P → Pc O

section

variable {O P : Type}

def WaitPc.holds : WaitPc → Bool
  | .test _ | .refused | .unlock _ => true
  | .lock | .blocked | .woken _ => false

def SignalPc.holds : SignalPc → Bool
  | .act | .notify | .unlock => true
  | .lock => false

/-- The thread has the mutex of `o`. -/
def Pc.Holds (o : O) : Pc O → Prop
  | .out => False
  | .wait o' pc => o' = o ∧ pc.holds = true
  | .signal o' pc => o' = o ∧ pc.holds = true

/-- The thread has found its condition false, and does not look again by itself. -/
def WaitPc.asleep : WaitPc → Bool
  | .refused | .blocked => true
  | _ => false

/-- The thread is on its way to notify who waits on `o`. -/
def Pc.Pending (o : O) : Pc O → Prop
  | .signal o' pc => o' = o ∧ pc ≠ .unlock
  | _ => False

namespace Conditions

variable [DecidableEq O] [DecidableEq P]

def init : Conditions O P where
  owner := fun _ => none
  pc := fun _ => .out

def move (m : Conditions O P) (p : P) (x : Pc O) : Conditions O P :=
  { m with pc := Function.update m.pc p x }

/-- A thread takes the mutex when it is free. -/
def take (m : Conditions O P) (o : O) (p : P) (x : Pc O) : Option (Conditions O P) :=
  match m.owner o with
  | none => some { m.move p x with owner := Function.update m.owner o (some p) }
  | some _ => none

def free (m : Conditions O P) (o : O) (p : P) (x : Pc O) : Conditions O P :=
  { m.move p x with owner := Function.update m.owner o none }

/-- `notify_one`, where `w` is the thread that it wakes if there is one. -/
def notify (m : Conditions O P) (o : O) (w : P) : Conditions O P :=
  if m.pc w = .wait o .blocked then m.move w (.wait o (.woken false)) else m

/-- The next step of a thread that waits or signals. `ready` is what its wait condition
says now, and `w` the thread that a `notify_one` wakes. -/
def step (m : Conditions O P) (p : P) (ready : Bool) (w : P) : Option (Conditions O P) :=
  match m.pc p with
  | .out => none
  | .wait o .lock => m.take o p (.wait o (.test false))
  | .wait o (.test last) =>
    some (m.move p (.wait o
      (if ready then .unlock true else if last then .unlock false else .refused)))
  | .wait o .refused => some (m.free o p (.wait o .blocked))
  | .wait _ .blocked => none
  | .wait o (.woken last) => m.take o p (.wait o (.test last))
  | .wait o (.unlock _) => some (m.free o p .out)
  | .signal o .lock => m.take o p (.signal o .act)
  | .signal o .act => some (m.move p (.signal o .notify))
  | .signal o .notify => some ((m.notify o w).move p (.signal o .unlock))
  | .signal o .unlock => some (m.free o p .out)

/-- A blocked thread wakes without a notify, by its timeout when `last`. -/
def wake (m : Conditions O P) (p : P) (last : Bool) : Option (Conditions O P) :=
  match m.pc p with
  | .wait o .blocked => some (m.move p (.wait o (.woken last)))
  | _ => none

end Conditions

/-! ## What the steps keep -/

/-- Who has a mutex owns it and the other way round, one thread at most waits on a condition
variable, and a thread that sleeps with a true condition is about to be notified. -/
structure Ok (ready : P → Bool) (m : Conditions O P) : Prop where
  owner : ∀ p o, (m.pc p).Holds o ↔ m.owner o = some p
  alone : ∀ p q o x y, m.pc p = .wait o x → m.pc q = .wait o y → p = q
  awake : ∀ p o x, m.pc p = .wait o x → x.asleep = true → ready p = true →
    ∃ q, (m.pc q).Pending o

variable {ready ready' : P → Bool} {m m' : Conditions O P} {p q w : P} {o : O} {x : Pc O}

theorem Ok.init : Ok ready (Conditions.init : Conditions O P) := by
  refine ⟨?_, ?_, ?_⟩
  · intro p o
    simp [Conditions.init, Pc.Holds]
  · intro p q o x y hp
    cases hp
  · intro p o x hp
    cases hp

/-- The values of the conditions may change, as long as no sleeping thread gets a true one. -/
theorem Ok.congr (h : Ok ready m)
    (hr : ∀ p o x, m.pc p = .wait o x → x.asleep = true → ready' p = true → ready p = true) :
    Ok ready' m :=
  ⟨h.owner, h.alone, fun p o x hp hs hr' => h.awake p o x hp hs (hr p o x hp hs hr')⟩

/-- A thread is where it stands in one section only. -/
theorem Pc.Holds.eq {x : Pc O} {o o' : O} (h : x.Holds o) (h' : x.Holds o') : o = o' := by
  cases x with
  | out => cases h
  | wait d pc => exact h.1.symm.trans h'.1
  | signal d pc => exact h.1.symm.trans h'.1

/-- What a thread that goes to `x` must see to: it is alone where it waits, it does not fall
asleep unnoticed, and it does not leave a sleeping thread behind that it had to notify, or
whose condition becomes true by the step. -/
structure Goes (ready ready' : P → Bool) (m : Conditions O P) (p : P) (x : Pc O) : Prop where
  alone : ∀ o y, x = .wait o y → (∃ z, m.pc p = .wait o z) ∨ ∀ q z, m.pc q ≠ .wait o z
  asleep : ∀ o y, x = .wait o y → y.asleep = true → ready' p = true →
    ∃ q, q ≠ p ∧ (m.pc q).Pending o
  pending : ∀ o, (m.pc p).Pending o → x.Pending o ∨
    ∀ q y, q ≠ p → m.pc q = .wait o y → y.asleep = false
  ready : ∀ q o y, q ≠ p → m.pc q = .wait o y → y.asleep = true → ready' q = true →
    ready q = true ∨ x.Pending o

/-- A thread goes on in a wait, or ends it. -/
theorem Goes.waits (h : Ok ready m) {y : WaitPc} (hp : m.pc p = .wait o y)
    (hx : x = .out ∨ ∃ y', x = .wait o y' ∧
      (y'.asleep = true → ready' p = true → y.asleep = true ∧ ready p = true))
    (hready : ∀ q o y, q ≠ p → m.pc q = .wait o y → y.asleep = true → ready' q = true →
      ready q = true) :
    Goes ready ready' m p x where
  alone := by
    intro o' z hz
    rcases hx with rfl | ⟨y', rfl, -⟩
    · cases hz
    · cases hz
      exact .inl ⟨y, hp⟩
  asleep := by
    intro o' z hz hs hr
    rcases hx with rfl | ⟨y', rfl, hy⟩
    · cases hz
    · cases hz
      obtain ⟨hs', hr'⟩ := hy hs hr
      obtain ⟨q, hq⟩ := h.awake p o y hp hs' hr'
      refine ⟨q, ?_, hq⟩
      rintro rfl
      rw [hp] at hq
      cases hq
  pending := by
    intro o' hpend
    rw [hp] at hpend
    cases hpend
  ready := fun q o' z hqp hq hs hr => .inl (hready q o' z hqp hq hs hr)

/-- A thread goes on in a signal, or ends it. -/
theorem Goes.signals {k : SignalPc} (hp : m.pc p = .signal o k)
    (hx : x = .out ∨ ∃ k', x = .signal o k')
    (hpend : k ≠ .unlock → x.Pending o ∨
      ∀ q y, q ≠ p → m.pc q = .wait o y → y.asleep = false)
    (hready : ∀ q o y, q ≠ p → m.pc q = .wait o y → y.asleep = true → ready' q = true →
      ready q = true ∨ x.Pending o) :
    Goes ready ready' m p x where
  alone := by
    intro o' z hz
    rcases hx with rfl | ⟨k', rfl⟩ <;> cases hz
  asleep := by
    intro o' z hz
    rcases hx with rfl | ⟨k', rfl⟩ <;> cases hz
  pending := by
    intro o' hpo
    rw [hp] at hpo
    obtain ⟨rfl, hk⟩ := hpo
    exact hpend hk
  ready := hready

variable [DecidableEq P]

/-- The rule for a step of one thread. A mutex changes hands only when it was free, or when
the thread had it. -/
theorem Ok.go (h : Ok ready m) (hx : Goes ready ready' m p x) {owner : O → Option P}
    (hown : ∀ o, x.Holds o ↔ owner o = some p)
    (hother : ∀ o, owner o = m.owner o ∨ owner o = some p ∧ m.owner o = none ∨
      owner o = none ∧ m.owner o = some p) :
    Ok ready' { owner, pc := Function.update m.pc p x } := by
  have hself : Function.update m.pc p x p = x := Function.update_self ..
  have hne : ∀ q, q ≠ p → Function.update m.pc p x q = m.pc q := fun q hq =>
    Function.update_of_ne hq ..
  refine ⟨?_, ?_, ?_⟩
  · intro q o
    dsimp only
    by_cases hqp : q = p
    · subst hqp
      rw [hself]
      exact hown o
    · rw [hne q hqp, h.owner q o]
      rcases hother o with he | ⟨he, hm⟩ | ⟨he, hm⟩
      · rw [he]
      · rw [he, hm]
        simpa using Ne.symm hqp
      · rw [he, hm]
        simpa using Ne.symm hqp
  · intro q r o y z hq hr
    by_cases hqp : q = p <;> by_cases hrp : r = p
    · exact hqp.trans hrp.symm
    · subst hqp
      replace hr := (hne r hrp).symm.trans hr
      rcases hx.alone o y (hself.symm.trans hq) with ⟨z', hz'⟩ | hno
      · exact h.alone q r o z' z hz' hr
      · exact absurd hr (hno r z)
    · subst hrp
      replace hq := (hne q hqp).symm.trans hq
      rcases hx.alone o z (hself.symm.trans hr) with ⟨z', hz'⟩ | hno
      · exact h.alone q r o y z' hq hz'
      · exact absurd hq (hno q y)
    · exact h.alone q r o y z ((hne q hqp).symm.trans hq) ((hne r hrp).symm.trans hr)
  · intro q o y hq hs hr
    by_cases hqp : q = p
    · subst hqp
      obtain ⟨r, hrp, hpr⟩ := hx.asleep o y (hself.symm.trans hq) hs hr
      exact ⟨r, by simpa only [hne r hrp] using hpr⟩
    · replace hq := (hne q hqp).symm.trans hq
      rcases hx.ready q o y hqp hq hs hr with ho | hpx
      · obtain ⟨r, hpr⟩ := h.awake q o y hq hs ho
        by_cases hrp : r = p
        · subst hrp
          rcases hx.pending o hpr with hpx | hno
          · exact ⟨r, by simpa only [hself] using hpx⟩
          · rw [hno q y hqp hq] at hs
            cases hs
        · exact ⟨r, by simpa only [hne r hrp] using hpr⟩
      · exact ⟨p, by simpa only [hself] using hpx⟩

/-- The thread keeps the mutex, or goes on without one. -/
theorem Ok.stay (h : Ok ready m) (hx : Goes ready ready' m p x)
    (hholds : ∀ o, x.Holds o ↔ (m.pc p).Holds o) : Ok ready' (m.move p x) :=
  h.go hx (fun o => (hholds o).trans (h.owner p o)) fun _ => .inl rfl

/-- A thread begins to wait where nobody does, or to signal. -/
theorem Ok.enter (h : Ok ready m) (hp : m.pc p = .out)
    (hx : (∃ o, x = .wait o .lock ∧ ∀ q z, m.pc q ≠ .wait o z) ∨ ∃ o, x = .signal o .lock)
    (hready : ∀ q o y, q ≠ p → m.pc q = .wait o y → y.asleep = true → ready' q = true →
      ready q = true ∨ x.Pending o) :
    Ok ready' (m.move p x) := by
  refine h.stay ⟨?_, ?_, ?_, hready⟩ ?_
  · intro o y hy
    rcases hx with ⟨o', rfl, hno⟩ | ⟨o', rfl⟩
    · cases hy
      exact .inr hno
    · cases hy
  · intro o y hy hs
    rcases hx with ⟨o', rfl, -⟩ | ⟨o', rfl⟩
    · cases hy
      cases hs
    · cases hy
  · intro o hpend
    rw [hp] at hpend
    cases hpend
  · intro o
    rw [hp]
    rcases hx with ⟨o', rfl, -⟩ | ⟨o', rfl⟩ <;> simp [Pc.Holds, WaitPc.holds, SignalPc.holds]

theorem Ok.woken (h : Ok ready m) (hp : m.pc p = .wait o .blocked) (last : Bool) :
    Ok ready (m.move p (.wait o (.woken last))) := by
  refine h.stay (.waits h hp (.inr ⟨_, rfl, ?_⟩) fun q o y _ _ _ hr => hr) ?_
  · intro hs
    cases hs
  · intro o'
    rw [hp]
    simp [Pc.Holds, WaitPc.holds]

theorem Ok.wake (h : Ok ready m) {last : Bool} (hs : m.wake p last = some m') : Ok ready m' := by
  unfold Conditions.wake at hs
  split at hs
  · rename_i o hp
    obtain rfl := Option.some.inj hs
    exact h.woken hp last
  · cases hs

variable [DecidableEq O]

/-- A thread that takes the mutex has found it free. -/
theorem take_eq_some (hm : m.take o p x = some m') :
    m.owner o = none ∧ m' = { m.move p x with owner := Function.update m.owner o (some p) } := by
  unfold Conditions.take at hm
  split at hm
  · rename_i ho
    exact ⟨ho, (Option.some.inj hm).symm⟩
  · cases hm

theorem Ok.take (h : Ok ready m) (hx : Goes ready ready' m p x) (hout : ∀ o, ¬ (m.pc p).Holds o)
    (hholds : ∀ o', x.Holds o' ↔ o' = o) (hm : m.take o p x = some m') : Ok ready' m' := by
  obtain ⟨ho, rfl⟩ := take_eq_some hm
  refine h.go hx ?_ ?_
  · intro o'
    rw [hholds]
    by_cases he : o' = o
    · subst he
      simp
    · rw [Function.update_of_ne he]
      exact iff_of_false he fun hp => hout o' ((h.owner p o').mpr hp)
  · intro o'
    by_cases he : o' = o
    · subst he
      exact .inr (.inl ⟨Function.update_self .., ho⟩)
    · exact .inl (Function.update_of_ne he ..)

theorem Ok.free (h : Ok ready m) (hx : Goes ready ready' m p x) (ho : (m.pc p).Holds o)
    (hholds : ∀ o', ¬ x.Holds o') : Ok ready' (m.free o p x) := by
  refine h.go hx ?_ ?_
  · intro o'
    refine iff_of_false (hholds o') ?_
    by_cases he : o' = o
    · subst he
      simp
    · rw [Function.update_of_ne he]
      exact fun hp => he (((h.owner p o').mpr hp).eq ho)
  · intro o'
    by_cases he : o' = o
    · subst he
      exact .inr (.inr ⟨Function.update_self .., (h.owner p o').mp ho⟩)
    · exact .inl (Function.update_of_ne he ..)

theorem Ok.notify (h : Ok ready m) (o : O) (w : P) : Ok ready (m.notify o w) := by
  unfold Conditions.notify
  split
  · rename_i hw
    exact h.woken hw false
  · exact h

/-- Who does not sleep after a notify stands where it stood. -/
theorem notify_pc (m : Conditions O P) (o : O) (w q : P) :
    (m.notify o w).pc q = m.pc q ∨
      q = w ∧ m.pc q = .wait o .blocked ∧ (m.notify o w).pc q = .wait o (.woken false) := by
  unfold Conditions.notify
  split
  · rename_i hw
    by_cases hq : q = w
    · subst hq
      exact .inr ⟨rfl, hw, Function.update_self ..⟩
    · exact .inl (Function.update_of_ne hq ..)
  · exact .inl rfl

theorem notify_asleep {y : WaitPc} {o' : O} (hq : (m.notify o w).pc q = .wait o' y)
    (hy : y.asleep = true) : m.pc q = .wait o' y := by
  rcases notify_pc m o w q with he | ⟨-, -, he⟩
  · exact he.symm.trans hq
  · rw [he] at hq
    cases hq
    cases hy

/-- After a notify nobody sleeps on the condition variable. -/
theorem Ok.notified (h : Ok ready m) (hp : m.pc p = .signal o .notify)
    (hw : ∀ q, m.pc q = .wait o .blocked → m.pc w = .wait o .blocked) {y : WaitPc}
    (hq : (m.notify o w).pc q = .wait o y) : y.asleep = false := by
  by_contra hy
  replace hy : y.asleep = true := by simpa using hy
  have hq' := notify_asleep hq hy
  cases y with
  | refused =>
    have hown : m.owner o = some q := (h.owner q o).mp (by rw [hq']; exact ⟨rfl, rfl⟩)
    have hown' : m.owner o = some p := (h.owner p o).mp (by rw [hp]; exact ⟨rfl, rfl⟩)
    obtain rfl := Option.some.inj (hown.symm.trans hown')
    rw [hp] at hq'
    cases hq'
  | blocked =>
    have hwb := hw q hq'
    obtain rfl := h.alone q w o _ _ hq' hwb
    unfold Conditions.notify at hq
    rw [if_pos hwb] at hq
    simp [Conditions.move] at hq
  | _ => cases hy

/-- The rule for the steps of the threads. A `notify_one` wakes a thread if one is blocked. The
conditions that a step makes true are those of threads that it is going to notify. -/
theorem Ok.step (h : Ok ready m) {b : Bool} (hs : m.step p b w = some m')
    (hb : ready p = true → b = true)
    (hw : ∀ o q, m.pc p = .signal o .notify → m.pc q = .wait o .blocked →
      m.pc w = .wait o .blocked)
    (hready : ∀ q o y, m.pc q = .wait o y → y.asleep = true ∨ q = p → ready' q = true →
      ready q = true ∨ m.pc p = .signal o .act) :
    Ok ready' m' := by
  have hrest : (∀ o, m.pc p ≠ .signal o .act) → ∀ q o y, q ≠ p → m.pc q = .wait o y →
      y.asleep = true → ready' q = true → ready q = true := by
    intro hno q o y _ hq hy hr
    exact (hready q o y hq (.inl hy) hr).resolve_right (hno o)
  unfold Conditions.step at hs
  rcases hp : m.pc p with _ | ⟨o, y⟩ | ⟨o, k⟩
  · rw [hp] at hs
    cases hs
  · have hrest' := hrest (by simp [hp])
    rw [hp] at hs
    cases y with
    | lock =>
      refine h.take (.waits h hp (.inr ⟨_, rfl, ?_⟩) hrest') ?_ ?_ hs
      · intro hy
        cases hy
      · simp [hp, Pc.Holds, WaitPc.holds]
      · simp [Pc.Holds, WaitPc.holds, eq_comm]
    | test last =>
      obtain rfl := Option.some.inj hs
      refine h.stay (.waits h hp (.inr ⟨_, rfl, ?_⟩) hrest') ?_
      · intro hy hr
        have hr' := (hready p o _ hp (.inr rfl) hr).resolve_right (by simp [hp])
        rw [hb hr'] at hy
        cases hy
      · intro o'
        rw [hp]
        cases b <;> cases last <;> simp [Pc.Holds, WaitPc.holds]
    | refused =>
      obtain rfl := Option.some.inj hs
      refine h.free (.waits h hp (.inr ⟨_, rfl, ?_⟩) hrest') ?_ ?_
      · intro _ hr
        exact ⟨rfl, (hready p o _ hp (.inr rfl) hr).resolve_right (by simp [hp])⟩
      · rw [hp]
        exact ⟨rfl, rfl⟩
      · simp [Pc.Holds, WaitPc.holds]
    | blocked => cases hs
    | woken last =>
      refine h.take (.waits h hp (.inr ⟨_, rfl, ?_⟩) hrest') ?_ ?_ hs
      · intro hy
        cases hy
      · simp [hp, Pc.Holds, WaitPc.holds]
      · simp [Pc.Holds, WaitPc.holds, eq_comm]
    | unlock ok =>
      obtain rfl := Option.some.inj hs
      refine h.free (.waits h hp (.inl rfl) hrest') ?_ ?_
      · rw [hp]
        exact ⟨rfl, rfl⟩
      · simp [Pc.Holds]
  · rw [hp] at hs
    cases k with
    | lock =>
      have hrest' := hrest (by simp [hp])
      refine h.take (.signals hp (.inr ⟨_, rfl⟩) ?_ ?_) ?_ ?_ hs
      · exact fun _ => .inl ⟨rfl, by simp⟩
      · exact fun q o y hqp hq hy hr => .inl (hrest' q o y hqp hq hy hr)
      · simp [hp, Pc.Holds, SignalPc.holds]
      · simp [Pc.Holds, SignalPc.holds, eq_comm]
    | act =>
      obtain rfl := Option.some.inj hs
      refine h.stay (.signals hp (.inr ⟨_, rfl⟩) ?_ ?_) ?_
      · exact fun _ => .inl ⟨rfl, by simp⟩
      · intro q o' y _ hq hy hr
        refine (hready q o' y hq (.inl hy) hr).imp_right fun he => ?_
        rw [hp] at he
        cases he
        exact ⟨rfl, by simp⟩
      · intro o'
        rw [hp]
        simp [Pc.Holds, SignalPc.holds]
    | notify =>
      have hrest' := hrest (by simp [hp])
      obtain rfl := Option.some.inj hs
      have hp' : (m.notify o w).pc p = .signal o .notify := by
        rcases notify_pc m o w p with he | ⟨-, hblocked, -⟩
        · exact he.trans hp
        · rw [hp] at hblocked
          cases hblocked
      refine (h.notify o w).stay (.signals hp' (.inr ⟨_, rfl⟩) ?_ ?_) ?_
      · exact fun _ => .inr fun q y _ hq => h.notified hp (fun q' => hw o q' hp) hq
      · intro q o' y hqp hq hy hr
        exact .inl (hrest' q o' y hqp (notify_asleep hq hy) hy hr)
      · intro o'
        rw [hp']
        simp [Pc.Holds, SignalPc.holds]
    | unlock =>
      have hrest' := hrest (by simp [hp])
      obtain rfl := Option.some.inj hs
      refine h.free (.signals hp (.inl rfl) ?_ ?_) ?_ ?_
      · exact fun hne => absurd rfl hne
      · exact fun q o y hqp hq hy hr => .inl (hrest' q o y hqp hq hy hr)
      · rw [hp]
        exact ⟨rfl, rfl⟩
      · simp [Pc.Holds]

/-- A thread with a mutex has a next step. -/
theorem step_of_holds (h : (m.pc p).Holds o) (b : Bool) (w : P) :
    (m.step p b w).isSome = true := by
  unfold Conditions.step
  rcases hp : m.pc p with _ | ⟨o', y⟩ | ⟨o', k⟩
  · rw [hp] at h
    cases h
  · rw [hp] at h
    cases y with
    | test | refused | unlock => rfl
    | _ => cases h.2
  · rw [hp] at h
    cases k with
    | lock => cases h.2
    | _ => rfl

/-- Who is on its way to notify has a next step, or waits for a thread that has one. -/
theorem Ok.not_stuck (h : Ok ready m) (hq : (m.pc q).Pending o) :
    ∃ r, ∀ b w, (m.step r b w).isSome = true := by
  rcases hp : m.pc q with _ | ⟨o', y⟩ | ⟨o', k⟩
  · rw [hp] at hq
    cases hq
  · rw [hp] at hq
    cases hq
  · rw [hp] at hq
    obtain ⟨rfl, hk⟩ := hq
    rcases howner : m.owner o' with _ | r
    · refine ⟨q, fun b w => ?_⟩
      unfold Conditions.step
      rw [hp]
      cases k with
      | lock => simp [Conditions.take, howner]
      | _ => rfl
    · exact ⟨r, step_of_holds ((h.owner r o').mpr howner)⟩

/-- A thread other than the one that steps stands where it stood, or has been woken. -/
theorem step_other {b : Bool} (hs : m.step p b w = some m') (hq : q ≠ p) :
    m'.pc q = m.pc q ∨ ∃ o, m.pc q = .wait o .blocked ∧ m'.pc q = .wait o (.woken false) := by
  have hmove : ∀ (n : Conditions O P) x, (n.move p x).pc q = n.pc q := fun n x =>
    Function.update_of_ne hq ..
  have htake : ∀ o x, m.take o p x = some m' → m'.pc q = m.pc q := by
    intro o x ht
    obtain ⟨-, rfl⟩ := take_eq_some ht
    exact hmove m x
  unfold Conditions.step at hs
  split at hs
  · cases hs
  · exact .inl (htake _ _ hs)
  · obtain rfl := Option.some.inj hs
    exact .inl (hmove m _)
  · obtain rfl := Option.some.inj hs
    exact .inl (hmove m _)
  · cases hs
  · exact .inl (htake _ _ hs)
  · obtain rfl := Option.some.inj hs
    exact .inl (hmove m _)
  · exact .inl (htake _ _ hs)
  · obtain rfl := Option.some.inj hs
    exact .inl (hmove m _)
  · rename_i o _
    obtain rfl := Option.some.inj hs
    rw [hmove]
    exact (notify_pc m o w q).imp_right fun h => ⟨o, h.2⟩
  · obtain rfl := Option.some.inj hs
    exact .inl (hmove m _)

/-- Where the thread that steps comes to stand. -/
def Pc.next (b : Bool) : Pc O → Pc O
  | .out => .out
  | .wait o .lock => .wait o (.test false)
  | .wait o (.test last) =>
    .wait o (if b then .unlock true else if last then .unlock false else .refused)
  | .wait o .refused => .wait o .blocked
  | .wait o .blocked => .wait o .blocked
  | .wait o (.woken last) => .wait o (.test last)
  | .wait _ (.unlock _) => .out
  | .signal o .lock => .signal o .act
  | .signal o .act => .signal o .notify
  | .signal o .notify => .signal o .unlock
  | .signal _ .unlock => .out

theorem step_self {b : Bool} (hs : m.step p b w = some m') : m'.pc p = (m.pc p).next b := by
  have hmove : ∀ (n : Conditions O P) x, (n.move p x).pc p = x := fun n x =>
    Function.update_self ..
  have htake : ∀ o x, m.take o p x = some m' → m'.pc p = x := by
    intro o x ht
    obtain ⟨-, rfl⟩ := take_eq_some ht
    exact hmove m x
  unfold Conditions.step at hs
  split at hs
  all_goals
    rename_i hp
    rw [hp]
  · cases hs
  · exact htake _ _ hs
  · obtain rfl := Option.some.inj hs
    exact hmove m _
  · obtain rfl := Option.some.inj hs
    exact hmove m _
  · cases hs
  · exact htake _ _ hs
  · obtain rfl := Option.some.inj hs
    exact hmove m _
  · exact htake _ _ hs
  · obtain rfl := Option.some.inj hs
    exact hmove m _
  · obtain rfl := Option.some.inj hs
    exact hmove _ _
  · obtain rfl := Option.some.inj hs
    exact hmove m _

end

end conditions
