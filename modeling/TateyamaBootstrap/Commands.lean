-- Commands that write a log as they go and end in a value or in an exception.
-- What has been written before an exception stays written. A view of the log picks
-- the entries that a property is about, and the rules say what a command shows in it.
import Mathlib.Init

namespace tateyama_bootstrap

/-- An execution of a command: the entries it has written, and its value or the
exception that leaves it. -/
structure Command (E W α : Type) where
  log : List W
  result : Except E α

namespace Command

variable {E W V α β : Type}

instance : Monad (Command E W) where
  pure a := ⟨[], .ok a⟩
  bind x f :=
    match x.result with
    | .ok a => ⟨x.log ++ (f a).log, (f a).result⟩
    | .error e => ⟨x.log, .error e⟩

def write (w : W) : Command E W Unit := ⟨[w], .ok ()⟩

def raise (e : E) : Command E W α := ⟨[], .error e⟩

/-- The handler runs after what `x` has written, and raises again what it does not take. -/
def handle (x : Command E W α) (handler : E → Command E W α) : Command E W α :=
  match x.result with
  | .ok _ => x
  | .error e => ⟨x.log ++ (handler e).log, (handler e).result⟩

/-- A command as a part of one with more entries in its log. -/
def embed {W' : Type} (into : W → W') (x : Command E W α) : Command E W' α :=
  ⟨x.log.map into, x.result⟩

/-- The command shows the entries `vs` in the view, and ends so. -/
structure Ends (view : W → Option V) (x : Command E W α) (vs : List V) (r : Except E α) :
    Prop where
  log : x.log.filterMap view = vs
  result : x.result = r

variable {view : W → Option V} {x : Command E W α} {f : α → Command E W β}
variable {handler : E → Command E W α} {vs us : List V} {e : E} {a : α} {b : β} {w : W} {v : V}

theorem Ends.pure : Ends view (pure a : Command E W α) [] (.ok a) := ⟨rfl, rfl⟩

theorem Ends.raise : Ends view (raise e : Command E W α) [] (.error e) := ⟨rfl, rfl⟩

theorem Ends.write (h : view w = some v) : Ends view (write w : Command E W Unit) [v] (.ok ()) :=
  ⟨by simp [Command.write, h], rfl⟩

/-- An entry that the view leaves out. -/
theorem Ends.unseen (h : view w = none) :
    Ends view (Command.write w : Command E W Unit) [] (.ok ()) :=
  ⟨by simp [Command.write, h], rfl⟩

theorem Ends.bind {r : Except E β} (hx : Ends view x vs (.ok a)) (hf : Ends view (f a) us r) :
    Ends view (x >>= f) (vs ++ us) r := by
  obtain ⟨l, y⟩ := x
  obtain rfl : y = .ok a := hx.result
  refine ⟨?_, hf.result⟩
  change (l ++ (f a).log).filterMap view = vs ++ us
  rw [List.filterMap_append, hf.log]
  exact congrArg (· ++ us) hx.log

/-- A command that shows nothing before `f`. -/
theorem Ends.after {r : Except E β} (hx : Ends view x [] (.ok a)) (hf : Ends view (f a) us r) :
    Ends view (x >>= f) us r :=
  hx.bind hf

/-- A command that shows nothing after `x`. -/
theorem Ends.before {r : Except E β} (hx : Ends view x vs (.ok a)) (hf : Ends view (f a) [] r) :
    Ends view (x >>= f) vs r := by
  have h := hx.bind hf
  rwa [List.append_nil] at h

/-- An exception ends the rest of the command as well. -/
theorem Ends.stop (hx : Ends view x vs (.error e)) : Ends view (x >>= f) vs (.error e) := by
  obtain ⟨l, y⟩ := x
  obtain rfl : y = .error e := hx.result
  exact ⟨hx.log, rfl⟩

theorem Ends.handle_ok (hx : Ends view x vs (.ok a)) : Ends view (x.handle handler) vs (.ok a) := by
  obtain ⟨l, y⟩ := x
  obtain rfl : y = .ok a := hx.result
  exact ⟨hx.log, rfl⟩

theorem Ends.handle_error {r : Except E α} (hx : Ends view x vs (.error e))
    (hh : Ends view (handler e) us r) : Ends view (x.handle handler) (vs ++ us) r := by
  obtain ⟨l, y⟩ := x
  obtain rfl : y = .error e := hx.result
  refine ⟨?_, hh.result⟩
  change (l ++ (handler e).log).filterMap view = vs ++ us
  rw [List.filterMap_append, hh.log]
  exact congrArg (· ++ us) hx.log

theorem Ends.embed {W' : Type} {into : W → W'} {view' : W' → Option V} {r : Except E α}
    (hx : Ends view x vs r) (hv : ∀ w, view' (into w) = view w) :
    Ends view' (x.embed into) vs r := by
  refine ⟨?_, hx.result⟩
  have hcomp : view' ∘ into = view := funext hv
  change (x.log.map into).filterMap view' = vs
  rw [List.filterMap_map, hcomp, hx.log]

/-- A view of what a finer view shows. -/
theorem Ends.coarser {U : Type} {view' : W → Option U} {pick : V → Option U} {r : Except E α}
    (hx : Ends view x vs r) (hv : ∀ w, view' w = (view w).bind pick) :
    Ends view' x (vs.filterMap pick) r := by
  refine ⟨?_, hx.result⟩
  rw [← hx.log, List.filterMap_filterMap]
  exact congrArg (x.log.filterMap ·) (funext hv)

/-- The command shows nothing in the view and raises nothing. -/
def Quiet (view : W → Option V) (x : Command E W α) : Prop := ∃ a, Ends view x [] (.ok a)

theorem Quiet.pure : Quiet view (pure a : Command E W α) := ⟨a, Ends.pure⟩

theorem Quiet.unseen (h : view w = none) : Quiet view (Command.write w : Command E W Unit) :=
  ⟨(), Ends.unseen h⟩

theorem Quiet.bind (hx : Quiet view x) (hf : ∀ a, Quiet view (f a)) : Quiet view (x >>= f) := by
  obtain ⟨a, ha⟩ := hx
  obtain ⟨b, hb⟩ := hf a
  exact ⟨b, ha.after hb⟩

/-- The command shows nothing in the view, however it ends. -/
def Blank (view : W → Option V) (x : Command E W α) : Prop := x.log.filterMap view = []

theorem Quiet.blank (h : Quiet view x) : Blank view x := by
  obtain ⟨a, ha⟩ := h
  exact ha.log

theorem Blank.raise : Blank view (Command.raise e : Command E W α) := rfl

theorem Blank.bind (hx : Blank view x) (hf : ∀ a, Blank view (f a)) : Blank view (x >>= f) := by
  obtain ⟨l, r⟩ := x
  cases r with
  | ok a =>
    change (l ++ (f a).log).filterMap view = []
    rw [List.filterMap_append, hf a]
    exact congrArg (· ++ []) hx
  | error e => exact hx

theorem Blank.handle (hx : Blank view x) (hh : ∀ e, Blank view (handler e)) :
    Blank view (x.handle handler) := by
  obtain ⟨l, r⟩ := x
  cases r with
  | ok a => exact hx
  | error e =>
    change (l ++ (handler e).log).filterMap view = []
    rw [List.filterMap_append, hh e]
    exact congrArg (· ++ []) hx

/-- None of the entries of the part shows. -/
theorem Blank.embed {W' : Type} {into : W → W'} {view' : W' → Option V}
    (hv : ∀ w, view' (into w) = none) : Blank view' (x.embed into) := by
  have hcomp : view' ∘ into = fun _ => none := funext hv
  change (x.log.map into).filterMap view' = []
  rw [List.filterMap_map, hcomp]
  exact List.filterMap_eq_nil_iff.mpr fun _ _ => rfl

/-- Only such exceptions leave the command. -/
def Raises (p : E → Prop) (x : Command E W α) : Prop := ∀ e, x.result = .error e → p e

theorem Quiet.raises {p : E → Prop} (h : Quiet view x) : Raises p x := by
  obtain ⟨a, ha⟩ := h
  intro e he
  rw [ha.result] at he
  cases he

theorem Raises.pure {p : E → Prop} : Raises p (pure a : Command E W α) := nofun

theorem Raises.write {p : E → Prop} : Raises p (Command.write w : Command E W Unit) := nofun

theorem Raises.raise {p : E → Prop} (h : p e) : Raises p (Command.raise e : Command E W α) := by
  intro e' he
  cases he
  exact h

theorem Raises.bind {p : E → Prop} (hx : Raises p x) (hf : ∀ a, Raises p (f a)) :
    Raises p (x >>= f) := by
  obtain ⟨l, r⟩ := x
  cases r with
  | ok a => exact hf a
  | error e =>
    intro e' he
    cases he
    exact hx e rfl

/-- The handler takes whatever `x` raises. -/
theorem Raises.handle {p q : E → Prop} (hx : Raises p x) (hh : ∀ e, p e → Raises q (handler e)) :
    Raises q (x.handle handler) := by
  obtain ⟨l, r⟩ := x
  cases r with
  | ok a => exact nofun
  | error e => exact hh e (hx e rfl)

/-- No exception leaves the command. -/
def Returns (x : Command E W α) : Prop := ∃ a, x.result = .ok a

theorem Returns.pure : Returns (pure a : Command E W α) := ⟨a, rfl⟩

theorem returns_of_raises (h : Raises (fun _ => False) x) : Returns x := by
  cases hr : x.result with
  | ok a => exact ⟨a, hr⟩
  | error e => exact (h e hr).elim

theorem returns_bind : Returns (x >>= f) ↔ ∃ a, x.result = .ok a ∧ Returns (f a) := by
  obtain ⟨l, r⟩ := x
  cases r with
  | ok a =>
    constructor
    · exact fun h => ⟨a, rfl, h⟩
    · rintro ⟨a', ha, h⟩
      cases ha
      exact h
  | error e =>
    constructor
    · rintro ⟨b, hb⟩
      cases hb
    · rintro ⟨a, ha, -⟩
      cases ha

theorem returns_handle :
    Returns (x.handle handler) ↔ ∀ e, x.result = .error e → Returns (handler e) := by
  obtain ⟨l, r⟩ := x
  cases r with
  | ok a => exact ⟨fun _ => nofun, fun _ => ⟨a, rfl⟩⟩
  | error e =>
    constructor
    · intro h e' he
      cases he
      exact h
    · exact fun h => h e rfl

/-- The view does not tell the commands apart. -/
structure Same (view : W → Option V) (x y : Command E W α) : Prop where
  log : x.log.filterMap view = y.log.filterMap view
  result : x.result = y.result

variable {y : Command E W α} {g : α → Command E W β}

theorem Ends.same_ends {r : Except E α} (hx : Ends view x vs r) (hy : Ends view y vs r) :
    Same view x y :=
  ⟨hx.log.trans hy.log.symm, hx.result.trans hy.result.symm⟩

theorem Ends.same (hx : Ends view x [] (.ok a)) : Same view (x >>= g) (g a) := by
  have h : Ends view (x >>= g) ((g a).log.filterMap view) (g a).result := hx.after ⟨rfl, rfl⟩
  exact ⟨h.log, h.result⟩

theorem Same.bind (h : Same view x y) : Same view (x >>= g) (y >>= g) := by
  obtain ⟨l, r⟩ := x
  obtain ⟨l', r'⟩ := y
  obtain rfl : r = r' := h.result
  cases r with
  | ok a =>
    refine ⟨?_, rfl⟩
    change (l ++ (g a).log).filterMap view = (l' ++ (g a).log).filterMap view
    rw [List.filterMap_append, List.filterMap_append]
    exact congrArg (· ++ _) h.log
  | error e => exact ⟨h.log, rfl⟩

theorem Same.then {f g : α → Command E W β} (h : ∀ a, Same view (f a) (g a)) :
    Same view (x >>= f) (x >>= g) := by
  obtain ⟨l, r⟩ := x
  cases r with
  | ok a =>
    refine ⟨?_, (h a).result⟩
    change (l ++ (f a).log).filterMap view = (l ++ (g a).log).filterMap view
    rw [List.filterMap_append, List.filterMap_append, (h a).log]
  | error e => exact ⟨rfl, rfl⟩

theorem Same.handle (h : Same view x y) : Same view (x.handle handler) (y.handle handler) := by
  obtain ⟨l, r⟩ := x
  obtain ⟨l', r'⟩ := y
  obtain rfl : r = r' := h.result
  cases r with
  | ok a => exact ⟨h.log, rfl⟩
  | error e =>
    refine ⟨?_, rfl⟩
    change (l ++ (handler e).log).filterMap view = (l' ++ (handler e).log).filterMap view
    rw [List.filterMap_append, List.filterMap_append]
    exact congrArg (· ++ _) h.log

/-! ## Order in the log -/

/-- Every entry with `p` stands after one with `q`. -/
def Follows (q p : W → Prop) (l : List W) : Prop :=
  ∀ before w after, l = before ++ w :: after → p w → ∃ v ∈ before, q v

section

variable {p q : W → Prop} {l l' : List W}

theorem follows_append :
    Follows q p (l ++ l') ↔ Follows q p l ∧ ((∃ v ∈ l, q v) ∨ Follows q p l') := by
  constructor
  · intro h
    constructor
    · intro before w after hl hw
      exact h before w (after ++ l') (by simp [hl]) hw
    · by_cases hq : ∃ v ∈ l, q v
      · exact .inl hq
      · refine .inr fun before w after hl hw => ?_
        obtain ⟨v, hv, hqv⟩ := h (l ++ before) w after (by simp [hl]) hw
        rcases List.mem_append.mp hv with hv | hv
        · exact absurd ⟨v, hv, hqv⟩ hq
        · exact ⟨v, hv, hqv⟩
  · rintro ⟨hl, hl'⟩ before w after heq hw
    rcases List.append_eq_append_iff.mp heq with ⟨mid, rfl, hmid⟩ | ⟨mid, rfl, hmid⟩
    · rcases hl' with ⟨v, hv, hqv⟩ | hl'
      · exact ⟨v, List.mem_append_left _ hv, hqv⟩
      · obtain ⟨v, hv, hqv⟩ := hl' mid w after hmid hw
        exact ⟨v, List.mem_append_right _ hv, hqv⟩
    · cases mid with
      | nil =>
        rcases hl' with ⟨v, hv, hqv⟩ | hl'
        · exact ⟨v, by simpa using hv, hqv⟩
        · obtain ⟨v, hv, -⟩ := hl' [] w after (by simpa using hmid.symm) hw
          cases hv
      | cons w' mid =>
        cases hmid
        exact hl before _ mid rfl hw

/-- A log without such entries. -/
theorem follows_of_none (h : ∀ w ∈ l, ¬ p w) : Follows q p l := by
  rintro before w after rfl hw
  exact absurd hw (h w (by simp))

theorem follows_cons (w : W) :
    Follows q p (w :: l) ↔ ¬ p w ∧ (q w ∨ Follows q p l) := by
  have hone : Follows q p [w] ↔ ¬ p w := by
    constructor
    · intro h hw
      obtain ⟨v, hv, -⟩ := h [] w [] rfl hw
      cases hv
    · intro hw
      exact follows_of_none (by simpa using hw)
  have h : Follows q p ([w] ++ l) ↔ Follows q p [w] ∧ ((∃ v ∈ [w], q v) ∨ Follows q p l) :=
    follows_append
  rw [hone] at h
  simpa using h

end

theorem log_bind (h : x.result = .ok a) : (x >>= f).log = x.log ++ (f a).log := by
  obtain ⟨l, r⟩ := x
  obtain rfl : r = .ok a := h
  rfl

/-- What a command has written stays in front. -/
theorem log_bind_append (x : Command E W α) (f : α → Command E W β) :
    ∃ l, (x >>= f).log = x.log ++ l ∧ (l = [] ∨ ∃ a, l = (f a).log) := by
  obtain ⟨l, r⟩ := x
  cases r with
  | ok a => exact ⟨(f a).log, rfl, .inr ⟨a, rfl⟩⟩
  | error e => exact ⟨[], (List.append_nil l).symm, .inl rfl⟩

theorem log_handle_append (x : Command E W α) (handler : E → Command E W α) :
    ∃ l, (x.handle handler).log = x.log ++ l ∧ (l = [] ∨ ∃ e, l = (handler e).log) := by
  obtain ⟨l, r⟩ := x
  cases r with
  | ok a => exact ⟨[], (List.append_nil l).symm, .inl rfl⟩
  | error e => exact ⟨(handler e).log, rfl, .inr ⟨e, rfl⟩⟩

end Command

/-! ## Loops that wait -/

/-- One of the `n` rounds from the `i`-th on shows what a loop waits for. -/
def Within (p : Nat → Prop) (n i : Nat) : Prop := ∃ k, i ≤ k ∧ k < i + n ∧ p k

variable {p : Nat → Prop} {n i : Nat}

theorem not_within_zero : ¬ Within p 0 i := by
  rintro ⟨k, hik, hki, -⟩
  omega

theorem within_now (h : p i) : Within p (n + 1) i := ⟨i, Nat.le_refl _, by omega, h⟩

theorem within_next (h : ¬ p i) : Within p (n + 1) i ↔ Within p n (i + 1) := by
  constructor
  · rintro ⟨k, hik, hki, hk⟩
    have hne : i ≠ k := fun hi => h (hi ▸ hk)
    exact ⟨k, by omega, by omega, hk⟩
  · rintro ⟨k, hik, hki, hk⟩
    exact ⟨k, by omega, by omega, hk⟩

/-- Each of the `n` rounds from the `i`-th on goes well. -/
def Every (p : Nat → Prop) (n i : Nat) : Prop := ∀ k, i ≤ k → k < i + n → p k

theorem every_zero : Every p 0 i := by
  intro k hik hki
  omega

theorem every_succ : Every p (n + 1) i ↔ p i ∧ Every p n (i + 1) := by
  constructor
  · intro h
    refine ⟨h i (Nat.le_refl _) (by omega), ?_⟩
    intro k hik hki
    exact h k (by omega) (by omega)
  · rintro ⟨hi, h⟩ k hik hki
    rcases Nat.eq_or_lt_of_le hik with rfl | hlt
    · exact hi
    · exact h k hlt (by omega)

end tateyama_bootstrap
