-- Runs of a step function. Several parties that share a state are one
-- function: it takes the state and the next action of some party, and gives
-- the next state, or none when that party cannot act. A run is a list of
-- actions, so a law over every run holds for every interleaving.
import Mathlib.Data.List.Basic

namespace runs

variable {σ α : Type}

/-! ## Runs by execution -/

/-- The state after all the actions, or none when one of them cannot be taken. -/
def exec (step : σ → α → Option σ) : σ → List α → Option σ
  | s, [] => some s
  | s, a :: as => (step s a).bind fun t => exec step t as

/-- The step function that takes only the actions that meet `c`. -/
def guarded (step : σ → α → Option σ) (c : σ → α → Bool) (s : σ) (a : α) : Option σ :=
  if c s a then step s a else none

theorem exec_cons {step : σ → α → Option σ} {s t : σ} {a : α} (h : step s a = some t)
    (as : List α) : exec step s (a :: as) = exec step t as := by
  rw [exec, h, Option.bind_some]

/-! ## Runs as a relation -/

/-- A run from `s` by the actions of the list, each of which meets `C` in the
state in which it is taken. -/
inductive RunOf (step : σ → α → Option σ) (C : σ → α → Prop) (s : σ) : List α → σ → Prop
  | nil : RunOf step C s [] s
  | snoc {as : List α} {t u : σ} {a : α} :
      RunOf step C s as t → C t a → step t a = some u → RunOf step C s (as ++ [a]) u

/-- Every action may be taken. -/
def Free (_ : σ) (_ : α) : Prop := True

variable {step : σ → α → Option σ} {C D : σ → α → Prop} {s t : σ} {as : List α}

/-- What holds at the start, and is kept by each step, holds after the run. -/
theorem RunOf.inv {I : σ → Prop} (hr : RunOf step C s as t) (h0 : I s)
    (hs : ∀ t a u, I t → C t a → step t a = some u → I u) : I t := by
  induction hr with
  | nil => exact h0
  | snoc _ hc ha ih => exact hs _ _ _ ih hc ha

/-- The same rule for a fact that may read the number of steps taken. -/
theorem RunOf.inv_length {I : Nat → σ → Prop} (hr : RunOf step C s as t) (h0 : I 0 s)
    (hs : ∀ k t a u, I k t → C t a → step t a = some u → I (k + 1) u) : I as.length t := by
  induction hr with
  | nil => exact h0
  | snoc _ hc ha ih =>
    rw [List.length_append, List.length_singleton]
    exact hs _ _ _ _ ih hc ha

theorem RunOf.mono (hr : RunOf step C s as t) (h : ∀ t a, C t a → D t a) :
    RunOf step D s as t := by
  induction hr with
  | nil => exact .nil
  | snoc _ hc ha ih => exact .snoc ih (h _ _ hc) ha

/-- Two tests of the actions allow the same runs when they agree on the steps that the runs
take. -/
theorem RunOf.congr {I : σ → Prop} (h0 : I s)
    (hs : ∀ t a u, I t → D t a → step t a = some u → I u)
    (h : ∀ t a u, I t → step t a = some u → (C t a ↔ D t a)) :
    RunOf step C s as t ↔ RunOf step D s as t := by
  constructor
  · intro hr
    have hrun : RunOf step D s as t ∧ I t := by
      induction hr with
      | nil => exact ⟨.nil, h0⟩
      | snoc _ hc ha ih =>
        have hd := (h _ _ _ ih.2 ha).mp hc
        exact ⟨.snoc ih.1 hd ha, hs _ _ _ ih.2 hd ha⟩
    exact hrun.1
  · intro hr
    have hrun : RunOf step C s as t ∧ I t := by
      induction hr with
      | nil => exact ⟨.nil, h0⟩
      | snoc _ hd ha ih => exact ⟨.snoc ih.1 ((h _ _ _ ih.2 ha).mpr hd) ha, hs _ _ _ ih.2 hd ha⟩
    exact hrun.1

/-- A part of the state that every step moves by a step of its own makes the same run. -/
theorem RunOf.map {τ : Type} {f : σ → τ} {step' : τ → α → Option τ} {D : τ → α → Prop}
    (hr : RunOf step C s as t)
    (h : ∀ t a u, C t a → step t a = some u → D (f t) a ∧ step' (f t) a = some (f u)) :
    RunOf step' D (f s) as (f t) := by
  induction hr with
  | nil => exact .nil
  | snoc _ hc ha ih =>
    obtain ⟨hd, ha'⟩ := h _ _ _ hc ha
    exact .snoc ih hd ha'

theorem RunOf.trans {u : σ} {bs : List α} (h1 : RunOf step C s as t)
    (h2 : RunOf step C t bs u) : RunOf step C s (as ++ bs) u := by
  induction h2 with
  | nil => simpa using h1
  | snoc _ hc ha ih =>
    rw [← List.append_assoc]
    exact .snoc ih hc ha

theorem RunOf.single {a : α} (hc : C s a) (ha : step s a = some t) :
    RunOf step C s [a] t := RunOf.snoc .nil hc ha

/-- What `exec` reaches through the guarded steps, a run reaches. The test `c`
may rely on a fact that the steps of the run keep. -/
theorem RunOf.of_exec_inv {I : σ → Prop} {c : σ → α → Bool} (h0 : I s)
    (hs : ∀ t a u, I t → c t a = true → step t a = some u → I u)
    (hc : ∀ t a, I t → c t a = true → C t a)
    (h : exec (guarded step c) s as = some t) : RunOf step C s as t := by
  induction as generalizing s with
  | nil => cases h; exact .nil
  | cons a as ih =>
    simp only [exec, guarded] at h
    split at h
    · rename_i hca
      cases ha : step s a with
      | none => simp [ha] at h
      | some u =>
        rw [ha] at h
        exact RunOf.trans (.single (hc s a h0 hca) ha) (ih (hs s a u h0 hca ha) h)
    · simp at h

/-- A check that is true of the state that the guarded steps reach is true at
the end of a run. -/
theorem RunOf.exists_of_exec_inv {I : σ → Prop} {c : σ → α → Bool} {p : σ → Bool} (h0 : I s)
    (hs : ∀ t a u, I t → c t a = true → step t a = some u → I u)
    (hc : ∀ t a, I t → c t a = true → C t a)
    (h : (exec (guarded step c) s as).any p = true) : ∃ t, RunOf step C s as t ∧ p t = true := by
  cases he : exec (guarded step c) s as with
  | none => simp [he] at h
  | some t => exact ⟨t, .of_exec_inv h0 hs hc he, by simpa [he] using h⟩

/-- The same for a test that needs no such fact. -/
theorem RunOf.exists_of_exec {c : σ → α → Bool} {p : σ → Bool}
    (hc : ∀ s a, c s a = true → C s a)
    (h : (exec (guarded step c) s as).any p = true) : ∃ t, RunOf step C s as t ∧ p t = true :=
  RunOf.exists_of_exec_inv (I := fun _ => True) trivial (fun _ _ _ _ _ _ => trivial)
    (fun s a _ => hc s a) h

/-- What `exec` reaches, a run reaches in which every action may be taken. -/
theorem RunOf.of_exec (h : exec step s as = some t) : RunOf step Free s as t := by
  have hg : guarded step (fun _ _ => true) = step := by
    funext s a
    rfl
  refine RunOf.of_exec_inv (I := fun _ => True) (c := fun _ _ => true) trivial
    (fun _ _ _ _ _ _ => trivial) (fun _ _ _ _ => trivial) ?_
  rw [hg]
  exact h

theorem RunOf.exists_free {p : σ → Bool} (h : (exec step s as).any p = true) :
    ∃ t, RunOf step Free s as t ∧ p t = true := by
  cases he : exec step s as with
  | none => simp [he] at h
  | some t => exact ⟨t, .of_exec he, by simpa [he] using h⟩

/-- The actions decide the run. -/
theorem RunOf.unique {u : σ} (h1 : RunOf step C s as t) (h2 : RunOf step D s as u) : t = u := by
  induction h1 generalizing u with
  | nil =>
    generalize has : ([] : List α) = as at h2
    cases h2 with
    | nil => rfl
    | snoc => simp at has
  | @snoc as t t' a _ _ ha ih =>
    generalize has : as ++ [a] = bs at h2
    cases h2 with
    | nil => simp at has
    | snoc h2 _ hb =>
      obtain ⟨rfl, hab⟩ := List.append_inj' has rfl
      cases hab
      rw [ih h2, hb] at ha
      exact (Option.some.inj ha).symm

/-- The last step of a run. -/
theorem RunOf.last {u : σ} {a : α} (h : RunOf step C s (as ++ [a]) u) :
    ∃ t, RunOf step C s as t ∧ C t a ∧ step t a = some u := by
  generalize has : as ++ [a] = bs at h
  cases h with
  | nil => simp at has
  | snoc h hc ha =>
    obtain ⟨rfl, hab⟩ := List.append_inj' has rfl
    cases hab
    exact ⟨_, h, hc, ha⟩

/-- Where `C` is what a step needs to keep the invariant `J`, and a step that does not meet `C`
breaks `P` at once, `P` holds in every state of a run exactly when every action of the run
meets `C`. The bound `B` on the last state holds in all states before it. -/
theorem RunOf.always_iff_within {B J P : σ → Prop} (hr : RunOf step Free s as t) (hb : B t)
    (hback : ∀ t a u, step t a = some u → B u → B t) (h0 : J s) (hp : ∀ t, J t → P t)
    (hkeep : ∀ t a u, J t → B u → step t a = some u → C t a → J u)
    (hbreak : ∀ t a u, J t → B u → step t a = some u → P u → C t a) :
    (∀ bs u, bs <+: as → RunOf step Free s bs u → P u) ↔ RunOf step C s as t := by
  have hinv : ∀ {bs : List α} {u : σ}, RunOf step C s bs u → B u → J u := by
    intro bs u hu
    refine hu.inv (I := fun u => B u → J u) (fun _ => h0) ?_
    intro t a u ih hc ha hbu
    exact hkeep t a u (ih (hback t a u ha hbu)) hbu ha hc
  induction hr with
  | nil =>
    refine iff_of_true ?_ .nil
    intro bs u hbs hu
    obtain rfl := List.prefix_nil.mp hbs
    exact hu.unique (.nil : RunOf step Free s [] s) ▸ hp s h0
  | @snoc as t u a hr _ ha ih =>
    have hbt : B t := hback t a u ha hb
    have hru : RunOf step Free s (as ++ [a]) u := .snoc hr trivial ha
    constructor
    · intro h
      have hrt : RunOf step C s as t :=
        (ih hbt).mp fun bs v hbs => h bs v (hbs.trans (List.prefix_append ..))
      have hpu : P u := h _ u (List.prefix_refl _) hru
      exact .snoc hrt (hbreak t a u (hinv hrt hbt) hb ha hpu) ha
    · intro h bs v hbs hv
      obtain ⟨t', ht', -, -⟩ := h.last
      obtain rfl := ht'.unique hr
      rcases List.prefix_concat_iff.mp hbs with rfl | hbs
      · obtain rfl := hv.unique hru
        exact hp v (hinv h hb)
      · exact (ih hbt).mpr ht' bs v hbs hv

/-- Where `C` is what a step needs to keep a fact, the fact holds in every state of a run
exactly when every action of the run meets `C`. -/
theorem RunOf.always_iff {I P : σ → Prop} (hr : RunOf step Free s as t) (hi : I s) (hp : P s)
    (hinv : ∀ t a u, I t → step t a = some u → I u)
    (hkeep : ∀ t a u, I t → P t → step t a = some u → (P u ↔ C t a)) :
    (∀ bs u, bs <+: as → RunOf step Free s bs u → P u) ↔ RunOf step C s as t := by
  refine hr.always_iff_within (B := fun _ => True) (J := fun t => I t ∧ P t) trivial
    (fun _ _ _ _ _ => trivial) ⟨hi, hp⟩ (fun _ h => h.2) ?_ ?_
  · intro t a u h _ ha hc
    exact ⟨hinv t a u h.1 ha, (hkeep t a u h.1 h.2 ha).mpr hc⟩
  · intro t a u h _ ha hu
    exact (hkeep t a u h.1 h.2 ha).mp hu

end runs
