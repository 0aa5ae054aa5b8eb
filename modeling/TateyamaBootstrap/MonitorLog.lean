-- The file that a command writes when `--monitor` is given (monitor/monitor.cpp): a
-- start record, what the command has to tell, and a finish record. The constructor
-- truncates the file, so that it holds the records of one command.
import TateyamaBootstrap.Commands
import TateyamaBootstrap.Errors

namespace tateyama_bootstrap

/-- `tgctl::return_code`. -/
inductive ReturnCode
  | ok
  | err
deriving DecidableEq, Repr

namespace monitor_output

/-- `monitor::status`. -/
inductive Status
  | stop
  | ready
  | activated
  | deactivating
  | deactivated
  | boot_error
  | unknown
deriving DecidableEq, Repr

/-- A line of the file, less its time stamp. A finish record says `success`, or
`failure` with the reason. The ratio of a progress is kept as its two numbers. -/
inductive Record
  | start
  | progress (completed total : Nat)
  | status (stat : Status)
  | success
  | failure (reason : Reason)
deriving DecidableEq, Repr

/-- `monitor::finish`. -/
def Record.finish (rc : Reason) : Record := if rc = .absent then .success else .failure rc

/-- A record that stands between the start and the finish. -/
def Record.IsData : Record → Prop
  | .progress _ _ | .status _ => True
  | _ => False

def Record.isFinish : Record → Bool
  | .success | .failure _ => true
  | _ => false

/-- What a command does that a property is about, the records among it. -/
class Monitored (W : Type) where
  record : Record → W
  record? : W → Option Record
  record?_record (r : Record) : record? (record r) = some r

section

variable {W : Type} [Monitored W]

/-- The commands hold no monitor object, and write nothing, when `--monitor` is not given. -/
def tell (monitor_output : Bool) (r : Record) : Command Error W Unit :=
  if monitor_output then .write (Monitored.record r) else pure ()

def start (monitor_output : Bool) : Command Error W Unit := tell monitor_output .start

def progress (monitor_output : Bool) (completed total : Nat) : Command Error W Unit :=
  tell monitor_output (.progress completed total)

def status (monitor_output : Bool) (stat : Status) : Command Error W Unit :=
  tell monitor_output (.status stat)

def finish (monitor_output : Bool) (rc : Reason) : Command Error W Unit :=
  tell monitor_output (.finish rc)

def records {α : Type} (x : Command Error W α) : List Record := x.log.filterMap Monitored.record?

/-- The file has one start record, then data, and as its last record one finish record,
which says success exactly when the command returns `ok`. -/
def Truthful (x : Command Error W ReturnCode) : Prop :=
  ∃ data last rtnv, records x = .start :: data ++ [last] ∧
    (∀ r ∈ data, r.IsData) ∧ last.isFinish ∧ x.result = .ok rtnv ∧
    (last = .success ↔ rtnv = .ok)

/-- If a start record is written, so is one finish record, which says success exactly when
the command returns `ok`. -/
def Reported (x : Command Error W ReturnCode) : Prop :=
  .start ∈ records x → ∃ rtnv last, x.result = .ok rtnv ∧
    (records x).filter Record.isFinish = [last] ∧ (last = .success ↔ rtnv = .ok)

/-- The records that the command writes and how it ends. -/
abbrev Ends {α : Type} (x : Command Error W α) (rs : List Record) (r : Except Error α) : Prop :=
  Command.Ends Monitored.record? x rs r

end

/-- How a part of a command goes on: the command returns there, or reaches the common
end with these values of `rtnv` and `reason`. -/
inductive Flow
  | returns (rtnv : ReturnCode)
  | goes_on (rtnv : ReturnCode) (reason : Reason)
deriving DecidableEq, Repr

def Flow.rtnv : Flow → ReturnCode
  | .returns rtnv => rtnv
  | .goes_on rtnv _ => rtnv

section

variable {W α : Type} [Monitored W]

/-- The common end. -/
def Flow.close (monitor_output : Bool) : Flow → Command Error W ReturnCode
  | .returns rtnv => return rtnv
  | .goes_on rtnv reason => do
    finish monitor_output reason
    return rtnv

/-- A command around its middle part. -/
def framed (monitor_output : Bool) (x : Command Error W Flow) : Command Error W ReturnCode := do
  start monitor_output
  let flow ← x
  flow.close monitor_output

/-! ## How the commands end -/

open Command

theorem ends_tell (r : Record) : Ends (tell true r : Command Error W Unit) [r] (.ok ()) :=
  Ends.write (Monitored.record?_record r)

theorem ends_start : Ends (start true : Command Error W Unit) [.start] (.ok ()) := ends_tell _

theorem ends_finish (rc : Reason) :
    Ends (finish true rc : Command Error W Unit) [.finish rc] (.ok ()) := ends_tell _

theorem finish_eq_success {rc : Reason} : Record.finish rc = .success ↔ rc = .absent := by
  unfold Record.finish
  split <;> simp_all

theorem isFinish_finish (rc : Reason) : (Record.finish rc).isFinish := by
  unfold Record.finish
  split <;> rfl

/-- A view that leaves out the records. -/
theorem ends_unrecorded {V : Type} {view : W → Option V}
    (hv : ∀ r, view (Monitored.record r) = none) (m : Bool) (r : Record) :
    Command.Ends view (tell m r : Command Error W Unit) [] (.ok ()) := by
  cases m with
  | true => exact Ends.unseen (hv r)
  | false => exact Ends.pure

theorem framed_unrecorded {V : Type} {view : W → Option V}
    (hv : ∀ r, view (Monitored.record r) = none) (m : Bool) {x : Command Error W Flow}
    {vs : List V} {r : Except Error Flow} (h : Command.Ends view x vs r) :
    Command.Ends view (framed m x) vs (r.map Flow.rtnv) := by
  refine (ends_unrecorded hv m _).after ?_
  cases r with
  | error e => exact h.stop
  | ok flow =>
    refine h.before ?_
    cases flow with
    | returns rtnv => exact Ends.pure
    | goes_on rtnv reason => exact (ends_unrecorded hv m _).after Ends.pure

section

variable {x : Command Error W ReturnCode} {rtnv : ReturnCode}

/-- A command with data and a finish record is as truthful as its last record. -/
theorem truthful_iff {data : List Record} {rc : Reason}
    (h : Ends x (.start :: data ++ [.finish rc]) (.ok rtnv)) (hd : ∀ r ∈ data, r.IsData) :
    Truthful x ↔ (rc = .absent ↔ rtnv = .ok) := by
  constructor
  · rintro ⟨data', last, rtnv', hlog, -, -, hr, hlast⟩
    have hlog' := h.log.symm.trans hlog
    obtain rfl : Record.finish rc = last := by
      simpa using List.append_inj_right' hlog' rfl
    rw [h.result] at hr
    cases hr
    rw [← hlast]
    exact finish_eq_success.symm
  · intro hrc
    exact ⟨data, _, rtnv, h.log, hd, isFinish_finish rc, h.result, finish_eq_success.trans hrc⟩

theorem filter_isFinish {data : List Record} (hd : ∀ r ∈ data, r.IsData) :
    data.filter Record.isFinish = [] := by
  rw [List.filter_eq_nil_iff]
  intro r hr hfinish
  have := hd r hr
  cases r <;> simp_all [Record.IsData, Record.isFinish]

theorem reported_iff {data : List Record} {rc : Reason}
    (h : Ends x (.start :: data ++ [.finish rc]) (.ok rtnv)) (hd : ∀ r ∈ data, r.IsData) :
    Reported x ↔ (rc = .absent ↔ rtnv = .ok) := by
  have hlog : records x = .start :: data ++ [.finish rc] := h.log
  have hfilter : (records x).filter Record.isFinish = [.finish rc] := by
    have hstart : Record.start.isFinish = false := rfl
    rw [hlog, List.filter_append]
    simp [filter_isFinish hd, isFinish_finish, hstart]
  unfold Reported
  rw [hfilter, h.result, ← finish_eq_success, hlog]
  constructor
  · intro hx
    obtain ⟨rtnv', last, hr, hl, hlast⟩ := hx (by simp)
    cases hr
    cases hl
    exact hlast
  · intro hx _
    exact ⟨_, _, rfl, rfl, hx⟩

theorem reported_of_nil (h : records x = []) : Reported x := by
  intro hs
  rw [h] at hs
  cases hs

/-- The start record is there, and the command does not return. -/
theorem not_reported_of_error {rs : List Record} {e : Error}
    (h : Ends x (.start :: rs) (.error e)) : ¬ Reported x := by
  intro hx
  have hlog : records x = .start :: rs := h.log
  obtain ⟨rtnv, last, hr, -, -⟩ := hx (by simp [hlog])
  rw [h.result] at hr
  cases hr

/-- Only the records and the end of a command count. -/
theorem truthful_congr {y : Command Error W ReturnCode} (h : Same Monitored.record? x y) :
    Truthful x ↔ Truthful y := by
  unfold Truthful records
  rw [h.log, h.result]

theorem reported_congr {y : Command Error W ReturnCode} (h : Same Monitored.record? x y) :
    Reported x ↔ Reported y := by
  unfold Reported records
  rw [h.log, h.result]

theorem not_truthful_of_error {rs : List Record} {e : Error} (h : Ends x rs (.error e)) :
    ¬ Truthful x := by
  rintro ⟨_, _, _, -, -, -, hr, -⟩
  rw [h.result] at hr
  cases hr

/-- A failure that is told as a success. -/
theorem not_truthful_of_success (h : Ends x [.start, .success] (.ok .err)) : ¬ Truthful x := by
  have h' : Ends x (.start :: [] ++ [.finish .absent]) (.ok .err) := h
  rw [truthful_iff h' (by simp)]
  simp

/-- A start record alone. -/
theorem not_truthful_of_start {r : Except Error ReturnCode} (h : Ends x [.start] r) :
    ¬ Truthful x := by
  rintro ⟨data, last, _, hlog, -, -, -, -⟩
  have := congrArg List.length (h.log.symm.trans hlog)
  simp at this

end

/-! ## Between the start record and the common end -/

/-- The middle part returns with a finish record, or leaves it to the common end. -/
def Tells (x : Command Error W Flow) (rc : Reason) (rtnv : ReturnCode) : Prop :=
  ∃ data, (∀ r ∈ data, r.IsData) ∧
    (Ends x data (.ok (.goes_on rtnv rc)) ∨ Ends x (data ++ [.finish rc]) (.ok (.returns rtnv)))

variable {x : Command Error W Flow} {y : Command Error W α} {f : α → Command Error W Flow} {a : α}
variable {rc : Reason} {rtnv : ReturnCode}

/-- After a part that writes data only. -/
theorem Tells.after_data {data : List Record} (hd : ∀ r ∈ data, r.IsData)
    (hy : Ends y data (.ok a)) (h : Tells (f a) rc rtnv) : Tells (y >>= f) rc rtnv := by
  obtain ⟨data', hd', h⟩ := h
  refine ⟨data ++ data', ?_, ?_⟩
  · intro r hr
    exact (List.mem_append.mp hr).elim (hd r) (hd' r)
  · rw [List.append_assoc]
    exact h.imp hy.bind hy.bind

theorem Tells.after (hy : Ends y [] (.ok a)) (h : Tells (f a) rc rtnv) :
    Tells (y >>= f) rc rtnv :=
  h.after_data (by simp) hy

theorem Tells.handle {handler : Error → Command Error W Flow} (h : Tells x rc rtnv) :
    Tells (x.handle handler) rc rtnv := by
  obtain ⟨data, hd, h⟩ := h
  exact ⟨data, hd, h.imp Ends.handle_ok Ends.handle_ok⟩

/-- The handler leaves the finish record to the common end. -/
theorem tells_of_error {handler : Error → Command Error W Flow} {data : List Record} {e : Error}
    (hd : ∀ r ∈ data, r.IsData) (h : Ends x data (.error e))
    (hh : Ends (handler e) [] (.ok (.goes_on rtnv rc))) : Tells (x.handle handler) rc rtnv := by
  refine ⟨data, hd, .inl ?_⟩
  have := h.handle_error hh
  rwa [List.append_nil] at this

theorem tells_goes_on : Tells (pure (.goes_on rtnv rc) : Command Error W Flow) rc rtnv :=
  ⟨[], by simp, .inl Ends.pure⟩

theorem tells_returns :
    Tells (do finish true rc; pure (.returns rtnv) : Command Error W Flow) rc rtnv :=
  ⟨[], by simp, .inr ((ends_finish rc).bind Ends.pure)⟩

theorem Tells.framed (h : Tells x rc rtnv) : ∃ data, (∀ r ∈ data, r.IsData) ∧
    Ends (framed true x) (.start :: data ++ [.finish rc]) (.ok rtnv) := by
  obtain ⟨data, hd, h⟩ := h
  refine ⟨data, hd, ?_⟩
  rcases h with h | h
  · exact ends_start.bind (h.bind ((ends_finish rc).bind Ends.pure))
  · exact ends_start.bind (h.before Ends.pure)

theorem Tells.truthful_iff (h : Tells x rc rtnv) :
    Truthful (monitor_output.framed true x) ↔ (rc = .absent ↔ rtnv = .ok) := by
  obtain ⟨data, hd, h⟩ := h.framed
  exact monitor_output.truthful_iff h hd

theorem Tells.reported_iff (h : Tells x rc rtnv) :
    Reported (monitor_output.framed true x) ↔ (rc = .absent ↔ rtnv = .ok) := by
  obtain ⟨data, hd, h⟩ := h.framed
  exact monitor_output.reported_iff h hd

theorem framed_same {x' : Command Error W Flow} (h : Same Monitored.record? x x') :
    Same Monitored.record? (framed true x) (framed true x') :=
  Same.then fun _ => h.bind

/-- No handler has taken the exception. -/
theorem framed_of_error {e : Error} {rs : List Record} (h : Ends x rs (.error e)) :
    ¬ Truthful (framed true x) :=
  not_truthful_of_error (ends_start.bind h.stop)

/-- A return without a finish record. -/
theorem framed_of_returns (h : Ends x [] (.ok (.returns rtnv))) : ¬ Truthful (framed true x) :=
  not_truthful_of_start (ends_start.bind (h.bind Ends.pure))

/-- The reason that a part of a command gives agrees with what it returns. -/
def Agrees (x : Command Error W Flow) : Prop :=
  ∃ rc rtnv, Tells x rc rtnv ∧ (rc = .absent ↔ rtnv = .ok)

theorem Agrees.truthful (h : Agrees x) : Truthful (framed true x) := by
  obtain ⟨rc, rtnv, h, hagree⟩ := h
  exact h.truthful_iff.mpr hagree

theorem Agrees.reported (h : Agrees x) : Reported (framed true x) := by
  obtain ⟨rc, rtnv, h, hagree⟩ := h
  exact h.reported_iff.mpr hagree

theorem Agrees.handle {handler : Error → Command Error W Flow} (h : Agrees x) :
    Agrees (x.handle handler) := by
  obtain ⟨rc, rtnv, h, hagree⟩ := h
  exact ⟨rc, rtnv, h.handle, hagree⟩

theorem Agrees.after (hy : Quiet Monitored.record? y) (h : ∀ a, Agrees (f a)) :
    Agrees (y >>= f) := by
  obtain ⟨a, ha⟩ := hy
  obtain ⟨rc, rtnv, h, hagree⟩ := h a
  exact ⟨rc, rtnv, h.after ha, hagree⟩

theorem agrees_goes_on (h : rc ≠ .absent) :
    Agrees (pure (.goes_on .err rc) : Command Error W Flow) :=
  ⟨rc, .err, tells_goes_on, by simp [h]⟩

end

end monitor_output

end tateyama_bootstrap
