-- What `session list` prints for each session, and which sessions it may mean where
-- `session show` and `session shutdown` take an id or a label (session/session.cpp,
-- tgctl/help_text.h).
import Mathlib.Data.List.Nodup
import Mathlib.Data.List.Perm.Subperm
import TateyamaBootstrap.ServiceOutput
import TateyamaBootstrap.TextLines

namespace tateyama_bootstrap.services

open monitor_output server_calls json Command

/-! ## Sessions and references -/

/-- The number behind the colon of a session id. -/
def number (e : SessionInfo) : Nat := digits_value (e.session_id.drop 1)

/-- The ids are a colon and a decimal number each, and no two are the same. -/
structure Numbered (entries : List SessionInfo) : Prop where
  id : ∀ e ∈ entries, ∃ n, e.session_id = 0x3a :: nat_text n
  distinct : (entries.map (·.session_id)).Nodup

/-- A `session-ref` is the id or the label of a session. -/
def Means (session_ref : Text) (e : SessionInfo) : Prop :=
  session_ref = e.session_id ∨ session_ref = e.label

def Earlier (e e' : SessionInfo) : Prop := number e < number e'

/-- A line has a reference to the session, and to no other, before its blank. -/
def RefersTo (entries : List SessionInfo) (line : Text) (e : SessionInfo) : Prop :=
  ∃ session_ref, line = session_ref ++ [0x20] ∧ Means session_ref e ∧
    ∀ e' ∈ entries, Means session_ref e' → e' = e

/-- There is one line for each session, in the order of the ids, and no two are the same. -/
def Unambiguous (entries : List SessionInfo) (text : Text) : Prop :=
  ∃ sorted : List SessionInfo, sorted.Perm entries ∧ sorted.Pairwise Earlier ∧
    (lines text).Nodup ∧ List.Forall₂ (RefersTo entries) (lines text) sorted

/-- The session is listed by its label. -/
def ShownByLabel (flags : Flags) (entries : List SessionInfo) (e : SessionInfo) : Prop :=
  e.label ≠ [] ∧ 0x20 ∉ e.label ∧ 0x09 ∉ e.label ∧ flags.id = false ∧
    (entries.map (·.label)).count e.label ≤ 1

instance (flags : Flags) (entries : List SessionInfo) (e : SessionInfo) :
    Decidable (ShownByLabel flags entries e) :=
  inferInstanceAs (Decidable (e.label ≠ [] ∧ 0x20 ∉ e.label ∧ 0x09 ∉ e.label ∧
    flags.id = false ∧ (entries.map (·.label)).count e.label ≤ 1))

/-- The numbers fit `long`, the labels that are shown have no end of line, and a session whose
label is another's id is listed by its own id, the other one by its label. -/
structure Referable (flags : Flags) (entries : List SessionInfo) : Prop where
  fits : ∀ e ∈ entries, number e < 2 ^ 63
  oneLine : ∀ e ∈ entries, ShownByLabel flags entries e → 0x0a ∉ e.label
  apart : ∀ e ∈ entries, ∀ e' ∈ entries, e ≠ e' → e.label = e'.session_id →
    ShownByLabel flags entries e' ∧ ¬ ShownByLabel flags entries e

/-! ## The numbers -/

theorem stol_nat_text (n : Nat) :
    stol (nat_text n) = if n < 2 ^ 63 then .ok (n : Int) else .error .out_of_range := by
  have hdigits : (nat_text n).takeWhile digit = nat_text n := by
    apply List.takeWhile_eq_self_iff.mpr
    intro b hb
    exact digit_of_mem_nat_text hb
  have hne := nat_text_ne_nil n
  have hvalue := digits_value_nat_text n
  have hsign : sign (nat_text n) = (false, nat_text n) := by
    rcases htext : nat_text n with _ | ⟨b, text⟩
    · exact absurd htext hne
    have hb : digit b = true := digit_of_mem_nat_text (by rw [htext]; simp)
    simp only [digit, Bool.and_eq_true, decide_eq_true_eq, UInt8.le_iff_toNat_le] at hb
    have hspace : isspace b = false := by
      simp only [isspace, Bool.or_eq_false_iff, Bool.and_eq_false_iff, decide_eq_false_iff_not,
        UInt8.le_iff_toNat_le]
      refine ⟨?_, Or.inr ?_⟩
      · rintro rfl
        exact absurd hb.1 (by decide)
      · intro hle
        have := Nat.le_trans hb.1 hle
        exact absurd this (by decide)
    unfold sign
    rw [List.dropWhile_cons_of_neg (by simp [hspace])]
    split
    · rename_i heq
      obtain rfl := (List.cons.inj heq).1
      exact absurd hb.1 (by decide)
    · rename_i heq
      obtain rfl := (List.cons.inj heq).1
      exact absurd hb.1 (by decide)
    · rfl
  unfold stol
  simp only [hsign, hdigits, hvalue]
  rw [if_neg (by simpa using hne)]
  simp only [Bool.false_eq_true, if_false]
  split <;> split
  · rfl
  · omega
  · omega
  · rfl

theorem number_eq {e : SessionInfo} {n : Nat} (h : e.session_id = 0x3a :: nat_text n) :
    number e = n := by
  unfold number
  rw [h]
  exact digits_value_nat_text n

/-- The id of a session is read as its number, when that fits. -/
theorem session_number_eq {e : SessionInfo} (h : ∃ n, e.session_id = 0x3a :: nat_text n) :
    session_number e = if number e < 2 ^ 63 then .ok (number e) else .error .out_of_range := by
  obtain ⟨n, hn⟩ := h
  have hsubstr : substr_1 e.session_id = .ok (nat_text n) := by
    rw [hn]
    rfl
  unfold session_number
  rw [hsubstr, number_eq hn]
  simp only [Bind.bind, Except.bind, stol_nat_text]
  by_cases hfits : n < 2 ^ 63
  · simp only [if_pos hfits]
    have hmod : ((n : Int) % 2 ^ 64).toNat = n := by omega
    exact congrArg Except.ok hmod
  · simp only [if_neg hfits]

theorem session_id_inj {e e' : SessionInfo} (h : ∃ n, e.session_id = 0x3a :: nat_text n)
    (h' : ∃ n, e'.session_id = 0x3a :: nat_text n) (heq : number e = number e') :
    e.session_id = e'.session_id := by
  obtain ⟨n, hn⟩ := h
  obtain ⟨n', hn'⟩ := h'
  rw [number_eq hn, number_eq hn'] at heq
  rw [hn, hn', heq]

/-! ## The loop -/

/-- A line for a number that is not there yet comes in its place. -/
theorem emplace_sorted (line : SessionInfo → Text) {e : SessionInfo} {sorted : List SessionInfo}
    (hsorted : sorted.Pairwise Earlier) (hnew : ∀ e' ∈ sorted, number e ≠ number e') :
    ∃ sorted' : List SessionInfo, sorted'.Perm (e :: sorted) ∧ sorted'.Pairwise Earlier ∧
      emplace (number e) (line e) (sorted.map fun e => (number e, line e)) =
        sorted'.map fun e => (number e, line e) := by
  induction sorted with
  | nil => exact ⟨[e], List.Perm.refl _, List.pairwise_singleton _ _, rfl⟩
  | cons first sorted ih =>
    obtain ⟨hfirst, hrest⟩ := List.pairwise_cons.mp hsorted
    have hne := hnew first (by simp)
    rcases Nat.lt_or_gt_of_ne hne with hlt | hgt
    · refine ⟨e :: first :: sorted, List.Perm.refl _, ?_, ?_⟩
      · apply List.pairwise_cons.mpr
        refine ⟨?_, hsorted⟩
        intro e' he'
        rcases List.mem_cons.mp he' with rfl | he'
        · exact hlt
        · exact Nat.lt_trans hlt (hfirst e' he')
      · rw [List.map_cons, emplace, if_pos hlt]
        rfl
    · obtain ⟨sorted', hperm, hpairs, hmap⟩ := ih hrest fun e' he' =>
        hnew e' (List.mem_cons_of_mem _ he')
      refine ⟨first :: sorted', ?_, ?_, ?_⟩
      · exact (hperm.cons first).trans (List.Perm.swap _ _ _)
      · apply List.pairwise_cons.mpr
        refine ⟨?_, hpairs⟩
        intro e' he'
        rcases List.mem_cons.mp (hperm.mem_iff.mp he') with rfl | he'
        · exact hgt
        · exact hfirst e' he'
      · rw [List.map_cons, emplace, if_neg (by omega), if_neg hne, hmap]
        rfl

section

variable (flags : Flags) (m : Bool) (env : Env) (entries : List SessionInfo)

/-- The loop over sessions whose numbers fit gives their lines in the order of the numbers. -/
theorem list_sessions_sorted {rest sorted : List SessionInfo}
    (hnumber : ∀ e ∈ rest, session_number e = .ok (number e))
    (hsorted : sorted.Pairwise Earlier) (hdistinct : ((rest ++ sorted).map number).Nodup) :
    ∃ sorted' : List SessionInfo, sorted'.Perm (rest ++ sorted) ∧ sorted'.Pairwise Earlier ∧
      Command.Ends out?
        (list_sessions flags m env entries rest
          (sorted.map fun e => (number e, session_line flags env entries e))) []
        (.ok (sorted'.map fun e => (number e, session_line flags env entries e))) := by
  induction rest generalizing sorted with
  | nil => exact ⟨sorted, List.Perm.refl _, hsorted, Ends.pure⟩
  | cons e rest ih =>
    simp only [List.cons_append, List.map_cons, List.nodup_cons] at hdistinct
    have hnew : ∀ e' ∈ sorted, number e ≠ number e' := by
      intro e' he' heq
      apply hdistinct.1
      rw [heq]
      exact List.mem_map_of_mem (List.mem_append_right _ he')
    obtain ⟨next, hperm, hpairs, hmap⟩ :=
      emplace_sorted (session_line flags env entries) hsorted hnew
    have hmiddle : (rest ++ next).Perm (e :: (rest ++ sorted)) :=
      (hperm.append_left rest).trans List.perm_middle
    have hdistinct' : ((rest ++ next).map number).Nodup := by
      rw [(hmiddle.map number).nodup_iff, List.map_cons, List.nodup_cons]
      exact hdistinct
    obtain ⟨sorted', hperm', hpairs', hends⟩ :=
      ih (fun e' he' => hnumber e' (List.mem_cons_of_mem _ he')) hpairs hdistinct'
    refine ⟨sorted', hperm'.trans hmiddle, hpairs', ?_⟩
    unfold list_sessions
    rw [hnumber e (by simp)]
    refine Ends.pure.after ((ends_data_text m _).after ?_)
    rw [hmap]
    exact hends

/-- A number that does not fit ends the loop. -/
theorem list_sessions_out_of_range {rest : List SessionInfo} (output : List (Nat × Text))
    (hnumber : ∀ e ∈ rest, session_number e =
      if number e < 2 ^ 63 then .ok (number e) else .error .out_of_range)
    (hbad : ∃ e ∈ rest, ¬ number e < 2 ^ 63) :
    Command.Ends out? (list_sessions flags m env entries rest output) []
      (.error .out_of_range) := by
  induction rest generalizing output with
  | nil => simp at hbad
  | cons e rest ih =>
    unfold list_sessions
    rw [hnumber e (by simp)]
    by_cases hfits : number e < 2 ^ 63
    · rw [if_pos hfits]
      refine Ends.pure.after ((ends_data_text m _).after ?_)
      apply ih
      · exact fun e' he' => hnumber e' (List.mem_cons_of_mem _ he')
      · obtain ⟨e', he', hnot⟩ := hbad
        rcases List.mem_cons.mp he' with rfl | he'
        · exact absurd hfits hnot
        · exact ⟨e', he', hnot⟩
    · rw [if_neg hfits]
      exact Ends.stop Ends.raise

end

/-! ## What the list prints -/

section

variable {flags : Flags} {env : Env} {entries : List SessionInfo} {e : SessionInfo}

theorem session_reference_label (h : ShownByLabel flags entries e) :
    session_reference flags entries e = e.label := by
  obtain ⟨hempty, hblank, htab, hid, hcount⟩ := h
  have hlabels : ((entries.map (·.label)).filter fun label => !label.isEmpty).count e.label =
      (entries.map (·.label)).count e.label := List.count_filter (by simpa using hempty)
  unfold session_reference
  simp only [hlabels]
  rw [if_neg]
  simp [hempty, hblank, htab, hid, hcount]

theorem session_reference_id (h : ¬ ShownByLabel flags entries e) :
    session_reference flags entries e = e.session_id := by
  unfold session_reference
  simp only []
  rw [if_pos]
  by_contra hno
  apply h
  simp only [Bool.or_eq_true, List.isEmpty_iff, List.contains_eq_mem, decide_eq_true_eq,
    not_or] at hno
  obtain ⟨⟨⟨⟨hempty, hblank⟩, htab⟩, hid⟩, hcount⟩ := hno
  have hlabels : ((entries.map (·.label)).filter fun label => !label.isEmpty).count e.label =
      (entries.map (·.label)).count e.label := List.count_filter (by simpa using hempty)
  rw [hlabels] at hcount
  exact ⟨hempty, hblank, htab, by simpa using hid, by omega⟩

theorem means_reference : Means (session_reference flags entries e) e := by
  by_cases h : ShownByLabel flags entries e
  · exact Or.inr (session_reference_label h)
  · exact Or.inl (session_reference_id h)

theorem Numbered.numbers (h : Numbered entries) : (entries.map number).Nodup := by
  have hmap : entries.map number =
      (entries.map (·.session_id)).map fun id => digits_value (id.drop 1) := by
    rw [List.map_map]
    rfl
  rw [hmap]
  refine h.distinct.map_on ?_
  intro id hid id' hid' heq
  obtain ⟨e, he, rfl⟩ := List.mem_map.mp hid
  obtain ⟨e', he', rfl⟩ := List.mem_map.mp hid'
  exact session_id_inj (h.id e he) (h.id e' he') heq

variable (hverbose : flags.verbose = false) (hids : Numbered entries)
variable (ho : outcome env.connect env.session_list (.ok .session_list) =
  .ok (some (.success entries)))

include hverbose hids ho

/-- One line for each session. -/
theorem session_list_prints (hfits : ∀ e ∈ entries, number e < 2 ^ 63) :
    ∃ sorted : List SessionInfo, sorted.Perm entries ∧ sorted.Pairwise Earlier ∧
      stdout (session_list flags env) =
        sorted.flatMap fun e => (session_reference flags entries e ++ [0x20]) ++ ascii "\n" := by
  have hnumber : ∀ e ∈ entries, session_number e = .ok (number e) := by
    intro e he
    rw [session_number_eq (hids.id e he), if_pos (hfits e he)]
  have hdistinct : ((entries ++ []).map number).Nodup := by
    rw [List.append_nil]
    exact hids.numbers
  obtain ⟨sorted, hperm, hsorted, hends⟩ := list_sessions_sorted flags
    (!flags.monitor.isEmpty) env entries hnumber List.Pairwise.nil hdistinct
  rw [List.append_nil] at hperm
  refine ⟨sorted, hperm, hsorted, ?_⟩
  have hline (e : SessionInfo) : session_line flags env entries e =
      session_reference flags entries e ++ [0x20] := by
    unfold session_line
    rw [hverbose]
    rfl
  have htitle : Command.Ends out? (out_if flags.verbose (verbose_title env entries)) []
      (.ok ()) := by
    rw [hverbose]
    exact Ends.pure
  unfold session_list
  refine (stdout_answered _ ho (htitle.after (hends.after
    ((ends_out_text _).before (ends_succeeds_text _))))).trans ?_
  simp only [List.flatten_singleton, List.flatMap_map, hline]

/-- A number that does not fit leaves the command as an exception. -/
theorem session_list_prints_nothing (hbad : ∃ e ∈ entries, ¬ number e < 2 ^ 63) :
    stdout (session_list flags env) = [] := by
  have hends := list_sessions_out_of_range flags (!flags.monitor.isEmpty) env entries []
    (fun e he => session_number_eq (hids.id e he)) hbad
  have htitle : Command.Ends out? (out_if flags.verbose (verbose_title env entries)) []
      (.ok ()) := by
    rw [hverbose]
    exact Ends.pure
  unfold session_list
  refine (stdout_raised _ .out_of_range ho ?_ ?_).trans List.flatten_nil
  · exact htitle.after hends.stop
  · rfl

end

/-! ## Which sessions a reference may mean -/

section

variable {flags : Flags} {entries : List SessionInfo}

/-- Two sessions with one label are two in the count. -/
theorem two_le_count {e e' : SessionInfo} (he : e ∈ entries) (he' : e' ∈ entries) (hne : e ≠ e')
    (hlabel : e.label = e'.label) : 2 ≤ (entries.map (·.label)).count e.label := by
  have hnodup : [e, e'].Nodup := by simpa using hne
  have hsubset : [e, e'] ⊆ entries := by
    intro x hx
    simp only [List.mem_cons, List.not_mem_nil, or_false] at hx
    rcases hx with rfl | rfl
    · exact he
    · exact he'
  obtain ⟨l, hperm, hsublist⟩ := List.subperm_of_subset hnodup hsubset
  have hle := (hsublist.map (·.label)).count_le e.label
  rw [(hperm.map (·.label)).count_eq] at hle
  simpa [hlabel] using hle

/-- The references mean one session each exactly when no label is taken for an id. -/
theorem references_apart_iff (hids : Numbered entries) :
    (∀ e ∈ entries, ∀ e' ∈ entries, Means (session_reference flags entries e) e' → e' = e) ↔
      ∀ e ∈ entries, ∀ e' ∈ entries, e ≠ e' → e.label = e'.session_id →
        ShownByLabel flags entries e' ∧ ¬ ShownByLabel flags entries e := by
  constructor
  · intro h e he e' he' hne hlabel
    constructor
    · by_contra hshown
      refine hne (h e' he' e he (Or.inr ?_))
      rw [session_reference_id hshown, hlabel]
    · intro hshown
      refine hne (h e he e' he' (Or.inl ?_)).symm
      rw [session_reference_label hshown, hlabel]
  · intro h e he e' he' hmeans
    by_contra hne
    by_cases hshown : ShownByLabel flags entries e
    · unfold Means at hmeans
      rw [session_reference_label hshown] at hmeans
      rcases hmeans with hid | hlabel
      · exact (h e he e' he' (Ne.symm hne) hid).2 hshown
      · have hcount := two_le_count he he' (Ne.symm hne) hlabel
        have hone := hshown.2.2.2.2
        omega
    · unfold Means at hmeans
      rw [session_reference_id hshown] at hmeans
      rcases hmeans with hid | hlabel
      · exact hne (List.inj_on_of_nodup_map hids.distinct he' he hid.symm)
      · exact hshown (h e' he' e he hne hlabel.symm).1

theorem not_mem_session_id {e : SessionInfo} (h : ∃ n, e.session_id = 0x3a :: nat_text n) :
    0x0a ∉ e.session_id := by
  obtain ⟨n, hn⟩ := h
  rw [hn]
  intro hmem
  rcases List.mem_cons.mp hmem with hcolon | hdigit
  · exact absurd hcolon (by decide)
  · exact absurd (digit_of_mem_nat_text hdigit) (by decide)

/-- The references stand on one line each exactly when the labels that are shown do. -/
theorem one_line_iff (hids : Numbered entries) :
    (∀ e ∈ entries, 0x0a ∉ session_reference flags entries e) ↔
      ∀ e ∈ entries, ShownByLabel flags entries e → 0x0a ∉ e.label := by
  constructor
  · intro h e he hshown
    rw [← session_reference_label hshown]
    exact h e he
  · intro h e he
    by_cases hshown : ShownByLabel flags entries e
    · rw [session_reference_label hshown]
      exact h e he hshown
    · rw [session_reference_id hshown]
      exact not_mem_session_id (hids.id e he)

theorem lines_references {sorted : List SessionInfo}
    (h : ∀ e ∈ entries, 0x0a ∉ session_reference flags entries e) (hperm : sorted.Perm entries) :
    lines (sorted.flatMap fun e =>
        (session_reference flags entries e ++ [0x20]) ++ ascii "\n") =
      sorted.map fun e => session_reference flags entries e ++ [0x20] := by
  apply lines_flatMap_of
  intro e he hmem
  rcases List.mem_append.mp hmem with hmem | hmem
  · exact h e (hperm.mem_iff.mp he) hmem
  · exact absurd (List.mem_singleton.mp hmem) (by decide)

end

/-- A line that stands for a session ends in a blank. -/
theorem blank_mem_of_lines {entries sorted : List SessionInfo} {ls : List Text} {line : Text}
    (h : List.Forall₂ (RefersTo entries) ls sorted) (hline : line ∈ ls) : 0x20 ∈ line := by
  induction h with
  | nil => simp at hline
  | cons hfirst hrest ih =>
    rcases List.mem_cons.mp hline with rfl | hline
    · obtain ⟨session_ref, rfl, -⟩ := hfirst
      simp
    · exact ih hline

/-- A label with an end of line in it would leave a line without a blank. -/
theorem one_line_of_lines {flags : Flags} {entries sorted : List SessionInfo}
    (hids : Numbered entries) (hperm : sorted.Perm entries)
    (h : List.Forall₂ (RefersTo entries) (lines (sorted.flatMap fun e =>
      (session_reference flags entries e ++ [0x20]) ++ ascii "\n")) sorted) :
    ∀ e ∈ entries, 0x0a ∉ session_reference flags entries e := by
  rw [one_line_iff hids]
  intro e he hshown hmem
  obtain ⟨line, hline, hbytes⟩ := mem_lines_of_mem hmem ([0x20] ++ [0x0a])
  have hin : line ∈ lines (sorted.flatMap fun e =>
      (session_reference flags entries e ++ [0x20]) ++ ascii "\n") := by
    rw [lines_flatMap]
    refine List.mem_flatMap.mpr ⟨e, hperm.mem_iff.mpr he, ?_⟩
    rw [session_reference_label hshown, List.append_assoc]
    exact hline
  exact hshown.2.1 (hbytes _ (blank_mem_of_lines h hin))

theorem sorted_unique {sorted sorted' : List SessionInfo} (h : sorted.Pairwise Earlier)
    (h' : sorted'.Pairwise Earlier) (hperm : sorted.Perm sorted') : sorted = sorted' := by
  apply hperm.eq_of_pairwise _ h h'
  intro e e' _ _ hlt hgt
  exact absurd (Nat.lt_trans hlt hgt) (Nat.lt_irrefl _)

/-- The list is unambiguous exactly when the sessions can be referred to so. -/
theorem session_list_unambiguous_iff (flags : Flags) (env : Env) (entries : List SessionInfo)
    (hverbose : flags.verbose = false) (hids : Numbered entries)
    (ho : outcome env.connect env.session_list (.ok .session_list) =
      .ok (some (.success entries))) :
    Unambiguous entries (stdout (session_list flags env)) ↔ Referable flags entries := by
  constructor
  · rintro ⟨sorted, hperm, hsorted, -, hlines⟩
    have hfits : ∀ e ∈ entries, number e < 2 ^ 63 := by
      intro e he
      by_contra hbad
      rw [session_list_prints_nothing hverbose hids ho ⟨e, he, hbad⟩] at hlines
      cases hlines
      exact absurd (hperm.mem_iff.mpr he) (by simp)
    obtain ⟨sorted', hperm', hsorted', hout⟩ := session_list_prints hverbose hids ho hfits
    obtain rfl := sorted_unique hsorted hsorted' (hperm.trans hperm'.symm)
    rw [hout] at hlines
    have hone := one_line_of_lines hids hperm hlines
    rw [lines_references hone hperm, List.forall₂_map_left_iff, List.forall₂_same] at hlines
    refine ⟨hfits, (one_line_iff hids).mp hone, ?_⟩
    rw [← references_apart_iff hids]
    intro e he e' he' hmeans
    obtain ⟨session_ref, heq, -, honly⟩ := hlines e (hperm.mem_iff.mpr he)
    obtain rfl := List.append_cancel_right heq
    exact honly e' he' hmeans
  · rintro ⟨hfits, hone, hapart⟩
    rw [← one_line_iff hids] at hone
    rw [← references_apart_iff hids] at hapart
    obtain ⟨sorted, hperm, hsorted, hout⟩ := session_list_prints hverbose hids ho hfits
    refine ⟨sorted, hperm, hsorted, ?_, ?_⟩
    · rw [hout, lines_references hone hperm]
      refine List.Nodup.map_on ?_ (hperm.nodup_iff.mpr hids.distinct.of_map)
      intro e he e' he' heq
      have hsame := List.append_cancel_right heq
      refine (hapart e (hperm.mem_iff.mp he) e' (hperm.mem_iff.mp he') ?_).symm
      rw [hsame]
      exact means_reference
    · rw [hout, lines_references hone hperm, List.forall₂_map_left_iff, List.forall₂_same]
      intro e he
      exact ⟨_, rfl, means_reference, hapart e (hperm.mem_iff.mp he)⟩

def session (n : Nat) (label : Text) : SessionInfo :=
  ⟨0x3a :: nat_text n, label, ascii "tgload", ascii "user", 0, ascii "ipc", ascii "9000"⟩

def listing (entries : List SessionInfo) : Env :=
  { granting with session_list := answering (.success entries) }

theorem numbered_pair {n m : Nat} (label label' : Text) (h : nat_text n ≠ nat_text m) :
    Numbered [session n label, session m label'] := by
  refine ⟨?_, by simpa [session] using h⟩
  intro e he
  simp only [List.mem_cons, List.not_mem_nil, or_false] at he
  rcases he with rfl | rfl
  · exact ⟨n, rfl⟩
  · exact ⟨m, rfl⟩

/-- The ten is listed behind the two, which has a label. -/
theorem session_list_unambiguous_of_two :
    Numbered [session 10 [], session 2 (ascii "batch")] ∧
    Unambiguous [session 10 [], session 2 (ascii "batch")]
      (stdout (session_list (monitoring false false)
        (listing [session 10 [], session 2 (ascii "batch")]))) := by
  have hids := numbered_pair (n := 10) (m := 2) [] (ascii "batch") (by decide)
  refine ⟨hids, (session_list_unambiguous_iff _ _ _ rfl hids rfl).mpr ⟨?_, ?_, ?_⟩⟩
  · decide
  · decide
  · decide

/-- A session whose label is the id of the other one. -/
theorem a_label_is_taken_for_an_id :
    ¬ (∀ (flags : Flags) (env : Env) (entries : List SessionInfo), flags.verbose = false →
      Numbered entries →
      outcome env.connect env.session_list (.ok .session_list) = .ok (some (.success entries)) →
      Unambiguous entries (stdout (session_list flags env))) := by
  intro h
  have hids := numbered_pair (n := 1) (m := 2) (ascii ":2") [] (by decide)
  obtain ⟨sorted, -, -, hnodup, -⟩ := h (monitoring false false)
    (listing [session 1 (ascii ":2"), session 2 []]) _ rfl hids rfl
  have hlines : lines (stdout (session_list (monitoring false false)
      (listing [session 1 (ascii ":2"), session 2 []]))) = [ascii ":2 ", ascii ":2 "] := by
    rfl
  rw [hlines] at hnodup
  exact absurd hnodup (by decide)

end tateyama_bootstrap.services
