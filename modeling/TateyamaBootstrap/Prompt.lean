-- The prompt for a user name or a password (authentication/authenticator.cpp). The characters
-- are read with getchar() up to a newline.
import TateyamaBootstrap.Json

open json

namespace tateyama_bootstrap.authentication

/-- `'\n'`. -/
def newline : UInt8 := 0x0a

/-- The flags of the terminal that the prompt changes. -/
structure Lflag where
  echo : Bool
  echonl : Bool
deriving DecidableEq, Repr

/-- The standard input, which is at its end behind its bytes, and the terminal. The terminal
calls of the code do nothing when the input is no terminal. -/
structure Console where
  stdin : List UInt8
  isatty : Bool
  lflag : Lflag
  cout : Text
deriving DecidableEq, Repr

/-! ## The loop -/

def EOF : Int := -1

/-- `getchar`; at the end of the input it gives `EOF` at every call. -/
def getchar : List UInt8 → Int × List UInt8
  | [] => (EOF, [])
  | c :: stdin => (c.toNat, stdin)

/-- `static_cast<char>`. -/
def char_cast (chr : Int) : UInt8 := UInt8.ofNat (chr % 256).toNat

/-- The loop, for `fuel` characters; `none` while it has not come to its `break`. -/
def prompt_loop : (fuel : Nat) → (stdin : List UInt8) → (rtnv : Text) → Option (Text × List UInt8)
  | 0, _, _ => none
  | fuel + 1, stdin, rtnv =>
    let (chr, stdin) := getchar stdin
    if chr = newline.toNat then some (rtnv, stdin)
    else prompt_loop fuel stdin (rtnv ++ [char_cast chr])

def Console.set_lflag (console : Console) (lflag : Lflag) : Console :=
  if console.isatty then { console with lflag } else console

/-- What the prompt does before its loop. -/
def Console.ask (console : Console) (msg : Text) (display : Bool) : Console :=
  let console := if display then console else console.set_lflag ⟨false, true⟩
  if console.isatty then { console with cout := console.cout ++ msg } else console

def prompt (fuel : Nat) (msg : Text) (display : Bool) (console : Console) :
    Option (Text × Console) :=
  match prompt_loop fuel (console.ask msg display).stdin [] with
  | none => none
  | some (rtnv, stdin) =>
    let after := { console.ask msg display with stdin }
    some (rtnv, if display then after else after.set_lflag console.lflag)

/-! ## When it ends -/

theorem char_cast_toNat (c : UInt8) : char_cast c.toNat = c := by
  have hc : (c.toNat : Int) % 256 = c.toNat := by
    have := c.toNat_lt
    omega
  rw [char_cast, hc]
  simp

theorem prompt_loop_cons (fuel : Nat) (c : UInt8) (stdin : List UInt8) (rtnv : Text) :
    prompt_loop (fuel + 1) (c :: stdin) rtnv =
      if c = newline then some (rtnv, stdin) else prompt_loop fuel stdin (rtnv ++ [c]) := by
  have hc : (c.toNat : Int) = newline.toNat ↔ c = newline := by
    rw [Int.ofNat_inj, UInt8.toNat_inj]
  rw [prompt_loop]
  simp only [getchar, char_cast_toNat, hc]

/-- `EOF` is no newline, so it is appended as a character. -/
theorem prompt_loop_nil (fuel : Nat) (rtnv : Text) :
    prompt_loop (fuel + 1) [] rtnv = prompt_loop fuel [] (rtnv ++ [0xff]) := by
  rfl

theorem prompt_loop_line (line rest : List UInt8) (rtnv : Text) (h : newline ∉ line) :
    prompt_loop (line.length + 1) (line ++ newline :: rest) rtnv = some (rtnv ++ line, rest) := by
  induction line generalizing rtnv with
  | nil => simp [prompt_loop_cons]
  | cons c line ih =>
    obtain ⟨hc, hline⟩ := not_or.mp (mt List.mem_cons.mpr h)
    rw [List.length_cons, List.cons_append, prompt_loop_cons, if_neg (Ne.symm hc),
      ih (rtnv ++ [c]) hline]
    simp

/-- At the end of the input the loop goes round with `EOF` for ever. -/
theorem prompt_loop_eof (fuel : Nat) (stdin : List UInt8) (rtnv : Text) (h : newline ∉ stdin) :
    prompt_loop fuel stdin rtnv = none := by
  induction fuel generalizing stdin rtnv with
  | zero => rfl
  | succ fuel ih =>
    rcases stdin with _ | ⟨c, stdin⟩
    · rw [prompt_loop_nil]
      exact ih [] _ (by simp)
    · obtain ⟨hc, hstdin⟩ := not_or.mp (mt List.mem_cons.mpr h)
      rw [prompt_loop_cons, if_neg (Ne.symm hc)]
      exact ih stdin _ hstdin

/-- The part of the input before its first newline, with what follows that. -/
theorem split_at_newline (stdin : List UInt8) (h : newline ∈ stdin) :
    ∃ rest, stdin = stdin.takeWhile (· ≠ newline) ++ newline :: rest := by
  induction stdin with
  | nil => simp at h
  | cons c stdin ih =>
    by_cases hc : c = newline
    · subst hc
      exact ⟨stdin, by simp⟩
    · obtain ⟨rest, hrest⟩ := ih (by simpa [Ne.symm hc] using h)
      refine ⟨rest, ?_⟩
      rw [List.takeWhile_cons_of_pos (by simpa using hc), List.cons_append, ← hrest]

@[simp]
theorem Console.set_lflag_stdin (console : Console) (lflag : Lflag) :
    (console.set_lflag lflag).stdin = console.stdin := by
  unfold Console.set_lflag
  split <;> rfl

@[simp]
theorem Console.ask_stdin (console : Console) (msg : Text) (display : Bool) :
    (console.ask msg display).stdin = console.stdin := by
  unfold Console.ask
  split <;> simp [apply_ite Console.stdin]

theorem prompt_of_newline (msg : Text) (display : Bool) (console : Console)
    (h : newline ∈ console.stdin) :
    ∃ fuel after, prompt fuel msg display console =
      some (console.stdin.takeWhile (· ≠ newline), after) := by
  obtain ⟨rest, hrest⟩ := split_at_newline console.stdin h
  have hline : newline ∉ console.stdin.takeWhile (· ≠ newline) := by
    intro hm
    simpa using List.mem_takeWhile_imp hm
  have hloop := prompt_loop_line _ rest [] hline
  rw [← hrest, List.nil_append] at hloop
  refine ⟨(console.stdin.takeWhile (· ≠ newline)).length + 1, ?_⟩
  unfold prompt
  rw [Console.ask_stdin, hloop]
  exact ⟨_, rfl⟩

theorem prompt_eof (fuel : Nat) (msg : Text) (display : Bool) (console : Console)
    (h : newline ∉ console.stdin) : prompt fuel msg display console = none := by
  unfold prompt
  rw [Console.ask_stdin, prompt_loop_eof fuel _ _ h]

/-- The prompt returns the bytes before the first newline, or all of them, exactly when there
is a newline; without one it never returns. -/
theorem prompt_returns_iff_newline (msg : Text) (display : Bool) (console : Console) :
    ((∃ fuel after, prompt fuel msg display console =
        some (console.stdin.takeWhile (· ≠ newline), after)) ↔ newline ∈ console.stdin) ∧
      (newline ∉ console.stdin → ∀ fuel, prompt fuel msg display console = none) := by
  refine ⟨⟨?_, prompt_of_newline msg display console⟩, ?_⟩
  · rintro ⟨fuel, after, h⟩
    by_contra hno
    rw [prompt_eof fuel msg display console hno] at h
    simp at h
  · intro hno fuel
    exact prompt_eof fuel msg display console hno

/-- A password that is piped in without a newline. -/
theorem a_password_without_newline_is_not_returned :
    ¬∃ fuel after, prompt fuel (ascii "password: ") false
      ⟨ascii "secret", false, ⟨true, false⟩, []⟩ = some (ascii "secret", after) := by
  rintro ⟨fuel, after, h⟩
  rw [prompt_eof fuel _ _ _ (by decide)] at h
  simp at h

end tateyama_bootstrap.authentication
