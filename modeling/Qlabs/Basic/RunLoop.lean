import Mathlib.Data.Int.Notation
import Qlabs.Bytes
import Qlabs.Machine

/-!
# The run loop

`main` starts a chain of delayed tasks: `Greeting` logs the greeting and posts itself
with a count that is one less, until the count is zero, where it quits the run loop.
The count comes from the command line, through `base::StringToInt`, which leaves a
number in its output whatever it is given (`IsStringToInt`).

A chain that starts at `0` or above ends there (`completes_of_nonneg`). One that starts below
never comes to zero: it goes on until `count - 1` is not an `int` (`run_of_neg`). So the
chain completes exactly when the number on the command line is not negative
(`completes_iff`).
-/

namespace Qlabs.Basic

/-! ## Reading a number -/

/-- The `int` closest to `n`. -/
def clamp (n : ℤ) : Int32 :=
  .ofInt (max Int32.minValue.toInt (min n Int32.maxValue.toInt))

/-- A byte is a decimal digit. -/
def isDigit (b : UInt8) : Bool := 48 ≤ b && b ≤ 57

/-- The number at the start of `s`, after white space and a sign: zero, if there is none. -/
def numeral (isSpace : UInt8 → Bool) (s : Bytes) : ℤ :=
  match s.dropWhile isSpace with
  | 45 :: s => -(readDecimalNat (s.takeWhile isDigit) : ℤ)
  | 43 :: s => readDecimalNat (s.takeWhile isDigit)
  | s => readDecimalNat (s.takeWhile isDigit)

/-- `base::StringToInt`, as far as its output goes: the number at the start of the
    string, or the closest `int`, also where it fails. -/
def IsStringToInt (isSpace : UInt8 → Bool) (stringToInt : Bytes → Int32) : Prop :=
  ∀ s, stringToInt s = clamp (numeral isSpace s)

theorem toInt_clamp (n : ℤ) :
    (clamp n).toInt = max Int32.minValue.toInt (min n Int32.maxValue.toInt) := by
  have hle : Int32.minValue.toInt ≤ Int32.maxValue.toInt := by decide
  have hmin : -2 ^ 31 ≤ Int32.minValue.toInt := by decide
  have hmax : Int32.maxValue.toInt < 2 ^ 31 := by decide
  exact Int32.toInt_ofInt_of_le (by omega) (by omega)

theorem clamp_nonneg_iff (n : ℤ) : 0 ≤ (clamp n).toInt ↔ 0 ≤ n := by
  have hmin : Int32.minValue.toInt < 0 := by decide
  have hmax : 0 ≤ Int32.maxValue.toInt := by decide
  rw [toInt_clamp]
  omega

/-! ## The chain of greetings -/

/-- The process: its globals, the tasks that wait in its run loop, and its history. -/
structure Process where
  /-- `g_greeting` -/
  gGreeting : Bytes
  /-- `g_quit_closure` is set. -/
  gQuitClosure : Bool
  /-- The counts of the `Greeting` tasks posted and not yet run. -/
  tasks : List Int32 := []
  /-- What has been logged, in order. -/
  log : List Bytes := []
  /-- How often the quit closure has been run. -/
  quits : ℕ := 0
  /-- `count - 1` has been evaluated where it is not an `int`. -/
  undefined : Bool := false
  deriving DecidableEq

/-- `count - 1`, undefined if it is not an `int`. -/
def minusOne (count : Int32) : Option Int32 :=
  if count = Int32.minValue then none else some (count - 1)

namespace Process

/-- `Greeting` -/
def greeting (s : Process) (count : Int32) : Process :=
  if count = 0 ∧ s.gQuitClosure then
    { s with quits := s.quits + 1 }
  else
    let s := { s with log := s.log ++ [s.gGreeting] }
    match minusOne count with
    | none => { s with undefined := true }
    | some count => { s with tasks := s.tasks ++ [count] }

/-- What happens to the process: its run loop runs the task in front. -/
inductive Action
  | runTask

/-- One step of the run loop, which returns once it has been quit. -/
def step (s : Process) : Action → Option Process
  | .runTask =>
    match s.tasks with
    | [] => none
    | count :: tasks =>
      if s.undefined ∨ s.quits ≠ 0 then none
      else some ({ s with tasks := tasks }.greeting count)

end Process

/-- The switch of the greeting. -/
def kGreeting : Bytes := bytes "greeting"

/-- The switch of the repeat count. -/
def kRepeat : Bytes := bytes "repeat"

variable (stringToInt : Bytes → Int32) (cmdLine : Bytes → Bytes)

/-- The repeat count of `main`, given the values of the switches (empty, if not given). -/
def repeatCount : Int32 :=
  if cmdLine kRepeat ≠ [] then stringToInt (cmdLine kRepeat) else 5

/-- `g_greeting`, once `main` has read the command line. -/
def mainGreeting : Bytes :=
  if cmdLine kGreeting ≠ [] then cmdLine kGreeting else bytes "hello"

/-- `main`, up to its run loop. -/
def main : Process :=
  let s : Process := { gGreeting := mainGreeting cmdLine, gQuitClosure := true }
  s.greeting (repeatCount stringToInt cmdLine)

/-- The run loop of `main`. -/
def machine : Machine Process Process.Action where
  init := main stringToInt cmdLine
  step := Process.step

/-- A chain of greetings has come to its end, as one with this greeting and this count
    should. -/
structure Process.Done (s : Process) (greeting : Bytes) (count : ℤ) : Prop where
  /-- No task is left. -/
  tasks : s.tasks = []
  /-- The greeting was logged as often as the count says, not at all if it is negative. -/
  log : s.log = List.replicate (max count 0).toNat greeting
  /-- The quit closure was run once. -/
  quits : s.quits = 1
  /-- Every `count - 1` was defined. -/
  undefined : s.undefined = false

/-- The chain that `main` starts is finite, and ends as it should. -/
def Completes : Prop :=
  ∃ n s, (machine stringToInt cmdLine).run (main stringToInt cmdLine) (List.replicate n .runTask) =
    some s ∧ s.Done (mainGreeting cmdLine) (repeatCount stringToInt cmdLine).toInt

/-! ## Counting down -/

variable {stringToInt cmdLine} {isSpace : UInt8 → Bool}

theorem toInt_sub_one {count : Int32} (h : count ≠ Int32.minValue) :
    (count - 1).toInt = count.toInt - 1 := by
  have hne : count.toInt ≠ Int32.minValue.toInt := fun heq => h (Int32.toInt_inj.1 heq)
  have hmin := count.minValue_le_toInt
  have hmax := count.toInt_le
  have hmin' : Int32.minValue.toInt = -2147483648 := rfl
  have hmax' : Int32.maxValue.toInt = 2147483647 := rfl
  rw [Int32.toInt_sub, show (1 : Int32).toInt = 1 from rfl]
  exact Int.bmod_eq_of_le (by omega) (by omega)

namespace Process

/-- A process in its run loop, before it has quit. -/
def looping (gGreeting : Bytes) (log : List Bytes) : Process :=
  { gGreeting := gGreeting, gQuitClosure := true, log := log }

variable {g : Bytes} {log : List Bytes} {count : Int32}

theorem greeting_zero :
    (looping g log).greeting 0 = { looping g log with quits := 1 } := rfl

theorem greeting_minValue : (looping g log).greeting Int32.minValue =
    { looping g (log ++ [g]) with undefined := true } := rfl

theorem greeting_of_ne (hzero : count ≠ 0) (hmin : count ≠ Int32.minValue) :
    (looping g log).greeting count = { looping g (log ++ [g]) with tasks := [count - 1] } := by
  rw [greeting, if_neg fun h => hzero h.1, minusOne, if_neg hmin]
  rfl

end Process

open Process

/-- The task of a chain runs next. -/
theorem step_looping {g : Bytes} {log : List Bytes} {count : Int32} :
    (machine stringToInt cmdLine).step { looping g log with tasks := [count] } .runTask =
      some ((looping g log).greeting count) := rfl

/-- A chain that does not come to zero in `k` tasks goes on, as long as `count - 1` is
    defined: each task logs the greeting and goes down by one. -/
theorem run_replicate (stringToInt : Bytes → Int32) (cmdLine : Bytes → Bytes) (g : Bytes)
    (log : List Bytes) (count : Int32) (k : ℕ)
    (hzero : count.toInt < 0 ∨ k ≤ count.toInt) (hmin : Int32.minValue.toInt + k ≤ count.toInt) :
    ∃ last : Int32, last.toInt = count.toInt - k ∧
      (machine stringToInt cmdLine).run ((looping g log).greeting count)
        (List.replicate k .runTask) =
          some ((looping g (log ++ List.replicate k g)).greeting last) := by
  induction k generalizing log count with
  | zero => exact ⟨count, by simp, by simp [Machine.run]⟩
  | succ k ih =>
    have hne : count ≠ 0 := by
      rintro rfl
      have : (0 : Int32).toInt = 0 := rfl
      omega
    have hne' : count ≠ Int32.minValue := by
      rintro rfl
      omega
    have hlast := toInt_sub_one hne'
    obtain ⟨last, hlast', hrun⟩ := ih (log ++ [g]) (count - 1) (by omega) (by omega)
    refine ⟨last, by omega, ?_⟩
    rw [greeting_of_ne hne hne', List.replicate_succ, List.replicate_succ, Machine.run,
      step_looping, Option.bind_some, hrun, List.append_assoc, List.singleton_append]

/-! ## The chain of `main` -/

/-- `main` starts its chain in a process that has logged nothing. -/
theorem main_eq : main stringToInt cmdLine =
    (looping (mainGreeting cmdLine) []).greeting (repeatCount stringToInt cmdLine) := rfl

/-- A chain from `0` or above quits the run loop when it comes to zero. -/
theorem completes_of_nonneg (h : 0 ≤ (repeatCount stringToInt cmdLine).toInt) :
    Completes stringToInt cmdLine := by
  have hmin : Int32.minValue.toInt < 0 := by decide
  rw [Completes, main_eq]
  generalize repeatCount stringToInt cmdLine = count at h ⊢
  obtain ⟨last, hlast, hrun⟩ := run_replicate stringToInt cmdLine (mainGreeting cmdLine) []
    count count.toInt.toNat (by omega) (by omega)
  obtain rfl : last = 0 := Int32.toInt_inj.1 (by rw [hlast, Int32.toInt_zero]; omega)
  rw [greeting_zero] at hrun
  refine ⟨_, _, hrun, rfl, ?_, rfl, rfl⟩
  rw [max_eq_left h]
  rfl

/-- A chain from below `0` never quits the run loop: it ends where `count - 1` is
    undefined. -/
theorem run_of_neg (h : (repeatCount stringToInt cmdLine).toInt < 0) :
    ∃ n s, (machine stringToInt cmdLine).run (main stringToInt cmdLine)
        (List.replicate n .runTask) = some s ∧
      s.tasks = [] ∧ s.quits = 0 ∧ s.undefined = true := by
  have hmin := (repeatCount stringToInt cmdLine).minValue_le_toInt
  rw [main_eq]
  generalize repeatCount stringToInt cmdLine = count at h hmin ⊢
  obtain ⟨last, hlast, hrun⟩ := run_replicate stringToInt cmdLine (mainGreeting cmdLine) []
    count (count.toInt - Int32.minValue.toInt).toNat (.inl h) (by omega)
  obtain rfl : last = Int32.minValue := Int32.toInt_inj.1 (by omega)
  rw [greeting_minValue] at hrun
  exact ⟨_, _, hrun, rfl, rfl, rfl⟩

/-- A process without tasks has come to a halt. -/
theorem step_eq_none {s : Process} (h : s.tasks = []) :
    (machine stringToInt cmdLine).step s .runTask = none := by
  simp [machine, step, h]

theorem completes_iff_nonneg :
    Completes stringToInt cmdLine ↔ 0 ≤ (repeatCount stringToInt cmdLine).toInt := by
  refine ⟨?_, completes_of_nonneg⟩
  rintro ⟨n, s, hrun, hdone⟩
  by_contra h
  obtain ⟨k, t, hrun', htasks, hquits, -⟩ := run_of_neg (not_le.1 h)
  -- Both runs come to a halt, so they end in the same state.
  obtain rfl := Machine.eq_of_run_replicate hrun hrun' (step_eq_none hdone.tasks)
    (step_eq_none htasks)
  exact absurd (hdone.quits.symm.trans hquits) (by decide)

/-- The number on the command line is what the count depends on. -/
theorem repeatCount_nonneg_iff (h : IsStringToInt isSpace stringToInt) :
    0 ≤ (repeatCount stringToInt cmdLine).toInt ↔ 0 ≤ numeral isSpace (cmdLine kRepeat) := by
  rw [repeatCount]
  split_ifs with hne
  · rw [h, clamp_nonneg_iff]
  · rw [not_not.1 hne]
    exact iff_of_true (by decide) (Int.le_of_eq rfl)

/-- The chain of greetings is finite, logs the greeting as often as the repeat count
    says, and quits the run loop once, exactly when the number given is not negative. -/
theorem completes_iff (h : IsStringToInt isSpace stringToInt) :
    Completes stringToInt cmdLine ↔ 0 ≤ numeral isSpace (cmdLine kRepeat) :=
  completes_iff_nonneg.trans (repeatCount_nonneg_iff h)

/-- `isspace`, in the C locale. -/
def isspace (b : UInt8) : Bool := b == 32 || 9 ≤ b && b ≤ 13

/-- The values of the switches of `--repeat=value`. -/
def withRepeat (value : Bytes) : Bytes → Bytes := fun name =>
  if name = kRepeat then value else []

/-- `--repeat=" 3x"`, which `base::StringToInt` fails on, leaving `3`. -/
theorem completes_iff_malformed :
    (clamp (numeral isspace (bytes " 3x"))).toInt = 3 ∧
      Completes (fun s => clamp (numeral isspace s)) (withRepeat (bytes " 3x")) := by
  have h : IsStringToInt isspace fun s => clamp (numeral isspace s) := fun _ => rfl
  exact ⟨by decide, (completes_iff h).2 (by decide)⟩

/-- `--repeat=-1` -/
theorem not_completes_neg :
    ¬∀ cmdLine, Completes (fun s => clamp (numeral isspace s)) cmdLine := by
  intro h
  exact absurd (completes_iff_nonneg.1 (h (withRepeat (bytes "-1")))) (by decide)

end Qlabs.Basic
