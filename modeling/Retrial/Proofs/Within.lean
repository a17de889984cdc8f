import Retrial.Proofs.Files.Following
import Retrial.Proofs.Obliging

/-!
# Runs that are over soon

A run is computed by recursion on the attempts that it may make. Where these
are enough the result is the run itself, so that a short run can be read off.
-/

set_option autoImplicit false

namespace Retrial

section

variable {Memory : Type} (s : Setup) (x : Executor Memory) (listen : Listener)

/-- `proceed`, given up before it makes more attempts than it may. -/
def proceedWithin : Nat → Tally → Ledger → Next → Files → Memory → Option Run
  | _, t, l, .stop v, files, memory => some (conclude x listen t l v files memory)
  | 0, _, _, .attempt _, _, _ => none
  | n + 1, t, l, .attempt step, files, memory =>
    match attemptOnce s x listen t step.kind files memory with
    | .stopped run => some run
    | .done events request c files memory =>
      let d := Decision.after l step c
      match publish listen (t.events + 2) d.events with
      | (heard, some fault) =>
        some (((Run.failed (.writeEvent fault) files).carriedOut request).heard (events ++ heard))
      | (heard, none) =>
        (proceedWithin n (t.after step (2 + d.events.length)) d.ledger d.next files memory).map
          fun r => (r.carriedOut request).heard (events ++ heard)

end

variable {Memory : Type} {s : Setup} {x : Executor Memory} {listen : Listener}
  {files start : Files} {memory : Memory}

theorem proceed_of_within {n : Nat} {t : Tally} {l : Ledger} {next : Next} {r : Run}
    (h : proceedWithin s x listen n t l next files memory = some r) :
    proceed s x listen t l next files memory = r := by
  induction n generalizing t l next files memory r with
  | zero =>
    cases next with
    | stop v =>
      rw [proceed]
      exact Option.some.inj h
    | attempt step => cases h
  | succ n ih =>
    cases next with
    | stop v =>
      rw [proceed]
      exact Option.some.inj h
    | attempt step =>
      unfold proceedWithin at h
      cases ha : attemptOnce s x listen t step.kind files memory with
      | stopped run =>
        rw [ha] at h
        rw [proceed_stopped ha]
        exact Option.some.inj h
      | done events request c files' memory' =>
        rw [ha] at h
        rw [proceed_done ha]
        dsimp only at h
        cases hp : publish listen (t.events + 2) (Decision.after l step c).events with
        | mk heard refusal =>
          rw [hp] at h
          cases refusal with
          | some fault => exact Option.some.inj h
          | none =>
            obtain ⟨r, hr, rfl⟩ := Option.map_eq_some_iff.1 h
            dsimp only
            rw [ih hr]

theorem proceed_within {t : Tally} {l : Ledger} {next : Next} (n : Nat)
    (hn : (proceedWithin s x listen n t l next files memory).isSome = true) :
    proceed s x listen t l next files memory = Option.get _ hn :=
  proceed_of_within (Option.some_get hn).symm

/-- A run that starts with an attempt and is over within a number of them. -/
theorem supervise_within (n : Nat) (hv : s.policy.fault? = none) (he : s.existingLog = none)
    (hd : s.makeLogDirectory files = .ok start)
    (hn : (proceedWithin s x .willing n ⟨0, 0, 1⟩ (.start s.policy) (.attempt .fullRun) start
      memory).isSome = true) :
    supervise s x .willing files memory =
      (Option.get _ hn).heard [.started s.invocation s.policy] := by
  unfold supervise
  rw [hv, hd]
  dsimp only [Listener.willing]
  unfold begin
  rw [he]
  exact congrArg _ (proceed_within n hn)

theorem Setup.makeLogDirectory_of_isDirectory
    (hn : ((Path.segments s.logDirectory).reverse.dropWhile (· == "")).reverse =
      Path.segments s.logDirectory)
    (hd : files.isDirectory s.logDirectory = true) : s.makeLogDirectory files = .ok files := by
  unfold makeLogDirectory
  rw [Files.createDirectories_of_isDirectory hn hd]
  cases s.invocation.wantsLog <;> rfl

theorem Setup.makeLogDirectory_here (hs : s.logDirectory = ".")
    (h : files.entryAt? files.workingDirectory = some .directory) :
    s.makeLogDirectory files = .ok files := by
  apply makeLogDirectory_of_isDirectory
  · rw [hs]
    rfl
  · rw [hs]
    exact Files.isDirectory_here h

end Retrial
