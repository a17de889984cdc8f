import Retrial.Proofs.Course

/-!
# Where nothing goes wrong

An environment obliges when every attempt can be prepared and carried out, from
states that an attempt leaves as it found them fit. There a run that has seen
its binary once ends with a summary.
-/

set_option autoImplicit false

namespace Retrial

open History

variable {Memory : Type}

/-- After any number of attempts the next one can be made, whatever it is of. -/
def Obliging (s : Setup) (x : Executor Memory) (able : Nat → Files → Memory → Prop) : Prop :=
  ∀ n files memory, able n files memory → ∃ files', s.prepare (n + 1) files = .ok files' ∧
    ∀ kind, ∃ o files'' memory',
      x.run (s.request (n + 1) kind) files' memory = (.ok o, files'', memory') ∧
        able (n + 1) files'' memory'

theorem publish_willing (count : Nat) (es : List Event) :
    publish .willing count es = (es, none) := by
  induction es generalizing count with
  | nil => rfl
  | cons e es ih => simp [publish, Listener.willing, ih]

variable {s : Setup} {x : Executor Memory} {able : Nat → Files → Memory → Prop} {t : Tally}
  {files : Files} {memory : Memory}

theorem attemptOnce_obliging (h : Obliging s x able) (ha : able t.attempts files memory)
    (kind : AttemptKind) : ∃ es q k files' memory',
      attemptOnce s x .willing t kind files memory = .done es q k files' memory' ∧
        able (t.attempts + 1) files' memory' := by
  obtain ⟨files', hp, hr⟩ := h t.attempts files memory ha
  obtain ⟨o, files'', memory', hx, hn⟩ := hr kind
  have hd : attemptOnce s x .willing t kind files memory =
      .done [.attemptStarted (s.request (t.attempts + 1) kind),
          .attemptFinished (s.request (t.attempts + 1) kind) o (s.classify o.exit o.log)]
        (s.request (t.attempts + 1) kind) (s.classify o.exit o.log) files'' memory' :=
    attemptOnce_eq_iff.2 (.done ⟨hp, rfl⟩ hx rfl)
  exact ⟨_, _, _, _, _, hd, hn⟩

theorem proceed_obliging {l : Ledger} {n : Next} (h : Obliging s x able)
    (ha : able t.attempts files memory) :
    ∃ sm, (proceed s x .willing t l n files memory).ending = .summary sm := by
  fun_induction proceed s x .willing t l n files memory
  case case1 => exact ⟨_, rfl⟩
  case case2 t l files memory step r hr =>
    obtain ⟨es, q, k, files', memory', hd, -⟩ := attemptOnce_obliging h ha step.kind
    rw [hr] at hd
    cases hd
  case case3 hp =>
    rw [publish_willing] at hp
    cases hp
  case case4 t l files memory step events q k files' memory' hd d heard hp ih =>
    obtain ⟨es, q, k, files', memory', hd', ha'⟩ := attemptOnce_obliging h ha step.kind
    rw [hd] at hd'
    cases hd'
    exact ih ha'

theorem begin_obliging (h : Obliging s x able) (ha : able 0 files memory)
    (hw : wholeResults (begin s x .willing files memory).events ≠ []) :
    ∃ sm, (begin s x .willing files memory).ending = .summary sm := by
  unfold begin at hw ⊢
  dsimp only at hw ⊢
  split
  · exact proceed_obliging h ha
  · next path he =>
    simp only [he, publish_willing] at hw ⊢
    split
    · next hl => simp [hl, Run.failed] at hw
    · exact proceed_obliging h ha

/-- A run in an obliging environment ends with a summary once it has seen a
result of the whole binary. -/
theorem supervise_obliging (h : Obliging s x able)
    (ha : ∀ files', s.makeLogDirectory files = .ok files' → able 0 files' memory)
    (hw : wholeResults (supervise s x .willing files memory).events ≠ []) :
    ∃ sm, (supervise s x .willing files memory).ending = .summary sm := by
  unfold supervise at hw ⊢
  split
  · next hv => simp [hv, Run.failed] at hw
  · next hv =>
    split
    · next hd => simp [hv, hd, Run.failed] at hw
    · next files' hd =>
      simp only [hv, hd, Listener.willing] at hw ⊢
      exact begin_obliging h (ha files' hd) (by simpa using hw)

end Retrial
