import Mathlib.Data.List.Induction

/-! Invariants of runs whose steps are held to a condition on the state they
start from. -/
namespace AztecPxe.Run

variable {σ α : Type} (step : σ → α → σ) (Admits : σ → α → Prop) (start : σ)

/-- Every step of the run meets the condition in the state it is taken in. -/
def Admitted (steps : List α) : Prop :=
  ∀ before s after, steps = before ++ s :: after → Admits (before.foldl step start) s

variable {step Admits start}

theorem admitted_append {steps more : List α}
    (admitted : Admitted step Admits start (steps ++ more)) :
    Admitted step Admits start steps := by
  intro before s after split
  refine admitted before s (after ++ more) ?_
  rw [split, List.append_assoc, List.cons_append]

theorem admitted_nil : Admitted step Admits start [] := by
  intro before s after split
  cases before <;> cases split

theorem admitted_cons {s : α} {rest : List α} (first : Admits start s)
    (later : Admitted step Admits (step start s) rest) : Admitted step Admits start (s :: rest) := by
  intro before t after split
  cases before with
  | nil =>
    cases split
    exact first
  | cons u before =>
    cases split
    exact later before t after rfl

theorem admitted_head {s : α} {rest : List α}
    (admitted : Admitted step Admits start (s :: rest)) : Admits start s :=
  admitted [] s rest rfl

theorem admitted_drop {steps more : List α}
    (admitted : Admitted step Admits start (steps ++ more)) :
    Admitted step Admits (steps.foldl step start) more := by
  intro before t after split
  rw [split, ← List.append_assoc] at admitted
  have admits := admitted (steps ++ before) t after rfl
  rw [List.foldl_append] at admits
  exact admits

theorem admitted_tail {s : α} {rest : List α}
    (admitted : Admitted step Admits start (s :: rest)) :
    Admitted step Admits (step start s) rest :=
  @admitted_drop _ _ step Admits start [s] rest admitted

theorem admitted_last {steps : List α} {s : α}
    (admitted : Admitted step Admits start (steps ++ [s])) : Admits (steps.foldl step start) s :=
  admitted steps s [] rfl

/-- A property that holds at the start and that admitted steps keep holds after
every admitted run. -/
theorem invariant {I : σ → Prop} (initial : I start)
    (keeps : ∀ {state : σ} {s : α}, I state → Admits state s → I (step state s))
    (steps : List α) (admitted : Admitted step Admits start steps) :
    I (steps.foldl step start) := by
  induction steps using List.reverseRecOn with
  | nil => exact initial
  | append_singleton steps s ih =>
    rw [List.foldl_append]
    exact keeps (ih (admitted_append admitted)) (admitted_last admitted)

/-- A property that holds at the start, and that a step keeps exactly where it is
admitted, holds all along a run exactly where the run is admitted. -/
theorem always_iff {I : σ → Prop} (initial : I start)
    (keeps : ∀ {state : σ} (s : α), I state → (I (step state s) ↔ Admits state s))
    (steps : List α) :
    (∀ before after, steps = before ++ after → I (before.foldl step start)) ↔
      Admitted step Admits start steps := by
  constructor
  · intro always before s after split
    have held : I (before.foldl step start) := always before (s :: after) split
    have stepped : I ((before ++ [s]).foldl step start) :=
      always (before ++ [s]) after (by rw [split, List.append_assoc, List.cons_append, List.nil_append])
    rw [List.foldl_append] at stepped
    exact (keeps s held).mp stepped
  · intro admitted before after split
    rw [split] at admitted
    exact invariant initial (fun held admits => (keeps _ held).mpr admits) before
      (admitted_append admitted)

/-- A property that holds at the start and that every step keeps holds after every
run. -/
theorem invariant_all {I : σ → Prop} (initial : I start)
    (keeps : ∀ {state : σ} (s : α), I state → I (step state s)) (steps : List α) :
    I (steps.foldl step start) := by
  have admitted : Admitted step (fun _ _ => True) start steps := fun _ _ _ _ => trivial
  exact invariant initial (fun held _ => keeps _ held) steps admitted

end AztecPxe.Run
