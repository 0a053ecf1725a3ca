import Mathlib.Logic.Relation

/-!
Runs of a labelled transition system and the rule that carries an invariant
along them. A condition on the steps of a run is a narrower step relation.
-/
namespace ArmOS.Runs
open List

universe u v w
variable {State : Type u} {Label : Type v}

/-- The states a list of labels can lead to, in order. -/
inductive Run (step : State → Label → State → Prop) : State → List Label → State → Prop
  | done (s : State) : Run step s [] s
  | next {s t r : State} {l : Label} {labels : List Label} :
      step s l t → Run step t labels r → Run step s (l :: labels) r

/-- A state some run from `s` ends in. -/
def Reachable (step : State → Label → State → Prop) (s t : State) : Prop := ∃ labels, Run step s labels t

variable {step : State → Label → State → Prop} {labels : List Label} {s t : State}

/-- What holds first and is kept by every step always holds. -/
theorem Run.invariant {Inv : State → Prop} (kept : ∀ s l t, Inv s → step s l t → Inv t)
    {s t : State} {labels : List Label} (run : Run step s labels t) (first : Inv s) : Inv t := by
  induction run with
  | done s => exact first
  | next taken _ ih => exact ih (kept _ _ _ first taken)

theorem Reachable.invariant {Inv : State → Prop} (kept : ∀ s l t, Inv s → step s l t → Inv t)
    {s t : State} (reached : Reachable step s t) (first : Inv s) : Inv t := by
  obtain ⟨labels,run⟩ := reached
  exact run.invariant kept first

theorem Run.append {s t r : State} {before after : List Label} (first : Run step s before t)
    (second : Run step t after r) : Run step s (before ++ after) r := by
  induction first with
  | done s => exact second
  | next taken _ ih => exact .next taken (ih second)

variable {l : Label}

theorem Run.single (taken : step s l t) : Run step s [l] t := .next taken (.done t)
theorem Reachable.refl (s : State) : Reachable step s s := ⟨[],.done s⟩

theorem Reachable.trans {s t r : State} (first : Reachable step s t) (second : Reachable step t r) :
    Reachable step s r := by
  obtain ⟨before,run⟩ := first
  obtain ⟨after,rest⟩ := second
  exact ⟨before ++ after,run.append rest⟩

theorem Reachable.single (taken : step s l t) : Reachable step s t := ⟨[l],.single taken⟩

/-- A relation that steps keep carries a run over. -/
theorem Run.simulate {Other : Type w} {other : Other → Label → Other → Prop} {R : State → Other → Prop}
    (kept : ∀ s l t c, R s c → step s l t → ∃ d, other c l d ∧ R t d)
    (run : Run step s labels t) {c : Other} (related : R s c) : ∃ d, Run other c labels d ∧ R t d := by
  induction run generalizing c with
  | done s => exact ⟨c,.done c,related⟩
  | next taken _ ih =>
    obtain ⟨d,first,later⟩ := kept _ _ _ _ related taken
    obtain ⟨e,rest,last⟩ := ih later
    exact ⟨e,.next first rest,last⟩

variable {next : State → Label → Option State}

/-- A run of steps that a function computes. -/
theorem Run.computed (result : labels.foldlM next s = some t) : Run (fun s l t => next s l = some t) s labels t := by
  induction labels generalizing s with
  | nil =>
    obtain rfl : s = t := Option.some.inj result
    exact .done s
  | cons l labels ih =>
    obtain ⟨r,taken,rest⟩ := Option.bind_eq_some_iff.mp result
    exact .next taken (ih rest)

variable {P : State → Bool}

/-- A computed run that ends in a state with a property. -/
theorem Run.ends {s : State}
    (found : (labels.foldlM next s).any P = true) : ∃ t, Run (fun s l t => next s l = some t) s labels t ∧ P t = true := by
  cases result : labels.foldlM next s with
  | none =>
    rw [result] at found
    cases found
  | some t =>
    rw [result] at found
    exact ⟨t,.computed result,found⟩

/-- A run whose labels meet a condition in every state. -/
theorem Run.restrict {condition : State → Label → Prop} (run : Run step s labels t)
    (always : ∀ l ∈ labels, ∀ s, condition s l) : Run (fun s l t => step s l t ∧ condition s l) s labels t := by
  induction run with
  | done s => exact .done s
  | next taken _ ih =>
    exact .next ⟨taken,always _ mem_cons_self _⟩ (ih (forall_mem_cons.mp always).2)

variable {wider : State → Label → State → Prop}

/-- Steps of a wider relation make a run of it. -/
theorem Run.widen (wide : ∀ s l t, step s l t → wider s l t) (run : Run step s labels t) : Run wider s labels t := by
  induction run with
  | done s => exact .done s
  | next taken _ ih => exact .next (wide _ _ _ taken) ih

/-- Steps that hold for the labels of a run. -/
theorem Run.widen_on (run : Run step s labels t) (each : ∀ l ∈ labels, ∀ s t, step s l t → wider s l t) :
    Run wider s labels t := by
  induction run with
  | done s => exact .done s
  | next taken _ ih =>
    exact .next (each _ mem_cons_self _ _ taken) (ih (forall_mem_cons.mp each).2)

/-- A computed run with a condition checked at every step. -/
theorem Run.ends_checked {check : State → Label → Bool} {s : State}
    (found : (labels.foldlM (fun s l => if check s l then next s l else none) s).any P = true) :
    ∃ t, Run (fun s l t => next s l = some t ∧ check s l = true) s labels t ∧ P t = true := by
  obtain ⟨t,run,holds⟩ := Run.ends found
  refine ⟨t,run.widen fun s l t taken => ?_,holds⟩
  split at taken
  · rename_i checked
    exact ⟨taken,checked⟩
  · cases taken

end ArmOS.Runs

