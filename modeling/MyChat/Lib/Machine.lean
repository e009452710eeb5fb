import Mathlib.Logic.Basic

/-! Deterministic labelled machines: a label fixes every choice of a step, and
a step that is not enabled gives `none`. -/

namespace MyChat

structure Machine (σ ι : Type) where
  init : σ → Prop
  step : σ → ι → Option σ

namespace Machine

variable {σ ι : Type} (M : Machine σ ι)

/-- The state after the labels, when each is enabled in turn. -/
def exec : σ → List ι → Option σ
  | s, [] => some s
  | s, l :: ls => (M.step s l).bind (exec · ls)

/-- States reached by runs whose steps all meet `ok`. -/
inductive Run (ok : σ → ι → Prop) : σ → Prop
  | start {s} (h : M.init s) : Run ok s
  | next {s l s'} (h : Run ok s) (hok : ok s l) (hs : M.step s l = some s') : Run ok s'

/-- States reached by runs with no condition on the steps. -/
abbrev Reachable : σ → Prop := M.Run fun _ _ => True

theorem exec_append (s : σ) (ls ls' : List ι) :
    M.exec s (ls ++ ls') = (M.exec s ls).bind (M.exec · ls') := by
  induction ls generalizing s with
  | nil => rfl
  | cons l ls ih =>
    simp only [List.cons_append, exec]
    cases M.step s l with
    | none => rfl
    | some s₁ => exact ih s₁

/-- The steps of a run, up to the first label that is not enabled. -/
def steps : σ → List ι → List (σ × ι × σ)
  | _, [] => []
  | s, l :: ls =>
      match M.step s l with
      | none => []
      | some s' => (s, l, s') :: steps s' ls

variable {M} {ok : σ → ι → Prop} {s s' : σ}

/-- What holds initially and survives every permitted step holds throughout. -/
theorem Run.invariant {I : σ → Prop} (h : M.Run ok s) (h0 : ∀ s, M.init s → I s)
    (hstep : ∀ s l s', I s → ok s l → M.step s l = some s' → I s') : I s := by
  induction h with
  | start hi => exact h0 _ hi
  | next _ hok hs ih => exact hstep _ _ _ ih hok hs

theorem steps_cons {l : ι} (h : M.step s l = some s') (ls : List ι) :
    M.steps s (l :: ls) = (s, l, s') :: M.steps s' ls := by
  rw [steps, h]

theorem steps_none {l : ι} (h : M.step s l = none) (ls : List ι) : M.steps s (l :: ls) = [] := by
  rw [steps, h]

theorem step_of_mem_steps {ls : List ι} {x : σ × ι × σ} (hx : x ∈ M.steps s ls) :
    M.step x.1 x.2.1 = some x.2.2 := by
  induction ls generalizing s with
  | nil => cases hx
  | cons l ls ih =>
    cases h : M.step s l with
    | none => rw [steps_none h] at hx; cases hx
    | some s₁ =>
      rw [steps_cons h] at hx
      rcases List.mem_cons.mp hx with rfl | hx
      · exact h
      · exact ih hx

/-- A run goes on through enabled labels whose steps are all permitted. -/
theorem Run.exec_steps (h : M.Run ok s) {ls : List ι} (hok : ∀ x ∈ M.steps s ls, ok x.1 x.2.1)
    (he : M.exec s ls = some s') : M.Run ok s' := by
  induction ls generalizing s with
  | nil => cases he; exact h
  | cons l ls ih =>
    obtain ⟨s₁, h₁, he⟩ := Option.bind_eq_some_iff.mp he
    rw [steps_cons h₁] at hok
    exact ih (.next h (hok _ List.mem_cons_self) h₁)
      (fun x hx => hok x (List.mem_cons_of_mem _ hx)) he

theorem label_of_mem_steps {ls : List ι} {x : σ × ι × σ} (hx : x ∈ M.steps s ls) : x.2.1 ∈ ls := by
  induction ls generalizing s with
  | nil => cases hx
  | cons l ls ih =>
    cases h : M.step s l with
    | none => rw [steps_none h] at hx; cases hx
    | some s₁ =>
      rw [steps_cons h] at hx
      rcases List.mem_cons.mp hx with rfl | hx
      · exact List.mem_cons_self
      · exact List.mem_cons_of_mem _ (ih hx)

theorem Run.exec (h : M.Run ok s) {ls : List ι} (hok : ∀ l ∈ ls, ∀ s, ok s l)
    (he : M.exec s ls = some s') : M.Run ok s' :=
  h.exec_steps (fun x hx => hok x.2.1 (label_of_mem_steps hx) x.1) he

/-- A measure that no step raises bounds how many steps lower it. -/
theorem countP_steps_le (μ : σ → Nat) {p : σ × ι × σ → Bool} {ls : List ι}
    (hle : ∀ x ∈ M.steps s ls, μ x.2.2 ≤ μ x.1) (hlt : ∀ x ∈ M.steps s ls, p x → μ x.2.2 < μ x.1) :
    (M.steps s ls).countP p ≤ μ s := by
  induction ls generalizing s with
  | nil => exact Nat.zero_le _
  | cons l ls ih =>
    cases h : M.step s l with
    | none => rw [steps_none h]; exact Nat.zero_le _
    | some s₁ =>
      rw [steps_cons h] at hle hlt ⊢
      have hrest : (M.steps s₁ ls).countP p ≤ μ s₁ :=
        ih (fun x hx => hle x (List.mem_cons_of_mem _ hx)) fun x hx =>
        hlt x (List.mem_cons_of_mem _ hx)
      rw [List.countP_cons]
      split
      · next hp => exact Nat.lt_of_le_of_lt hrest (hlt _ List.mem_cons_self hp)
      · exact Nat.le_trans hrest (hle _ List.mem_cons_self)

/-- Labels that are enabled in turn lead to a reachable state. -/
theorem reachable_exec (h : M.init s) {ls : List ι} (he : (M.exec s ls).isSome) :
    M.Reachable ((M.exec s ls).get he) :=
  Run.exec (.start h) (fun _ _ _ => trivial) (Option.some_get he).symm

end Machine

end MyChat
