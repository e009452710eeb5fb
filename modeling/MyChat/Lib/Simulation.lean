import Mathlib.Algebra.BigOperators.Group.Finset.Basic
import Mathlib.Data.Fintype.Basic
import MyChat.Lib.Machine

/-! Forward simulation between machines: each step of the lower one is one step
of the upper one or none at all. Threads are functions from their names, and a
sum over all threads changes by what one of them changes. -/

namespace MyChat

/-- A sum over all threads after one of them has moved. -/
theorem sum_update {τ β : Type} [Fintype τ] [DecidableEq τ] (w : β → Nat) (pc : τ → β) (i : τ)
    (c : β) :
    (∑ j, w (Function.update pc i c j)) + w (pc i) = (∑ j, w (pc j)) + w c := by
  rw [← Finset.add_sum_erase _ _ (Finset.mem_univ i), ← Finset.add_sum_erase _ (fun j => w (pc j))
    (Finset.mem_univ i), Function.update_self]
  have hrest : ∑ j ∈ Finset.univ.erase i, w (Function.update pc i c j) =
      ∑ j ∈ Finset.univ.erase i, w (pc j) := by
    refine Finset.sum_congr rfl fun j hj => ?_
    rw [Function.update_of_ne (Finset.ne_of_mem_erase hj)]
  omega

namespace Machine

variable {σ ι σ' κ : Type}

/-- The upper events of a run. -/
def trace (C : Machine σ ι) (event : σ → ι → Option κ) (s : σ) (ls : List ι) : List κ :=
  (C.steps s ls).filterMap fun x => event x.1 x.2.1

/-- `C` does what `A` does, seen through `abs` in states that meet `inv`: a step
without an event changes nothing up there. -/
structure Simulates (C : Machine σ ι) (A : Machine σ' κ) (inv : σ → Prop) (abs : σ → σ')
    (event : σ → ι → Option κ) : Prop where
  init : ∀ s, C.init s → inv s ∧ A.init (abs s)
  keeps : ∀ s l s', inv s → C.step s l = some s' → inv s'
  silent : ∀ s l s', inv s → C.step s l = some s' → event s l = none → abs s' = abs s
  step : ∀ s l s' e, inv s → C.step s l = some s' → event s l = some e →
    A.step (abs s) e = some (abs s')

variable {C : Machine σ ι} {A : Machine σ' κ} {inv : σ → Prop} {abs : σ → σ'}
  {event : σ → ι → Option κ} {s s' : σ}

theorem Simulates.reachable (h : C.Simulates A inv abs event) (hs : C.Reachable s) : inv s :=
  hs.invariant (fun s hi => (h.init s hi).1) fun s l s' hi _ hst => h.keeps s l s' hi hst

/-- A whole run of the lower machine is a run of the upper one on its events. -/
theorem Simulates.exec (h : C.Simulates A inv abs event) (hi : inv s) {ls : List ι}
    (he : C.exec s ls = some s') : A.exec (abs s) (C.trace event s ls) = some (abs s') := by
  induction ls generalizing s with
  | nil => cases he; rfl
  | cons l ls ih =>
    obtain ⟨s₁, h₁, he⟩ := Option.bind_eq_some_iff.mp he
    have hrest := ih (h.keeps s l s₁ hi h₁) he
    rw [trace, steps_cons h₁, List.filterMap_cons]
    cases hev : event s l with
    | none =>
      rw [← h.silent s l s₁ hi h₁ hev]
      exact hrest
    | some e =>
      simp only [exec, h.step s l s₁ e hi h₁ hev, Option.bind_some]
      exact hrest

/-- Labels that each lower a measure are no more than it. -/
theorem length_le_of_exec (μ : σ → Nat) {ok : ι → Prop}
    (h0 : ∀ s l s', inv s → C.step s l = some s' → inv s')
    (hlt : ∀ s l s', inv s → ok l → C.step s l = some s' → μ s' < μ s) (hi : inv s) {ls : List ι}
    (hok : ∀ l ∈ ls, ok l) (he : C.exec s ls = some s') : ls.length + μ s' ≤ μ s := by
  induction ls generalizing s with
  | nil => cases he; simp
  | cons l ls ih =>
    obtain ⟨s₁, h₁, he⟩ := Option.bind_eq_some_iff.mp he
    have hone := hlt s l s₁ hi (hok l List.mem_cons_self) h₁
    have hrest := ih (h0 s l s₁ hi h₁) (fun k hk => hok k (List.mem_cons_of_mem l hk)) he
    rw [List.length_cons]
    omega

end Machine

end MyChat
