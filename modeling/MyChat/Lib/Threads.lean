import Mathlib.Data.DFinsupp.WellFounded
import Mathlib.SetTheory.Ordinal.Rank
import MyChat.Lib.Simulation

/-! Threads that share a state and one mutex. A program is a tree of operations
that answer; any number of threads run such programs, one operation of one thread
at a time. What a program does is proved as if it ran alone, with any answers
outside the mutex and exact knowledge of the guarded part inside it, and then
holds in every interleaving. -/

namespace MyChat

/-! ## Programs -/

inductive Prog (Op : Type) (Answer : Op → Type) (α : Type) : Type
  | ret (a : α)
  | op (o : Op) (k : Answer o → Prog Op Answer α)
  | lock (k : Prog Op Answer α)
  | unlock (k : Prog Op Answer α)

/-- What the operations, and what `Ext` outside, do to a state. `view` is the part
that the mutex guards, and an operation that waits is not ready in every state. -/
structure Effects (Op : Type) (Answer : Op → Type) (σ V Ext : Type) where
  perform : (o : Op) → σ → Answer o × σ
  external : Ext → σ → σ
  ready : Op → σ → Bool
  view : σ → V
  guarded : Op → Bool
  waits : Op → Bool
  view_perform : ∀ o s, guarded o = false → view (perform o s).2 = view s
  view_external : ∀ e s, view (external e s) = view s
  ready_of : ∀ o s, waits o = false → ready o s

variable {Op : Type} {Answer : Op → Type} {σ V Ext α β : Type}

namespace Prog

protected def bind : Prog Op Answer α → (α → Prog Op Answer β) → Prog Op Answer β
  | .ret a, f => f a
  | .op o k, f => .op o fun a => (k a).bind f
  | .lock k, f => .lock (k.bind f)
  | .unlock k, f => .unlock (k.bind f)

instance : Monad (Prog Op Answer) where
  pure := .ret
  bind := Prog.bind

/-- The operation by itself. -/
def perform (o : Op) : Prog Op Answer (Answer o) := .op o .ret

/-- The scope of a `lock_guard`: however the body ends, the mutex is let go. -/
def locked (p : Prog Op Answer α) : Prog Op Answer α := .lock (p.bind fun a => .unlock (.ret a))

/-- The program uninterrupted. -/
def alone (E : Effects Op Answer σ V Ext) : Prog Op Answer α → σ → α × σ
  | .ret a, s => (a, s)
  | .op o k, s => (k (E.perform o s).1).alone E (E.perform o s).2
  | .lock k, s => k.alone E s
  | .unlock k, s => k.alone E s

section
variable (E : Effects Op Answer σ V Ext) (s : σ)

theorem bind_eq (p : Prog Op Answer α) (f : α → Prog Op Answer β) : p >>= f = p.bind f := rfl

@[simp] theorem alone_pure (a : α) : (pure a : Prog Op Answer α).alone E s = (a, s) := rfl

@[simp] theorem alone_perform (o : Op) : (perform o : Prog Op Answer _).alone E s = E.perform o s :=
  rfl

@[simp] theorem alone_bind (p : Prog Op Answer α) (f : α → Prog Op Answer β) :
    (p >>= f).alone E s = (f (p.alone E s).1).alone E (p.alone E s).2 := by
  rw [bind_eq]
  induction p generalizing s with
  | ret a => rfl
  | op o k ih => exact ih _ _
  | lock k ih => exact ih _
  | unlock k ih => exact ih _

@[simp] theorem alone_locked (p : Prog Op Answer α) : (locked p).alone E s = p.alone E s :=
  (alone_bind E s p fun a => .unlock (.ret a)).trans rfl

end

/-! ## What holds of a program -/

/-- The program keeps to the mutex: it takes it when it does not have it, touches
the guarded part only when it has it, and does not wait there. Inside, `v` is
the guarded part, and `G` holds of it at each operation. -/
def Keeps (E : Effects Op Answer σ V Ext) (G : V → Op → Prop) :
    Prog Op Answer α → Option V → (α → Option V → Prop) → Prop
  | .ret a, v, Q => Q a v
  | .op o k, none, Q => E.guarded o = false ∧ ∀ s, (k (E.perform o s).1).Keeps E G none Q
  | .op o k, some v, Q =>
      E.waits o = false ∧ G v o ∧
        ∀ s, E.view s = v → (k (E.perform o s).1).Keeps E G (some (E.view (E.perform o s).2)) Q
  | .lock k, none, Q => ∀ v, k.Keeps E G (some v) Q
  | .lock _, some _, _ => False
  | .unlock _, none, _ => False
  | .unlock k, some _, Q => k.Keeps E G none Q

/-- An operation with its answer. -/
abbrev Event (Op : Type) (Answer : Op → Type) : Type := (o : Op) × Answer o

/-- Whatever state each operation finds, `Q` holds of the operations and of the
result. -/
def Ends (E : Effects Op Answer σ V Ext) :
    Prog Op Answer α → List (Event Op Answer) → (α → List (Event Op Answer) → Prop) → Prop
  | .ret a, es, Q => Q a es
  | .op o k, es, Q => ∀ s, (k (E.perform o s).1).Ends E (es ++ [⟨o, (E.perform o s).1⟩]) Q
  | .lock k, es, Q => k.Ends E es Q
  | .unlock k, es, Q => k.Ends E es Q

/-- Run alone from `s`, no operation waits. -/
def Clear (E : Effects Op Answer σ V Ext) : Prog Op Answer α → σ → Prop
  | .ret _, _ => True
  | .op o k, s => E.ready o s ∧ (k (E.perform o s).1).Clear E (E.perform o s).2
  | .lock k, s => k.Clear E s
  | .unlock k, s => k.Clear E s

/-- Every operation that the program may come to meets `P`. -/
def Only (P : Op → Prop) : Prog Op Answer α → Prop
  | .ret _ => True
  | .op o k => P o ∧ ∀ a, (k a).Only P
  | .lock k => k.Only P
  | .unlock k => k.Only P

section
variable {E : Effects Op Answer σ V Ext} {G : V → Op → Prop}

@[simp] theorem keeps_pure {a : α} {v : Option V} {Q : α → Option V → Prop} :
    (pure a : Prog Op Answer α).Keeps E G v Q ↔ Q a v := Iff.rfl

@[simp] theorem keeps_perform_none {o : Op} {Q : Answer o → Option V → Prop} :
    (perform o : Prog Op Answer _).Keeps E G none Q ↔
      E.guarded o = false ∧ ∀ s, Q (E.perform o s).1 none := Iff.rfl

@[simp] theorem keeps_perform_some {o : Op} {v : V} {Q : Answer o → Option V → Prop} :
    (perform o : Prog Op Answer _).Keeps E G (some v) Q ↔
      E.waits o = false ∧ G v o ∧
        ∀ s, E.view s = v → Q (E.perform o s).1 (some (E.view (E.perform o s).2)) := Iff.rfl

@[simp] theorem keeps_bind {p : Prog Op Answer α} {f : α → Prog Op Answer β} {v : Option V}
    {Q : β → Option V → Prop} :
    (p >>= f).Keeps E G v Q ↔ p.Keeps E G v fun a v => (f a).Keeps E G v Q := by
  rw [bind_eq]
  induction p generalizing v with
  | ret a => exact Iff.rfl
  | op o k ih =>
    cases v with
    | none => exact and_congr_right fun _ => forall_congr' fun s => ih _
    | some v =>
      exact and_congr_right fun _ => and_congr_right fun _ => forall₂_congr fun s _ => ih _
  | lock k ih =>
    cases v with
    | none => exact forall_congr' fun v => ih
    | some v => exact Iff.rfl
  | unlock k ih =>
    cases v with
    | none => exact Iff.rfl
    | some v => exact ih

theorem Keeps.mono {p : Prog Op Answer α} {v : Option V} {Q Q' : α → Option V → Prop}
    (h : p.Keeps E G v Q) (hQ : ∀ a v, Q a v → Q' a v) : p.Keeps E G v Q' := by
  induction p generalizing v with
  | ret a => exact hQ _ _ h
  | op o k ih =>
    cases v with
    | none => exact ⟨h.1, fun s => ih _ (h.2 s)⟩
    | some v => exact ⟨h.1, h.2.1, fun s hs => ih _ (h.2.2 s hs)⟩
  | lock k ih =>
    cases v with
    | none => exact fun v => ih (h v)
    | some v => exact h
  | unlock k ih =>
    cases v with
    | none => exact h
    | some v => exact ih h

theorem Keeps.bind {p : Prog Op Answer α} {f : α → Prog Op Answer β} {v : Option V}
    {R : α → Option V → Prop} {Q : β → Option V → Prop} (h : p.Keeps E G v R)
    (hf : ∀ a v, R a v → (f a).Keeps E G v Q) :
    (p >>= f).Keeps E G v Q :=
  keeps_bind.mpr (h.mono hf)

/-- An operation that neither touches the guarded part nor waits may stand anywhere. -/
theorem keeps_plain {o : Op} (hg : E.guarded o = false) (hw : E.waits o = false) (hG : ∀ v, G v o)
    {v : Option V} {Q : Answer o → Option V → Prop} (hQ : ∀ a, Q a v) :
    (perform o : Prog Op Answer _).Keeps E G v Q := by
  cases v with
  | none => exact ⟨hg, fun s => hQ _⟩
  | some v =>
    refine ⟨hw, hG v, fun s hs => ?_⟩
    change Q _ (some _)
    rw [E.view_perform o s hg, hs]
    exact hQ _

/-- The body knows the guarded part and ends inside. -/
theorem keeps_locked {p : Prog Op Answer α} {Q : α → Option V → Prop}
    (h : ∀ v, p.Keeps E G (some v) fun a v' => v'.isSome ∧ Q a none) :
    (locked p).Keeps E G none Q := by
  intro v
  refine keeps_bind.mpr ((h v).mono ?_)
  rintro a (_ | v') ⟨hin, hq⟩
  · cases hin
  · exact hq

@[simp] theorem ends_pure {a : α} {es : List (Event Op Answer)}
    {Q : α → List (Event Op Answer) → Prop} :
    (pure a : Prog Op Answer α).Ends E es Q ↔ Q a es := Iff.rfl

@[simp] theorem ends_perform {o : Op} {es : List (Event Op Answer)}
    {Q : Answer o → List (Event Op Answer) → Prop} :
    (perform o : Prog Op Answer _).Ends E es Q ↔
      ∀ s, Q (E.perform o s).1 (es ++ [⟨o, (E.perform o s).1⟩]) := Iff.rfl

theorem Ends.mono {p : Prog Op Answer α} {es : List (Event Op Answer)}
    {Q Q' : α → List (Event Op Answer) → Prop} (h : p.Ends E es Q) (hQ : ∀ a es, Q a es → Q' a es) :
    p.Ends E es Q' := by
  induction p generalizing es with
  | ret a => exact hQ _ _ h
  | op o k ih => exact fun s => ih _ (h s)
  | lock k ih | unlock k ih => exact ih h

theorem Only.bind {P : Op → Prop} {p : Prog Op Answer α} {f : α → Prog Op Answer β} (h : p.Only P)
    (hf : ∀ a, (f a).Only P) : (p >>= f).Only P := by
  rw [bind_eq]
  induction p with
  | ret a => exact hf a
  | op o k ih => exact ⟨h.1, fun a => ih a (h.2 a)⟩
  | lock k ih | unlock k ih => exact ih h

theorem Only.mono {P P' : Op → Prop} {p : Prog Op Answer α} (h : p.Only P) (hP : ∀ o, P o → P' o) :
    p.Only P' := by
  induction p with
  | ret a => trivial
  | op o k ih => exact ⟨hP o h.1, fun a => ih a (h.2 a)⟩
  | lock k ih | unlock k ih => exact ih h

theorem Only.clear {p : Prog Op Answer α} (h : p.Only fun o => E.waits o = false) (s : σ) :
    p.Clear E s := by
  induction p generalizing s with
  | ret a => trivial
  | op o k ih => exact ⟨E.ready_of o s h.1, ih _ (h.2 _) _⟩
  | lock k ih | unlock k ih => exact ih h s

theorem only_perform {P : Op → Prop} {o : Op} (h : P o) : (perform o : Prog Op Answer _).Only P :=
  ⟨h, fun _ => trivial⟩

theorem Only.locked {P : Op → Prop} {p : Prog Op Answer α} (h : p.Only P) : (locked p).Only P :=
  Only.bind (f := fun a => .unlock (.ret a)) h fun _ => trivial

@[simp] theorem clear_pure {a : α} {s : σ} : (pure a : Prog Op Answer α).Clear E s ↔ True := Iff.rfl

@[simp] theorem clear_perform {o : Op} {s : σ} :
    (perform o : Prog Op Answer _).Clear E s ↔ E.ready o s := and_iff_left trivial

@[simp] theorem clear_bind {p : Prog Op Answer α} {f : α → Prog Op Answer β} {s : σ} :
    (p >>= f).Clear E s ↔ p.Clear E s ∧ (f (p.alone E s).1).Clear E (p.alone E s).2 := by
  rw [bind_eq]
  induction p generalizing s with
  | ret a => exact (and_iff_right trivial).symm
  | op o k ih => exact (and_congr_right fun _ => ih _).trans and_assoc.symm
  | lock k ih | unlock k ih => exact ih

@[simp] theorem clear_locked {p : Prog Op Answer α} {s : σ} : (locked p).Clear E s ↔ p.Clear E s :=
  (clear_bind (p := p) (f := fun a => .unlock (.ret a))).trans (and_iff_left trivial)

end

/-! ## Programs end -/

/-- What is left after one step. -/
inductive Child : Prog Op Answer α → Prog Op Answer α → Prop
  | op (o : Op) (k : Answer o → Prog Op Answer α) (a : Answer o) : Child (k a) (.op o k)
  | lock (k : Prog Op Answer α) : Child k (.lock k)
  | unlock (k : Prog Op Answer α) : Child k (.unlock k)

instance : IsWellFounded (Prog Op Answer α) Child := by
  refine ⟨⟨fun p => ?_⟩⟩
  induction p with
  | ret a => exact ⟨_, fun q h => by cases h⟩
  | op o k ih => exact ⟨_, fun q h => by cases h; exact ih _⟩
  | lock k ih | unlock k ih => exact ⟨_, fun q h => by cases h; exact ih⟩

end Prog

/-! ## Threads -/

/-- A thread that has nothing to do is at a `ret`. -/
structure Pool (τ : Type) (Op : Type) (Answer : Op → Type) (σ α : Type) where
  prog : τ → Prog Op Answer α
  mutex : Option τ
  shared : σ

inductive PoolStep (τ ι Ext : Type)
  /-- A thread that is done gets a program. -/
  | start (i : τ) (c : ι)
  /-- The next step of a thread. -/
  | run (i : τ)
  /-- Something that is no thread of this process acts. -/
  | outside (e : Ext)

namespace Pool

variable {τ ι : Type} [DecidableEq τ] {E : Effects Op Answer σ V Ext} {code : ι → Prog Op Answer α}

def set (i : τ) (p : Prog Op Answer α) (s : Pool τ Op Answer σ α) : Pool τ Op Answer σ α :=
  { s with prog := Function.update s.prog i p }

def next (E : Effects Op Answer σ V Ext) (s : Pool τ Op Answer σ α) (i : τ) :
    Option (Pool τ Op Answer σ α) :=
  match s.prog i with
  | .ret _ => none
  | .op o k =>
      if E.ready o s.shared then
        some { s.set i (k (E.perform o s.shared).1) with shared := (E.perform o s.shared).2 }
      else none
  | .lock k => if s.mutex = none then some { s.set i k with mutex := some i } else none
  | .unlock k => some { s.set i k with mutex := none }

def step (E : Effects Op Answer σ V Ext) (code : ι → Prog Op Answer α) (s : Pool τ Op Answer σ α) :
    PoolStep τ ι Ext → Option (Pool τ Op Answer σ α)
  | .start i c =>
      match s.prog i with
      | .ret _ => some (s.set i (code c))
      | _ => none
  | .run i => s.next E i
  | .outside e => some { s with shared := E.external e s.shared }

/-- The machine, from pools in which no thread has anything to do. `code` are
the programs that are started. -/
def machine (E : Effects Op Answer σ V Ext) (code : ι → Prog Op Answer α) (init : σ → Prop) :
    Machine (Pool τ Op Answer σ α) (PoolStep τ ι Ext) where
  init s := (∀ i, ∃ a, s.prog i = .ret a) ∧ s.mutex = none ∧ init s.shared
  step := step E code

variable {s s' : Pool τ Op Answer σ α} {i : τ}

/-! ## Steps -/

/-- A step of one thread: what is left of its program, and what it leaves. -/
inductive Moved (E : Effects Op Answer σ V Ext) (s : Pool τ Op Answer σ α) (i : τ) :
    Prog Op Answer α → Option τ → σ → Prop
  | op {o : Op} {k : Answer o → Prog Op Answer α} (h : s.prog i = .op o k)
      (hr : E.ready o s.shared) :
      Moved E s i (k (E.perform o s.shared).1) s.mutex (E.perform o s.shared).2
  | lock {k : Prog Op Answer α} (h : s.prog i = .lock k) (hm : s.mutex = none) :
      Moved E s i k (some i) s.shared
  | unlock {k : Prog Op Answer α} (h : s.prog i = .unlock k) : Moved E s i k none s.shared

theorem next_moved (h : s.next E i = some s') :
    ∃ p m t, Moved E s i p m t ∧ s' = ⟨Function.update s.prog i p, m, t⟩ := by
  unfold next at h
  split at h
  · cases h
  · next o k hp =>
    split at h
    · next hr => cases h; exact ⟨_, _, _, .op hp hr, rfl⟩
    · cases h
  · next k hp =>
    split at h
    · next hm => cases h; exact ⟨_, _, _, .lock hp hm, rfl⟩
    · cases h
  · next k hp => cases h; exact ⟨_, _, _, .unlock hp, rfl⟩

/-- What thread `i` knows of the guarded part. -/
def knows (E : Effects Op Answer σ V Ext) (s : Pool τ Op Answer σ α) (i : τ) : Option V :=
  if s.mutex = some i then some (E.view s.shared) else none

/-- Every thread keeps to the mutex from where it is, and lets it go before it ends. -/
def Inv (E : Effects Op Answer σ V Ext) (G : V → Op → Prop) (s : Pool τ Op Answer σ α) : Prop :=
  ∀ i, (s.prog i).Keeps E G (s.knows E i) fun _ v => v = none

variable {G : V → Op → Prop}

namespace Inv

theorem init (hprog : ∀ i, ∃ a, s.prog i = .ret a) (hm : s.mutex = none) : s.Inv E G := by
  intro i
  obtain ⟨a, ha⟩ := hprog i
  rw [ha, knows, hm]
  rfl

/-- One thread has moved. Another one knows what it knew. -/
theorem update (h : s.Inv E G) {p : Prog Op Answer α} {m : Option τ} {t : σ}
    (hthis : p.Keeps E G (if m = some i then some (E.view t) else none) fun _ v => v = none)
    (hothers : ∀ j, j ≠ i → (m = some j ↔ s.mutex = some j))
    (hview : (∃ j, j ≠ i ∧ s.mutex = some j) → E.view t = E.view s.shared) :
    Inv E G ⟨Function.update s.prog i p, m, t⟩ := by
  intro j
  by_cases hj : j = i
  · subst hj
    simp only [Function.update_self, knows]
    exact hthis
  · have hold := h j
    simp only [Function.update_of_ne hj, knows, hothers j hj] at hold ⊢
    split at hold
    · next hm =>
      rw [if_pos hm, hview ⟨j, hj, hm⟩]
      exact hold
    · next hm =>
      rw [if_neg hm]
      exact hold

theorem moved (h : s.Inv E G) {p : Prog Op Answer α} {m : Option τ} {t : σ}
    (hs : Moved E s i p m t) :
    Inv E G ⟨Function.update s.prog i p, m, t⟩ := by
  have hi := h i
  unfold knows at hi
  cases hs with
  | op hp hr =>
    rw [hp] at hi
    split at hi
    · next hm =>
      refine h.update ?_ (fun j _ => Iff.rfl) fun ⟨j, hj, hm'⟩ => ?_
      · rw [if_pos hm]
        exact hi.2.2 _ rfl
      · exact absurd (Option.some.inj (hm'.symm.trans hm)) hj
    · next hm =>
      refine h.update ?_ (fun j _ => Iff.rfl) fun _ => E.view_perform _ _ hi.1
      rw [if_neg hm]
      exact hi.2 _
  | lock hp hm =>
    rw [hp, if_neg (by rw [hm]; nofun)] at hi
    refine h.update ?_ (fun j hj => ?_) fun _ => rfl
    · rw [if_pos rfl]
      exact hi _
    · rw [hm]
      exact ⟨fun he => absurd (Option.some.inj he).symm hj, nofun⟩
  | unlock hp =>
    rw [hp] at hi
    split at hi
    · next hm =>
      refine h.update ?_ (fun j hj => ?_) fun _ => rfl
      · rw [if_neg nofun]
        exact hi
      · rw [hm]
        exact ⟨nofun, fun he => absurd (Option.some.inj he).symm hj⟩
    · exact hi.elim

theorem step (h : s.Inv E G) (hcode : ∀ c, (code c).Keeps E G none fun _ v => v = none)
    {l : PoolStep τ ι Ext} (hs : s.step E code l = some s') : s'.Inv E G := by
  cases l with
  | start i c =>
    simp only [Pool.step] at hs
    split at hs
    · next a hp =>
      cases hs
      refine h.update (i := i) ?_ (fun j _ => Iff.rfl) fun _ => rfl
      have hi := h i
      rw [hp] at hi
      change s.knows E i = none at hi
      change (code c).Keeps E G (s.knows E i) _
      rw [hi]
      exact hcode c
    · cases hs
  | run i =>
    obtain ⟨p, m, t, hmoved, rfl⟩ := next_moved hs
    exact h.moved hmoved
  | outside e =>
    cases hs
    intro i
    have hi := h i
    simp only [knows] at hi ⊢
    rw [E.view_external]
    exact hi

theorem reachable (hcode : ∀ c, (code c).Keeps E G none fun _ v => v = none) {init : σ → Prop}
    (h : (machine E code init).Reachable s) : s.Inv E G :=
  h.invariant (fun _ hs => .init hs.1 hs.2.1) fun _ _ _ hi _ hs => hi.step hcode hs

/-- A thread inside is at no `ret`, and waits for nothing. -/
theorem moves (h : s.Inv E G) (hm : s.mutex = some i) : (s.next E i).isSome := by
  have hi := h i
  rw [knows, if_pos hm] at hi
  unfold next
  cases hp : s.prog i with
  | ret a => rw [hp] at hi; cases hi
  | op o k =>
    rw [hp] at hi
    simp only [E.ready_of o _ hi.1, ↓reduceIte]
    rfl
  | lock k => rw [hp] at hi; exact hi.elim
  | unlock k => rfl

/-- At a guarded operation a thread is inside. -/
theorem inside (h : s.Inv E G) {o : Op} {k : Answer o → Prog Op Answer α} (hp : s.prog i = .op o k)
    (hg : E.guarded o) : s.mutex = some i ∧ G (E.view s.shared) o := by
  have hi := h i
  rw [hp, knows] at hi
  split at hi
  · next hm => exact ⟨hm, hi.2.1⟩
  · exact absurd hg (by rw [hi.1]; nofun)

end Inv

/-- Nobody can move. -/
def Quiet (E : Effects Op Answer σ V Ext) (s : Pool τ Op Answer σ α) : Prop :=
  ∀ i, s.next E i = none

/-- Nobody has the mutex, and who is not done waits for something that has not
happened. -/
structure Settled (E : Effects Op Answer σ V Ext) (s : Pool τ Op Answer σ α) : Prop where
  free : s.mutex = none
  done : ∀ i, (∃ a, s.prog i = .ret a) ∨
    ∃ o k, s.prog i = .op o k ∧ E.waits o ∧ E.ready o s.shared = false

theorem Inv.settled (h : s.Inv E G) (hq : s.Quiet E) : s.Settled E := by
  have hfree : s.mutex = none := by
    cases hm : s.mutex with
    | none => rfl
    | some i =>
      have hi := h.moves hm
      rw [hq i] at hi
      cases hi
  refine ⟨hfree, fun i => ?_⟩
  have hi := h i
  have hn := hq i
  rw [knows, if_neg (by rw [hfree]; nofun)] at hi
  unfold next at hn
  cases hp : s.prog i with
  | ret a => exact Or.inl ⟨a, rfl⟩
  | op o k =>
    rw [hp] at hn
    simp only at hn
    split at hn
    · cases hn
    · next hr =>
      refine Or.inr ⟨o, k, rfl, ?_, Bool.eq_false_of_not_eq_true hr⟩
      by_contra hw
      exact hr (E.ready_of o _ (Bool.eq_false_of_not_eq_true hw))
  | lock k =>
    simp only [hp, hfree, ↓reduceIte] at hn
    cases hn
  | unlock k => rw [hp] at hi; exact hi.elim

/-! ## Every run ends -/

/-- What is left to all threads, as ranks. -/
noncomputable def left (s : Pool τ Op Answer σ α) (i : τ) : Ordinal :=
  IsWellFounded.rank Prog.Child (s.prog i)

/-- The operation that a step of thread `i` performs. -/
def event (E : Effects Op Answer σ V Ext) (i : τ) (s : Pool τ Op Answer σ α) :
    PoolStep τ ι Ext → Option (Prog.Event Op Answer)
  | .run j =>
      if j = i then
        match s.prog i with
        | .op o _ => some ⟨o, (E.perform o s.shared).1⟩
        | _ => none
      else none
  | _ => none

/-- No program is started on thread `i`. -/
def Spares (i : τ) : PoolStep τ ι Ext → Prop
  | .start j _ => j ≠ i
  | _ => True

/-- A thread that starts is at its program. -/
theorem step_start {c : ι} (h : s.step E code (.start i c) = some s') : s'.prog i = code c := by
  simp only [step] at h
  split at h
  · cases h
    exact Function.update_self ..
  · cases h

theorem only_step {P : Op → Prop} (h : (s.prog i).Only P) {l : PoolStep τ ι Ext} (hl : Spares i l)
    (hs : s.step E code l = some s') : (s'.prog i).Only P := by
  cases l with
  | start j c =>
    simp only [step] at hs
    split at hs
    · cases hs
      simpa [set, Function.update_of_ne (Ne.symm hl)] using h
    · cases hs
  | run j =>
    obtain ⟨p, m, t, hmoved, rfl⟩ := next_moved hs
    by_cases hj : j = i
    · subst hj
      cases hmoved with
      | op hp hr =>
        rw [hp] at h
        simpa using h.2 _
      | lock hp hm | unlock hp =>
        rw [hp, Prog.Only] at h
        simpa using h
    · simpa [Function.update_of_ne (Ne.symm hj)] using h
  | outside e =>
    cases hs
    exact h

theorem only_run {P : Op → Prop} {init : σ → Prop} (h : (s.prog i).Only P)
    {ls : List (PoolStep τ ι Ext)} (hl : ∀ l ∈ ls, Spares i l)
    (he : (machine E code init).exec s ls = some s') : (s'.prog i).Only P := by
  induction ls generalizing s with
  | nil => cases he; exact h
  | cons l ls ih =>
    obtain ⟨s₁, h₁, he⟩ := Option.bind_eq_some_iff.mp he
    exact ih (only_step h (hl l List.mem_cons_self) h₁)
      (fun k hk => hl k (List.mem_cons_of_mem l hk)) he

/-- From its start on, a thread comes to operations of its program only. -/
theorem only_exec {P : Op → Prop} {init : σ → Prop} {c : ι} (hc : (code c).Only P)
    {ls : List (PoolStep τ ι Ext)} (hl : ∀ l ∈ ls, Spares i l)
    (he : (machine E code init).exec s (.start i c :: ls) = some s') : (s'.prog i).Only P := by
  obtain ⟨s₁, h₁, he⟩ := Option.bind_eq_some_iff.mp he
  have hstart : s₁.prog i = code c := step_start (E := E) h₁
  exact only_run (hstart ▸ hc) hl he

/-! ## One thread by itself -/

theorem exec_run {init : σ → Prop} (h : s.next E i = some s') (n : Nat) :
    (machine E code init).exec s (List.replicate (n + 1) (.run i)) =
      (machine E code init).exec s' (List.replicate n (.run i)) := by
  rw [List.replicate_succ, Machine.exec]
  change (s.next E i).bind _ = _
  rw [h, Option.bind_some]

/-- Scheduled until it is done while the others rest, a thread does what its
program does alone. -/
theorem exec_alone {G : V → Op → Prop} {init : σ → Prop} {p : Prog Op Answer α} (hp : s.prog i = p)
    (hk : p.Keeps E G (s.knows E i) fun _ v => v = none) (hm : s.mutex = none ∨ s.mutex = some i)
    (hc : p.Clear E s.shared) :
    ∃ n, (machine E code init).exec s (List.replicate n (.run i)) =
      some ⟨Function.update s.prog i (.ret (p.alone E s.shared).1), none,
        (p.alone E s.shared).2⟩ := by
  induction p generalizing s with
  | ret a =>
    have hfree : s.mutex = none := by
      rcases hm with hm | hm
      · exact hm
      · rw [knows, if_pos hm] at hk
        cases hk
    refine ⟨0, ?_⟩
    change some s = some ⟨Function.update s.prog i (.ret a), none, s.shared⟩
    rw [← hp, Function.update_eq_self, ← hfree]
  | op o k ih =>
    have hnext : s.next E i =
        some { s.set i (k (E.perform o s.shared).1) with shared := (E.perform o s.shared).2 } := by
      simp only [next, hp, hc.1, ↓reduceIte]
    obtain ⟨n, hn⟩ := ih (E.perform o s.shared).1
      (s := { s.set i (k (E.perform o s.shared).1) with shared := (E.perform o s.shared).2 })
      (Function.update_self ..) (by
        rw [knows] at hk ⊢
        change Prog.Keeps E G _ (if s.mutex = some i then _ else _) _
        split at hk
        · next hin => rw [if_pos hin]; exact hk.2.2 _ rfl
        · next hin => rw [if_neg hin]; exact hk.2 _) hm hc.2
    refine ⟨n + 1, (exec_run hnext n).trans (hn.trans ?_)⟩
    simp only [set, Function.update_idem]
    rfl
  | lock k ih =>
    have hfree : s.mutex = none := by
      rcases hm with hm | hm
      · exact hm
      · rw [knows, if_pos hm] at hk
        exact hk.elim
    have hnext : s.next E i = some { s.set i k with mutex := some i } := by
      simp only [next, hp, hfree, ↓reduceIte]
    obtain ⟨n, hn⟩ := ih (s := { s.set i k with mutex := some i }) (Function.update_self ..) (by
        rw [knows, if_neg (by rw [hfree]; nofun)] at hk
        rw [knows, if_pos rfl]
        exact hk _) (Or.inr rfl) hc
    refine ⟨n + 1, (exec_run hnext n).trans (hn.trans ?_)⟩
    simp only [set, Function.update_idem]
    rfl
  | unlock k ih =>
    have hnext : s.next E i = some { s.set i k with mutex := none } := by
      simp only [next, hp]
    obtain ⟨n, hn⟩ := ih (s := { s.set i k with mutex := none }) (Function.update_self ..) (by
        rw [knows] at hk
        rw [knows, if_neg nofun]
        split at hk
        · exact hk
        · exact hk.elim) (Or.inl rfl) hc
    refine ⟨n + 1, (exec_run hnext n).trans (hn.trans ?_)⟩
    simp only [set, Function.update_idem]
    rfl

end Pool

end MyChat
