import MyChat.Lib.Simulation
import MyChat.ServerRun

/-! `DbTaskQueue` at the level of its mutex and condition variable: any number
of threads push and pop, one step of one thread at a time, and a waiting thread
may wake for no reason. What they do to the queue is what the list in `Server`
does, and no task waits while a thread sleeps for it. -/

namespace MyChat.TaskQueue

/-! ## The queue as a list -/

inductive QueueEvent (α : Type)
  | push (task : α)
  | pop (task : α)
  deriving DecidableEq, Repr

variable {τ α : Type}

/-- One push or pop as one step. -/
def atomic [DecidableEq α] : Machine (List α) (QueueEvent α) where
  init q := q = []
  step q
    | .push task => some (q ++ [task])
    | .pop task => if q.head? = some task then some q.tail else none

def pushed (evs : List (QueueEvent α)) : List α :=
  evs.filterMap fun
    | .push task => some task
    | .pop _ => none

def popped (evs : List (QueueEvent α)) : List α :=
  evs.filterMap fun
    | .push _ => none
    | .pop task => some task

/-- What was pushed has been popped, in this order, or is still in the queue. -/
theorem pushed_eq [DecidableEq α] {evs : List (QueueEvent α)} {q q' : List α}
    (h : atomic.exec q evs = some q') : q ++ pushed evs = popped evs ++ q' := by
  induction evs generalizing q with
  | nil => cases h; simp [pushed, popped]
  | cons e evs ih =>
    obtain ⟨q₁, h₁, h⟩ := Option.bind_eq_some_iff.mp h
    have hrest := ih h
    cases e with
    | push task =>
      cases h₁
      rw [List.append_assoc] at hrest
      exact hrest
    | pop task =>
      simp only [atomic] at h₁
      split at h₁
      · next hhead =>
        cases h₁
        obtain ⟨rest, rfl⟩ : ∃ rest, q = task :: rest := by
          cases q with
          | nil => cases hhead
          | cons a rest => cases hhead; exact ⟨rest, rfl⟩
        exact congrArg (task :: ·) hrest
      · cases h₁

/-! ## Threads -/

/-- Where a thread is: outside, in `push` or in `pop`. -/
inductive Pc (α : Type)
  | idle
  /-- In `push`, before `lock_guard` has the mutex. -/
  | entering (task : α)
  /-- Before `dbQueue.push`. -/
  | pushing (task : α)
  /-- Before `notify_one`. -/
  | notifying
  /-- Before the guard lets go. -/
  | leaving
  /-- In `pop`, at its start or just woken, without the mutex. -/
  | acquiring
  /-- Before the predicate of `wait`. -/
  | testing
  /-- Asleep in `wait`, without the mutex. -/
  | waiting
  /-- Before `front`. -/
  | taking
  /-- Before `dbQueue.pop`. -/
  | removing (task : α)
  /-- Before the lock goes with the return. -/
  | returning (task : α)
  deriving DecidableEq, Repr

namespace Pc

/-- Has the mutex. -/
def holds : Pc α → Bool
  | pushing _ | notifying | leaving | testing | taking | removing _ | returning _ => true
  | idle | entering _ | acquiring | waiting => false

/-- Will look at the queue, or wake a thread that will. -/
def attends : Pc α → Bool
  | notifying | acquiring | testing | taking | removing _ => true
  | idle | entering _ | pushing _ | leaving | waiting | returning _ => false

/-- Steps that are left, those of a woken thread included. -/
def effort : Pc α → Nat
  | idle | waiting => 0
  | leaving | returning _ => 1
  | removing _ => 2
  | taking => 3
  | testing => 4
  | acquiring => 5
  | notifying => 7
  | pushing _ => 8
  | entering _ => 9

end Pc

structure Monitor (τ α : Type) where
  pc : τ → Pc α
  dbMtx : Option τ
  dbQueue : List α

inductive MonitorStep (τ α : Type)
  | callPush (i : τ) (task : α)
  | callPop (i : τ)
  /-- A waiting thread wakes although nobody notified it. -/
  | spurious (i : τ)
  /-- `notify_one` of thread `i`; `j` is the thread it wakes, none when none waits. -/
  | notify (i : τ) (j : Option τ)
  /-- The next step of thread `i`, other than `notify_one`. -/
  | run (i : τ)

/-- A step of a thread already inside a function. -/
def MonitorStep.inside : MonitorStep τ α → Prop
  | .run _ | .notify _ _ => True
  | .callPush _ _ | .callPop _ | .spurious _ => False

namespace Monitor

variable [DecidableEq τ]

def set (i : τ) (c : Pc α) (s : Monitor τ α) : Monitor τ α :=
  { s with pc := Function.update s.pc i c }

@[simp] theorem set_dbMtx (i : τ) (c : Pc α) (s : Monitor τ α) : (s.set i c).dbMtx = s.dbMtx := rfl

theorem set_pc (i : τ) (c : Pc α) (s : Monitor τ α) (k : τ) :
    (s.set i c).pc k = if k = i then c else s.pc k := by
  simp only [set, Function.update_apply]

/-- `front` on an empty queue is undefined: no step. -/
def run (i : τ) (s : Monitor τ α) : Option (Monitor τ α) :=
  match s.pc i with
  | .entering task =>
      if s.dbMtx = none then some { s.set i (.pushing task) with dbMtx := some i } else none
  | .pushing task => some { s.set i .notifying with dbQueue := s.dbQueue ++ [task] }
  | .leaving => some { s.set i .idle with dbMtx := none }
  | .acquiring => if s.dbMtx = none then some { s.set i .testing with dbMtx := some i } else none
  | .testing =>
      if s.dbQueue = [] then some { s.set i .waiting with dbMtx := none }
      else some (s.set i .taking)
  | .taking => s.dbQueue.head?.map fun task => s.set i (.removing task)
  | .removing task => some { s.set i (.returning task) with dbQueue := s.dbQueue.tail }
  | .returning _ => some { s.set i .idle with dbMtx := none }
  | .idle | .notifying | .waiting => none

section
variable [Fintype τ] [DecidableEq α]

def step (s : Monitor τ α) : MonitorStep τ α → Option (Monitor τ α)
  | .callPush i task => if s.pc i = .idle then some (s.set i (.entering task)) else none
  | .callPop i => if s.pc i = .idle then some (s.set i .acquiring) else none
  | .spurious i => if s.pc i = .waiting then some (s.set i .acquiring) else none
  | .notify i (some j) =>
      if s.pc i = .notifying ∧ s.pc j = .waiting then some ((s.set i .leaving).set j .acquiring)
      else none
  | .notify i none =>
      if s.pc i = .notifying ∧ ∀ j, s.pc j ≠ .waiting then some (s.set i .leaving) else none
  | .run i => s.run i

/-- No thread in the queue's functions, and nothing queued. -/
def start : Monitor τ α := ⟨fun _ => .idle, none, []⟩

def machine : Machine (Monitor τ α) (MonitorStep τ α) where
  init s := s = start
  step := step

end

/-- What a step does to the queue. -/
def event (s : Monitor τ α) : MonitorStep τ α → Option (QueueEvent α)
  | .run i =>
      match s.pc i with
      | .pushing task => some (.push task)
      | .removing task => some (.pop task)
      | _ => none
  | _ => none

/-! ## What a step does -/

/-- A step of one thread by itself: where it is afterwards, with the mutex and
the queue it leaves. -/
inductive Moved (s : Monitor τ α) (i : τ) : Pc α → Option τ → List α → Prop
  | entered {task : α} (h : s.pc i = .entering task) (hm : s.dbMtx = none) :
      Moved s i (.pushing task) (some i) s.dbQueue
  | pushed {task : α} (h : s.pc i = .pushing task) :
      Moved s i .notifying s.dbMtx (s.dbQueue ++ [task])
  | left (h : s.pc i = .leaving) : Moved s i .idle none s.dbQueue
  | acquired (h : s.pc i = .acquiring) (hm : s.dbMtx = none) : Moved s i .testing (some i) s.dbQueue
  | slept (h : s.pc i = .testing) (hq : s.dbQueue = []) : Moved s i .waiting none s.dbQueue
  | tested (h : s.pc i = .testing) (hq : s.dbQueue ≠ []) : Moved s i .taking s.dbMtx s.dbQueue
  | took {task : α} {rest : List α} (h : s.pc i = .taking) (hq : s.dbQueue = task :: rest) :
      Moved s i (.removing task) s.dbMtx s.dbQueue
  | removed {task : α} (h : s.pc i = .removing task) :
      Moved s i (.returning task) s.dbMtx s.dbQueue.tail
  | returned {task : α} (h : s.pc i = .returning task) : Moved s i .idle none s.dbQueue

variable {s s' : Monitor τ α} {i : τ}

theorem run_moved (h : s.run i = some s') :
    ∃ c m q, Moved s i c m q ∧ s' = ⟨Function.update s.pc i c, m, q⟩ := by
  unfold run at h
  split at h
  · next hpc =>
    split at h
    · next hm => cases h; exact ⟨_, _, _, .entered hpc hm, rfl⟩
    · cases h
  · next hpc => cases h; exact ⟨_, _, _, .pushed hpc, rfl⟩
  · next hpc => cases h; exact ⟨_, _, _, .left hpc, rfl⟩
  · next hpc =>
    split at h
    · next hm => cases h; exact ⟨_, _, _, .acquired hpc hm, rfl⟩
    · cases h
  · next hpc =>
    split at h
    · next hq => cases h; exact ⟨_, _, _, .slept hpc hq, rfl⟩
    · next hq => cases h; exact ⟨_, _, _, .tested hpc hq, rfl⟩
  · next hpc =>
    cases hq : s.dbQueue with
    | nil => rw [hq] at h; cases h
    | cons task rest =>
      rw [hq] at h
      cases h
      exact ⟨_, _, _, .took hpc hq, rfl⟩
  · next hpc => cases h; exact ⟨_, _, _, .removed hpc, rfl⟩
  · next hpc => cases h; exact ⟨_, _, _, .returned hpc, rfl⟩
  all_goals cases h

/-! ## The invariant -/

variable [Fintype τ]

/-- Threads that will look at the queue or wake one that will. -/
def attending (s : Monitor τ α) : Nat := ∑ i, (s.pc i).attends.toNat

/-- Steps left to all threads together. -/
def effort (s : Monitor τ α) : Nat := ∑ i, (s.pc i).effort

theorem effort_update (s : Monitor τ α) (i : τ) (c : Pc α) (m : Option τ) (q : List α) :
    effort ⟨Function.update s.pc i c, m, q⟩ + (s.pc i).effort = s.effort + c.effort :=
  sum_update Pc.effort s.pc i c

omit [Fintype τ] [DecidableEq τ] in
theorem effort_moved {c : Pc α} {m : Option τ} {q : List α} (h : Moved s i c m q) :
    c.effort < (s.pc i).effort := by
  cases h with
  | entered hpc | pushed hpc | left hpc | acquired hpc | slept hpc | tested hpc | took hpc
  | removed hpc | returned hpc => rw [hpc]; simp [Pc.effort]

/-- One thread at a time is inside and finds the queue as it left it. As long as
a thread sleeps, there is somebody to attend to each task. -/
structure Inv (s : Monitor τ α) : Prop where
  owner : ∀ i, (s.pc i).holds ↔ s.dbMtx = some i
  taking : ∀ i, s.pc i = .taking → s.dbQueue ≠ []
  removing : ∀ i task, s.pc i = .removing task → s.dbQueue.head? = some task
  attended : ∀ j, s.pc j = .waiting → s.dbQueue.length ≤ s.attending

namespace Inv

omit [DecidableEq τ] in
theorem start : Inv (start : Monitor τ α) := by
  refine ⟨fun i => ?_, fun i h => ?_, fun i task h => ?_, fun j h => ?_⟩
  · simp [Monitor.start, Pc.holds]
  all_goals cases h

theorem attending_update (s : Monitor τ α) (i : τ) (c : Pc α) (m : Option τ) (q : List α) :
    attending ⟨Function.update s.pc i c, m, q⟩ + (s.pc i).attends.toNat =
      s.attending + c.attends.toNat :=
  sum_update (fun c : Pc α => c.attends.toNat) s.pc i c

/-- One thread moves. Who else is inside stays, and the queue changes only
under the mutex. -/
theorem update (h : Inv s) {c : Pc α} {m : Option τ} {q : List α} (howner : c.holds ↔ m = some i)
    (hothers : ∀ j, j ≠ i → (m = some j ↔ s.dbMtx = some j))
    (hqueue : q = s.dbQueue ∨ (s.pc i).holds) (htaking : c = .taking → q ≠ [])
    (hremoving : ∀ task, c = .removing task → q.head? = some task)
    (hwaiting : c = .waiting → q = [])
    (hcount : q.length + (s.pc i).attends.toNat ≤ s.dbQueue.length + c.attends.toNat ∨ q = []) :
    Inv ⟨Function.update s.pc i c, m, q⟩ := by
  -- a thread inside finds the queue as it was
  have hsame : ∀ j, j ≠ i → (s.pc j).holds → q = s.dbQueue := by
    intro j hj hin
    rcases hqueue with hq | hi
    · exact hq
    · have hji := ((h.owner j).mp hin).symm.trans ((h.owner i).mp hi)
      exact absurd (Option.some.inj hji) hj
  refine ⟨fun j => ?_, fun j hj => ?_, fun j task hj => ?_, fun j hj => ?_⟩
  · by_cases hji : j = i
    · subst hji
      simpa using howner
    · simp only [Function.update_of_ne hji]
      exact (h.owner j).trans (hothers j hji).symm
  · by_cases hji : j = i
    · subst hji
      exact htaking (by simpa using hj)
    · simp only [Function.update_of_ne hji] at hj
      have hq := hsame j hji (by rw [hj]; rfl)
      exact hq ▸ h.taking j hj
  · by_cases hji : j = i
    · subst hji
      exact hremoving task (by simpa using hj)
    · simp only [Function.update_of_ne hji] at hj
      have hq := hsame j hji (by rw [hj]; rfl)
      exact hq ▸ h.removing j task hj
  · have hsum := attending_update s i c m q
    by_cases hji : j = i
    · subst hji
      rw [hwaiting (by simpa using hj)]
      exact Nat.zero_le _
    · simp only [Function.update_of_ne hji] at hj
      have hold := h.attended j hj
      rcases hcount with hle | hnil
      · show q.length ≤ _
        omega
      · rw [hnil]
        exact Nat.zero_le _

omit [Fintype τ] [DecidableEq τ] in
/-- A step that takes the mutex. -/
theorem lock (hm : s.dbMtx = none) {j : τ} (hj : j ≠ i) : some i = some j ↔ s.dbMtx = some j := by
  rw [hm]
  exact ⟨fun he => absurd (Option.some.inj he).symm hj, fun he => by cases he⟩

omit [DecidableEq τ] in
/-- A step that lets the mutex go. -/
theorem unlock (h : Inv s) (hi : (s.pc i).holds) {j : τ} (hj : j ≠ i) :
    none = some j ↔ s.dbMtx = some j := by
  rw [(h.owner i).mp hi]
  exact ⟨nofun, fun he => absurd (Option.some.inj he).symm hj⟩

theorem moved (h : Inv s) {c : Pc α} {m : Option τ} {q : List α} (hs : Moved s i c m q) :
    Inv ⟨Function.update s.pc i c, m, q⟩ := by
  have hkeep : ∀ {c' : Pc α}, s.pc i = c' → c'.holds → s.dbMtx = some i :=
    fun hpc hin => (h.owner i).mp (hpc ▸ hin)
  cases hs with
  | entered hpc hm =>
    exact h.update (by simp [Pc.holds]) (fun j => lock hm) (Or.inl rfl) nofun nofun nofun
      (Or.inl (by simp [hpc, Pc.attends]))
  | acquired hpc hm =>
    exact h.update (by simp [Pc.holds]) (fun j => lock hm) (Or.inl rfl) nofun nofun nofun
      (Or.inl (by simp [hpc, Pc.attends]))
  | pushed hpc =>
    exact h.update (by simp [Pc.holds, hkeep hpc rfl]) (fun j _ => Iff.rfl)
      (Or.inr (by rw [hpc]; rfl))
      nofun nofun nofun (Or.inl (by simp [hpc, Pc.attends]))
  | left hpc =>
    exact h.update (by simp [Pc.holds]) (fun j => h.unlock (by rw [hpc]; rfl)) (Or.inl rfl)
      nofun nofun
      nofun (Or.inl (by simp [hpc, Pc.attends]))
  | slept hpc hq =>
    exact h.update (by simp [Pc.holds]) (fun j => h.unlock (by rw [hpc]; rfl)) (Or.inl rfl)
      nofun nofun
      (fun _ => hq) (Or.inr hq)
  | tested hpc hq =>
    exact h.update (by simp [Pc.holds, hkeep hpc rfl]) (fun j _ => Iff.rfl) (Or.inl rfl)
      (fun _ => hq)
      nofun nofun (Or.inl (by simp [hpc, Pc.attends]))
  | took hpc hq =>
    refine h.update (by simp [Pc.holds, hkeep hpc rfl]) (fun j _ => Iff.rfl) (Or.inl rfl) nofun
      (fun task ht => ?_) nofun (Or.inl (by simp [hpc, Pc.attends]))
    cases ht
    rw [hq, List.head?_cons]
  | removed hpc =>
    refine h.update (by simp [Pc.holds, hkeep hpc rfl]) (fun j _ => Iff.rfl)
      (Or.inr (by rw [hpc]; rfl))
      nofun nofun nofun (Or.inl ?_)
    have hhead := h.removing i _ hpc
    cases hq : s.dbQueue with
    | nil => rw [hq] at hhead; cases hhead
    | cons a rest => simp [hpc, Pc.attends]
  | returned hpc =>
    exact h.update (by simp [Pc.holds]) (fun j => h.unlock (by rw [hpc]; rfl)) (Or.inl rfl)
      nofun nofun
      nofun (Or.inl (by simp [hpc, Pc.attends]))

/-- A thread outside enters a function or wakes. -/
theorem outside (h : Inv s) {c : Pc α} (hi : (s.pc i).attends = false)
    (hin : (s.pc i).holds = false) (hc : c.holds = false) (hw : c ≠ .waiting) :
    Inv (s.set i c) := by
  have hm : s.dbMtx ≠ some i := fun hm => by
    rw [(h.owner i).mpr hm] at hin
    cases hin
  refine h.update (by simp [hc, hm]) (fun j _ => Iff.rfl) (Or.inl rfl) ?_ ?_
    (fun he => absurd he hw)
    (Or.inl (by simp [hi]))
  · rintro rfl
    cases hc
  · rintro task rfl
    cases hc

/-- The notified thread takes the place of the one that notified it. -/
theorem notify (h : Inv s) {j : τ} (hi : s.pc i = .notifying) (hj : s.pc j = .waiting) :
    Inv ((s.set i .leaving).set j .acquiring) := by
  have hji : j ≠ i := fun he => by
    rw [he, hi] at hj
    cases hj
  have hsum : attending ((s.set i .leaving).set j .acquiring) = s.attending := by
    have h₁ := attending_update s i .leaving s.dbMtx s.dbQueue
    have h₂ := attending_update (s.set i .leaving) j .acquiring s.dbMtx s.dbQueue
    have hpc : (s.set i .leaving).pc j = .waiting := by
      rw [set_pc, if_neg hji, hj]
    rw [hi] at h₁
    rw [hpc] at h₂
    simp only [Pc.attends, Bool.toNat_true, Bool.toNat_false] at h₁ h₂
    change attending ((s.set i .leaving).set j .acquiring) + 0 =
      attending (s.set i .leaving) + 1 at h₂
    change attending (s.set i .leaving) + 1 = s.attending + 0 at h₁
    omega
  refine ⟨fun k => ?_, fun k hk => ?_, fun k task hk => ?_, fun k hk => ?_⟩
  · rw [set_pc, set_pc]
    split
    · next he =>
      have hout := h.owner j
      rw [hj] at hout
      rw [he]
      simpa [Pc.holds] using hout
    · split
      · next he =>
        have hin := h.owner i
        rw [hi] at hin
        rw [he]
        simpa [Pc.holds] using hin
      · exact h.owner k
  all_goals
    rw [set_pc, set_pc] at hk
    split at hk
    · cases hk
    split at hk
    · cases hk
  · exact h.taking k hk
  · exact h.removing k task hk
  · rw [hsum]
    exact h.attended k hk

theorem notifyNone (h : Inv s) (hi : s.pc i = .notifying) (hnone : ∀ j, s.pc j ≠ .waiting) :
    Inv (s.set i .leaving) := by
  have hm : s.dbMtx = some i := (h.owner i).mp (by rw [hi]; rfl)
  refine ⟨fun k => ?_, fun k hk => ?_, fun k task hk => ?_, fun k hk => ?_⟩
  · rw [set_pc]
    split
    · next he =>
      rw [he]
      exact iff_of_true rfl hm
    · exact h.owner k
  all_goals
    rw [set_pc] at hk
    split at hk
    · cases hk
  · exact h.taking k hk
  · exact h.removing k task hk
  · exact absurd hk (hnone k)

theorem step [DecidableEq α] (h : Inv s) {l : MonitorStep τ α} (hs : s.step l = some s') :
    Inv s' := by
  cases l with
  | callPush i task =>
    simp only [Monitor.step] at hs
    split at hs
    · next hpc => cases hs; exact h.outside (by rw [hpc]; rfl) (by rw [hpc]; rfl) rfl nofun
    · cases hs
  | callPop i =>
    simp only [Monitor.step] at hs
    split at hs
    · next hpc => cases hs; exact h.outside (by rw [hpc]; rfl) (by rw [hpc]; rfl) rfl nofun
    · cases hs
  | spurious i =>
    simp only [Monitor.step] at hs
    split at hs
    · next hpc => cases hs; exact h.outside (by rw [hpc]; rfl) (by rw [hpc]; rfl) rfl nofun
    · cases hs
  | notify i j =>
    cases j with
    | none =>
      simp only [Monitor.step] at hs
      split at hs
      · next hpc => cases hs; exact h.notifyNone hpc.1 hpc.2
      · cases hs
    | some j =>
      simp only [Monitor.step] at hs
      split at hs
      · next hpc => cases hs; exact h.notify hpc.1 hpc.2
      · cases hs
  | run i =>
    obtain ⟨c, m, q, hmoved, rfl⟩ := run_moved hs
    exact h.moved hmoved

end Inv

/-! ## Refinement -/

variable [DecidableEq α]

/-- A step without an event leaves the queue alone. -/
theorem dbQueue_step {l : MonitorStep τ α} (hev : event s l = none) (hs : s.step l = some s') :
    s'.dbQueue = s.dbQueue := by
  cases l with
  | callPush i task | callPop i | spurious i =>
    simp only [step] at hs
    split at hs
    · cases hs; rfl
    · cases hs
  | notify i j =>
    cases j with
    | none | some j =>
      simp only [step] at hs
      split at hs
      · cases hs; rfl
      · cases hs
  | run i =>
    obtain ⟨c, m, q, hmoved, rfl⟩ := run_moved hs
    cases hmoved with
    | pushed hpc | removed hpc => rw [event, hpc] at hev; cases hev
    | _ => rfl

/-- Under the mutex, a push and a pop are the atomic ones. -/
theorem machine_simulates :
    (machine (τ := τ) (α := α)).Simulates atomic Inv dbQueue event where
  init := by
    rintro s rfl
    exact ⟨Inv.start, rfl⟩
  keeps s l s' h hs := h.step hs
  silent s l s' _ hs hev := dbQueue_step hev hs
  step s l s' e h hs hev := by
    cases l with
    | run i =>
      obtain ⟨c, m, q, hmoved, rfl⟩ := run_moved hs
      cases hmoved with
      | pushed hpc =>
        rw [event, hpc] at hev
        cases hev
        rfl
      | removed hpc =>
        rw [event, hpc] at hev
        cases hev
        simp only [atomic, h.removing i _ hpc, ↓reduceIte]
      | entered hpc | left hpc | acquired hpc | slept hpc | tested hpc | took hpc | returned hpc =>
        rw [event, hpc] at hev
        cases hev
    | _ => cases hev

/-! ## Progress -/

theorem effort_step {l : MonitorStep τ α} (hl : l.inside) (hs : s.step l = some s') :
    s'.effort < s.effort := by
  cases l with
  | run i =>
    obtain ⟨c, m, q, hmoved, rfl⟩ := run_moved hs
    have hsum := effort_update s i c m q
    have hlt := effort_moved hmoved
    omega
  | notify i j =>
    cases j with
    | none =>
      simp only [step] at hs
      split at hs
      · next hpc =>
        cases hs
        have hsum := effort_update s i .leaving s.dbMtx s.dbQueue
        rw [hpc.1] at hsum
        simp only [Pc.effort] at hsum
        show effort ⟨Function.update s.pc i .leaving, s.dbMtx, s.dbQueue⟩ < _
        omega
      · cases hs
    | some j =>
      simp only [step] at hs
      split at hs
      · next hpc =>
        cases hs
        have h₁ := effort_update s i .leaving s.dbMtx s.dbQueue
        have h₂ := effort_update (s.set i .leaving) j .acquiring s.dbMtx s.dbQueue
        rw [hpc.1] at h₁
        simp only [Pc.effort] at h₁ h₂
        change effort ((s.set i .leaving).set j .acquiring) + _ =
          effort (s.set i .leaving) + 5 at h₂
        change effort (s.set i .leaving) + 7 = s.effort + 1 at h₁
        omega
      · cases hs
  | callPush i task | callPop i | spurious i => exact absurd hl (by simp [MonitorStep.inside])

/-- No thread inside a function can move. -/
def Quiet (s : Monitor τ α) : Prop := ∀ l : MonitorStep τ α, l.inside → s.step l = none

/-- Nobody wants the mutex or has it, and a thread sleeps only if nothing is
queued. -/
structure Settled (s : Monitor τ α) : Prop where
  outside : ∀ i, s.pc i = .idle ∨ s.pc i = .waiting
  free : s.dbMtx = none
  served : ∀ i, s.pc i = .waiting → s.dbQueue = []

/-- Whoever has the mutex can move. -/
theorem Inv.moves (h : Inv s) (hi : (s.pc i).holds) : ¬ s.Quiet := by
  intro hquiet
  have hrun : s.run i = none := hquiet (.run i) trivial
  unfold run at hrun
  cases hpc : s.pc i with
  | idle | entering task | acquiring | waiting => rw [hpc] at hi; cases hi
  | pushing task | leaving | removing task | returning task => rw [hpc] at hrun; cases hrun
  | testing =>
    rw [hpc] at hrun
    simp only at hrun
    split at hrun <;> cases hrun
  | taking =>
    rw [hpc] at hrun
    have hne := h.taking i hpc
    cases hq : s.dbQueue with
    | nil => exact hne hq
    | cons task rest => rw [hq] at hrun; cases hrun
  | notifying =>
    by_cases hw : ∃ j, s.pc j = .waiting
    · obtain ⟨j, hj⟩ := hw
      have hnone := hquiet (.notify i (some j)) trivial
      simp only [Monitor.step, hpc, hj, and_self, ↓reduceIte] at hnone
      cases hnone
    · have hall : ∀ j, s.pc j ≠ .waiting := fun j hj => hw ⟨j, hj⟩
      have hnone := hquiet (.notify i none) trivial
      rw [Monitor.step, if_pos ⟨hpc, hall⟩] at hnone
      cases hnone

theorem Inv.settled (h : Inv s) (hquiet : s.Quiet) : s.Settled := by
  have hfree : s.dbMtx = none := by
    cases hm : s.dbMtx with
    | none => rfl
    | some i => exact absurd hquiet (h.moves ((h.owner i).mpr hm))
  have houtside : ∀ i, s.pc i = .idle ∨ s.pc i = .waiting := by
    intro i
    have hrun : s.run i = none := hquiet (.run i) trivial
    have hout : ¬ (s.pc i).holds := fun hin => h.moves hin hquiet
    cases hpc : s.pc i with
    | idle => exact Or.inl rfl
    | waiting => exact Or.inr rfl
    | entering task | acquiring =>
      simp only [run, hpc, hfree, ↓reduceIte] at hrun
      cases hrun
    | pushing task | notifying | leaving | testing | taking | removing task | returning task =>
      rw [hpc] at hout
      exact absurd rfl hout
  refine ⟨houtside, hfree, fun i hi => ?_⟩
  have hnobody : s.attending = 0 := by
    refine Finset.sum_eq_zero fun j _ => ?_
    rcases houtside j with hj | hj <;> rw [hj] <;> rfl
  have hlen := h.attended i hi
  rw [hnobody] at hlen
  exact List.length_eq_zero_iff.mp (Nat.le_zero.mp hlen)

end Monitor

/-! ## Runs -/

variable [Fintype τ] [DecidableEq τ] [DecidableEq α]

/-- In every run, whoever pushes and pops and whichever threads wake, the tasks
pushed are those popped, in this order, and then those in the queue. -/
theorem tasks_fifo {ls : List (MonitorStep τ α)} {s : Monitor τ α}
    (h : Monitor.machine.exec Monitor.start ls = some s) :
    pushed (Monitor.machine.trace Monitor.event Monitor.start ls) =
      popped (Monitor.machine.trace Monitor.event Monitor.start ls) ++ s.dbQueue := by
  have hexec := Monitor.machine_simulates.exec (Monitor.Inv.start (τ := τ) (α := α)) h
  exact pushed_eq hexec

namespace Sample

def first : Fin 2 := Fin.castSucc (Fin.last 0)

def second : Fin 2 := Fin.last 1

/-- The worker sleeps on the empty queue until the first thread has pushed, and
takes the task. -/
def woken (task : DbTaskArgs) : List (MonitorStep (Fin 2) DbTaskArgs) :=
  [.callPop second, .run second, .run second, .callPush first task, .run first, .run first,
    .notify first (some second), .run first, .run second, .run second, .run second, .run second,
    .run second]

def task : DbTaskArgs := updateStateTask 1 online

theorem woken_runs : (Monitor.machine.exec Monitor.start (woken task)).isSome := by decide +kernel

theorem asleep_runs : (Monitor.machine.exec Monitor.start ((woken task).take 4)).isSome := by
  decide +kernel

theorem wakes_runs :
    (Monitor.machine.exec (Option.get _ asleep_runs) ((woken task).drop 4)).isSome := by
  decide +kernel

end Sample

theorem tasks_fifo_woken :
    popped (Monitor.machine.trace Monitor.event Monitor.start (Sample.woken Sample.task)) =
      [Sample.task] ∧
      pushed (Monitor.machine.trace Monitor.event Monitor.start (Sample.woken Sample.task)) =
        popped (Monitor.machine.trace Monitor.event Monitor.start (Sample.woken Sample.task)) ++
          (Option.get _ Sample.woken_runs).dbQueue :=
  ⟨by decide +kernel, tasks_fifo (Option.some_get Sample.woken_runs).symm⟩

/-- Threads inside the queue's functions come to rest by themselves, and then
none of them sleeps while a task is queued. -/
theorem no_task_waits {s s' : Monitor τ α} (h : Monitor.machine.Reachable s)
    {ls : List (MonitorStep τ α)} (hl : ∀ l ∈ ls, l.inside)
    (he : Monitor.machine.exec s ls = some s') :
    ls.length ≤ s.effort ∧ (s'.Quiet → s'.Settled) := by
  have hinv : s.Inv := Monitor.machine_simulates.reachable h
  have hinv' : s'.Inv :=
    Monitor.machine_simulates.reachable (h.exec (fun _ _ _ => trivial) he)
  refine ⟨?_, hinv'.settled⟩
  have hlt : ∀ (s : Monitor τ α) l s', s.Inv → l.inside → Monitor.machine.step s l = some s' →
      s'.effort < s.effort := fun s l s' _ hin hs => Monitor.effort_step hin hs
  have hle := Machine.length_le_of_exec (C := Monitor.machine) Monitor.effort
    (fun s l s' hi hs => Monitor.Inv.step hi hs) hlt hinv hl he
  omega

theorem no_task_waits_woken :
    ((Sample.woken Sample.task).drop 4).length ≤ (Option.get _ Sample.asleep_runs).effort ∧
      ((Option.get _ Sample.wakes_runs).Quiet → (Option.get _ Sample.wakes_runs).Settled) := by
  refine no_task_waits (Machine.reachable_exec (M := Monitor.machine) rfl Sample.asleep_runs)
    (fun l hl => ?_)
    (Option.some_get Sample.wakes_runs).symm
  simp only [Sample.woken, List.drop_succ_cons, List.drop_zero, List.mem_cons, List.not_mem_nil,
    or_false] at hl
  rcases hl with rfl | rfl | rfl | rfl | rfl | rfl | rfl | rfl | rfl <;> trivial

end MyChat.TaskQueue
