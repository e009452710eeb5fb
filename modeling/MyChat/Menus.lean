import MyChat.Commands
import MyChat.Lib.IStream
import MyChat.Lib.JsonText
import MyChat.Lib.Machine
import MyChat.Reassembly

/-! The loops of `main` and `mainMenu` on the console's input, with the receiving
and the timeout thread between their iterations. Only what is read matters:
neither loop looks at the state of the stream. -/

namespace MyChat
open Json

/-- Where the main thread stands: in a loop, or in the login between the send and
the test of the flag. `isMainMenuRunning` is `mainMenu`. -/
inductive Place
  | choosing
  | sent
  | waiting
  | woken
  | mainMenu
  /-- The process has ended. -/
  | left
  deriving DecidableEq, Repr

/-- The process, with the calls of `encryptedMessage` so far. -/
structure Menus where
  cin : IStream
  place : Place
  client : ClientState Bytes
  requests : List Request

inductive MenuStep
  /-- An iteration of `main`'s loop, up to `g_isLoginSuccess = false` for a login. -/
  | choose (o : Outside)
  | reset
  /-- `sem_wait` returns. -/
  | wait
  /-- The test of the flag. -/
  | test
  /-- An iteration of `mainMenu`'s loop. -/
  | command (o : Outside)
  /-- The receiving thread handles a message, and ends the process if it throws. -/
  | receive (message : Bytes)
  /-- The receiving thread calls `exit`. -/
  | disconnect
  | timeout (now : Int) (sends : UInt32 → Bool) (order : List UInt32)

def MenuStep.isIteration : MenuStep → Bool
  | choose _ => true
  | command _ => true
  | _ => false

namespace Menus

def start (input : Bytes) : Menus := ⟨{ rest := input }, .choosing, ⟨Client.start, {}, 0⟩, []⟩

section
variable (codec : JsonCodec) (evp : Evp)

/-- The call of `encryptedMessage` that ends a request, and its result. -/
def send (o : Outside) (r : Request) (s : Menus) : Menus × Bool :=
  let sent := s.client.table.encryptedMessage evp o.iv r.text r.type o.now o.sends r.msgId
  ({ s with client := { s.client with table := sent.1 }, requests := s.requests ++ [r] }, sent.2)

def login (o : Outside) (s : Menus) : Menus :=
  let (id, cin) := s.cin.readInt 0
  let (_, cin) := cin.get
  let (pwd, cin) := cin.getline 50
  let s := { s with cin := cin }
  match request codec o .loginMsg [("id", ofInt32 id), ("password", .str (cStr pwd))] with
  | none => { s with place := .left }
  | some r => { (s.send evp o r).1 with place := .sent }

def register (o : Outside) (s : Menus) : Menus :=
  let (name, cin) := s.cin.getline 50
  let (pwd, cin) := cin.getline 50
  let s := { s with cin := cin }
  match request codec o .regMsg [("name", .str (cStr name)), ("password", .str (cStr pwd))] with
  | none => { s with place := .left }
  | some r => (s.send evp o r).1

/-- The loop body of `main`. -/
def choose (o : Outside) (s : Menus) : Menus :=
  let (choice, cin) := s.cin.readInt 0
  let (_, cin) := cin.get
  let s := { s with cin := cin }
  if choice = 1 then s.login codec evp o
  else if choice = 2 then s.register codec evp o
  else if choice = 3 then { s with place := .left }
  else s

/-- The loop body of `mainMenu`. A logout that is sent ends the loop. -/
def command (o : Outside) (s : Menus) : Menus :=
  let (buffer, cin) := s.cin.getline 4096
  let s := { s with cin := cin }
  match runCommand codec o s.client.globals.currentUser (cStr buffer) with
  | none => { s with place := .left }
  | some none => s
  | some (some r) =>
      let (s, sent) := s.send evp o r
      if r.type = .logoutMsg ∧ sent then { s with place := .choosing } else s

def step (s : Menus) : MenuStep → Option Menus
  | .choose o => if s.place = .choosing then some (s.choose codec evp o) else none
  | .reset =>
      if s.place = .sent then
        some { s with
          place := .waiting
          client := { s.client with globals := { s.client.globals with isLoginSuccess := false } } }
      else none
  | .wait =>
      match s.place, s.client.rwsem with
      | .waiting, n + 1 => some { s with place := .woken, client := { s.client with rwsem := n } }
      | _, _ => none
  | .test =>
      if s.place = .woken then
        some { s with place := if s.client.globals.isLoginSuccess then .mainMenu else .choosing }
      else none
  | .command o => if s.place = .mainMenu then some (s.command codec evp o) else none
  | .receive message =>
      if s.place = .left then none
      else
        let r := readText codec message s.client
        some { s with client := r.state, place := if r.thrown = none then s.place else .left }
  | .disconnect => if s.place = .left then none else some { s with place := .left }
  | .timeout now sends order =>
      if s.place = .left then none
      else
        let table := s.client.table.checkTimeOutAndResend now sends order
        some { s with client := { s.client with table := table } }

def machine : Machine Menus MenuStep where
  init s := ∃ input, s = start input
  step := step codec evp

end

variable {codec : JsonCodec} {evp : Evp} {o : Outside} {s s' : Menus}

/-- What a step comes to. -/
inductive Stepped (codec : JsonCodec) (evp : Evp) (s : Menus) : MenuStep → Menus → Prop
  | choose (o : Outside) (h : s.place = .choosing) :
      Stepped codec evp s (.choose o) (s.choose codec evp o)
  | reset (h : s.place = .sent) :
      Stepped codec evp s .reset { s with
        place := .waiting
        client := { s.client with globals := { s.client.globals with isLoginSuccess := false } } }
  | wait {n : Nat} (h : s.place = .waiting) (hsem : s.client.rwsem = n + 1) :
      Stepped codec evp s .wait { s with place := .woken, client := { s.client with rwsem := n } }
  | test (h : s.place = .woken) :
      Stepped codec evp s .test
        { s with place := if s.client.globals.isLoginSuccess then .mainMenu else .choosing }
  | command (o : Outside) (h : s.place = .mainMenu) :
      Stepped codec evp s (.command o) (s.command codec evp o)
  | handled (message : Bytes) (hreturns : (readText codec message s.client).thrown = none) :
      Stepped codec evp s (.receive message)
      { s with client := (readText codec message s.client).state }
  | thrown (message : Bytes) :
      Stepped codec evp s (.receive message)
        { s with client := (readText codec message s.client).state, place := .left }
  | disconnect : Stepped codec evp s .disconnect { s with place := .left }
  | timeout (now : Int) (sends : UInt32 → Bool) (order : List UInt32) :
      Stepped codec evp s (.timeout now sends order) { s with
        client := { s.client with table := s.client.table.checkTimeOutAndResend now sends order } }

theorem step_stepped {l : MenuStep} (h : s.step codec evp l = some s') :
    Stepped codec evp s l s' := by
  cases l with
  | choose o =>
    simp only [step, Option.ite_none_right_eq_some, Option.some.injEq] at h
    obtain ⟨hplace, rfl⟩ := h
    exact .choose o hplace
  | reset =>
    simp only [step, Option.ite_none_right_eq_some, Option.some.injEq] at h
    obtain ⟨hplace, rfl⟩ := h
    exact .reset hplace
  | wait =>
    simp only [step] at h
    split at h
    · next hplace hsem => cases h; exact .wait hplace hsem
    · cases h
  | test =>
    simp only [step, Option.ite_none_right_eq_some, Option.some.injEq] at h
    obtain ⟨hplace, rfl⟩ := h
    exact .test hplace
  | command o =>
    simp only [step, Option.ite_none_right_eq_some, Option.some.injEq] at h
    obtain ⟨hplace, rfl⟩ := h
    exact .command o hplace
  | receive message =>
    simp only [step, Option.ite_none_left_eq_some, Option.some.injEq] at h
    obtain ⟨-, rfl⟩ := h
    split
    · next hreturns => exact .handled message hreturns
    · exact .thrown message
  | disconnect =>
    simp only [step, Option.ite_none_left_eq_some, Option.some.injEq] at h
    obtain ⟨-, rfl⟩ := h
    exact .disconnect
  | timeout now sends order =>
    simp only [step, Option.ite_none_left_eq_some, Option.some.injEq] at h
    obtain ⟨-, rfl⟩ := h
    exact .timeout now sends order

/-! ## Progress -/

/-- Something to read in front of an iteration: no state bit is set, and there
is a next character, in `main` one that a number may start with. -/
def Fed (s : Menus) : Prop :=
  s.cin.good ∧ if s.place = .choosing then startsNumber s.cin.rest = true else s.cin.rest ≠ []

/-- A character is consumed, or the loop is left. -/
def Progresses (s s' : Menus) : Prop :=
  s'.cin.rest.length < s.cin.rest.length ∨ s'.place = .left ∨
    (s.place = .mainMenu ∧ s'.place = .choosing)

/-- Nothing is done and nothing is read, and a state bit is set. -/
structure Idles (s s' : Menus) : Prop where
  same : s' = { s with cin := s'.cin }
  rest : s'.cin.rest = s.cin.rest
  bad : s'.cin.good = false

theorem login_le (codec : JsonCodec) (evp : Evp) (o : Outside) (s : Menus) :
    (s.login codec evp o).cin.rest.length ≤ s.cin.rest.length := by
  have hid := s.cin.readInt_le 0
  have hget := (s.cin.readInt 0).2.get_le
  have hpwd := (s.cin.readInt 0).2.get.2.getline_le 50
  have hall := hpwd.trans (hget.trans hid)
  unfold login
  simp only
  split
  · exact hall
  · exact hall

theorem register_le (codec : JsonCodec) (evp : Evp) (o : Outside) (s : Menus) :
    (s.register codec evp o).cin.rest.length ≤ s.cin.rest.length := by
  have hname := s.cin.getline_le 50
  have hpwd := (s.cin.getline 50).2.getline_le 50
  have hall := hpwd.trans hname
  unfold register
  simp only
  split
  · exact hall
  · exact hall

/-- The choice is read first, and nothing is put back. -/
theorem choose_le (codec : JsonCodec) (evp : Evp) (o : Outside) (s : Menus) :
    (s.choose codec evp o).cin.rest.length ≤ (s.cin.readInt 0).2.rest.length := by
  have hget := (s.cin.readInt 0).2.get_le
  unfold choose
  simp only
  split
  · exact (login_le codec evp o _).trans hget
  split
  · exact (register_le codec evp o _).trans hget
  split
  · exact hget
  · exact hget

theorem command_cin (codec : JsonCodec) (evp : Evp) (o : Outside) (s : Menus) :
    (s.command codec evp o).cin = (s.cin.getline 4096).2 := by
  unfold command
  simp only
  split
  · rfl
  · rfl
  · split <;> rfl

theorem choose_idles (h : ¬ (s.cin.good ∧ startsNumber s.cin.rest)) :
    s.Idles (s.choose codec evp o) := by
  obtain ⟨hchoice, hrest, hbad⟩ := IStream.readInt_stuck h
  have hget := IStream.get_refused hbad
  have heq : s.choose codec evp o = { s with cin := (s.cin.readInt 0).2.refuse } := by
    simp only [choose, hchoice, hget]
    rfl
  rw [heq]
  exact ⟨rfl, hrest, IStream.good_refuse⟩

theorem runCommand_nil (codec : JsonCodec) (o : Outside) (user : User) :
    runCommand codec o user [] = some none :=
  runCommand_unknown (by decide) (by decide)

theorem command_idles (h : ¬ (s.cin.good ∧ s.cin.rest ≠ [])) : s.Idles (s.command codec evp o) := by
  obtain ⟨hline, hrest, hbad⟩ := IStream.getline_stuck h 4096
  have heq : s.command codec evp o = { s with cin := (s.cin.getline 4096).2 } := by
    have hnil : cStr [] = [] := rfl
    simp only [command, hline, hnil, runCommand_nil]
  rw [heq]
  exact ⟨rfl, hrest, hbad⟩

/-- What an iteration comes to. -/
theorem iteration_cases {l : MenuStep} (hl : l.isIteration) (h : s.step codec evp l = some s') :
    (s.place = .choosing ∨ s.place = .mainMenu) ∧
      ((s.Fed ∧ s'.cin.rest.length < s.cin.rest.length) ∨ (¬ s.Fed ∧ s.Idles s')) := by
  cases step_stepped h with
  | choose o hplace =>
    refine ⟨Or.inl hplace, ?_⟩
    simp only [Fed, hplace, ↓reduceIte]
    by_cases hfed : s.cin.good ∧ startsNumber s.cin.rest
    · exact Or.inl ⟨hfed, (choose_le codec evp o s).trans_lt (IStream.readInt_lt hfed.1 hfed.2 0)⟩
    · exact Or.inr ⟨hfed, choose_idles hfed⟩
  | command o hplace =>
    refine ⟨Or.inr hplace, ?_⟩
    have hne : Place.mainMenu ≠ .choosing := by decide
    simp only [Fed, hplace, if_neg hne]
    by_cases hfed : s.cin.good ∧ s.cin.rest ≠ []
    · refine Or.inl ⟨hfed, ?_⟩
      rw [command_cin]
      exact IStream.getline_lt (by decide) hfed.1 hfed.2
    · exact Or.inr ⟨hfed, command_idles hfed⟩
  | _ => cases hl

theorem progresses_iff_fed {l : MenuStep} (hl : l.isIteration) (h : s.step codec evp l = some s') :
    s.Progresses s' ↔ s.Fed := by
  obtain ⟨hplace, ⟨hfed, hlt⟩ | ⟨hfed, hidle⟩⟩ := iteration_cases hl h
  · exact iff_of_true (Or.inl hlt) hfed
  · refine iff_of_false ?_ hfed
    have hsame : s'.place = s.place := by rw [hidle.same]
    rintro (hlt | hleft | ⟨hmenu, hchoosing⟩)
    · rw [hidle.rest] at hlt
      exact lt_irrefl _ hlt
    · rw [hsame] at hleft
      rw [hleft] at hplace
      simp at hplace
    · rw [hsame, hmenu] at hchoosing
      cases hchoosing

/-- The other threads do not read. -/
theorem step_cin {l : MenuStep} (hl : l.isIteration = false) (h : s.step codec evp l = some s') :
    s'.cin = s.cin := by
  cases step_stepped h with
  | choose | command => cases hl
  | _ => rfl

theorem step_rest_le {l : MenuStep} (h : s.step codec evp l = some s') :
    s'.cin.rest.length ≤ s.cin.rest.length := by
  cases hl : l.isIteration with
  | false => rw [step_cin hl h]
  | true =>
    obtain ⟨-, ⟨-, hlt⟩ | ⟨-, hidle⟩⟩ := iteration_cases hl h
    · exact hlt.le
    · rw [hidle.rest]

/-! ## Nothing to read, for ever -/

/-- In a loop with nothing to read, or ended. -/
def Starved (s : Menus) : Prop :=
  (¬ s.Fed ∧ (s.place = .choosing ∨ s.place = .mainMenu)) ∨ s.place = .left

/-- Outside a login the other threads can only end the process. -/
theorem step_place {l : MenuStep} (hl : l.isIteration = false) (hs : s.step codec evp l = some s')
    (hp : s.place ≠ .sent ∧ s.place ≠ .waiting ∧ s.place ≠ .woken) :
    s'.place = s.place ∨ s'.place = .left := by
  obtain ⟨hsent, hwaiting, hwoken⟩ := hp
  cases step_stepped hs with
  | choose | command => cases hl
  | reset h => exact absurd h hsent
  | wait h => exact absurd h hwaiting
  | test h => exact absurd h hwoken
  | handled | timeout => exact Or.inl rfl
  | thrown | disconnect => exact Or.inr rfl

theorem not_fed_of_bad (h : s.cin.good = false) : ¬ s.Fed := fun hfed => by
  rw [hfed.1] at h
  cases h

theorem Starved.step (h : s.Starved) {l : MenuStep} (hs : s.step codec evp l = some s') :
    s'.Starved ∧ (l.isIteration → ¬ s.Progresses s') := by
  cases hl : l.isIteration with
  | true =>
    obtain ⟨hplace, hcases⟩ := iteration_cases hl hs
    have hunfed : ¬ s.Fed := by
      rcases h with ⟨hno, -⟩ | hleft
      · exact hno
      · rw [hleft] at hplace
        simp at hplace
    obtain ⟨hfed, -⟩ | ⟨-, hidle⟩ := hcases
    · exact absurd hfed hunfed
    · have hsame : s'.place = s.place := by rw [hidle.same]
      refine ⟨Or.inl ⟨not_fed_of_bad hidle.bad, hsame ▸ hplace⟩, fun _ => ?_⟩
      exact fun hp => hunfed ((progresses_iff_fed hl hs).mp hp)
  | false =>
    refine ⟨?_, fun hf => by cases hf⟩
    have hcin := step_cin hl hs
    have hplace : s'.place = s.place ∨ s'.place = .left := by
      refine step_place hl hs ?_
      rcases h with ⟨-, hp | hp⟩ | hp <;> simp [hp]
    rcases hplace with hp | hp
    · rcases h with ⟨hno, hloop⟩ | hleft
      · refine Or.inl ⟨?_, hp ▸ hloop⟩
        simpa only [Fed, hcin, hp] using hno
      · exact Or.inr (hp.trans hleft)
    · exact Or.inr hp

/-- A loop that once has nothing to read makes no progress any more, whatever
the other threads do. -/
theorem Starved.never_progresses (h : s.Starved) (ls : List MenuStep) :
    ∀ x ∈ (machine codec evp).steps s ls, x.2.1.isIteration → ¬ x.1.Progresses x.2.2 := by
  induction ls generalizing s with
  | nil => intro x hx; cases hx
  | cons l ls ih =>
    cases hs : s.step codec evp l with
    | none =>
      rw [Machine.steps_none (M := machine codec evp) hs]
      intro x hx
      cases hx
    | some s' =>
      obtain ⟨hnext, hno⟩ := h.step hs
      rw [Machine.steps_cons (M := machine codec evp) hs]
      intro x hx
      rcases List.mem_cons.mp hx with rfl | hx
      · exact hno
      · exact ih hnext x hx

/-- Any number of iterations with the label `l` is made from `s`, and none of
them makes progress. -/
def Spins (codec : JsonCodec) (evp : Evp) (s : Menus) (l : MenuStep) : Prop :=
  ∀ n, ((machine codec evp).steps s (List.replicate n l)).length = n ∧
    ∀ x ∈ (machine codec evp).steps s (List.replicate n l), ¬ x.1.Progresses x.2.2

/-- An iteration is made wherever its loop is running. -/
theorem iteration_again {l : MenuStep} (hl : l.isIteration) (hs : s.step codec evp l = some s')
    {t : Menus} (ht : t.place = s.place) : ∃ t', t.step codec evp l = some t' := by
  cases step_stepped hs with
  | choose o h => exact ⟨t.choose codec evp o, by simp only [step, ht, h, ↓reduceIte]⟩
  | command o h => exact ⟨t.command codec evp o, by simp only [step, ht, h, ↓reduceIte]⟩
  | _ => cases hl

theorem unfed_spins {l : MenuStep} (hl : l.isIteration) (h : ¬ s.Fed)
    (hs : s.step codec evp l = some s') : s.Spins codec evp l := by
  intro n
  induction n generalizing s s' with
  | zero => exact ⟨rfl, fun x hx => by cases hx⟩
  | succ n ih =>
    obtain ⟨-, ⟨hfed, -⟩ | ⟨-, hidle⟩⟩ := iteration_cases hl hs
    · exact absurd hfed h
    · obtain ⟨s'', hs''⟩ := iteration_again hl hs (t := s') (by rw [hidle.same])
      obtain ⟨hlen, hno⟩ := ih (not_fed_of_bad hidle.bad) hs''
      rw [List.replicate_succ, Machine.steps_cons (M := machine codec evp) hs]
      refine ⟨by rw [List.length_cons, hlen], fun x hx => ?_⟩
      rcases List.mem_cons.mp hx with rfl | hx
      · exact fun hp => h ((progresses_iff_fed hl hs).mp hp)
      · exact hno x hx

/-! ## Every run -/

/-- For every console input and every run on it: each iteration of the two loops
makes progress exactly when each has something to read in front of it, and then
there are no more iterations than characters. -/
theorem loops_progress_iff (codec : JsonCodec) (evp : Evp) (input : Bytes) (ls : List MenuStep) :
    ((∀ x ∈ (machine codec evp).steps (start input) ls, x.2.1.isIteration → x.1.Progresses x.2.2) ↔
      ∀ x ∈ (machine codec evp).steps (start input) ls, x.2.1.isIteration → x.1.Fed) ∧
    ((∀ x ∈ (machine codec evp).steps (start input) ls, x.2.1.isIteration → x.1.Fed) →
      ((machine codec evp).steps (start input) ls).countP (·.2.1.isIteration) ≤ input.length) := by
  refine ⟨forall₂_congr fun x hx => ?_, fun hfed => ?_⟩
  · have hstep := Machine.step_of_mem_steps hx
    exact forall_congr' fun hl => progresses_iff_fed hl hstep
  · refine Machine.countP_steps_le (fun s : Menus => s.cin.rest.length) (fun x hx => ?_)
      fun x hx hl => ?_
    · exact step_rest_le (Machine.step_of_mem_steps hx)
    · obtain ⟨-, ⟨-, hlt⟩ | ⟨hno, -⟩⟩ := iteration_cases hl (Machine.step_of_mem_steps hx)
      · exact hlt
      · exact absurd (hfed x hx hl) hno

namespace Sample

def outside : Outside := ⟨1700000000, ⟨123, 10, 14, 22, 13, 20⟩, some sampleIv, 0, true⟩

end Sample

/-- A choice that is no number stays in front of the stream, and the loop in
`main` goes round for ever. -/
theorem choice_spins :
    (¬ ∀ (input : Bytes) (ls : List MenuStep),
      ∀ x ∈ (machine JsonText.codec sampleEvp).steps (start input) ls,
      x.2.1.isIteration → x.1.Progresses x.2.2) ∧
    (start (lit "x\n")).Spins JsonText.codec sampleEvp (.choose Sample.outside) := by
  have hunfed : ¬ (start (lit "x\n")).Fed := fun h => absurd h.2 (by decide)
  have hspins : (start (lit "x\n")).Spins JsonText.codec sampleEvp (.choose Sample.outside) :=
    unfed_spins rfl hunfed rfl
  refine ⟨fun h => ?_, hspins⟩
  exact (hspins 1).2 _ List.mem_cons_self (h _ [.choose Sample.outside] _ List.mem_cons_self rfl)

end Menus

end MyChat
