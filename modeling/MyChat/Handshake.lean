import MyChat.Lib.JsonText
import MyChat.Lib.Machine
import MyChat.LoginView

/-! The login handshake of the client's threads, step by step: the main thread
sends, resets the flag and waits for the semaphore, the receiving thread sets
the flag and posts. Replies come in any order and number. A step that throws
ends the process and has no successor. -/

namespace MyChat
open Json

/-- Where the main thread stands. Requests are numbered in the order in which
the user made them. -/
inductive MainThread (α : Type)
  | choosing
  | regRegistered (data : α)
  | loginRegistered (k : Nat) (data : α)
  | sent (k : Nat)
  | waiting (k : Nat)
  | woken (k : Nat)
  | refused (k : Nat)
  | mainMenu (k : Nat)
  deriving DecidableEq

/-- The attempt from its registration to the test of the flag. -/
def MainThread.attempt {α : Type} : MainThread α → Option Nat
  | loginRegistered k _ => some k
  | sent k => some k
  | waiting k => some k
  | woken k => some k
  | _ => none

inductive ReaderThread
  | receiving
  | received (k : Nat) (js : Json)
  | handled (k : Nat)

/-- The process, with the kinds of the requests so far and, for each login reply
handled, the request it answers and whether its errno was 0. -/
structure ClientProcess (α : Type) where
  main : MainThread α
  reader : ReaderThread
  client : ClientState α
  requests : List EnMsgType
  answers : List (Nat × Bool)

inductive ClientStep (α : Type)
  /-- Choice 1 up to the three assignments of `encryptedMessage`. -/
  | login (msgId : UInt32) (data : α) (now : Int)
  | register (msgId : UInt32) (data : α) (now : Int)
  | send (sends : Bool)
  /-- `g_isLoginSuccess = false`. -/
  | reset
  /-- `sem_wait` returns. -/
  | wait
  /-- The test of the flag. -/
  | test
  | leave
  /-- The timeout thread's pass, which sends frames again. -/
  | timeout (now : Int) (sends : UInt32 → Bool) (order : List UInt32)
  /-- The receiving thread takes a reply to request `k`. -/
  | receive (k : Nat) (js : Json)
  | handle
  | post
  /-- It takes a message that is no reply to a login or a registration. -/
  | other (js : Json)

/-- The type of the reply to a request of the start menu. -/
def answerType : EnMsgType → Option EnMsgType
  | .loginMsg => some .loginMsgAck
  | .regMsg => some .regMsgAck
  | _ => none

def succeeds (js : Json) : Bool := js.intAt (lit "errno") = some 0

namespace ClientProcess

variable {α : Type}

def start : ClientProcess α := ⟨.choosing, .receiving, ⟨Client.start, {}, 0⟩, [], []⟩

/-- The errno of the first reply to request `k` that was handled: was it 0? -/
def firstAnswer (k : Nat) (s : ClientProcess α) : Option Bool :=
  (s.answers.find? (·.1 = k)).map Prod.snd

def table (f : Client α → Client α) (s : ClientProcess α) : ClientProcess α :=
  { s with client := { s.client with table := f s.client.table } }

def apply (codec : JsonCodec) (s : ClientProcess α) : ClientStep α → Option (ClientProcess α)
  | .login msgId data now =>
      match s.main with
      | .choosing => some { s.table (Client.register msgId data now false) with
          main := .loginRegistered s.requests.length data, requests := s.requests ++ [.loginMsg] }
      | _ => none
  | .register msgId data now =>
      match s.main with
      | .choosing => some { s.table (Client.register msgId data now false) with
          main := .regRegistered data, requests := s.requests ++ [.regMsg] }
      | _ => none
  | .send sends =>
      let written (data : α) (c : Client α) : Client α :=
        { c with wire := if sends then c.wire ++ [data] else c.wire }
      match s.main with
      | .regRegistered data => some { s.table (written data) with main := .choosing }
      | .loginRegistered k data => some { s.table (written data) with main := .sent k }
      | _ => none
  | .reset =>
      match s.main with
      | .sent k => some { s with
          main := .waiting k
          client := { s.client with globals := { s.client.globals with isLoginSuccess := false } } }
      | _ => none
  | .wait =>
      match s.main, s.client.rwsem with
      | .waiting k, n + 1 =>
          some { s with main := .woken k, client := { s.client with rwsem := n } }
      | _, _ => none
  | .test =>
      match s.main with
      | .woken k => some { s with
          main := if s.client.globals.isLoginSuccess then .mainMenu k else .refused k }
      | _ => none
  | .leave =>
      match s.main with
      | .refused _ => some { s with main := .choosing }
      | .mainMenu _ => some { s with main := .choosing }
      | _ => none
  | .timeout now sends order => some (s.table (Client.checkTimeOutAndResend now sends order))
  | .receive k js =>
      match s.reader, ackOf js with
      | .receiving, .ok (some msgId) =>
          if (s.requests[k]?.bind answerType).map EnMsgType.val = js.intAt (lit "msgid") then
            some { s.table (Client.onReceiveAck msgId) with reader := .received k js }
          else none
      | _, _ => none
  | .handle =>
      match s.reader with
      | .received k js =>
          if s.requests[k]? = some .loginMsg then
            let r := doLoginResponse codec js s.client.globals
            if r.thrown = none then
              some { s with
                reader := .handled k
                client := { s.client with globals := r.state }
                answers := s.answers ++ [(k, succeeds js)] }
            else none
          else if doRegResponse js = none then some { s with reader := .handled k }
          else none
      | _ => none
  | .post =>
      match s.reader with
      | .handled _ => some { s with
          reader := .receiving, client := { s.client with rwsem := s.client.rwsem + 1 } }
      | _ => none
  | .other js =>
      match s.reader with
      | .receiving =>
          if js.intAt (lit "msgid") ≠ some EnMsgType.loginMsgAck.val ∧
              js.intAt (lit "msgid") ≠ some EnMsgType.regMsgAck.val ∧
              (readMessage codec js s.client).thrown = none then
            some { s with client := (readMessage codec js s.client).state }
          else none
      | _ => none

def machine (codec : JsonCodec) : Machine (ClientProcess α) (ClientStep α) where
  init := (· = start)
  step := apply codec

/-- `sem_wait` has returned behind a handled answer to the attempt, and the menu
is entered exactly on the answer's errno 0. -/
structure Truthful (s : ClientProcess α) : Prop where
  woken : ∀ k, s.main = .woken k → ∃ b, s.firstAnswer k = some b
  mainMenu : ∀ k, s.main = .mainMenu k → s.firstAnswer k = some true
  refused : ∀ k, s.main = .refused k → s.firstAnswer k = some false

/-- What the threads do not make sure of: no post is left over when an attempt
starts, none comes before its answer, a positive answer is handled behind the
reset, and a later one does not contradict it. -/
def Orderly (s : ClientProcess α) : ClientStep α → Prop
  | .login _ _ _ => s.client.rwsem = 0
  | .post => ∀ a, s.main.attempt = some a → s.firstAnswer a ≠ none
  | .handle => ∀ k js a, s.reader = .received k js → s.requests[k]? = some .loginMsg →
      s.main.attempt = some a →
      (s.firstAnswer a = none → k = a → succeeds js → s.main = .waiting a) ∧
      (∀ b, s.firstAnswer a = some b → s.main = .waiting a ∨ s.main = .woken a → succeeds js = b)
  | _ => True

/-! ## The invariant -/

/-- Where an attempt stands towards its answer, `answer` being the first one
handled for each request. -/
def Keeps (main : MainThread α) (flag : Bool) (rwsem : Nat) (answer : Nat → Option Bool) : Prop :=
  match main with
  | .loginRegistered a _ => answer a ≠ some true ∧ (0 < rwsem → answer a ≠ none)
  | .sent a => answer a ≠ some true ∧ (0 < rwsem → answer a ≠ none)
  | .waiting a => (∀ b, answer a = some b → flag = b) ∧ (0 < rwsem → answer a ≠ none)
  | .woken a => answer a = some flag
  | .mainMenu a => answer a = some true
  | .refused a => answer a = some false
  | _ => True

section
variable {flag : Bool} {rwsem : Nat} {answer : Nat → Option Bool}

/-- The reset undoes no positive answer, for there is none. -/
theorem Keeps.reset {a : Nat} (h : Keeps (.sent a : MainThread α) flag rwsem answer) :
    Keeps (.waiting a : MainThread α) false rwsem answer := by
  refine ⟨fun b hb => ?_, h.2⟩
  cases b with
  | false => rfl
  | true => exact absurd hb h.1

theorem Keeps.wait {a : Nat} (h : Keeps (.waiting a : MainThread α) flag (rwsem + 1) answer) :
    Keeps (.woken a : MainThread α) flag rwsem answer := by
  obtain ⟨hflag, hsem⟩ := h
  obtain ⟨b, hb⟩ := Option.ne_none_iff_exists'.mp (hsem (Nat.succ_pos rwsem))
  show answer a = some flag
  rw [hflag b hb]
  exact hb

theorem Keeps.test {a : Nat} (h : Keeps (.woken a : MainThread α) flag rwsem answer) :
    Keeps (if flag then .mainMenu a else .refused a : MainThread α) flag rwsem answer := by
  cases flag with
  | true => exact h
  | false => exact h

theorem Keeps.post {main : MainThread α} (h : Keeps main flag rwsem answer)
    (hok : ∀ a, main.attempt = some a → answer a ≠ none) : Keeps main flag (rwsem + 1) answer := by
  cases main with
  | loginRegistered a data => exact ⟨h.1, fun _ => hok a rfl⟩
  | sent a => exact ⟨h.1, fun _ => hok a rfl⟩
  | waiting a => exact ⟨h.1, fun _ => hok a rfl⟩
  | _ => exact h

/-- The answers with one to request `k` behind them. -/
def answering (answer : Nat → Option Bool) (k : Nat) (b : Bool) (a : Nat) : Option Bool :=
  (answer a).or (if k = a then some b else none)

theorem answering_some {a k : Nat} {b v : Bool} (h : answer a = some v) :
    answering answer k b a = some v := by
  simp [answering, h]

/-- Before the reset an answer is negative, or the reset would undo it. -/
theorem answering_early {a k : Nat} {b : Bool}
    (h : answer a ≠ some true ∧ (0 < rwsem → answer a ≠ none))
    (hneg : answer a = none → k = a → b ≠ true) :
    answering answer k b a ≠ some true ∧ (0 < rwsem → answering answer k b a ≠ none) := by
  obtain ⟨hne, hsem⟩ := h
  cases hans : answer a with
  | some v =>
    rw [answering_some hans]
    exact ⟨hans ▸ hne, fun _ => by simp⟩
  | none =>
    refine ⟨fun htrue => ?_, fun hpos => absurd hans (hsem hpos)⟩
    by_cases hka : k = a
    · simp [answering, hans, hka, hneg hans hka] at htrue
    · simp [answering, hans, hka] at htrue

/-- An answer handled, and the flag as it leaves it. -/
theorem Keeps.answered {main : MainThread α} (h : Keeps main flag rwsem answer) {k : Nat} {b : Bool}
    (hfirst : ∀ a, main.attempt = some a → answer a = none → k = a → b → main = .waiting a)
    (hlater : ∀ a, main.attempt = some a → ∀ b', answer a = some b' →
      main = .waiting a ∨ main = .woken a → b = b') :
    Keeps main b rwsem (answering answer k b) := by
  cases main with
  | choosing => trivial
  | regRegistered data => trivial
  | loginRegistered a data =>
    refine answering_early h fun hnone hka hb => ?_
    cases hfirst a rfl hnone hka hb
  | sent a =>
    refine answering_early h fun hnone hka hb => ?_
    cases hfirst a rfl hnone hka hb
  | waiting a =>
    obtain ⟨-, hsem⟩ := h
    cases hans : answer a with
    | some v =>
      have hb : b = v := hlater a rfl v hans (Or.inl rfl)
      exact ⟨by simp [answering_some hans, hb], by simp [answering_some hans]⟩
    | none =>
      refine ⟨fun b' hb' => ?_, fun hpos => absurd hans (hsem hpos)⟩
      by_cases hka : k = a
      · simpa [answering, hans, hka] using hb'
      · simp [answering, hans, hka] at hb'
  | woken a =>
    have hans : answer a = some flag := h
    have hb : b = flag := hlater a rfl flag hans (Or.inr rfl)
    rw [hb]
    exact answering_some hans
  | refused a => exact answering_some h
  | mainMenu a => exact answering_some h

end

structure Inv (s : ClientProcess α) : Prop where
  keeps : Keeps s.main s.client.globals.isLoginSuccess s.client.rwsem (s.firstAnswer ·)
  answers : ∀ x ∈ s.answers, x.1 < s.requests.length
  reader : ∀ k js, s.reader = .received k js → k < s.requests.length

theorem Inv.truthful {s : ClientProcess α} (h : Inv s) : Truthful s := by
  have hk := h.keeps
  refine ⟨fun k hm => ?_, fun k hm => ?_, fun k hm => ?_⟩
  · rw [hm] at hk
    exact ⟨_, hk⟩
  · rw [hm] at hk
    exact hk
  · rw [hm] at hk
    exact hk

theorem firstAnswer_new {s : ClientProcess α} (h : ∀ x ∈ s.answers, x.1 < s.requests.length) :
    s.firstAnswer s.requests.length = none := by
  rw [firstAnswer, Option.map_eq_none_iff, List.find?_eq_none]
  intro x hx
  have hlt := h x hx
  simp only [decide_eq_true_eq]
  omega

/-- The first answer stays the first. -/
theorem find_append (l : List (Nat × Bool)) (k a : Nat) (b : Bool) :
    ((l ++ [(k, b)]).find? (·.1 = a)).map Prod.snd =
      ((l.find? (·.1 = a)).map Prod.snd).or (if k = a then some b else none) := by
  rw [List.find?_append]
  cases l.find? (·.1 = a) with
  | some x => rfl
  | none => by_cases h : k = a <;> simp [h]

/-- A reply that is handled to the end leaves its outcome in the flag. -/
theorem flag_doLoginResponse {codec : JsonCodec} {js : Json} {g : Globals}
    (h : (doLoginResponse codec js g).thrown = none) :
    (doLoginResponse codec js g).state.isLoginSuccess = succeeds js := by
  unfold doLoginResponse at h ⊢
  cases he : getAt getInt js "errno" with
  | error e => rw [he] at h; cases h
  | ok errno =>
    have herr : js.intAt (lit "errno") = some errno := by
      unfold getAt at he
      split at he
      · cases he
      · next a ha => cases he; exact ha
    rw [he] at h
    simp only at h ⊢
    by_cases h0 : errno = 0
    · rw [if_neg (not_not.mpr h0)] at h ⊢
      rw [(Ret.andThen_ok h).2]
      simp [succeeds, herr, h0]
    · rw [if_pos h0]
      simp [succeeds, herr, h0]

theorem Inv.start : (start : ClientProcess α).Inv := by
  refine ⟨trivial, by simp [ClientProcess.start], ?_⟩
  rintro k js ⟨⟩

/-- What the table holds does not matter. -/
theorem Inv.table {s : ClientProcess α} (h : Inv s) (f : Client α → Client α) : Inv (s.table f) :=
  ⟨h.keeps, h.answers, h.reader⟩

/-- A request more. -/
theorem Inv.request {s : ClientProcess α} (h : Inv s) (t : EnMsgType) {main : MainThread α}
    (hk : Keeps main s.client.globals.isLoginSuccess s.client.rwsem (s.firstAnswer ·)) :
    Inv { s with main := main, requests := s.requests ++ [t] } := by
  refine ⟨hk, fun x hx => ?_, fun k js hr => ?_⟩
  · have hlt := h.answers x hx
    simp only [List.length_append, List.length_singleton]
    omega
  · have hlt := h.reader k js hr
    simp only [List.length_append, List.length_singleton]
    omega

/-- A login reply: the answer of request `k` and the new flag. -/
theorem Inv.answer {s : ClientProcess α} (h : Inv s) {k : Nat} (hk : k < s.requests.length)
    {b : Bool} (hfirst : ∀ a, s.main.attempt = some a → s.firstAnswer a = none → k = a → b →
    s.main = .waiting a) (hlater : ∀ a, s.main.attempt = some a → ∀ b', s.firstAnswer a = some b' →
    s.main = .waiting a ∨ s.main = .woken a → b = b') {g : Globals} (hg : g.isLoginSuccess = b) :
    Inv { s with
      reader := .handled k
      client := { s.client with globals := g }
      answers := s.answers ++ [(k, b)] } := by
  have hnew : (ClientProcess.firstAnswer · { s with
      reader := .handled k
      client := { s.client with globals := g }
      answers := s.answers ++ [(k, b)] }) = answering (s.firstAnswer ·) k b :=
    funext fun a => find_append _ _ _ _
  refine ⟨?_, fun x hx => ?_, ?_⟩
  · rw [hnew]
    show Keeps s.main g.isLoginSuccess s.client.rwsem _
    rw [hg]
    exact h.keeps.answered hfirst hlater
  · rcases List.mem_append.mp hx with hx | hx
    · exact h.answers x hx
    · rw [List.mem_singleton.mp hx]
      exact hk
  · rintro k' js ⟨⟩

/-- Messages that answer no login or registration touch the table only. -/
theorem readMessage_other (codec : JsonCodec) {js : Json} (c : ClientState α)
    (hlogin : js.intAt (lit "msgid") ≠ some EnMsgType.loginMsgAck.val)
    (hreg : js.intAt (lit "msgid") ≠ some EnMsgType.regMsgAck.val) :
    (readMessage codec js c).state.globals = c.globals ∧
      (readMessage codec js c).state.rwsem = c.rwsem := by
  unfold readMessage
  split
  · next ack msgtype _ hid =>
    have hlogin' : msgtype ≠ EnMsgType.loginMsgAck.val := fun he => hlogin (he ▸ hid)
    have hreg' : msgtype ≠ EnMsgType.regMsgAck.val := fun he => hreg (he ▸ hid)
    simp only [if_neg hlogin', if_neg hreg']
    split
    · cases ack <;> exact ⟨rfl, rfl⟩
    · split <;> cases ack <;> exact ⟨rfl, rfl⟩
  · exact ⟨rfl, rfl⟩
  · exact ⟨rfl, rfl⟩

/-- A reply that is taken answers a request that was made. -/
theorem receive_lt {s : ClientProcess α} {k : Nat} {js : Json} {ack : UInt32}
    (hack : ackOf js = .ok (some ack))
    (ht : (s.requests[k]?.bind answerType).map EnMsgType.val = js.intAt (lit "msgid")) :
    k < s.requests.length := by
  by_contra hlt
  rw [List.getElem?_eq_none (Nat.le_of_not_lt hlt)] at ht
  have hnone : js.intAt (lit "msgid") = none := ht.symm
  simp [ackOf, hnone] at hack

theorem Inv.step {codec : JsonCodec} {s s' : ClientProcess α} {l : ClientStep α} (h : Inv s)
    (hok : Orderly s l) (hs : s.apply codec l = some s') : Inv s' := by
  have hkeeps := h.keeps
  cases l with
  | login msgId data now =>
    simp only [apply] at hs
    split at hs
    · cases hs
      have hnone := firstAnswer_new (h.table (Client.register msgId data now false)).answers
      have hsem : s.client.rwsem = 0 := hok
      exact (h.table _).request .loginMsg
        ⟨fun he => by (cases hnone.symm.trans he), fun hpos => absurd hpos (hsem ▸ Nat.lt_irrefl 0)⟩
    · cases hs
  | register msgId data now =>
    simp only [apply] at hs
    split at hs
    · cases hs
      exact (h.table _).request .regMsg trivial
    · cases hs
  | send sends =>
    simp only [apply] at hs
    split at hs
    · cases hs
      exact ⟨trivial, h.answers, h.reader⟩
    · next k data hm =>
      cases hs
      rw [hm] at hkeeps
      exact ⟨hkeeps, h.answers, h.reader⟩
    · cases hs
  | reset =>
    simp only [apply] at hs
    split at hs
    · next k hm =>
      cases hs
      rw [hm] at hkeeps
      exact ⟨hkeeps.reset, h.answers, h.reader⟩
    · cases hs
  | wait =>
    simp only [apply] at hs
    split at hs
    · next k n hm hsem =>
      cases hs
      rw [hm, hsem] at hkeeps
      exact ⟨hkeeps.wait, h.answers, h.reader⟩
    · cases hs
  | test =>
    simp only [apply] at hs
    split at hs
    · next k hm =>
      cases hs
      rw [hm] at hkeeps
      exact ⟨hkeeps.test, h.answers, h.reader⟩
    · cases hs
  | leave =>
    simp only [apply] at hs
    split at hs
    · cases hs
      exact ⟨trivial, h.answers, h.reader⟩
    · cases hs
      exact ⟨trivial, h.answers, h.reader⟩
    · cases hs
  | timeout now sends order =>
    cases hs
    exact h.table _
  | receive k js =>
    simp only [apply] at hs
    split at hs
    · next msgId hr hack =>
      split at hs
      · next ht =>
        cases hs
        refine ⟨hkeeps, h.answers, ?_⟩
        rintro k' js' ⟨⟩
        exact receive_lt hack ht
      · cases hs
    · cases hs
  | handle =>
    simp only [apply] at hs
    split at hs
    · next k js hr =>
      split at hs
      · next ht =>
        split at hs
        · next hthrown =>
          cases hs
          exact h.answer (h.reader k js hr) (fun a ha => (hok k js a hr ht ha).1)
            (fun a ha => (hok k js a hr ht ha).2) (flag_doLoginResponse hthrown)
        · cases hs
      · split at hs
        · cases hs
          refine ⟨hkeeps, h.answers, ?_⟩
          rintro k' js' ⟨⟩
        · cases hs
    · cases hs
  | post =>
    simp only [apply] at hs
    split at hs
    · cases hs
      refine ⟨hkeeps.post hok, h.answers, ?_⟩
      rintro k' js' ⟨⟩
    · cases hs
  | other js =>
    simp only [apply] at hs
    split at hs
    · split at hs
      · next hcond =>
        cases hs
        obtain ⟨hg, hsem⟩ := readMessage_other codec s.client hcond.1 hcond.2.1
        refine ⟨?_, h.answers, h.reader⟩
        simp only [hg, hsem]
        exact hkeeps
      · cases hs
    · cases hs

/-- In every run whose steps are orderly the main thread is woken by the answer
to its attempt and enters the menu exactly on errno 0. -/
theorem handshake_truthful {codec : JsonCodec} {s : ClientProcess α}
    (h : (machine codec).Run Orderly s) : Truthful s := by
  have hinv : Inv s := by
    refine h.invariant ?_ fun s l s' hi hok hs => hi.step hok hs
    rintro s rfl
    exact .start
  exact hinv.truthful

/-! ## The reader's steps and its loop body -/

theorem ackOf_typed {js : Json} {t : EnMsgType} (ht : js.intAt (lit "msgid") = some t.val)
    (hmem : t.val ∈ ackTypes.map EnMsgType.val) {ack : Option UInt32} (h : ackOf js = .ok ack) :
    ∃ m, ack = some m := by
  simp only [ackOf, ht, hmem, ↓reduceIte] at h
  split at h
  · split at h
    · cases h
    · cases h; exact ⟨_, rfl⟩
  · cases h

theorem apply_receive (codec : JsonCodec) {s : ClientProcess α} {k : Nat} {js : Json} {m : UInt32}
    (hr : s.reader = .receiving) (hack : ackOf js = .ok (some m))
    (ht : (s.requests[k]?.bind answerType).map EnMsgType.val = js.intAt (lit "msgid")) :
    s.apply codec (.receive k js) =
      some { s.table (Client.onReceiveAck m) with reader := .received k js } := by
  simp only [apply, hr, hack, ht, ↓reduceIte]

theorem apply_handle (codec : JsonCodec) (s : ClientProcess α) {k : Nat} {js : Json}
    (hr : s.reader = .received k js) (ht : s.requests[k]? = some .loginMsg)
    (hreturns : (doLoginResponse codec js s.client.globals).thrown = none) :
    s.apply codec .handle = some { s with
      reader := .handled k
      client := { s.client with globals := (doLoginResponse codec js s.client.globals).state }
      answers := s.answers ++ [(k, succeeds js)] } := by
  simp only [apply, hr, ht, hreturns, ↓reduceIte]

/-- The three steps on a login reply do together what the loop body does. -/
theorem login_reply_steps {codec : JsonCodec} {s : ClientProcess α} {k : Nat} {js : Json}
    (hr : s.reader = .receiving) (ht : s.requests[k]? = some .loginMsg)
    (hid : js.intAt (lit "msgid") = some EnMsgType.loginMsgAck.val)
    (hreturns : (readMessage codec js s.client).thrown = none) :
    (machine codec).exec s [.receive k js, .handle, .post] =
      some { s with
        client := (readMessage codec js s.client).state
        answers := s.answers ++ [(k, succeeds js)] } := by
  have hone : EnMsgType.loginMsgAck.val ≠ EnMsgType.oneChatMsg.val := by decide
  have hgroup : EnMsgType.loginMsgAck.val ≠ EnMsgType.groupChatMsg.val := by decide
  unfold readMessage at hreturns ⊢
  cases hack : ackOf js with
  | error e => rw [hack, hid] at hreturns; cases hreturns
  | ok ack =>
    obtain ⟨m, rfl⟩ := ackOf_typed hid (by decide) hack
    simp only [hack, hid, if_neg hone, if_neg hgroup, ↓reduceIte] at hreturns ⊢
    have hrec := apply_receive codec (s := s) (k := k) hr hack (by rw [ht, hid]; rfl)
    have hhandle := apply_handle codec
      { s.table (Client.onReceiveAck m) with reader := .received k js } rfl ht hreturns
    simp only [Machine.exec, machine, hrec, Option.bind_some, hhandle]
    simp only [apply, Option.bind_some, table, hreturns, ↓reduceIte]
    rw [← hr]

/-- A registration reply posts as well. -/
theorem reg_reply_steps {codec : JsonCodec} {s : ClientProcess α} {k : Nat} {js : Json}
    (hr : s.reader = .receiving) (ht : s.requests[k]? = some .regMsg)
    (hid : js.intAt (lit "msgid") = some EnMsgType.regMsgAck.val)
    (hreturns : (readMessage codec js s.client).thrown = none) :
    (machine codec).exec s [.receive k js, .handle, .post] =
      some { s with client := (readMessage codec js s.client).state } := by
  have hone : EnMsgType.regMsgAck.val ≠ EnMsgType.oneChatMsg.val := by decide
  have hgroup : EnMsgType.regMsgAck.val ≠ EnMsgType.groupChatMsg.val := by decide
  have hlogin : EnMsgType.regMsgAck.val ≠ EnMsgType.loginMsgAck.val := by decide
  have htype : (EnMsgType.regMsg = EnMsgType.loginMsg) = False := by simp
  unfold readMessage at hreturns ⊢
  cases hack : ackOf js with
  | error e => rw [hack, hid] at hreturns; cases hreturns
  | ok ack =>
    obtain ⟨m, rfl⟩ := ackOf_typed hid (by decide) hack
    simp only [hack, hid, if_neg hone, if_neg hgroup, if_neg hlogin, ↓reduceIte] at hreturns ⊢
    have hrec := apply_receive codec (s := s) (k := k) hr hack (by rw [ht, hid]; rfl)
    simp only [Machine.exec, machine, hrec, Option.bind_some]
    simp only [apply, table, ht, Option.some.injEq, htype, hreturns, ↓reduceIte, Option.bind_some]
    rw [← hr]

/-! ## An attempt that is left alone -/

/-- A reply that the reader takes to its end. -/
structure Answer (codec : JsonCodec) (js : Json) (m : UInt32) : Prop where
  ack : ackOf js = .ok (some m)
  type : js.intAt (lit "msgid") = some EnMsgType.loginMsgAck.val
  returns : ∀ g, (doLoginResponse codec js g).thrown = none

theorem attempt_completes {codec : JsonCodec} {s : ClientProcess α}
    (h : (machine codec).Run Orderly s) (hmain : s.main = .choosing)
    (hreader : s.reader = .receiving) (hsem : s.client.rwsem = 0) (msgId : UInt32) (data : α)
    {js : Json} {m : UInt32} (hjs : Answer codec js m) :
    ∃ s' : ClientProcess α, (machine codec).Run Orderly s' ∧
      s'.main = if succeeds js then .mainMenu s.requests.length
        else .refused s.requests.length := by
  obtain ⟨main, reader, ⟨table, globals, rwsem⟩, requests, answers⟩ := s
  simp only at hmain hreader hsem
  subst hmain hreader hsem
  have hinv :=
    (h.invariant (by rintro s rfl; exact .start) fun s l s' hi hok hs => hi.step hok hs : Inv _)
  have hnew := firstAnswer_new hinv.answers
  have hlast : (requests ++ [EnMsgType.loginMsg])[requests.length]? = some .loginMsg := by simp
  have hfound : (requests.length, succeeds js) ∈ answers ++ [(requests.length, succeeds js)] := by
    simp
  -- the state of the process, with what stays the same filled in
  let at' (main : MainThread α) (reader : ReaderThread) (table : Client α) (globals : Globals)
      (rwsem : Nat) (answers : List (Nat × Bool)) : ClientProcess α :=
    ⟨main, reader, ⟨table, globals, rwsem⟩, requests ++ [.loginMsg], answers⟩
  let t₁ := table.register msgId data 0 false
  let t₂ := { t₁ with wire := t₁.wire ++ [data] }
  let t₃ := t₂.onReceiveAck m
  let g₁ := { globals with isLoginSuccess := false }
  let g₂ := (doLoginResponse codec js g₁).state
  let n := requests.length
  have h₁ : (machine codec).Run Orderly
      (at' (.loginRegistered n data) .receiving t₁ globals 0 answers) :=
    .next (l := ClientStep.login msgId data 0) h rfl rfl
  have h₂ : (machine codec).Run Orderly (at' (.sent n) .receiving t₂ globals 0 answers) :=
    .next (l := ClientStep.send true) h₁ trivial rfl
  have h₃ : (machine codec).Run Orderly (at' (.waiting n) .receiving t₂ g₁ 0 answers) :=
    .next (l := ClientStep.reset) h₂ trivial rfl
  have h₄ : (machine codec).Run Orderly (at' (.waiting n) (.received n js) t₃ g₁ 0 answers) := by
    refine .next (l := ClientStep.receive n js) h₃ trivial ?_
    refine apply_receive codec rfl hjs.ack ?_
    rw [hjs.type]
    exact congrArg _ (congrArg (·.bind answerType) hlast)
  have h₅ : (machine codec).Run Orderly
      (at' (.waiting n) (.handled n) t₃ g₂ 0 (answers ++ [(n, succeeds js)])) := by
    refine .next (l := ClientStep.handle) h₄ ?_
      (apply_handle codec (at' (.waiting n) (.received n js) t₃ g₁ 0 answers) rfl hlast
        (hjs.returns _))
    rintro k js' a ⟨⟩ - ⟨⟩
    exact ⟨fun _ _ _ => rfl, fun b hb => absurd (hnew.symm.trans hb) (by simp)⟩
  have h₆ : (machine codec).Run Orderly
      (at' (.waiting n) .receiving t₃ g₂ 1 (answers ++ [(n, succeeds js)])) := by
    refine .next (l := ClientStep.post) h₅ ?_ rfl
    rintro a ⟨⟩ hnone
    rw [firstAnswer, Option.map_eq_none_iff, List.find?_eq_none] at hnone
    exact hnone _ hfound (by simp [n])
  have h₇ : (machine codec).Run Orderly
      (at' (.woken n) .receiving t₃ g₂ 0 (answers ++ [(n, succeeds js)])) :=
    .next (l := ClientStep.wait) h₆ trivial rfl
  have h₈ := Machine.Run.next (l := ClientStep.test) h₇ trivial rfl
  refine ⟨_, h₈, ?_⟩
  show (if g₂.isLoginSuccess then _ else _) = _
  rw [flag_doLoginResponse (hjs.returns _)]

/-! ## Each condition is needed -/

/-- With a post to take, the main thread reaches the test of the flag, which is
as it was if the reset lies behind it. -/
theorem wakes (codec : JsonCodec) {s : ClientProcess α} {a : Nat} (ha : s.main.attempt = some a)
    (hwoken : s.main ≠ .woken a) (hsem : 0 < s.client.rwsem) :
    ∃ ls s', (machine codec).exec s ls = some s' ∧ s'.main = .woken a ∧ s'.answers = s.answers ∧
      (s.main = .waiting a → s'.client.globals.isLoginSuccess = s.client.globals.isLoginSuccess) ∧
      (s.main ≠ .waiting a → s'.client.globals.isLoginSuccess = false) := by
  obtain ⟨main, reader, ⟨table, globals, rwsem⟩, requests, answers⟩ := s
  obtain ⟨n, rfl⟩ := Nat.exists_eq_succ_of_ne_zero (Nat.pos_iff_ne_zero.mp hsem)
  cases main with
  | loginRegistered k data =>
    cases ha
    exact ⟨[.send true, .reset, .wait], _, rfl, rfl, rfl, by simp, fun _ => rfl⟩
  | sent k =>
    cases ha
    exact ⟨[.reset, .wait], _, rfl, rfl, rfl, by simp, fun _ => rfl⟩
  | waiting k =>
    cases ha
    exact ⟨[.wait], _, rfl, rfl, rfl, fun _ => rfl, fun hne => absurd rfl hne⟩
  | woken k =>
    cases ha
    exact absurd rfl hwoken
  | _ => cases ha

/-- What the test then shows. -/
theorem not_truthful_test (codec : JsonCodec) {s s' : ClientProcess α} (ls : List (ClientStep α))
    {a : Nat} (hls : (machine codec).exec s ls = some s') (hmain : s'.main = .woken a)
    (hne : s'.firstAnswer a ≠ some s'.client.globals.isLoginSuccess) :
    ∃ ls s', (machine codec).exec s ls = some s' ∧ ¬ Truthful s' := by
  have htest : s'.apply codec .test = some { s' with
      main := if s'.client.globals.isLoginSuccess then .mainMenu a else .refused a } := by
    simp only [apply, hmain]
  refine ⟨ls ++ [.test], { s' with
    main := if s'.client.globals.isLoginSuccess then .mainMenu a else .refused a }, ?_,
    fun ht => hne ?_⟩
  · rw [Machine.exec_append, hls, Option.bind_some]
    exact congrArg (·.bind some) htest
  · cases hflag : s'.client.globals.isLoginSuccess with
    | true => exact ht.mainMenu a (by simp [hflag])
    | false => exact ht.refused a (by simp [hflag])

/-- A post without an answer wakes the attempt. -/
theorem not_truthful_wakes (codec : JsonCodec) {s : ClientProcess α} {a : Nat}
    (ha : s.main.attempt = some a) (hwoken : s.main ≠ .woken a) (hsem : 0 < s.client.rwsem)
    (hnone : s.firstAnswer a = none) :
    ∃ ls s', (machine codec).exec s ls = some s' ∧ ¬ Truthful s' := by
  obtain ⟨ls, s', hls, hmain, hanswers, -⟩ := wakes codec ha hwoken hsem
  refine ⟨ls, s', hls, fun ht => ?_⟩
  obtain ⟨b, hb⟩ := ht.woken a hmain
  rw [firstAnswer, hanswers] at hb
  cases hnone.symm.trans hb

theorem Inv.answered {s : ClientProcess α} (h : Inv s) {a : Nat} (hmain : s.main = .woken a) :
    s.firstAnswer a = some s.client.globals.isLoginSuccess := by
  have hkeeps := h.keeps
  rw [hmain] at hkeeps
  exact hkeeps

/-- A step that is not orderly can be followed by a run that ends untruthfully. -/
theorem orderly_needed {codec : JsonCodec} {s s' : ClientProcess α} {l : ClientStep α} (h : Inv s)
    (hs : s.apply codec l = some s') (hl : ¬ Orderly s l) :
    ∃ ls s'', (machine codec).exec s' ls = some s'' ∧ ¬ Truthful s'' := by
  cases l with
  | login msgId data now =>
    simp only [apply] at hs
    split at hs
    · cases hs
      exact not_truthful_wakes codec (a := s.requests.length) rfl (by simp) (Nat.pos_of_ne_zero hl)
        (firstAnswer_new h.answers)
    · cases hs
  | post =>
    simp only [Orderly, not_forall, not_not] at hl
    obtain ⟨a, ha, hnone⟩ := hl
    simp only [apply] at hs
    split at hs
    · cases hs
      refine not_truthful_wakes codec (a := a) ha (fun hw => ?_) (Nat.succ_pos _) hnone
      cases hnone.symm.trans (h.answered hw)
    · cases hs
  | handle =>
    simp only [Orderly, not_forall] at hl
    obtain ⟨k, js, a, hr, ht, ha, hl⟩ := hl
    simp only [apply, hr, ht, ↓reduceIte, Option.ite_none_right_eq_some, Option.some.injEq] at hs
    obtain ⟨hthrown, rfl⟩ := hs
    have hflag := flag_doLoginResponse hthrown
    -- the answers as they stand behind the reply, and the process behind its post
    have hfirst := find_append s.answers k a (succeeds js)
    let posted : ClientProcess α := { s with
      reader := .receiving
      client := { s.client with
        globals := (doLoginResponse codec js s.client.globals).state, rwsem := s.client.rwsem + 1 }
      answers := s.answers ++ [(k, succeeds js)] }
    rcases not_and_or.mp hl with hearly | hlater
    · simp only [not_forall] at hearly
      obtain ⟨hnone, rfl, hsucc, hmain⟩ := hearly
      have hwoken : s.main ≠ .woken k := fun hw => by cases hnone.symm.trans (h.answered hw)
      obtain ⟨ls, s', hls, hm, hans, -, hfalse⟩ :=
        wakes codec (s := posted) (a := k) ha hwoken (Nat.succ_pos _)
      refine not_truthful_test codec (.post :: ls) hls hm ?_
      rw [firstAnswer, hans, hfirst, hfalse hmain, hsucc]
      show (s.firstAnswer k).or _ ≠ _
      simp [hnone]
    · simp only [not_forall] at hlater
      obtain ⟨b, hb, hmain, hne⟩ := hlater
      rcases hmain with hmain | hmain
      · obtain ⟨ls, s', hls, hm, hans, htrue, -⟩ :=
          wakes codec (s := posted) (a := a) ha (by rw [hmain]; simp) (Nat.succ_pos _)
        refine not_truthful_test codec (.post :: ls) hls hm ?_
        rw [firstAnswer, hans, hfirst, htrue hmain, hflag]
        show (s.firstAnswer a).or _ ≠ _
        simpa [hb] using Ne.symm hne
      · refine not_truthful_test codec [] rfl hmain ?_
        rw [firstAnswer, hfirst, hflag]
        show (s.firstAnswer a).or _ ≠ _
        simpa [hb] using Ne.symm hne
  | _ => exact absurd trivial hl

theorem answer_loginResponse : Answer JsonText.codec (loginResponse { id := 1 } 7 [] [] []) 7 := by
  refine ⟨by decide +kernel, by decide +kernel, fun g => ?_⟩
  have hreply : loginReply JsonText.codec (fun _ => MySQL.up) 1 { id := 1 } 7 Database.empty =
      some (loginResponse { id := 1 } 7 [] [] []) := rfl
  rw [(doLoginResponse_loginReply JsonText.codec_lawful hreply g).2]
  rfl

/-- A first login with errno 0 ends in the menu. -/
theorem handshake_truthful_menu :
    ∃ s : ClientProcess Bytes, s.main = .mainMenu 0 ∧ s.firstAnswer 0 = some true := by
  obtain ⟨s, hrun, hmain⟩ :=
    attempt_completes (s := (start : ClientProcess Bytes)) (.start rfl) rfl rfl
    rfl 7 [] answer_loginResponse
  have hsucc : succeeds (loginResponse { id := 1 } 7 [] [] []) = true := by decide +kernel
  rw [hsucc, if_pos rfl] at hmain
  exact ⟨s, hmain, (handshake_truthful hrun).mainMenu 0 hmain⟩

/-- A registration and its reply, then a login. -/
def regThenLogin : List (ClientStep Bytes) :=
  [.register 7 [] 0, .send true, .receive 0 (regResponse 1 7), .handle, .post,
    .login 8 [] 0, .send true, .reset, .wait]

theorem regThenLogin_runs :
    ((machine JsonText.codec).exec (start : ClientProcess Bytes) regThenLogin).isSome := by
  decide +kernel

/-- The login is woken by the post for the registration. -/
theorem woken_by_registration :
    ¬ ∀ s : ClientProcess Bytes, (machine JsonText.codec).Reachable s → Truthful s := by
  intro h
  have hreach := Machine.reachable_exec rfl regThenLogin_runs
  obtain ⟨b, hb⟩ := (h _ hreach).woken 1 (by decide +kernel)
  revert hb
  cases b <;> decide +kernel

end ClientProcess

end MyChat
