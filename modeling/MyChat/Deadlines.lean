import MyChat.RetryTable

/-! How long a frame can wait. When the timeout thread makes a pass at least every
`δ` milliseconds and its sends succeed, the time between two resends of a frame
is bounded, and so is the time from its first send to its last. -/

namespace MyChat

/-- The retry table with the times of the calls that registered a frame, of the
last pass and of the last step that looked at the clock. -/
structure Clocked where
  retries : Retries
  issued : List Int
  passed : Int
  clock : Int

namespace Clocked

/-- A call that gets no cipher text registers nothing. -/
def step (evp : Evp) (c : Clocked) (l : RetryStep) : Option Clocked :=
  (c.retries.step evp l).map fun r =>
    match l with
    | .encryptedMessage _ _ _ now _ _ =>
        { c with
          retries := r
          issued := if r.calls = c.retries.calls then c.issued else c.issued ++ [now]
          clock := now }
    | .checkTimeOutAndResend now _ _ => { c with retries := r, passed := now, clock := now }
    | .onReceiveAck _ => { c with retries := r }

/-- The timeout thread starts with the client. -/
def machine (evp : Evp) : Machine Clocked RetryStep where
  init c := c.retries = Retries.start ∧ c.issued = [] ∧ c.passed = c.clock
  step := step evp

/-- The clock does not go back, passes are at most `δ` apart, and resends go out. -/
def Punctual (δ : Int) (c : Clocked) : RetryStep → Prop
  | .encryptedMessage _ _ _ now _ _ => c.clock ≤ now
  | .checkTimeOutAndResend now sends _ => c.clock ≤ now ∧ now ≤ c.passed + δ ∧ ∀ m, sends m
  | .onReceiveAck _ => True

/-- An entry was sent for the last time so long after its call as its resends can
take, and had not timed out at the last pass. -/
structure OnTime (δ : Int) (c : Clocked) (e : Entry Tagged) : Prop where
  issued : ∃ t, c.issued[e.data.1]? = some t ∧ e.sendTime ≤ t + e.retry * (timeoutMs + δ)
  recent : c.passed ≤ e.sendTime + timeoutMs

structure Inv (δ : Int) (c : Clocked) : Prop where
  table : c.retries.Inv
  length : c.issued.length = c.retries.calls.length
  passed : c.passed ≤ c.clock
  onTime : ∀ m e, c.retries.client.entry m = some e → OnTime δ c e

variable {δ : Int} {c : Clocked}

/-- A pass finds every entry within one timeout and one period of its last send. -/
theorem OnTime.check {e e' : Entry Tagged} (h : OnTime δ c e) {now : Int}
    (hnow : now ≤ c.passed + δ) (r : Retries) (hc : e.check now true = some e') :
    OnTime δ { c with retries := r, passed := now, clock := now } e' := by
  obtain ⟨t, ht, hsend⟩ := h.issued
  have hrecent := h.recent
  unfold Entry.check at hc
  split at hc
  · split at hc
    · cases hc
    · cases hc
      refine ⟨⟨t, ht, ?_⟩, ?_⟩
      · have hstep : ((e.retry + 1 : Nat) : Int) * (timeoutMs + δ) =
            e.retry * (timeoutMs + δ) + (timeoutMs + δ) := by
          push_cast
          ring
        show now ≤ t + ((e.retry + 1 : Nat) : Int) * (timeoutMs + δ)
        rw [hstep]
        omega
      · show now ≤ now + timeoutMs
        simp [timeoutMs]
  · next hout =>
    cases hc
    refine ⟨⟨t, ht, hsend⟩, ?_⟩
    simp only [Entry.timedOut, not_lt] at hout
    show now ≤ e.sendTime + timeoutMs
    omega

variable {evp : Evp} {c' : Clocked}

theorem Inv.receive (h : Inv δ c) (msgId : UInt32)
    (hs : c.step evp (.onReceiveAck msgId) = some c') :
    Inv δ c' := by
  obtain ⟨r, hr, rfl⟩ := Option.map_eq_some_iff.mp hs
  have htable := h.table.step hr
  cases hr
  refine ⟨htable, h.length, h.passed, fun m e he => ?_⟩
  change (c.retries.client.onReceiveAck msgId).entry m = some e at he
  rw [Client.entry_onReceiveAck] at he
  split at he
  · cases he
  · exact ⟨(h.onTime m e he).issued, (h.onTime m e he).recent⟩

theorem Inv.pass (h : Inv δ c) {now : Int} {sends : UInt32 → Bool} {order : List UInt32}
    (hnow : now ≤ c.passed + δ) (hsends : ∀ m, sends m)
    (hs : c.step evp (.checkTimeOutAndResend now sends order) = some c') : Inv δ c' := by
  obtain ⟨r, hr, rfl⟩ := Option.map_eq_some_iff.mp hs
  have htable := h.table.step hr
  simp only [Retries.step] at hr
  split at hr
  · next horder =>
    cases hr
    refine ⟨htable, h.length, le_refl _, fun m e he => ?_⟩
    change (c.retries.client.checkTimeOutAndResend now sends order).entry m = some e at he
    rw [horder.entry, hsends] at he
    obtain ⟨e₀, he₀, hcheck⟩ := Option.bind_eq_some_iff.mp he
    exact (h.onTime m e₀ he₀).check hnow _ hcheck
  · cases hr

/-- A call that registers a frame. -/
theorem Inv.register (h : Inv δ c) {msgId : UInt32} {data : Bytes} {now : Int} (sends : Bool)
    (hclock : c.clock ≤ now)
    (htable : Retries.Inv ⟨c.retries.calls ++ [msgId],
      c.retries.client.register msgId (c.retries.calls.length, data) now sends⟩) :
    Inv δ ⟨⟨c.retries.calls ++ [msgId],
      c.retries.client.register msgId (c.retries.calls.length, data) now sends⟩, c.issued ++ [now],
        c.passed, now⟩ := by
  have hpassed := h.passed
  have hold : ∀ (k : Nat) (t : Int), c.issued[k]? = some t → (c.issued ++ [now])[k]? = some t := by
    intro k t hk
    rw [List.getElem?_append_left (List.getElem?_eq_some_iff.mp hk).1]
    exact hk
  refine ⟨htable, ?_, hpassed.trans hclock, fun m e he => ?_⟩
  · rw [List.length_append, List.length_append, h.length]
    rfl
  · rw [Client.entry_register] at he
    split at he
    · -- the frame of this call
      cases he
      refine ⟨⟨now, ?_, by simp⟩, ?_⟩
      · rw [← h.length]
        simp
      · show c.passed ≤ now + timeoutMs
        simp only [timeoutMs]
        omega
    · obtain ⟨t, ht, hsend⟩ := (h.onTime m e he).issued
      exact ⟨⟨t, hold _ _ ht, hsend⟩, (h.onTime m e he).recent⟩

theorem Inv.call (h : Inv δ c) {iv : Option Iv} {msg : Bytes} {msgType : EnMsgType} {now : Int}
    {sends : Bool} {msgId : UInt32} (hclock : c.clock ≤ now)
    (hs : c.step evp (.encryptedMessage iv msg msgType now sends msgId) = some c') : Inv δ c' := by
  obtain ⟨r, hr, rfl⟩ := Option.map_eq_some_iff.mp hs
  have htable := h.table.step hr
  simp only [Retries.step] at hr
  split at hr
  · cases hr
    simp only [↓reduceIte]
    exact ⟨htable, h.length, h.passed.trans hclock, fun m e he =>
      ⟨(h.onTime m e he).issued, (h.onTime m e he).recent⟩⟩
  · cases hr
    have hne : c.retries.calls ++ [msgId] ≠ c.retries.calls := by simp
    simp only [if_neg hne]
    exact h.register sends hclock htable

theorem Inv.step (h : Inv δ c) {l : RetryStep} (hl : Punctual δ c l) (hs : c.step evp l = some c') :
    Inv δ c' := by
  cases l with
  | encryptedMessage iv msg msgType now sends msgId => exact h.call hl hs
  | checkTimeOutAndResend now sends order => exact h.pass hl.2.1 hl.2.2 hs
  | onReceiveAck msgId => exact h.receive msgId hs

/-- At no pass does a frame still wait that was registered longer ago than its
resends can take: it has been acknowledged, given up, or replaced by a later call
with the same id. -/
theorem frames_meet_deadline (hδ : 0 ≤ δ) (h : (machine evp).Run (Punctual δ) c) {m : UInt32}
    {k : Nat} {d : Bytes} (he : c.retries.client.waitAckMsgMap.lookup m = some (k, d)) :
    ∃ t, c.issued[k]? = some t ∧ c.passed ≤ t + retryMax * (timeoutMs + δ) + timeoutMs := by
  have hinv : Inv δ c := by
    refine h.invariant (fun c hc => ?_) fun c l c' hi hl hs => hi.step hl hs
    obtain ⟨hr, hissued, hpassed⟩ := hc
    refine ⟨?_, ?_, hpassed.le, fun m e he => ?_⟩
    · rw [hr]
      exact ⟨Client.SameKeys.start, Counted.start⟩
    · rw [hr, hissued]
      rfl
    · rw [hr] at he
      cases he
  have hentry : c.retries.client.entry m =
      some ⟨(k, d), c.retries.client.resends k,
        (c.retries.client.sendTimeMap.lookup m).getD 0⟩ := by
    rw [Client.entry, he, hinv.table.counted.retry m k d he]
    rfl
  obtain ⟨⟨t, ht, hsend⟩, hrecent⟩ := hinv.onTime m _ hentry
  refine ⟨t, ht, ?_⟩
  have hbound := hinv.table.counted.bound k
  have hmul : (c.retries.client.resends k : Int) * (timeoutMs + δ) ≤
      retryMax * (timeoutMs + δ) := by
    refine mul_le_mul_of_nonneg_right (by exact_mod_cast hbound) ?_
    simp only [timeoutMs]
    omega
  simp only at hsend hrecent
  omega

namespace Sample

def start : Clocked := ⟨Retries.start, [], 0, 0⟩

/-- A logout at time 0, and a pass three seconds later. -/
def logout : RetryStep :=
  .encryptedMessage (some sampleIv) sampleLogoutFrame.text .logoutMsg 0 true 7

def pass : RetryStep := .checkTimeOutAndResend 3000 (fun _ => true) [7]

theorem logout_runs : ((machine sampleEvp).step start logout).isSome := by decide +kernel

theorem pass_runs : ((machine sampleEvp).step (Option.get _ logout_runs) pass).isSome := by
  decide +kernel

theorem resent_punctual : (machine sampleEvp).Run (Punctual 3000) (Option.get _ pass_runs) := by
  have hat : Punctual 3000 start logout := le_refl (0 : Int)
  have hpass : Punctual 3000 (Option.get _ logout_runs) pass :=
    ⟨by decide +kernel, by decide +kernel, fun _ => rfl⟩
  have hlogout : (machine sampleEvp).Run (Punctual 3000) (Option.get _ logout_runs) :=
    .next (.start ⟨rfl, rfl, rfl⟩) hat (Option.some_get logout_runs).symm
  exact .next hlogout hpass (Option.some_get pass_runs).symm

/-- It waits for an ACK still. -/
theorem resent_waits :
    ∃ d, (Option.get _ pass_runs).retries.client.waitAckMsgMap.lookup 7 = some (0, d) := by
  have hany : ((Option.get _ pass_runs).retries.client.waitAckMsgMap.lookup 7).any (·.1 = 0) := by
    decide +kernel
  obtain ⟨⟨k, d⟩, hd, hk⟩ := (Option.any_eq_true _ _).mp hany
  have hk0 : k = 0 := of_decide_eq_true hk
  subst hk0
  exact ⟨d, hd⟩

end Sample

theorem frames_meet_deadline_resent : (Option.get _ Sample.pass_runs).passed = 3000 ∧
    ∃ t, (Option.get _ Sample.pass_runs).issued[0]? = some t ∧
      (Option.get _ Sample.pass_runs).passed ≤ t + retryMax * (timeoutMs + 3000) + timeoutMs := by
  obtain ⟨d, hd⟩ := Sample.resent_waits
  exact ⟨by decide +kernel, frames_meet_deadline (by decide) Sample.resent_punctual hd⟩

end Clocked

end MyChat
