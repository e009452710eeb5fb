import MyChat.RetryTable

/-! The two threads of the client that write to its socket. The main thread goes
on where a send call stopped; the timeout thread takes whatever was accepted for
the whole frame. A send call of either comes in anywhere between two of the
other's. -/

namespace MyChat
open Json

/-- What a call may return that was offered so many bytes: -1, or how many it
accepted. -/
def SendReturns (offered : Nat) : Option Nat → Prop
  | none => True
  | some n => 0 < n ∧ n ≤ offered

instance (offered : Nat) (r : Option Nat) : Decidable (SendReturns offered r) := by
  unfold SendReturns
  cases r <;> infer_instance

/-- `len != -1`, where `len` is an `int`. -/
def lenOk : Option Nat → Bool
  | none => false
  | some n => Int32.ofNat n ≠ -1

/-- `int total = dataToBeSent.size()`, as the loop compares it. -/
def sendTotal (data : Bytes) : Nat := (Int32.ofNat data.length).toInt.toNat

inductive SendLoop
  | menu
  /-- In the loop of `encryptedMessage`, short of `total`. -/
  | sending (data : Bytes) (sent : Nat)
  deriving DecidableEq, Repr

/-- The part of a frame that has gone out is still missing its rest. -/
def SendLoop.inside : SendLoop → Bool
  | .menu => false
  | .sending _ sent => 0 < sent

structure Writers where
  main : SendLoop
  table : Client Bytes
  /-- what the socket has accepted -/
  bytes : Bytes
  /-- the frames that `encryptedMessage` has made -/
  issued : List Bytes
  /-- a frame has gone out in part, and nobody goes on with it -/
  cut : Bool

inductive WriterStep
  /-- `encryptedMessage` up to its loop. -/
  | command (now : Int) (iv : Option Iv) (msg : Bytes) (msgType : EnMsgType) (msgId : UInt32)
  /-- A call of the main thread's loop. -/
  | send (r : Option Nat)
  /-- The loop body of a timeout pass that began at `now`, for one entry. -/
  | check (now : Int) (msgId : UInt32) (r : Option Nat)
  /-- The receiving thread has read an ACK. -/
  | ack (msgId : UInt32)

/-- The frame that the loop body of a pass offers to `send`. -/
def Client.offered (now : Int) (msgId : UInt32) (c : Client Bytes) : Option Bytes :=
  (c.entry msgId).bind (Entry.resends now true)

namespace Writers

def start : Writers := ⟨.menu, Client.start, [], [], false⟩

def step (evp : Evp) (w : Writers) : WriterStep → Option Writers
  | .command now iv msg msgType msgId =>
      if w.main = .menu then
        let data := Frame.wire evp iv ⟨msgType.val.toUInt32, msgId, msg⟩
        if data = [] then some w
        else
          some { w with
            main := if 0 < sendTotal data then .sending data 0 else .menu
            table := w.table.register msgId data now false
            issued := w.issued ++ [data] }
      else none
  | .send r =>
      match w.main with
      | .menu => none
      | .sending data sent =>
          if SendReturns (sendTotal data - sent) r then
            match r with
            | none => some { w with main := .menu, cut := w.cut || decide (0 < sent) }
            | some n =>
                if sent + n < sendTotal data then
                  some { w with
                    main := .sending data (sent + n)
                    bytes := w.bytes ++ (data.drop sent).take n }
                else
                  some { w with
                    main := .menu
                    bytes := w.bytes ++ (data.drop sent).take n
                    cut := w.cut || decide (sent + n < data.length) }
          else none
  | .check now msgId r =>
      let table := w.table.checkEntry now (fun _ => lenOk r) msgId
      match w.table.offered now msgId with
      | none => some { w with table := table }
      | some data =>
          if SendReturns data.length r then
            match r with
            | none => some { w with table := table }
            | some n =>
                some { w with
                  table := table
                  bytes := w.bytes ++ data.take n
                  cut := w.cut || decide (n < data.length) }
          else none
  | .ack msgId => some { w with table := w.table.onReceiveAck msgId }

def machine (evp : Evp) : Machine Writers WriterStep where
  init w := w = start
  step := step evp

/-- A pass is a run of its loop bodies: what becomes of the table does not
depend on how much the calls accepted, nor on what the main thread does. -/
theorem table_pass (evp : Evp) (now : Int) (r : UInt32 → Option Nat) (order : List UInt32)
    {w w' : Writers} (h : (machine evp).exec w (order.map fun m => .check now m (r m)) = some w') :
    w'.table = w.table.checkTimeOutAndResend now (fun m => lenOk (r m)) order := by
  induction order generalizing w with
  | nil => cases h; rfl
  | cons m order ih =>
    obtain ⟨w₁, h₁, h⟩ := Option.bind_eq_some_iff.mp h
    rw [ih h]
    have htable : w₁.table = w.table.checkEntry now (fun m => lenOk (r m)) m := by
      have hone : w.table.checkEntry now (fun m => lenOk (r m)) m =
          w.table.checkEntry now (fun _ => lenOk (r m)) m := rfl
      rw [hone]
      simp only [machine, step] at h₁
      split at h₁
      · cases h₁; rfl
      · split at h₁
        · split at h₁ <;> (cases h₁; rfl)
        · cases h₁
    rw [htable]
    rfl

end Writers

/-! ## Whole frames -/

/-- The bytes of a frame with its header, as `encryptedMessage` makes it. -/
def IsFrame (evp : Evp) (data : Bytes) : Prop := data ≠ [] ∧ ∃ iv f, data = Frame.wire evp iv f

/-- A frame that the client has made. -/
def Writers.Made (evp : Evp) (w : Writers) (f : Bytes) : Prop := IsFrame evp f ∧ f ∈ w.issued

/-- The socket has accepted complete frames that the client made, and behind
them at most a part of one. -/
def WholeFrames (evp : Evp) (w : Writers) : Prop :=
  ∃ (frames : List Bytes) (tail : Bytes), w.bytes = frames.flatten ++ tail ∧
  (∀ f ∈ frames, w.Made evp f) ∧
    (tail = [] ∨ ∃ f, w.Made evp f ∧ tail <+: f ∧ tail ≠ f)

/-- Nothing is accepted behind a frame that was cut for good, and a resend not
while the main thread is inside a frame. -/
def Writers.Permits (w : Writers) : WriterStep → Prop
  | .send (some _) => w.cut = false
  | .check now msgId (some _) =>
      (w.table.offered now msgId).isSome → w.cut = false ∧ w.main.inside = false
  | _ => True

instance (w : Writers) (l : WriterStep) : Decidable (w.Permits l) :=
  match l with
  | .send (some _) => inferInstanceAs (Decidable (w.cut = false))
  | .check now msgId (some _) => inferInstanceAs (Decidable
      ((w.table.offered now msgId).isSome → w.cut = false ∧ w.main.inside = false))
  | .command .. | .send none | .check _ _ none | .ack _ => inferInstanceAs (Decidable True)

/-- What is behind the complete frames: nothing, what the main thread has sent of
its frame, or what is left of a frame that was cut. -/
inductive Writers.Tail (evp : Evp) (w : Writers) : Bytes → Prop
  | clean (hcut : w.cut = false) (hin : w.main.inside = false) : Tail evp w []
  | going {data : Bytes} {sent : Nat} (hcut : w.cut = false) (hmain : w.main = .sending data sent)
      (hpos : 0 < sent) : Tail evp w (data.take sent)
  | left {tail f : Bytes} (hcut : w.cut = true) (hin : w.main.inside = false) (hf : w.Made evp f)
      (hpre : tail <+: f) (hne : tail ≠ f) : Tail evp w tail

/-- The frame being sent and the frames waiting were made by the client, and the
stream is whole frames with a tail. -/
structure Writers.Inv (evp : Evp) (w : Writers) : Prop where
  main : ∀ data sent, w.main = .sending data sent → w.Made evp data ∧ sent < sendTotal data
  table : ∀ m e, w.table.entry m = some e → w.Made evp e.data
  stream : ∃ (frames : List Bytes) (tail : Bytes), w.bytes = frames.flatten ++ tail ∧
    (∀ f ∈ frames, w.Made evp f) ∧ w.Tail evp tail

variable {evp : Evp}

theorem sendTotal_le (data : Bytes) : sendTotal data ≤ data.length := by
  have hsize : Int32.size = 4294967296 := rfl
  rw [sendTotal, Int32.toInt_ofNat', hsize, Int.bmod_def]
  omega

theorem take_prefix_ne {data : Bytes} {n : Nat} (h : n < data.length) :
    data.take n <+: data ∧ data.take n ≠ data := by
  refine ⟨List.take_prefix n data, fun he => ?_⟩
  have hlen := congrArg List.length he
  rw [List.length_take] at hlen
  omega

theorem Entry.check_data {now : Int} {sends : Bool} {e e' : Entry Bytes}
    (h : e.check now sends = some e') :
    e'.data = e.data := by
  unfold Entry.check at h
  split at h
  · split at h
    · cases h
    · split at h <;> (cases h; rfl)
  · cases h; rfl

namespace Writers

theorem Inv.whole {w : Writers} (h : w.Inv evp) : WholeFrames evp w := by
  obtain ⟨frames, tail, hbytes, hframes, htail⟩ := h.stream
  refine ⟨frames, tail, hbytes, hframes, ?_⟩
  cases htail with
  | clean _ _ => exact Or.inl rfl
  | going _ hmain _ =>
    obtain ⟨hmade, hlt⟩ := h.main _ _ hmain
    obtain ⟨hpre, hne⟩ := take_prefix_ne (Nat.lt_of_lt_of_le hlt (sendTotal_le _))
    exact Or.inr ⟨_, hmade, hpre, hne⟩
  | left _ _ hf hpre hne => exact Or.inr ⟨_, hf, hpre, hne⟩

theorem inv_start : Inv evp start where
  main := by simp [start]
  table := by simp [start, Client.start, Client.entry]
  stream := ⟨[], [], rfl, by simp, .clean rfl rfl⟩

/-- Frames stay made when more are issued. -/
theorem Made.issue {w w' : Writers} {f : Bytes} (h : w.Made evp f)
    (hi : ∀ g ∈ w.issued, g ∈ w'.issued) :
    w'.Made evp f := ⟨h.1, hi _ h.2⟩

theorem Tail.keep {w w' : Writers} {tail : Bytes} (h : w.Tail evp tail) (hcut : w'.cut = w.cut)
    (hmain : w'.main = w.main) (hi : ∀ g ∈ w.issued, g ∈ w'.issued) : w'.Tail evp tail := by
  cases h with
  | clean hc hin => exact .clean (hcut.trans hc) (by rw [hmain, hin])
  | going hc hm hpos => exact .going (hcut.trans hc) (hmain.trans hm) hpos
  | left hc hin hf hpre hne =>
    exact .left (hcut.trans hc) (by rw [hmain, hin]) (hf.issue hi) hpre hne

/-- Complete frames with one more behind them, or with a part of one. -/
theorem flatten_concat (frames : List Bytes) (data : Bytes) :
    (frames ++ [data]).flatten ++ [] = frames.flatten ++ data := by simp

/-- The table changes and nothing is written. -/
theorem Inv.keepTable {w : Writers} (h : w.Inv evp) {table : Client Bytes}
    (ht : ∀ m e, table.entry m = some e → w.Made evp e.data) :
    Inv evp { w with table := table } where
  main := h.main
  table := ht
  stream := by
    obtain ⟨frames, tail, hbytes, hframes, htail⟩ := h.stream
    exact ⟨frames, tail, hbytes, hframes, htail.keep rfl rfl fun _ hg => hg⟩

theorem Inv.command {w w' : Writers} (h : w.Inv evp) {now : Int} {iv : Option Iv} {msg : Bytes}
    {msgType : EnMsgType} {msgId : UInt32}
    (hs : step evp w (.command now iv msg msgType msgId) = some w') :
    w'.Inv evp := by
  simp only [step, Option.ite_none_right_eq_some] at hs
  obtain ⟨hmenu, hs⟩ := hs
  split at hs
  · cases hs
    exact h
  · next hne =>
    cases hs
    have hmade : IsFrame evp (Frame.wire evp iv ⟨msgType.val.toUInt32, msgId, msg⟩) :=
      ⟨hne, iv, _, rfl⟩
    have hold : ∀ g ∈ w.issued,
        g ∈ w.issued ++ [Frame.wire evp iv ⟨msgType.val.toUInt32, msgId, msg⟩] :=
      fun g hg => List.mem_append_left _ hg
    obtain ⟨frames, tail, hbytes, hframes, htail⟩ := h.stream
    refine ⟨fun data sent hmain => ?_, fun m e he => ?_,
      ⟨frames, tail, hbytes, fun f hf => (hframes f hf).issue hold, ?_⟩⟩
    · simp only at hmain
      split at hmain
      · next hpos =>
        cases hmain
        exact ⟨⟨hmade, List.mem_append_right _ (List.mem_singleton.mpr rfl)⟩, hpos⟩
      · cases hmain
    · simp only [Client.entry_register] at he
      split at he
      · cases he
        exact ⟨hmade, List.mem_append_right _ (List.mem_singleton.mpr rfl)⟩
      · exact (h.table m e he).issue hold
    · -- a command is only taken from the menu, and its loop has not begun
      have hin : ∀ (data : Bytes),
          (if 0 < sendTotal data then SendLoop.sending data 0 else .menu).inside = false := by
        intro data
        split <;> rfl
      cases htail with
      | clean hcut _ => exact .clean hcut (hin _)
      | going _ hmain _ => rw [hmenu] at hmain; cases hmain
      | left hcut _ hf hpre hne => exact .left hcut (hin _) (hf.issue hold) hpre hne

/-- Unless it is a frame that was cut, the tail is what the main thread has sent. -/
theorem Tail.eq_take {w : Writers} {tail data : Bytes} {sent : Nat} (h : w.Tail evp tail)
    (hmain : w.main = .sending data sent) (hcut : w.cut = false) : tail = data.take sent := by
  cases h with
  | clean _ hin =>
    rw [hmain, SendLoop.inside, decide_eq_false_iff_not] at hin
    have hzero : sent = 0 := by omega
    rw [hzero, List.take_zero]
  | going _ hm _ =>
    rw [hmain] at hm
    cases hm
    rfl
  | left hc _ _ _ _ => rw [hcut] at hc; cases hc

theorem Inv.sendFailed {w : Writers} (h : w.Inv evp) {data : Bytes} {sent : Nat}
    (hmain : w.main = .sending data sent) :
    Inv evp { w with main := .menu, cut := w.cut || decide (0 < sent) } := by
  obtain ⟨frames, tail, hbytes, hframes, htail⟩ := h.stream
  refine ⟨by simp, h.table, frames, tail, hbytes, hframes, ?_⟩
  cases htail with
  | clean hcut hin =>
    rw [hmain, SendLoop.inside] at hin
    exact .clean (by simp [hcut, hin]) rfl
  | going hcut hm hpos =>
    rw [hmain] at hm
    cases hm
    obtain ⟨hmade, hlt⟩ := h.main _ _ hmain
    obtain ⟨hpre, hne⟩ := take_prefix_ne (Nat.lt_of_lt_of_le hlt (sendTotal_le _))
    exact .left (by simp [hpos]) rfl hmade hpre hne
  | left hcut hin hf hpre hne => exact .left (by simp [hcut]) rfl hf hpre hne

theorem Inv.sent {w w' : Writers} (h : w.Inv evp) {n : Nat} (hcut : w.cut = false)
    (hs : step evp w (.send (some n)) = some w') : w'.Inv evp := by
  simp only [step] at hs
  cases hmain : w.main with
  | menu => simp [hmain] at hs
  | sending data sent =>
    simp only [hmain, Option.ite_none_right_eq_some] at hs
    obtain ⟨⟨hpos, hle⟩, hs⟩ := hs
    obtain ⟨hmade, hlt⟩ := h.main data sent hmain
    have htotal := sendTotal_le data
    obtain ⟨frames, tail, hbytes, hframes, htail⟩ := h.stream
    have hnew : w.bytes ++ (data.drop sent).take n = frames.flatten ++ data.take (sent + n) := by
      rw [hbytes, htail.eq_take hmain hcut, List.append_assoc, List.take_add]
    split at hs
    · next hmore =>
      cases hs
      refine ⟨fun d k hd => ?_, h.table, frames, data.take (sent + n), hnew, hframes,
        .going hcut rfl (by omega)⟩
      cases hd
      exact ⟨hmade, hmore⟩
    · next hend =>
      cases hs
      refine ⟨by simp, h.table, ?_⟩
      rcases Nat.lt_or_ge (sent + n) data.length with hshort | hall
      · obtain ⟨hpre, hne⟩ := take_prefix_ne hshort
        exact ⟨frames, data.take (sent + n), hnew, hframes,
          .left (by simp [hshort]) rfl hmade hpre hne⟩
      · rw [List.take_of_length_le hall, ← flatten_concat] at hnew
        refine ⟨frames ++ [data], [], hnew, fun f hf => ?_, .clean ?_ rfl⟩
        · rcases List.mem_append.mp hf with hf | hf
          · exact hframes f hf
          · exact List.mem_singleton.mp hf ▸ hmade
        · simp only [hcut, Bool.false_or, decide_eq_false_iff_not]
          omega

/-- What the timeout thread finds in the table stays the frame that was put
there. -/
theorem Inv.checked {w : Writers} (h : w.Inv evp) (now : Int) (sends : UInt32 → Bool)
    (msgId : UInt32) :
    ∀ m e, (w.table.checkEntry now sends msgId).entry m = some e → w.Made evp e.data := by
  intro m e he
  rw [Client.entry_checkEntry] at he
  split at he
  · obtain ⟨e', he', hcheck⟩ := Option.bind_eq_some_iff.mp he
    rw [Entry.check_data hcheck]
    exact h.table msgId e' he'
  · exact h.table m e he

theorem Inv.offered {w : Writers} (h : w.Inv evp) {now : Int} {msgId : UInt32} {data : Bytes}
    (ho : w.table.offered now msgId = some data) : w.Made evp data := by
  obtain ⟨e, he, hr⟩ := Option.bind_eq_some_iff.mp ho
  unfold Entry.resends at hr
  split at hr
  · cases hr
    exact h.table msgId e he
  · cases hr

theorem Inv.check {w w' : Writers} (h : w.Inv evp) {now : Int} {msgId : UInt32} {r : Option Nat}
    (hok : w.Permits (.check now msgId r)) (hs : step evp w (.check now msgId r) = some w') :
    w'.Inv evp := by
  simp only [step] at hs
  have htable := h.checked now (fun _ => lenOk r) msgId
  cases ho : w.table.offered now msgId with
  | none =>
    simp only [ho, Option.some.injEq] at hs
    subst hs
    exact h.keepTable htable
  | some data =>
    simp only [ho, Option.ite_none_right_eq_some] at hs
    obtain ⟨hret, hs⟩ := hs
    cases r with
    | none =>
      cases hs
      exact h.keepTable htable
    | some n =>
      cases hs
      obtain ⟨hcut, hin⟩ := hok (by rw [ho]; rfl)
      have hmade := h.offered ho
      obtain ⟨frames, tail, hbytes, hframes, htail⟩ := h.stream
      -- no frame is open, so the resend begins where one may begin
      have hopen : tail = [] := by
        cases htail with
        | clean _ _ => rfl
        | going _ hmain hpos =>
          rw [hmain, SendLoop.inside, decide_eq_false_iff_not] at hin
          exact absurd hpos hin
        | left hc _ _ _ _ => rw [hcut] at hc; cases hc
      rw [hopen, List.append_nil] at hbytes
      refine ⟨h.main, htable, ?_⟩
      rcases Nat.lt_or_ge n data.length with hshort | hall
      · obtain ⟨hpre, hne⟩ := take_prefix_ne hshort
        exact ⟨frames, data.take n, by simp only [hbytes], hframes,
          .left (by simp [hshort]) hin hmade hpre hne⟩
      · refine ⟨frames ++ [data], [], ?_, fun f hf => ?_, .clean ?_ hin⟩
        · simp only [hbytes, List.take_of_length_le hall, flatten_concat]
        · rcases List.mem_append.mp hf with hf | hf
          · exact hframes f hf
          · exact List.mem_singleton.mp hf ▸ hmade
        · simp only [hcut, Bool.false_or, decide_eq_false_iff_not]
          omega

theorem Inv.ack {w : Writers} (h : w.Inv evp) (msgId : UInt32) :
    Inv evp { w with table := w.table.onReceiveAck msgId } := by
  refine h.keepTable fun m e he => ?_
  rw [Client.entry_onReceiveAck] at he
  split at he
  · cases he
  · exact h.table m e he

theorem step_inv {w w' : Writers} (h : w.Inv evp) {l : WriterStep} (hok : w.Permits l)
    (hs : step evp w l = some w') : w'.Inv evp := by
  cases l with
  | command now iv msg msgType msgId => exact h.command hs
  | send r =>
    cases r with
    | some n => exact h.sent hok hs
    | none =>
      simp only [step] at hs
      cases hmain : w.main with
      | menu => simp [hmain] at hs
      | sending data sent =>
        simp only [hmain, Option.ite_none_right_eq_some, Option.some.injEq] at hs
        obtain ⟨-, rfl⟩ := hs
        exact h.sendFailed hmain
  | check now msgId r => exact h.check hok hs
  | ack msgId =>
    cases hs
    exact h.ack msgId

end Writers

/-- As long as the calls meet the condition the socket has whole frames, in every
interleaving of the two threads. -/
theorem whole_frames {w : Writers} (h : (Writers.machine evp).Run Writers.Permits w) :
    WholeFrames evp w := by
  refine (h.invariant (I := Writers.Inv evp) ?_ fun w l w' hi hok hs =>
    Writers.step_inv hi hok hs).whole
  rintro w rfl
  exact Writers.inv_start

/-- The client logs out. -/
def commandLogout : WriterStep := .command 0 (some sampleIv) sampleLogoutFrame.text .logoutMsg 7

/-- The frame goes out in two parts and is sent again by a timeout pass; then the
user logs out once more, and the first call takes ten bytes. -/
def twoLogouts : List WriterStep :=
  [commandLogout, .send (some 10), .send (some 54), .check 3000 7 (some 64), commandLogout,
    .send (some 10)]

theorem halfSent_runs : ((Writers.machine sampleEvp).exec .start twoLogouts).isSome := by
  decide +kernel

def halfSent : Writers := Option.get _ halfSent_runs

theorem halfSent_run : (Writers.machine sampleEvp).Run Writers.Permits halfSent := by
  refine Machine.Run.exec_steps (.start rfl) ?_ (Option.some_get halfSent_runs).symm
  decide +kernel

/-- Two whole frames, and ten bytes of a third. -/
theorem whole_frames_half : WholeFrames sampleEvp halfSent ∧
    halfSent.bytes = sampleLogoutFrame.bytes ++ sampleLogoutFrame.bytes ++
      sampleLogoutFrame.bytes.take 10 :=
  ⟨whole_frames halfSent_run, by decide +kernel⟩

theorem garbled_runs : ((Writers.machine sampleEvp).exec .start
    [commandLogout, .send (some 1), .send none, .check 3000 7 (some 64)]).isSome := by
  decide +kernel

/-- The second call of the loop fails, and the timeout thread sends the frame
again. -/
def garbled : Writers := Option.get _ garbled_runs

theorem garbled_not_whole :
    (Writers.machine sampleEvp).Reachable garbled ∧ ¬ WholeFrames sampleEvp garbled := by
  refine ⟨Machine.reachable_exec (M := Writers.machine sampleEvp) rfl garbled_runs, ?_⟩
  have hbytes : garbled.bytes = sampleLogoutFrame.bytes.take 1 ++ sampleLogoutFrame.bytes := by
    decide +kernel
  have hissued : garbled.issued = [sampleLogoutFrame.bytes] := by decide +kernel
  have hlen : sampleLogoutFrame.bytes.length = 64 := by decide +kernel
  rintro ⟨frames, tail, hall, hframes, htail⟩
  cases frames with
  | nil =>
    rcases htail with rfl | ⟨f, hf, hpre, -⟩
    · rw [hbytes] at hall
      exact absurd hall (by decide +kernel)
    · have hf := hf.2
      rw [hissued, List.mem_singleton] at hf
      have hle := hpre.length_le
      rw [List.flatten_nil, List.nil_append, hbytes] at hall
      rw [← hall, hf, List.length_append, List.length_take, hlen] at hle
      omega
  | cons f frames =>
    have hf := (hframes f (List.mem_cons_self ..)).2
    rw [hissued, List.mem_singleton] at hf
    have htake := congrArg (List.take 64) hall
    rw [hbytes, List.flatten_cons, hf, List.append_assoc, List.take_left' hlen] at htake
    exact absurd htake (by decide +kernel)

end MyChat
