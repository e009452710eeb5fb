import MyChat.Lib.Machine
import MyChat.Reassembly
import MyChat.Retry

/-! The three tables behind a frame that waits, as one: an entry for each id,
and a timeout pass that treats every entry by itself. -/

namespace MyChat

/-- What the three tables hold for one id. -/
structure Entry (α : Type) where
  data : α
  retry : Nat
  sendTime : Int
  deriving DecidableEq

namespace Entry

variable {α : Type}

def timedOut (now : Int) (e : Entry α) : Prop := now - e.sendTime > timeoutMs

instance (now : Int) (e : Entry α) : Decidable (e.timedOut now) := by
  unfold timedOut; infer_instance

/-- What a pass makes of an entry: dropped, sent again, or left. -/
def check (now : Int) (sends : Bool) (e : Entry α) : Option (Entry α) :=
  if e.timedOut now then
    if e.retry ≥ retryMax then none
    else if sends then some { e with retry := e.retry + 1, sendTime := now }
    else some e
  else some e

/-- The frame that the pass sends again for it. -/
def resends (now : Int) (sends : Bool) (e : Entry α) : Option α :=
  if e.timedOut now ∧ e.retry < retryMax ∧ sends then some e.data else none

end Entry

namespace Client

variable {α : Type}

def entry (msgId : UInt32) (c : Client α) : Option (Entry α) :=
  (c.waitAckMsgMap.lookup msgId).map fun data =>
    ⟨data, (c.retryCountMap.lookup msgId).getD 0, (c.sendTimeMap.lookup msgId).getD 0⟩

/-- The three tables have the same keys. -/
structure SameKeys (c : Client α) : Prop where
  retry : c.retryCountMap.keys = c.waitAckMsgMap.keys
  time : c.sendTimeMap.keys = c.waitAckMsgMap.keys

variable {c c' : Client α} {msgId m : UInt32} {e : Entry α}

theorem entry_eq_none : c.entry m = none ↔ m ∉ c.waitAckMsgMap := by
  rw [entry, Option.map_eq_none_iff, Finmap.lookup_eq_none]

theorem mem_of_entry (h : c.entry m = some e) : m ∈ c.waitAckMsgMap := by
  by_contra hm
  rw [entry_eq_none.mpr hm] at h
  cases h

/-! ## Entries behind each operation -/

theorem entry_register (data : α) (now : Int) (sends : Bool) :
    (c.register msgId data now sends).entry m = if m = msgId then some ⟨data, 0, now⟩
      else c.entry m := by
  by_cases hm : m = msgId
  · subst hm
    simp [entry, register]
  · simp [entry, register, Finmap.lookup_insert_of_ne _ hm, hm]

theorem entry_erase : (c.erase msgId).entry m = if m = msgId then none else c.entry m := by
  by_cases hm : m = msgId
  · subst hm
    simp [entry, erase]
  · simp [entry, erase, Finmap.lookup_erase_ne hm, hm]

theorem entry_onReceiveAck :
    (c.onReceiveAck msgId).entry m = if m = msgId then none else c.entry m := by
  unfold onReceiveAck
  split
  · exact entry_erase
  · next h =>
    split
    · next hm => rw [hm, entry_eq_none.mpr h]
    · rfl

theorem entry_touch : (c.touch msgId).entry m = c.entry m := by
  by_cases hm : m = msgId
  · subst hm
    simp [entry, touch]
  · simp [entry, touch, Finmap.lookup_insert_of_ne _ hm]

theorem entry_resend (h : c.entry msgId = some e) (now : Int) :
    (c.resend msgId e.data e.retry now).entry m =
      if m = msgId then some { e with retry := e.retry + 1, sendTime := now } else c.entry m := by
  obtain ⟨data, hdata, rfl⟩ := Option.map_eq_some_iff.mp h
  by_cases hm : m = msgId
  · subst hm
    simp [entry, resend, hdata]
  · simp [entry, resend, Finmap.lookup_insert_of_ne _ hm, hm]

/-- The loop body, by the entry it finds. -/
theorem checkEntry_eq (now : Int) (sends : UInt32 → Bool) :
    c.checkEntry now sends msgId =
      match c.entry msgId with
      | none => c
      | some e =>
          if e.timedOut now then
            if e.retry ≥ retryMax then
              { (c.touch msgId).erase msgId with failed := c.failed ++ [e.data] }
            else if sends msgId then (c.touch msgId).resend msgId e.data e.retry now
            else c.touch msgId
          else c.touch msgId := by
  unfold checkEntry entry
  cases c.waitAckMsgMap.lookup msgId with
  | none => rfl
  | some data => rfl

theorem entry_checkEntry (now : Int) (sends : UInt32 → Bool) :
    (c.checkEntry now sends msgId).entry m =
      if m = msgId then (c.entry msgId).bind (Entry.check now (sends msgId)) else c.entry m := by
  rw [checkEntry_eq]
  cases he : c.entry msgId with
  | none =>
    simp only [Option.bind_none]
    split
    · next hm => rw [hm, he]
    · rfl
  | some e =>
    have htouch : (c.touch msgId).entry msgId = some e := entry_touch.trans he
    have hkeep : (c.touch msgId).entry m = if m = msgId then some e else c.entry m := by
      rw [entry_touch]
      split
      · next hm => rw [hm, he]
      · rfl
    simp only [Option.bind_some, Entry.check]
    split
    · split
      · show ((c.touch msgId).erase msgId).entry m = _
        rw [entry_erase, entry_touch]
      · split
        · rw [entry_resend htouch now, entry_touch]
        · exact hkeep
    · exact hkeep

/-! ## Keys -/

theorem keys_insert {β : Type} (t : Finmap fun _ : UInt32 => β) (b : β) :
    (t.insert msgId b).keys = insert msgId t.keys := by
  ext m
  rw [Finset.mem_insert, Finmap.mem_keys, Finmap.mem_insert, Finmap.mem_keys]

namespace SameKeys

theorem start : SameKeys (Client.start : Client α) := ⟨rfl, rfl⟩

theorem register (h : c.SameKeys) (data : α) (now : Int) (sends : Bool) :
    (c.register msgId data now sends).SameKeys := by
  constructor
  · simp only [Client.register, keys_insert, h.retry]
  · simp only [Client.register, keys_insert, h.time]

theorem erase (h : c.SameKeys) : (c.erase msgId).SameKeys := by
  constructor
  · simp only [Client.erase, Finmap.keys_erase, h.retry]
  · simp only [Client.erase, Finmap.keys_erase, h.time]

theorem onReceiveAck (h : c.SameKeys) : (c.onReceiveAck msgId).SameKeys := by
  unfold Client.onReceiveAck
  split
  · exact h.erase
  · exact h

/-- The inserting lookups and the updates of an entry add no key. -/
theorem touch (h : c.SameKeys) (hm : msgId ∈ c.waitAckMsgMap) : (c.touch msgId).SameKeys := by
  have hmem := Finmap.mem_keys.mpr hm
  constructor
  · simp only [Client.touch, keys_insert, h.retry, Finset.insert_eq_of_mem hmem]
  · simp only [Client.touch, keys_insert, h.time, Finset.insert_eq_of_mem hmem]

theorem resend (h : c.SameKeys) (hm : msgId ∈ c.waitAckMsgMap) (data : α) (retry : Nat)
    (now : Int) :
    (c.resend msgId data retry now).SameKeys := by
  have hmem := Finmap.mem_keys.mpr hm
  constructor
  · simp only [Client.resend, keys_insert, h.retry, Finset.insert_eq_of_mem hmem]
  · simp only [Client.resend, keys_insert, h.time, Finset.insert_eq_of_mem hmem]

theorem checkEntry (h : c.SameKeys) (now : Int) (sends : UInt32 → Bool) :
    (c.checkEntry now sends msgId).SameKeys := by
  rw [checkEntry_eq]
  cases he : c.entry msgId with
  | none => exact h
  | some e =>
    have hm := mem_of_entry he
    have ht := h.touch hm
    simp only
    split
    · split
      · exact ⟨ht.erase.retry, ht.erase.time⟩
      · split
        · exact ht.resend hm _ _ _
        · exact ht
    · exact ht

theorem checkTimeOutAndResend (h : c.SameKeys) (now : Int) (sends : UInt32 → Bool)
    (order : List UInt32) : (c.checkTimeOutAndResend now sends order).SameKeys := by
  induction order generalizing c with
  | nil => exact h
  | cons m order ih => exact ih (h.checkEntry now sends)

/-- With the same keys everywhere, the entries say all of the three tables. -/
theorem lookup_eq (h : c.SameKeys) (m : UInt32) :
    c.retryCountMap.lookup m = (c.entry m).map Entry.retry ∧
      c.sendTimeMap.lookup m = (c.entry m).map Entry.sendTime := by
  cases hw : c.waitAckMsgMap.lookup m with
  | none =>
    have hm := Finmap.lookup_eq_none.mp hw
    rw [entry_eq_none.mpr hm, Finmap.lookup_eq_none.mpr, Finmap.lookup_eq_none.mpr]
    · exact ⟨rfl, rfl⟩
    · rwa [← Finmap.mem_keys, h.time, Finmap.mem_keys]
    · rwa [← Finmap.mem_keys, h.retry, Finmap.mem_keys]
  | some data =>
    have hm := Finmap.mem_of_lookup_eq_some hw
    obtain ⟨n, hn⟩ : ∃ n, c.retryCountMap.lookup m = some n :=
      Finmap.mem_iff.mp (by rwa [← Finmap.mem_keys, h.retry, Finmap.mem_keys])
    obtain ⟨t, ht⟩ : ∃ t, c.sendTimeMap.lookup m = some t :=
      Finmap.mem_iff.mp (by rwa [← Finmap.mem_keys, h.time, Finmap.mem_keys])
    simp [entry, hw, hn, ht]

/-- Clients with the same entries have the same tables. -/
theorem tables_eq (h : c.SameKeys) (h' : c'.SameKeys) (heq : ∀ m, c'.entry m = c.entry m) :
    c'.waitAckMsgMap = c.waitAckMsgMap ∧ c'.retryCountMap = c.retryCountMap ∧
      c'.sendTimeMap = c.sendTimeMap := by
  refine ⟨Finmap.ext_lookup fun m => ?_, Finmap.ext_lookup fun m =>
    ?_, Finmap.ext_lookup fun m => ?_⟩
  · have hdata : ∀ c : Client α, c.waitAckMsgMap.lookup m = (c.entry m).map Entry.data := by
      intro c
      rw [entry, Option.map_map]
      exact Option.map_id'.symm
    rw [hdata c', hdata c, heq]
  · rw [(h'.lookup_eq m).1, (h.lookup_eq m).1, heq]
  · rw [(h'.lookup_eq m).2, (h.lookup_eq m).2, heq]

end SameKeys

/-! ## A pass -/

/-- The pass treats every entry it comes by once, and by itself. -/
theorem entry_checkTimeOutAndResend (now : Int) (sends : UInt32 → Bool) {order : List UInt32}
    (h : order.Nodup) :
    (c.checkTimeOutAndResend now sends order).entry m =
      if m ∈ order then (c.entry m).bind (Entry.check now (sends m)) else c.entry m := by
  induction order generalizing c with
  | nil => rfl
  | cons m' order ih =>
    obtain ⟨hnew, hnodup⟩ := List.nodup_cons.mp h
    rw [checkTimeOutAndResend, ih hnodup, entry_checkEntry]
    by_cases hm : m = m'
    · subst hm
      rw [if_neg hnew, if_pos rfl, if_pos List.mem_cons_self]
    · rw [if_neg hm]
      simp only [List.mem_cons, hm, false_or]

theorem resent_checkEntry (now : Int) (sends : UInt32 → Bool) :
    (c.checkEntry now sends msgId).resent =
      c.resent ++ ((c.entry msgId).bind (Entry.resends now (sends msgId))).toList := by
  rw [checkEntry_eq]
  cases c.entry msgId with
  | none => simp
  | some e =>
    simp only [Option.bind_some, Entry.resends]
    by_cases ht : e.timedOut now
    · by_cases hr : e.retry ≥ retryMax
      · simp [ht, hr, Nat.not_lt.mpr hr, Client.erase, Client.touch]
      · cases sends msgId <;> simp [ht, hr, Nat.lt_of_not_le hr, Client.resend, Client.touch]
    · simp [ht, Client.touch]

theorem resent_checkTimeOutAndResend (now : Int) (sends : UInt32 → Bool) {order : List UInt32}
    (h : order.Nodup) :
    (c.checkTimeOutAndResend now sends order).resent = c.resent ++
      order.filterMap fun m => (c.entry m).bind (Entry.resends now (sends m)) := by
  induction order generalizing c with
  | nil => simp [checkTimeOutAndResend]
  | cons m' order ih =>
    obtain ⟨hnew, hnodup⟩ := List.nodup_cons.mp h
    -- the entries still to come are as before
    have hrest : (order.filterMap fun m =>
        ((c.checkEntry now sends m').entry m).bind (Entry.resends now (sends m))) =
          order.filterMap fun m => (c.entry m).bind (Entry.resends now (sends m)) := by
      refine List.filterMap_congr fun m hm => ?_
      rw [entry_checkEntry, if_neg (by rintro rfl; exact hnew hm)]
    rw [checkTimeOutAndResend, ih hnodup, resent_checkEntry, hrest, List.append_assoc]
    cases hr : (c.entry m').bind (Entry.resends now (sends m')) with
    | none => simp [hr]
    | some data => simp [hr]

/-- An order in which a pass can go through the table. -/
def Enumerates (order : List UInt32) (c : Client α) : Prop :=
  order.Nodup ∧ order.toFinset = c.waitAckMsgMap.keys

instance (order : List UInt32) (c : Client α) : Decidable (Enumerates order c) := by
  unfold Enumerates; infer_instance

theorem Enumerates.entry {order : List UInt32} (h : Enumerates order c) (now : Int)
    (sends : UInt32 → Bool) (m : UInt32) :
    (c.checkTimeOutAndResend now sends order).entry m =
      (c.entry m).bind (Entry.check now (sends m)) := by
  rw [entry_checkTimeOutAndResend now sends h.1]
  split
  · rfl
  · next hm =>
    have hnone : c.entry m = none := by
      rwa [entry_eq_none, ← Finmap.mem_keys, ← h.2, List.mem_toFinset]
    rw [hnone, Option.bind_none]

/-- What a pass does to the table: which entries it drops, sends again and
leaves, and that it sends each frame once. -/
structure Passes (now : Int) (sends : UInt32 → Bool) (order : List UInt32) (c c' : Client α) :
    Prop where
  dropped : ∀ m e, c.entry m = some e →
    (m ∉ c'.waitAckMsgMap ↔ e.timedOut now ∧ e.retry = retryMax)
  visited : ∀ m e, c.entry m = some e → e.timedOut now → e.retry ≠ retryMax →
    c'.entry m = some (if sends m then { e with retry := e.retry + 1, sendTime := now } else e)
  untouched : ∀ m e, c.entry m = some e → ¬ e.timedOut now → c'.entry m = some e
  absent : ∀ m, c.entry m = none → c'.entry m = none
  resent : c'.resent = c.resent ++
    order.filterMap fun m => (c.entry m).bind (Entry.resends now (sends m))

theorem Enumerates.passes {order : List UInt32} (h : Enumerates order c)
    (hcount : ∀ m e, c.entry m = some e → e.retry ≤ retryMax) (now : Int) (sends : UInt32 → Bool) :
    Passes now sends order c (c.checkTimeOutAndResend now sends order) := by
  have hentry : ∀ {m e}, c.entry m = some e →
      (c.checkTimeOutAndResend now sends order).entry m = e.check now (sends m) := by
    intro m e he
    rw [h.entry, he, Option.bind_some]
  refine ⟨fun m e he => ?_, fun m e he ht hr => ?_, fun m e he ht => ?_, fun m hm => ?_,
    resent_checkTimeOutAndResend now sends h.1⟩
  · rw [← entry_eq_none, hentry he, Entry.check]
    have hle := hcount m e he
    by_cases ht : e.timedOut now
    · rw [if_pos ht]
      by_cases hr : e.retry ≥ retryMax
      · rw [if_pos hr]
        exact iff_of_true rfl ⟨ht, Nat.le_antisymm hle hr⟩
      · rw [if_neg hr]
        refine iff_of_false ?_ fun h => hr h.2.ge
        split <;> simp
    · rw [if_neg ht]
      exact iff_of_false (by simp) fun h => ht h.1
  · have hlt : ¬ e.retry ≥ retryMax := Nat.not_le.mpr (lt_of_le_of_ne (hcount m e he) hr)
    rw [hentry he, Entry.check, if_pos ht, if_neg hlt]
    split <;> rfl
  · rw [hentry he, Entry.check, if_neg ht]
  · rw [h.entry, hm, Option.bind_none]

end Client

/-! ## Runs -/

/-- The client's table, its frames numbered by the calls that registered them. -/
structure Retries where
  calls : List UInt32
  client : Client Tagged

inductive RetryStep
  | encryptedMessage (iv : Option Iv) (msg : Bytes) (msgType : EnMsgType) (now : Int) (sends : Bool)
      (msgId : UInt32)
  | checkTimeOutAndResend (now : Int) (sends : UInt32 → Bool) (order : List UInt32)
  | onReceiveAck (msgId : UInt32)

namespace Retries

def start : Retries := ⟨[], Client.start⟩

def step (evp : Evp) (r : Retries) : RetryStep → Option Retries
  | .encryptedMessage iv msg msgType now sends msgId =>
      let data := Frame.wire evp iv ⟨msgType.val.toUInt32, msgId, msg⟩
      if data = [] then some r
      else some ⟨r.calls ++ [msgId], r.client.register msgId (r.calls.length, data) now sends⟩
  | .checkTimeOutAndResend now sends order =>
      if Client.Enumerates order r.client then
        some { r with client := r.client.checkTimeOutAndResend now sends order }
      else none
  | .onReceiveAck msgId => some { r with client := r.client.onReceiveAck msgId }

def machine (evp : Evp) : Machine Retries RetryStep where
  init r := r = start
  step := step evp

/-- The step on a client that does not number its frames. -/
def plainStep (evp : Evp) (c : Client Bytes) : RetryStep → Client Bytes
  | .encryptedMessage iv msg msgType now sends msgId =>
      (c.encryptedMessage evp iv msg msgType now sends msgId).1
  | .checkTimeOutAndResend now sends order => c.checkTimeOutAndResend now sends order
  | .onReceiveAck msgId => c.onReceiveAck msgId

/-- The numbers change nothing. -/
theorem step_renamed {evp : Evp} {r r' : Retries} {c : Client Bytes}
    (h : Renamed Prod.snd r.client c) {l : RetryStep} (hs : r.step evp l = some r') :
    Renamed Prod.snd r'.client (plainStep evp c l) := by
  cases l with
  | encryptedMessage iv msg msgType now sends msgId =>
    simp only [step] at hs
    simp only [plainStep, Client.encryptedMessage]
    split at hs
    · next hnil => cases hs; rw [if_pos hnil]; exact h
    · next hnil =>
      cases hs
      rw [if_neg hnil]
      exact h.register msgId (r.calls.length, _) now sends
  | checkTimeOutAndResend now sends order =>
    simp only [step] at hs
    split at hs
    · cases hs; exact h.checkTimeOutAndResend now sends order
    · cases hs
  | onReceiveAck msgId =>
    cases hs
    exact h.onReceiveAck msgId

/-- Same keys, numbered and counted frames, and counts within the budget. -/
structure Inv (r : Retries) : Prop where
  keys : r.client.SameKeys
  counted : Counted r.calls r.client

theorem Inv.step {evp : Evp} {r r' : Retries} (h : Inv r) {l : RetryStep}
    (hs : r.step evp l = some r') : Inv r' := by
  cases l with
  | encryptedMessage iv msg msgType now sends msgId =>
    simp only [Retries.step] at hs
    split at hs
    · cases hs; exact h
    · cases hs
      exact ⟨h.keys.register _ _ _, h.counted.register msgId _ now sends⟩
  | checkTimeOutAndResend now sends order =>
    simp only [Retries.step] at hs
    split at hs
    · cases hs
      exact ⟨h.keys.checkTimeOutAndResend now sends order,
        h.counted.checkTimeOutAndResend now sends order⟩
    · cases hs
  | onReceiveAck msgId =>
    cases hs
    exact ⟨h.keys.onReceiveAck, h.counted.onReceiveAck msgId⟩

end Retries

/-- The three tables agree on their keys, no count and no frame exceeds the
budget, and a pass in any order does the same to every entry. -/
structure WellKept (cl : Client Tagged) : Prop where
  keys : cl.retryCountMap.keys = cl.waitAckMsgMap.keys ∧ cl.sendTimeMap.keys = cl.waitAckMsgMap.keys
  counts : ∀ m n, cl.retryCountMap.lookup m = some n → n ≤ retryMax
  budget : ∀ k, cl.resends k ≤ retryMax
  pass : ∀ now sends order, Client.Enumerates order cl →
    Client.Passes now sends order cl (cl.checkTimeOutAndResend now sends order)
  anyOrder : ∀ now sends order order', Client.Enumerates order cl → Client.Enumerates order' cl →
    let cl' := cl.checkTimeOutAndResend now sends order
    let cl'' := cl.checkTimeOutAndResend now sends order'
    cl''.waitAckMsgMap = cl'.waitAckMsgMap ∧ cl''.retryCountMap = cl'.retryCountMap ∧
      cl''.sendTimeMap = cl'.sendTimeMap

theorem Retries.Inv.wellKept {r : Retries} (h : r.Inv) : WellKept r.client := by
  have hcount : ∀ m e, r.client.entry m = some e → e.retry ≤ retryMax := by
    intro m e he
    obtain ⟨⟨k, d⟩, hd, rfl⟩ := Option.map_eq_some_iff.mp he
    simp only [h.counted.retry m k d hd, Option.getD_some]
    exact h.counted.bound k
  refine ⟨⟨h.keys.retry, h.keys.time⟩, fun m n hn => ?_, h.counted.bound,
    fun now sends order ho => ho.passes hcount now sends, fun now sends order order' ho ho' => ?_⟩
  · rw [(h.keys.lookup_eq m).1] at hn
    obtain ⟨e, he, rfl⟩ := Option.map_eq_some_iff.mp hn
    exact hcount m e he
  · refine (h.keys.checkTimeOutAndResend now sends order).tables_eq
      (h.keys.checkTimeOutAndResend now sends order') fun m => ?_
    rw [ho'.entry, ho.entry]

/-- In every run, after every step. -/
theorem retryTable_wellKept {evp : Evp} {r : Retries} (h : (Retries.machine evp).Reachable r) :
    WellKept r.client := by
  have hinv : r.Inv := by
    refine h.invariant ?_ fun r l r' hi _ hs => hi.step hs
    rintro r rfl
    exact ⟨Client.SameKeys.start, Counted.start⟩
  exact hinv.wellKept

/-- A logout that is never acknowledged, and three passes. -/
def unacknowledged : List RetryStep :=
  [.encryptedMessage (some sampleIv) sampleLogoutFrame.text .logoutMsg 0 true 7,
    .checkTimeOutAndResend 3000 (fun _ => true) [7],
    .checkTimeOutAndResend 6000 (fun _ => true) [7],
    .checkTimeOutAndResend 9000 (fun _ => true) [7]]

theorem unacknowledged_runs :
    ((Retries.machine sampleEvp).exec Retries.start unacknowledged).isSome := by
  decide +kernel

theorem retryTable_wellKept_exhausted :
    (Option.get _ unacknowledged_runs).client.resends 0 = retryMax ∧
      WellKept (Option.get _ unacknowledged_runs).client :=
  ⟨by decide +kernel, retryTable_wellKept
    (Machine.reachable_exec (M := Retries.machine sampleEvp) rfl unacknowledged_runs)⟩

end MyChat
