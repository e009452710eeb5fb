import Mathlib.Data.Finmap
import MyChat.Reader

/-! The client's table of frames that wait for an ACK, with their retry counts
and send times. What a frame is is a parameter: bytes in the source, frames
named by the command that made them where commands have to be told apart. -/

namespace MyChat
open Json

def timeoutMs : Int := 2000

/-- Never assigned in the source. -/
def clientId : Bytes := []

structure Client (α : Type) where
  waitAckMsgMap : Finmap fun _ : UInt32 => α
  retryCountMap : Finmap fun _ : UInt32 => Nat
  sendTimeMap : Finmap fun _ : UInt32 => Int
  /-- the frames written to the socket, in order -/
  wire : List α
  /-- those of them that a timeout wrote again -/
  resent : List α
  /-- the frames given up with an error message -/
  failed : List α

namespace Client

section
variable {α : Type}

def start : Client α := ⟨∅, ∅, ∅, [], [], []⟩

/-- The three assignments of `encryptedMessage` and its send loop. -/
def register (msgId : UInt32) (data : α) (now : Int) (sends : Bool) (c : Client α) : Client α :=
  { c with
    waitAckMsgMap := c.waitAckMsgMap.insert msgId data
    retryCountMap := c.retryCountMap.insert msgId 0
    sendTimeMap := c.sendTimeMap.insert msgId now
    wire := if sends then c.wire ++ [data] else c.wire }

/-- The erasures of one entry. -/
def erase (msgId : UInt32) (c : Client α) : Client α :=
  { c with
    waitAckMsgMap := c.waitAckMsgMap.erase msgId
    retryCountMap := c.retryCountMap.erase msgId
    sendTimeMap := c.sendTimeMap.erase msgId }

/-- A resend that went out. -/
def resend (msgId : UInt32) (data : α) (retry : Nat) (now : Int) (c : Client α) : Client α :=
  { c with
    retryCountMap := c.retryCountMap.insert msgId (retry + 1)
    sendTimeMap := c.sendTimeMap.insert msgId now
    wire := c.wire ++ [data]
    resent := c.resent ++ [data] }

/-- `g_retryCountMap[msgId]` and `g_sendTimeMap[msgId]`, which insert what they
do not find. -/
def touch (msgId : UInt32) (c : Client α) : Client α :=
  { c with
    retryCountMap := c.retryCountMap.insert msgId ((c.retryCountMap.lookup msgId).getD 0)
    sendTimeMap := c.sendTimeMap.insert msgId ((c.sendTimeMap.lookup msgId).getD 0) }

/-- The loop body of the timeout pass, for one entry. -/
def checkEntry (now : Int) (sends : UInt32 → Bool) (msgId : UInt32) (c : Client α) : Client α :=
  match c.waitAckMsgMap.lookup msgId with
  | none => c
  | some data =>
      let retry := (c.retryCountMap.lookup msgId).getD 0
      let sendTime := (c.sendTimeMap.lookup msgId).getD 0
      let c := c.touch msgId
      if now - sendTime > timeoutMs then
        if retry ≥ retryMax then { c.erase msgId with failed := c.failed ++ [data] }
        else if sends msgId then c.resend msgId data retry now
        else c
      else c

/-- The loop over the table, in the order in which it iterates. -/
def checkTimeOutAndResend (now : Int) (sends : UInt32 → Bool) : List UInt32 → Client α → Client α
  | [], c => c
  | msgId :: order, c => checkTimeOutAndResend now sends order (checkEntry now sends msgId c)

def onReceiveAck (msgId : UInt32) (c : Client α) : Client α :=
  if msgId ∈ c.waitAckMsgMap then c.erase msgId else c

end

/-- Whether the frame was sent. Without a cipher text nothing is registered. -/
def encryptedMessage (evp : Evp) (iv : Option Iv) (msg : Bytes) (msgType : EnMsgType) (now : Int)
    (sends : Bool) (msgId : UInt32) (c : Client Bytes) : Client Bytes × Bool :=
  let data := Frame.wire evp iv ⟨msgType.val.toUInt32, msgId, msg⟩
  if data = [] then (c, false) else (c.register msgId data now sends, sends)

end Client

/-! ## What the reader acknowledges -/

/-- The message types for which `readTaskHandler` calls `onReceiveAck`. -/
def ackTypes : List EnMsgType := [.loginMsgAck, .regMsgAck, .oneChatMsg, .groupChatMsg, .ackMsg]

/-- The id that a received value acknowledges, if its type is one of these. -/
def ackOf (js : Json) : Except Failure (Option UInt32) :=
  match js.intAt (lit "msgid") with
  | none => .error .typeError
  | some msgtype =>
      let content := (js.index (lit "msg")).getD .null
      if content.isNull ∨ content.getString.isSome then
        if msgtype ∈ ackTypes.map EnMsgType.val then
          match js.uint32At (lit "msgId") with
          | none => .error .typeError
          | some msgId => .ok (some msgId)
        else .ok none
      else .error .typeError

/-- What is acknowledged is the id that reads as an unsigned number. -/
theorem ackOf_uint32At {js : Json} {m k : UInt32} (h : js.uint32At (lit "msgId") = some m)
    (ha : ackOf js = .ok (some k)) : k = m := by
  unfold ackOf at ha
  split at ha
  · cases ha
  · simp only [h] at ha
    split at ha
    · split at ha
      · cases ha; rfl
      · cases ha
    · cases ha

/-- The table's part of `readTaskHandler`, behind the parser. -/
def processAck {α : Type} (js : Json) (c : Client α) : Ret (Client α) :=
  match ackOf js with
  | .error e => { state := c, thrown := some e }
  | .ok none => { state := c }
  | .ok (some msgId) => { state := c.onReceiveAck msgId }

theorem processAck_acked {α : Type} {js : Json} {m : UInt32} (h : ackOf js = .ok (some m))
    (c : Client α) : (processAck js c).state = c.onReceiveAck m := by
  rw [processAck, h]

/-- A message that acknowledges nothing in the table leaves it alone. -/
theorem processAck_eq_self {α : Type} {js : Json} {c : Client α}
    (h : ∀ m, ackOf js = .ok (some m) → m ∉ c.waitAckMsgMap) : (processAck js c).state = c := by
  unfold processAck
  split
  · rfl
  · rfl
  · next m ha => simp only [Client.onReceiveAck, if_neg (h m ha)]

/-! ## Renaming frames -/

/-- The same table with its frames renamed. -/
structure Renamed {α β : Type} (f : α → β) (c : Client α) (c' : Client β) : Prop where
  waitAck : ∀ m, c'.waitAckMsgMap.lookup m = (c.waitAckMsgMap.lookup m).map f
  retry : c'.retryCountMap = c.retryCountMap
  time : c'.sendTimeMap = c.sendTimeMap
  wire : c'.wire = c.wire.map f
  resent : c'.resent = c.resent.map f
  failed : c'.failed = c.failed.map f

namespace Renamed

variable {α β : Type} {f : α → β} {c : Client α} {c' : Client β}

theorem start : Renamed f Client.start Client.start := ⟨fun _ => rfl, rfl, rfl, rfl, rfl, rfl⟩

theorem register (h : Renamed f c c') (msgId : UInt32) (data : α) (now : Int) (sends : Bool) :
    Renamed f (c.register msgId data now sends) (c'.register msgId (f data) now sends) := by
  refine ⟨fun m => ?_, ?_, ?_, ?_, h.resent, h.failed⟩
  · by_cases hm : m = msgId
    · subst hm
      simp only [Client.register, Finmap.lookup_insert, Option.map_some]
    · simp only [Client.register, Finmap.lookup_insert_of_ne _ hm, h.waitAck]
  · simp only [Client.register, h.retry]
  · simp only [Client.register, h.time]
  · simp only [Client.register, h.wire]
    split
    · rw [List.map_append]; rfl
    · rfl

theorem erase (h : Renamed f c c') (msgId : UInt32) :
    Renamed f (c.erase msgId) (c'.erase msgId) := by
  refine ⟨fun m => ?_, ?_, ?_, h.wire, h.resent, h.failed⟩
  · by_cases hm : m = msgId
    · subst hm
      simp only [Client.erase, Finmap.lookup_erase, Option.map_none]
    · simp only [Client.erase, Finmap.lookup_erase_ne hm, h.waitAck]
  · simp only [Client.erase, h.retry]
  · simp only [Client.erase, h.time]

theorem touch (h : Renamed f c c') (msgId : UInt32) : Renamed f (c.touch msgId) (c'.touch msgId) :=
  ⟨h.waitAck, by simp only [Client.touch, h.retry], by simp only [Client.touch, h.time], h.wire,
    h.resent, h.failed⟩

theorem checkEntry (h : Renamed f c c') (now : Int) (sends : UInt32 → Bool) (msgId : UInt32) :
    Renamed f (c.checkEntry now sends msgId) (c'.checkEntry now sends msgId) := by
  unfold Client.checkEntry
  rw [h.waitAck]
  cases c.waitAckMsgMap.lookup msgId with
  | none => exact h
  | some data =>
    have ht := h.touch msgId
    simp only [Option.map_some, h.retry, h.time]
    split
    · split
      · have he := ht.erase msgId
        exact ⟨he.waitAck, he.retry, he.time, he.wire, he.resent, by simp [ht.failed]⟩
      · split
        · refine ⟨ht.waitAck, ?_, ?_, ?_, ?_, ht.failed⟩
          · simp only [Client.resend, ht.retry]
          · simp only [Client.resend, ht.time]
          · simp [Client.resend, ht.wire]
          · simp [Client.resend, ht.resent]
        · exact ht
    · exact ht

theorem checkTimeOutAndResend (h : Renamed f c c') (now : Int) (sends : UInt32 → Bool)
    (order : List UInt32) :
    Renamed f (c.checkTimeOutAndResend now sends order)
      (c'.checkTimeOutAndResend now sends order) := by
  induction order generalizing c c' with
  | nil => exact h
  | cons msgId order ih => exact ih (h.checkEntry now sends msgId)

theorem onReceiveAck (h : Renamed f c c') (msgId : UInt32) :
    Renamed f (c.onReceiveAck msgId) (c'.onReceiveAck msgId) := by
  have hmem : msgId ∈ c'.waitAckMsgMap ↔ msgId ∈ c.waitAckMsgMap := by
    rw [← Finmap.lookup_isSome, ← Finmap.lookup_isSome, h.waitAck, Option.isSome_map]
  unfold Client.onReceiveAck
  by_cases hc : msgId ∈ c.waitAckMsgMap
  · rw [if_pos hc, if_pos (hmem.mpr hc)]
    exact h.erase msgId
  · rw [if_neg hc, if_neg (fun h' => hc (hmem.mp h'))]
    exact h

end Renamed

/-! ## Counting resends -/

/-- A frame with the number of the command that made it. -/
abbrev Tagged := Nat × Bytes

def Client.resends (cl : Client Tagged) (k : Nat) : Nat := (cl.resent.map Prod.fst).count k

/-- The `k`-th command has the `k`-th id. Its entry, if it has one, is under
that id, with its resends counted, and no command is sent again too often. -/
structure Counted (ids : List UInt32) (cl : Client Tagged) : Prop where
  msgId : ∀ m k d, cl.waitAckMsgMap.lookup m = some (k, d) → ids[k]? = some m
  retry : ∀ m k d, cl.waitAckMsgMap.lookup m = some (k, d) →
    cl.retryCountMap.lookup m = some (cl.resends k)
  bound : ∀ k, cl.resends k ≤ retryMax
  resent : ∀ e ∈ cl.resent, e.1 < ids.length

namespace Counted

variable {ids : List UInt32} {cl : Client Tagged}

theorem start : Counted [] Client.start :=
  ⟨fun m k d h => by simp [Client.start] at h, fun m k d h => by simp [Client.start] at h,
    fun _ => Nat.zero_le _, by simp [Client.start]⟩

/-- Two entries of one command are one entry. -/
theorem unique (h : Counted ids cl) {m m' : UInt32} {k : Nat} {d d' : Bytes}
    (he : cl.waitAckMsgMap.lookup m = some (k, d))
    (he' : cl.waitAckMsgMap.lookup m' = some (k, d')) :
    m = m' :=
  Option.some.inj ((h.msgId m k d he).symm.trans (h.msgId m' k d' he'))

theorem lt_length (h : Counted ids cl) {m : UInt32} {k : Nat} {d : Bytes}
    (he : cl.waitAckMsgMap.lookup m = some (k, d)) : k < ids.length :=
  (List.getElem?_eq_some_iff.mp (h.msgId m k d he)).1

theorem append (h : Counted ids cl) (m : UInt32) : Counted (ids ++ [m]) cl := by
  refine ⟨fun m' k d he => ?_, h.retry, h.bound, fun e he => ?_⟩
  · rw [List.getElem?_append_left (h.lt_length he)]
    exact h.msgId m' k d he
  · exact Nat.lt_of_lt_of_le (h.resent e he) (by simp)

/-- An entry behind an insertion is the new one, or one of before. -/
theorem lookup_register {msgId m : UInt32} {data e : Tagged} {now : Int} {sends : Bool}
    (he : (cl.register msgId data now sends).waitAckMsgMap.lookup m = some e) :
    m = msgId ∧ e = data ∨ m ≠ msgId ∧ cl.waitAckMsgMap.lookup m = some e := by
  by_cases hm : m = msgId
  · subst hm
    simp only [Client.register, Finmap.lookup_insert, Option.some.injEq] at he
    exact Or.inl ⟨rfl, he.symm⟩
  · exact Or.inr ⟨hm, (Finmap.lookup_insert_of_ne _ hm).symm.trans he⟩

/-- A new command has not been sent again yet. -/
theorem resends_new (h : Counted ids cl) : cl.resends ids.length = 0 := by
  rw [Client.resends, List.count_eq_zero]
  intro hmem
  obtain ⟨e, he, hlen⟩ := List.mem_map.mp hmem
  exact Nat.lt_irrefl _ (hlen ▸ h.resent e he)

theorem register (h : Counted ids cl) (msgId : UInt32) (data : Bytes) (now : Int) (sends : Bool) :
    Counted (ids ++ [msgId]) (cl.register msgId (ids.length, data) now sends) := by
  have happ := h.append msgId
  refine ⟨fun m k d he => ?_, fun m k d he => ?_, h.bound, happ.resent⟩
  · rcases lookup_register he with ⟨rfl, hk⟩ | ⟨-, he⟩
    · cases hk
      simp
    · exact happ.msgId m k d he
  · show (cl.retryCountMap.insert msgId 0).lookup m = some (cl.resends k)
    rcases lookup_register he with ⟨rfl, hk⟩ | ⟨hm, he⟩
    · cases hk
      rw [Finmap.lookup_insert, h.resends_new]
    · rw [Finmap.lookup_insert_of_ne _ hm]
      exact h.retry m k d he

/-- An entry behind an erasure is one of before, under another id. -/
theorem lookup_erase {m msgId : UInt32} {e : Tagged}
    (he : (cl.erase msgId).waitAckMsgMap.lookup m = some e) :
    m ≠ msgId ∧ cl.waitAckMsgMap.lookup m = some e := by
  have hm : m ≠ msgId := by
    rintro rfl
    simp [Client.erase] at he
  exact ⟨hm, (Finmap.lookup_erase_ne hm).symm.trans he⟩

theorem erase (h : Counted ids cl) (msgId : UInt32) : Counted ids (cl.erase msgId) := by
  refine ⟨fun m k d he => h.msgId m k d (lookup_erase he).2, fun m k d he => ?_, h.bound, h.resent⟩
  obtain ⟨hm, he⟩ := lookup_erase he
  exact (Finmap.lookup_erase_ne hm).trans (h.retry m k d he)

theorem onReceiveAck (h : Counted ids cl) (msgId : UInt32) :
    Counted ids (cl.onReceiveAck msgId) := by
  unfold Client.onReceiveAck
  split
  · exact h.erase msgId
  · exact h

theorem processAck (h : Counted ids cl) (js : Json) : Counted ids (processAck js cl).state := by
  unfold MyChat.processAck
  split
  · exact h
  · exact h
  · exact h.onReceiveAck _

theorem touch (h : Counted ids cl) {m : UInt32} {k : Nat} {d : Bytes}
    (he : cl.waitAckMsgMap.lookup m = some (k, d)) : Counted ids (cl.touch m) := by
  refine ⟨h.msgId, fun m' k' d' he' => ?_, h.bound, h.resent⟩
  by_cases hm : m' = m
  · subst hm
    rw [Client.touch, Finmap.lookup_insert, h.retry m' k d he]
    exact congrArg some
      (congrArg cl.resends (congrArg Prod.fst (Option.some.inj (he.symm.trans he'))))
  · exact (Finmap.lookup_insert_of_ne _ hm).trans (h.retry m' k' d' he')

theorem resends_resend (k : Nat) (d : Bytes) (m : UInt32) (retry : Nat) (now : Int) (j : Nat) :
    (cl.resend m (k, d) retry now).resends j = cl.resends j + if k = j then 1 else 0 := by
  simp only [Client.resends, Client.resend, List.map_append, List.count_append, List.map_cons,
    List.map_nil, List.count_singleton, beq_iff_eq]

theorem resend (h : Counted ids cl) {m : UInt32} {k : Nat} {d : Bytes}
    (he : cl.waitAckMsgMap.lookup m = some (k, d)) (hless : cl.resends k < retryMax) (now : Int) :
    Counted ids (cl.resend m (k, d) (cl.resends k) now) := by
  refine ⟨h.msgId, fun m' k' d' he' => ?_, fun j => ?_, fun e hmem => ?_⟩
  · rw [resends_resend]
    by_cases hm : m' = m
    · subst hm
      cases Option.some.inj (he.symm.trans he')
      rw [if_pos rfl]
      exact Finmap.lookup_insert _
    · have hk : k ≠ k' := by
        rintro rfl
        exact hm (h.unique he' he)
      rw [if_neg hk]
      exact (Finmap.lookup_insert_of_ne _ hm).trans (h.retry m' k' d' he')
  · rw [resends_resend]
    split
    · next hj => subst hj; exact hless
    · exact h.bound j
  · rcases List.mem_append.mp hmem with hmem | hmem
    · exact h.resent e hmem
    · cases List.mem_singleton.mp hmem
      exact h.lt_length he

theorem checkEntry (h : Counted ids cl) (now : Int) (sends : UInt32 → Bool) (m : UInt32) :
    Counted ids (cl.checkEntry now sends m) := by
  unfold Client.checkEntry
  split
  · exact h
  · next e he =>
    obtain ⟨k, d⟩ := e
    have ht := h.touch he
    simp only [h.retry m k d he, Option.getD_some]
    split
    · split
      · exact ⟨(ht.erase m).msgId, (ht.erase m).retry, h.bound, h.resent⟩
      · next hmax =>
        split
        · exact ht.resend he (Nat.lt_of_not_le hmax) now
        · exact ht
    · exact ht

theorem checkTimeOutAndResend (h : Counted ids cl) (now : Int) (sends : UInt32 → Bool)
    (order : List UInt32) : Counted ids (cl.checkTimeOutAndResend now sends order) := by
  induction order generalizing cl with
  | nil => exact h
  | cons m order ih => exact ih (h.checkEntry now sends m)

end Counted

end MyChat
