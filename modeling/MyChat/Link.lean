import Mathlib.Algebra.Order.BigOperators.Group.List
import MyChat.Correlation
import MyChat.Reassembly
import MyChat.Routes
import MyChat.ServerRun

/-! One client and one server on a connection that delivers every frame once
and in order. Frames wait as long as they like, so the timeout pass can write a
frame again before, or after, the server has handled it. -/

namespace MyChat
open Json

/-- A command the client issued. -/
structure Issued where
  type : EnMsgType
  msgId : UInt32
  js : Json

/-- One call of `onMessage` for a frame of the client. -/
structure Handling where
  command : Nat
  before : Server
  after : Server

/-- `handled` counts the frames that the server has taken off the wire, `heard`
the server's frames that the client has. -/
structure Link where
  client : Client Tagged
  commands : List Issued
  server : Server
  running : Bool
  handled : List Handling
  heard : Nat

inductive LinkStep
  /-- The user gives a command at a second of the client's clock. -/
  | issue (time : Nat) (now : Int) (t : EnMsgType) (fs : List (String × Json)) (iv : Option Iv)
      (sends : Bool)
  /-- A timeout pass of the client. -/
  | timeout (now : Int) (sends : UInt32 → Bool) (order : List UInt32)
  /-- The next frame of the client reaches the server. -/
  | handle (my : Nat → MySQL)
  /-- The next frame on this connection reaches the client. -/
  | hear
  /-- Anything else the server does. -/
  | serve (x : ServerStep)

namespace Link

def start (s : Server) : Link := ⟨Client.start, [], s, true, [], 0⟩

section
variable (evp : Evp) (codec : JsonCodec) (conn : Conn)

/-- An exception that leaves `onMessage` ends the server. -/
def step (l : Link) : LinkStep → Option Link
  | .issue time now t fs iv sends =>
      (generateUniqueMsgId time clientId).bind fun msgId =>
        let js := clientRequest t msgId fs
        (codec.dump js).bind fun jsonStr =>
          let data := Frame.wire evp iv ⟨t.val.toUInt32, msgId, jsonStr⟩
          if data = [] then some l
          else if js.canon then
            some { l with
              client := l.client.register msgId (l.commands.length, data) now sends
              commands := l.commands ++ [⟨t, msgId, js⟩] }
          else none
  | .timeout now sends order =>
      if order.Nodup ∧ order.toFinset = l.client.waitAckMsgMap.keys then
        some { l with client := l.client.checkTimeOutAndResend now sends order }
      else none
  | .handle my =>
      if l.running then
        (l.client.wire[l.handled.length]?).map fun e =>
          let r := onMessage evp codec (chatService codec my) conn e.2 l.server
          { l with
            server := r.state
            running := r.thrown.isNone
            handled := l.handled ++ [⟨e.1, l.server, r.state⟩] }
      else none
  | .hear =>
      ((l.server.sent.filter (·.conn = conn))[l.heard]?).bind fun e =>
        (codec.parse e.frame.text).map fun js =>
          { l with client := (processAck js l.client).state, heard := l.heard + 1 }
  | .serve x =>
      if l.running then (l.server.apply codec x).map fun s => { l with server := s } else none

def machine : Machine Link LinkStep where
  init l := ∃ s, l = start s
  step := step evp codec conn

end

end Link

/-! ## Effects -/

namespace Handling

def tasks (e : Handling) : Nat := (Added.between e.before e.after).commands

def routes (r : Int32) (e : Handling) : Nat :=
  (Added.between e.before e.after).routesTo e.before.self r

def registered (e : Handling) : Nat :=
  e.after.db.user.rows.length - e.before.db.user.rows.length

def Opens (id : Int32) (e : Handling) : Prop :=
  e.before.userConnMap.lookup id = none ∧ e.after.userConnMap.lookup id ≠ none

def Ends (id : Int32) (e : Handling) : Prop :=
  e.before.userConnMap.lookup id ≠ none ∧ e.after.userConnMap.lookup id = none

end Handling

namespace Link

/-- The calls for the frames of the `k`-th command. -/
def handlings (l : Link) (k : Nat) : List Handling := l.handled.filter (·.command = k)

/-- What these calls did, added up. -/
def effect (l : Link) (k : Nat) (f : Handling → Nat) : Nat := ((l.handlings k).map f).sum

/-- A frame of the `k`-th command ends a session that a later command opened. -/
def EndsLater (l : Link) (k : Nat) : Prop :=
  ∃ e' e : Handling, [e', e].Sublist l.handled ∧ e.command = k ∧ k < e'.command ∧
    ∃ id, e'.Opens id ∧ e.Ends id

/-- Each command takes effect at most once. -/
structure AtMostOnce (l : Link) (k : Nat) : Prop where
  tasks : l.effect k Handling.tasks ≤ 1
  registered : l.effect k Handling.registered ≤ 1
  routes : ∀ r, l.effect k (·.routes r) ≤ 1
  sessions : ¬ l.EndsLater k

/-- Rows that list `r` in the group. -/
def memberships (groupid r : Int32) (s : Server) : Nat :=
  s.db.groupuser.countP fun m => m.groupid = groupid ∧ m.userid = r

/-- The frames of the `k`-th command on the wire. -/
def copies (l : Link) (k : Nat) : Nat := (l.client.wire.map Prod.fst).count k

/-- Each copy of a command takes effect at most once, and there is one copy
more than there were resends. -/
structure OncePerCopy (l : Link) (k : Nat) (cmd : Issued) : Prop where
  copies : l.copies k ≤ 1 + l.client.resends k
  resends : l.client.resends k ≤ retryMax
  handlings : (l.handlings k).length ≤ l.copies k
  tasks : l.effect k Handling.tasks ≤ l.copies k
  registered : l.effect k Handling.registered ≤ l.copies k
  routes : cmd.type ≠ .groupChatMsg → ∀ r, l.effect k (·.routes r) ≤ l.copies k
  groupRoutes : cmd.type = .groupChatMsg → ∀ groupid, cmd.js.intAt (lit "groupid") = some groupid →
    ∀ r m, (∀ e ∈ l.handlings k, memberships groupid r e.before ≤ m) →
      l.effect k (·.routes r) ≤ l.copies k * m
  sessions : l.client.resends k = 0 → ¬ l.EndsLater k

end Link

/-! ## What the client has written -/

/-- Frames of the table and of the wire meet `P`. A command has one frame on
the wire and one more for each resend, and a command that was not sent again is
behind earlier commands only. -/
structure Written (P : Nat → Bytes → Prop) (cl : Client Tagged) : Prop where
  table : ∀ m k d, cl.waitAckMsgMap.lookup m = some (k, d) → P k d
  wire : ∀ e ∈ cl.wire, P e.1 e.2
  copies : ∀ k, (cl.wire.map Prod.fst).count k ≤ 1 + cl.resends k
  order : cl.wire.Pairwise fun a b => cl.resends b.1 = 0 → a.1 < b.1

namespace Written

variable {P Q : Nat → Bytes → Prop} {cl : Client Tagged}

theorem start : Written P Client.start :=
  ⟨fun m k d h => by simp [Client.start] at h, by simp [Client.start], by simp [Client.start],
    List.Pairwise.nil⟩

theorem mono (h : Written P cl) (hw : ∀ k d, P k d → Q k d) : Written Q cl :=
  ⟨fun m k d he => hw k d (h.table m k d he), fun e he =>
    hw e.1 e.2 (h.wire e he), h.copies, h.order⟩

/-- The first frame of the `n`-th command, when all before it are of earlier ones. -/
theorem write (h : Written P cl) {n : Nat} (hlt : ∀ e ∈ cl.wire, e.1 < n) {data : Bytes}
    (hd : P n data) : Written P { cl with wire := cl.wire ++ [(n, data)] } := by
  have hnone : (cl.wire.map Prod.fst).count n = 0 := by
    rw [List.count_eq_zero]
    intro hmem
    obtain ⟨e, he, rfl⟩ := List.mem_map.mp hmem
    exact Nat.lt_irrefl _ (hlt e he)
  refine ⟨h.table, fun e he => ?_, fun k => ?_, ?_⟩
  · rcases List.mem_append.mp he with he | he
    · exact h.wire e he
    · cases List.mem_singleton.mp he; exact hd
  · show ((cl.wire ++ [(n, data)]).map Prod.fst).count k ≤ 1 + cl.resends k
    have hk := h.copies k
    rw [List.map_append, List.count_append, List.map_singleton, List.count_singleton]
    by_cases hnk : n = k
    · subst hnk
      rw [hnone, if_pos (beq_self_eq_true n)]
      omega
    · rw [if_neg (by simpa using hnk)]
      exact hk
  · refine List.pairwise_append.mpr ⟨h.order, List.pairwise_singleton _ _, fun a ha b hb _ => ?_⟩
    cases List.mem_singleton.mp hb
    exact hlt a ha

theorem register (h : Written P cl) {n : Nat} (hlt : ∀ e ∈ cl.wire, e.1 < n) {data : Bytes}
    (hd : P n data) (msgId : UInt32) (now : Int) (sends : Bool) :
    Written P (cl.register msgId (n, data) now sends) := by
  have htable : ∀ m k d, (cl.register msgId (n, data) now sends).waitAckMsgMap.lookup m =
      some (k, d) → P k d := by
    intro m k d he
    rcases Counted.lookup_register he with ⟨-, he⟩ | ⟨-, he⟩
    · cases he; exact hd
    · exact h.table m k d he
  cases sends with
  | false => exact ⟨htable, h.wire, h.copies, h.order⟩
  | true =>
    have hw := h.write hlt hd
    exact ⟨htable, hw.wire, hw.copies, hw.order⟩

theorem erase (h : Written P cl) (msgId : UInt32) : Written P (cl.erase msgId) :=
  ⟨fun m k d he => h.table m k d (Counted.lookup_erase he).2, h.wire, h.copies, h.order⟩

theorem processAck (h : Written P cl) (js : Json) : Written P (processAck js cl).state := by
  unfold MyChat.processAck
  split
  · exact h
  · exact h
  · unfold Client.onReceiveAck
    split
    · exact h.erase _
    · exact h

theorem resend (h : Written P cl) {m : UInt32} {k : Nat} {d : Bytes}
    (he : cl.waitAckMsgMap.lookup m = some (k, d)) (retry : Nat) (now : Int) :
    Written P (cl.resend m (k, d) retry now) := by
  have hmore : ∀ j, cl.resends j ≤ (cl.resend m (k, d) retry now).resends j := by
    intro j
    rw [Counted.resends_resend]
    omega
  refine ⟨h.table, fun e he => ?_, fun j => ?_, ?_⟩
  · rcases List.mem_append.mp he with he | he
    · exact h.wire e he
    · cases List.mem_singleton.mp he; exact h.table m k d ‹_›
  · show ((cl.wire ++ [(k, d)]).map Prod.fst).count j ≤ _
    have hj := h.copies j
    rw [Counted.resends_resend, List.map_append, List.count_append, List.map_singleton,
      List.count_singleton]
    simp only [beq_iff_eq]
    split <;> omega
  · refine List.pairwise_append.mpr ⟨?_, List.pairwise_singleton _ _, fun a _ b hb hzero => ?_⟩
    · refine h.order.imp ?_
      intro a b hab hzero
      exact hab (Nat.le_zero.mp (hzero ▸ hmore b.1))
    cases List.mem_singleton.mp hb
    rw [Counted.resends_resend, if_pos rfl] at hzero
    omega

theorem checkEntry (h : Written P cl) (now : Int) (sends : UInt32 → Bool) (m : UInt32) :
    Written P (cl.checkEntry now sends m) := by
  unfold Client.checkEntry
  split
  · exact h
  · next e he =>
    have ht : Written P (cl.touch m) := ⟨h.table, h.wire, h.copies, h.order⟩
    simp only
    split
    · split
      · have hx := ht.erase m
        exact ⟨hx.table, hx.wire, hx.copies, hx.order⟩
      · split
        · exact ht.resend he _ now
        · exact ht
    · exact ht

theorem checkTimeOutAndResend (h : Written P cl) (now : Int) (sends : UInt32 → Bool)
    (order : List UInt32) : Written P (cl.checkTimeOutAndResend now sends order) := by
  induction order generalizing cl with
  | nil => exact h
  | cons m order ih => exact ih (h.checkEntry now sends m)

end Written

/-- The pass only adds to the wire. -/
theorem Client.wire_prefix (cl : Client Tagged) (now : Int) (sends : UInt32 → Bool)
    (order : List UInt32) : cl.wire <+: (cl.checkTimeOutAndResend now sends order).wire := by
  induction order generalizing cl with
  | nil => exact List.prefix_rfl
  | cons m order ih =>
    have hm : cl.wire <+: (cl.checkEntry now sends m).wire := by
      unfold Client.checkEntry
      split
      · exact List.prefix_rfl
      · simp only
        split
        · split
          · exact List.prefix_rfl
          · split
            · exact List.prefix_append _ _
            · exact List.prefix_rfl
        · exact List.prefix_rfl
    exact hm.trans (ih _)

/-! ## Runs -/

section
variable (evp : Evp) (codec : JsonCodec) (conn : Conn)

/-- Bytes that the client wrote for the command. -/
def Issued.Frames (cmd : Issued) (data : Bytes) : Prop :=
  data ≠ [] ∧ ∃ iv, data = Frame.wire evp iv ⟨cmd.type.val.toUInt32, cmd.msgId, codec.text cmd.js⟩

/-- The request can be sealed and carries its type. -/
structure Issued.WellTyped (cmd : Issued) : Prop where
  canon : cmd.js.canon
  utf8 : cmd.js.utf8
  typed : cmd.js.intAt (lit "msgid") = some cmd.type.val

/-- The call ran the handler of the command. -/
def Handling.Runs (cmd : Issued) (e : Handling) : Prop :=
  ∃ my, e.after = (getHandler codec my cmd.type.val conn cmd.js e.before).state

structure LinkInv (l : Link) : Prop where
  counted : Counted (l.commands.map (·.msgId)) l.client
  written : Written (fun k d => ∃ cmd : Issued, l.commands[k]? = some cmd ∧ cmd.Frames evp codec d)
    l.client
  typed : ∀ cmd ∈ l.commands, cmd.WellTyped
  fifo : l.handled.map (·.command) <+: l.client.wire.map Prod.fst
  runs : ∀ e ∈ l.handled, ∃ cmd : Issued, l.commands[e.command]? = some cmd ∧ e.Runs codec conn cmd

end

variable {evp : Evp} {codec : JsonCodec} {conn : Conn} {l l' : Link}

/-- One whole frame of a command runs its handler. -/
theorem onMessage_frames (he : evp.Lawful) (hc : codec.Lawful) {cmd : Issued} (ht : cmd.WellTyped)
    {data : Bytes} (hd : cmd.Frames evp codec data) (my : Nat → MySQL) (s : Server) :
    onMessage evp codec (chatService codec my) conn data s =
      getHandler codec my cmd.type.val conn cmd.js s := by
  obtain ⟨hne, iv, rfl⟩ := hd
  obtain ⟨f, hf, hb⟩ := Sealed.of_wire hne
  have htext : f.text = codec.text cmd.js := congrArg Frame.text hf
  rw [← hb]
  exact onMessage_frame (chatService codec my) he hc
    { toSealed := f, js := cmd.js, canon := ht.canon, dumps := htext ▸ hc.dump_eq ht.utf8
      msgid := cmd.type.val, typed := ht.typed } s

theorem intAt_clientRequest (t : EnMsgType) (msgId : UInt32) (fs : List (String × Json)) :
    (clientRequest t msgId fs).intAt (lit "msgid") = some t.val := intAt_msgid t _

/-- Tags of frames handled, and of the frame that is next. -/
theorem prefix_next {α : Type} {p w : List α} {a : α} (h : p <+: w) (ha : w[p.length]? = some a) :
    p ++ [a] <+: w := by
  obtain ⟨t, rfl⟩ := h
  rw [List.getElem?_append_right (Nat.le_refl _), Nat.sub_self] at ha
  cases t with
  | nil => cases ha
  | cons b t =>
    cases ha
    exact ⟨t, by simp⟩

namespace LinkInv

theorem start (s : Server) : LinkInv evp codec conn (Link.start s) :=
  ⟨Counted.start, Written.start, by simp [Link.start], by simp [Link.start], by simp [Link.start]⟩

/-- A command more, with its frame registered and maybe sent. -/
theorem issue (hc : codec.Lawful) (h : LinkInv evp codec conn l) {t : EnMsgType} {msgId : UInt32}
    {fs : List (String × Json)} {jsonStr : Bytes} {iv : Option Iv}
    (hdump : codec.dump (clientRequest t msgId fs) = some jsonStr)
    (hcanon : (clientRequest t msgId fs).canon)
    (hne : Frame.wire evp iv ⟨t.val.toUInt32, msgId, jsonStr⟩ ≠ []) (now : Int) (sends : Bool) :
    LinkInv evp codec conn { l with
      client := l.client.register msgId
        (l.commands.length, Frame.wire evp iv ⟨t.val.toUInt32, msgId, jsonStr⟩) now sends
      commands := l.commands ++ [⟨t, msgId, clientRequest t msgId fs⟩] } := by
  have hutf8 : (clientRequest t msgId fs).utf8 := by
    cases hu : (clientRequest t msgId fs).utf8 with
    | true => rfl
    | false => rw [hc.dump_none.mpr hu] at hdump; cases hdump
  have htext : codec.text (clientRequest t msgId fs) = jsonStr := by
    rw [JsonCodec.text, hdump, Option.getD_some]
  have hlt : ∀ e ∈ l.client.wire, e.1 < l.commands.length := by
    intro e hmem
    obtain ⟨cmd, hk, -⟩ := h.written.wire e hmem
    exact (List.getElem?_eq_some_iff.mp hk).1
  have hold : ∀ {k : Nat} {cmd : Issued}, l.commands[k]? = some cmd →
      (l.commands ++ [⟨t, msgId, clientRequest t msgId fs⟩])[k]? = some cmd :=
    fun hk => ClientInv.append_lookup hk
  refine ⟨?_, ?_, fun cmd hmem => ?_, ?_, fun e hmem => ?_⟩
  · have hreg :=
      h.counted.register msgId (Frame.wire evp iv ⟨t.val.toUInt32, msgId, jsonStr⟩) now sends
    rw [List.length_map] at hreg
    simpa only [List.map_append, List.map_singleton] using hreg
  · refine Written.register (h.written.mono ?_) hlt ?_ msgId now sends
    · rintro k d ⟨cmd, hk, hd⟩
      exact ⟨cmd, hold hk, hd⟩
    · exact ⟨_, List.getElem?_concat_length, hne, iv, by rw [htext]⟩
  · rcases List.mem_append.mp hmem with hmem | hmem
    · exact h.typed cmd hmem
    · cases List.mem_singleton.mp hmem
      exact ⟨hcanon, hutf8, intAt_clientRequest t msgId fs⟩
  · refine h.fifo.trans ?_
    cases sends with
    | false => exact List.prefix_rfl
    | true => exact List.IsPrefix.map _ (List.prefix_append _ _)
  · obtain ⟨cmd, hk, hr⟩ := h.runs e hmem
    exact ⟨cmd, hold hk, hr⟩

/-- The next frame of the wire is handled, which is one of its command's. -/
theorem handle (he : evp.Lawful) (hc : codec.Lawful) (h : LinkInv evp codec conn l) {e : Tagged}
    (hnext : l.client.wire[l.handled.length]? = some e) (my : Nat → MySQL) (running : Bool) :
    LinkInv evp codec conn { l with
      server := (onMessage evp codec (chatService codec my) conn e.2 l.server).state
      running := running
      handled := l.handled ++ [⟨e.1, l.server,
        (onMessage evp codec (chatService codec my) conn e.2 l.server).state⟩] } := by
  obtain ⟨cmd, hk, hd⟩ := h.written.wire e (List.mem_of_getElem? hnext)
  refine ⟨h.counted, h.written, h.typed, ?_, fun e' hmem => ?_⟩
  · rw [List.map_append, List.map_singleton]
    refine prefix_next h.fifo ?_
    rw [List.length_map, List.getElem?_map, hnext, Option.map_some]
  · rcases List.mem_append.mp hmem with hmem | hmem
    · exact h.runs e' hmem
    · cases List.mem_singleton.mp hmem
      refine ⟨cmd, hk, my, ?_⟩
      rw [onMessage_frames he hc (h.typed cmd (List.mem_of_getElem? hk)) hd]

theorem step (he : evp.Lawful) (hc : codec.Lawful) (h : LinkInv evp codec conn l) {x : LinkStep}
    (hs : l.step evp codec conn x = some l') : LinkInv evp codec conn l' := by
  cases x with
  | issue time now t fs iv sends =>
    simp only [Link.step, Option.bind_eq_some_iff] at hs
    obtain ⟨msgId, -, jsonStr, hdump, hs⟩ := hs
    split at hs
    · cases hs; exact h
    · next hne =>
      split at hs
      · next hcanon =>
        cases hs
        exact h.issue hc hdump hcanon hne now sends
      · cases hs
  | timeout now sends order =>
    simp only [Link.step] at hs
    split at hs
    · cases hs
      exact ⟨h.counted.checkTimeOutAndResend now sends order,
        h.written.checkTimeOutAndResend now sends order, h.typed,
        h.fifo.trans ((l.client.wire_prefix now sends order).map Prod.fst), h.runs⟩
    · cases hs
  | handle my =>
    simp only [Link.step] at hs
    split at hs
    · obtain ⟨e, hnext, rfl⟩ := Option.map_eq_some_iff.mp hs
      exact h.handle he hc hnext my _
    · cases hs
  | hear =>
    simp only [Link.step, Option.bind_eq_some_iff, Option.map_eq_some_iff] at hs
    obtain ⟨e, -, js, -, rfl⟩ := hs
    have hwire : (processAck js l.client).state.wire = l.client.wire := by
      unfold processAck Client.onReceiveAck
      split
      · rfl
      · rfl
      · split <;> rfl
    exact ⟨h.counted.processAck js, h.written.processAck js, h.typed, hwire ▸ h.fifo, h.runs⟩
  | serve x =>
    simp only [Link.step] at hs
    split at hs
    · obtain ⟨s, -, rfl⟩ := Option.map_eq_some_iff.mp hs
      exact ⟨h.counted, h.written, h.typed, h.fifo, h.runs⟩
    · cases hs

end LinkInv

/-! ## What one call does -/

/-- A type has its own handler or none. -/
theorem handlerOf_val {t u : EnMsgType} (h : handlerOf t.val = some u) : u = t := by
  revert h
  cases t <;> cases u <;> decide

/-- A request that is no chat routes nothing. -/
theorem noChat_routesNothing (hc : codec.Lawful) (my : Nat → MySQL) {t : EnMsgType}
    (hone : t ≠ .oneChatMsg) (hgroup : t ≠ .groupChatMsg) (js : Json) (s : Server) :
    RoutesNothing s (getHandler codec my t.val conn js s).state :=
  getHandler_routesNothing hc my conn js (fun h => hone (handlerOf_val h).symm)
    (fun h => hgroup (handlerOf_val h).symm) s

namespace Handling.Runs

variable {cmd : Issued} {e : Handling}

theorem tasks (hc : codec.Lawful) (h : e.Runs codec conn cmd) : e.tasks ≤ 1 := by
  obtain ⟨my, h⟩ := h
  rw [Handling.tasks, h]
  by_cases hone : cmd.type = .oneChatMsg
  · rw [hone]
    exact (oneChat_routes hc my conn cmd.js e.before 0).2.trans_le (Nat.zero_le 1)
  by_cases hgroup : cmd.type = .groupChatMsg
  · rw [hgroup]
    exact (groupChat_routes hc my conn cmd.js e.before 0).1.trans_le (Nat.zero_le 1)
  exact (noChat_routesNothing hc my hone hgroup cmd.js e.before).commands

theorem registered (hc : codec.Lawful) (h : e.Runs codec conn cmd) : e.registered ≤ 1 := by
  obtain ⟨my, h⟩ := h
  have hr := (getHandler_writes hc my cmd.type.val conn cmd.js e.before).registers
  rw [Handling.registered, h]
  omega

theorem routes (hc : codec.Lawful) (h : e.Runs codec conn cmd) (hgroup : cmd.type ≠ .groupChatMsg)
    (r : Int32) : e.routes r ≤ 1 := by
  obtain ⟨my, h⟩ := h
  rw [Handling.routes, h]
  by_cases hone : cmd.type = .oneChatMsg
  · rw [hone]
    exact (oneChat_routes hc my conn cmd.js e.before r).1
  · rw [(noChat_routesNothing hc my hone hgroup cmd.js e.before).routesTo]
    exact Nat.zero_le 1

theorem groupRoutes (hc : codec.Lawful) (h : e.Runs codec conn cmd)
    (hgroup : cmd.type = .groupChatMsg) {groupid : Int32}
    (hg : cmd.js.intAt (lit "groupid") = some groupid) (r : Int32) :
    e.routes r ≤ Link.memberships groupid r e.before := by
  obtain ⟨my, h⟩ := h
  rw [Handling.routes, h, hgroup]
  exact (groupChat_routes hc my conn cmd.js e.before r).2 groupid hg

end Handling.Runs

/-! ## Counting -/

namespace Link

theorem effect_le {k n : Nat} {f : Handling → Nat} (hf : ∀ e ∈ l.handlings k, f e ≤ n) :
    l.effect k f ≤ (l.handlings k).length * n := by
  have hsum := List.sum_le_card_nsmul ((l.handlings k).map f) n (by simpa using hf)
  rwa [List.length_map] at hsum

end Link

namespace LinkInv

theorem handlings_length (h : LinkInv evp codec conn l) (k : Nat) :
    (l.handlings k).length ≤ l.copies k := by
  calc (l.handlings k).length = (l.handled.map (·.command)).count k := by
        rw [Link.handlings, List.count, List.countP_map, List.countP_eq_length_filter]
        rfl
    _ ≤ l.copies k := h.fifo.sublist.count_le k

theorem effect_le_copies (h : LinkInv evp codec conn l) {k n : Nat} {f : Handling → Nat}
    (hf : ∀ e ∈ l.handlings k, f e ≤ n) : l.effect k f ≤ l.copies k * n :=
  (Link.effect_le hf).trans (Nat.mul_le_mul_right n (h.handlings_length k))

/-- A frame never sent again is handled behind frames of earlier commands. -/
theorem handled_order (h : LinkInv evp codec conn l) :
    l.handled.Pairwise fun e' e => l.client.resends e.command = 0 → e'.command < e.command := by
  have hw : (l.client.wire.map Prod.fst).Pairwise fun a b => l.client.resends b = 0 → a < b :=
    List.pairwise_map.mpr h.written.order
  exact List.pairwise_map.mp (hw.sublist h.fifo.sublist)

theorem oncePerCopy (hc : codec.Lawful) (h : LinkInv evp codec conn l) {k : Nat} {cmd : Issued}
    (hk : l.commands[k]? = some cmd) : l.OncePerCopy k cmd := by
  have hruns : ∀ e ∈ l.handlings k, e.Runs codec conn cmd := by
    intro e hmem
    obtain ⟨hmem, hcmd⟩ := List.mem_filter.mp hmem
    obtain ⟨cmd', hk', hr⟩ := h.runs e hmem
    rw [of_decide_eq_true hcmd, hk] at hk'
    cases hk'
    exact hr
  have hone : ∀ f : Handling → Nat, (∀ e ∈ l.handlings k, f e ≤ 1) → l.effect k f ≤ l.copies k :=
    fun f hf => (h.effect_le_copies hf).trans (Nat.mul_one _).le
  refine ⟨h.written.copies k, h.counted.bound k, h.handlings_length k,
    hone _ fun e he => (hruns e he).tasks hc, hone _ fun e he => (hruns e he).registered hc,
    fun hgroup r => hone _ fun e he => (hruns e he).routes hc hgroup r,
    fun hgroup groupid hg r m hm => h.effect_le_copies fun e he => ?_, fun hzero => ?_⟩
  · exact ((hruns e he).groupRoutes hc hgroup hg r).trans (hm e he)
  · rintro ⟨e', e, hsub, rfl, hlater, -⟩
    have hpair := h.handled_order.sublist hsub
    have horder := (List.pairwise_pair.mp hpair) hzero
    omega

end LinkInv

/-! ## A sample run

The cipher agrees with AES-256 under the fixed key on the blocks that the
frames of the run encrypt under the IV 0..15. -/

/-- Exchanges the two blocks of each pair, in turn. -/
def BlockCipher.swaps : List (Bytes × Bytes) → BlockCipher
  | [] => ⟨fun _ b => b, fun _ b => b, fun _ _ h => h, fun _ _ _ => rfl⟩
  | (x, y) :: ps =>
      if h : x.length = 16 ∧ y.length = 16 then (BlockCipher.swap x y h.1 h.2).comp (swaps ps)
      else swaps ps

def linkEvp : Evp := Cbc.evp (BlockCipher.swaps [
    ([123, 35, 107, 103, 38, 63, 55, 43, 42, 100, 121, 108, 69, 105, 44, 53],
      [202, 77, 143, 11, 80, 120, 222, 58, 215, 203, 35, 57, 87, 53, 38, 2]),
    ([251, 125, 186, 51, 96, 73, 237, 11, 239, 255, 15, 27, 58, 70, 65, 107],
      [138, 19, 234, 128, 32, 74, 6, 54, 85, 192, 30, 184, 190, 182, 79, 32]),
    ([238, 49, 208, 177, 12, 104, 118, 87, 38, 179, 105, 215, 204, 210, 109, 26],
      [37, 203, 48, 207, 187, 20, 70, 113, 158, 204, 201, 18, 74, 28, 222, 144]),
    ([7, 187, 71, 237, 198, 31, 77, 122, 149, 199, 194, 25, 65, 23, 213, 155],
      [129, 2, 236, 135, 123, 11, 170, 18, 3, 198, 24, 19, 131, 232, 170, 239]),
    ([123, 35, 100, 113, 109, 96, 104, 99, 97, 109, 40, 49, 62, 33, 44, 102],
      [253, 14, 164, 234, 159, 21, 130, 34, 106, 115, 18, 64, 35, 28, 82, 154]),
    ([153, 44, 158, 219, 179, 55, 239, 81, 13, 58, 118, 98, 25, 45, 98, 175],
      [60, 115, 38, 113, 204, 202, 13, 6, 221, 245, 55, 167, 11, 22, 118, 240]),
    ([4, 67, 21, 66, 250, 252, 57, 42, 255, 152, 68, 192, 98, 114, 84, 202],
      [152, 187, 211, 19, 250, 36, 61, 13, 152, 173, 58, 239, 119, 218, 59, 50]),
    ([175, 198, 221, 29, 244, 42, 51, 3, 150, 163, 52, 225, 121, 212, 53, 60],
      [216, 98, 190, 211, 244, 36, 153, 129, 245, 111, 228, 119, 12, 58, 10, 242]),
    ([251, 125, 186, 51, 96, 76, 235, 3, 226, 249, 15, 27, 58, 70, 65, 107],
      [182, 141, 214, 116, 194, 160, 0, 7, 20, 141, 193, 6, 227, 237, 58, 152]),
    ([210, 175, 236, 70, 191, 171, 11, 12, 31, 134, 202, 13, 232, 230, 49, 147],
      [179, 97, 167, 153, 248, 237, 39, 81, 72, 29, 146, 116, 165, 232, 220, 132]),
    ([251, 125, 186, 51, 96, 77, 238, 10, 227, 243, 15, 27, 58, 70, 65, 107],
      [231, 13, 229, 62, 153, 206, 9, 204, 158, 236, 249, 20, 97, 27, 193, 182]),
    ([131, 47, 223, 15, 181, 236, 121, 173, 237, 159, 142, 123, 19, 127, 227, 140],
      [139, 72, 145, 15, 233, 150, 142, 159, 109, 128, 83, 182, 7, 85, 246, 75]),
    ([169, 56, 230, 45, 148, 157, 133, 148, 102, 139, 88, 189, 12, 94, 253, 64],
      [204, 26, 125, 82, 57, 106, 83, 80, 83, 85, 53, 168, 113, 132, 209, 122])])

theorem linkEvp_lawful : linkEvp.Lawful := Cbc.evp_lawful _

namespace Sample

def linkMachine : Machine Link LinkStep := Link.machine linkEvp JsonText.codec 5

def linkStart : Link := Link.start (Server.start 0 Database.empty)

/-- A command at a second of the clock, sent at once. -/
def issue (time : Nat) (t : EnMsgType) (fs : List (String × Json)) : LinkStep :=
  .issue time (time * 1000) t fs (some sampleIv) true

def handle : LinkStep := .handle fun _ => MySQL.up

def work : LinkStep := .serve (.work MySQL.up)

def loginFields : List (String × Json) := [("id", ofInt32 1), ("password", .str (lit "pw"))]

/-- User 1 logs in and adds user 2; the request waits longer than the timeout. -/
def addedTwice : List LinkStep :=
  registered.map .serve ++ [issue 1700000000 .loginMsg loginFields, handle, work, .hear, .hear,
    issue 1700000005 .addFriendMsg [("id", ofInt32 1), ("friendid", ofInt32 2)],
    .timeout 1700000007001 (fun _ => true) [1058033664], handle, handle]

/-- Then a logout and a new login, and the logout once more. -/
def loggedOutTwice : List LinkStep :=
  addedTwice ++ [.hear, .hear, issue 1700000008 .logoutMsg [("id", ofInt32 1)],
    issue 1700000009 .loginMsg loginFields,
    .timeout 1700000010001 (fun _ => true) [1058045952, 1058050048], handle, work, work,
    work, handle, handle]

theorem addedTwice_runs : (linkMachine.exec linkStart addedTwice).isSome := by decide +kernel

theorem loggedOutTwice_runs : (linkMachine.exec linkStart loggedOutTwice).isSome := by
  decide +kernel

/-- The states at the ends of the two runs. -/
def added : Link := Option.get _ addedTwice_runs
def loggedOut : Link := Option.get _ loggedOutTwice_runs

theorem reachable {ls : List LinkStep} (h : (linkMachine.exec linkStart ls).isSome) :
    linkMachine.Reachable (Option.get _ h) :=
  Machine.reachable_exec (M := linkMachine) ⟨_, rfl⟩ h

end Sample

/-- In every run, each copy of a command that the client wrote takes effect at
most once. -/
theorem once_per_copy (he : evp.Lawful) (hc : codec.Lawful) (conn : Conn) {l : Link}
    (h : (Link.machine evp codec conn).Reachable l) {k : Nat} {cmd : Issued}
    (hk : l.commands[k]? = some cmd) : l.OncePerCopy k cmd := by
  have hinv : LinkInv evp codec conn l := by
    refine h.invariant ?_ fun l x l' hi _ hs => hi.step he hc hs
    rintro l ⟨s, rfl⟩
    exact LinkInv.start s
  exact hinv.oncePerCopy hc hk

theorem once_per_copy_addFriend :
    ∃ cmd, cmd.type = .addFriendMsg ∧ Sample.added.copies 1 = 2 ∧
      Sample.added.OncePerCopy 1 cmd := by
  have hcmd : (Sample.added.commands[1]?).map (·.type) = some .addFriendMsg := by decide +kernel
  obtain ⟨cmd, hk, ht⟩ := Option.map_eq_some_iff.mp hcmd
  exact ⟨cmd, ht, by decide +kernel, once_per_copy linkEvp_lawful JsonText.codec_lawful 5
    (Sample.reachable Sample.addedTwice_runs) hk⟩

/-- A frame sent again takes effect again: two tasks for one command, and a
logout that ends the session of the login behind it. -/
theorem effects_repeated :
    (¬ ∀ l, Sample.linkMachine.Reachable l → ∀ k, l.AtMostOnce k) ∧
      ∃ l, Sample.linkMachine.Reachable l ∧ 1 < l.effect 1 Handling.tasks ∧ l.EndsLater 2 := by
  have hreach : Sample.linkMachine.Reachable Sample.loggedOut :=
    Sample.reachable Sample.loggedOutTwice_runs
  have htwice : 1 < Sample.loggedOut.effect 1 Handling.tasks := by decide +kernel
  refine ⟨fun h => absurd (h _ hreach 1).tasks (Nat.not_le.mpr htwice), _, hreach, htwice, ?_⟩
  -- the last two calls are for the new login and for the second copy of the logout
  have hlast : (Sample.loggedOut.handled.drop 4).length = 2 := by decide +kernel
  have hends : ∀ e' ∈ (Sample.loggedOut.handled.drop 4).take 1,
      ∀ e ∈ (Sample.loggedOut.handled.drop 4).drop 1,
        e.command = 2 ∧ 2 < e'.command ∧ e'.Opens 1 ∧ e.Ends 1 := by
    unfold Handling.Opens Handling.Ends
    decide +kernel
  obtain ⟨e', e, he⟩ := List.length_eq_two.mp hlast
  obtain ⟨hcmd, hlater, hopens, hends⟩ := hends e' (by rw [he]; simp) e (by rw [he]; simp)
  refine ⟨e', e, ?_, hcmd, hlater, 1, hopens, hends⟩
  rw [← he]
  exact List.drop_sublist 4 _

end MyChat
