import MyChat.Correlation
import MyChat.Cluster
import MyChat.Forwarding
import MyChat.MsgIds

/-! Header and JSON of every frame. The handlers pass one message type for all
frames, the Redis callback and the client the type of the JSON; the message id
is passed on everywhere. -/

namespace MyChat
open Json

variable {codec : JsonCodec}

/-! ## What the server sends -/

/-- What a request of type `msgid` with id `msgId` has its handler send: a
reply, the ACK, or the request itself to a user who is connected here. -/
inductive Reaction (codec : JsonCodec) (conn : Conn) (js : Json) (msgid msgId : Int32) : Sent → Prop
  | reply (j : Json) (hj : j.canon) (hu : j.utf8)
      (hid : j.index (lit "msgId") = some (ofInt32 msgId) ∨ j = js) {t : Int32}
      (ht : j.intAt (lit "msgid") = some t) (hgroup : t ≠ EnMsgType.groupChatMsg.val)
      (hack : t ≠ EnMsgType.ackMsg.val) :
      Reaction codec conn js msgid msgId ⟨conn, none, replyFrame codec j msgId⟩
  | ack : Reaction codec conn js msgid msgId ⟨conn, none, ackFrame codec msgId⟩
  | chat (c : Conn) (u : Int32)
      (ht : msgid = EnMsgType.oneChatMsg.val ∨ msgid = EnMsgType.groupChatMsg.val) :
      Reaction codec conn js msgid msgId ⟨c, some u, replyFrame codec js msgId⟩

/-- All that the handler sends is of this kind. -/
def Reacts (codec : JsonCodec) (conn : Conn) (js : Json) (msgid : Int32) (s s' : Server) : Prop :=
  ∃ new, s'.sent = s.sent ++ new ∧ ∀ e ∈ new, ∃ msgId, js.intAt (lit "msgId") = some msgId ∧
    Reaction codec conn js msgid msgId e

namespace Reacts

variable {conn : Conn} {js : Json} {msgid msgId : Int32} {s s' : Server}

theorem same (h : s'.sent = s.sent) : Reacts codec conn js msgid s s' :=
  ⟨[], by simpa using h, by simp⟩

theorem send {e : Sent} (h : Reacts codec conn js msgid s s')
    (hm : js.intAt (lit "msgId") = some msgId) (he : Reaction codec conn js msgid msgId e) :
    Reacts codec conn js msgid s { s' with sent := s'.sent ++ [e] } := by
  obtain ⟨new, hs, hnew⟩ := h
  refine ⟨new ++ [e], by simp [hs], fun e' he' => ?_⟩
  rcases List.mem_append.mp he' with he' | he'
  · exact hnew e' he'
  · cases List.mem_singleton.mp he'
    exact ⟨msgId, hm, he⟩

theorem ack (h : Reacts codec conn js msgid s s') (hm : js.intAt (lit "msgId") = some msgId) :
    Reacts codec conn js msgid s (s'.send conn (ackFrame codec msgId)) := h.send hm .ack

theorem answer (h : Reacts codec conn js msgid s s') (hm : js.intAt (lit "msgId") = some msgId)
    {j : Json} (hj : j.canon) (hu : j.utf8)
    (hid : j.index (lit "msgId") = some (ofInt32 msgId) ∨ j = js) {t : Int32}
    (ht : j.intAt (lit "msgid") = some t) (hgroup : t ≠ EnMsgType.groupChatMsg.val)
    (hack : t ≠ EnMsgType.ackMsg.val) :
    Reacts codec conn js msgid s (s'.answer codec conn j msgId) :=
  (h.send hm (.reply j hj hu hid ht hgroup hack)).ack hm

end Reacts

theorem index_loginRefusal (errno : Int32) (errmsg : String) (msgId : Int32) :
    (loginRefusal errno errmsg msgId).index (lit "msgId") = some (ofInt32 msgId) := by
  simp [loginRefusal, msgidField, msgIdField, index_lit]

theorem index_loginResponse (user : User) (msgId : Int32) (vec friends groups : List Bytes) :
    (loginResponse user msgId vec friends groups).index (lit "msgId") = some (ofInt32 msgId) := by
  simp [loginResponse, msgidField, msgIdField, index_lit]

theorem index_regResponse (id msgId : Int32) :
    (regResponse id msgId).index (lit "msgId") = some (ofInt32 msgId) := by
  simp [regResponse, msgidField, msgIdField, index_lit]

theorem index_groupResponse (t : EnMsgType) (desc : String) (msgId : Int32) :
    (groupResponse t desc msgId).index (lit "msgId") = some (ofInt32 msgId) := by
  simp [groupResponse, msgidField, msgIdField, index_lit]

theorem index_ackResponse (msgId : Int32) :
    (ackResponse msgId).index (lit "msgId") = some (ofInt32 msgId) := by
  simp [ackResponse, msgIdField, index_lit]

theorem Routed.reacts {conn : Conn} {js : Json} {msgid msgId r : Int32}
    (ht : msgid = EnMsgType.oneChatMsg.val ∨ msgid = EnMsgType.groupChatMsg.val)
    (hm : js.intAt (lit "msgId") = some msgId) {s s' : Server}
    (h : Routed s r (codec.text js) msgId s') : Reacts codec conn js msgid s s' := by
  cases h with
  | sent c _ => exact (Reacts.same rfl).send hm (.chat c r ht)
  | published _ => exact .same rfl
  | queued _ => exact .same rfl

theorem routeMembers_reacts (codec : JsonCodec) (my : Nat → MySQL) (conn : Conn) (js : Json)
    (msgid : Int32) (ht : msgid = EnMsgType.oneChatMsg.val ∨ msgid = EnMsgType.groupChatMsg.val)
    {msgId : Int32} (hm : js.intAt (lit "msgId") = some msgId) (n : Nat) (ids : List Int32)
    (s : Server) :
    Reacts codec conn js msgid s (routeMembers my (codec.text js) msgId n ids s) := by
  induction ids generalizing n s with
  | nil => exact .same rfl
  | cons r ids ih =>
    have hone : Reacts codec conn js msgid s _ :=
      (routeMember_routed (my n) (codec.text js) msgId r s).reacts ht hm
    obtain ⟨new, hs, hnew⟩ := hone
    obtain ⟨new', hs', hnew'⟩ := ih (n + 1) (routeMember (my n) (codec.text js) msgId r s)
    refine ⟨new ++ new', by rw [routeMembers, hs', hs, List.append_assoc], fun e he => ?_⟩
    exact (List.mem_append.mp he).elim (hnew e) (hnew' e)

/-- A handler sends replies and the ACK, and the chat handlers the request. -/
theorem getHandler_reacts (hc : codec.Lawful) (my : Nat → MySQL) (conn : Conn) {js : Json}
    (hj : js.canon) (hu : js.utf8) {msgid : Int32} (hid : js.intAt (lit "msgid") = some msgid)
    (s : Server) : Reacts codec conn js msgid s (getHandler codec my msgid conn js s).state := by
  have h := getHandler_handled hc my msgid conn js s
  generalize getHandler codec my msgid conn js s = r at h ⊢
  generalize ht : handlerOf msgid = t at h
  cases h with
  | unhandled | illTyped | unsendable | regOverflow | chatPublished => exact .same rfl
  | loginRefused hf _ =>
    exact (Reacts.same rfl).answer hf.msgId (canon_loginRefusal _ _ _) (utf8_loginRefusal _ _ _)
      (Or.inl (index_loginRefusal _ _ _)) (intAt_msgid _ _) (by decide) (by decide)
  | @loginAnswered id _ _ _ hf _ hreply hju =>
    obtain ⟨v, -, rfl⟩ := Option.map_eq_some_iff.mp hreply
    exact (Reacts.same (loginSession_sent my conn id s)).answer hf.msgId
      (canon_loginResponse _ _ _ _ _) hju (Or.inl (index_loginResponse _ _ _ _ _))
      (intAt_msgid _ _) (by decide) (by decide)
  | @loginUnsendable id => exact .same (loginSession_sent my conn id s)
  | registered hf _ _ =>
    exact Reacts.answer (.same rfl) hf.msgId (canon_regResponse _ _) (utf8_regResponse _ _)
      (Or.inl (index_regResponse _ _)) (intAt_msgid _ _) (by decide) (by decide)
  | regFailed hf _ =>
    have hval := handlerOf_some ht
    subst hval
    exact (Reacts.same rfl).answer hf.msgId hj hu (Or.inr rfl) hid (by decide) (by decide)
  | loggedOut hf | chatStored hf | friendQueued hf => exact Reacts.ack (.same rfl) hf.msgId
  | @chatSent toid msgId c hf =>
    exact Reacts.ack ((Reacts.same rfl).send hf.msgId (.chat c toid (Or.inl (handlerOf_some ht))))
      hf.msgId
  | @groupRouted u g msgId hf =>
    exact (routeMembers_reacts codec my conn js msgid (Or.inr (handlerOf_some ht)) hf.msgId 1
      (GroupModel.queryGroupUsers (my 0) u g s.db) s).ack hf.msgId
  | groupQueued hf | memberQueued hf =>
    exact Reacts.answer (.same rfl) hf.msgId (canon_groupResponse _ _ _) (utf8_groupResponse _ _ _)
      (Or.inl (index_groupResponse _ _ _)) (intAt_msgid _ _) (by decide) (by decide)

/-- The callback sends the request on under its own type and id. -/
theorem callback_sent (hc : codec.Lawful) {js : Json} (hj : js.canon) (hu : js.utf8)
    {msgid msgId : Int32} (ht : TakenOn js msgid msgId) (my : MySQL) (userid : Int32) (s : Server) :
    let s' := (handleRedisSubscribeMessage codec my userid (codec.text js) s).state
    s'.redis.inbox = s.redis.inbox ∧ ∃ new, s'.sent = s.sent ++ new ∧
      ∀ e ∈ new, e.frame = encryptedMessageSvr (codec.text js) msgid msgId.toUInt32 := by
  have henum : (js.index (lit "msgid")).bind getEnum = some msgid := by
    obtain ⟨v, hv, hint⟩ := Option.bind_eq_some_iff.mp ht.hasType
    rw [hv, Option.bind_some]
    apply getEnum_of_getInt hint
    · rcases ht.hasFields with ⟨rfl, -⟩ | ⟨rfl, -⟩ <;> decide
    · rcases ht.hasFields with ⟨rfl, -⟩ | ⟨rfl, -⟩ <;> decide
    · rcases ht.hasFields with ⟨rfl, -⟩ | ⟨rfl, -⟩ <;> decide
  unfold handleRedisSubscribeMessage
  cases s.userConnMap.lookup userid with
  | some c =>
    simp only [parse_text hc hj hu, ht.hasId, henum, hc.dump_eq hu]
    exact ⟨rfl, [⟨c, some userid, _⟩], rfl, by simp⟩
  | none =>
    simp only
    split
    · exact ⟨rfl, [], by simp, by simp⟩
    · exact ⟨rfl, [], by simp, by simp⟩

/-- A message is the text of a chat that some handler took on. -/
def InTransit (codec : JsonCodec) (message : Bytes) : Prop :=
  ∃ (js : Json) (msgid msgId : Int32), js.canon ∧ js.utf8 ∧ message = codec.text js ∧
    TakenOn js msgid msgId

theorem getHandler_inTransit (hc : codec.Lawful) (my : Nat → MySQL) (conn : Conn) {js : Json}
    (hj : js.canon) (hu : js.utf8) {msgid : Int32} (hid : js.intAt (lit "msgid") = some msgid)
    {s : Server} (h : ∀ d ∈ s.redis.inbox, InTransit codec d.message) :
    ∀ d ∈ (getHandler codec my msgid conn js s).state.redis.inbox, InTransit codec d.message := by
  intro d hd
  by_cases hchat : handlerOf msgid = some .oneChatMsg ∨ handlerOf msgid = some .groupChatMsg
  · rcases getHandler_carries hc my conn hid hchat s with hs | ⟨⟨msgId, ht⟩, a, ha, hca⟩
    · rw [hs] at hd
      exact h d hd
    · rw [ha.deliveries] at hd
      rcases List.mem_append.mp hd with hd | hd
      · exact h d hd
      · refine ⟨js, msgid, msgId, hj, hu, ?_, ht⟩
        rw [hca.deliveries d hd, hc.cStr_dump (hc.dump_eq hu)]
  · rw [not_or] at hchat
    obtain ⟨a, ha, -, hdel, -⟩ := (getHandler_routesNothing hc my conn js hchat.1 hchat.2 s).appends
    rw [ha.deliveries, hdel, List.append_nil] at hd
    exact h d hd

/-! ## Runs of clients and servers -/

/-- Where a frame comes from: a client's command, a handler's call for a request
of type `msgid`, or the Redis callback. -/
inductive Origin
  | command
  | handler (msgid : Int32) (forUser : Option Int32)
  | callback
  deriving DecidableEq

/-- The servers, and every frame that has been sent. -/
structure Traffic (n : Nat) where
  cluster : Cluster n
  frames : List (Origin × Frame)

inductive TrafficStep (n : Nat)
  /-- A client sends a request. -/
  | command (t : EnMsgType) (msgId : UInt32) (fs : List (String × Json))
  /-- A text arrives at a server. -/
  | request (i : Fin n) (my : Nat → MySQL) (conn : Conn) (text : Bytes)
  | close (i : Fin n) (order : List Int32) (conn : Conn)
  /-- The observer thread takes the `k`-th pending delivery. -/
  | observe (i : Fin n) (my : MySQL) (k : Nat)
  | expire (id : Int32)
  | work (i : Fin n) (my : MySQL)

namespace Traffic

variable {n : Nat}

def handled (js : Json) (s s' : Server) : List (Origin × Frame) :=
  match js.intAt (lit "msgid") with
  | none => []
  | some msgid => (Added.between s s').sent.map fun e => (.handler msgid e.forUser, e.frame)

/-- The fields of a command are ints and strings, which their texts give back. -/
def step (codec : JsonCodec) (c : Traffic n) : TrafficStep n → Option (Traffic n)
  | .command t msgId fs =>
      if ∀ f ∈ fs, f.2.canon then
        (codec.dump (clientRequest t msgId fs)).map fun text =>
          { c with frames := c.frames ++ [(.command, ⟨t.val.toUInt32, msgId, text⟩)] }
      else none
  | .request i my conn text =>
      (codec.parse text).map fun js =>
        let s := c.cluster.view i
        let s' := (handleJson (chatService codec my) conn js s).state
        { cluster := c.cluster.put i s', frames := c.frames ++ handled js s s' }
  | .close i order conn =>
      if order.toFinset = (c.cluster.view i).userConnMap.keys then
        some { c with cluster := c.cluster.put i (onConnection order conn (c.cluster.view i)) }
      else none
  | .observe i my k =>
      let s := c.cluster.view i
      (s.observe codec my k).map fun s' =>
        { cluster := c.cluster.put i s'
          frames := c.frames ++ (Added.between s s').sent.map fun e => (.callback, e.frame) }
  | .expire id => some { c with cluster := { c.cluster with redis := c.cluster.redis.delete id } }
  | .work i my => ((c.cluster.view i).work my).map fun s => { c with cluster := c.cluster.put i s }

def machine (codec : JsonCodec) (n : Nat) : Machine (Traffic n) (TrafficStep n) where
  init c := ∃ db, c = ⟨Cluster.start n db, []⟩
  step := step codec

end Traffic

/-! ## Agreement -/

/-- The header's type and id are those of the JSON inside, and the header is a
valid ACK of the ids that the JSON acknowledges. -/
def HeaderAgrees (codec : JsonCodec) (f : Frame) : Prop :=
  ∃ (js : Json) (t m : Int32), codec.parse f.text = some js ∧ js.intAt (lit "msgid") = some t ∧
    js.intAt (lit "msgId") = some m ∧ f.msgType = t.toUInt32 ∧ f.msgId = m.toUInt32 ∧
    ∀ cipher k, isACKValid k (f.header cipher) = true ↔ t = EnMsgType.ackMsg.val ∧ k = m.toUInt32

/-- Commands and chats through Redis agree, and of what a handler sends the
group chats on their way to members. -/
def Origin.Agrees : Origin → Prop
  | .command => True
  | .handler msgid forUser => msgid = EnMsgType.groupChatMsg.val ∧ forUser ≠ none
  | .callback => True

/-- A frame whose JSON names type `t` and the id of the header. -/
structure Labelled (codec : JsonCodec) (t : Int32) (f : Frame) : Prop where
  body : ∃ js m, codec.parse f.text = some js ∧ js.intAt (lit "msgid") = some t ∧
    js.intAt (lit "msgId") = some m ∧ f.msgId = m.toUInt32

theorem Labelled.agrees_iff {t : Int32} {f : Frame} (h : Labelled codec t f) :
    HeaderAgrees codec f ↔ f.msgType = t.toUInt32 := by
  obtain ⟨js, m, hp, ht, hm, hid⟩ := h.body
  constructor
  · rintro ⟨js', t', m', hp', ht', -, htype, -⟩
    cases Option.some.inj (hp.symm.trans hp')
    cases Option.some.inj (ht.symm.trans ht')
    exact htype
  · intro htype
    refine ⟨js, t, m, hp, ht, hm, htype, hid, fun cipher k => ?_⟩
    rw [isACKValid, Bool.and_eq_true, decide_eq_true_eq, decide_eq_true_eq, Frame.header,
      htype, hid, int32_toUInt32_inj, eq_comm (a := k)]

theorem Reaction.agrees_iff (hc : codec.Lawful) {conn : Conn} {js : Json} (hj : js.canon)
    (hu : js.utf8) {msgid msgId : Int32} (hid : js.intAt (lit "msgid") = some msgid)
    (hm : js.intAt (lit "msgId") = some msgId) {e : Sent}
    (h : Reaction codec conn js msgid msgId e) :
    HeaderAgrees codec e.frame ↔ (Origin.handler msgid e.forUser).Agrees := by
  cases h with
  | @reply j hj hu hmsgId t ht hgroup hack =>
    have hm' : j.intAt (lit "msgId") = some msgId := by
      rcases hmsgId with hindex | rfl
      · rw [Json.intAt, hindex, Option.bind_some, getInt_ofInt32]
      · exact hm
    have hl : Labelled codec t (replyFrame codec j msgId) :=
      ⟨j, msgId, parse_replyFrame hc hj hu msgId, ht, hm', rfl⟩
    rw [hl.agrees_iff]
    exact iff_of_false (fun h => hgroup (int32_toUInt32_inj.mp h).symm) fun h => h.2 rfl
  | ack =>
    obtain ⟨htype, hm', -⟩ := intAt_ackResponse msgId
    have hl : Labelled codec EnMsgType.ackMsg.val (ackFrame codec msgId) :=
      ⟨_, msgId, parse_ackFrame hc msgId, htype, hm', rfl⟩
    rw [hl.agrees_iff]
    have htype : EnMsgType.groupChatMsg.val.toUInt32 ≠ EnMsgType.ackMsg.val.toUInt32 := by decide
    exact iff_of_false htype fun h => h.2 rfl
  | chat c u ht =>
    have hl : Labelled codec msgid (replyFrame codec js msgId) :=
      ⟨js, msgId, parse_replyFrame hc hj hu msgId, hid, hm, rfl⟩
    rw [hl.agrees_iff]
    refine ⟨fun h => ⟨(int32_toUInt32_inj.mp h).symm, by simp⟩, fun h => ?_⟩
    rw [h.1]
    rfl

theorem command_agrees (hc : codec.Lawful) {t : EnMsgType} {msgId : UInt32}
    {fs : List (String × Json)} (hfs : ∀ f ∈ fs, f.2.canon) {text : Bytes}
    (hd : codec.dump (clientRequest t msgId fs) = some text) :
    HeaderAgrees codec ⟨t.val.toUInt32, msgId, text⟩ := by
  have hcanon : (clientRequest t msgId fs).canon := by
    apply canon_object
    simp only [List.mem_cons, forall_eq_or_imp]
    refine ⟨canon_ofInt32 _, ?_, hfs⟩
    have hlt := msgId.toNat_lt
    simp only [ofUInt32, Json.canon, Bool.and_eq_true, decide_eq_true_eq]
    omega
  have hm : (clientRequest t msgId fs).intAt (lit "msgId") = some (Int32.ofInt msgId.toNat) := by
    simp [clientRequest, msgidField, intAt_lit, ofUInt32, Json.getInt]
  have hl : Labelled codec t.val ⟨t.val.toUInt32, msgId, text⟩ :=
    ⟨_, _, hc.parse_dump hcanon hd, intAt_msgid t _, hm, (toUInt32_ofInt_toNat msgId).symm⟩
  exact hl.agrees_iff.mpr rfl

theorem callback_agrees (hc : codec.Lawful) {js : Json} (hj : js.canon) (hu : js.utf8)
    {msgid msgId : Int32} (ht : TakenOn js msgid msgId) :
    HeaderAgrees codec (encryptedMessageSvr (codec.text js) msgid msgId.toUInt32) := by
  have hl : Labelled codec msgid (encryptedMessageSvr (codec.text js) msgid msgId.toUInt32) :=
    ⟨js, msgId, parse_text hc hj hu, ht.hasType, ht.hasId, rfl⟩
  exact hl.agrees_iff.mpr rfl

/-! ### Every run -/

namespace Traffic

variable {n : Nat} {c c' : Traffic n}

/-- Redis holds chats only, and every frame agrees that its origin says does. -/
structure Inv (codec : JsonCodec) (c : Traffic n) : Prop where
  inbox : ∀ d ∈ c.cluster.redis.inbox, InTransit codec d.message
  frames : ∀ e ∈ c.frames, HeaderAgrees codec e.2 ↔ e.1.Agrees

theorem Inv.more (h : Inv codec c) {cluster : Cluster n} {new : List (Origin × Frame)}
    (hinbox : ∀ d ∈ cluster.redis.inbox, InTransit codec d.message)
    (hnew : ∀ e ∈ new, HeaderAgrees codec e.2 ↔ e.1.Agrees) :
    Inv codec ⟨cluster, c.frames ++ new⟩ :=
  ⟨hinbox, fun e he => (List.mem_append.mp he).elim (h.frames e) (hnew e)⟩

/-- The frames of one handler's call. -/
theorem handled_agrees (hc : codec.Lawful) (my : Nat → MySQL) (conn : Conn) {js : Json}
    (hj : js.canon) (hu : js.utf8) (s : Server) :
    ∀ e ∈ handled js s (handleJson (chatService codec my) conn js s).state,
      HeaderAgrees codec e.2 ↔ e.1.Agrees := by
  unfold handled handleJson
  cases hid : js.intAt (lit "msgid") with
  | none => simp
  | some msgid =>
    obtain ⟨new, hs, hnew⟩ := getHandler_reacts hc my conn hj hu hid s
    intro e he
    have hsent : (Added.between s (getHandler codec my msgid conn js s).state).sent = new := by
      rw [Added.between, hs, List.drop_left]
    have he' : e ∈ new.map fun e => (Origin.handler msgid e.forUser, e.frame) := hsent ▸ he
    obtain ⟨e', hmem, rfl⟩ := List.mem_map.mp he'
    obtain ⟨msgId, hm, hr⟩ := hnew e' hmem
    exact hr.agrees_iff hc hj hu hid hm

theorem observe_frames (hc : codec.Lawful) {my : MySQL} {s s' : Server} {k : Nat}
    (hs : s.observe codec my k = some s') (h : ∀ d ∈ s.redis.inbox, InTransit codec d.message) :
    (∀ d ∈ s'.redis.inbox, InTransit codec d.message) ∧
      ∀ e ∈ (Added.between s s').sent, HeaderAgrees codec e.frame := by
  unfold Server.observe at hs
  cases hd : s.redis.inbox[k]? with
  | none => rw [hd] at hs; cases hs
  | some d =>
    rw [hd] at hs
    simp only [Option.ite_none_right_eq_some, Option.some.injEq] at hs
    obtain ⟨-, rfl⟩ := hs
    obtain ⟨js, msgid, msgId, hj, hu, hmsg, ht⟩ := h d (List.mem_of_getElem? hd)
    rw [hmsg]
    obtain ⟨hinbox, new, hsent, hnew⟩ := callback_sent hc hj hu ht my d.channel
      { s with redis := s.redis.take k }
    refine ⟨fun d' hd' => h d' (List.mem_of_mem_eraseIdx (hinbox ▸ hd')), fun e he => ?_⟩
    rw [Added.between, hsent, List.drop_left] at he
    rw [hnew e he]
    exact callback_agrees hc hj hu ht

theorem Inv.step (hc : codec.Lawful) (h : Inv codec c) {l : TrafficStep n}
    (hs : c.step codec l = some c') : Inv codec c' := by
  cases l with
  | command t msgId fs =>
    simp only [Traffic.step] at hs
    split at hs
    · next hfs =>
      obtain ⟨text, hd, rfl⟩ := Option.map_eq_some_iff.mp hs
      refine h.more h.inbox fun e he => ?_
      cases List.mem_singleton.mp he
      exact iff_of_true (command_agrees hc hfs hd) trivial
    · cases hs
  | request i my conn text =>
    obtain ⟨js, hp, rfl⟩ := Option.map_eq_some_iff.mp hs
    have hj := hc.parse_canon hp
    have hu := hc.parse_utf8 hp
    refine h.more ?_ (handled_agrees hc my conn hj hu _)
    unfold handleJson
    cases hid : js.intAt (lit "msgid") with
    | none => exact h.inbox
    | some msgid => exact getHandler_inTransit hc my conn hj hu hid h.inbox
  | close i order conn =>
    simp only [Traffic.step] at hs
    split at hs
    · cases hs
      obtain ⟨tasks, happ, -⟩ := onConnection_appends order conn (c.cluster.view i)
      refine ⟨?_, h.frames⟩
      show ∀ d ∈ (onConnection order conn (c.cluster.view i)).redis.inbox, _
      rw [happ.deliveries, List.append_nil]
      exact h.inbox
    · cases hs
  | observe i my k =>
    obtain ⟨s, hobs, rfl⟩ := Option.map_eq_some_iff.mp hs
    obtain ⟨hinbox, hframes⟩ := observe_frames hc hobs h.inbox
    refine h.more hinbox fun e he => ?_
    obtain ⟨e', he', rfl⟩ := List.mem_map.mp he
    exact iff_of_true (hframes e' he') trivial
  | expire id =>
    cases hs
    exact ⟨h.inbox, h.frames⟩
  | work i my =>
    obtain ⟨s, hwork, rfl⟩ := Option.map_eq_some_iff.mp hs
    refine ⟨?_, h.frames⟩
    show ∀ d ∈ s.redis.inbox, _
    rw [work_redis hwork]
    exact h.inbox

end Traffic

/-- In every run, a frame's header and JSON agree exactly when the frame is a
client's command, a chat from Redis, or a group chat on its way to a member. -/
theorem headers_agree_iff (hc : codec.Lawful) {n : Nat} {c : Traffic n}
    (h : (Traffic.machine codec n).Reachable c) :
    ∀ e ∈ c.frames, HeaderAgrees codec e.2 ↔ e.1.Agrees := by
  have hinv : Traffic.Inv codec c := by
    refine h.invariant ?_ fun c l c' hi _ hs => hi.step hc hs
    rintro c ⟨db, rfl⟩
    exact ⟨by simp [Cluster.start, Redis.empty], by simp⟩
  exact hinv.frames

namespace Sample

/-- A client logs out, and the server gets the request. -/
def logoutTraffic : List (TrafficStep 1) :=
  [.command .logoutMsg 7 [("id", ofInt32 1)],
    .request ⟨0, Nat.zero_lt_one⟩ (fun _ => MySQL.up) 1 (JsonText.codec.text (logout 1))]

def quiet : Traffic 1 := ⟨Cluster.start 1 Database.empty, []⟩

theorem logoutTraffic_runs :
    ((Traffic.machine JsonText.codec 1).exec quiet logoutTraffic).isSome := by decide +kernel

def loggedOutTraffic : Traffic 1 := Option.get _ logoutTraffic_runs

theorem loggedOutTraffic_reachable :
    (Traffic.machine JsonText.codec 1).Reachable loggedOutTraffic :=
  Machine.reachable_exec (M := Traffic.machine JsonText.codec 1) ⟨_, rfl⟩ logoutTraffic_runs

end Sample

theorem headers_agree_command : ∃ e ∈ Sample.loggedOutTraffic.frames, e.1 = .command ∧
    HeaderAgrees JsonText.codec e.2 := by
  have hmem : ∃ e ∈ Sample.loggedOutTraffic.frames, e.1 = .command := by decide +kernel
  obtain ⟨e, he, ho⟩ := hmem
  refine ⟨e, he, ho, ?_⟩
  exact (headers_agree_iff JsonText.codec_lawful Sample.loggedOutTraffic_reachable e he).mpr
    (by rw [ho]; trivial)

/-- The header of the ACK says group chat. -/
theorem ack_mislabelled : ¬ ∀ c, (Traffic.machine JsonText.codec 1).Reachable c →
    ∀ e ∈ c.frames, HeaderAgrees JsonText.codec e.2 := by
  intro h
  have hack : (Origin.handler 2 none, ackFrame JsonText.codec 7) ∈
      Sample.loggedOutTraffic.frames := by
    decide +kernel
  have hagrees := h _ Sample.loggedOutTraffic_reachable _ hack
  have hr : Reaction JsonText.codec 1 (Sample.logout 1) 2 7 ⟨1, none, ackFrame JsonText.codec 7⟩ :=
    .ack
  exact ((hr.agrees_iff JsonText.codec_lawful (by decide +kernel) (by decide +kernel)
    (by decide +kernel) (by decide +kernel)).mp hagrees).2 rfl

/-! ## Ids that come back -/

/-- A frame that a request leads to: sent by its handler, or by any server that
gets through Redis what the handler published. -/
inductive Returned (codec : JsonCodec) (my : Nat → MySQL) (msgid : Int32) (conn : Conn) (js : Json)
    (s : Server) : Frame → Prop
  | sent {e : Sent} (he : e ∈ (Added.between s (getHandler codec my msgid conn js s).state).sent) :
      Returned codec my msgid conn js s e.frame
  | published {d : Delivery}
      (hd : d ∈ (Added.between s (getHandler codec my msgid conn js s).state).deliveries)
      (my' : MySQL) (s' : Server) {e : Sent}
      (he : e ∈ (Added.between s'
        (handleRedisSubscribeMessage codec my' d.channel d.message s').state).sent) :
      Returned codec my msgid conn js s e.frame

/-- Header and JSON name `m`, and where the client acknowledges on reading the
frame it looks up what it registered under `m`. -/
structure Names (codec : JsonCodec) (m : UInt32) (f : Frame) : Prop where
  header : f.msgId = m
  body : ∃ js, codec.parse f.text = some js ∧ js.uint32At (lit "msgId") = some m
  entry : ∀ (evp : Evp) (iv : Option Iv) (msg : Bytes) (t : EnMsgType) (now : Int) (sends : Bool)
    (c : Client Bytes), Frame.wire evp iv ⟨t.val.toUInt32, m, msg⟩ ≠ [] →
    ∀ js k, codec.parse f.text = some js → ackOf js = .ok (some k) →
      (Client.encryptedMessage evp iv msg t now sends m c).1.waitAckMsgMap.lookup k =
        some (Frame.wire evp iv ⟨t.val.toUInt32, m, msg⟩)

theorem names_of (codec : JsonCodec) {f : Frame} {js : Json} {m : UInt32}
    (hp : codec.parse f.text = some js) (hm : js.uint32At (lit "msgId") = some m)
    (hf : f.msgId = m) : Names codec m f := by
  refine ⟨hf, ⟨js, hp, hm⟩, fun evp iv msg t now sends c hne js' k hp' ha => ?_⟩
  cases Option.some.inj (hp.symm.trans hp')
  rw [ackOf_uint32At hm ha, Client.encryptedMessage]
  simp only [if_neg hne, Client.register]
  exact Finmap.lookup_insert _

section
variable {js : Json} {m : UInt32} (hm : js.index (lit "msgId") = some (ofUInt32 m))
include hm

/-- What the server reads of the request, and what the recipient of a chat. -/
theorem request_msgId : js.intAt (lit "msgId") = some (Int32.ofInt m.toNat) ∧
    js.uint32At (lit "msgId") = some m := by
  rw [Json.intAt, Json.uint32At, hm, Option.bind_some, Option.bind_some, ofUInt32, Json.getInt,
    Json.getUInt32, ofInt_toNat]
  exact ⟨rfl, rfl⟩

theorem Reaction.names (hc : codec.Lawful) {conn : Conn} (hj : js.canon) (hu : js.utf8)
    {msgid : Int32} {e : Sent} (h : Reaction codec conn js msgid (Int32.ofInt m.toNat) e) :
    Names codec m e.frame := by
  have hback : ∀ {j : Json}, j.index (lit "msgId") = some (ofInt32 (Int32.ofInt m.toNat)) →
      j.uint32At (lit "msgId") = some m := by
    intro j hindex
    rw [Json.uint32At, hindex, Option.bind_some, ofInt32, Json.getUInt32, ofInt_toInt,
      toUInt32_ofInt_toNat]
  have hheader := toUInt32_ofInt_toNat m
  cases h with
  | reply j hj' hu' hmsgId ht hgroup hack =>
    have hj32 : j.uint32At (lit "msgId") = some m := by
      rcases hmsgId with hindex | rfl
      · exact hback hindex
      · exact (request_msgId hm).2
    exact names_of codec (parse_replyFrame hc hj' hu' _) hj32 hheader
  | ack => exact names_of codec (parse_ackFrame hc _) (hback (index_ackResponse _)) hheader
  | chat c u ht => exact names_of codec (parse_replyFrame hc hj hu _) (request_msgId hm).2 hheader

end

/-- For every id that a request carries and every server state: all frames that
the request leads to bring the id back. -/
theorem msgId_comes_back (hc : codec.Lawful) {js : Json} (hj : js.canon) (hu : js.utf8) {m : UInt32}
    (hm : js.index (lit "msgId") = some (ofUInt32 m)) {msgid : Int32}
    (hid : js.intAt (lit "msgid") = some msgid) {my : Nat → MySQL} {conn : Conn} {s : Server}
    {f : Frame} (h : Returned codec my msgid conn js s f) : Names codec m f := by
  obtain ⟨hint, huint⟩ := request_msgId hm
  cases h with
  | sent he =>
    obtain ⟨new, hs, hnew⟩ := getHandler_reacts hc my conn hj hu hid s
    rw [Added.between, hs, List.drop_left] at he
    obtain ⟨msgId, hm', hr⟩ := hnew _ he
    cases Option.some.inj (hint.symm.trans hm')
    exact hr.names hm hc hj hu
  | @published d hd my' s' e he =>
    have hcstr : cStr (codec.text js) = codec.text js := hc.cStr_dump (hc.dump_eq hu)
    by_cases hchat : handlerOf msgid = some .oneChatMsg ∨ handlerOf msgid = some .groupChatMsg
    · rcases getHandler_carries hc my conn hid hchat s with hs | ⟨⟨msgId, ht⟩, a, ha, hca⟩
      · rw [hs, (Appends.nothing s).between] at hd
        cases hd
      · rw [ha.between] at hd
        rw [hca.deliveries d hd, hcstr] at he
        obtain ⟨-, new, hs', hnew⟩ := callback_sent hc hj hu ht my' d.channel s'
        rw [Added.between, hs', List.drop_left] at he
        cases Option.some.inj (hint.symm.trans ht.hasId)
        rw [hnew e he]
        exact names_of codec (parse_text hc hj hu) huint (toUInt32_ofInt_toNat m)
    · rw [not_or] at hchat
      obtain ⟨a, ha, -, hdel, -⟩ :=
        (getHandler_routesNothing hc my conn js hchat.1 hchat.2 s).appends
      rw [ha.between, hdel] at hd
      cases hd

/-- An id beyond 2^31, which the server takes for a negative number. -/
theorem msgId_comes_back_large : Names JsonText.codec 3000000000
    (ackFrame JsonText.codec (Int32.ofInt 3000000000)) := by
  have hsent : (⟨1, none, ackFrame JsonText.codec (Int32.ofInt 3000000000)⟩ : Sent) ∈
      (Added.between (Server.start 0 Database.empty)
        (getHandler JsonText.codec (fun _ => MySQL.up) 2 1
        (clientRequest .logoutMsg 3000000000 [("id", ofInt32 1)])
        (Server.start 0 Database.empty)).state).sent := by
    decide +kernel
  refine msgId_comes_back JsonText.codec_lawful ?_ ?_ ?_ ?_ (.sent hsent)
  · decide +kernel
  · decide +kernel
  · simp [clientRequest, msgidField, index_lit]
  · decide +kernel

end MyChat
