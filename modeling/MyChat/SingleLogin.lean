import MyChat.Acks
import MyChat.Lib.JsonText

/-! Single login. A session of `id` opens on the connection that receives the
accepting login reply and ends with a logout naming `id` or with the close of
the connection. -/

namespace MyChat
open Json

/-! ## Sessions of a log -/

inductive SessionEvent
  | connected (conn : Conn)
  | replied (conn : Conn) (id : Int32)
  | loggedOut (id : Int32)
  | closed (conn : Conn)
  deriving DecidableEq

def IsOpen (log : List SessionEvent) (conn : Conn) : Prop :=
  .connected conn ∈ log ∧ .closed conn ∉ log

instance (log : List SessionEvent) (conn : Conn) : Decidable (IsOpen log conn) := by
  unfold IsOpen; infer_instance

/-- An accepting reply for `id` on `conn` with no later end of the session. -/
def HasSession (log : List SessionEvent) (conn : Conn) (id : Int32) : Prop :=
  ∃ pre post, log = pre ++ .replied conn id :: post ∧ .loggedOut id ∉ post ∧ .closed conn ∉ post

theorem not_hasSession_nil (conn : Conn) (id : Int32) : ¬ HasSession [] conn id := by
  rintro ⟨pre, post, h, -⟩
  simp at h

/-- One more event opens a session, ends some, or leaves them as they are. -/
theorem hasSession_append {log : List SessionEvent} {e : SessionEvent} {conn : Conn} {id : Int32} :
    HasSession (log ++ [e]) conn id ↔
      e = .replied conn id ∨ HasSession log conn id ∧ e ≠ .loggedOut id ∧ e ≠ .closed conn := by
  constructor
  · rintro ⟨pre, post, h, hout, hclosed⟩
    rcases List.eq_nil_or_concat post with rfl | ⟨post, e', rfl⟩
    · exact Or.inl (by simpa using (List.append_inj' h rfl).2)
    · rw [List.concat_eq_append] at h hout hclosed
      rw [← List.cons_append, ← List.append_assoc] at h
      obtain ⟨rfl, he⟩ := List.append_inj' h rfl
      cases List.singleton_inj.mp he
      simp only [List.mem_append, List.mem_singleton, not_or] at hout hclosed
      exact Or.inr ⟨⟨pre, post, rfl, hout.1, hclosed.1⟩, fun h => hout.2 h.symm,
        fun h => hclosed.2 h.symm⟩
  · rintro (rfl | ⟨⟨pre, post, rfl, hout, hclosed⟩, hne, hne'⟩)
    · exact ⟨log, [], rfl, by simp, by simp⟩
    · refine ⟨pre, post ++ [e], by simp, ?_, ?_⟩
      · simp only [List.mem_append, List.mem_singleton, not_or]
        exact ⟨hout, fun h => hne h.symm⟩
      · simp only [List.mem_append, List.mem_singleton, not_or]
        exact ⟨hclosed, fun h => hne' h.symm⟩

/-! ## The machine -/

/-- The id whose session a frame opens at its receiver. -/
def acceptedId (codec : JsonCodec) (frame : Frame) : Option Int32 :=
  (codec.parse frame.text).bind fun j =>
    if j.intAt (lit "msgid") = some EnMsgType.loginMsgAck.val ∧ j.intAt (lit "errno") = some 0 then
      j.intAt (lit "id")
    else none

/-- What a handled logout adds to the log. -/
def logoutEvents (js : Json) : List SessionEvent :=
  match js.intAt (lit "id"), js.intAt (lit "msgId") with
  | some userid, some _ =>
      if js.intAt (lit "msgid") = some EnMsgType.logoutMsg.val then [.loggedOut userid] else []
  | _, _ => []

/-- What the frames sent between two states add to the log. -/
def replyEvents (codec : JsonCodec) (s s' : Server) : List SessionEvent :=
  (s'.sent.drop s.sent.length).filterMap fun e =>
    (acceptedId codec e.frame).map fun id => .replied e.conn id

structure LoggedServer where
  server : Server
  log : List SessionEvent

inductive SessionStep
  | connect (conn : Conn)
  | request (my : Nat → MySQL) (conn : Conn) (js : Json)
  | close (order : List Int32) (conn : Conn)
  | observe (my : MySQL) (k : Nat)
  | expire (id : Int32)
  | work (my : MySQL)

namespace LoggedServer

def advance (codec : JsonCodec) (events : List SessionEvent) (st : LoggedServer) (s' : Server) :
    LoggedServer :=
  ⟨s', st.log ++ (events ++ replyEvents codec st.server s')⟩

/-- A connection is new, then open, then closed for good. A request is what the
parser made of a message. -/
def step (codec : JsonCodec) (st : LoggedServer) : SessionStep → Option LoggedServer
  | .connect conn =>
      if .connected conn ∈ st.log then none else some (st.advance codec [.connected conn] st.server)
  | .request my conn js =>
      if IsOpen st.log conn ∧ js.canon ∧ js.utf8 then
        some (st.advance codec (logoutEvents js)
          (handleJson (chatService codec my) conn js st.server).state)
      else none
  | .close order conn =>
      if IsOpen st.log conn ∧ order.toFinset = st.server.userConnMap.keys then
        some (st.advance codec [.closed conn] (onConnection order conn st.server))
      else none
  | .observe my k => (st.server.observe codec my k).map (st.advance codec [])
  | .expire id => some (st.advance codec [] (st.server.expire id))
  | .work my => (st.server.work my).map (st.advance codec [])

/-- One server from its start, on any database and before any connection. -/
def machine (codec : JsonCodec) : Machine LoggedServer SessionStep where
  init := fun st => ∃ self db, st = ⟨Server.start self db, []⟩
  step := step codec

end LoggedServer

/-- At most one open connection has a session of an id, and the map holds it. -/
structure SingleLogin (st : LoggedServer) : Prop where
  one : ∀ id c c', IsOpen st.log c → HasSession st.log c id → IsOpen st.log c' →
    HasSession st.log c' id → c = c'
  stored : ∀ id c, IsOpen st.log c → HasSession st.log c id →
    st.server.userConnMap.lookup id = some c

/-- A login that will be accepted finds no other connection in the map. -/
def FindsNoOther (st : LoggedServer) : SessionStep → Prop
  | .request my conn js => js.intAt (lit "msgid") = some EnMsgType.loginMsg.val →
      ∀ id pwd msgId, LoginFields js id pwd msgId → LoginAccepts my id pwd st.server.db →
        (loginTexts my id (UserModel.query (my 0) id st.server.db) st.server.db).all validUtf8 →
        ∀ c, st.server.userConnMap.lookup id = some c → c = conn
  | _ => True

/-! ## Frames that open no session -/

variable {codec : JsonCodec}

theorem acceptedId_parse {frame : Frame} {j : Json} (h : codec.parse frame.text = some j)
    (hm : j.intAt (lit "msgid") ≠ some EnMsgType.loginMsgAck.val ∨
      j.intAt (lit "errno") ≠ some 0) : acceptedId codec frame = none := by
  rw [acceptedId, h, Option.bind_some, if_neg]
  rintro ⟨h1, h2⟩
  exact hm.elim (absurd h1) (absurd h2)

theorem acceptedId_replyFrame (hc : codec.Lawful) {j : Json} (hj : j.canon) (hu : j.utf8)
    {t : Int32} (ht : j.intAt (lit "msgid") = some t) (hne : t ≠ EnMsgType.loginMsgAck.val)
    (m : Int32) :
    acceptedId codec (replyFrame codec j m) = none :=
  acceptedId_parse (j := j) (parse_text hc hj hu)
  (Or.inl fun h => hne (Option.some.inj (ht.symm.trans h)))

theorem acceptedId_ackFrame (hc : codec.Lawful) (msgId : Int32) :
    acceptedId codec (ackFrame codec msgId) = none :=
  acceptedId_replyFrame hc (canon_ackResponse msgId) (utf8_ackResponse msgId)
    (intAt_ackResponse msgId).1 (by decide) msgId

theorem acceptedId_loginRefusal (hc : codec.Lawful) {errno : Int32} (he : errno ≠ 0)
    (errmsg : String) (msgId m : Int32) :
    acceptedId codec (replyFrame codec (loginRefusal errno errmsg msgId) m) = none := by
  refine acceptedId_parse (parse_text hc (canon_loginRefusal _ _ _) (utf8_loginRefusal _ _ _))
    (Or.inr ?_)
  rw [intAt_loginRefusal]
  exact fun h => he (Option.some.inj h)

/-- The accepting reply opens a session of the user whose row was read. -/
theorem acceptedId_loginReply (hc : codec.Lawful) {my : Nat → MySQL} {id : Int32} {user : User}
    {msgId : Int32} {db : Database} {j : Json} (h : loginReply codec my id user msgId db = some j)
    (hu : j.utf8) (m : Int32) : acceptedId codec (replyFrame codec j m) = some user.id := by
  obtain ⟨hj, hm⟩ := loginReply_msgid h
  have hp := parse_replyFrame hc hj hu m
  obtain ⟨v, -, rfl⟩ := Option.map_eq_some_iff.mp h
  obtain ⟨herr, hid⟩ := intAt_loginResponse user msgId (OfflineMsgModel.query (my 1) id db) v.1 v.2
  rw [acceptedId, hp, Option.bind_some, if_pos ⟨hm, herr⟩, hid]

/-! ## Steps that open no session -/

/-- A message the observer may forward without opening a session. -/
def Forwarded (codec : JsonCodec) (msg : Bytes) : Prop :=
  ∀ j, codec.parse msg = some j → j.intAt (lit "msgid") ≠ some EnMsgType.loginMsgAck.val

/-- A step that keeps the connection map, sends no accepting reply and publishes
nothing that becomes one. -/
structure Quiet (codec : JsonCodec) (s s' : Server) : Prop where
  userConnMap : s'.userConnMap = s.userConnMap
  inbox : ∀ d ∈ s'.redis.inbox, d ∈ s.redis.inbox ∨ Forwarded codec d.message
  sent : ∃ new, s'.sent = s.sent ++ new ∧ ∀ e ∈ new, acceptedId codec e.frame = none

theorem Quiet.refl (s : Server) : Quiet codec s s := ⟨rfl, fun _ => Or.inl, [], by simp, by simp⟩

/-- A change of queue and database, and then frames that open no session. -/
theorem Quiet.sends {s s' : Server} (new : List Sent) (hmap : s'.userConnMap = s.userConnMap)
    (hinbox : s'.redis.inbox = s.redis.inbox) (hsent : s'.sent = s.sent ++ new)
    (h : ∀ e ∈ new, acceptedId codec e.frame = none) : Quiet codec s s' := by
  refine ⟨hmap, fun d hd => Or.inl ?_, new, hsent, h⟩
  rwa [hinbox] at hd

/-- The parts of a server that the requester's own frames leave alone. -/
structure SameRoutes (s s' : Server) : Prop where
  userConnMap : s'.userConnMap = s.userConnMap
  inbox : s'.redis.inbox = s.redis.inbox
  sent : s'.sent = s.sent

theorem SameRoutes.refl (s : Server) : SameRoutes s s := ⟨rfl, rfl, rfl⟩

theorem SameRoutes.push (t : DbTaskArgs) (s : Server) : SameRoutes s (s.push t) := ⟨rfl, rfl, rfl⟩

theorem Quiet.ack (hc : codec.Lawful) {s s' : Server} (h : SameRoutes s s') (conn : Conn)
    (msgId : Int32) : Quiet codec s (s'.send conn (ackFrame codec msgId)) := by
  refine .sends [⟨conn, none, ackFrame codec msgId⟩] h.userConnMap h.inbox ?_ fun e he => ?_
  · rw [← h.sent]; rfl
  · cases List.mem_singleton.mp he
    exact acceptedId_ackFrame hc msgId

theorem Quiet.answer (hc : codec.Lawful) {s s' : Server} (hs : SameRoutes s s') (conn : Conn)
    {j : Json} (msgId : Int32) (h : acceptedId codec (replyFrame codec j msgId) = none) :
    Quiet codec s (s'.answer codec conn j msgId) := by
  refine .sends [⟨conn, none, replyFrame codec j msgId⟩, ⟨conn, none, ackFrame codec msgId⟩]
    hs.userConnMap hs.inbox (by simp [Server.answer, Server.send, hs.sent]) fun e he => ?_
  simp only [List.mem_cons, List.not_mem_nil, or_false] at he
  rcases he with rfl | rfl
  · exact h
  · exact acceptedId_ackFrame hc msgId

/-- A request that is no login reply is published as one that is none. -/
theorem forwarded_text (hc : codec.Lawful) {js : Json} (hj : js.canon) (hu : js.utf8) {t : Int32}
    (ht : js.intAt (lit "msgid") = some t) (hne : t ≠ EnMsgType.loginMsgAck.val) :
    Forwarded codec (cStr (codec.text js)) := by
  intro j hp
  rw [hc.cStr_dump (hc.dump_eq hu), parse_text hc hj hu] at hp
  cases hp
  exact fun h => hne (Option.some.inj (ht.symm.trans h))

/-- The reply of a group handler opens no session. -/
theorem acceptedId_groupResponse (hc : codec.Lawful) {t : EnMsgType}
    (ht : t.val ≠ EnMsgType.loginMsgAck.val) (desc : String) (msgId m : Int32) :
    acceptedId codec (replyFrame codec (groupResponse t desc msgId) m) = none :=
  acceptedId_replyFrame hc (canon_groupResponse _ _ _) (utf8_groupResponse _ _ _)
  (intAt_msgid _ _) ht m

/-- Every handler but login and logout is quiet. -/
theorem getHandler_quiet (hc : codec.Lawful) (my : Nat → MySQL) (conn : Conn) {js : Json}
    (hj : js.canon) (hu : js.utf8) {msgid : Int32} (hm : js.intAt (lit "msgid") = some msgid)
    (hlogin : handlerOf msgid ≠ some .loginMsg) (hlogout : handlerOf msgid ≠ some .logoutMsg)
    (s : Server) : Quiet codec s (getHandler codec my msgid conn js s).state := by
  have h := getHandler_handled hc my msgid conn js s
  generalize getHandler codec my msgid conn js s = r at h ⊢
  generalize ht : handlerOf msgid = t at h hlogin hlogout
  have hne : t.isSome → msgid ≠ EnMsgType.loginMsgAck.val := by
    rintro hsome rfl
    rw [← ht] at hsome
    exact absurd hsome (by decide)
  cases h with
  | loginRefused | loginAnswered | loginUnsendable => exact absurd rfl hlogin
  | loggedOut => exact absurd rfl hlogout
  | unhandled | illTyped | unsendable | regOverflow => exact .refl s
  | @registered _ _ msgId =>
    refine .answer hc ?_ conn msgId (acceptedId_replyFrame hc (canon_regResponse _ _)
      (utf8_regResponse _ _) (intAt_msgid _ _) (by decide) msgId)
    exact ⟨rfl, rfl, rfl⟩
  | @regFailed _ _ msgId =>
    exact .answer hc (.refl s) conn msgId (acceptedId_replyFrame hc hj hu hm (hne rfl) msgId)
  | @chatSent toid msgId c =>
    refine .sends [⟨c, some toid, replyFrame codec js msgId⟩,
      ⟨conn, none, ackFrame codec msgId⟩] rfl rfl (by simp [Server.sendTo, Server.send])
      fun e he => ?_
    simp only [List.mem_cons, List.not_mem_nil, or_false] at he
    rcases he with rfl | rfl
    · exact acceptedId_replyFrame hc hj hu hm (hne rfl) _
    · exact acceptedId_ackFrame hc msgId
  | chatPublished =>
    refine ⟨rfl, fun d hd => ?_, [], by simp [Server.publish], by simp⟩
    refine (mem_inbox_publish hd).imp_right fun h => ?_
    rw [h]
    exact forwarded_text hc hj hu hm (hne rfl)
  | chatStored => exact .ack hc (.push _ s) conn _
  | @groupRouted u g msgId =>
    obtain ⟨new, hs, hframe⟩ := routeMembers_sent my (codec.text js) msgId 1
      (GroupModel.queryGroupUsers (my 0) u g s.db) s
    refine ⟨(routeMembers_keeps _ _ _ _ _ _).1, fun d hd => ?_,
      new ++ [⟨conn, none, ackFrame codec msgId⟩], by simp [Server.send, hs], fun e he => ?_⟩
    · refine (routeMembers_inbox _ _ _ _ _ s hd).imp_right fun h => ?_
      rw [h]
      exact forwarded_text hc hj hu hm (hne rfl)
    · rcases List.mem_append.mp he with he | he
      · rw [hframe e he]
        exact acceptedId_replyFrame hc hj hu hm (hne rfl) msgId
      · cases List.mem_singleton.mp he
        exact acceptedId_ackFrame hc msgId
  | friendQueued => exact .ack hc (.push _ s) conn _
  | groupQueued =>
    refine .answer hc ?_ conn _
      (acceptedId_groupResponse (t := .createGroupMsgAck) hc (by decide) _ _ _)
    exact ⟨rfl, rfl, rfl⟩
  | memberQueued =>
    refine .answer hc ?_ conn _
      (acceptedId_groupResponse (t := .addGroupMsgAck) hc (by decide) _ _ _)
    exact ⟨rfl, rfl, rfl⟩

theorem Quiet.observe (hc : codec.Lawful) {my : MySQL} {k : Nat} {s s' : Server}
    (hinbox : ∀ d ∈ s.redis.inbox, Forwarded codec d.message)
    (h : s.observe codec my k = some s') : Quiet codec s s' := by
  unfold Server.observe at h
  split at h
  · cases h
  · next d hd =>
    split at h
    · cases h
      have hrest : ∀ e ∈ (s.redis.take k).inbox, e ∈ s.redis.inbox ∨ Forwarded codec e.message :=
        fun e he => Or.inl (List.mem_of_mem_eraseIdx he)
      unfold handleRedisSubscribeMessage
      split
      · next c hl =>
        simp only
        split
        · exact ⟨rfl, hrest, [], by simp [Server.onHeartBeat], by simp⟩
        · next js hp =>
          split
          · next msgId msgid _ _ =>
            split
            · exact ⟨rfl, hrest, [], by simp [Server.onHeartBeat], by simp⟩
            · next t ht =>
              refine ⟨rfl, hrest, [⟨c, some d.channel, encryptedMessageSvr t msgid msgId.toUInt32⟩],
                by simp [Server.sendTo, Server.onHeartBeat], fun e he => ?_⟩
              cases List.mem_singleton.mp he
              have hp' : codec.parse t = some js := hc.parse_dump (hc.parse_canon hp) ht
              exact acceptedId_parse hp' (Or.inl (hinbox d (List.mem_of_getElem? hd) js hp))
          · exact ⟨rfl, hrest, [], by simp [Server.onHeartBeat], by simp⟩
      · split <;> exact ⟨rfl, hrest, [], by simp, by simp⟩
    · cases h

theorem Quiet.work {my : MySQL} {s s' : Server} (h : s.work my = some s') : Quiet codec s s' := by
  unfold Server.work at h
  split at h
  · cases h
  · split at h <;> (cases h; exact ⟨rfl, fun _ => Or.inl, [], by simp, by simp⟩)

/-! ## The connection map -/

theorem lookup_mapInsert_self (id : Int32) (conn : Conn) (s : Server) :
    (s.mapInsert id conn).userConnMap.lookup id = some ((s.userConnMap.lookup id).getD conn) := by
  unfold Server.mapInsert
  split
  · next h =>
    obtain ⟨c, hc⟩ := Finmap.mem_iff.mp h
    rw [hc]
    rfl
  · next h =>
    rw [Finmap.lookup_eq_none.mpr h]
    exact Finmap.lookup_insert _

theorem lookup_mapInsert_ne {id k : Int32} (hk : k ≠ id) (conn : Conn) (s : Server) :
    (s.mapInsert id conn).userConnMap.lookup k = s.userConnMap.lookup k := by
  unfold Server.mapInsert
  split
  · rfl
  · exact Finmap.lookup_insert_of_ne _ hk

theorem loginSession_userConnMap (my : Nat → MySQL) (conn : Conn) (id : Int32) (s : Server) :
    (loginSession my conn id s).userConnMap = (s.mapInsert id conn).userConnMap := by
  unfold loginSession takeOffline
  simp only
  split <;> rfl

/-- A login keeps the entries there are. -/
theorem lookup_loginSession (my : Nat → MySQL) (conn : Conn) (id : Int32) {s : Server} {k : Int32}
    {c : Conn} (h : s.userConnMap.lookup k = some c) :
    (loginSession my conn id s).userConnMap.lookup k = some c := by
  rw [loginSession_userConnMap]
  by_cases he : k = id
  · subst he
    rw [lookup_mapInsert_self, h]
    rfl
  · rw [lookup_mapInsert_ne he]
    exact h

/-- A close takes at most an entry of its own connection out of the map. -/
theorem lookup_close (order : List Int32) {conn c : Conn} (hne : c ≠ conn) {k : Int32} {s : Server}
    (h : s.userConnMap.lookup k = some c) :
    (onConnection order conn s).userConnMap.lookup k = some c := by
  have hmap : (onConnection order conn s).userConnMap =
      (if (order.find? fun id => s.userConnMap.lookup id = some conn).isSome then
        s.mapErase ((order.find? fun id => s.userConnMap.lookup id = some conn).getD (-1))
      else s).userConnMap := by
    unfold onConnection clientCloseException
    simp only
    split <;> rfl
  rw [hmap]
  cases hf : order.find? fun id => s.userConnMap.lookup id = some conn with
  | none => exact h
  | some id =>
    have hid : s.userConnMap.lookup id = some conn := by simpa using List.find?_some hf
    have hk : k ≠ id := by
      rintro rfl
      exact hne (Option.some.inj (h.symm.trans hid))
    exact (Finmap.lookup_erase_ne hk).trans h

theorem close_same (order : List Int32) (conn : Conn) (s : Server) :
    (onConnection order conn s).sent = s.sent ∧
      (onConnection order conn s).redis.inbox = s.redis.inbox := by
  unfold onConnection clientCloseException
  simp only
  split <;> split <;> exact ⟨rfl, rfl⟩

/-! ## The invariant -/

theorem replyEvents_append {s s' : Server} (new : List Sent) (h : s'.sent = s.sent ++ new) :
    replyEvents codec s s' = new.filterMap fun e =>
      (acceptedId codec e.frame).map fun id => .replied e.conn id := by
  rw [replyEvents, h, List.drop_left]

theorem Quiet.replyEvents {s s' : Server} (h : Quiet codec s s') : replyEvents codec s s' = [] := by
  obtain ⟨new, hs, hn⟩ := h.sent
  rw [replyEvents_append new hs, List.filterMap_eq_nil_iff]
  intro e he
  rw [hn e he]
  rfl

/-- Every session is the map's, and nothing on its way opens one. -/
structure Sound (codec : JsonCodec) (st : LoggedServer) : Prop where
  stored : ∀ id c, HasSession st.log c id → st.server.userConnMap.lookup id = some c
  inbox : ∀ d ∈ st.server.redis.inbox, Forwarded codec d.message

namespace Sound

variable {st st' : LoggedServer}

theorem singleLogin (h : Sound codec st) : SingleLogin st := by
  refine ⟨fun id c c' _ hs _ hs' => ?_, fun id c _ hs => h.stored id c hs⟩
  exact Option.some.inj ((h.stored id c hs).symm.trans (h.stored id c' hs'))

theorem quiet (h : Sound codec st) {s' : Server} (hq : Quiet codec st.server s') :
    Sound codec (st.advance codec [] s') := by
  refine ⟨fun id c hs => ?_, fun d hd => (hq.inbox d hd).elim (h.inbox d) fun hf => hf⟩
  simp only [LoggedServer.advance, hq.replyEvents, List.append_nil] at hs
  rw [LoggedServer.advance, hq.userConnMap]
  exact h.stored id c hs

/-- An event that is no reply keeps the entries of the sessions it does not end. -/
theorem event (h : Sound codec st) {s' : Server} {e : SessionEvent}
    (hne : ∀ c id, e ≠ .replied c id) (hsent : s'.sent = st.server.sent)
    (hinbox : s'.redis.inbox = st.server.redis.inbox)
    (hkeep : ∀ id c, st.server.userConnMap.lookup id = some c → e ≠ .loggedOut id →
      e ≠ .closed c → s'.userConnMap.lookup id = some c) :
    Sound codec (st.advance codec [e] s') := by
  have hnone : replyEvents codec st.server s' = [] := replyEvents_append [] (by simpa using hsent)
  refine ⟨fun id c hs => ?_, fun d hd => h.inbox d (hinbox ▸ hd)⟩
  simp only [LoggedServer.advance, hnone, List.append_nil] at hs
  rcases hasSession_append.mp hs with he | ⟨hs, hout, hclosed⟩
  · exact absurd he (hne c id)
  · exact hkeep id c (h.stored id c hs) hout hclosed

theorem logout (hc : codec.Lawful) (h : Sound codec st) (conn : Conn) {js : Json}
    (hm : js.intAt (lit "msgid") = some EnMsgType.logoutMsg.val) :
    Sound codec (st.advance codec (logoutEvents js) (logout codec conn js st.server).state) := by
  rcases logout_cases hc conn js st.server with ⟨hbad, hl⟩ | ⟨userid, msgId, hf, hl⟩
  · have hev : logoutEvents js = [] := by
      unfold logoutEvents
      split
      · next u m hu hm' => exact absurd ⟨hu, hm'⟩ (hbad u m)
      · rfl
    rw [hl, hev]
    exact h.quiet (.refl _)
  · have hev : logoutEvents js = [.loggedOut userid] := by
      rw [logoutEvents, hf.id, hf.msgId]
      exact if_pos hm
    have hnone : replyEvents codec st.server
        ((endSession userid st.server).send conn (ackFrame codec msgId)) = [] := by
      rw [replyEvents_append [⟨conn, none, ackFrame codec msgId⟩] rfl]
      simp [acceptedId_ackFrame hc]
    rw [hl, hev]
    refine ⟨fun id c hs => ?_, h.inbox⟩
    simp only [LoggedServer.advance, hnone, List.append_nil] at hs
    rcases hasSession_append.mp hs with he | ⟨hs, hout, -⟩
    · cases he
    · have hid : id ≠ userid := fun he => hout (by rw [he])
      exact (Finmap.lookup_erase_ne hid).trans (h.stored id c hs)

/-- A login that gets no accepting reply may only have filled a free entry. -/
theorem loginUnanswered (h : Sound codec st) (my : Nat → MySQL) (conn : Conn) (id : Int32) :
    Sound codec (st.advance codec [] (loginSession my conn id st.server)) := by
  have hnone : replyEvents codec st.server (loginSession my conn id st.server) = [] :=
    replyEvents_append [] (by simpa using loginSession_sent my conn id st.server)
  refine ⟨fun k c hs => ?_, fun d hd => h.inbox d ?_⟩
  · simp only [LoggedServer.advance, hnone, List.append_nil] at hs
    exact lookup_loginSession my conn id (h.stored k c hs)
  · rwa [← (loginSession_lists my conn id st.server).2.2.2]

theorem replyEvents_login (hc : codec.Lawful) {my : Nat → MySQL} {conn : Conn} {id msgId : Int32}
    {pwd : Bytes} {s : Server} (hacc : LoginAccepts my id pwd s.db) {j : Json}
    (hj : loginReply codec my id (UserModel.query (my 0) id s.db) msgId s.db = some j)
    (hu : j.utf8) :
    replyEvents codec s ((loginSession my conn id s).answer codec conn j msgId) =
      [.replied conn id] := by
  rw [replyEvents_append _ (sent_answer conn j msgId (loginSession_sent my conn id s))]
  simp [acceptedId_loginReply hc hj hu, acceptedId_ackFrame hc, hacc.1]

/-- An accepting reply is sound exactly when the map then holds its connection. -/
theorem loginAnswered (hc : codec.Lawful) (h : Sound codec st) {my : Nat → MySQL} {conn : Conn}
    (hopen : IsOpen st.log conn) {id msgId : Int32} {pwd : Bytes}
    (hacc : LoginAccepts my id pwd st.server.db) {j : Json}
    (hj : loginReply codec my id (UserModel.query (my 0) id st.server.db) msgId
      st.server.db = some j) (hu : j.utf8) :
    let st' := st.advance codec [] ((loginSession my conn id st.server).answer codec conn j msgId)
    ((∀ c, st.server.userConnMap.lookup id = some c → c = conn) → Sound codec st') ∧
      (SingleLogin st' → ∀ c, st.server.userConnMap.lookup id = some c → c = conn) := by
  intro st'
  have hlog : st'.log = st.log ++ [.replied conn id] := by
    show st.log ++ ([] ++ replyEvents codec st.server _) = _
    rw [replyEvents_login hc hacc hj hu, List.nil_append]
  have hself : st'.server.userConnMap.lookup id =
      some ((st.server.userConnMap.lookup id).getD conn) := by
    show (loginSession my conn id st.server).userConnMap.lookup id = _
    rw [loginSession_userConnMap, lookup_mapInsert_self]
  constructor
  · intro hfree
    refine ⟨fun k c hs => ?_, fun d hd => h.inbox d ?_⟩
    · rw [hlog] at hs
      rcases hasSession_append.mp hs with he | ⟨hs, -, -⟩
      · cases he
        rw [hself]
        cases hl : st.server.userConnMap.lookup id with
        | none => rfl
        | some c => rw [hfree c hl, Option.getD_some]
      · exact lookup_loginSession my conn id (h.stored k c hs)
    · rwa [← (loginSession_lists my conn id st.server).2.2.2]
  · intro hsingle c hl
    have hsess : HasSession st'.log conn id := by
      rw [hlog]
      exact hasSession_append.mpr (Or.inl rfl)
    have hopen' : IsOpen st'.log conn := by
      rw [hlog]
      refine ⟨List.mem_append_left _ hopen.1, ?_⟩
      simpa using hopen.2
    have hstored := hsingle.stored id conn hopen' hsess
    rw [hself, hl] at hstored
    exact Option.some.inj hstored

/-- A login is sound again if it finds no other connection, and only then gives
single sessions. -/
theorem login (hc : codec.Lawful) (h : Sound codec st) (my : Nat → MySQL) {conn : Conn}
    (hopen : IsOpen st.log conn) {js : Json}
    (hm : js.intAt (lit "msgid") = some EnMsgType.loginMsg.val) :
    let st' := st.advance codec [] (MyChat.login codec my conn js st.server).state
    (FindsNoOther st (.request my conn js) → Sound codec st') ∧
      (SingleLogin st' → FindsNoOther st (.request my conn js)) := by
  intro st'
  simp only [st']
  rcases login_cases hc my conn js st.server with ⟨hbad, hl⟩ | ⟨id, pwd, msgId, hf, hl⟩
  · rw [hl]
    exact ⟨fun _ => h.quiet (.refl _), fun _ _ id pwd msgId hf => absurd hf (hbad id pwd msgId)⟩
  rcases hl with ⟨hrej, errno, errmsg, he, hl⟩ | ⟨hacc, j, hjr, hju, hl⟩ | ⟨hacc, htexts, hl⟩
  · rw [hl]
    refine ⟨fun _ => h.quiet (.answer hc (.refl _) conn msgId
      (acceptedId_loginRefusal hc he errmsg msgId msgId)), fun _ _ id' pwd' msgId' hf' hacc => ?_⟩
    obtain ⟨rfl, rfl, rfl⟩ := hf.unique hf'
    exact absurd hacc hrej
  · rw [hl]
    obtain ⟨hgood, hback⟩ := h.loginAnswered hc hopen hacc hjr hju
    refine ⟨fun hok =>
      hgood (hok hm id pwd msgId hf hacc ?_), fun hs _ id' pwd' msgId' hf' _ _ => ?_⟩
    · exact (loginReply_utf8 hc _ _ _ _ _).mp ⟨j, hjr, hju⟩
    · obtain ⟨rfl, rfl, rfl⟩ := hf.unique hf'
      exact hback hs
  · rw [hl]
    refine ⟨fun _ => h.loginUnanswered my conn id, fun _ _ id' pwd' msgId' hf' _ hok => ?_⟩
    obtain ⟨rfl, rfl, rfl⟩ := hf.unique hf'
    exact absurd hok htexts

/-- One request: sound again if the login, should it be one, finds no other
connection, and no single login otherwise. -/
theorem request (hc : codec.Lawful) (h : Sound codec st) (my : Nat → MySQL) {conn : Conn}
    (hopen : IsOpen st.log conn) {js : Json} (hj : js.canon) (hu : js.utf8) :
    let st' := st.advance codec (logoutEvents js)
      (handleJson (chatService codec my) conn js st.server).state
    (FindsNoOther st (.request my conn js) → Sound codec st') ∧
      (SingleLogin st' → FindsNoOther st (.request my conn js)) := by
  intro st'
  -- what does not log anyone in is sound and meets the condition
  have hother : js.intAt (lit "msgid") ≠ some EnMsgType.loginMsg.val → Sound codec st' →
      (FindsNoOther st (.request my conn js) → Sound codec st') ∧
        (SingleLogin st' → FindsNoOther st (.request my conn js)) :=
    fun hne hs => ⟨fun _ => hs, fun _ he => absurd he hne⟩
  have hevents : js.intAt (lit "msgid") ≠ some EnMsgType.logoutMsg.val → logoutEvents js = [] := by
    intro hne
    unfold logoutEvents
    split
    · exact if_neg hne
    · rfl
  cases hm : js.intAt (lit "msgid") with
  | none =>
    refine hother (by simp [hm]) ?_
    have hev := hevents (by simp [hm])
    simp only [st', hev, handleJson, hm]
    exact h.quiet (.refl _)
  | some msgid =>
    have hst' : st' = st.advance codec (logoutEvents js)
        (getHandler codec my msgid conn js st.server).state := by
      simp only [st', handleJson, hm]
      rfl
    by_cases hlogout : handlerOf msgid = some .logoutMsg
    · have hval : EnMsgType.logoutMsg.val = msgid := (handlerOf_some hlogout).symm
      subst hval
      refine hother (by rw [hm]; decide) ?_
      rw [hst']
      exact h.logout hc conn hm
    by_cases hlogin : handlerOf msgid = some .loginMsg
    · have hval : EnMsgType.loginMsg.val = msgid := (handlerOf_some hlogin).symm
      subst hval
      have hev := hevents (by rw [hm]; decide)
      rw [hst', hev]
      exact h.login hc my hopen hm
    · have hne : js.intAt (lit "msgid") ≠ some EnMsgType.loginMsg.val := by
        rw [hm]
        rintro ⟨⟩
        exact hlogin rfl
      have hev := hevents (by rw [hm]; rintro ⟨⟩; exact hlogout rfl)
      refine hother hne ?_
      rw [hst', hev]
      exact h.quiet (getHandler_quiet hc my conn hj hu hm hlogin hlogout st.server)

/-- One step from a sound state. -/
theorem step (hc : codec.Lawful) (h : Sound codec st) {l : SessionStep}
    (hs : st.step codec l = some st') :
    (FindsNoOther st l → Sound codec st') ∧ (SingleLogin st' → FindsNoOther st l) := by
  cases l with
  | connect conn =>
    simp only [LoggedServer.step] at hs
    split at hs
    · cases hs
    · cases hs
      exact ⟨fun _ => h.event (by simp) rfl rfl fun _ _ hk _ _ => hk, fun _ => trivial⟩
  | request my conn js =>
    simp only [LoggedServer.step] at hs
    split at hs
    · next hg =>
      cases hs
      exact h.request hc my hg.1 hg.2.1 hg.2.2
    · cases hs
  | close order conn =>
    simp only [LoggedServer.step] at hs
    split at hs
    · cases hs
      obtain ⟨hsent, hinbox⟩ := close_same order conn st.server
      refine ⟨fun _ => h.event (by simp) hsent hinbox fun id c hk _ hclosed => ?_, fun _ => trivial⟩
      exact lookup_close order (fun he => hclosed (by rw [he])) hk
    · cases hs
  | observe my k =>
    obtain ⟨s', hs', rfl⟩ := Option.map_eq_some_iff.mp hs
    exact ⟨fun _ => h.quiet (.observe hc h.inbox hs'), fun _ => trivial⟩
  | expire id =>
    cases hs
    exact ⟨fun _ => h.quiet ⟨rfl, fun _ => Or.inl, [], by simp [Server.expire], by simp⟩,
      fun _ => trivial⟩
  | work my =>
    obtain ⟨s', hs', rfl⟩ := Option.map_eq_some_iff.mp hs
    exact ⟨fun _ => h.quiet (.work hs'), fun _ => trivial⟩

end Sound

/-- Single login holds in every run in which each login that is accepted finds
no other connection in the map, and the first login that finds one breaks it. -/
theorem singleLogin_iff (hc : codec.Lawful) {st : LoggedServer}
    (h : (LoggedServer.machine codec).Run FindsNoOther st) :
    SingleLogin st ∧ ∀ l st', st.step codec l = some st' →
      (SingleLogin st' ↔ FindsNoOther st l) := by
  have hsound : Sound codec st := by
    refine h.invariant ?_ fun st l st' hi hok hs => (hi.step hc hs).1 hok
    rintro st ⟨self, db, rfl⟩
    exact ⟨fun id c hs => absurd hs (not_hasSession_nil c id), by simp [Server.start, Redis.empty]⟩
  refine ⟨hsound.singleLogin, fun l st' hs => ⟨(hsound.step hc hs).2, fun hok => ?_⟩⟩
  exact ((hsound.step hc hs).1 hok).singleLogin

/-- Three connections; users 1 and 2 register. -/
def usersRegistered : List SessionStep :=
  [.connect 1, .connect 2, .connect 3, .request (fun _ => MySQL.up) 1 (Sample.reg "a"),
    .request (fun _ => MySQL.up) 2 (Sample.reg "b")]

/-- User 2 logs in on a connection. -/
def loginOn (conn : Conn) : SessionStep := .request (fun _ => MySQL.up) conn (Sample.login 2)

def started : LoggedServer := ⟨Server.start 0 Database.empty, []⟩

theorem usersRegistered_runs :
    ((LoggedServer.machine JsonText.codec).exec started usersRegistered).isSome := by decide +kernel

theorem login_runs : ((((LoggedServer.machine JsonText.codec).exec started usersRegistered).get
    usersRegistered_runs).step JsonText.codec (loginOn 2)).isSome := by decide +kernel

theorem singleLogin_login : SingleLogin (((((LoggedServer.machine JsonText.codec).exec started
    usersRegistered).get usersRegistered_runs).step JsonText.codec (loginOn 2)).get
      login_runs) := by
  have hok : ∀ l ∈ usersRegistered, ∀ st, FindsNoOther st l := by
    intro l hl st
    simp only [usersRegistered, List.mem_cons, List.not_mem_nil, or_false] at hl
    rcases hl with rfl | rfl | rfl | rfl | rfl
    · trivial
    · trivial
    · trivial
    · exact fun hm => absurd hm (by decide +kernel)
    · exact fun hm => absurd hm (by decide +kernel)
  have hrun := Machine.Run.exec (M := LoggedServer.machine JsonText.codec)
    (.start ⟨0, Database.empty, rfl⟩) hok (Option.some_get usersRegistered_runs).symm
  refine (singleLogin_iff JsonText.codec_lawful
    (hrun.next (l := loginOn 2) ?_ (Option.some_get login_runs).symm)).1
  intro _ id pwd msgId hf _ _ c hl
  have hid : (Sample.login 2).intAt (lit "id") = some 2 := by decide +kernel
  cases Option.some.inj (hid.symm.trans hf.id)
  have hnone : ((((LoggedServer.machine JsonText.codec).exec started usersRegistered).get
      usersRegistered_runs).server.userConnMap.lookup 2) = none := by decide +kernel
  rw [hnone] at hl
  cases hl

theorem twoLogins_run : ((LoggedServer.machine JsonText.codec).exec started
    (usersRegistered ++ [loginOn 2, loginOn 3])).isSome := by decide +kernel

/-- A second login on another connection, with the first one's row update still
queued, is accepted, while the map keeps the first connection. -/
theorem twoLogins_accepted :
    ¬ ∀ st, (LoggedServer.machine JsonText.codec).Reachable st → SingleLogin st := by
  intro h
  have hreach := Machine.reachable_exec (M := LoggedServer.machine JsonText.codec) (s := started)
    ⟨0, Database.empty, rfl⟩ twoLogins_run
  have hone := (h _ hreach).one 2 2 3
  have hlog : (((LoggedServer.machine JsonText.codec).exec started
      (usersRegistered ++ [loginOn 2, loginOn 3])).get twoLogins_run).log =
      [.connected 1, .connected 2, .connected 3, .replied 2 2, .replied 3 2] := by decide +kernel
  rw [hlog] at hone
  have heq := hone (by decide) ⟨[.connected 1, .connected 2, .connected 3], [.replied 3 2], rfl,
    by decide, by decide⟩ (by decide) ⟨[.connected 1, .connected 2, .connected 3, .replied 2 2], [],
    rfl, by decide, by decide⟩
  simp at heq

end MyChat
