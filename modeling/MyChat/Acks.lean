import MyChat.Malformed
import MyChat.ServerRun

/-! Which requests are acknowledged. A handler acknowledges once, behind its
effects and its reply, on every path but the published chat. -/

namespace MyChat
open Json

variable {codec : JsonCodec}

/-! ## Reading replies back -/

theorem intAt_msgid (t : EnMsgType) (fs : List (String × Json)) :
    (object (msgidField t :: fs)).intAt (lit "msgid") = some t.val := by
  rw [msgidField, intAt_lit, if_pos rfl]
  exact getInt_ofInt32 _

theorem intAt_ackResponse (msgId : Int32) :
    (ackResponse msgId).intAt (lit "msgid") = some EnMsgType.ackMsg.val ∧
      (ackResponse msgId).intAt (lit "msgId") = some msgId ∧
      (ackResponse msgId).intAt (lit "errno") = none := by
  simp [ackResponse, msgIdField, msgidField, intAt_lit, intAt_lit_nil]

theorem intAt_loginRefusal (errno : Int32) (errmsg : String) (msgId : Int32) :
    (loginRefusal errno errmsg msgId).intAt (lit "errno") = some errno := by
  simp [loginRefusal, msgidField, intAt_lit]

theorem intAt_loginResponse (user : User) (msgId : Int32) (vec friends groups : List Bytes) :
    (loginResponse user msgId vec friends groups).intAt (lit "errno") = some 0 ∧
      (loginResponse user msgId vec friends groups).intAt (lit "id") = some user.id := by
  simp [loginResponse, msgidField, intAt_lit]

theorem intAt_regResponse (id msgId : Int32) :
    (regResponse id msgId).intAt (lit "msgId") = some msgId ∧
      (regResponse id msgId).intAt (lit "errno") = some 0 := by
  simp [regResponse, msgidField, msgIdField, intAt_lit]

theorem intAt_groupResponse (t : EnMsgType) (desc : String) (msgId : Int32) :
    (groupResponse t desc msgId).intAt (lit "msgId") = some msgId ∧
      (groupResponse t desc msgId).intAt (lit "errno") = some 0 := by
  simp [groupResponse, msgidField, msgIdField, intAt_lit]

theorem canon_ackResponse (msgId : Int32) : (ackResponse msgId).canon := by
  apply canon_object
  simp only [List.mem_cons, List.not_mem_nil, or_false, forall_eq_or_imp, forall_eq]
  exact ⟨canon_ofInt32 _, canon_ofInt32 _⟩

theorem canon_loginRefusal (errno : Int32) (errmsg : String) (msgId : Int32) :
    (loginRefusal errno errmsg msgId).canon := by
  apply canon_object
  simp only [List.mem_cons, List.not_mem_nil, or_false, forall_eq_or_imp, forall_eq]
  exact ⟨canon_ofInt32 _, canon_ofInt32 _, rfl, canon_ofInt32 _⟩

theorem canon_regResponse (id msgId : Int32) : (regResponse id msgId).canon := by
  apply canon_object
  simp only [List.mem_cons, List.not_mem_nil, or_false, forall_eq_or_imp, forall_eq]
  exact ⟨canon_ofInt32 _, canon_ofInt32 _, canon_ofInt32 _, canon_ofInt32 _⟩

theorem canon_groupResponse (t : EnMsgType) (desc : String) (msgId : Int32) :
    (groupResponse t desc msgId).canon := by
  apply canon_object
  simp only [List.mem_cons, List.not_mem_nil, or_false, forall_eq_or_imp, forall_eq]
  exact ⟨canon_ofInt32 _, canon_ofInt32 _, rfl, canon_ofInt32 _⟩

theorem canon_optional (k : String) (v : List Bytes) : ∀ f ∈ optional k v, f.2.canon := by
  unfold optional
  split
  · simp
  · simpa using canon_ofStrings v

theorem canon_loginResponse (user : User) (msgId : Int32) (vec friends groups : List Bytes) :
    (loginResponse user msgId vec friends groups).canon := by
  apply canon_object
  intro f hf
  simp only [List.mem_append] at hf
  rcases hf with ((hf | hf) | hf) | hf
  · revert f
    simp only [List.mem_cons, List.not_mem_nil, or_false, forall_eq_or_imp, forall_eq]
    exact ⟨canon_ofInt32 _, canon_ofInt32 _, canon_ofInt32 _, rfl, canon_ofInt32 _⟩
  · exact canon_optional _ _ f hf
  · exact canon_optional _ _ f hf
  · exact canon_optional _ _ f hf

theorem parse_text (hc : codec.Lawful) {j : Json} (hj : j.canon) (hu : j.utf8) :
    codec.parse (codec.text j) = some j := hc.parse_dump hj (hc.dump_eq hu)

theorem parse_replyFrame (hc : codec.Lawful) {j : Json} (hj : j.canon) (hu : j.utf8) (m : Int32) :
    codec.parse (replyFrame codec j m).text = some j := parse_text hc hj hu

theorem parse_ackFrame (hc : codec.Lawful) (msgId : Int32) :
    codec.parse (ackFrame codec msgId).text = some (ackResponse msgId) :=
  parse_text hc (canon_ackResponse msgId) (utf8_ackResponse msgId)

/-- A reply and its ACK go out behind what was sent before. -/
theorem sent_answer (conn : Conn) (j : Json) (msgId : Int32) {s s' : Server}
    (hs : s'.sent = s.sent) :
    (s'.answer codec conn j msgId).sent = s.sent ++
      [⟨conn, none, replyFrame codec j msgId⟩, ⟨conn, none, ackFrame codec msgId⟩] := by
  simp [Server.answer, Server.send, hs]

/-! ## Counting ACKs -/

/-- A frame on `conn` whose JSON is the ACK of `msgId`. -/
def isAck (codec : JsonCodec) (conn : Conn) (msgId : Int32) (e : Sent) : Bool :=
  e.conn = conn && (codec.parse e.frame.text).any fun j =>
    j.intAt (lit "msgid") = some EnMsgType.ackMsg.val && j.intAt (lit "msgId") = some msgId

/-- The ACKs among the frames that `s'` has sent and `s` has not. -/
def acks (codec : JsonCodec) (conn : Conn) (msgId : Int32) (s s' : Server) : Nat :=
  (s'.sent.drop s.sent.length).countP (isAck codec conn msgId)

theorem acks_eq {conn : Conn} {msgId : Int32} {s s' : Server} (new : List Sent)
    (h : s'.sent = s.sent ++ new) :
    acks codec conn msgId s s' = new.countP (isAck codec conn msgId) := by
  rw [acks, h, List.drop_left]

theorem isAck_ackFrame (hc : codec.Lawful) (conn : Conn) (msgId : Int32) (u : Option Int32) :
    isAck codec conn msgId ⟨conn, u, ackFrame codec msgId⟩ = true := by
  obtain ⟨htype, hid, -⟩ := intAt_ackResponse msgId
  simp [isAck, parse_ackFrame hc, htype, hid]

/-- Frames of any other message type are no ACKs. -/
theorem isAck_replyFrame (hc : codec.Lawful) {j : Json} (hj : j.canon) (hu : j.utf8) {t : Int32}
    (ht : j.intAt (lit "msgid") = some t) (hne : t ≠ EnMsgType.ackMsg.val) (conn c : Conn)
    (msgId m : Int32) (u : Option Int32) :
    isAck codec conn msgId ⟨c, u, replyFrame codec j m⟩ = false := by
  simp [isAck, parse_replyFrame hc hj hu, ht, hne]

theorem acks_answer (hc : codec.Lawful) {j : Json} (hj : j.canon) (hu : j.utf8) {t : Int32}
    (ht : j.intAt (lit "msgid") = some t) (hne : t ≠ EnMsgType.ackMsg.val) (conn : Conn)
    (msgId : Int32) {s s' : Server} (hs : s'.sent = s.sent) :
    acks codec conn msgId s (s'.answer codec conn j msgId) = 1 := by
  rw [acks_eq _ (sent_answer conn j msgId hs)]
  simp [isAck_replyFrame hc hj hu ht hne, isAck_ackFrame hc]

theorem acks_send (hc : codec.Lawful) (conn : Conn) (msgId : Int32) {s s' : Server}
    (new : List Sent) (hs : s'.sent = s.sent ++ new)
    (hnew : ∀ e ∈ new, isAck codec conn msgId e = false) :
    acks codec conn msgId s (s'.send conn (ackFrame codec msgId)) = 1 := by
  have hsent : (s'.send conn (ackFrame codec msgId)).sent = s.sent ++
      (new ++ [⟨conn, none, ackFrame codec msgId⟩]) := by
    simp [Server.send, hs]
  have hzero : new.countP (isAck codec conn msgId) = 0 := by
    rw [List.countP_eq_zero]
    intro e he
    simp [hnew e he]
  rw [acks_eq _ hsent, List.countP_append, hzero]
  simp [isAck_ackFrame hc]

theorem acks_unsent {conn : Conn} {msgId : Int32} {s s' : Server} (hs : s'.sent = s.sent) :
    acks codec conn msgId s s' = 0 := by
  rw [acks_eq [] (by simpa using hs)]
  rfl

/-! ## The handlers -/

/-- The lists of a server while a session opens. -/
theorem loginSession_lists (my : Nat → MySQL) (conn : Conn) (id : Int32) (s : Server) :
    (loginSession my conn id s).self = s.self ∧ (loginSession my conn id s).sent = s.sent ∧
      (loginSession my conn id s).dbQueue =
        s.dbQueue ++ [updateStateTask (UserModel.query (my 0) id s.db).id online] ∧
      (loginSession my conn id s).redis.inbox = s.redis.inbox := by
  have hopen : ∀ user, (openSession conn id user s).self = s.self ∧
      (openSession conn id user s).sent = s.sent ∧
      (openSession conn id user s).dbQueue = s.dbQueue ++ [updateStateTask user.id online] ∧
      (openSession conn id user s).redis.inbox = s.redis.inbox := by
    intro user
    unfold openSession Server.mapInsert
    split
    · exact ⟨rfl, rfl, rfl, rfl⟩
    · exact ⟨rfl, rfl, rfl, rfl⟩
  unfold loginSession takeOffline
  simp only
  split
  · exact hopen _
  · exact hopen (UserModel.query (my 0) id s.db)

theorem loginSession_sent (my : Nat → MySQL) (conn : Conn) (id : Int32) (s : Server) :
    (loginSession my conn id s).sent = s.sent := (loginSession_lists my conn id s).2.1

theorem loginReply_msgid {my : Nat → MySQL} {id : Int32} {user : User} {msgId : Int32}
    {db : Database} {j : Json} (h : loginReply codec my id user msgId db = some j) :
    j.canon ∧ j.intAt (lit "msgid") = some EnMsgType.loginMsgAck.val := by
  obtain ⟨v, -, rfl⟩ := Option.map_eq_some_iff.mp h
  exact ⟨canon_loginResponse _ _ _ _ _, intAt_msgid _ _⟩

/-- A request of type `t` with message id `msgId`: its handler finds every
field it reads. -/
def WellFormed (js : Json) (msgId : Int32) : EnMsgType → Prop
  | .loginMsg => ∃ id pwd, LoginFields js id pwd msgId
  | .regMsg => ∃ name pwd, RegFields js name pwd msgId
  | .oneChatMsg => ∃ toid, ChatFields js toid msgId
  | .addFriendMsg => ∃ userid friendid, FriendFields js userid friendid msgId
  | .createGroupMsg => ∃ userid name desc, CreateFields js userid name desc msgId
  | .addGroupMsg => ∃ userid groupid, GroupFields js userid groupid msgId
  | .groupChatMsg => ∃ userid groupid, GroupFields js userid groupid msgId
  | .logoutMsg => ∃ userid, LogoutFields js userid msgId
  | _ => False

/-- When the handler acknowledges: the login reply can be serialised, the
registration fits its buffer, the chat's recipient is connected here or seems
offline. The other handlers always do. -/
def Acknowledges (my : Nat → MySQL) (js : Json) (s : Server) : EnMsgType → Prop
  | .loginMsg => ∀ id pwd msgId, LoginFields js id pwd msgId → LoginAccepts my id pwd s.db →
      (loginTexts my id (UserModel.query (my 0) id s.db) s.db).all validUtf8
  | .regMsg => ∀ name pwd msgId, RegFields js name pwd msgId → RegFits name pwd
  | .oneChatMsg => ∀ toid msgId, ChatFields js toid msgId →
      toid ∈ s.userConnMap ∨ ¬ SeemsOnline (my 0) toid s
  | _ => True

section
variable (hc : codec.Lawful) (my : Nat → MySQL) (conn : Conn) {js : Json} {msgId : Int32}
  (s : Server)
include hc

theorem login_acks_iff (hwf : WellFormed js msgId .loginMsg) :
    acks codec conn msgId s (login codec my conn js s).state = 1 ↔
      Acknowledges my js s .loginMsg := by
  obtain ⟨id, pwd, hf⟩ := hwf
  rcases login_cases hc my conn js s with ⟨hbad, -⟩ | ⟨id', pwd', msgId', hf', h⟩
  · exact absurd hf (hbad id pwd msgId)
  obtain ⟨rfl, rfl, rfl⟩ := hf.unique hf'
  rcases h with ⟨hrej, errno, errmsg, -, h⟩ | ⟨hacc, j, hj, hju, h⟩ | ⟨hacc, htexts, h⟩
  · rw [h]
    refine iff_of_true (acks_answer hc (canon_loginRefusal _ _ _) (utf8_loginRefusal _ _ _)
      (intAt_msgid _ _) (by decide) conn msgId rfl) ?_
    intro id' pwd' msgId' hf' hacc
    obtain ⟨rfl, rfl, rfl⟩ := hf.unique hf'
    exact absurd hacc hrej
  · rw [h]
    obtain ⟨hjc, hjm⟩ := loginReply_msgid hj
    refine iff_of_true (acks_answer hc hjc hju hjm (by decide) conn msgId
      (loginSession_sent my conn id s)) ?_
    intro id' pwd' msgId' hf' hacc
    obtain ⟨rfl, rfl, rfl⟩ := hf.unique hf'
    exact (loginReply_utf8 hc _ _ _ _ _).mp ⟨j, hj, hju⟩
  · rw [h]
    refine iff_of_false ?_ fun hok => htexts (hok id pwd msgId hf hacc)
    rw [acks_unsent (loginSession_sent my conn id s)]
    decide

theorem reg_acks_iff (hj : js.canon) (hu : js.utf8)
    (hm : js.intAt (lit "msgid") = some EnMsgType.regMsg.val) (hwf : WellFormed js msgId .regMsg) :
    acks codec conn msgId s (reg codec my conn js s).state = 1 ↔ Acknowledges my js s .regMsg := by
  obtain ⟨name, pwd, hf⟩ := hwf
  have hall : Acknowledges my js s .regMsg ↔ RegFits name pwd := by
    refine ⟨fun h => h name pwd msgId hf, fun h name' pwd' msgId' hf' => ?_⟩
    obtain ⟨rfl, rfl, rfl⟩ := hf.unique hf'
    exact h
  rw [hall]
  rcases reg_cases hc my conn js s with ⟨hbad, -⟩ | ⟨name', pwd', msgId', hf', h⟩
  · exact absurd hf (hbad name pwd msgId)
  obtain ⟨rfl, rfl, rfl⟩ := hf.unique hf'
  rcases h with ⟨hfit, h⟩ | ⟨hfit, t, id, -, h⟩ | ⟨hfit, -, h⟩ | ⟨-, hu', -⟩
  · rw [h]
    refine iff_of_false ?_ hfit
    rw [acks_unsent rfl]
    decide
  · rw [h]
    exact iff_of_true (acks_answer hc (canon_regResponse _ _) (utf8_regResponse _ _)
      (intAt_msgid _ _) (by decide) conn msgId rfl) hfit
  · rw [h]
    exact iff_of_true (acks_answer hc hj hu hm (by decide) conn msgId rfl) hfit
  · rw [hu] at hu'; cases hu'

theorem oneChat_acks_iff (hj : js.canon) (hu : js.utf8)
    (hm : js.intAt (lit "msgid") = some EnMsgType.oneChatMsg.val)
    (hwf : WellFormed js msgId .oneChatMsg) :
    acks codec conn msgId s (oneChat codec my conn js s).state = 1 ↔
      Acknowledges my js s .oneChatMsg := by
  obtain ⟨toid, hf⟩ := hwf
  have hall : Acknowledges my js s .oneChatMsg ↔
      toid ∈ s.userConnMap ∨ ¬ SeemsOnline (my 0) toid s := by
    refine ⟨fun h => h toid msgId hf, fun h toid' msgId' hf' => ?_⟩
    cases Option.some.inj (hf.toid.symm.trans hf'.toid)
    exact h
  rw [hall]
  rcases oneChat_cases hc my conn js s with ⟨hbad, -⟩ | ⟨toid', msgId', hf', h⟩
  · exact absurd hf (hbad toid msgId)
  obtain ⟨rfl, rfl⟩ := hf.unique hf'
  rcases h with ⟨hu', -⟩ | ⟨-, c, hl, h⟩ | ⟨-, hl, hon, h⟩ | ⟨-, -, hoff, h⟩
  · rw [hu] at hu'; cases hu'
  · rw [h]
    refine iff_of_true ?_ (Or.inl (Finmap.mem_of_lookup_eq_some hl))
    refine acks_send hc conn msgId [⟨c, some toid, replyFrame codec js msgId⟩] rfl ?_
    intro e he
    cases List.mem_singleton.mp he
    exact isAck_replyFrame hc hj hu hm (by decide) conn c msgId msgId _
  · rw [h]
    refine iff_of_false ?_ ?_
    · have hsent : (s.publish toid (codec.text js)).sent = s.sent := rfl
      rw [acks_unsent hsent]
      decide
    · rintro (hmem | hoff)
      · exact Finmap.lookup_eq_none.mp hl hmem
      · exact hoff hon
  · rw [h]
    exact iff_of_true (acks_send hc conn msgId [] (by simp [Server.push]) (by simp))
      (Or.inr hoff)

theorem groupChat_acks (hj : js.canon) (hu : js.utf8)
    (hm : js.intAt (lit "msgid") = some EnMsgType.groupChatMsg.val)
    (hwf : WellFormed js msgId .groupChatMsg) :
    acks codec conn msgId s (groupChat codec my conn js s).state = 1 := by
  obtain ⟨userid, groupid, hf⟩ := hwf
  rcases groupChat_cases hc my conn js s with ⟨hbad, -⟩ | ⟨userid', groupid', msgId', hf', h⟩
  · exact absurd hf (hbad userid groupid msgId)
  cases Option.some.inj (hf.msgId.symm.trans hf'.msgId)
  rcases h with ⟨hu', -⟩ | ⟨-, h⟩
  · rw [hu] at hu'; cases hu'
  · rw [h]
    obtain ⟨new, hs, hframe⟩ := routeMembers_sent my (codec.text js) msgId 1
      (GroupModel.queryGroupUsers (my 0) userid' groupid' s.db) s
    refine acks_send hc conn msgId new hs fun e he => ?_
    have hrep := isAck_replyFrame hc hj hu hm (by decide) conn e.conn msgId msgId e.forUser
    have he' : e = ⟨e.conn, e.forUser, replyFrame codec js msgId⟩ := by
      cases e
      simpa [replyFrame] using hframe _ he
    rw [he', hrep]

end

/-- Every well-formed request, in every server state, is acknowledged exactly
once on its own connection exactly when its handler acknowledges. -/
theorem handler_acks_once_iff (hc : codec.Lawful) (my : Nat → MySQL) (conn : Conn) {js : Json}
    (hj : js.canon) (hu : js.utf8) {t : EnMsgType} (hm : js.intAt (lit "msgid") = some t.val)
    {msgId : Int32} (hwf : WellFormed js msgId t) (s : Server) :
    acks codec conn msgId s (getHandler codec my t.val conn js s).state = 1 ↔
      Acknowledges my js s t := by
  cases t with
  | loginMsg => exact login_acks_iff hc my conn s hwf
  | regMsg => exact reg_acks_iff hc my conn s hj hu hm hwf
  | oneChatMsg => exact oneChat_acks_iff hc my conn s hj hu hm hwf
  | groupChatMsg => exact iff_of_true (groupChat_acks hc my conn s hj hu hm hwf) trivial
  | addFriendMsg =>
    obtain ⟨u, f, hf⟩ := hwf
    refine iff_of_true ?_ trivial
    show acks codec conn msgId s (addFriend codec conn js s).state = 1
    rcases addFriend_cases hc conn js s with ⟨hbad, -⟩ | ⟨u', f', m', hf', h⟩
    · exact absurd hf (hbad u f msgId)
    · cases Option.some.inj (hf.msgId.symm.trans hf'.msgId)
      rw [h]
      exact acks_send hc conn msgId [] (by simp [Server.push]) (by simp)
  | createGroupMsg =>
    obtain ⟨u, n, d, hf⟩ := hwf
    refine iff_of_true ?_ trivial
    show acks codec conn msgId s (createGroup codec my conn js s).state = 1
    rcases createGroup_cases hc my conn js s with ⟨hbad, -⟩ | ⟨u', n', d', m', hf', h⟩
    · exact absurd hf (hbad u n d msgId)
    · cases Option.some.inj (hf.msgId.symm.trans hf'.msgId)
      rw [h]
      exact acks_answer hc (canon_groupResponse _ _ _) (utf8_groupResponse _ _ _)
        (intAt_msgid _ _) (by decide) conn msgId rfl
  | addGroupMsg =>
    obtain ⟨u, g, hf⟩ := hwf
    refine iff_of_true ?_ trivial
    show acks codec conn msgId s (addGroup codec conn js s).state = 1
    rcases addGroup_cases hc conn js s with ⟨hbad, -⟩ | ⟨u', g', m', hf', h⟩
    · exact absurd hf (hbad u g msgId)
    · cases Option.some.inj (hf.msgId.symm.trans hf'.msgId)
      rw [h]
      exact acks_answer hc (canon_groupResponse _ _ _) (utf8_groupResponse _ _ _)
        (intAt_msgid _ _) (by decide) conn msgId rfl
  | logoutMsg =>
    obtain ⟨u, hf⟩ := hwf
    refine iff_of_true ?_ trivial
    show acks codec conn msgId s (logout codec conn js s).state = 1
    rcases logout_cases hc conn js s with ⟨hbad, -⟩ | ⟨u', m', hf', h⟩
    · exact absurd hf (hbad u msgId)
    · cases Option.some.inj (hf.msgId.symm.trans hf'.msgId)
      rw [h]
      exact acks_send hc conn msgId []
        (by simp [endSession, Server.push, Server.redisOffline, Server.mapErase]) (by simp)
  | _ => exact absurd hwf id

namespace Sample

/-- Users 1 and 2 have registered and logged in, and the worker has caught up. -/
def bothOnline : List ServerStep :=
  registered ++ [step .loginMsg 1 (login 1), step .loginMsg 2 (login 2), .work MySQL.up,
    .work MySQL.up]

theorem bothOnline_runs :
    ((Server.machine JsonText.codec (· = Server.start 0 Database.empty)).exec
      (Server.start 0 Database.empty) bothOnline).isSome := by decide +kernel

/-- The server that both are connected to. -/
def meeting : Server := Option.get _ bothOnline_runs

end Sample

/-- User 1 writes to user 2. -/
theorem handler_acks_once_chat : acks JsonText.codec 1 7 Sample.meeting
    (getHandler JsonText.codec (fun _ => MySQL.up) EnMsgType.oneChatMsg.val 1 (Sample.chat 1 2)
      Sample.meeting).state = 1 := by
  have hf := Sample.chat_fields 1 2
  have hwf : WellFormed (Sample.chat 1 2) 7 .oneChatMsg := ⟨2, hf⟩
  refine (handler_acks_once_iff JsonText.codec_lawful (fun _ => MySQL.up) 1 (by decide +kernel)
    (by decide +kernel) (by decide +kernel) hwf Sample.meeting).mpr ?_
  intro toid msgId hf'
  cases Option.some.inj (hf.toid.symm.trans hf'.toid)
  exact Or.inl (by decide +kernel)

/-- User 2 logs in and out again; the worker has applied the login only. -/
def loggedOutAhead : List ServerStep :=
  Sample.registered ++ [Sample.step .loginMsg 2 (Sample.login 2), .work MySQL.up,
    Sample.step .logoutMsg 2 (Sample.logout 2)]

theorem loggedOutAhead_runs :
    ((Server.machine JsonText.codec (· = Server.start 0 Database.empty)).exec
      (Server.start 0 Database.empty) loggedOutAhead).isSome := by decide +kernel

/-- A chat to user 2 is then published, and its sender gets no ACK. -/
theorem oneChat_unacknowledged :
    ¬ ∀ s, (Server.machine JsonText.codec (· = Server.start 0 Database.empty)).Reachable s →
      ∀ (conn : Conn) (js : Json) (t : EnMsgType) (msgId : Int32), js.canon → js.utf8 →
        js.intAt (lit "msgid") = some t.val → WellFormed js msgId t →
        acks JsonText.codec conn msgId s
          (getHandler JsonText.codec (fun _ => MySQL.up) t.val conn js s).state = 1 := by
  intro h
  have hreach := Machine.reachable_exec rfl loggedOutAhead_runs
  have hone := h _ hreach 1 (Sample.chat 1 2) .oneChatMsg 7 (by decide +kernel) (by decide +kernel)
    (by decide +kernel) ⟨2, by decide +kernel, by decide +kernel⟩
  revert hone
  decide +kernel

end MyChat
