import MyChat.Replies

/-! What each handler does, in one equation a case: later proofs cite these and
never open a handler. The serialiser is taken to meet its contract. -/

namespace MyChat
open Json

variable {codec : JsonCodec}

theorem handlerOf_some {msgid : Int32} {t : EnMsgType} (h : handlerOf msgid = some t) :
    msgid = t.val := by
  have hval := List.find?_some h
  exact (of_decide_eq_true hval).symm

/-! ## Login -/

/-- The fields a login request is read for. -/
structure LoginFields (js : Json) (id : Int32) (pwd : Bytes) (msgId : Int32) : Prop where
  id : js.intAt (lit "id") = some id
  password : js.stringAt (lit "password") = some pwd
  msgId : js.intAt (lit "msgId") = some msgId

/-- The row read for `id` carries this password and is not online. -/
def LoginAccepts (my : Nat → MySQL) (id : Int32) (pwd : Bytes) (db : Database) : Prop :=
  (UserModel.query (my 0) id db).id = id ∧ (UserModel.query (my 0) id db).password = pwd ∧
    (UserModel.query (my 0) id db).state ≠ online

instance (my : Nat → MySQL) (id : Int32) (pwd : Bytes) (db : Database) :
    Decidable (LoginAccepts my id pwd db) := by unfold LoginAccepts; infer_instance

theorem loginAccepts_row {id : Int32} {row : UserRow} {db : Database}
    (h : db.user.get id = some row) (hstate : row.state ≠ online) :
    LoginAccepts (fun _ => MySQL.up) id row.password db := by
  unfold LoginAccepts
  rw [UserModel.query_row h]
  exact ⟨rfl, rfl, hstate⟩

/-- The server after an accepted login, before it replies. -/
def loginSession (my : Nat → MySQL) (conn : Conn) (id : Int32) (s : Server) : Server :=
  (takeOffline my id (openSession conn id (UserModel.query (my 0) id s.db) s)).2

theorem loginView_takeOffline (my : Nat → MySQL) (id : Int32) (s : Server) :
    loginView codec my id (takeOffline my id s).2.db = loginView codec my id s.db := by
  unfold takeOffline
  simp only
  split
  · rfl
  · unfold OfflineMsgModel.remove
    split <;> rfl

theorem openSession_db (conn : Conn) (id : Int32) (user : User) (s : Server) :
    (openSession conn id user s).db = s.db := by
  unfold openSession Server.mapInsert
  split <;> rfl

theorem loginAccepted_eq (my : Nat → MySQL) (conn : Conn) (id : Int32) (msgId : Int32)
    (s : Server) :
    loginAccepted codec my conn id (UserModel.query (my 0) id s.db) msgId s =
      match loginReply codec my id (UserModel.query (my 0) id s.db) msgId s.db with
      | none => { state := loginSession my conn id s, thrown := some .invalidUtf8 }
      | some j => respond codec conn j msgId (loginSession my conn id s) := by
  have hv := @loginView_takeOffline codec my id
    (openSession conn id (UserModel.query (my 0) id s.db) s)
  have hvec : (takeOffline my id (openSession conn id (UserModel.query (my 0) id s.db) s)).1 =
      OfflineMsgModel.query (my 1) id s.db := by
    rw [takeOffline, openSession_db]
  rw [openSession_db] at hv
  simp only [loginAccepted, hv, hvec, loginReply, loginSession]
  cases loginView codec my id s.db <;> rfl

/-- The outcomes of a login: ill-typed fields, a refusal, or a session whose
reply goes out exactly when its texts are UTF-8. -/
theorem login_cases (hc : codec.Lawful) (my : Nat → MySQL) (conn : Conn) (js : Json) (s : Server) :
    ((∀ id pwd msgId, ¬ LoginFields js id pwd msgId) ∧
      login codec my conn js s = { state := s, thrown := some .typeError }) ∨
    ∃ id pwd msgId, LoginFields js id pwd msgId ∧
      ((¬ LoginAccepts my id pwd s.db ∧ ∃ errno errmsg, errno ≠ 0 ∧
          login codec my conn js s =
            { state := s.answer codec conn (loginRefusal errno errmsg msgId) msgId }) ∨
        (LoginAccepts my id pwd s.db ∧ ∃ j,
          loginReply codec my id (UserModel.query (my 0) id s.db) msgId s.db = some j ∧ j.utf8 ∧
          login codec my conn js s =
            { state := (loginSession my conn id s).answer codec conn j msgId }) ∨
        (LoginAccepts my id pwd s.db ∧
          ¬ (loginTexts my id (UserModel.query (my 0) id s.db) s.db).all validUtf8 ∧
          login codec my conn js s =
            { state := loginSession my conn id s, thrown := some .invalidUtf8 })) := by
  unfold login
  split
  · next id pwd msgId hid hpwd hmsg =>
    refine Or.inr ⟨id, pwd, msgId, ⟨hid, hpwd, hmsg⟩, ?_⟩
    simp only
    split
    · next hrow =>
      split
      · next hon =>
        exact Or.inl ⟨fun h => h.2.2 hon, 2, _, by decide,
          respond_ack hc (utf8_loginRefusal _ _ _) conn msgId s⟩
      · next hoff =>
        have hacc : LoginAccepts my id pwd s.db := ⟨hrow.1, hrow.2, hoff⟩
        rw [loginAccepted_eq]
        have htexts := loginReply_utf8 hc my id (UserModel.query (my 0) id s.db) msgId s.db
        cases hj : loginReply codec my id (UserModel.query (my 0) id s.db) msgId s.db with
        | none =>
          refine Or.inr (Or.inr ⟨hacc, ?_, rfl⟩)
          rw [← htexts, hj]
          rintro ⟨j, h, -⟩
          cases h
        | some j =>
          cases hu : j.utf8 with
          | true => exact Or.inr (Or.inl ⟨hacc, j, rfl, hu, respond_ack hc hu conn msgId _⟩)
          | false =>
            refine Or.inr (Or.inr ⟨hacc, ?_, ?_⟩)
            · rw [← htexts, hj]
              rintro ⟨j', h, h'⟩
              cases h
              rw [hu] at h'
              cases h'
            · simp only [respond_invalid hc hu]
              rfl
    · next hrow =>
      exact Or.inl ⟨fun h => hrow ⟨h.1, h.2.1⟩, 1, _, by decide,
        respond_ack hc (utf8_loginRefusal _ _ _) conn msgId s⟩
  · next hnone =>
    refine Or.inl ⟨fun id pwd msgId h => hnone id pwd msgId h.id h.password h.msgId, rfl⟩

/-! ## Registration and logout -/

structure RegFields (js : Json) (name pwd : Bytes) (msgId : Int32) : Prop where
  name : js.stringAt (lit "name") = some name
  password : js.stringAt (lit "password") = some pwd
  msgId : js.intAt (lit "msgId") = some msgId

/-- The statement of a registration fits its buffer. -/
def RegFits (name pwd : Bytes) : Prop :=
  fits (UserModel.insertSql { name := name, password := pwd })

instance (name pwd : Bytes) : Decidable (RegFits name pwd) := by unfold RegFits; infer_instance

/-- The row a registration inserts, and its key, if the database takes it. -/
def regInsert (my : MySQL) (name pwd : Bytes) (db : Database) :
    Option (AutoTable UserRow × Int32) :=
  if my.connect ∧ my.exec 0 then db.user.insert ⟨cStr name, cStr pwd, offline⟩ else none

/-- A failed insert leaves the database, and the request is what gets dumped. -/
theorem reg_fits (codec : JsonCodec) (my : Nat → MySQL) (conn : Conn) {js : Json} {name pwd : Bytes}
    {msgId : Int32} (hf : RegFields js name pwd msgId) (hfit : RegFits name pwd) (s : Server) :
    reg codec my conn js s =
      match regInsert (my 0) name pwd s.db with
      | some (t, id) =>
          (respond codec conn (regResponse id msgId) msgId
            { s with db := { s.db with user := t } }).andThen (ackToClient codec conn msgId)
      | none => (respond codec conn js msgId s).andThen (ackToClient codec conn msgId) := by
  have hfit' : fits (UserModel.insertSql { name := name, password := pwd }) = true := hfit
  simp only [reg, hf.name, hf.password, hf.msgId, UserModel.insert, hfit', ↓reduceIte, cStr_offline,
    regInsert]
  by_cases hok : (my 0).connect = true ∧ (my 0).exec 0 = true
  · simp only [if_pos hok]
    cases s.db.user.insert ⟨cStr name, cStr pwd, offline⟩ <;> rfl
  · simp only [if_neg hok]

theorem reg_cases (hc : codec.Lawful) (my : Nat → MySQL) (conn : Conn) (js : Json) (s : Server) :
    ((∀ name pwd msgId, ¬ RegFields js name pwd msgId) ∧
      reg codec my conn js s = { state := s, thrown := some .typeError }) ∨
    ∃ name pwd msgId, RegFields js name pwd msgId ∧
      ((¬ RegFits name pwd ∧ reg codec my conn js s = { state := s, thrown := some .overflow }) ∨
        (RegFits name pwd ∧ ∃ t id, s.db.user.insert ⟨cStr name, cStr pwd, offline⟩ = some (t, id) ∧
          reg codec my conn js s =
            { state := ({ s with db := { s.db with user := t } }).answer codec conn
                (regResponse id msgId) msgId }) ∨
        (RegFits name pwd ∧ js.utf8 ∧
          reg codec my conn js s = { state := s.answer codec conn js msgId }) ∨
        (RegFits name pwd ∧ js.utf8 = false ∧
          reg codec my conn js s = { state := s, thrown := some .invalidUtf8 })) := by
  by_cases hfields : ∃ name pwd msgId, RegFields js name pwd msgId
  case neg =>
    refine Or.inl ⟨fun name pwd msgId hf => hfields ⟨name, pwd, msgId, hf⟩, ?_⟩
    unfold reg
    split
    · next hn hp hm => exact absurd ⟨_, _, _, hn, hp, hm⟩ hfields
    · rfl
  obtain ⟨name, pwd, msgId, hf⟩ := hfields
  refine Or.inr ⟨name, pwd, msgId, hf, ?_⟩
  by_cases hfit : RegFits name pwd
  · have hreg := reg_fits codec my conn hf hfit s
    cases hins : regInsert (my 0) name pwd s.db with
    | some r =>
      have htable : s.db.user.insert ⟨cStr name, cStr pwd, offline⟩ = some r := by
        unfold regInsert at hins
        split at hins
        · exact hins
        · cases hins
      rw [hins] at hreg
      refine Or.inr (Or.inl ⟨hfit, r.1, r.2, htable, hreg.trans ?_⟩)
      exact respond_ack hc (utf8_regResponse _ _) conn msgId _
    | none =>
      rw [hins] at hreg
      cases hu : js.utf8 with
      | true =>
        exact Or.inr (Or.inr (Or.inl ⟨hfit, rfl, hreg.trans (respond_ack hc hu conn msgId s)⟩))
      | false =>
        refine Or.inr (Or.inr (Or.inr ⟨hfit, rfl, hreg.trans ?_⟩))
        simp only [respond_invalid hc hu]
        rfl
  · have hfit' : ¬ fits (UserModel.insertSql { name := name, password := pwd }) = true := hfit
    refine Or.inl ⟨hfit, ?_⟩
    simp only [reg, hf.name, hf.password, hf.msgId, UserModel.insert, if_neg hfit']

structure LogoutFields (js : Json) (userid msgId : Int32) : Prop where
  id : js.intAt (lit "id") = some userid
  msgId : js.intAt (lit "msgId") = some msgId

/-- Map, subscription, online key and the queued row update of a logout. -/
def endSession (userid : Int32) (s : Server) : Server :=
  ((s.mapErase userid).redisOffline userid).push (updateStateTask userid offline)

theorem logout_cases (hc : codec.Lawful) (conn : Conn) (js : Json) (s : Server) :
    ((∀ userid msgId, ¬ LogoutFields js userid msgId) ∧
      logout codec conn js s = { state := s, thrown := some .typeError }) ∨
    ∃ userid msgId, LogoutFields js userid msgId ∧
      logout codec conn js s =
        { state := (endSession userid s).send conn (ackFrame codec msgId) } := by
  unfold logout
  split
  · next userid msgId hi hm =>
    exact Or.inr ⟨userid, msgId, ⟨hi, hm⟩, ackToClient_eq hc conn msgId _⟩
  · next hnone => exact Or.inl ⟨fun u m h => hnone u m h.id h.msgId, rfl⟩

/-! ## Chats -/

structure ChatFields (js : Json) (toid msgId : Int32) : Prop where
  toid : js.intAt (lit "toid") = some toid
  msgId : js.intAt (lit "msgId") = some msgId

theorem ChatFields.unique {js : Json} {toid toid' msgId msgId' : Int32}
    (h : ChatFields js toid msgId) (h' : ChatFields js toid' msgId') :
    toid = toid' ∧ msgId = msgId' :=
  ⟨Option.some.inj (h.toid.symm.trans h'.toid), Option.some.inj (h.msgId.symm.trans h'.msgId)⟩

/-- Redis or the row says that a user not connected here is online. -/
def SeemsOnline (my : MySQL) (id : Int32) (s : Server) : Prop :=
  s.redis.get id ∨ (UserModel.query my id s.db).state = online

instance (my : MySQL) (id : Int32) (s : Server) : Decidable (SeemsOnline my id s) := by
  unfold SeemsOnline; infer_instance

/-- The three routes of a chat: the connection held here, the channel without
an ACK, or the offline table. -/
theorem oneChat_cases (hc : codec.Lawful) (my : Nat → MySQL) (conn : Conn) (js : Json)
    (s : Server) :
    ((∀ toid msgId, ¬ ChatFields js toid msgId) ∧
      oneChat codec my conn js s = { state := s, thrown := some .typeError }) ∨
    ∃ toid msgId, ChatFields js toid msgId ∧
      ((js.utf8 = false ∧
        oneChat codec my conn js s = { state := s, thrown := some .invalidUtf8 }) ∨
        (js.utf8 ∧ ∃ c, s.userConnMap.lookup toid = some c ∧ oneChat codec my conn js s =
          { state := (s.sendTo toid c (replyFrame codec js msgId)).send conn
              (ackFrame codec msgId) }) ∨
        (js.utf8 ∧ s.userConnMap.lookup toid = none ∧ SeemsOnline (my 0) toid s ∧
          oneChat codec my conn js s = { state := s.publish toid (codec.text js) }) ∨
        (js.utf8 ∧ s.userConnMap.lookup toid = none ∧ ¬ SeemsOnline (my 0) toid s ∧
          oneChat codec my conn js s =
            { state := (s.push (offlineMsgTask (UserModel.query (my 0) toid s.db).id
                (codec.text js))).send conn (ackFrame codec msgId) })) := by
  unfold oneChat
  split
  · next toid msgId ht hm =>
    refine Or.inr ⟨toid, msgId, ⟨ht, hm⟩, ?_⟩
    cases hu : js.utf8 with
    | false => rw [hc.dump_none.mpr hu]; exact Or.inl ⟨rfl, rfl⟩
    | true =>
      rw [hc.dump_eq hu]
      simp only
      cases hl : s.userConnMap.lookup toid with
      | some c => exact Or.inr (Or.inl ⟨trivial, c, rfl, ackToClient_eq hc conn msgId _⟩)
      | none =>
        simp only
        split
        · next hk => exact Or.inr (Or.inr (Or.inl ⟨trivial, trivial, Or.inl hk, rfl⟩))
        · next hk =>
          split
          · next hrow => exact Or.inr (Or.inr (Or.inl ⟨trivial, trivial, Or.inr hrow, rfl⟩))
          · next hrow =>
            exact Or.inr (Or.inr (Or.inr
              ⟨trivial, trivial, fun h => h.elim hk hrow, ackToClient_eq hc conn msgId _⟩))
  · next hnone => exact Or.inl ⟨fun t m h => hnone t m h.toid h.msgId, rfl⟩

structure GroupFields (js : Json) (userid groupid msgId : Int32) : Prop where
  id : js.intAt (lit "id") = some userid
  groupid : js.intAt (lit "groupid") = some groupid
  msgId : js.intAt (lit "msgId") = some msgId

theorem GroupFields.unique {js : Json} {userid userid' groupid groupid' msgId msgId' : Int32}
    (h : GroupFields js userid groupid msgId) (h' : GroupFields js userid' groupid' msgId') :
    userid = userid' ∧ groupid = groupid' ∧ msgId = msgId' :=
  ⟨Option.some.inj (h.id.symm.trans h'.id), Option.some.inj (h.groupid.symm.trans h'.groupid),
    Option.some.inj (h.msgId.symm.trans h'.msgId)⟩

theorem groupChat_cases (hc : codec.Lawful) (my : Nat → MySQL) (conn : Conn) (js : Json)
    (s : Server) :
    ((∀ userid groupid msgId, ¬ GroupFields js userid groupid msgId) ∧
      groupChat codec my conn js s = { state := s, thrown := some .typeError }) ∨
    ∃ userid groupid msgId, GroupFields js userid groupid msgId ∧
      ((js.utf8 = false ∧
          groupChat codec my conn js s = { state := s, thrown := some .invalidUtf8 }) ∨
        (js.utf8 ∧ groupChat codec my conn js s =
          { state := (routeMembers my (codec.text js) msgId 1
              (GroupModel.queryGroupUsers (my 0) userid groupid s.db) s).send conn
                (ackFrame codec msgId) })) := by
  unfold groupChat
  split
  · next userid groupid msgId hi hg hm =>
    refine Or.inr ⟨userid, groupid, msgId, ⟨hi, hg, hm⟩, ?_⟩
    cases hu : js.utf8 with
    | false => rw [hc.dump_none.mpr hu]; exact Or.inl ⟨rfl, rfl⟩
    | true =>
      rw [hc.dump_eq hu]
      exact Or.inr ⟨rfl, ackToClient_eq hc conn msgId _⟩
  · next hnone => exact Or.inl ⟨fun u g m h => hnone u g m h.id h.groupid h.msgId, rfl⟩

/-! ### Routes -/

/-- The chat with text `t` goes to `r` by one of the three routes. -/
inductive Routed (s : Server) (r : Int32) (t : Bytes) (msgId : Int32) : Server → Prop
  | sent (c : Conn) (h : s.userConnMap.lookup r = some c) :
      Routed s r t msgId (s.sendTo r c (groupChatFrame t msgId))
  | published (h : s.userConnMap.lookup r = none) : Routed s r t msgId (s.publish r t)
  | queued (h : s.userConnMap.lookup r = none) : Routed s r t msgId (s.push (offlineMsgTask r t))

theorem routeMember_routed (my : MySQL) (t : Bytes) (msgId r : Int32) (s : Server) :
    Routed s r t msgId (routeMember my t msgId r s) := by
  unfold routeMember
  split
  · next c h => exact .sent c h
  · next h =>
    split
    · exact .published h
    · exact .queued h

theorem mem_inbox_publish {id : Int32} {msg : Bytes} {s : Server} {d : Delivery}
    (h : d ∈ (s.publish id msg).redis.inbox) : d ∈ s.redis.inbox ∨ d.message = cStr msg := by
  rcases List.mem_append.mp h with h | h
  · exact Or.inl h
  · obtain ⟨sub, -, rfl⟩ := List.mem_map.mp h
    exact Or.inr rfl

namespace Routed

variable {s s' : Server} {r : Int32} {t : Bytes} {msgId : Int32}

theorem keeps (h : Routed s r t msgId s') :
    s'.userConnMap = s.userConnMap ∧ s'.db = s.db ∧ s'.redis.subs = s.redis.subs := by
  cases h <;> exact ⟨rfl, rfl, rfl⟩

theorem inbox (h : Routed s r t msgId s') {d : Delivery} (hd : d ∈ s'.redis.inbox) :
    d ∈ s.redis.inbox ∨ d.message = cStr t := by
  cases h with
  | published _ => exact mem_inbox_publish hd
  | _ => exact Or.inl hd

theorem frames (h : Routed s r t msgId s') :
    ∃ new, s'.sent = s.sent ++ new ∧ ∀ e ∈ new, e.frame = groupChatFrame t msgId := by
  cases h with
  | sent c _ => exact ⟨[⟨c, some r, groupChatFrame t msgId⟩], rfl, by simp⟩
  | published _ => exact ⟨[], by simp [Server.publish], by simp⟩
  | queued _ => exact ⟨[], by simp [Server.push], by simp⟩

end Routed

section
variable (my : Nat → MySQL) (t : Bytes) (msgId : Int32) (n : Nat) (ids : List Int32) (s : Server)

theorem routeMembers_keeps :
    (routeMembers my t msgId n ids s).userConnMap = s.userConnMap ∧
      (routeMembers my t msgId n ids s).db = s.db := by
  induction ids generalizing n s with
  | nil => exact ⟨rfl, rfl⟩
  | cons r ids ih =>
    have hone := (routeMember_routed (my n) t msgId r s).keeps
    obtain ⟨hmap, hdb⟩ := ih (n + 1) (routeMember (my n) t msgId r s)
    exact ⟨hmap.trans hone.1, hdb.trans hone.2.1⟩

theorem routeMembers_inbox {d : Delivery} (hd : d ∈ (routeMembers my t msgId n ids s).redis.inbox) :
    d ∈ s.redis.inbox ∨ d.message = cStr t := by
  induction ids generalizing n s with
  | nil => exact Or.inl hd
  | cons r ids ih =>
    rcases ih (n + 1) (routeMember (my n) t msgId r s) hd with hd | hd
    · exact (routeMember_routed (my n) t msgId r s).inbox hd
    · exact Or.inr hd

theorem routeMembers_sent :
    ∃ new, (routeMembers my t msgId n ids s).sent = s.sent ++ new ∧
      ∀ e ∈ new, e.frame = groupChatFrame t msgId := by
  induction ids generalizing n s with
  | nil => exact ⟨[], by simp [routeMembers], by simp⟩
  | cons r ids ih =>
    obtain ⟨n₁, h₁, hf₁⟩ := (routeMember_routed (my n) t msgId r s).frames
    obtain ⟨n₂, h₂, hf₂⟩ := ih (n + 1) (routeMember (my n) t msgId r s)
    refine ⟨n₁ ++ n₂, by rw [routeMembers, h₂, h₁, List.append_assoc], fun e he => ?_⟩
    exact (List.mem_append.mp he).elim (hf₁ e) (hf₂ e)

end

/-! ## Friends and groups -/

structure FriendFields (js : Json) (userid friendid msgId : Int32) : Prop where
  id : js.intAt (lit "id") = some userid
  friendid : js.intAt (lit "friendid") = some friendid
  msgId : js.intAt (lit "msgId") = some msgId

theorem addFriend_cases (hc : codec.Lawful) (conn : Conn) (js : Json) (s : Server) :
    ((∀ userid friendid msgId, ¬ FriendFields js userid friendid msgId) ∧
      addFriend codec conn js s = { state := s, thrown := some .typeError }) ∨
    ∃ userid friendid msgId, FriendFields js userid friendid msgId ∧
      addFriend codec conn js s =
        { state := (s.push { type := .addFriend, userid := userid, friendid := friendid }).send conn
            (ackFrame codec msgId) } := by
  unfold addFriend
  split
  · next u f m hu hf hm => exact Or.inr ⟨u, f, m, ⟨hu, hf, hm⟩, ackToClient_eq hc conn m _⟩
  · next hnone => exact Or.inl ⟨fun u f m h => hnone u f m h.id h.friendid h.msgId, rfl⟩

structure CreateFields (js : Json) (userid : Int32) (name desc : Bytes) (msgId : Int32) : Prop where
  id : js.intAt (lit "id") = some userid
  name : js.stringAt (lit "groupname") = some name
  desc : js.stringAt (lit "groupdesc") = some desc
  msgId : js.intAt (lit "msgId") = some msgId

theorem createGroup_cases (hc : codec.Lawful) (my : Nat → MySQL) (conn : Conn) (js : Json)
    (s : Server) :
    ((∀ userid name desc msgId, ¬ CreateFields js userid name desc msgId) ∧
      createGroup codec my conn js s = { state := s, thrown := some .typeError }) ∨
    ∃ userid name desc msgId, CreateFields js userid name desc msgId ∧
      createGroup codec my conn js s =
        { state := ({ s.push { type := .createGroup, name := name, desc := desc } with
              db := (GroupModel.addGroup (my 0) userid (-1) (lit "creator") s.db).1 }).answer codec
            conn (groupResponse .createGroupMsgAck "群组创建成功" msgId) msgId } := by
  unfold createGroup
  split
  · next u n d m hu hn hd hm =>
    exact Or.inr ⟨u, n, d, m, ⟨hu, hn, hd, hm⟩, respond_ack hc (utf8_groupResponse _ _ _) conn m _⟩
  · next hnone => exact Or.inl ⟨fun u n d m h => hnone u n d m h.id h.name h.desc h.msgId, rfl⟩

theorem addGroup_cases (hc : codec.Lawful) (conn : Conn) (js : Json) (s : Server) :
    ((∀ userid groupid msgId, ¬ GroupFields js userid groupid msgId) ∧
      addGroup codec conn js s = { state := s, thrown := some .typeError }) ∨
    ∃ userid groupid msgId, GroupFields js userid groupid msgId ∧
      addGroup codec conn js s =
        { state := (s.push { type := .addGroupUser, userid := userid, groupid := groupid }).answer
            codec conn (groupResponse .addGroupMsgAck "入群成功" msgId) msgId } := by
  unfold addGroup
  split
  · next u g m hu hg hm =>
    exact Or.inr ⟨u, g, m, ⟨hu, hg, hm⟩, respond_ack hc (utf8_groupResponse _ _ _) conn m _⟩
  · next hnone => exact Or.inl ⟨fun u g m h => hnone u g m h.id h.groupid h.msgId, rfl⟩

/-! ## Every handler -/

/-- What a call comes to, by the type whose handler it reaches. -/
inductive Handled (codec : JsonCodec) (my : Nat → MySQL) (conn : Conn) (js : Json) (s : Server) :
    Option EnMsgType → Ret Server → Prop
  | unhandled : Handled codec my conn js s none { state := s }
  | illTyped {t : EnMsgType} :
      Handled codec my conn js s (some t) { state := s, thrown := some .typeError }
  | unsendable {t : EnMsgType} (ht : t ≠ .loginMsg) (hu : js.utf8 = false) :
      Handled codec my conn js s (some t) { state := s, thrown := some .invalidUtf8 }
  | loginRefused {id : Int32} {pwd : Bytes} {msgId errno : Int32} {errmsg : String}
      (hf : LoginFields js id pwd msgId) (hacc : ¬ LoginAccepts my id pwd s.db) :
      Handled codec my conn js s (some .loginMsg)
        { state := s.answer codec conn (loginRefusal errno errmsg msgId) msgId }
  | loginAnswered {id : Int32} {pwd : Bytes} {msgId : Int32} {j : Json}
      (hf : LoginFields js id pwd msgId)
      (hacc : LoginAccepts my id pwd s.db)
      (hreply : loginReply codec my id (UserModel.query (my 0) id s.db) msgId s.db = some j)
      (hj : j.utf8) :
      Handled codec my conn js s (some .loginMsg)
        { state := (loginSession my conn id s).answer codec conn j msgId }
  | loginUnsendable {id : Int32} {pwd : Bytes} {msgId : Int32} (hf : LoginFields js id pwd msgId)
      (hacc : LoginAccepts my id pwd s.db) :
      Handled codec my conn js s (some .loginMsg)
        { state := loginSession my conn id s, thrown := some .invalidUtf8 }
  | regOverflow {name pwd : Bytes} {msgId : Int32} (hf : RegFields js name pwd msgId)
      (hfits : ¬ RegFits name pwd) :
      Handled codec my conn js s (some .regMsg) { state := s, thrown := some .overflow }
  | registered {name pwd : Bytes} {msgId id : Int32} {users : AutoTable UserRow}
      (hf : RegFields js name pwd msgId) (hfits : RegFits name pwd)
      (hi : s.db.user.insert ⟨cStr name, cStr pwd, offline⟩ = some (users, id)) :
      Handled codec my conn js s (some .regMsg)
        { state := ({ s with db := { s.db with user := users } }).answer codec conn
            (regResponse id msgId) msgId }
  | regFailed {name pwd : Bytes} {msgId : Int32} (hf : RegFields js name pwd msgId)
      (hfits : RegFits name pwd) :
      Handled codec my conn js s (some .regMsg) { state := s.answer codec conn js msgId }
  | loggedOut {userid msgId : Int32} (hf : LogoutFields js userid msgId) :
      Handled codec my conn js s (some .logoutMsg)
        { state := (endSession userid s).send conn (ackFrame codec msgId) }
  | chatSent {toid msgId : Int32} {c : Conn} (hf : ChatFields js toid msgId)
      (hl : s.userConnMap.lookup toid = some c) :
      Handled codec my conn js s (some .oneChatMsg)
        { state := (s.sendTo toid c (replyFrame codec js msgId)).send conn (ackFrame codec msgId) }
  | chatPublished {toid msgId : Int32} (hf : ChatFields js toid msgId)
      (hl : s.userConnMap.lookup toid = none) (hon : SeemsOnline (my 0) toid s) :
      Handled codec my conn js s (some .oneChatMsg) { state := s.publish toid (codec.text js) }
  | chatStored {toid msgId : Int32} (hf : ChatFields js toid msgId)
      (hl : s.userConnMap.lookup toid = none) (hoff : ¬ SeemsOnline (my 0) toid s) :
      Handled codec my conn js s (some .oneChatMsg)
        { state := (s.push
            (offlineMsgTask (UserModel.query (my 0) toid s.db).id (codec.text js))).send conn
            (ackFrame codec msgId) }
  | groupRouted {userid groupid msgId : Int32} (hf : GroupFields js userid groupid msgId) :
      Handled codec my conn js s (some .groupChatMsg)
        { state := (routeMembers my (codec.text js) msgId 1
            (GroupModel.queryGroupUsers (my 0) userid groupid s.db) s).send conn
            (ackFrame codec msgId) }
  | friendQueued {userid friendid msgId : Int32} (hf : FriendFields js userid friendid msgId) :
      Handled codec my conn js s (some .addFriendMsg)
        { state := (s.push { type := .addFriend, userid := userid, friendid := friendid }).send conn
            (ackFrame codec msgId) }
  | groupQueued {userid : Int32} {name desc : Bytes} {msgId : Int32}
      (hf : CreateFields js userid name desc msgId) :
      Handled codec my conn js s (some .createGroupMsg)
        { state := ({ s.push { type := .createGroup, name := name, desc := desc } with
              db := (GroupModel.addGroup (my 0) userid (-1) (lit "creator") s.db).1 }).answer codec
            conn (groupResponse .createGroupMsgAck "群组创建成功" msgId) msgId }
  | memberQueued {userid groupid msgId : Int32} (hf : GroupFields js userid groupid msgId) :
      Handled codec my conn js s (some .addGroupMsg)
        { state := (s.push { type := .addGroupUser, userid := userid, groupid := groupid }).answer
            codec conn (groupResponse .addGroupMsgAck "入群成功" msgId) msgId }

theorem login_handled (hc : codec.Lawful) (my : Nat → MySQL) (conn : Conn) (js : Json)
    (s : Server) :
    Handled codec my conn js s (some .loginMsg) (login codec my conn js s) := by
  rcases login_cases hc my conn js s with ⟨-, h⟩ | ⟨id, pwd, msgId, hf, h⟩
  · rw [h]; exact .illTyped
  · rcases h with ⟨hacc, errno, errmsg, -, h⟩ | ⟨hacc, j, hreply, hj, h⟩ | ⟨hacc, -, h⟩
    · rw [h]; exact .loginRefused hf hacc
    · rw [h]; exact .loginAnswered hf hacc hreply hj
    · rw [h]; exact .loginUnsendable hf hacc

theorem reg_handled (hc : codec.Lawful) (my : Nat → MySQL) (conn : Conn) (js : Json) (s : Server) :
    Handled codec my conn js s (some .regMsg) (reg codec my conn js s) := by
  rcases reg_cases hc my conn js s with ⟨-, h⟩ | ⟨name, pwd, msgId, hf, h⟩
  · rw [h]; exact .illTyped
  · rcases h with ⟨hfits, h⟩ | ⟨hfits, t, id, hi, h⟩ | ⟨hfits, -, h⟩ | ⟨-, hu, h⟩
    · rw [h]; exact .regOverflow hf hfits
    · rw [h]; exact .registered hf hfits hi
    · rw [h]; exact .regFailed hf hfits
    · rw [h]; exact .unsendable (by decide) hu

theorem oneChat_handled (hc : codec.Lawful) (my : Nat → MySQL) (conn : Conn) (js : Json)
    (s : Server) :
    Handled codec my conn js s (some .oneChatMsg) (oneChat codec my conn js s) := by
  rcases oneChat_cases hc my conn js s with ⟨-, h⟩ | ⟨toid, msgId, hf, h⟩
  · rw [h]; exact .illTyped
  · rcases h with ⟨hu, h⟩ | ⟨-, c, hl, h⟩ | ⟨-, hl, hon, h⟩ | ⟨-, hl, hoff, h⟩
    · rw [h]; exact .unsendable (by decide) hu
    · rw [h]; exact .chatSent hf hl
    · rw [h]; exact .chatPublished hf hl hon
    · rw [h]; exact .chatStored hf hl hoff

theorem groupChat_handled (hc : codec.Lawful) (my : Nat → MySQL) (conn : Conn) (js : Json)
    (s : Server) :
    Handled codec my conn js s (some .groupChatMsg) (groupChat codec my conn js s) := by
  rcases groupChat_cases hc my conn js s with ⟨-, h⟩ | ⟨u, g, msgId, hf, h⟩
  · rw [h]; exact .illTyped
  · rcases h with ⟨hu, h⟩ | ⟨-, h⟩
    · rw [h]; exact .unsendable (by decide) hu
    · rw [h]; exact .groupRouted hf

theorem handlerOf_mem {msgid : Int32} {t : EnMsgType} (h : handlerOf msgid = some t) :
    t ∈ [EnMsgType.loginMsg, .regMsg, .oneChatMsg, .addFriendMsg, .createGroupMsg, .addGroupMsg,
      .groupChatMsg, .logoutMsg] := List.mem_of_find?_eq_some h

theorem getHandler_handled (hc : codec.Lawful) (my : Nat → MySQL) (msgid : Int32) (conn : Conn)
    (js : Json) (s : Server) :
    Handled codec my conn js s (handlerOf msgid) (getHandler codec my msgid conn js s) := by
  unfold getHandler
  cases ht : handlerOf msgid with
  | none => exact .unhandled
  | some t =>
    have hmem := handlerOf_mem ht
    cases t with
    | loginMsg => exact login_handled hc my conn js s
    | regMsg => exact reg_handled hc my conn js s
    | oneChatMsg => exact oneChat_handled hc my conn js s
    | groupChatMsg => exact groupChat_handled hc my conn js s
    | logoutMsg =>
      rcases logout_cases hc conn js s with ⟨-, h⟩ | ⟨u, m, hf, h⟩
      · simp only [h]; exact .illTyped
      · simp only [h]; exact .loggedOut hf
    | addFriendMsg =>
      rcases addFriend_cases hc conn js s with ⟨-, h⟩ | ⟨u, f, m, hf, h⟩
      · simp only [h]; exact .illTyped
      · simp only [h]; exact .friendQueued hf
    | createGroupMsg =>
      rcases createGroup_cases hc my conn js s with ⟨-, h⟩ | ⟨u, n, d, m, hf, h⟩
      · simp only [h]; exact .illTyped
      · simp only [h]; exact .groupQueued hf
    | addGroupMsg =>
      rcases addGroup_cases hc conn js s with ⟨-, h⟩ | ⟨u, g, m, hf, h⟩
      · simp only [h]; exact .illTyped
      · simp only [h]; exact .memberQueued hf
    | _ => simp at hmem

end MyChat
