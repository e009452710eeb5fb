import MyChat.Fleet
import MyChat.GroupCreation
import MyChat.Routes

/-! What the database keeps over the life of all server processes. Rows of
users, groups, members and friends are never taken away, and of a user row only
the state changes; a password that opened an account opens it for good. -/

namespace MyChat
open Json

variable {evp : Evp} {codec : JsonCodec}

/-- Every row is there still, users under their name and password. -/
structure RecordsKept (db db' : Database) : Prop where
  users : ∀ id row, db.user.get id = some row →
    ∃ state, db'.user.get id = some { row with state := state }
  groups : GroupsGrow db db'
  friends : db.friend <+: db'.friend

namespace RecordsKept

variable {db db' db'' : Database}

theorem of_users (hu : ∀ id row, db.user.get id = some row →
    ∃ state, db'.user.get id = some { row with state := state }) (hg : db'.allgroup = db.allgroup)
    (hm : db'.groupuser = db.groupuser) (hf : db'.friend = db.friend) :
    RecordsKept db db' :=
  ⟨hu, .same hm hg, by rw [hf]⟩

theorem of_groups (hu : db'.user = db.user) (hg : GroupsGrow db db') (hf : db'.friend = db.friend) :
    RecordsKept db db' :=
  ⟨fun id row h => ⟨row.state, by rw [hu]; exact h⟩, hg, by rw [hf]⟩

theorem refl (db : Database) : RecordsKept db db := of_groups rfl (.refl db) rfl

theorem trans (h : RecordsKept db db') (h' : RecordsKept db' db'') : RecordsKept db db'' := by
  refine ⟨fun id row hrow => ?_, h.groups.trans h'.groups, h.friends.trans h'.friends⟩
  obtain ⟨st, hst⟩ := h.users id row hrow
  obtain ⟨st', hst'⟩ := h'.users id _ hst
  exact ⟨st', hst'⟩

theorem insertUser {row : UserRow} {users : AutoTable UserRow} {k : Int32}
    (h : db.user.insert row = some (users, k)) : RecordsKept db { db with user := users } := by
  obtain ⟨hnew, hget⟩ := AutoTable.get_insert h
  refine of_users (fun id row' hrow => ⟨row'.state, ?_⟩) rfl rfl rfl
  have hne : id ≠ k := by
    rintro rfl
    cases hnew.symm.trans hrow
  rw [hget, if_neg hne]
  exact hrow

theorem updateState (my : MySQL) (user : User) (db : Database) :
    RecordsKept db (UserModel.updateState my user db).1 := by
  unfold UserModel.updateState
  split
  · refine of_users (fun id row hrow => ?_) rfl rfl rfl
    rw [AutoTable.get_modify]
    split
    · exact ⟨cStr user.state, by rw [hrow]; rfl⟩
    · exact ⟨row.state, hrow⟩
  · exact refl db

theorem resetState (my : MySQL) (db : Database) : RecordsKept db (UserModel.resetState my db) := by
  unfold UserModel.resetState
  split
  · refine of_users (fun id row hrow => ?_) rfl rfl rfl
    rw [AutoTable.get_map, hrow, Option.map_some]
    split
    · exact ⟨offline, rfl⟩
    · exact ⟨row.state, rfl⟩
  · exact refl db

theorem insertFriends (my : MySQL) (userid friendid : Int32) (db : Database) :
    RecordsKept db (FriendModel.insert my userid friendid db) := by
  have hkeep : ∀ rows, RecordsKept db { db with friend := db.friend ++ rows } := fun rows =>
    ⟨fun id row h => ⟨row.state, h⟩, .same rfl rfl, List.prefix_append _ _⟩
  unfold FriendModel.insert
  split
  · simp only
    split <;> split
    · rw [List.append_assoc]
      exact hkeep _
    · exact hkeep _
    · exact hkeep _
    · exact refl db
  · exact refl db

theorem insertOffline {my : MySQL} {userid : Int32} {msg : Bytes}
    (h : OfflineMsgModel.insert my userid msg db = .ok db') : RecordsKept db db' := by
  unfold OfflineMsgModel.insert at h
  split at h
  · split at h <;> (cases h; exact of_groups rfl (.same rfl rfl) rfl)
  · cases h

theorem dbWork {my : MySQL} {t : DbTaskArgs} (h : MyChat.dbWork my t db = .ok db') :
    RecordsKept db db' := by
  have hgroups := dbWork_groups h
  unfold MyChat.dbWork at h
  cases htype : t.type with
  | addFriend =>
    simp only [htype, Except.ok.injEq] at h
    exact h ▸ insertFriends my t.userid t.friendid db
  | addGroupUser =>
    refine of_groups ?_ hgroups ?_
    all_goals
      simp only [htype, Except.ok.injEq] at h
      rw [← h]
      unfold GroupModel.addGroup
      split <;> rfl
  | createGroup =>
    refine of_groups ?_ hgroups ?_
    all_goals
      simp only [htype, GroupModel.createGroup] at h
      split at h
      · split at h
        · split at h <;> (cases h; rfl)
        · cases h; rfl
      · cases h
  | insertOfflineMsg =>
    simp only [htype] at h
    exact insertOffline h
  | updateUserState =>
    simp only [htype, Except.ok.injEq] at h
    exact h ▸ updateState my { id := t.userid, state := t.state } db

theorem work {my : MySQL} {s s' : Server} (h : s.work my = some s') : RecordsKept s.db s'.db := by
  unfold Server.work at h
  split at h
  · cases h
  · split at h
    · next hdb => cases h; exact dbWork hdb
    · cases h; exact refl _

theorem getHandler (hc : codec.Lawful) (my : Nat → MySQL) (msgid : Int32) (conn : Conn) (js : Json)
    (s : Server) : RecordsKept s.db (MyChat.getHandler codec my msgid conn js s).state.db := by
  have hgroups := getHandler_groups hc my msgid conn js s
  have hwrites := getHandler_writes hc my msgid conn js s
  generalize (MyChat.getHandler codec my msgid conn js s).state.db = db' at hgroups hwrites ⊢
  cases hwrites with
  | nothing => exact refl _
  | user hi => exact insertUser hi
  | member row => exact of_groups rfl hgroups rfl
  | read id _ => exact of_groups rfl hgroups rfl

theorem received (hc : codec.Lawful) {my : Nat → MySQL} {conn : Conn} {buf : Bytes} {s s' : Server}
    (h : Received evp codec my conn buf s s') : RecordsKept s.db s'.db := by
  induction h with
  | nothing => exact refl _
  | handled _ _ => exact getHandler hc my _ conn _ s
  | shut _ ih => exact ih

theorem redis (my : MySQL) (userid : Int32) (msg : Bytes) (s : Server) :
    RecordsKept s.db (handleRedisSubscribeMessage codec my userid msg s).state.db := by
  unfold handleRedisSubscribeMessage
  split
  · simp only
    split
    · exact refl _
    · split
      · split <;> exact refl _
      · exact refl _
  · split
    · exact refl _
    · next db hdb => exact insertOffline hdb

theorem served (hc : codec.Lawful) {n : Nat} {l : FleetStep n} {s s' : Server}
    (h : Served evp codec l s s') : RecordsKept s.db s'.db := by
  cases h with
  | received h => exact received hc h
  | closed _ => rw [onConnection_db]; exact refl _
  | observed hd _ => exact redis _ _ _ { s with redis := s.redis.take _ }
  | worked h => exact work h

end RecordsKept

variable {n : Nat}

/-- Every step keeps the records, a restart included. -/
theorem records_step (hc : codec.Lawful) (db : Database) :
    Fleet.Kept (n := n) evp codec fun _ c => RecordsKept db c.db where
  more _ _ _ h := h
  serve _ _ _ _ _ h _ _ hs := h.trans (RecordsKept.served hc hs)
  halt _ _ _ h := h
  boot _ _ _ h _ := h
  expire _ _ _ h := h
  interrupt _ c _ my h _ _ := h.trans (RecordsKept.resetState my c.db)

theorem RecordsKept.exec (hc : codec.Lawful) {c c' : Fleet n} {ls : List (FleetStep n)}
    (h : (Fleet.machine evp codec n).exec c ls = some c') : RecordsKept c.db c'.db :=
  (records_step hc c.db).run (RecordsKept.refl c.db) h

/-! ## Accounts -/

/-- The frame tells a client that it has registered account `k`. -/
def Announces (codec : JsonCodec) (k : Int32) (frame : Frame) : Prop :=
  ∃ j, codec.parse frame.text = some j ∧ j.intAt (lit "msgid") = some EnMsgType.regMsgAck.val ∧
    j.intAt (lit "id") = some k

theorem intAt_regResponse_id (id msgId : Int32) :
    (regResponse id msgId).intAt (lit "id") = some id := by
  simp [regResponse, msgidField, intAt_lit]

theorem not_announces {j : Json} {t : Int32} (ht : j.intAt (lit "msgid") = some t)
    (hne : t ≠ EnMsgType.regMsgAck.val) {frame : Frame} (hp : codec.parse frame.text = some j)
    (k : Int32) :
    ¬ Announces codec k frame := by
  rintro ⟨j', hp', ht', -⟩
  cases Option.some.inj (hp.symm.trans hp')
  exact hne (Option.some.inj (ht.symm.trans ht'))

/-- A registration that is announced has written the row. A failed one sends
the request back, which announces nothing. -/
theorem reg_announces (hc : codec.Lawful) {my : Nat → MySQL} {conn : Conn} {js : Json}
    (hj : js.canon) (hid : js.intAt (lit "msgid") = some EnMsgType.regMsg.val) {s : Server}
    {e : Sent}
    (he : e ∈ (getHandler codec my EnMsgType.regMsg.val conn js s).state.sent.drop s.sent.length)
    {k : Int32} (hk : Announces codec k e.frame) : ∃ name pwd msgId, RegFields js name pwd msgId ∧
      (getHandler codec my EnMsgType.regMsg.val conn js s).state.db.user.get k =
        some ⟨cStr name, cStr pwd, offline⟩ := by
  have hreg : getHandler codec my EnMsgType.regMsg.val conn js s = reg codec my conn js s := rfl
  have hack : ∀ m, ¬ Announces codec k (ackFrame codec m) := fun m =>
    not_announces (intAt_ackResponse m).1 (by decide) (parse_ackFrame hc m) k
  rw [hreg] at he ⊢
  rcases reg_cases hc my conn js s with ⟨-, h⟩ | ⟨name, pwd, msgId, hf, h⟩
  · rw [h, List.drop_length] at he
    cases he
  rcases h with ⟨-, h⟩ | ⟨-, t, id, hi, h⟩ | ⟨-, hu, h⟩ | ⟨-, -, h⟩
  · rw [h, List.drop_length] at he
    cases he
  · refine ⟨name, pwd, msgId, hf, ?_⟩
    rw [h, sent_answer conn _ _ rfl, List.drop_left] at he
    rcases List.mem_cons.mp he with rfl | he
    · obtain ⟨j, hp, -, hjk⟩ := hk
      cases Option.some.inj (hp.symm.trans
        (parse_replyFrame hc (canon_regResponse id msgId) (utf8_regResponse id msgId) msgId))
      cases Option.some.inj (hjk.symm.trans (intAt_regResponse_id id msgId))
      rw [h]
      show t.get k = _
      rw [(AutoTable.get_insert hi).2, if_pos rfl]
    · rw [List.mem_singleton.mp he] at hk
      exact absurd hk (hack msgId)
  · rw [h, sent_answer conn _ _ rfl, List.drop_left] at he
    rcases List.mem_cons.mp he with rfl | he
    · exact absurd hk (not_announces hid (by decide) (parse_replyFrame hc hj hu msgId) k)
    · rw [List.mem_singleton.mp he] at hk
      exact absurd hk (hack msgId)
  · rw [h, List.drop_length] at he
    cases he

theorem received_announces (hc : codec.Lawful) {my : Nat → MySQL} {conn : Conn} {buf : Bytes}
    {js : Json} (hreq : requestOf evp codec buf = some js)
    (hid : js.intAt (lit "msgid") = some EnMsgType.regMsg.val) {s s' : Server}
    (h : Received evp codec my conn buf s s') {e : Sent} (he : e ∈ s'.sent.drop s.sent.length)
    {k : Int32} (hk : Announces codec k e.frame) : ∃ name pwd msgId, RegFields js name pwd msgId ∧
      s'.db.user.get k = some ⟨cStr name, cStr pwd, offline⟩ := by
  induction h with
  | nothing =>
    rw [List.drop_length] at he
    cases he
  | handled hreq' hid' =>
    cases Option.some.inj (hreq.symm.trans hreq')
    cases Option.some.inj (hid.symm.trans hid')
    exact reg_announces hc (requestOf_canon hc hreq).1 hid he hk
  | shut _ ih => exact ih he

/-! ## Main results -/

/-- In every run of any number of server processes, whatever they receive and
however they end, no record goes. -/
theorem records_kept (hc : codec.Lawful) {c c' : Fleet n} {ls : List (FleetStep n)}
    (h : (Fleet.machine evp codec n).exec c ls = some c') : RecordsKept c.db c'.db :=
  RecordsKept.exec hc h

namespace Sample

/-- A request on the wire without encryption. -/
def plain (js : Json) : Bytes :=
  MsgHeader.bytes { msgLength := 16, msgType := 0, msgId := 7, isEncrypted := 0 } ++
  JsonText.codec.text js

theorem requestOf_plain {js : Json} (hj : js.canon) (hu : js.utf8) :
    requestOf evp JsonText.codec (plain js) = some js := by
  have hlen : ¬ (plain js).length < MsgHeader.size := by
    rw [plain, List.length_append, MsgHeader.bytes_length]
    omega
  have hdrop : (plain js).drop MsgHeader.size = JsonText.codec.text js := MsgHeader.drop_bytes _ _
  rw [requestOf, if_neg hlen, hdrop, plain, MsgHeader.cast_bytes, if_neg (by decide)]
  exact parse_text JsonText.codec_lawful hj hu

/-- The only process. -/
def only : Fin 1 := Fin.last 0

def receives (conn : Conn) (js : Json) : FleetStep 1 :=
  .receive only (fun _ => MySQL.up) conn (plain js)

def host : Machine (Fleet 1) (FleetStep 1) := Fleet.machine sampleEvp JsonText.codec 1

def off : Fleet 1 := Fleet.start 1 Database.empty

theorem host_runs : (host.exec off [.boot only]).isSome := by decide +kernel

def hosted : Fleet 1 := Option.get _ host_runs

theorem reg_runs : (host.step hosted (receives 1 (reg "a"))).isSome := by decide +kernel

/-- User 1 has registered. -/
def oneUser : Fleet 1 := Option.get _ reg_runs

theorem restart_runs : (host.exec oneUser [.kill only, .boot only]).isSome := by decide +kernel

end Sample

theorem records_kept_restart :
    RecordsKept Sample.oneUser.db (Option.get _ Sample.restart_runs).db :=
  records_kept JsonText.codec_lawful (Option.some_get Sample.restart_runs).symm

/-- Once a server has told a client that account `k` is registered, the name and
the password of its request belong to `k` in every later state: this password,
up to its first NUL, opens the account whenever no session is on record, no
other one ever does, and `k` is given to nobody else. -/
theorem registered_for_good (hc : codec.Lawful) {c₁ c₂ c₃ : Fleet n} {i : Fin n} {my : Nat → MySQL}
    {conn : Conn} {buf : Bytes} {js : Json} (hreq : requestOf evp codec buf = some js)
    (hid : js.intAt (lit "msgid") = some EnMsgType.regMsg.val)
    (hstep : (Fleet.machine evp codec n).step c₁ (.receive i my conn buf) = some c₂) {e : Sent}
    (he : e ∈ (c₂.hosts i).sent.drop (c₁.hosts i).sent.length) {k : Int32}
    (hk : Announces codec k e.frame) {ls : List (FleetStep n)}
    (hrun : (Fleet.machine evp codec n).exec c₂ ls = some c₃) :
    ∃ name pwd msgId state, RegFields js name pwd msgId ∧
      c₃.db.user.get k = some ⟨cStr name, cStr pwd, state⟩ ∧
      (∀ p, LoginAccepts (fun _ => MySQL.up) k p c₃.db ↔ p = cStr pwd ∧ state ≠ online) ∧
      ∀ row users k', c₃.db.user.insert row = some (users, k') → k' ≠ k := by
  obtain ⟨s', hreceived, hdb, hsent⟩ := Fleet.step_receive hstep
  rw [hsent] at he
  obtain ⟨name, pwd, msgId, hf, hrow⟩ := received_announces hc hreq hid hreceived he hk
  rw [← hdb] at hrow
  obtain ⟨state, hrow'⟩ := (RecordsKept.exec hc hrun).users k _ hrow
  refine ⟨name, pwd, msgId, state, hf, hrow', fun p => ?_, fun row users k' hi hk' => ?_⟩
  · unfold LoginAccepts
    rw [UserModel.query_row hrow']
    simp only [true_and, eq_comm]
  · rw [← hk', (AutoTable.get_insert hi).1] at hrow'
    cases hrow'

theorem registered_for_good_restart :
    ∃ name pwd msgId state, RegFields (Sample.reg "a") name pwd msgId ∧
    (Option.get _ Sample.restart_runs).db.user.get 1 = some ⟨cStr name, cStr pwd, state⟩ ∧
    (∀ p, LoginAccepts (fun _ => MySQL.up) 1 p (Option.get _ Sample.restart_runs).db ↔
      p = cStr pwd ∧ state ≠ online) ∧
    ∀ row users k', (Option.get _ Sample.restart_runs).db.user.insert row = some (users, k') →
      k' ≠ 1 := by
  have hreq : requestOf sampleEvp JsonText.codec (Sample.plain (Sample.reg "a")) =
      some (Sample.reg "a") :=
    Sample.requestOf_plain (by decide +kernel) (by decide +kernel)
  have hmem : (⟨1, none, replyFrame JsonText.codec (regResponse 1 7) 7⟩ : Sent) ∈
      (Sample.oneUser.hosts 0).sent.drop (Sample.hosted.hosts 0).sent.length := by decide +kernel
  have hann : Announces JsonText.codec 1 (replyFrame JsonText.codec (regResponse 1 7) 7) :=
    ⟨_, parse_replyFrame JsonText.codec_lawful (canon_regResponse 1 7) (utf8_regResponse 1 7) 7,
      intAt_msgid _ _, intAt_regResponse_id 1 7⟩
  exact registered_for_good JsonText.codec_lawful hreq (by decide +kernel)
    (Option.some_get Sample.reg_runs).symm hmem hann (Option.some_get Sample.restart_runs).symm

end MyChat
