import MyChat.Routes

/-! The statements that the model classes format, with the length of each. A
text of a request is formatted whatever its length; numbers always fit. -/

namespace MyChat
open Json

/-! ## The other statements -/

namespace UserModel

def querySql (id : Int32) : Bytes := lit "select * from user where id = " ++ dumpInt id.toInt

def updateStateSql (user : User) : Bytes :=
  lit "update user set state = '" ++ cStr user.state ++ lit "' where id = " ++ dumpInt user.id.toInt

end UserModel

namespace FriendModel

/-- Formatted twice, the second time the other way round. -/
def insertSql (userid friendid : Int32) : Bytes :=
  lit "insert into friend values(" ++ dumpInt userid.toInt ++ lit ", " ++
  dumpInt friendid.toInt ++ lit ")"

def querySql (userid : Int32) : Bytes :=
  lit "select a.id, a.name, a.state from user a " ++
    lit "inner join friend b on b.friendid = a.id where b.userid = " ++ dumpInt userid.toInt

end FriendModel

namespace GroupModel

def addGroupSql (userid groupid : Int32) (role : Bytes) : Bytes :=
  lit "insert into groupuser values(" ++ dumpInt groupid.toInt ++ lit ", " ++
    dumpInt userid.toInt ++ lit ", '" ++ cStr role ++ lit "')"

def queryGroupsSql (userid : Int32) : Bytes :=
  lit "select a.id, a.groupname, a.groupdesc from allgroup a " ++
    lit "inner join groupuser b on a.id = b.groupid where b.userid = " ++ dumpInt userid.toInt

/-- The source breaks the literal inside, and the indentation is part of it. -/
def membersSql (groupid : Int32) : Bytes :=
  lit "select a.id, a.name, a.state, b.grouprole from user a " ++
    lit "            inner join groupuser b on b.userid = a.id where b.groupid = " ++
    dumpInt groupid.toInt

def queryGroupUsersSql (userid groupid : Int32) : Bytes :=
  lit "select userid from groupuser where groupid = " ++ dumpInt groupid.toInt ++
    lit " and userid != " ++ dumpInt userid.toInt

end GroupModel

namespace OfflineMsgModel

def removeSql (userid : Int32) : Bytes :=
  lit "delete from offlinemessage where userid = " ++ dumpInt userid.toInt

def querySql (userid : Int32) : Bytes :=
  lit "select message from offlinemessage where userid = " ++ dumpInt userid.toInt

end OfflineMsgModel

/-! ## What each step formats -/

section
variable (codec : JsonCodec) (my : Nat → MySQL)

/-- The statements of a login that is accepted. Behind a friend whose texts
cannot be serialised there are none. -/
def acceptedSql (id : Int32) (s : Server) : List Bytes :=
  OfflineMsgModel.querySql id ::
    ((if OfflineMsgModel.query (my 1) id s.db = [] then [] else [OfflineMsgModel.removeSql id]) ++
      FriendModel.querySql id ::
        match dumpAll (friendEntry codec) (FriendModel.query (my 3) id s.db) with
        | none => []
        | some _ => GroupModel.queryGroupsSql id ::
            (GroupModel.queryGroups (my 4) id s.db).map fun g => GroupModel.membersSql g.id)

def loginSql (js : Json) (s : Server) : List Bytes :=
  match js.intAt (lit "id"), js.stringAt (lit "password"), js.intAt (lit "msgId") with
  | some id, some pwd, some _ =>
      UserModel.querySql id :: if LoginAccepts my id pwd s.db then acceptedSql codec my id s else []
  | _, _, _ => []

def regSql (js : Json) : List Bytes :=
  match js.stringAt (lit "name"), js.stringAt (lit "password"), js.intAt (lit "msgId") with
  | some name, some pwd, some _ => [UserModel.insertSql { name := name, password := pwd }]
  | _, _, _ => []

def oneChatSql (js : Json) (s : Server) : List Bytes :=
  match js.intAt (lit "toid"), js.intAt (lit "msgId"), codec.dump js with
  | some toid, some _, some _ =>
      if toid ∈ s.userConnMap ∨ s.redis.get toid then [] else [UserModel.querySql toid]
  | _, _, _ => []

/-- Members that are not connected here are looked up. -/
def groupChatSql (js : Json) (s : Server) : List Bytes :=
  match js.intAt (lit "id"), js.intAt (lit "groupid"), js.intAt (lit "msgId"), codec.dump js with
  | some userid, some groupid, some _, some _ =>
      GroupModel.queryGroupUsersSql userid groupid ::
        ((GroupModel.queryGroupUsers (my 0) userid groupid s.db).filter (· ∉ s.userConnMap)).map
          UserModel.querySql
  | _, _, _, _ => []

def createGroupSqlOf (js : Json) : List Bytes :=
  match js.intAt (lit "id"), js.stringAt (lit "groupname"), js.stringAt (lit "groupdesc"),
      js.intAt (lit "msgId") with
  | some userid, some _, some _, some _ => [GroupModel.addGroupSql userid (-1) (lit "creator")]
  | _, _, _, _ => []

/-- The other three handlers format none: they leave it to the worker. -/
def requestSql (msgid : Int32) (js : Json) (s : Server) : List Bytes :=
  match handlerOf msgid with
  | some .loginMsg => loginSql codec my js s
  | some .regMsg => regSql js
  | some .oneChatMsg => oneChatSql codec js s
  | some .groupChatMsg => groupChatSql codec my js s
  | some .createGroupMsg => createGroupSqlOf js
  | _ => []

end

def taskSql (opt : DbTaskArgs) : List Bytes :=
  match opt.type with
  | .addFriend =>
      [FriendModel.insertSql opt.userid opt.friendid, FriendModel.insertSql opt.friendid opt.userid]
  | .addGroupUser => [GroupModel.addGroupSql opt.userid opt.groupid (lit "normal")]
  | .createGroup => [GroupModel.createGroupSql { name := opt.name, desc := opt.desc }]
  | .insertOfflineMsg => [OfflineMsgModel.insertSql opt.toid opt.msg]
  | .updateUserState => [UserModel.updateStateSql { id := opt.userid, state := opt.state }]

/-- Every text that a step formats into a buffer. -/
def stepSql (codec : JsonCodec) (s : Server) : ServerStep → List Bytes
  | .request my msgid _ js => requestSql codec my msgid js s
  | .close _ _ => []
  | .deliver _ userid msg =>
      if userid ∈ s.userConnMap then [] else [OfflineMsgModel.insertSql userid msg]
  | .expire _ => []
  | .work _ =>
      match s.dbQueue with
      | [] => []
      | opt :: _ => taskSql opt

/-! ## Lengths -/

theorem dumpInt_length (n : Int32) : (dumpInt n.toInt).length ≤ 11 := by
  have h1 := n.le_toInt
  have h2 := n.toInt_lt
  cases hn : n.toInt with
  | ofNat k =>
    have hk : k < 10 ^ 10 := by
      rw [hn, Int.ofNat_eq_natCast] at h2
      omega
    exact (dumpNat_length_le (by decide) hk).trans (by decide)
  | negSucc k =>
    have hk : k + 1 < 10 ^ 10 := by
      rw [hn, Int.negSucc_eq] at h1
      omega
    rw [dumpInt, List.length_cons]
    exact Nat.succ_le_succ (dumpNat_length_le (by decide) hk)

/-- A fixed text with a number behind it. -/
theorem fits_number {head : Bytes} (h : head.length ≤ 1012) (n : Int32) :
    fits (head ++ dumpInt n.toInt) := by
  have hlen := dumpInt_length n
  rw [fits, List.length_append, decide_eq_true_eq]
  omega

theorem fits_queryGroupUsers (userid groupid : Int32) :
    fits (GroupModel.queryGroupUsersSql userid groupid) := by
  refine fits_number ?_ userid
  have hlen := dumpInt_length groupid
  have h1 : (lit "select userid from groupuser where groupid = ").length ≤ 45 := by decide
  have h2 : (lit " and userid != ").length ≤ 15 := by decide
  rw [List.length_append, List.length_append]
  omega

theorem fits_friendInsert (userid friendid : Int32) :
    fits (FriendModel.insertSql userid friendid) := by
  have hlen := dumpInt_length userid
  have hlen' := dumpInt_length friendid
  have h1 : (lit "insert into friend values(").length ≤ 26 := by decide
  have h2 : (lit ", ").length = 2 := by decide
  have h3 : (lit ")").length = 1 := by decide
  rw [fits, FriendModel.insertSql, decide_eq_true_eq]
  simp only [List.length_append]
  omega

theorem fits_addGroup (userid groupid : Int32) {role : Bytes} (h : (cStr role).length ≤ 10) :
    fits (GroupModel.addGroupSql userid groupid role) := by
  have hlen := dumpInt_length userid
  have hlen' := dumpInt_length groupid
  have h1 : (lit "insert into groupuser values(").length ≤ 29 := by decide
  have h2 : (lit ", ").length = 2 := by decide
  have h3 : (lit ", '").length = 3 := by decide
  have h4 : (lit "')").length = 2 := by decide
  rw [fits, GroupModel.addGroupSql, decide_eq_true_eq]
  simp only [List.length_append]
  omega

/-- A row update is to one of the two states. -/
def DbTaskArgs.KnownState (t : DbTaskArgs) : Prop :=
  t.type = .updateUserState → t.state = online ∨ t.state = offline

theorem fits_updateState (userid : Int32) {state : Bytes} (h : state = online ∨ state = offline) :
    fits (UserModel.updateStateSql { id := userid, state := state }) := by
  refine fits_number ?_ userid
  rcases h with rfl | rfl
  · show (lit "update user set state = '" ++ cStr online ++ lit "' where id = ").length ≤ 1012
    decide
  · show (lit "update user set state = '" ++ cStr offline ++ lit "' where id = ").length ≤ 1012
    decide

/-- The name and the password of a registration share 958 bytes. -/
theorem fits_userInsert (name pwd : Bytes) :
    fits (UserModel.insertSql { name := name, password := pwd }) ↔
      (cStr name).length + (cStr pwd).length ≤ 958 := by
  have h1 : (lit "insert into user(name, password, state) values('").length = 48 := by decide
  have h2 : (lit "', '").length = 4 := by decide
  have h3 : (lit "')").length = 2 := by decide
  have h4 : (cStr offline).length = 7 := by decide
  rw [fits, UserModel.insertSql, decide_eq_true_eq]
  simp only [List.length_append, h1, h2, h3, h4]
  omega

/-- Name and description of a group share 966. -/
theorem fits_createGroup (name desc : Bytes) :
    fits (GroupModel.createGroupSql { name := name, desc := desc }) ↔
      (cStr name).length + (cStr desc).length ≤ 966 := by
  have h1 : (lit "insert into allgroup(groupname, groupdesc) values('").length = 51 := by decide
  have h2 : (lit "', '").length = 4 := by decide
  have h3 : (lit "')").length = 2 := by decide
  rw [fits, GroupModel.createGroupSql, decide_eq_true_eq]
  simp only [List.length_append, h1, h2, h3]
  omega

/-- The recipient's number and the text of a chat share 984. -/
theorem fits_offlineInsert (userid : Int32) (msg : Bytes) :
    fits (OfflineMsgModel.insertSql userid msg) ↔
      (dumpInt userid.toInt).length + (cStr msg).length ≤ 984 := by
  have h1 : (lit "insert into offlinemessage values(").length = 34 := by decide
  have h2 : (lit ", '").length = 3 := by decide
  have h3 : (lit "')").length = 2 := by decide
  rw [fits, OfflineMsgModel.insertSql, decide_eq_true_eq]
  simp only [List.length_append, h1, h2, h3]
  omega

/-! ## Requests and tasks -/

def AllFit (sqls : List Bytes) : Prop := ∀ sql ∈ sqls, fits sql

theorem allFit_nil : AllFit [] := by simp [AllFit]

theorem allFit_cons {sql : Bytes} {sqls : List Bytes} :
    AllFit (sql :: sqls) ↔ fits sql ∧ AllFit sqls := by simp [AllFit]

theorem allFit_append {sqls sqls' : List Bytes} :
    AllFit (sqls ++ sqls') ↔ AllFit sqls ∧ AllFit sqls' := by
  simp only [AllFit, List.mem_append, or_imp, forall_and]

theorem allFit_map {α : Type} {f : α → Bytes} (h : ∀ a, fits (f a)) (l : List α) :
    AllFit (l.map f) := by
  intro sql hsql
  obtain ⟨a, -, rfl⟩ := List.mem_map.mp hsql
  exact h a

theorem fits_userQuery (id : Int32) : fits (UserModel.querySql id) := fits_number (by decide) id

theorem fits_members (g : Group) : fits (GroupModel.membersSql g.id) :=
  fits_number (by decide +kernel) g.id

variable {codec : JsonCodec}

theorem allFit_login (my : Nat → MySQL) (js : Json) (s : Server) :
    AllFit (loginSql codec my js s) := by
  have haccepted : ∀ id, AllFit (acceptedSql codec my id s) := by
    intro id
    rw [acceptedSql, allFit_cons, allFit_append, allFit_cons]
    refine ⟨fits_number (by decide) id, ?_, fits_number (by decide +kernel) id, ?_⟩
    · split
      · exact allFit_nil
      · exact allFit_cons.mpr ⟨fits_number (by decide) id, allFit_nil⟩
    · split
      · exact allFit_nil
      · exact allFit_cons.mpr ⟨fits_number (by decide +kernel) id, allFit_map fits_members _⟩
  unfold loginSql
  split
  · next id pwd msgId _ _ _ =>
    rw [allFit_cons]
    refine ⟨fits_userQuery id, ?_⟩
    split
    · exact haccepted id
    · exact allFit_nil
  · exact allFit_nil

theorem allFit_oneChat (js : Json) (s : Server) : AllFit (oneChatSql codec js s) := by
  unfold oneChatSql
  split
  · split
    · exact allFit_nil
    · exact allFit_cons.mpr ⟨fits_userQuery _, allFit_nil⟩
  · exact allFit_nil

theorem allFit_groupChat (my : Nat → MySQL) (js : Json) (s : Server) :
    AllFit (groupChatSql codec my js s) := by
  unfold groupChatSql
  split
  · exact allFit_cons.mpr ⟨fits_queryGroupUsers _ _, allFit_map fits_userQuery _⟩
  · exact allFit_nil

theorem allFit_createGroup (js : Json) : AllFit (createGroupSqlOf js) := by
  unfold createGroupSqlOf
  split
  · exact allFit_cons.mpr ⟨fits_addGroup _ _ (by decide), allFit_nil⟩
  · exact allFit_nil

/-- A registration in which name and password leave each other room. -/
def RegBounded (js : Json) : Prop :=
  ∀ name pwd msgId, RegFields js name pwd msgId → (cStr name).length + (cStr pwd).length ≤ 958

theorem allFit_reg (js : Json) : AllFit (regSql js) ↔ RegBounded js := by
  unfold regSql
  split
  · next name pwd msgId hn hp hm =>
    have hone : AllFit [UserModel.insertSql { name := name, password := pwd }] ↔
        (cStr name).length + (cStr pwd).length ≤ 958 := by
      rw [← fits_userInsert]
      simp [AllFit]
    rw [hone]
    refine ⟨fun h name' pwd' msgId' hf => ?_, fun h => h name pwd msgId ⟨hn, hp, hm⟩⟩
    cases Option.some.inj (hn.symm.trans hf.name)
    cases Option.some.inj (hp.symm.trans hf.password)
    exact h
  · next hnone =>
    exact iff_of_true allFit_nil fun n p m hf => absurd hf.msgId fun hm =>
      hnone n p m hf.name hf.password hm

/-- The text of the task leaves room for the rest of its statement. -/
def TaskBounded (opt : DbTaskArgs) : Prop :=
  (opt.type = .createGroup → (cStr opt.name).length + (cStr opt.desc).length ≤ 966) ∧
    (opt.type = .insertOfflineMsg →
      (dumpInt opt.toid.toInt).length + (cStr opt.msg).length ≤ 984)

theorem allFit_task {opt : DbTaskArgs} (h : opt.KnownState) :
    AllFit (taskSql opt) ↔ TaskBounded opt := by
  unfold taskSql TaskBounded
  cases ht : opt.type with
  | addFriend =>
    refine iff_of_true ?_ (by simp)
    exact allFit_cons.mpr
      ⟨fits_friendInsert _ _, allFit_cons.mpr ⟨fits_friendInsert _ _, allFit_nil⟩⟩
  | addGroupUser =>
    exact iff_of_true (allFit_cons.mpr ⟨fits_addGroup _ _ (by decide), allFit_nil⟩) (by simp)
  | createGroup =>
    rw [allFit_cons, fits_createGroup]
    simp [allFit_nil]
  | insertOfflineMsg =>
    rw [allFit_cons, fits_offlineInsert]
    simp [allFit_nil]
  | updateUserState =>
    exact iff_of_true (allFit_cons.mpr ⟨fits_updateState _ (h ht), allFit_nil⟩) (by simp)

/-- The texts that a step formats into a buffer leave room for the rest. -/
def Bounded (s : Server) : ServerStep → Prop
  | .request _ msgid _ js => handlerOf msgid = some .regMsg → RegBounded js
  | .deliver _ userid msg => userid ∉ s.userConnMap →
      (dumpInt userid.toInt).length + (cStr msg).length ≤ 984
  | .work _ => ∀ opt rest, s.dbQueue = opt :: rest → TaskBounded opt
  | .close _ _ => True
  | .expire _ => True

theorem allFit_request (my : Nat → MySQL) (msgid : Int32) (js : Json) (s : Server) :
    AllFit (requestSql codec my msgid js s) ↔ (handlerOf msgid = some .regMsg → RegBounded js) := by
  unfold requestSql
  cases handlerOf msgid with
  | none => exact iff_of_true allFit_nil (by simp)
  | some t =>
    cases t with
    | loginMsg => exact iff_of_true (allFit_login my js s) (by simp)
    | regMsg => simpa using allFit_reg js
    | oneChatMsg => exact iff_of_true (allFit_oneChat js s) (by simp)
    | groupChatMsg => exact iff_of_true (allFit_groupChat my js s) (by simp)
    | createGroupMsg => exact iff_of_true (allFit_createGroup js) (by simp)
    | _ => exact iff_of_true allFit_nil (by simp)

theorem allFit_step {s : Server} (hq : ∀ t ∈ s.dbQueue, t.KnownState) (l : ServerStep) :
    AllFit (stepSql codec s l) ↔ Bounded s l := by
  cases l with
  | request my msgid conn js => exact allFit_request my msgid js s
  | close order conn => exact iff_of_true allFit_nil trivial
  | deliver my userid msg =>
    simp only [stepSql, Bounded]
    split
    · next hm => exact iff_of_true allFit_nil fun h => absurd hm h
    · next hm =>
      rw [allFit_cons, fits_offlineInsert]
      simp [allFit_nil, hm]
  | expire id => exact iff_of_true allFit_nil trivial
  | work my =>
    simp only [stepSql, Bounded]
    cases hd : s.dbQueue with
    | nil => exact iff_of_true allFit_nil (by simp)
    | cons opt rest =>
      simp only
      rw [allFit_task (hq opt (by simp [hd]))]
      refine ⟨fun h opt' rest' he => ?_, fun h => h opt rest rfl⟩
      cases he
      exact h

/-- A handler overruns a buffer exactly when one of its texts does. -/
theorem overflow_iff (hc : codec.Lawful) (my : Nat → MySQL) (msgid : Int32) (conn : Conn)
    (js : Json) (s : Server) : (getHandler codec my msgid conn js s).thrown = some .overflow ↔
      ¬ AllFit (requestSql codec my msgid js s) := by
  rw [allFit_request]
  by_cases hm : handlerOf msgid = some .regMsg
  · have hreg : getHandler codec my msgid conn js s = reg codec my conn js s := by
      simp only [getHandler, hm]
    rw [hreg]
    simp only [hm, forall_const]
    rcases reg_cases hc my conn js s with ⟨hbad, h⟩ | ⟨name, pwd, msgId, hf, h⟩
    · rw [h]
      refine iff_of_false (by simp) ?_
      exact not_not_intro fun n p m hf => absurd hf (hbad n p m)
    have hfit : RegFits name pwd ↔ RegBounded js := by
      refine (fits_userInsert name pwd).trans ⟨fun h n p m hf' => ?_, fun h => h name pwd msgId hf⟩
      obtain ⟨rfl, rfl, -⟩ := hf.unique hf'
      exact h
    rw [← hfit]
    rcases h with ⟨hfit, h⟩ | ⟨hfit, t, id, -, h⟩ | ⟨hfit, -, h⟩ | ⟨hfit, -, h⟩
    · rw [h]; exact iff_of_true rfl hfit
    · rw [h]; exact iff_of_false (by simp) (not_not_intro hfit)
    · rw [h]; exact iff_of_false (by simp) (not_not_intro hfit)
    · rw [h]; exact iff_of_false (by simp) (not_not_intro hfit)
  · refine iff_of_false (fun h => ?_) (not_not_intro fun h => absurd h hm)
    cases getHandler_endsByException hc my hm conn js s _ h

/-- The worker does exactly when the text of its task does. -/
theorem dbWork_overflow_iff (my : MySQL) {opt : DbTaskArgs} (h : opt.KnownState) (db : Database) :
    dbWork my opt db = .error .overflow ↔ ¬ AllFit (taskSql opt) := by
  rw [allFit_task h]
  unfold dbWork TaskBounded
  cases ht : opt.type with
  | createGroup =>
    simp only [forall_const, reduceCtorEq, false_implies, and_true, ← fits_createGroup]
    unfold GroupModel.createGroup
    split
    · next hfit =>
      refine iff_of_false ?_ (not_not_intro hfit)
      repeat' split
      all_goals simp [Except.map]
    · next hfit => exact iff_of_true rfl hfit
  | insertOfflineMsg =>
    simp only [forall_const, reduceCtorEq, false_implies, true_and, ← fits_offlineInsert]
    unfold OfflineMsgModel.insert
    split
    · next hfit =>
      refine iff_of_false ?_ (not_not_intro hfit)
      split <;> simp
    · next hfit => exact iff_of_true rfl hfit
  | _ => exact iff_of_false (by simp) (by simp)

/-! ## Every run -/

/-- A step only queues row updates to the two states. -/
def QueuesKnown (s s' : Server) : Prop :=
  ∃ new, s'.dbQueue = s.dbQueue ++ new ∧ ∀ t ∈ new, t.KnownState

namespace QueuesKnown

variable {s s' : Server}

theorem same (h : s'.dbQueue = s.dbQueue) : QueuesKnown s s' := ⟨[], by simpa using h, by simp⟩

theorem push {t : DbTaskArgs} (ht : t.KnownState) (h : s'.dbQueue = s.dbQueue ++ [t]) :
    QueuesKnown s s' :=
  ⟨[t], h, by simpa using ht⟩

theorem keeps (h : QueuesKnown s s') (hs : ∀ t ∈ s.dbQueue, t.KnownState) :
    ∀ t ∈ s'.dbQueue, t.KnownState := by
  obtain ⟨new, hq, hnew⟩ := h
  intro t ht
  rw [hq] at ht
  exact (List.mem_append.mp ht).elim (hs t) (hnew t)

end QueuesKnown

theorem knownState_update (userid : Int32) : (updateStateTask userid online).KnownState ∧
    (updateStateTask userid offline).KnownState := ⟨fun _ => Or.inl rfl, fun _ => Or.inr rfl⟩

theorem knownState_of_ne {t : DbTaskArgs} (h : t.type ≠ .updateUserState) : t.KnownState :=
  fun ht => absurd ht h

theorem routeMembers_queue (my : Nat → MySQL) (text : Bytes) (msgId : Int32) (n : Nat)
    (ids : List Int32) (s : Server) : QueuesKnown s (routeMembers my text msgId n ids s) := by
  induction ids generalizing n s with
  | nil => exact .same rfl
  | cons r ids ih =>
    have hone : QueuesKnown s (routeMember (my n) text msgId r s) := by
      generalize hr : routeMember (my n) text msgId r s = s'
      cases hr ▸ routeMember_routed (my n) text msgId r s with
      | sent c _ => exact .same rfl
      | published _ => exact .same rfl
      | queued _ => exact .push (knownState_of_ne (by simp [offlineMsgTask])) rfl
    obtain ⟨new, hs, hnew⟩ := hone
    obtain ⟨new', hs', hnew'⟩ := ih (n + 1) (routeMember (my n) text msgId r s)
    refine ⟨new ++ new', by rw [routeMembers, hs', hs, List.append_assoc], fun t ht => ?_⟩
    exact (List.mem_append.mp ht).elim (hnew t) (hnew' t)

theorem getHandler_queue (hc : codec.Lawful) (my : Nat → MySQL) (msgid : Int32) (conn : Conn)
    (js : Json) (s : Server) : QueuesKnown s (getHandler codec my msgid conn js s).state := by
  have h := getHandler_handled hc my msgid conn js s
  generalize getHandler codec my msgid conn js s = r at h ⊢
  generalize handlerOf msgid = t at h
  have hopen : ∀ id, QueuesKnown s (loginSession my conn id s) := fun id =>
    .push (knownState_update _).1 (loginSession_lists my conn id s).2.2.1
  cases h with
  | loginAnswered | loginUnsendable => exact hopen _
  | @loggedOut userid => exact .push (knownState_update userid).2 rfl
  | chatStored => exact .push (knownState_of_ne (by simp [offlineMsgTask])) rfl
  | groupRouted => exact routeMembers_queue my _ _ 1 _ s
  | @friendQueued u f =>
    exact .push (t := { type := .addFriend, userid := u, friendid := f })
      (knownState_of_ne (by simp)) rfl
  | @groupQueued _ n d =>
    exact .push (t := { type := .createGroup, name := n, desc := d })
      (knownState_of_ne (by simp)) rfl
  | @memberQueued u g =>
    exact .push (t := { type := .addGroupUser, userid := u, groupid := g })
      (knownState_of_ne (by simp)) rfl
  | _ => exact .same rfl

theorem clientClose_queue (order : List Int32) (conn : Conn) (s : Server) :
    QueuesKnown s (onConnection order conn s) := by
  unfold onConnection clientCloseException
  generalize order.find? (fun id => s.userConnMap.lookup id = some conn) = found
  simp only
  split
  · refine .push (t := updateStateTask (found.getD (-1)) offline) (knownState_update _).2 ?_
    cases found <;> rfl
  · refine .same ?_
    cases found <;> rfl

theorem apply_queue_known (hc : codec.Lawful) {s s' : Server} {l : ServerStep}
    (hs : s.apply codec l = some s') (h : ∀ t ∈ s.dbQueue, t.KnownState) :
    ∀ t ∈ s'.dbQueue, t.KnownState := by
  cases l with
  | request my msgid conn js =>
    cases hs
    exact (getHandler_queue hc my msgid conn js s).keeps h
  | close order conn =>
    simp only [Server.apply] at hs
    split at hs
    · cases hs; exact (clientClose_queue order conn s).keeps h
    · cases hs
  | deliver my userid msg =>
    cases hs
    have hq : (handleRedisSubscribeMessage codec my userid msg s).state.dbQueue = s.dbQueue := by
      unfold handleRedisSubscribeMessage
      repeat' split
      all_goals rfl
    rw [hq]
    exact h
  | expire id => cases hs; exact h
  | work my =>
    simp only [Server.apply, Server.work] at hs
    split at hs
    · cases hs
    · next opt rest hd =>
      have hrest : ∀ t ∈ rest, t.KnownState := fun t ht => h t (hd ▸ List.mem_cons_of_mem opt ht)
      split at hs <;> cases hs <;> exact hrest

/-- In every run of a server and for every step: all texts that it formats fit
exactly when those it takes from requests are within their bounds. -/
theorem sql_fits_iff (hc : codec.Lawful) {s : Server}
    (h : (Server.machine codec fun s => ∃ self db, s = Server.start self db).Reachable s)
    (l : ServerStep) : (∀ sql ∈ stepSql codec s l, fits sql) ↔ Bounded s l := by
  have hknown : ∀ t ∈ s.dbQueue, t.KnownState := by
    refine h.invariant ?_ fun s l s' hi _ hs => apply_queue_known hc hs hi
    rintro s ⟨self, db, rfl⟩
    simp [Server.start]
  exact allFit_step hknown l

theorem sql_fits_registration :
    (stepSql JsonText.codec (Server.start 0 Database.empty)
      (Sample.step .regMsg 1 (Sample.reg "a"))).all
      fits = true := by
  refine List.all_eq_true.mpr
    ((sql_fits_iff JsonText.codec_lawful (.start ⟨0, Database.empty, rfl⟩) _).mpr
    fun _ name pwd msgId hf => ?_)
  obtain ⟨rfl, rfl, -⟩ := hf.unique (Sample.reg_fields "a")
  decide

/-- A name of a thousand bytes. -/
def longName : Bytes := List.replicate 1000 97

def longReg : Json := Sample.fields .regMsg [("name", .str longName), ("password", .str (lit "pw"))]

theorem longReg_fields : RegFields longReg longName (lit "pw") 7 := by
  constructor <;> simp [longReg, Sample.fields, intAt_lit, stringAt_lit, Json.getString]

theorem sql_overflows : ¬ ∀ s,
    (Server.machine JsonText.codec fun s => ∃ self db, s = Server.start self db).Reachable s →
      ∀ l, ∀ sql ∈ stepSql JsonText.codec s l, fits sql := by
  intro h
  have hfit := h _ (.start ⟨0, Database.empty, rfl⟩) (Sample.step .regMsg 1 longReg)
  have hb := (allFit_step (by simp [Server.start]) _).mp hfit (by decide) _ _ _ longReg_fields
  have hnul : 0 ∉ longName := fun h0 => absurd (List.eq_of_mem_replicate h0) (by decide)
  rw [cStr_eq_self hnul, longName, List.length_replicate] at hb
  omega

end MyChat
