import MyChat.Lib.JsonText
import MyChat.Lib.SqlText
import MyChat.Handlers

/-! The three statements that carry texts of a request, read back as MySQL reads
them. No text is escaped on its way into a statement. -/

namespace MyChat
open SqlText

/-! ## Statements as rows -/

def userHead : Bytes := lit "insert into user(name, password, state) values("
def allgroupHead : Bytes := lit "insert into allgroup(groupname, groupdesc) values("
def offlinemessageHead : Bytes := lit "insert into offlinemessage values("

def registered (name pwd : Bytes) : User := { name := name, password := pwd }
def created (name desc : Bytes) : Group := { name := name, desc := desc }

def userRow (name pwd : Bytes) : List Value := [.str name, .str pwd, .str offline]
def allgroupRow (name desc : Bytes) : List Value := [.str name, .str desc]
def offlinemessageRow (userid : Int32) (msg : Bytes) : List Value := [.int userid.toInt, .str msg]

theorem lit_comma : lit "', '" = [quote, 0x2C, 0x20, quote] := by decide
theorem lit_close : lit "')" = [quote, 0x29] := by decide

theorem insertSql_user {name pwd : Bytes} (hn : 0 ∉ name) (hp : 0 ∉ pwd) :
    UserModel.insertSql (registered name pwd) =
      userHead ++ (rowText (userRow name pwd) ++ [0x29]) := by
  have hhead : lit "insert into user(name, password, state) values('" = userHead ++ [quote] :=
    lit_append "insert into user(name, password, state) values(" "'"
  rw [UserModel.insertSql, registered, hhead, cStr_eq_self hn, cStr_eq_self hp, cStr_offline,
    lit_comma, lit_close]
  simp [rowText, valueText, userRow]

theorem createGroupSql_group {name desc : Bytes} (hn : 0 ∉ name) (hd : 0 ∉ desc) :
    GroupModel.createGroupSql (created name desc) =
      allgroupHead ++ (rowText (allgroupRow name desc) ++ [0x29]) := by
  have hhead : lit "insert into allgroup(groupname, groupdesc) values('" =
      allgroupHead ++ [quote] :=
    lit_append "insert into allgroup(groupname, groupdesc) values(" "'"
  rw [GroupModel.createGroupSql, created, hhead, cStr_eq_self hn, cStr_eq_self hd, lit_comma,
    lit_close]
  simp [rowText, valueText, allgroupRow]

theorem insertSql_message (userid : Int32) {msg : Bytes} (h : 0 ∉ msg) :
    OfflineMsgModel.insertSql userid msg =
      offlinemessageHead ++ (rowText (offlinemessageRow userid msg) ++ [0x29]) := by
  have hopen : lit ", '" = [0x2C, 0x20, quote] := by decide
  rw [OfflineMsgModel.insertSql, cStr_eq_self h, hopen, lit_close]
  simp [rowText, valueText, offlinemessageHead, offlinemessageRow]

/-- The statement stays within its buffer and is exactly the INSERT of `row`. -/
def ReadsAs (head : Bytes) (row : List Value) (sql : Bytes) : Prop :=
  fits sql ∧ insertRow head row.length sql = some row

theorem readsAs_iff {head : Bytes} (row : List Value) (hne : row ≠ []) (h3 : row.length ≤ 3)
    {sql : Bytes} (hsql : sql = head ++ (rowText row ++ [0x29])) :
    ReadsAs head row sql ↔ (∀ v ∈ row, v.plain) ∧ fits sql := by
  rw [ReadsAs, and_comm]
  refine and_congr_left fun _ => ?_
  rw [hsql]
  exact insertRow_iff head hne h3

/-! ## What the statements do -/

/-- The effect on its table of a statement that is read as a row. -/
def runUser (sql : Bytes) (db : Database) : Option (Database × Int32) :=
  match insertRow userHead 3 sql with
  | some [.str name, .str password, .str state] =>
      (db.user.insert ⟨name, password, state⟩).map fun p => ({ db with user := p.1 }, p.2)
  | _ => none

def runAllgroup (sql : Bytes) (db : Database) : Option (Database × Int32) :=
  match insertRow allgroupHead 2 sql with
  | some [.str name, .str desc] =>
      (db.allgroup.insert ⟨name, desc⟩).map fun p => ({ db with allgroup := p.1 }, p.2)
  | _ => none

def runOfflinemessage (sql : Bytes) (db : Database) : Option Database :=
  match insertRow offlinemessageHead 2 sql with
  | some [.int userid, .str msg] =>
      some { db with offlinemessage := db.offlinemessage.insert (Int32.ofInt userid) msg }
  | _ => none

theorem runUser_of_reads {name pwd sql : Bytes} (h : ReadsAs userHead (userRow name pwd) sql)
    (db : Database) : runUser sql db =
      (db.user.insert ⟨name, pwd, offline⟩).map fun p => ({ db with user := p.1 }, p.2) := by
  have hread : insertRow userHead 3 sql = some [.str name, .str pwd, .str offline] := h.2
  rw [runUser, hread]

theorem runAllgroup_of_reads {name desc sql : Bytes}
    (h : ReadsAs allgroupHead (allgroupRow name desc) sql) (db : Database) : runAllgroup sql db =
      (db.allgroup.insert ⟨name, desc⟩).map fun p => ({ db with allgroup := p.1 }, p.2) := by
  have hread : insertRow allgroupHead 2 sql = some [.str name, .str desc] := h.2
  rw [runAllgroup, hread]

theorem runOfflinemessage_of_reads {userid : Int32} {msg sql : Bytes}
    (h : ReadsAs offlinemessageHead (offlinemessageRow userid msg) sql) (db : Database) :
    runOfflinemessage sql db =
      some { db with offlinemessage := db.offlinemessage.insert userid msg } := by
  have hread : insertRow offlinemessageHead 2 sql = some [.int userid.toInt, .str msg] := h.2
  rw [runOfflinemessage, hread]
  simp only [Int32.ofInt_toInt]

/-- A registration is stored as it was requested: the statement says so, and the
new user can log in with the password given. -/
structure UserStored (name pwd : Bytes) : Prop where
  reads : ReadsAs userHead (userRow name pwd) (UserModel.insertSql (registered name pwd))
  login : ∀ db db' id, runUser (UserModel.insertSql (registered name pwd)) db = some (db', id) →
    db'.user.get id = some ⟨name, pwd, offline⟩ ∧ LoginAccepts (fun _ => MySQL.up) id pwd db'

structure GroupStored (name desc : Bytes) : Prop where
  reads : ReadsAs allgroupHead (allgroupRow name desc)
    (GroupModel.createGroupSql (created name desc))
  row : ∀ db db' id,
    runAllgroup (GroupModel.createGroupSql (created name desc)) db = some (db', id) →
    db'.allgroup.get id = some ⟨name, desc⟩

/-- A message is stored as it was queued, and read back as such. -/
structure MessageStored (userid : Int32) (msg : Bytes) : Prop where
  reads : ReadsAs offlinemessageHead (offlinemessageRow userid msg)
    (OfflineMsgModel.insertSql userid msg)
  returned : ∀ db, ∃ db',
    runOfflinemessage (OfflineMsgModel.insertSql userid msg) db = some db' ∧
      ∀ k, OfflineMsgModel.query MySQL.up k db' =
        OfflineMsgModel.query MySQL.up k db ++ if k = userid then [msg] else []

theorem userStored_of_reads {name pwd : Bytes}
    (h : ReadsAs userHead (userRow name pwd) (UserModel.insertSql (registered name pwd))) :
    UserStored name pwd := by
  refine ⟨h, fun db db' id hrun => ?_⟩
  rw [runUser_of_reads h] at hrun
  obtain ⟨⟨t, k⟩, hins, heq⟩ := Option.map_eq_some_iff.mp hrun
  cases heq
  have hget : t.get k = some ⟨name, pwd, offline⟩ := by
    rw [(AutoTable.get_insert hins).2, if_pos rfl]
  have hrow : { db with user := t }.user.get k = some ⟨name, pwd, offline⟩ := hget
  exact ⟨hget, loginAccepts_row hrow offline_ne_online⟩

theorem groupStored_of_reads {name desc : Bytes}
    (h : ReadsAs allgroupHead (allgroupRow name desc)
      (GroupModel.createGroupSql (created name desc))) : GroupStored name desc := by
  refine ⟨h, fun db db' id hrun => ?_⟩
  rw [runAllgroup_of_reads h] at hrun
  obtain ⟨⟨t, k⟩, hins, heq⟩ := Option.map_eq_some_iff.mp hrun
  cases heq
  show t.get k = _
  rw [(AutoTable.get_insert hins).2, if_pos rfl]

theorem query_insert {α : Type} (userid k : Int32) (msg : α) (t : OfflineTable α) :
    (t.insert userid msg).query k = t.query k ++ if k = userid then [msg] else [] := by
  unfold OfflineTable.query OfflineTable.insert
  by_cases hk : k = userid
  · subst hk
    simp [List.filter_append]
  · have hne : ¬ userid = k := fun h => hk h.symm
    simp [List.filter_append, hk, hne]

theorem messageStored_of_reads {userid : Int32} {msg : Bytes}
    (h : ReadsAs offlinemessageHead (offlinemessageRow userid msg)
      (OfflineMsgModel.insertSql userid msg)) : MessageStored userid msg := by
  refine ⟨h, fun db => ⟨_, runOfflinemessage_of_reads h db, fun k => ?_⟩⟩
  rw [OfflineMsgModel.query, OfflineMsgModel.query, if_pos ⟨rfl, rfl⟩, if_pos ⟨rfl, rfl⟩,
    query_insert]

/-! ## The model's operations -/

/-- The operations on the tables agree with their statements where these are
read as they were meant. -/
theorem insert_eq_runOfflinemessage {userid : Int32} {msg : Bytes} (h0 : 0 ∉ msg)
    (h : ReadsAs offlinemessageHead (offlinemessageRow userid msg)
      (OfflineMsgModel.insertSql userid msg)) (db : Database) :
    (OfflineMsgModel.insert MySQL.up userid msg db).toOption =
      runOfflinemessage (OfflineMsgModel.insertSql userid msg) db := by
  rw [OfflineMsgModel.insert, if_pos h.1, if_pos ⟨rfl, rfl⟩, cStr_eq_self h0,
    runOfflinemessage_of_reads h]
  rfl

theorem insert_eq_runUser {name pwd : Bytes} (hn : 0 ∉ name) (hp : 0 ∉ pwd)
    (h : ReadsAs userHead (userRow name pwd) (UserModel.insertSql (registered name pwd)))
    (db : Database) : UserModel.insert MySQL.up (registered name pwd) db =
      .ok (((runUser (UserModel.insertSql (registered name pwd)) db).map fun p =>
        (p.1, some p.2)).getD (db, none)) := by
  rw [UserModel.insert, if_pos h.1, if_pos ⟨rfl, rfl⟩, runUser_of_reads h]
  simp only [registered, cStr_eq_self hn, cStr_eq_self hp, cStr_offline]
  cases db.user.insert ⟨name, pwd, offline⟩ <;> rfl

theorem createGroup_eq_runAllgroup {name desc : Bytes} (hn : 0 ∉ name) (hd : 0 ∉ desc)
    (h : ReadsAs allgroupHead (allgroupRow name desc)
      (GroupModel.createGroupSql (created name desc))) (db : Database) :
    GroupModel.createGroup MySQL.up (created name desc) db =
      .ok (((runAllgroup (GroupModel.createGroupSql (created name desc)) db).map fun p =>
        (p.1, some p.2)).getD (db, none)) := by
  rw [GroupModel.createGroup, if_pos h.1, if_pos ⟨rfl, rfl⟩, runAllgroup_of_reads h]
  simp only [created, cStr_eq_self hn, cStr_eq_self hd]
  cases db.allgroup.insert ⟨name, desc⟩ <;> rfl

/-! ## Texts that survive -/

/-- The statements that carry texts of a request. -/
inductive Statement
  | user (name pwd : Bytes)
  | allgroup (name desc : Bytes)
  | offlinemessage (userid : Int32) (msg : Bytes)

namespace Statement

/-- The texts the request supplies. -/
def texts : Statement → List Bytes
  | user name pwd => [name, pwd]
  | allgroup name desc => [name, desc]
  | offlinemessage _ msg => [msg]

def sql : Statement → Bytes
  | user name pwd => UserModel.insertSql (registered name pwd)
  | allgroup name desc => GroupModel.createGroupSql (created name desc)
  | offlinemessage userid msg => OfflineMsgModel.insertSql userid msg

def head : Statement → Bytes
  | user _ _ => userHead
  | allgroup _ _ => allgroupHead
  | offlinemessage _ _ => offlinemessageHead

def row : Statement → List Value
  | user name pwd => userRow name pwd
  | allgroup name desc => allgroupRow name desc
  | offlinemessage userid msg => offlinemessageRow userid msg

/-- The supplied texts are stored unchanged. -/
def Stored : Statement → Prop
  | user name pwd => UserStored name pwd
  | allgroup name desc => GroupStored name desc
  | offlinemessage userid msg => MessageStored userid msg

theorem sql_eq (i : Statement) (h0 : ∀ t ∈ i.texts, 0 ∉ t) :
    i.sql = i.head ++ (rowText i.row ++ [0x29]) := by
  cases i with
  | user name pwd => exact insertSql_user (h0 name (by simp [texts])) (h0 pwd (by simp [texts]))
  | allgroup name desc =>
    exact createGroupSql_group (h0 name (by simp [texts])) (h0 desc (by simp [texts]))
  | offlinemessage userid msg => exact insertSql_message userid (h0 msg (by simp [texts]))

theorem row_plain_iff (i : Statement) : (∀ v ∈ i.row, v.plain) ↔ ∀ t ∈ i.texts, plain t := by
  have hoff : plain offline := by decide
  cases i <;> simp [row, texts, userRow, allgroupRow, offlinemessageRow, Value.plain, hoff]

theorem stored_iff_reads (i : Statement) : i.Stored ↔ ReadsAs i.head i.row i.sql := by
  cases i with
  | user name pwd => exact ⟨fun h => h.reads, userStored_of_reads⟩
  | allgroup name desc => exact ⟨fun h => h.reads, groupStored_of_reads⟩
  | offlinemessage userid msg => exact ⟨fun h => h.reads, messageStored_of_reads⟩

end Statement

/-- Exactly the texts without quotes, whose backslashes stand before `%` or `_`,
survive a statement that fits its buffer. -/
theorem stored_text_iff (i : Statement) (h0 : ∀ t ∈ i.texts, 0 ∉ t) :
    i.Stored ↔ (∀ t ∈ i.texts, plain t) ∧ fits i.sql := by
  have hne : i.row ≠ [] := by
    cases i <;> simp [Statement.row, userRow, allgroupRow, offlinemessageRow]
  have h3 : i.row.length ≤ 3 := by
    cases i <;> simp [Statement.row, userRow, allgroupRow, offlinemessageRow]
  rw [i.stored_iff_reads, readsAs_iff i.row hne h3 (i.sql_eq h0), i.row_plain_iff]

theorem stored_text_hi : MessageStored 2 (lit "hi") :=
  (stored_text_iff (.offlinemessage 2 (lit "hi")) (by decide)).mpr ⟨by decide, by decide +kernel⟩

/-- The JSON text of a chat that says "it's ok" is no literal: its quote ends
the string. -/
theorem stored_text_quote :
    ¬ ∀ i : Statement, (∀ t ∈ i.texts, validUtf8 t ∧ 0 ∉ t) → i.Stored := by
  intro h
  let msg := JsonText.codec.text (Json.object [("msg", .str (lit "it's ok"))])
  have hmsg : MessageStored 2 msg := by
    refine h (.offlinemessage 2 msg) fun t ht => ?_
    rw [List.mem_singleton.mp ht]
    exact ⟨by decide +kernel, by decide +kernel⟩
  have hread := hmsg.reads.2
  revert hread
  decide +kernel

end MyChat
