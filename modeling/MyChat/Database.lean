import MyChat.Lib.AutoTable
import MyChat.Encrypt

/-! The MySQL tables and the model classes over them. A statement either fails
or takes effect with the values formatted into it; which one is a parameter.
Texts are what a C string shows, on the way in and in the stored columns. -/

namespace MyChat

/-- One connection: whether it is made, and whether its `i`-th statement runs. -/
structure MySQL where
  connect : Bool
  exec : Nat → Bool

def MySQL.up : MySQL := ⟨true, fun _ => true⟩

/-- Whether a statement and its NUL fit the 1024-byte buffer of `sprintf`. -/
def fits (sql : Bytes) : Bool := sql.length < 1024

def online : Bytes := lit "Online"
def offline : Bytes := lit "Offline"

theorem offline_ne_online : offline ≠ online := by
  rw [offline, online, Ne, lit_inj]
  simp

theorem cStr_offline : cStr offline = offline := by decide

structure User where
  id : Int32 := -1
  name : Bytes := []
  password : Bytes := []
  state : Bytes := offline
  deriving DecidableEq, Repr

structure GroupUser extends User where
  role : Bytes := []
  deriving DecidableEq, Repr

structure Group where
  id : Int32 := -1
  name : Bytes := []
  desc : Bytes := []
  users : List GroupUser := []
  deriving DecidableEq, Repr

/-! ## Tables -/

structure UserRow where
  name : Bytes
  password : Bytes
  state : Bytes
  deriving DecidableEq, Repr

structure GroupRow where
  groupname : Bytes
  groupdesc : Bytes
  deriving DecidableEq, Repr

structure GroupUserRow where
  groupid : Int32
  userid : Int32
  grouprole : Bytes
  deriving DecidableEq, Repr

/-- Messages behind their recipients. The message type is a parameter, so that
instances with equal texts can be told apart where that matters. -/
abbrev OfflineTable (α : Type) := List (Int32 × α)

structure Database where
  user : AutoTable UserRow
  allgroup : AutoTable GroupRow
  groupuser : List GroupUserRow
  friend : List (Int32 × Int32)
  offlinemessage : OfflineTable Bytes

def Database.empty : Database where
  user := AutoTable.empty
  allgroup := AutoTable.empty
  groupuser := []
  friend := []
  offlinemessage := []

namespace OfflineTable

variable {α : Type}

def insert (userid : Int32) (msg : α) (t : OfflineTable α) : OfflineTable α := t ++ [(userid, msg)]

def remove (userid : Int32) (t : OfflineTable α) : OfflineTable α := t.filter (·.1 ≠ userid)

def query (userid : Int32) (t : OfflineTable α) : List α :=
  (t.filter (·.1 = userid)).map Prod.snd

end OfflineTable

/-! ## Users -/

namespace UserModel

def insertSql (user : User) : Bytes :=
  lit "insert into user(name, password, state) values('" ++ cStr user.name ++ lit "', '" ++
    cStr user.password ++ lit "', '" ++ cStr user.state ++ lit "')"

/-- The new id, or none where the source returns false. -/
def insert (my : MySQL) (user : User) (db : Database) : Except Failure (Database × Option Int32) :=
  if fits (insertSql user) then
    if my.connect ∧ my.exec 0 then
      match db.user.insert ⟨cStr user.name, cStr user.password, cStr user.state⟩ with
      | some (t, id) => .ok ({ db with user := t }, some id)
      | none => .ok (db, none)
    else .ok (db, none)
  else .error .overflow

def query (my : MySQL) (id : Int32) (db : Database) : User :=
  if my.connect ∧ my.exec 0 then
    match db.user.get id with
    | some row => { id := id, name := row.name, password := row.password, state := row.state }
    | none => {}
  else {}

/-- Only ever called with one of the two states, which fit the buffer. -/
def updateState (my : MySQL) (user : User) (db : Database) : Database × Bool :=
  if my.connect ∧ my.exec 0 then
    ({ db with user := db.user.modify user.id fun row => { row with state := cStr user.state } },
      true)
  else (db, false)

/-- Every row that says "Online". -/
def resetState (my : MySQL) (db : Database) : Database :=
  if my.connect ∧ my.exec 0 then
    { db with
      user := db.user.map fun row =>
        if row.state = online then { row with state := offline } else row }
  else db

/-- The row of `id`, or the default user. -/
theorem query_cases (my : MySQL) (id : Int32) (db : Database) :
    query my id db = {} ∨ ∃ row, db.user.get id = some row ∧
      query my id db =
        { id := id, name := row.name, password := row.password, state := row.state } := by
  unfold query
  split
  · cases h : db.user.get id with
    | none => exact Or.inl rfl
    | some row => exact Or.inr ⟨row, rfl, rfl⟩
  · exact Or.inl rfl

theorem query_row {id : Int32} {row : UserRow} {db : Database} (h : db.user.get id = some row) :
    query MySQL.up id db =
      { id := id, name := row.name, password := row.password, state := row.state } := by
  rw [query, if_pos ⟨rfl, rfl⟩]
  simp only [h]

theorem query_neg_one (my : MySQL) (db : Database) : query my (-1) db = {} := by
  rcases query_cases my (-1) db with h | ⟨row, hrow, -⟩
  · exact h
  · cases db.user.get_neg_one.symm.trans hrow

theorem get_updateState (user : User) (db : Database) (id : Int32) :
    (updateState MySQL.up user db).1.user.get id =
      if id = user.id then (db.user.get id).map fun row => { row with state := cStr user.state }
      else db.user.get id := by
  rw [updateState, if_pos ⟨rfl, rfl⟩]
  exact AutoTable.get_modify _ _ _ _

end UserModel

/-! ## Friends -/

namespace FriendModel

def insert (my : MySQL) (userid friendid : Int32) (db : Database) : Database :=
  if my.connect then
    let db := if my.exec 0 then { db with friend := db.friend ++ [(userid, friendid)] } else db
    if my.exec 1 then { db with friend := db.friend ++ [(friendid, userid)] } else db
  else db

def query (my : MySQL) (userid : Int32) (db : Database) : List User :=
  if my.connect ∧ my.exec 0 then
    (db.friend.filter (·.1 = userid)).filterMap fun f =>
      (db.user.get f.2).map fun row => { id := f.2, name := row.name, state := row.state }
  else []

end FriendModel

/-! ## Groups -/

namespace GroupModel

def createGroupSql (group : Group) : Bytes :=
  lit "insert into allgroup(groupname, groupdesc) values('" ++ cStr group.name ++ lit "', '" ++
    cStr group.desc ++ lit "')"

def createGroup (my : MySQL) (group : Group) (db : Database) :
    Except Failure (Database × Option Int32) :=
  if fits (createGroupSql group) then
    if my.connect ∧ my.exec 0 then
      match db.allgroup.insert ⟨cStr group.name, cStr group.desc⟩ with
      | some (t, id) => .ok ({ db with allgroup := t }, some id)
      | none => .ok (db, none)
    else .ok (db, none)
  else .error .overflow

/-- Only ever called with the roles "creator" and "normal". -/
def addGroup (my : MySQL) (userid groupid : Int32) (role : Bytes) (db : Database) :
    Database × Bool :=
  if my.connect ∧ my.exec 0 then
    ({ db with groupuser := db.groupuser ++ [⟨groupid, userid, cStr role⟩] }, true)
  else (db, false)

/-- The members of a group, by the statement that joins `groupuser` and `user`. -/
def members (groupid : Int32) (db : Database) : List GroupUser :=
  (db.groupuser.filter (·.groupid = groupid)).filterMap fun m =>
    (db.user.get m.userid).map fun row =>
      { id := m.userid, name := row.name, state := row.state, role := m.grouprole }

/-- One statement for the groups and, on the same connection, one for the
members of each. -/
def queryGroups (my : MySQL) (userid : Int32) (db : Database) : List Group :=
  let groupVec : List Group :=
    if my.connect ∧ my.exec 0 then
      (db.groupuser.filter (·.userid = userid)).filterMap fun m =>
        (db.allgroup.get m.groupid).map fun row =>
          { id := m.groupid, name := row.groupname, desc := row.groupdesc }
    else []
  groupVec.zipIdx.map fun (group, i) =>
    { group with users := if my.exec (i + 1) then members group.id db else [] }

def queryGroupUsers (my : MySQL) (userid groupid : Int32) (db : Database) : List Int32 :=
  if my.connect ∧ my.exec 0 then
    (db.groupuser.filter fun m => m.groupid = groupid ∧ m.userid ≠ userid).map (·.userid)
  else []

end GroupModel

/-! ## Offline messages -/

namespace OfflineMsgModel

def insertSql (userid : Int32) (msg : Bytes) : Bytes :=
  lit "insert into offlinemessage values(" ++ dumpInt userid.toInt ++ lit ", '" ++ cStr msg ++
    lit "')"

def insert (my : MySQL) (userid : Int32) (msg : Bytes) (db : Database) : Except Failure Database :=
  if fits (insertSql userid msg) then
    if my.connect ∧ my.exec 0 then
      .ok { db with offlinemessage := db.offlinemessage.insert userid (cStr msg) }
    else .ok db
  else .error .overflow

def remove (my : MySQL) (userid : Int32) (db : Database) : Database :=
  if my.connect ∧ my.exec 0 then
    { db with offlinemessage := db.offlinemessage.remove userid }
  else db

def query (my : MySQL) (userid : Int32) (db : Database) : List Bytes :=
  if my.connect ∧ my.exec 0 then db.offlinemessage.query userid else []

end OfflineMsgModel

end MyChat
