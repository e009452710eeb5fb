import MyChat.Lib.Threads
import MyChat.ServerRun

/-! The callbacks of the server as the threads of muduo, the observer thread and
the worker run them: one call of a model class, of Redis, of the queue, of a
connection or of the connection map at a time. Uninterrupted, each of them does
what the one-step model says. -/

namespace MyChat.Threads
open Json

/-! ## Operations -/

/-- Operations of one process. An iterator into the connection map is the entry
it points at. -/
inductive ServerOp
  | find (id : Int32)
  | insert (id : Int32) (conn : Conn)
  /-- From `begin` to `end`, in the map's own order. -/
  | keys (order : Finset Int32 → List Int32)
  /-- `erase(it)`. -/
  | erase (id : Int32) (conn : Conn)
  /-- `it->second->send`. -/
  | sendTo (id : Int32) (conn : Conn) (frame : Frame)
  | send (conn : Conn) (frame : Frame)
  | shutdown (conn : Conn)
  | redisGet (id : Int32)
  | redisSet (id : Int32)
  | redisDelete (id : Int32)
  | subscribe (id : Int32)
  | unsubscribe (id : Int32)
  | publish (id : Int32) (msg : Bytes)
  | push (t : DbTaskArgs)
  | pop
  | queryUser (my : MySQL) (id : Int32)
  | insertUser (my : MySQL) (user : User)
  | queryOffline (my : MySQL) (id : Int32)
  | removeOffline (my : MySQL) (id : Int32)
  | insertOffline (my : MySQL) (id : Int32) (msg : Bytes)
  | queryFriends (my : MySQL) (id : Int32)
  | queryGroups (my : MySQL) (id : Int32)
  | queryGroupUsers (my : MySQL) (userid groupid : Int32)
  | addGroup (my : MySQL) (userid groupid : Int32) (role : Bytes)
  | dbWork (my : MySQL) (opt : DbTaskArgs)

namespace ServerOp

@[reducible] def Answer : ServerOp → Type
  | .find _ => Option Conn
  | .keys _ => List Int32
  | .redisGet _ => Bool
  | .pop => Option DbTaskArgs
  | .queryUser _ _ => User
  | .insertUser _ _ => Except Failure (Option Int32)
  | .queryOffline _ _ => List Bytes
  | .insertOffline _ _ _ => Option Failure
  | .queryFriends _ _ => List User
  | .queryGroups _ _ => List Group
  | .queryGroupUsers _ _ _ => List Int32
  | _ => Unit

/-- `pop` on an empty queue is not ready, so its answer there is never seen. -/
def perform : (o : ServerOp) → Server → o.Answer × Server
  | .find id, s => (s.userConnMap.lookup id, s)
  | .insert id conn, s => ((), s.mapInsert id conn)
  | .keys order, s => (order s.userConnMap.keys, s)
  | .erase id _, s => ((), s.mapErase id)
  | .sendTo id conn frame, s => ((), s.sendTo id conn frame)
  | .send conn frame, s => ((), s.send conn frame)
  | .shutdown conn, s => ((), s.shutdown conn)
  | .redisGet id, s => (s.redis.get id, s)
  | .redisSet id, s => ((), { s with redis := s.redis.set id })
  | .redisDelete id, s => ((), { s with redis := s.redis.delete id })
  | .subscribe id, s => ((), { s with redis := s.redis.subscribe s.self id })
  | .unsubscribe id, s => ((), { s with redis := s.redis.unsubscribe s.self id })
  | .publish id msg, s => ((), s.publish id msg)
  | .push t, s => ((), s.push t)
  | .pop, s => (s.dbQueue.head?, { s with dbQueue := s.dbQueue.tail })
  | .queryUser my id, s => (UserModel.query my id s.db, s)
  | .insertUser my user, s =>
      match UserModel.insert my user s.db with
      | .error e => (.error e, s)
      | .ok (db, id) => (.ok id, { s with db := db })
  | .queryOffline my id, s => (OfflineMsgModel.query my id s.db, s)
  | .removeOffline my id, s => ((), { s with db := OfflineMsgModel.remove my id s.db })
  | .insertOffline my id msg, s =>
      match OfflineMsgModel.insert my id msg s.db with
      | .error e => (some e, s)
      | .ok db => (none, { s with db := db })
  | .queryFriends my id, s => (FriendModel.query my id s.db, s)
  | .queryGroups my id, s => (GroupModel.queryGroups my id s.db, s)
  | .queryGroupUsers my userid groupid, s => (GroupModel.queryGroupUsers my userid groupid s.db, s)
  | .addGroup my userid groupid role, s =>
      ((), { s with db := (GroupModel.addGroup my userid groupid role s.db).1 })
  -- the worker catches what a task throws
  | .dbWork my opt, s =>
      ((), match MyChat.dbWork my opt s.db with
        | .ok db => { s with db := db }
        | .error _ => s)

/-- What touches the connection map, through an iterator or not. -/
def guarded : ServerOp → Bool
  | .find _ | .insert _ _ | .keys _ | .erase _ _ | .sendTo _ _ _ => true
  | _ => false

def waits : ServerOp → Bool
  | .pop => true
  | _ => false

def ready : ServerOp → Server → Bool
  | .pop, s => !s.dbQueue.isEmpty
  | _, _ => true

end ServerOp

abbrev ConnMap := Finmap fun _ : Int32 => Conn

/-- Other processes change the database and Redis. -/
def effects : Effects ServerOp ServerOp.Answer Server ConnMap (Database × Redis) where
  perform := ServerOp.perform
  external e s := { s with db := e.1, redis := e.2 }
  ready := ServerOp.ready
  view := Server.userConnMap
  guarded := ServerOp.guarded
  waits := ServerOp.waits
  view_perform o s h := by
    cases o with
    | find _ | insert _ _ | keys _ | erase _ _ | sendTo _ _ _ => cases h
    | insertUser my user | insertOffline my id msg | dbWork my opt =>
      simp only [ServerOp.perform]
      split <;> rfl
    | _ => rfl
  view_external _ _ := rfl
  ready_of o s h := by
    cases o with
    | pop => cases h
    | _ => rfl

abbrev ServerProg := Prog ServerOp ServerOp.Answer

/-! ## Callbacks

Each returns what it throws, if anything. -/

open Prog (locked)
open ServerOp

def find (id : Int32) : ServerProg (Option Conn) := Prog.perform (ServerOp.find id)
def keys (order : Finset Int32 → List Int32) : ServerProg (List Int32) :=
  Prog.perform (ServerOp.keys order)
def redisGet (id : Int32) : ServerProg Bool := Prog.perform (ServerOp.redisGet id)
def pop : ServerProg (Option DbTaskArgs) := Prog.perform ServerOp.pop
def queryUser (my : MySQL) (id : Int32) : ServerProg User := Prog.perform (ServerOp.queryUser my id)
def insertUser (my : MySQL) (user : User) : ServerProg (Except Failure (Option Int32)) :=
  Prog.perform (ServerOp.insertUser my user)
def queryOffline (my : MySQL) (id : Int32) : ServerProg (List Bytes) :=
  Prog.perform (ServerOp.queryOffline my id)
def insertOffline (my : MySQL) (id : Int32) (msg : Bytes) : ServerProg (Option Failure) :=
  Prog.perform (ServerOp.insertOffline my id msg)
def queryFriends (my : MySQL) (id : Int32) : ServerProg (List User) :=
  Prog.perform (ServerOp.queryFriends my id)
def queryGroups (my : MySQL) (id : Int32) : ServerProg (List Group) :=
  Prog.perform (ServerOp.queryGroups my id)
def queryGroupUsers (my : MySQL) (userid groupid : Int32) : ServerProg (List Int32) :=
  Prog.perform (ServerOp.queryGroupUsers my userid groupid)

/-- An operation whose answer nobody looks at. -/
def call (o : ServerOp) : ServerProg Unit := Prog.perform o >>= fun _ => pure ()

/-- `q` unless `p` throws. -/
def andThen (p q : ServerProg (Option Failure)) : ServerProg (Option Failure) :=
  p >>= fun
    | none => q
    | some e => pure (some e)

section
variable (codec : JsonCodec)

def respond (conn : Conn) (response : Json) (msgId : Int32) : ServerProg (Option Failure) :=
  match codec.dump response with
  | none => pure (some .invalidUtf8)
  | some jsonStr => do
      call (.send conn (groupChatFrame jsonStr msgId))
      return none

def ackToClient (conn : Conn) (msgId : Int32) : ServerProg (Option Failure) :=
  respond codec conn (ackResponse msgId) msgId

/-- Only the insertion into the map is under the mutex. -/
def openSession (conn : Conn) (id : Int32) (user : User) : ServerProg Unit := do
  locked (call (.insert id conn))
  call (.subscribe id)
  call (.redisSet id)
  call (.push (updateStateTask user.id online))

def takeOffline (my : Nat → MySQL) (id : Int32) : ServerProg (List Bytes) := do
  let vec ← queryOffline (my 1) id
  if vec = [] then
    return vec
  else
    call (.removeOffline (my 2) id)
    return vec

def loginView (my : Nat → MySQL) (id : Int32) : ServerProg (Option (List Bytes × List Bytes)) := do
  match dumpAll (friendEntry codec) (← queryFriends (my 3) id) with
  | none => return none
  | some friends =>
      match dumpAll (groupEntry codec) (← queryGroups (my 4) id) with
      | none => return none
      | some groups => return some (friends, groups)

def loginAccepted (my : Nat → MySQL) (conn : Conn) (id : Int32) (user : User) (msgId : Int32) :
    ServerProg (Option Failure) := do
  openSession conn id user
  let vec ← takeOffline my id
  match ← loginView codec my id with
  | none => return some .invalidUtf8
  | some (friends, groups) => respond codec conn (loginResponse user msgId vec friends groups) msgId

def login (my : Nat → MySQL) (conn : Conn) (js : Json) : ServerProg (Option Failure) :=
  match js.intAt (lit "id"), js.stringAt (lit "password"), js.intAt (lit "msgId") with
  | some id, some pwd, some msgId => do
      let user ← queryUser (my 0) id
      andThen
        (if user.id = id ∧ user.password = pwd then
          if user.state = online then
            respond codec conn (loginRefusal 2 "该帐号已登陆" msgId) msgId
          else loginAccepted codec my conn id user msgId
        else respond codec conn (loginRefusal 1 "用户名或密码错误" msgId) msgId)
        (ackToClient codec conn msgId)
  | _, _, _ => pure (some .typeError)

def reg (my : Nat → MySQL) (conn : Conn) (js : Json) : ServerProg (Option Failure) :=
  match js.stringAt (lit "name"), js.stringAt (lit "password"), js.intAt (lit "msgId") with
  | some name, some pwd, some msgId => do
      match ← insertUser (my 0) { name := name, password := pwd } with
      | .error e => return some e
      | .ok (some id) =>
          andThen (respond codec conn (regResponse id msgId) msgId) (ackToClient codec conn msgId)
      | .ok none => andThen (respond codec conn js msgId) (ackToClient codec conn msgId)
  | _, _, _ => pure (some .typeError)

/-- The loop over the map, up to the first entry of the connection. -/
def eraseFirst (conn : Conn) : List Int32 → ServerProg (Option Int32)
  | [] => pure none
  | id :: ids => do
      if (← find id) = some conn then
        call (.erase id conn)
        return some id
      else eraseFirst conn ids

def clientCloseException (order : Finset Int32 → List Int32) (conn : Conn) :
    ServerProg (Option Failure) := do
  let found ← locked (do eraseFirst conn (← keys order))
  let id := found.getD (-1)
  call (.unsubscribe id)
  call (.redisDelete id)
  if id ≠ -1 then
    call (.push (updateStateTask id offline))
    return none
  else return none

def onConnection (order : Finset Int32 → List Int32) (conn : Conn) : ServerProg (Option Failure) :=
  andThen (clientCloseException order conn) (do call (.shutdown conn); return none)

def logout (conn : Conn) (js : Json) : ServerProg (Option Failure) :=
  match js.intAt (lit "id"), js.intAt (lit "msgId") with
  | some userid, some msgId => do
      locked (do
        match ← find userid with
        | some toConn => call (.erase userid toConn)
        | none => pure ())
      call (.unsubscribe userid)
      call (.redisDelete userid)
      call (.push (updateStateTask userid offline))
      ackToClient codec conn msgId
  | _, _ => pure (some .typeError)

def oneChat (my : Nat → MySQL) (conn : Conn) (js : Json) : ServerProg (Option Failure) :=
  match js.intAt (lit "toid"), js.intAt (lit "msgId") with
  | some toid, some msgId =>
      match codec.dump js with
      | none => pure (some .invalidUtf8)
      | some jsonStr => do
          -- what the scope of the lock returns, if the handler returns there
          let r ← locked (do
            match ← find toid with
            | some toConn => do
                call (.sendTo toid toConn (groupChatFrame jsonStr msgId))
                return some (← ackToClient codec conn msgId)
            | none => return none)
          match r with
          | some e => return e
          | none =>
              match ← redisGet toid with
              | true =>
                  call (.publish toid jsonStr)
                  return none
              | false =>
                  let user ← queryUser (my 0) toid
                  if user.state = online then
                    call (.publish toid jsonStr)
                    return none
                  else
                    call (.push (offlineMsgTask user.id jsonStr))
                    ackToClient codec conn msgId
  | _, _ => pure (some .typeError)

def routeMember (my : MySQL) (jsonStr : Bytes) (msgId : Int32) (id : Int32) : ServerProg Unit := do
  match ← find id with
  | some toConn => call (.sendTo id toConn (groupChatFrame jsonStr msgId))
  | none =>
      let user ← queryUser my id
      if user.state = online then call (.publish id jsonStr)
      else call (.push (offlineMsgTask id jsonStr))

def routeMembers (my : Nat → MySQL) (jsonStr : Bytes) (msgId : Int32) :
    Nat → List Int32 → ServerProg Unit
  | _, [] => pure ()
  | k, id :: ids => do
      routeMember (my k) jsonStr msgId id
      routeMembers my jsonStr msgId (k + 1) ids

/-- The mutex is held through the whole loop and the ACK. -/
def groupChat (my : Nat → MySQL) (conn : Conn) (js : Json) : ServerProg (Option Failure) :=
  match js.intAt (lit "id"), js.intAt (lit "groupid"), js.intAt (lit "msgId") with
  | some userid, some groupid, some msgId =>
      match codec.dump js with
      | none => pure (some .invalidUtf8)
      | some jsonStr => do
          let useridVec ← queryGroupUsers (my 0) userid groupid
          locked (do
            routeMembers my jsonStr msgId 1 useridVec
            ackToClient codec conn msgId)
  | _, _, _ => pure (some .typeError)

/-- The lock is taken for the whole callback. -/
def handleRedisSubscribeMessage (my : MySQL) (userid : Int32) (msg : Bytes) :
    ServerProg (Option Failure) :=
  locked (do
    match ← find userid with
    | some conn =>
        call (.redisSet userid)
        match codec.parse msg with
        | none => return some .parseError
        | some js =>
            match js.intAt (lit "msgId"), (js.index (lit "msgid")).bind getEnum with
            | some msgId, some msgid =>
                match codec.dump js with
                | none => return some .invalidUtf8
                | some jsonStr =>
                    call (.sendTo userid conn (encryptedMessageSvr jsonStr msgid msgId.toUInt32))
                    return none
            | _, _ => return some .typeError
    | none => insertOffline my userid msg)

def addFriend (conn : Conn) (js : Json) : ServerProg (Option Failure) :=
  match js.intAt (lit "id"), js.intAt (lit "friendid"), js.intAt (lit "msgId") with
  | some userid, some friendid, some msgId => do
      call (.push { type := .addFriend, userid := userid, friendid := friendid })
      ackToClient codec conn msgId
  | _, _, _ => pure (some .typeError)

def createGroup (my : Nat → MySQL) (conn : Conn) (js : Json) : ServerProg (Option Failure) :=
  match js.intAt (lit "id"), js.stringAt (lit "groupname"), js.stringAt (lit "groupdesc"),
      js.intAt (lit "msgId") with
  | some userid, some name, some desc, some msgId => do
      let group : Group := { id := -1, name := name, desc := desc }
      call (.push { type := .createGroup, name := name, desc := desc })
      call (.addGroup (my 0) userid group.id (lit "creator"))
      andThen (respond codec conn (groupResponse .createGroupMsgAck "群组创建成功" msgId) msgId)
        (ackToClient codec conn msgId)
  | _, _, _, _ => pure (some .typeError)

def addGroup (conn : Conn) (js : Json) : ServerProg (Option Failure) :=
  match js.intAt (lit "id"), js.intAt (lit "groupid"), js.intAt (lit "msgId") with
  | some userid, some groupid, some msgId => do
      call (.push { type := .addGroupUser, userid := userid, groupid := groupid })
      andThen (respond codec conn (groupResponse .addGroupMsgAck "入群成功" msgId) msgId)
        (ackToClient codec conn msgId)
  | _, _, _ => pure (some .typeError)

def getHandler (my : Nat → MySQL) (msgid : Int32) (conn : Conn) (js : Json) :
    ServerProg (Option Failure) :=
  match handlerOf msgid with
  | some .loginMsg => login codec my conn js
  | some .regMsg => reg codec my conn js
  | some .oneChatMsg => oneChat codec my conn js
  | some .addFriendMsg => addFriend codec conn js
  | some .createGroupMsg => createGroup codec my conn js
  | some .addGroupMsg => addGroup codec conn js
  | some .groupChatMsg => groupChat codec my conn js
  | some .logoutMsg => logout codec conn js
  | _ => pure none

/-- One turn of the worker's loop. -/
def dbWork (my : MySQL) : ServerProg (Option Failure) := do
  match ← pop with
  | none => return none
  | some opt =>
      call (.dbWork my opt)
      return none

def handleJson (my : Nat → MySQL) (conn : Conn) (js : Json) : ServerProg (Option Failure) :=
  match js.intAt (lit "msgid") with
  | none => pure (some .typeError)
  | some msgid => getHandler codec my msgid conn js

def catchShutdown (conn : Conn) (p : ServerProg (Option Failure)) : ServerProg (Option Failure) :=
  do
  match ← p with
  | none => return none
  | some e =>
      if e.isException then
        call (.shutdown conn)
        return none
      else return some e

def onMessage (evp : Evp) (my : Nat → MySQL) (conn : Conn) (buf : Bytes) :
    ServerProg (Option Failure) :=
  let shut : ServerProg (Option Failure) := do
    call (.shutdown conn)
    return none
  if buf.length < MsgHeader.size then shut
  else
    let header := MsgHeader.cast buf
    let payload := buf.drop MsgHeader.size
    if header.isEncrypted = 1 then
      match aes256CBCDecrypt evp payload myAesKey with
      | .error e => pure (some e)
      | .ok plain =>
          if plain = [] then shut
          else
            match codec.parse plain with
            | none => shut
            | some js => handleJson codec my conn js
    else
      catchShutdown conn <|
        match codec.parse payload with
        | none => pure (some .parseError)
        | some js => handleJson codec my conn js

end

/-! ## Uninterrupted -/

section
variable (s : Server)

@[simp] theorem alone_call (o : ServerOp) : (call o).alone effects s = ((), (o.perform s).2) := rfl
@[simp] theorem alone_find (id : Int32) :
    (find id).alone effects s = (s.userConnMap.lookup id, s) := rfl
@[simp] theorem alone_keys (order : Finset Int32 → List Int32) :
    (keys order).alone effects s = (order s.userConnMap.keys, s) := rfl
@[simp] theorem alone_redisGet (id : Int32) : (redisGet id).alone effects s = (s.redis.get id, s) :=
  rfl
@[simp] theorem alone_pop :
    pop.alone effects s = (s.dbQueue.head?, { s with dbQueue := s.dbQueue.tail }) := rfl
@[simp] theorem alone_queryUser (my : MySQL) (id : Int32) :
    (queryUser my id).alone effects s = (UserModel.query my id s.db, s) := rfl
@[simp] theorem alone_insertUser (my : MySQL) (user : User) :
    (insertUser my user).alone effects s = (ServerOp.insertUser my user).perform s := rfl
@[simp] theorem alone_queryOffline (my : MySQL) (id : Int32) :
    (queryOffline my id).alone effects s = (OfflineMsgModel.query my id s.db, s) := rfl
@[simp] theorem alone_insertOffline (my : MySQL) (id : Int32) (msg : Bytes) :
    (insertOffline my id msg).alone effects s = (ServerOp.insertOffline my id msg).perform s := rfl
@[simp] theorem alone_queryFriends (my : MySQL) (id : Int32) :
    (queryFriends my id).alone effects s = (FriendModel.query my id s.db, s) := rfl
@[simp] theorem alone_queryGroups (my : MySQL) (id : Int32) :
    (queryGroups my id).alone effects s = (GroupModel.queryGroups my id s.db, s) := rfl
@[simp] theorem alone_queryGroupUsers (my : MySQL) (userid groupid : Int32) :
    (queryGroupUsers my userid groupid).alone effects s =
      (GroupModel.queryGroupUsers my userid groupid s.db, s) := rfl

/-- What a one-step callback throws, and the state it leaves. -/
def out (r : Ret Server) : Option Failure × Server := (r.thrown, r.state)

/-- Uninterrupted from `s`, the program does what the one-step callback does. -/
def Does (p : ServerProg (Option Failure)) (s : Server) (r : Ret Server) : Prop :=
  p.alone effects s = out r

variable {s}

theorem does_andThen {p q : ServerProg (Option Failure)} {r : Ret Server} {g : Server → Ret Server}
    (hp : Does p s r) (hq : ∀ s, Does q s (g s)) : Does (andThen p q) s (r.andThen g) := by
  rw [Does, andThen, Prog.alone_bind, hp]
  cases h : r.thrown with
  | none => simpa [out, Ret.andThen, h, Does] using hq r.state
  | some e => simp [out, Ret.andThen, h]

theorem does_ite {c : Prop} [Decidable c] {p q : ServerProg (Option Failure)} {r r' : Ret Server}
    (hp : Does p s r) (hq : Does q s r') : Does (if c then p else q) s (if c then r else r') := by
  split
  · exact hp
  · exact hq

variable (codec : JsonCodec) (my : Nat → MySQL) (conn : Conn) (js : Json)

theorem does_respond (response : Json) (msgId : Int32) (s : Server) :
    Does (respond codec conn response msgId) s (MyChat.respond codec conn response msgId s) := by
  cases h : codec.dump response with
  | none => simp [Does, respond, MyChat.respond, h, out]
  | some jsonStr => simp [Does, respond, MyChat.respond, h, out, ServerOp.perform]

theorem does_ackToClient (msgId : Int32) (s : Server) :
    Does (ackToClient codec conn msgId) s (MyChat.ackToClient codec conn msgId s) :=
  does_respond codec conn _ msgId s

@[simp] theorem alone_openSession (id : Int32) (user : User) (s : Server) :
    (openSession conn id user).alone effects s = ((), MyChat.openSession conn id user s) := rfl

@[simp] theorem alone_takeOffline (id : Int32) (s : Server) :
    (takeOffline my id).alone effects s = MyChat.takeOffline my id s := by
  by_cases h : OfflineMsgModel.query (my 1) id s.db = []
  · simp [takeOffline, MyChat.takeOffline, h]
  · simp [takeOffline, MyChat.takeOffline, h, ServerOp.perform]

@[simp] theorem alone_loginView (id : Int32) (s : Server) :
    (loginView codec my id).alone effects s = (MyChat.loginView codec my id s.db, s) := by
  simp only [loginView, MyChat.loginView, Prog.alone_bind, alone_queryFriends]
  cases dumpAll (friendEntry codec) (FriendModel.query (my 3) id s.db) with
  | none => rfl
  | some friends =>
    simp only [Prog.alone_bind, alone_queryGroups, Option.bind_some]
    cases dumpAll (groupEntry codec) (GroupModel.queryGroups (my 4) id s.db) <;> rfl

theorem does_loginAccepted (id : Int32) (user : User) (msgId : Int32) (s : Server) :
    Does (loginAccepted codec my conn id user msgId) s
      (MyChat.loginAccepted codec my conn id user msgId s) := by
  simp only [Does, loginAccepted, MyChat.loginAccepted, Prog.alone_bind, alone_openSession,
    alone_takeOffline, alone_loginView]
  cases MyChat.loginView codec my id
    (MyChat.takeOffline my id (MyChat.openSession conn id user s)).2.db with
  | none => rfl
  | some view => exact does_respond codec conn _ msgId _

theorem does_login (s : Server) :
    Does (login codec my conn js) s (MyChat.login codec my conn js s) := by
  unfold login MyChat.login
  cases js.intAt (lit "id") with
  | none => rfl
  | some id =>
    cases js.stringAt (lit "password") with
    | none => rfl
    | some pwd =>
      cases js.intAt (lit "msgId") with
      | none => rfl
      | some msgId =>
        simp only [Does, Prog.alone_bind]
        refine does_andThen (does_ite (does_ite (does_respond ..) ?_) (does_respond ..))
          (does_ackToClient _ _ _)
        exact does_loginAccepted ..

theorem does_reg (s : Server) : Does (reg codec my conn js) s (MyChat.reg codec my conn js s) := by
  unfold reg MyChat.reg
  cases js.stringAt (lit "name") with
  | none => rfl
  | some name =>
    cases js.stringAt (lit "password") with
    | none => rfl
    | some pwd =>
      cases js.intAt (lit "msgId") with
      | none => rfl
      | some msgId =>
        simp only [Does, Prog.alone_bind, alone_insertUser, ServerOp.perform]
        cases UserModel.insert (my 0) { name := name, password := pwd } s.db with
        | error e => rfl
        | ok r =>
          obtain ⟨db, id⟩ := r
          cases id with
          | none => exact does_andThen (does_respond ..) (does_ackToClient _ _ _)
          | some id => exact does_andThen (does_respond ..) (does_ackToClient _ _ _)

theorem alone_eraseFirst (ids : List Int32) (s : Server) :
    (eraseFirst conn ids).alone effects s =
      (ids.find? fun id => s.userConnMap.lookup id = some conn,
        match ids.find? fun id => s.userConnMap.lookup id = some conn with
        | some id => s.mapErase id
        | none => s) := by
  induction ids with
  | nil => rfl
  | cons id ids ih =>
    by_cases h : s.userConnMap.lookup id = some conn
    · simp [eraseFirst, h, ServerOp.perform]
    · simpa [eraseFirst, h] using ih

theorem does_onConnection (order : Finset Int32 → List Int32) (s : Server) :
    Does (onConnection order conn) s
      { state := MyChat.onConnection (order s.userConnMap.keys) conn s } := by
  have hclose : Does (clientCloseException order conn) s
      { state := MyChat.clientCloseException (order s.userConnMap.keys) conn s } := by
    simp only [Does, clientCloseException, MyChat.clientCloseException, Prog.alone_bind,
      Prog.alone_locked, alone_keys, alone_eraseFirst]
    cases (order s.userConnMap.keys).find? fun id => s.userConnMap.lookup id = some conn with
    | none => rfl
    | some id => by_cases h : id = -1 <;> simp [h, out, ServerOp.perform, Server.redisOffline]
  exact does_andThen (g := fun s => { state := s.shutdown conn }) hclose fun _ => rfl

theorem mapErase_of_lookup {id : Int32} (h : s.userConnMap.lookup id = none) :
    s.mapErase id = s := by
  have herase : s.userConnMap.erase id = s.userConnMap := by
    refine Finmap.ext_lookup fun k => ?_
    by_cases hk : k = id
    · rw [hk, Finmap.lookup_erase, h]
    · exact Finmap.lookup_erase_ne hk
  rw [Server.mapErase, herase]

theorem does_logout (s : Server) :
    Does (logout codec conn js) s (MyChat.logout codec conn js s) := by
  unfold logout MyChat.logout
  cases js.intAt (lit "id") with
  | none => rfl
  | some userid =>
    cases js.intAt (lit "msgId") with
    | none => rfl
    | some msgId =>
      simp only [Does, Prog.alone_bind, Prog.alone_locked, alone_find]
      cases h : s.userConnMap.lookup userid with
      | none =>
        rw [mapErase_of_lookup h]
        exact does_ackToClient codec conn msgId _
      | some toConn => exact does_ackToClient codec conn msgId _

theorem does_oneChat (s : Server) :
    Does (oneChat codec my conn js) s (MyChat.oneChat codec my conn js s) := by
  unfold oneChat MyChat.oneChat
  cases js.intAt (lit "toid") with
  | none => rfl
  | some toid =>
    cases js.intAt (lit "msgId") with
    | none => rfl
    | some msgId =>
      cases hdump : codec.dump js with
      | none => rfl
      | some jsonStr =>
        simp only [Does, Prog.alone_bind, Prog.alone_locked, alone_find]
        cases h : s.userConnMap.lookup toid with
        | some toConn =>
          have hack :=
            does_ackToClient codec conn msgId (s.sendTo toid toConn (groupChatFrame jsonStr msgId))
          rw [Does] at hack
          simp [ServerOp.perform, hack, out]
        | none =>
          simp only [Prog.alone_pure, Prog.alone_bind, alone_redisGet]
          cases s.redis.get toid with
          | true => rfl
          | false =>
            by_cases hon : (UserModel.query (my 0) toid s.db).state = online
            · simp [hon, out, ServerOp.perform]
            · simp only [Prog.alone_bind, alone_queryUser, hon, ↓reduceIte, Bool.false_eq_true]
              exact does_ackToClient codec conn msgId _

theorem alone_routeMember (m : MySQL) (jsonStr : Bytes) (msgId id : Int32) (s : Server) :
    (routeMember m jsonStr msgId id).alone effects s =
      ((), MyChat.routeMember m jsonStr msgId id s) := by
  simp only [routeMember, MyChat.routeMember, Prog.alone_bind, alone_find]
  cases s.userConnMap.lookup id with
  | some toConn => rfl
  | none =>
    by_cases hon : (UserModel.query m id s.db).state = online <;> simp [hon, ServerOp.perform]

theorem alone_routeMembers (jsonStr : Bytes) (msgId : Int32) (k : Nat) (ids : List Int32)
    (s : Server) :
    (routeMembers my jsonStr msgId k ids).alone effects s =
      ((), MyChat.routeMembers my jsonStr msgId k ids s) := by
  induction ids generalizing k s with
  | nil => rfl
  | cons id ids ih =>
    simp only [routeMembers, MyChat.routeMembers, Prog.alone_bind, alone_routeMember]
    exact ih (k + 1) _

theorem does_groupChat (s : Server) :
    Does (groupChat codec my conn js) s (MyChat.groupChat codec my conn js s) := by
  unfold groupChat MyChat.groupChat
  cases js.intAt (lit "id") with
  | none => rfl
  | some userid =>
    cases js.intAt (lit "groupid") with
    | none => rfl
    | some groupid =>
      cases js.intAt (lit "msgId") with
      | none => rfl
      | some msgId =>
        cases hdump : codec.dump js with
        | none => rfl
        | some jsonStr =>
          simp only [Does, Prog.alone_bind, Prog.alone_locked, alone_queryGroupUsers,
            alone_routeMembers]
          exact does_ackToClient codec conn msgId _

theorem does_handleRedisSubscribeMessage (m : MySQL) (userid : Int32) (msg : Bytes) (s : Server) :
    Does (handleRedisSubscribeMessage codec m userid msg) s
      (MyChat.handleRedisSubscribeMessage codec m userid msg s) := by
  simp only [Does, handleRedisSubscribeMessage, MyChat.handleRedisSubscribeMessage,
    Prog.alone_locked, Prog.alone_bind, alone_find]
  cases s.userConnMap.lookup userid with
  | none =>
    simp only [alone_insertOffline, ServerOp.perform]
    cases OfflineMsgModel.insert m userid msg s.db <;> rfl
  | some toConn =>
    simp only [Prog.alone_bind, alone_call]
    cases codec.parse msg with
    | none => rfl
    | some js =>
      simp only
      cases js.intAt (lit "msgId") with
      | none => rfl
      | some msgId =>
        cases (js.index (lit "msgid")).bind getEnum with
        | none => rfl
        | some msgid =>
          cases codec.dump js <;> rfl

theorem does_addFriend (s : Server) :
    Does (addFriend codec conn js) s (MyChat.addFriend codec conn js s) := by
  unfold addFriend MyChat.addFriend
  cases js.intAt (lit "id") with
  | none => rfl
  | some userid =>
    cases js.intAt (lit "friendid") with
    | none => rfl
    | some friendid =>
      cases js.intAt (lit "msgId") with
      | none => rfl
      | some msgId =>
        exact does_ackToClient codec conn msgId _

theorem does_createGroup (s : Server) :
    Does (createGroup codec my conn js) s (MyChat.createGroup codec my conn js s) := by
  unfold createGroup MyChat.createGroup
  cases js.intAt (lit "id") with
  | none => rfl
  | some userid =>
    cases js.stringAt (lit "groupname") with
    | none => rfl
    | some name =>
      cases js.stringAt (lit "groupdesc") with
      | none => rfl
      | some desc =>
        cases js.intAt (lit "msgId") with
        | none => rfl
        | some msgId =>
          exact does_andThen (does_respond ..) (does_ackToClient _ _ _)

theorem does_addGroup (s : Server) :
    Does (addGroup codec conn js) s (MyChat.addGroup codec conn js s) := by
  unfold addGroup MyChat.addGroup
  cases js.intAt (lit "id") with
  | none => rfl
  | some userid =>
    cases js.intAt (lit "groupid") with
    | none => rfl
    | some groupid =>
      cases js.intAt (lit "msgId") with
      | none => rfl
      | some msgId =>
        exact does_andThen (does_respond ..) (does_ackToClient _ _ _)

theorem does_getHandler (msgid : Int32) (s : Server) :
    Does (getHandler codec my msgid conn js) s (MyChat.getHandler codec my msgid conn js s) := by
  unfold getHandler MyChat.getHandler
  cases handlerOf msgid with
  | none => rfl
  | some t =>
    cases t with
    | loginMsg => exact does_login ..
    | regMsg => exact does_reg ..
    | oneChatMsg => exact does_oneChat ..
    | addFriendMsg => exact does_addFriend ..
    | createGroupMsg => exact does_createGroup ..
    | addGroupMsg => exact does_addGroup ..
    | groupChatMsg => exact does_groupChat ..
    | logoutMsg => exact does_logout ..
    | _ => rfl

theorem does_handleJson (s : Server) :
    Does (handleJson codec my conn js) s (MyChat.handleJson (chatService codec my) conn js s) := by
  unfold handleJson MyChat.handleJson
  cases js.intAt (lit "msgid") with
  | none => rfl
  | some msgid => exact does_getHandler ..

theorem does_catchShutdown {p : ServerProg (Option Failure)} {r : Ret Server} (h : Does p s r) :
    Does (catchShutdown conn p) s (MyChat.catchShutdown (chatService codec my) conn r) := by
  rw [Does, catchShutdown, Prog.alone_bind, h]
  unfold MyChat.catchShutdown
  cases ht : r.thrown with
  | none => simp [out, ht]
  | some e => by_cases he : e.isException <;> simp [out, ht, he, ServerOp.perform, chatService]

/-- Every call of `onMessage`, on whatever was received. -/
theorem does_onMessage (evp : Evp) (buf : Bytes) (s : Server) :
    Does (onMessage codec evp my conn buf) s
      (MyChat.onMessage evp codec (chatService codec my) conn buf s) := by
  simp only [onMessage, MyChat.onMessage]
  refine does_ite rfl (does_ite ?_ ?_)
  · cases aes256CBCDecrypt evp (buf.drop MsgHeader.size) myAesKey with
    | error e => rfl
    | ok plain =>
      refine does_ite rfl ?_
      cases codec.parse plain with
      | none => rfl
      | some js => exact does_handleJson ..
  · refine does_catchShutdown codec my conn ?_
    cases codec.parse (buf.drop MsgHeader.size) with
    | none => rfl
    | some js => exact does_handleJson ..

theorem alone_dbWork {m : MySQL} {s s' : Server} (h : s.work m = some s') :
    (dbWork m).alone effects s = (none, s') := by
  simp only [Server.work] at h
  simp only [dbWork, Prog.alone_bind, alone_pop]
  cases hq : s.dbQueue with
  | nil => rw [hq] at h; cases h
  | cons opt rest =>
    rw [hq] at h
    simp only [List.head?_cons, List.tail_cons, Prog.alone_bind, alone_call, ServerOp.perform]
    cases hw : MyChat.dbWork m opt s.db with
    | ok db => simp only [hw] at h ⊢; cases h; rfl
    | error e => simp only [hw] at h ⊢; cases h; rfl

end

end MyChat.Threads
