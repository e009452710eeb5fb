import Mathlib.Data.Finmap
import MyChat.Lib.Json
import MyChat.DbTask
import MyChat.Redis

/-! The service object: its state, the eight request handlers, the close
callback and the Redis callback, each as one step. Every model call of a step
has its own database outcome, numbered in the order of the calls. -/

namespace MyChat
open Json

abbrev Conn := Nat

/-- A frame written to a connection. `forUser` is the key of the map entry the
connection was taken from, none for the requester's own. -/
structure Sent where
  conn : Conn
  forUser : Option Int32
  frame : Frame
  deriving DecidableEq, Repr

/-- One server process with the database and Redis it shares with the others. -/
structure Server where
  self : Nat
  userConnMap : Finmap fun _ : Int32 => Conn
  dbQueue : List DbTaskArgs
  db : Database
  redis : Redis
  sent : List Sent
  shut : List Conn

namespace Server

/-- A server just started on a database, before any client connects. -/
def start (self : Nat) (db : Database) : Server where
  self := self
  userConnMap := ∅
  dbQueue := []
  db := db
  redis := Redis.empty
  sent := []
  shut := []

def send (conn : Conn) (frame : Frame) (s : Server) : Server :=
  { s with sent := s.sent ++ [⟨conn, none, frame⟩] }

/-- `it->second->send`, on the connection the map holds for `id`. -/
def sendTo (id : Int32) (conn : Conn) (frame : Frame) (s : Server) : Server :=
  { s with sent := s.sent ++ [⟨conn, some id, frame⟩] }

def push (t : DbTaskArgs) (s : Server) : Server := { s with dbQueue := s.dbQueue ++ [t] }

def shutdown (conn : Conn) (s : Server) : Server := { s with shut := s.shut ++ [conn] }

/-- `unordered_map::insert`: an entry that is there stays. -/
def mapInsert (id : Int32) (conn : Conn) (s : Server) : Server :=
  if id ∈ s.userConnMap then s else { s with userConnMap := s.userConnMap.insert id conn }

def mapErase (id : Int32) (s : Server) : Server :=
  { s with userConnMap := s.userConnMap.erase id }

/-- `subscribe` and `Set` of a login. -/
def redisOnline (id : Int32) (s : Server) : Server :=
  { s with redis := (s.redis.subscribe s.self id).set id }

/-- `unsubscribe` and `Delete` of a logout or a close. -/
def redisOffline (id : Int32) (s : Server) : Server :=
  { s with redis := (s.redis.unsubscribe s.self id).delete id }

def publish (id : Int32) (msg : Bytes) (s : Server) : Server :=
  { s with redis := s.redis.publish id msg }

def onHeartBeat (id : Int32) (s : Server) : Server := { s with redis := s.redis.set id }

end Server

def updateStateTask (userid : Int32) (state : Bytes) : DbTaskArgs :=
  { type := .updateUserState, userid := userid, state := state }

def offlineMsgTask (toid : Int32) (msg : Bytes) : DbTaskArgs :=
  { type := .insertOfflineMsg, toid := toid, msg := msg }

def encryptedMessageSvr (msg : Bytes) (msgType : Int32) (msgId : UInt32) : Frame :=
  { msgType := msgType.toUInt32, msgId := msgId, text := msg }

/-- How every handler frames a text. -/
def groupChatFrame (msg : Bytes) (msgId : Int32) : Frame :=
  encryptedMessageSvr msg EnMsgType.groupChatMsg.val msgId.toUInt32

def msgidField (t : EnMsgType) : String × Json := ("msgid", ofInt32 t.val)
def msgIdField (msgId : Int32) : String × Json := ("msgId", ofInt32 msgId)

section
variable (codec : JsonCodec)

/-- Serialises a reply and sends it to the requester. -/
def respond (conn : Conn) (response : Json) (msgId : Int32) (s : Server) : Ret Server :=
  match codec.dump response with
  | none => { state := s, thrown := some .invalidUtf8 }
  | some jsonStr => { state := s.send conn (groupChatFrame jsonStr msgId) }

def ackResponse (msgId : Int32) : Json := object [msgIdField msgId, msgidField .ackMsg]

def ackToClient (conn : Conn) (msgId : Int32) (s : Server) : Ret Server :=
  respond codec conn (ackResponse msgId) msgId s

/-! ## Login -/

/-- `dump` of every element, in order. -/
def dumpAll {α : Type} (entry : α → Option Bytes) : List α → Option (List Bytes)
  | [] => some []
  | a :: as => (entry a).bind fun t => (dumpAll entry as).map (t :: ·)

def friendEntry (user : User) : Option Bytes :=
  codec.dump (object
    [("id", ofInt32 user.id), ("name", .str user.name), ("state", .str user.state)])

def memberEntry (user : GroupUser) : Option Bytes :=
  codec.dump (object [("id", ofInt32 user.id), ("name", .str user.name), ("state", .str user.state),
    ("role", .str user.role)])

def groupEntry (group : Group) : Option Bytes :=
  (dumpAll (memberEntry codec) group.users).bind fun userV =>
    codec.dump (object [("id", ofInt32 group.id), ("groupname", .str group.name),
      ("groupdesc", .str group.desc), ("users", ofStrings userV)])

/-- A member of the reply that is set only for a non-empty list. -/
def optional (k : String) (v : List Bytes) : List (String × Json) :=
  if v = [] then [] else [(k, ofStrings v)]

def loginResponse (user : User) (msgId : Int32) (vec friends groups : List Bytes) : Json :=
  object ([msgidField .loginMsgAck, ("errno", ofInt32 0), ("id", ofInt32 user.id),
    ("name", .str user.name), msgIdField msgId] ++ optional "offlinemsg" vec ++
    optional "friends" friends ++ optional "groups" groups)

def loginRefusal (errno : Int32) (errmsg : String) (msgId : Int32) : Json :=
  object [msgidField .loginMsgAck, ("errno", ofInt32 errno), ("errmsg", .str (lit errmsg)),
    msgIdField msgId]

/-- Map, subscription, online key and the queued row update of a new session. -/
def openSession (conn : Conn) (id : Int32) (user : User) (s : Server) : Server :=
  ((s.mapInsert id conn).redisOnline id).push (updateStateTask user.id online)

/-- Reads the offline messages and removes them when there are any. -/
def takeOffline (my : Nat → MySQL) (id : Int32) (s : Server) : List Bytes × Server :=
  let vec := OfflineMsgModel.query (my 1) id s.db
  (vec, if vec = [] then s else { s with db := OfflineMsgModel.remove (my 2) id s.db })

/-- The friends and groups of the reply, serialised. -/
def loginView (my : Nat → MySQL) (id : Int32) (db : Database) : Option (List Bytes × List Bytes) :=
  (dumpAll (friendEntry codec) (FriendModel.query (my 3) id db)).bind fun friends =>
    (dumpAll (groupEntry codec) (GroupModel.queryGroups (my 4) id db)).map fun groups =>
      (friends, groups)

def loginAccepted (my : Nat → MySQL) (conn : Conn) (id : Int32) (user : User) (msgId : Int32)
    (s : Server) : Ret Server :=
  let (vec, s) := takeOffline my id (openSession conn id user s)
  match loginView codec my id s.db with
  | none => { state := s, thrown := some .invalidUtf8 }
  | some (friends, groups) =>
      respond codec conn (loginResponse user msgId vec friends groups) msgId s

def login (my : Nat → MySQL) (conn : Conn) (js : Json) (s : Server) : Ret Server :=
  match js.intAt (lit "id"), js.stringAt (lit "password"), js.intAt (lit "msgId") with
  | some id, some pwd, some msgId =>
      let user := UserModel.query (my 0) id s.db
      let r :=
        if user.id = id ∧ user.password = pwd then
          if user.state = online then
            respond codec conn (loginRefusal 2 "该帐号已登陆" msgId) msgId s
          else loginAccepted codec my conn id user msgId s
        else respond codec conn (loginRefusal 1 "用户名或密码错误" msgId) msgId s
      r.andThen (ackToClient codec conn msgId)
  | _, _, _ => { state := s, thrown := some .typeError }

/-! ## Registration and logout -/

def regResponse (id msgId : Int32) : Json :=
  object [msgidField .regMsgAck, ("errno", ofInt32 0), ("id", ofInt32 id), msgIdField msgId]

def reg (my : Nat → MySQL) (conn : Conn) (js : Json) (s : Server) : Ret Server :=
  match js.stringAt (lit "name"), js.stringAt (lit "password"), js.intAt (lit "msgId") with
  | some name, some pwd, some msgId =>
      match UserModel.insert (my 0) { name := name, password := pwd } s.db with
      | .error e => { state := s, thrown := some e }
      | .ok (db, some id) =>
          (respond codec conn (regResponse id msgId) msgId { s with db := db }).andThen
            (ackToClient codec conn msgId)
      -- the failure reply is built but the request itself is what gets dumped
      | .ok (db, none) =>
          (respond codec conn js msgId { s with db := db }).andThen (ackToClient codec conn msgId)
  | _, _, _ => { state := s, thrown := some .typeError }

/-- `order` is the iteration order of the hash map: the first entry of the
connection is the one that goes. Without one the default id -1 stands for it. -/
def clientCloseException (order : List Int32) (conn : Conn) (s : Server) : Server :=
  let found := order.find? fun id => s.userConnMap.lookup id = some conn
  let id := found.getD (-1)
  let s := (if found.isSome then s.mapErase id else s).redisOffline id
  if id ≠ -1 then s.push (updateStateTask id offline) else s

/-- What SIGINT leads to before the process exits. -/
def reset (my : MySQL) (s : Server) : Server := { s with db := UserModel.resetState my s.db }

def logout (conn : Conn) (js : Json) (s : Server) : Ret Server :=
  match js.intAt (lit "id"), js.intAt (lit "msgId") with
  | some userid, some msgId =>
      ackToClient codec conn msgId
        (((s.mapErase userid).redisOffline userid).push (updateStateTask userid offline))
  | _, _ => { state := s, thrown := some .typeError }

/-! ## Chats -/

def oneChat (my : Nat → MySQL) (conn : Conn) (js : Json) (s : Server) : Ret Server :=
  match js.intAt (lit "toid"), js.intAt (lit "msgId") with
  | some toid, some msgId =>
      match codec.dump js with
      | none => { state := s, thrown := some .invalidUtf8 }
      | some jsonStr =>
          match s.userConnMap.lookup toid with
          | some toConn =>
              ackToClient codec conn msgId (s.sendTo toid toConn (groupChatFrame jsonStr msgId))
          | none =>
              if s.redis.get toid then { state := s.publish toid jsonStr }
              else
                let user := UserModel.query (my 0) toid s.db
                if user.state = online then { state := s.publish toid jsonStr }
                else ackToClient codec conn msgId (s.push (offlineMsgTask user.id jsonStr))
  | _, _ => { state := s, thrown := some .typeError }

/-- The loop body of a group chat, for one member. -/
def routeMember (my : MySQL) (jsonStr : Bytes) (msgId : Int32) (id : Int32) (s : Server) : Server :=
  match s.userConnMap.lookup id with
  | some toConn => s.sendTo id toConn (groupChatFrame jsonStr msgId)
  | none =>
      if (UserModel.query my id s.db).state = online then s.publish id jsonStr
      else s.push (offlineMsgTask id jsonStr)

/-- The loop over the members; the first one uses database outcome `k`. -/
def routeMembers (my : Nat → MySQL) (jsonStr : Bytes) (msgId : Int32) :
    Nat → List Int32 → Server → Server
  | _, [], s => s
  | k, id :: ids, s =>
      routeMembers my jsonStr msgId (k + 1) ids (routeMember (my k) jsonStr msgId id s)

def groupChat (my : Nat → MySQL) (conn : Conn) (js : Json) (s : Server) : Ret Server :=
  match js.intAt (lit "id"), js.intAt (lit "groupid"), js.intAt (lit "msgId") with
  | some userid, some groupid, some msgId =>
      match codec.dump js with
      | none => { state := s, thrown := some .invalidUtf8 }
      | some jsonStr =>
          let useridVec := GroupModel.queryGroupUsers (my 0) userid groupid s.db
          ackToClient codec conn msgId (routeMembers my jsonStr msgId 1 useridVec s)
  | _, _, _ => { state := s, thrown := some .typeError }

/-- The observer thread's callback for a message on channel `userid`. -/
def handleRedisSubscribeMessage (my : MySQL) (userid : Int32) (msg : Bytes) (s : Server) :
    Ret Server :=
  match s.userConnMap.lookup userid with
  | some conn =>
      let s := s.onHeartBeat userid
      match codec.parse msg with
      | none => { state := s, thrown := some .parseError }
      | some js =>
          match js.intAt (lit "msgId"), (js.index (lit "msgid")).bind getEnum with
          | some msgId, some msgid =>
              match codec.dump js with
              | none => { state := s, thrown := some .invalidUtf8 }
              | some jsonStr =>
                  { state := s.sendTo userid conn
                      (encryptedMessageSvr jsonStr msgid msgId.toUInt32) }
          | _, _ => { state := s, thrown := some .typeError }
  | none =>
      match OfflineMsgModel.insert my userid msg s.db with
      | .error e => { state := s, thrown := some e }
      | .ok db => { state := { s with db := db } }

/-! ## Friends and groups -/

def addFriend (conn : Conn) (js : Json) (s : Server) : Ret Server :=
  match js.intAt (lit "id"), js.intAt (lit "friendid"), js.intAt (lit "msgId") with
  | some userid, some friendid, some msgId =>
      ackToClient codec conn msgId
        (s.push { type := .addFriend, userid := userid, friendid := friendid })
  | _, _, _ => { state := s, thrown := some .typeError }

def groupResponse (t : EnMsgType) (desc : String) (msgId : Int32) : Json :=
  object [msgidField t, ("errno", ofInt32 0), ("desc", .str (lit desc)), msgIdField msgId]

/-- The membership row is written here, with the id of a group object that the
database has not seen. -/
def createGroup (my : Nat → MySQL) (conn : Conn) (js : Json) (s : Server) : Ret Server :=
  match js.intAt (lit "id"), js.stringAt (lit "groupname"), js.stringAt (lit "groupdesc"),
      js.intAt (lit "msgId") with
  | some userid, some name, some desc, some msgId =>
      let group : Group := { id := -1, name := name, desc := desc }
      let s := s.push { type := .createGroup, name := name, desc := desc }
      let s := { s with db := (GroupModel.addGroup (my 0) userid group.id (lit "creator") s.db).1 }
      (respond codec conn (groupResponse .createGroupMsgAck "群组创建成功" msgId) msgId s).andThen
        (ackToClient codec conn msgId)
  | _, _, _, _ => { state := s, thrown := some .typeError }

def addGroup (conn : Conn) (js : Json) (s : Server) : Ret Server :=
  match js.intAt (lit "id"), js.intAt (lit "groupid"), js.intAt (lit "msgId") with
  | some userid, some groupid, some msgId =>
      let s := s.push { type := .addGroupUser, userid := userid, groupid := groupid }
      (respond codec conn (groupResponse .addGroupMsgAck "入群成功" msgId) msgId s).andThen
        (ackToClient codec conn msgId)
  | _, _, _ => { state := s, thrown := some .typeError }

/-! ## Dispatch -/

/-- The message types that have a handler. -/
def handlerOf (msgid : Int32) : Option EnMsgType :=
  [EnMsgType.loginMsg, .regMsg, .oneChatMsg, .addFriendMsg, .createGroupMsg, .addGroupMsg,
    .groupChatMsg, .logoutMsg].find? fun t => t.val = msgid

/-- A message type without a handler is logged and nothing else. -/
def getHandler (my : Nat → MySQL) (msgid : Int32) (conn : Conn) (js : Json) (s : Server) :
    Ret Server :=
  match handlerOf msgid with
  | some .loginMsg => login codec my conn js s
  | some .regMsg => reg codec my conn js s
  | some .oneChatMsg => oneChat codec my conn js s
  | some .addFriendMsg => addFriend codec conn js s
  | some .createGroupMsg => createGroup codec my conn js s
  | some .addGroupMsg => addGroup codec conn js s
  | some .groupChatMsg => groupChat codec my conn js s
  | some .logoutMsg => logout codec conn js s
  | _ => { state := s }

end

end MyChat
