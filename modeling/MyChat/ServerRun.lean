import MyChat.Lib.Machine
import MyChat.ChatServer
import MyChat.Handlers

/-! One server as a machine: handlers, connection closes, Redis deliveries, key
expiries and worker turns, each one step, in any order. -/

namespace MyChat

inductive ServerStep
  /-- A handler runs on a JSON value that arrived on a connection. -/
  | request (my : Nat → MySQL) (msgid : Int32) (conn : Conn) (js : Json)
  /-- A connection closes; `order` is how the connection map iterates. -/
  | close (order : List Int32) (conn : Conn)
  /-- The observer thread hands over a message of a channel. -/
  | deliver (my : MySQL) (userid : Int32) (msg : Bytes)
  /-- An online key runs out. -/
  | expire (id : Int32)
  /-- The worker applies the next task. -/
  | work (my : MySQL)

namespace Server

def expire (id : Int32) (s : Server) : Server := { s with redis := s.redis.delete id }

def work (my : MySQL) (s : Server) : Option Server :=
  match s.dbQueue with
  | [] => none
  | opt :: rest =>
      match dbWork my opt s.db with
      | .ok db => some { s with dbQueue := rest, db := db }
      | .error _ => some { s with dbQueue := rest }

/-- The observer thread takes the `k`-th pending delivery, one for this server. -/
def observe (codec : JsonCodec) (my : MySQL) (k : Nat) (s : Server) : Option Server :=
  match s.redis.inbox[k]? with
  | none => none
  | some d =>
      if d.server = s.self then
        some (handleRedisSubscribeMessage codec my d.channel d.message
          { s with redis := s.redis.take k }).state
      else none

def apply (codec : JsonCodec) (s : Server) : ServerStep → Option Server
  | .request my msgid conn js => some (getHandler codec my msgid conn js s).state
  | .close order conn =>
      if order.toFinset = s.userConnMap.keys then some (onConnection order conn s) else none
  | .deliver my userid msg => some (handleRedisSubscribeMessage codec my userid msg s).state
  | .expire id => some (s.expire id)
  | .work my => s.work my

/-- The machine, from the given initial states. -/
def machine (codec : JsonCodec) (init : Server → Prop) : Machine Server ServerStep where
  init := init
  step := apply codec

end Server

/-- Every database operation of the step succeeds. -/
def ServerStep.succeeds : ServerStep → Prop
  | .request my _ _ _ => ∀ k, my k = MySQL.up
  | .close _ _ => True
  | .deliver my _ _ => my = MySQL.up
  | .expire _ => True
  | .work my => my = MySQL.up

/-! ## Sample requests

As the client builds them, all with message id 7. -/

namespace Sample
open Json

def fields (t : EnMsgType) (fs : List (String × Json)) : Json :=
  object (("msgid", ofInt32 t.val) :: ("msgId", ofInt32 7) :: fs)

def reg (name : String) : Json :=
  fields .regMsg [("name", .str (lit name)), ("password", .str (lit "pw"))]

def login (id : Int32) : Json :=
  fields .loginMsg [("id", ofInt32 id), ("password", .str (lit "pw"))]

def logout (id : Int32) : Json := fields .logoutMsg [("id", ofInt32 id)]

def chat (id toid : Int32) : Json :=
  fields .oneChatMsg [("id", ofInt32 id), ("name", .str (lit "a")), ("toid", ofInt32 toid),
    ("msg", .str (lit "hi")), ("time", .str (lit "2025-01-01 00:00:00"))]

def createGroup (id : Int32) : Json :=
  fields .createGroupMsg
    [("id", ofInt32 id), ("groupname", .str (lit "g")), ("groupdesc", .str (lit "d"))]

/-- The request as a step, with the database up. -/
def step (t : EnMsgType) (conn : Conn) (js : Json) : ServerStep :=
  .request (fun _ => MySQL.up) t.val conn js

/-- Users 1 and 2 register. -/
def registered : List ServerStep :=
  [step .regMsg 1 (reg "a"), step .regMsg 2 (reg "b")]

theorem reg_fields (name : String) : RegFields (reg name) (lit name) (lit "pw") 7 := by
  constructor <;> simp [reg, fields, intAt_lit, stringAt_lit, Json.getString]

theorem login_fields (id : Int32) : LoginFields (login id) id (lit "pw") 7 := by
  constructor <;> simp [login, fields, intAt_lit, stringAt_lit, Json.getString]

theorem chat_fields (id toid : Int32) : ChatFields (chat id toid) toid 7 := by
  constructor <;> simp [chat, fields, intAt_lit]

theorem createGroup_fields (id : Int32) :
    CreateFields (createGroup id) id (lit "g") (lit "d") 7 := by
  constructor <;> simp [createGroup, fields, intAt_lit, stringAt_lit, Json.getString]

end Sample

end MyChat
