import MyChat.Database
import MyChat.Retry

/-! What the client's receiving thread does with one message: the globals that a
login reply fills, and the conversions on the way, each of which may throw. What
is shown on the screen or written to the local history is left out. -/

namespace MyChat
open Json

/-! ## Reading members -/

/-- `get` on the member `k`, guarded by `contains(k) && !is_null()`. -/
def guardedAt {α : Type} (get : Json → Option α) (j : Json) (k : String) :
    Except Failure (Option α) :=
  match j.index (lit k) with
  | none => .ok none
  | some v =>
      if v.isNull then .ok none
      else
        match get v with
        | none => .error .typeError
        | some a => .ok (some a)

/-- `get` on the member `k`, not guarded. -/
def getAt {α : Type} (get : Json → Option α) (j : Json) (k : String) : Except Failure α :=
  match (j.index (lit k)).bind get with
  | none => .error .typeError
  | some a => .ok a

/-- `get<vector<string>>()`. -/
def Json.getStrings : Json → Option (List Bytes)
  | arr xs => xs.mapM getString
  | _ => none

def parseText (codec : JsonCodec) (str : Bytes) : Except Failure Json :=
  match codec.parse str with
  | none => .error .parseError
  | some js => .ok js

/-- A loop that pushes what it reads, up to the first failure. -/
def readEach {α : Type} (read : Bytes → Except Failure α) : List Bytes → List α × Option Failure
  | [] => ([], none)
  | s :: vec =>
      match read s with
      | .error e => ([], some e)
      | .ok a => (a :: (readEach read vec).1, (readEach read vec).2)

/-! ## The login reply -/

/-- `g_currentUser`, `g_currentUserFriendList`, `g_currentUserGroupList` and
`g_isLoginSuccess`. -/
structure Globals where
  currentUser : User := {}
  currentUserFriendList : List User := []
  currentUserGroupList : List Group := []
  isLoginSuccess : Bool := false
  deriving DecidableEq, Repr

section
variable (codec : JsonCodec)

def readFriend (str : Bytes) : Except Failure User := do
  let js ← parseText codec str
  let id ← guardedAt getInt js "id"
  let name ← guardedAt getString js "name"
  let state ← guardedAt getString js "state"
  return { id := id.getD (-1), name := name.getD [], state := state.getD offline }

def readMember (userstr : Bytes) : Except Failure GroupUser := do
  let js ← parseText codec userstr
  let id ← guardedAt getInt js "id"
  let name ← guardedAt getString js "name"
  let state ← guardedAt getString js "state"
  let role ← guardedAt getString js "role"
  return {
    id := id.getD (-1)
    name := name.getD []
    state := state.getD offline
    role := role.getD [] }

def readGroup (groupstr : Bytes) : Except Failure Group := do
  let groupjs ← parseText codec groupstr
  let id ← guardedAt getInt groupjs "id"
  let name ← guardedAt getString groupjs "groupname"
  let desc ← guardedAt getString groupjs "groupdesc"
  let vec2 ← guardedAt getStrings groupjs "users"
  let users ← (vec2.getD []).mapM (readMember codec)
  return { id := id.getD (-1), name := name.getD [], desc := desc.getD [], users := users }

/-- The loop body over the offline messages: only the conversions matter here. -/
def showOfflineMsg (str : Bytes) : Except Failure Unit := do
  let js ← parseText codec str
  let msgtype ← guardedAt getInt js "msgid"
  if msgtype = some EnMsgType.oneChatMsg.val ∨ msgtype = some EnMsgType.groupChatMsg.val then
    let _ ← guardedAt getString js "time"
    let _ ← guardedAt getString js "name"
    let _ ← guardedAt getString js "msg"

/-- Id and name of the current user. -/
def setCurrentUser (responsejs : Json) (g : Globals) : Ret Globals :=
  match getAt getInt responsejs "id" with
  | .error e => { state := g, thrown := some e }
  | .ok id =>
      let g := { g with currentUser := { g.currentUser with id := id } }
      match guardedAt getString responsejs "name" with
      | .error e => { state := g, thrown := some e }
      | .ok name =>
          { state := { g with currentUser := { g.currentUser with name := name.getD [] } } }

/-- The list is cleared only when the reply carries one. -/
def setFriendList (responsejs : Json) (g : Globals) : Ret Globals :=
  match guardedAt getStrings responsejs "friends" with
  | .error e => { state := { g with currentUserFriendList := [] }, thrown := some e }
  | .ok none => { state := g }
  | .ok (some vec) =>
      { state := { g with currentUserFriendList := (readEach (readFriend codec) vec).1 }
        thrown := (readEach (readFriend codec) vec).2 }

def setGroupList (responsejs : Json) (g : Globals) : Ret Globals :=
  match guardedAt getStrings responsejs "groups" with
  | .error e => { state := { g with currentUserGroupList := [] }, thrown := some e }
  | .ok none => { state := g }
  | .ok (some vec1) =>
      { state := { g with currentUserGroupList := (readEach (readGroup codec) vec1).1 }
        thrown := (readEach (readGroup codec) vec1).2 }

def showOffline (responsejs : Json) (g : Globals) : Ret Globals :=
  match guardedAt getStrings responsejs "offlinemsg" with
  | .error e => { state := g, thrown := some e }
  | .ok vec => { state := g, thrown := (readEach (showOfflineMsg codec) (vec.getD [])).2 }

def doLoginResponse (responsejs : Json) (g : Globals) : Ret Globals :=
  match getAt getInt responsejs "errno" with
  | .error e => { state := g, thrown := some e }
  | .ok errno =>
      if errno ≠ 0 then { state := { g with isLoginSuccess := false } }
      else
        ((((setCurrentUser responsejs g).andThen (setFriendList codec responsejs)).andThen
          (setGroupList codec responsejs)).andThen (showOffline codec responsejs)).andThen
            fun g => { state := { g with isLoginSuccess := true } }

/-- It only shows the outcome. -/
def doRegResponse (responsejs : Json) : Option Failure :=
  match getAt getInt responsejs "errno" with
  | .error e => some e
  | .ok _ => none

end

/-! ## The loop body of the receiving thread -/

/-- What the receiving thread writes: the table of waiting frames, the globals,
and the semaphore's count. -/
structure ClientState (α : Type) where
  table : Client α
  globals : Globals
  rwsem : Nat

/-- The conversions of a chat that is shown and put into the local history. -/
def showChat (js : Json) (receiver : String) : Except Failure Unit := do
  let _ ← getAt getString js "time"
  let _ ← getAt getString js "name"
  let _ ← getAt getString js "msg"
  let _ ← getAt getInt js "id"
  let _ ← getAt getInt js receiver

def Except.failure {α : Type} : Except Failure α → Option Failure
  | .error e => some e
  | .ok _ => none

/-- From the parsed message to `continue`. -/
def readMessage {α : Type} (codec : JsonCodec) (js : Json) (c : ClientState α) :
    Ret (ClientState α) :=
  match ackOf js, js.intAt (lit "msgid") with
  | .ok ack, some msgtype =>
      let c := match ack with
        | none => c
        | some msgId => { c with table := c.table.onReceiveAck msgId }
      if msgtype = EnMsgType.oneChatMsg.val then
        { state := c, thrown := Except.failure (showChat js "toid") }
      else if msgtype = EnMsgType.groupChatMsg.val then
        { state := c, thrown := Except.failure (showChat js "groupid") }
      else if msgtype = EnMsgType.loginMsgAck.val then
        let r := doLoginResponse codec js c.globals
        { state := { c with
            globals := r.state
            rwsem := if r.thrown = none then c.rwsem + 1 else c.rwsem }
          thrown := r.thrown }
      else if msgtype = EnMsgType.regMsgAck.val then
        { state := { c with rwsem := if doRegResponse js = none then c.rwsem + 1 else c.rwsem }
          thrown := doRegResponse js }
      else { state := c }
  | .error e, _ => { state := c, thrown := some e }
  | _, none => { state := c, thrown := some .typeError }

/-- A message as decrypted, up to `continue`. -/
def readText {α : Type} (codec : JsonCodec) (message : Bytes) (c : ClientState α) :
    Ret (ClientState α) :=
  match codec.parse message with
  | none => { state := c, thrown := some .parseError }
  | some js => readMessage codec js c

end MyChat
