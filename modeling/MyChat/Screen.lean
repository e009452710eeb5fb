import MyChat.ChatHistory
import MyChat.CommandLines
import MyChat.RoundTrip

/-! From the line that one user types to the line that another one sees. What is
on the screen is the sender's own id and name, the time and the message, whether
the chat comes in a frame or among the offline messages of a login. -/

namespace MyChat
open Json

/-! ## What a chat looks like -/

/-- `js[k]` put on a stream: the text of the member. -/
def streamed (codec : JsonCodec) (js : Json) (k : String) : Bytes :=
  codec.text ((js.index (lit k)).getD .null)

/-- A member shown as a string, empty where there is none. -/
def shownString (js : Json) (k : String) : Bytes := (js.stringAt (lit k)).getD []

/-- The line on the screen, the same for both ways that a chat comes. -/
def screenLine (codec : JsonCodec) (e : Shown) : Bytes :=
  (if e.msgtype = EnMsgType.groupChatMsg.val then
    lit "群消息[" ++ streamed codec e.js "groupid" ++ lit "]: "
    else []) ++
    shownString e.js "time" ++ lit " [" ++ streamed codec e.js "id" ++ lit "]" ++
    shownString e.js "name" ++
    lit ": " ++ shownString e.js "msg" ++ lit "\n"

/-- The chats on the screen for one message. -/
def screen (codec : JsonCodec) (message : Bytes) (g : Globals) : List Bytes :=
  (shownBy codec message g).map (screenLine codec)

/-- The receiver sees the line: as all there is to a frame, or among what a
login shows, if no other message of the list throws. -/
def Displays (codec : JsonCodec) : Arrival → Bytes → Bytes → Prop
  | .frame, text, line => ∀ g, screen codec text g = [line]
  | .offlinemsg, text, line => ∀ (my : Nat → MySQL) (id : Int32) (user : User) (msgId : Int32)
      (db : Database) (response : Json) (g : Globals),
      loginReply codec my id user msgId db = some response → response.utf8 →
      text ∈ OfflineMsgModel.query (my 1) id db →
      (∀ t ∈ OfflineMsgModel.query (my 1) id db, t ≠ text →
        Except.failure (showOfflineMsg codec t) = none) →
      line ∈ screen codec (codec.text response) g

variable {codec : JsonCodec}

/-! ## The two ways -/

/-- The members of a chat as `chat` and `groupchat` write them. -/
def sentFields (key : String) (peer : Int32) (user : User) (time msg : Bytes) :
    List (String × Json) :=
  [("id", ofInt32 user.id), ("name", .str user.name), (key, ofInt32 peer), ("msg", .str msg),
    ("time", .str time)]

structure ChatMembers (js : Json) (t : EnMsgType) (key : String) (peer : Int32) (user : User)
    (time msg : Bytes) :
    Prop where
  type : js.intAt (lit "msgid") = some t.val
  members : ∀ f ∈ sentFields key peer user time msg, js.index (lit f.1) = some f.2

/-- What the receiver is to see of it. -/
def chatLine (codec : JsonCodec) (t : EnMsgType) (peer : Int32) (user : User) (time msg : Bytes) :
    Bytes :=
  (if t = .groupChatMsg then lit "群消息[" ++ codec.text (ofInt32 peer) ++ lit "]: " else []) ++
    time ++ lit " [" ++ codec.text (ofInt32 user.id) ++ lit "]" ++ user.name ++ lit ": " ++ msg ++
    lit "\n"

namespace ChatMembers

variable {js : Json} {t : EnMsgType} {key : String} {peer : Int32} {user : User} {time msg : Bytes}

theorem id (h : ChatMembers js t key peer user time msg) :
    js.index (lit "id") = some (ofInt32 user.id) :=
  h.members ("id", ofInt32 user.id) (by simp [sentFields])

theorem name (h : ChatMembers js t key peer user time msg) :
    js.index (lit "name") = some (.str user.name) :=
  h.members ("name", .str user.name) (by simp [sentFields])

end ChatMembers

namespace Menus

variable {evp : Evp} {o : Outside} {s : Menus}

/-- The next iteration of `mainMenu` calls `encryptedMessage` once. With an IV, a
cipher that takes the text and a `send` that succeeds, its frame is on the socket
and runs the handler of the chat at any server. Whichever way a server passes the
chat on to a receiver, from whatever state, the receiver sees who sent it, when,
and what. -/
def Reaches (codec : JsonCodec) (evp : Evp) (s : Menus) (o : Outside) (t : EnMsgType)
    (peer : Int32) (msg : Bytes) : Prop :=
  ∃ s' r js, s.step codec evp (.command o) = some s' ∧ s'.requests = s.requests ++ [r] ∧
    codec.parse r.text = some js ∧
    (∀ iv, o.iv = some iv → (evp.encrypt myAesKey iv.val r.text).isSome → o.sends →
      ∃ data, s'.client.table.wire = s.client.table.wire ++ [data] ∧
        ∀ my conn srv, onMessage evp codec (chatService codec my) conn data srv =
          getHandler codec my t.val conn js srv) ∧
    ∀ my conn srv way text, Arrives codec my t.val conn js srv way text →
      Displays codec way text
        (chatLine codec t peer s.client.globals.currentUser (getCurrentTime o.tm) msg)

end Menus

end MyChat
