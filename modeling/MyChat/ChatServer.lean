import MyChat.ChatService

/-! The connection callbacks of the server: one call of `onMessage` takes all
that is buffered for the connection. -/

namespace MyChat

/-- What `onMessage` uses of the service and of the connection. -/
structure Service (σ : Type) where
  shutdown : Conn → σ → σ
  handle : Int32 → Conn → Json → σ → Ret σ

/-- The chat service itself. -/
def chatService (codec : JsonCodec) (my : Nat → MySQL) : Service Server where
  shutdown := Server.shutdown
  handle := getHandler codec my

section
variable {σ : Type} (evp : Evp) (codec : JsonCodec) (svc : Service σ)

/-- `getHandler(js["msgid"].get<int>())`, and the call of what it returns. -/
def handleJson (conn : Conn) (js : Json) (s : σ) : Ret σ :=
  match js.intAt (lit "msgid") with
  | none => { state := s, thrown := some .typeError }
  | some msgid => svc.handle msgid conn js s

/-- A `catch (const std::exception &)` that shuts the connection down. -/
def catchShutdown (conn : Conn) (r : Ret σ) : Ret σ :=
  match r.thrown with
  | none => r
  | some e => if e.isException then { state := svc.shutdown conn r.state } else r

/-- The header's length field is not looked at: `buf` is everything received
so far. Only the branch for plain payloads guards the handler. -/
def onMessage (conn : Conn) (buf : Bytes) (s : σ) : Ret σ :=
  if buf.length < MsgHeader.size then { state := svc.shutdown conn s }
  else
    let header := MsgHeader.cast buf
    let payload := buf.drop MsgHeader.size
    if header.isEncrypted = 1 then
      match aes256CBCDecrypt evp payload myAesKey with
      | .error e => { state := s, thrown := some e }
      | .ok plain =>
          if plain = [] then { state := svc.shutdown conn s }
          else
            match codec.parse plain with
            | none => { state := svc.shutdown conn s }
            | some js => handleJson svc conn js s
    else
      catchShutdown svc conn <|
        match codec.parse payload with
        | none => { state := s, thrown := some .parseError }
        | some js => handleJson svc conn js s

/-- Successive calls for the chunks of a stream. An exception that leaves a
callback ends the process, and with it the run. -/
def receive (conn : Conn) : List Bytes → σ → Ret σ
  | [], s => { state := s }
  | buf :: bufs, s => (onMessage evp codec svc conn buf s).andThen (receive conn bufs)

end

/-- A disconnected client. -/
def onConnection (order : List Int32) (conn : Conn) (s : Server) : Server :=
  (clientCloseException order conn s).shutdown conn

end MyChat
