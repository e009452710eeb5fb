import MyChat.Lib.Json
import MyChat.Encrypt

/-! The client's receiving thread: one turn of its loop for what one `recv`
returned. -/

namespace MyChat
open Json

section
variable {σ : Type} (evp : Evp) (codec : JsonCodec) (process : Json → σ → Ret σ)

def recvMax : Nat := 4096

/-- `buf.substr(sizeof(MsgHeader), msgLength - sizeof(MsgHeader))`. A length
below the header's wraps to the rest of the buffer. -/
def payloadOf (header : MsgHeader) (buf : Bytes) : Bytes :=
  if header.msgLength.toNat < MsgHeader.size then buf.drop MsgHeader.size
  else (buf.drop MsgHeader.size).take (header.msgLength.toNat - MsgHeader.size)

/-- The loop body. What `buf` holds beyond the first frame is dropped. -/
def readTask (buf : Bytes) (s : σ) : Ret σ :=
  if buf.length < MsgHeader.size then { state := s, thrown := some .exit }
  else
    let header := MsgHeader.cast buf
    if buf.length < header.msgLength.toNat then { state := s, thrown := some .exit }
    else
      let payload := payloadOf header buf
      let message :=
        if header.isEncrypted = 1 then aes256CBCDecrypt evp payload myAesKey else .ok payload
      match message with
      | .error e => { state := s, thrown := some e }
      | .ok message =>
          match codec.parse message with
          | none => { state := s, thrown := some .parseError }
          | some js => process js s

/-- The loop over successive `recv` results, until the client stops. -/
def readTaskHandler : List Bytes → σ → Ret σ
  | [], s => { state := s }
  | buf :: bufs, s => (readTask evp codec process buf s).andThen (readTaskHandler bufs)

end

end MyChat
