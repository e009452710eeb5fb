import MyChat.Lib.Bytes

/-! What client and server share: message types and the frame header. -/

namespace MyChat

inductive EnMsgType
  | loginMsg
  | logoutMsg
  | loginMsgAck
  | regMsg
  | regMsgAck
  | oneChatMsg
  | addFriendMsg
  | createGroupMsg
  | addGroupMsg
  | groupChatMsg
  | createGroupMsgAck
  | addGroupMsgAck
  | ackMsg
  deriving DecidableEq, Repr

/-- The enumeration's numbers: consecutive from 1, and 102 for the ACK. -/
def EnMsgType.val : EnMsgType → Int32
  | loginMsg => 1
  | logoutMsg => 2
  | loginMsgAck => 3
  | regMsg => 4
  | regMsgAck => 5
  | oneChatMsg => 6
  | addFriendMsg => 7
  | createGroupMsg => 8
  | addGroupMsg => 9
  | groupChatMsg => 10
  | createGroupMsgAck => 11
  | addGroupMsgAck => 12
  | ackMsg => 102

def retryMax : Nat := 3

def myAesKey : Bytes := lit "1234567890ABCDEF1234567890ABCDEF"

/-- The frame header, four little-endian words. -/
structure MsgHeader where
  msgLength : UInt32
  msgType : UInt32
  msgId : UInt32
  isEncrypted : UInt32
  deriving DecidableEq, Repr

namespace MsgHeader

/-- `sizeof(MsgHeader)`. -/
def size : Nat := 16

def bytes (h : MsgHeader) : Bytes :=
  encodeU32 h.msgLength ++ (encodeU32 h.msgType ++ (encodeU32 h.msgId ++ encodeU32 h.isEncrypted))

/-- The cast of a buffer's first 16 bytes. -/
def cast (buf : Bytes) : MsgHeader where
  msgLength := decodeU32 buf
  msgType := decodeU32 (buf.drop 4)
  msgId := decodeU32 (buf.drop 8)
  isEncrypted := decodeU32 (buf.drop 12)

@[simp] theorem bytes_length (h : MsgHeader) : h.bytes.length = size := rfl

@[simp] theorem cast_bytes (h : MsgHeader) (rest : Bytes) : cast (h.bytes ++ rest) = h := by
  have h4 : (h.bytes ++ rest).drop 4 =
      encodeU32 h.msgType ++ (encodeU32 h.msgId ++ (encodeU32 h.isEncrypted ++ rest)) := rfl
  have h8 : (h.bytes ++ rest).drop 8 =
      encodeU32 h.msgId ++ (encodeU32 h.isEncrypted ++ rest) := rfl
  have h12 : (h.bytes ++ rest).drop 12 = encodeU32 h.isEncrypted ++ rest := rfl
  simp only [cast, h4, h8, h12, decodeU32_encodeU32]
  rw [bytes, List.append_assoc, decodeU32_encodeU32]

@[simp] theorem drop_bytes (h : MsgHeader) (rest : Bytes) : (h.bytes ++ rest).drop size = rest :=
  rfl

end MsgHeader

end MyChat
