import MyChat.Reassembly
import MyChat.Retry

/-! One frame, delivered alone, at either end: header, length and plaintext. -/

namespace MyChat
open Json

/-- The bytes carry the frame: its header with the length of the whole, which
follows from that of the text alone. -/
structure CarriesFrame (f : Frame) (data : Bytes) : Prop where
  msgType : (MsgHeader.cast data).msgType = f.msgType
  msgId : (MsgHeader.cast data).msgId = f.msgId
  isEncrypted : (MsgHeader.cast data).isEncrypted = 1
  length : data.length = 16 + 16 + 16 * (f.text.length / 16 + 1)
  msgLength : data.length < 2 ^ 32 → (MsgHeader.cast data).msgLength.toNat = data.length

variable {evp : Evp}

theorem Sealed.carries (h : evp.Lawful) (f : Sealed evp) : CarriesFrame f.toFrame f.bytes := by
  have hcast : MsgHeader.cast f.bytes = f.header f.cipher := MsgHeader.cast_bytes _ _
  refine ⟨by rw [hcast]; rfl, by rw [hcast]; rfl, by rw [hcast]; rfl, ?_, fun hlt => ?_⟩
  · exact f.bytes_length h
  · exact msgLength_eq f hlt f.cipher

/-- Both ends make a frame exactly when they have an IV and the cipher takes the
text. What `encryptedMessage` writes, the server reads; what `encryptedMessage_Svr`
makes, the client reads as one `recv`. -/
structure RoundTrips (evp : Evp) (p : Bytes) (msgType : EnMsgType) (msgId : UInt32) : Prop where
  sends : ∀ (iv : Option Iv) (now : Int) (c : Client Bytes),
    (Client.encryptedMessage evp iv p msgType now true msgId c).2 = true ↔
      ∃ i, iv = some i ∧ (evp.encrypt myAesKey i.val p).isSome
  makes : ∀ (iv : Option Iv), (encryptedMessageSvr p msgType.val msgId).wire evp iv ≠ [] ↔
    ∃ i, iv = some i ∧ (evp.encrypt myAesKey i.val p).isSome
  toServer : ∀ (iv : Option Iv) (now : Int) (c : Client Bytes),
    (Client.encryptedMessage evp iv p msgType now true msgId c).2 = true →
    ∃ data, (Client.encryptedMessage evp iv p msgType now true msgId c).1.wire =
        c.wire ++ [data] ∧
      CarriesFrame ⟨msgType.val.toUInt32, msgId, p⟩ data ∧
      ∀ {σ : Type} (codec : JsonCodec) (svc : Service σ) (conn : Conn) (s : σ),
        onMessage evp codec svc conn data s = onPlain codec svc conn p s
  toClient : ∀ (iv : Option Iv) (data : Bytes),
    (encryptedMessageSvr p msgType.val msgId).wire evp iv = data → data ≠ [] →
    CarriesFrame ⟨msgType.val.toUInt32, msgId, p⟩ data ∧
      (data.length ≤ recvMax → ∀ {σ : Type} (codec : JsonCodec) (process : Json → σ → Ret σ)
        (s : σ), readTask evp codec process data s = readPlain codec process p s)

/-- A frame has bytes exactly when its encryption succeeds. -/
theorem wire_ne_nil_iff (iv : Option Iv) (f : Frame) :
    f.wire evp iv ≠ [] ↔ ∃ i, iv = some i ∧ (evp.encrypt myAesKey i.val f.text).isSome := by
  constructor
  · intro hne
    cases iv with
    | none => exact absurd rfl hne
    | some i =>
      refine ⟨i, rfl, ?_⟩
      cases henc : evp.encrypt myAesKey i.val f.text with
      | none => exact absurd (by simp [Frame.wire, aes256CBCEncrypt, henc]) hne
      | some out => rfl
  · rintro ⟨i, rfl, henc⟩
    obtain ⟨out, henc⟩ := Option.isSome_iff_exists.mp henc
    have hcipher : aes256CBCEncrypt evp (some i) f.text myAesKey ≠ [] := by
      simp only [aes256CBCEncrypt, henc]
      intro hnil
      have hlen := congrArg List.length hnil
      rw [List.length_append, i.property] at hlen
      simp at hlen
    rw [Frame.wire]
    simp only [if_neg hcipher]
    exact fun hnil => hcipher (List.append_eq_nil_iff.mp hnil).2

/-- A frame with bytes is sealed, and a `send` that succeeds puts it on the socket. -/
theorem encryptedMessage_writes {iv : Option Iv} {p : Bytes} {msgType : EnMsgType} {msgId : UInt32}
    (hne : Frame.wire evp iv ⟨msgType.val.toUInt32, msgId, p⟩ ≠ []) (now : Int)
    (c : Client Bytes) :
    ∃ f : Sealed evp, f.toFrame = ⟨msgType.val.toUInt32, msgId, p⟩ ∧
      (Client.encryptedMessage evp iv p msgType now true msgId c).1.wire = c.wire ++ [f.bytes] := by
  obtain ⟨f, hf, hb⟩ := Sealed.of_wire hne
  refine ⟨f, hf, ?_⟩
  simp only [Client.encryptedMessage, if_neg hne, Client.register, hb, ↓reduceIte]

/-- For every text, type and id. -/
theorem frames_round_trip (h : evp.Lawful) (p : Bytes) (msgType : EnMsgType) (msgId : UInt32) :
    RoundTrips evp p msgType msgId := by
  have hsent : ∀ (iv : Option Iv) (now : Int) (c : Client Bytes),
      (Client.encryptedMessage evp iv p msgType now true msgId c).2 = true ↔
        Frame.wire evp iv ⟨msgType.val.toUInt32, msgId, p⟩ ≠ [] := by
    intro iv now c
    simp only [Client.encryptedMessage]
    split
    · next hnil => simp [hnil]
    · next hne => simp [hne]
  constructor
  · intro iv now c
    rw [hsent, wire_ne_nil_iff]
  · intro iv
    exact wire_ne_nil_iff iv _
  · intro iv now c hok
    obtain ⟨f, hf, hwire⟩ := encryptedMessage_writes ((hsent iv now c).mp hok) now c
    refine ⟨f.bytes, hwire, hf ▸ f.carries h, fun codec svc conn s => ?_⟩
    rw [onMessage_sealed h f, hf]
  · intro iv data hw hne
    subst hw
    obtain ⟨f, hf, hb⟩ := Sealed.of_wire hne
    have hf' : f.toFrame = ⟨msgType.val.toUInt32, msgId, p⟩ := hf
    rw [← hb]
    refine ⟨hf' ▸ f.carries h, fun hmax σ codec process s => ?_⟩
    rw [readTask_sealed h f (lt_of_le_of_lt hmax (by decide)), hf']

/-- A text of exactly one block. -/
def blockText : Bytes := lit "\x7b\"msgid\":100002\x7d"

/-- Agrees with AES-256 under the fixed key on the two blocks of it. -/
def blockEvp : Evp := Cbc.evp <|
  (BlockCipher.swap [123, 35, 111, 112, 99, 108, 98, 37, 50, 56, 58, 59, 60, 61, 60, 114]
    [154, 150, 118, 200, 146, 44, 0, 176, 150, 192, 107, 215, 141, 132, 202, 106] rfl rfl).comp
  (BlockCipher.swap [138, 134, 102, 216, 130, 60, 16, 160, 134, 208, 123, 199, 157, 148, 218, 122]
    [39, 73, 179, 145, 255, 37, 226, 228, 215, 74, 93, 119, 199, 62, 194, 23] rfl rfl)

/-- The client writes it as one frame of four blocks, which the server reads, and
the server's frame of it is read by the client. -/
theorem frames_round_trip_block : blockText.length = 16 ∧
    (∃ data, (Client.encryptedMessage blockEvp (some sampleIv) blockText .logoutMsg 0 true 7
        Client.start).1.wire = [data] ∧ data.length = 64 ∧
      onMessage blockEvp JsonText.codec recorder 1 data [] =
        onPlain JsonText.codec recorder 1 blockText []) ∧
    (encryptedMessageSvr blockText EnMsgType.logoutMsg.val 7).wire blockEvp (some sampleIv) ≠ [] ∧
    readTask blockEvp JsonText.codec record
        ((encryptedMessageSvr blockText EnMsgType.logoutMsg.val 7).wire blockEvp (some sampleIv))
        [] = readPlain JsonText.codec record blockText [] := by
  have he : blockEvp.Lawful := Cbc.evp_lawful _
  have htrip := frames_round_trip he blockText .logoutMsg 7
  have henc : ∃ i, some sampleIv = some i ∧
      (blockEvp.encrypt myAesKey i.val blockText).isSome :=
    ⟨sampleIv, rfl, by decide +kernel⟩
  have hblock : blockText.length = 16 := by decide
  have hmade := (htrip.makes (some sampleIv)).mpr henc
  obtain ⟨data, hwire, hdata, hserver⟩ := htrip.toServer (some sampleIv) 0 Client.start
    ((htrip.sends (some sampleIv) 0 Client.start).mpr henc)
  obtain ⟨hback, hclient⟩ := htrip.toClient (some sampleIv) _ rfl hmade
  have hlen := hdata.length
  have hshort := hback.length
  rw [hblock] at hlen hshort
  refine ⟨hblock, ⟨data, hwire, hlen, hserver JsonText.codec recorder 1 []⟩, hmade,
    hclient ?_ JsonText.codec record []⟩
  rw [hshort]
  decide

end MyChat
