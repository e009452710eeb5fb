import MyChat.Lib.Chunks
import MyChat.Lib.JsonText
import MyChat.ChatServer
import MyChat.Reader

/-! Frames on a TCP stream, at both ends. Neither end keeps bytes between two
reads, so each is a receiver that decides on every chunk alone; the results of
`Lib.Chunks` say when such a receiver delivers the frames. -/

namespace MyChat
open Json Chunks

/-- A frame that went out with the text of a JSON value inside. -/
structure JsonFrame (evp : Evp) (codec : JsonCodec) extends Sealed evp where
  js : Json
  canon : js.canon
  dumps : codec.dump js = some text

/-- A request frame: its JSON carries an integer message type. -/
structure RequestFrame (evp : Evp) (codec : JsonCodec) extends JsonFrame evp codec where
  msgid : Int32
  typed : js.intAt (lit "msgid") = some msgid

/-- Notes what reaches the handlers. -/
def recorder : Service (List Json) where
  shutdown _ s := s
  handle _ _ js s := { state := s ++ [js] }

/-- Notes what the client processes. -/
def record (js : Json) (s : List Json) : Ret (List Json) := { state := s ++ [js] }

section
variable (evp : Evp) (codec : JsonCodec) (conn : Conn)

/-- `onMessage` on one chunk as a receiver. -/
def serverReceiver : Receiver Json := fun c =>
  let r := onMessage evp codec recorder conn c []
  (r.state, r.thrown.isNone)

/-- The JSON values handed to the handlers over a run of `onMessage` calls. -/
def handedToHandlers (cuts : List Bytes) : List Json :=
  (receive evp codec recorder conn cuts []).state

def clientReceiver : Receiver Json := fun c =>
  let r := readTask evp codec record c []
  (r.state, r.thrown.isNone)

/-- The JSON values the client processes over a run of `recv` results. -/
def processedByClient (cuts : List Bytes) : List Json :=
  (readTaskHandler evp codec record cuts []).state

def requestFormat : Format (RequestFrame evp codec) Json where
  bytes f := f.bytes
  item f := f.js

def replyFormat : Format (JsonFrame evp codec) Json where
  bytes f := f.bytes
  item f := f.js

end

/-! ## Sample frames

The cipher below agrees with AES-256 under the fixed key on the four blocks
that the sample frames encrypt under the IV 0..15. -/

def sampleIv : Iv := ⟨[0, 1, 2, 3, 4, 5, 6, 7, 8, 9, 10, 11, 12, 13, 14, 15], rfl⟩

def sampleLogout : BlockCipher :=
  (BlockCipher.swap [123, 35, 107, 103, 38, 63, 55, 43, 42, 100, 121, 108, 69, 105, 44, 53]
    [202, 77, 143, 11, 80, 120, 222, 58, 215, 203, 35, 57, 87, 53, 38, 2] rfl rfl).comp
  (BlockCipher.swap [253, 97, 173, 102, 35, 31, 183, 94, 245, 241, 17, 68, 83, 49, 34, 6]
    [18, 85, 51, 196, 34, 245, 103, 78, 84, 242, 70, 8, 160, 197, 221, 90] rfl rfl)

def sampleAck : BlockCipher :=
  (BlockCipher.swap [123, 35, 111, 112, 99, 76, 98, 37, 50, 62, 38, 41, 97, 126, 105, 102]
    [162, 142, 45, 6, 84, 237, 161, 244, 244, 212, 205, 238, 125, 127, 8, 160] rfl rfl).comp
  (BlockCipher.swap [198, 172, 23, 55, 100, 223, 220, 253, 253, 221, 196, 231, 116, 118, 1, 169]
    [196, 201, 34, 205, 47, 163, 241, 45, 153, 92, 110, 98, 47, 245, 25, 255] rfl rfl)

def sampleEvp : Evp := Cbc.evp (sampleLogout.comp sampleAck)

/-- The logout request of user 1 with message id 7. -/
def sampleLogoutFrame : RequestFrame sampleEvp JsonText.codec where
  msgType := 2
  msgId := 7
  text := lit "\x7b\"id\":1,\"msgId\":7,\"msgid\":2\x7d"
  iv := sampleIv
  out1 := [202, 77, 143, 11, 80, 120, 222, 58, 215, 203, 35, 57, 87, 53, 38, 2]
  out2 := [18, 85, 51, 196, 34, 245, 103, 78, 84, 242, 70, 8, 160, 197, 221, 90]
  encrypts := by decide +kernel
  js := object [("id", .int 1), ("msgId", .int 7), ("msgid", .int 2)]
  canon := by decide +kernel
  dumps := by decide +kernel
  msgid := 2
  typed := by decide +kernel

/-- The ACK of message id 7. -/
def sampleAckFrame : JsonFrame sampleEvp JsonText.codec where
  msgType := 10
  msgId := 7
  text := lit "\x7b\"msgId\":7,\"msgid\":102\x7d"
  iv := sampleIv
  out1 := [162, 142, 45, 6, 84, 237, 161, 244, 244, 212, 205, 238, 125, 127, 8, 160]
  out2 := [196, 201, 34, 205, 47, 163, 241, 45, 153, 92, 110, 98, 47, 245, 25, 255]
  encrypts := by decide +kernel
  js := object [("msgId", .int 7), ("msgid", .int 102)]
  canon := by decide +kernel
  dumps := by decide +kernel

theorem sampleEvp_lawful : sampleEvp.Lawful := Cbc.evp_lawful _

variable {evp : Evp} {codec : JsonCodec} {conn : Conn}

/-! ## The server -/

/-- What a call yields on top of what the calls before have left. -/
def Extends (r r₀ : Ret (List Json)) (s : List Json) : Prop :=
  r.state = s ++ r₀.state ∧ r.thrown = r₀.thrown

theorem extends_unchanged (e : Option Failure) (s : List Json) :
    Extends { state := s, thrown := e } { state := [], thrown := e } s :=
  ⟨by simp, rfl⟩

theorem handleJson_extends (js : Json) (s : List Json) :
    Extends (handleJson recorder conn js s) (handleJson recorder conn js []) s := by
  unfold handleJson
  split
  · exact extends_unchanged _ s
  · exact ⟨by simp [recorder], rfl⟩

theorem catchShutdown_extends {r r₀ : Ret (List Json)} {s : List Json} (h : Extends r r₀ s) :
    Extends (catchShutdown recorder conn r) (catchShutdown recorder conn r₀) s := by
  obtain ⟨hs, ht⟩ := h
  unfold catchShutdown
  rw [ht]
  split
  · exact ⟨hs, ht⟩
  · split
    · exact ⟨hs, rfl⟩
    · exact ⟨hs, ht⟩

theorem onMessage_extends (c : Bytes) (s : List Json) :
    Extends (onMessage evp codec recorder conn c s) (onMessage evp codec recorder conn c []) s := by
  unfold onMessage
  split
  · exact extends_unchanged none s
  simp only
  split
  · split
    · exact extends_unchanged _ s
    · split
      · exact extends_unchanged none s
      · split
        · exact extends_unchanged none s
        · exact handleJson_extends _ s
  · apply catchShutdown_extends
    split
    · exact extends_unchanged _ s
    · exact handleJson_extends _ s

theorem receive_eq_feed (cuts : List Bytes) (s : List Json) :
    (receive evp codec recorder conn cuts s).state =
      s ++ feed (serverReceiver evp codec conn) cuts := by
  induction cuts generalizing s with
  | nil => simp [receive, feed]
  | cons c cuts ih =>
    obtain ⟨hs, ht⟩ := @onMessage_extends evp codec conn c s
    rw [receive, Ret.andThen, feed, serverReceiver, ht]
    cases h : (onMessage evp codec recorder conn c []).thrown with
    | none => simp only [ih, hs, Option.isNone_none, ↓reduceIte, List.append_assoc]
    | some e => simp [hs]

theorem handleJson_length (js : Json) : (handleJson recorder conn js []).state.length ≤ 1 := by
  unfold handleJson
  split
  · exact Nat.zero_le 1
  · exact Nat.le_refl 1

theorem serverReceiver_length (c : Bytes) : (serverReceiver evp codec conn c).1.length ≤ 1 := by
  unfold serverReceiver onMessage
  split
  · exact Nat.zero_le 1
  simp only
  split
  · split
    · exact Nat.zero_le 1
    · split
      · exact Nat.zero_le 1
      · split
        · exact Nat.zero_le 1
        · exact handleJson_length _
  · have hcatch : ∀ r : Ret (List Json), (catchShutdown recorder conn r).state = r.state := by
      intro r
      unfold catchShutdown
      split
      · rfl
      · split <;> rfl
    rw [hcatch]
    split
    · exact Nat.zero_le 1
    · exact handleJson_length _

theorem serverReceiver_byte (b : UInt8) : (serverReceiver evp codec conn [b]).1 = [] := rfl

theorem cast_bytes_isEncrypted (f : Sealed evp) (c : Bytes) :
    (MsgHeader.cast ((f.header f.cipher).bytes ++ c)).isEncrypted = 1 := by
  rw [MsgHeader.cast_bytes]
  rfl

theorem not_short (f : Sealed evp) (c : Bytes) :
    ¬ ((f.header f.cipher).bytes ++ c).length < MsgHeader.size := by
  rw [List.length_append, MsgHeader.bytes_length]
  omega

/-- `onMessage` from the decrypted payload on. -/
def onPlain {σ : Type} (codec : JsonCodec) (svc : Service σ) (conn : Conn) (plain : Bytes) (s : σ) :
    Ret σ :=
  if plain = [] then { state := svc.shutdown conn s }
  else
    match codec.parse plain with
    | none => { state := svc.shutdown conn s }
    | some js => handleJson svc conn js s

/-- The server decrypts the text that was sealed. -/
theorem onMessage_sealed (h : evp.Lawful) (f : Sealed evp) {σ : Type} (codec : JsonCodec)
    (svc : Service σ) (conn : Conn) (s : σ) :
    onMessage evp codec svc conn f.bytes s = onPlain codec svc conn f.text s := by
  rw [Sealed.bytes, onMessage, if_neg (not_short _ _)]
  simp only [cast_bytes_isEncrypted, MsgHeader.drop_bytes, f.decrypt_cipher h, ↓reduceIte]
  rfl

/-- A sealed request runs the handler of its type. -/
theorem onMessage_request (he : evp.Lawful) (hc : codec.Lawful) {f : Sealed evp} {js : Json}
    (hparse : codec.parse f.text = some js) {msgid : Int32}
    (hid : js.intAt (lit "msgid") = some msgid) {σ : Type} (svc : Service σ) (conn : Conn) (s : σ) :
    onMessage evp codec svc conn f.bytes s = svc.handle msgid conn js s := by
  rw [onMessage_sealed he, onPlain, if_neg (hc.ne_nil_of_parse hparse), hparse]
  simp only [handleJson, hid]

theorem onMessage_frame {σ : Type} (svc : Service σ) (he : evp.Lawful) (hc : codec.Lawful)
    (f : RequestFrame evp codec) (s : σ) :
    onMessage evp codec svc conn f.bytes s = svc.handle f.msgid conn f.js s :=
  onMessage_request he hc (hc.parse_dump f.canon f.dumps) f.typed svc conn s

theorem serverReceiver_frame (he : evp.Lawful) (hc : codec.Lawful) (f : RequestFrame evp codec) :
    serverReceiver evp codec conn f.bytes = ([f.js], true) := by
  rw [serverReceiver, onMessage_frame recorder he hc]
  rfl

/-- A frame cut short behind its header: the decryption throws, and nothing in
the callback catches it. -/
theorem serverReceiver_short (he : evp.Lawful) (hc : codec.Lawful) (f : JsonFrame evp codec)
    {c : Bytes} (hpre : c <+: f.cipher) (hne : c ≠ f.cipher) :
    serverReceiver evp codec conn ((f.header f.cipher).bytes ++ c) = ([], false) := by
  obtain ⟨e, hdec⟩ := f.decrypt_prefix he (hc.dump_printable f.dumps) hpre hne
  rw [serverReceiver, onMessage, if_neg (not_short _ _)]
  simp only [cast_bytes_isEncrypted, MsgHeader.drop_bytes, hdec, ↓reduceIte]
  rfl

/-- A proper part of a frame with the whole header is the header and a proper
part of the payload. -/
theorem split_frame (f : Sealed evp) {c : Bytes} (hpre : c <+: f.bytes) (hne : c ≠ f.bytes)
    (h16 : MsgHeader.size ≤ c.length) :
    ∃ c', c = (f.header f.cipher).bytes ++ c' ∧ c' <+: f.cipher ∧ c' ≠ f.cipher := by
  have hhead : (f.header f.cipher).bytes <+: c :=
    List.prefix_of_prefix_length_le (List.prefix_append _ _) hpre
      (by rw [MsgHeader.bytes_length]; exact h16)
  obtain ⟨c', rfl⟩ := hhead
  refine ⟨c', rfl, (List.prefix_append_right_inj _).mp hpre, ?_⟩
  rintro rfl
  exact hne rfl

/-- Reassembly at the server: chunks of whole frames are handed over exactly
when each holds one frame, a chunk that ends inside a frame's payload stops the
server, and only a stream without frames survives every way to cut it. -/
theorem onMessage_reassembles (he : evp.Lawful) (hc : codec.Lawful) (conn : Conn)
    (frames : List (RequestFrame evp codec)) :
    (∀ groups : List (List (RequestFrame evp codec)), groups.flatten = frames →
      (∀ g ∈ groups, g ≠ []) →
      (handedToHandlers evp codec conn (groups.map (requestFormat evp codec).stream) =
          frames.map (·.js) ↔ ∀ g ∈ groups, g.length = 1)) ∧
    (∀ pre f post c rest, frames = pre ++ f :: post → c <+: f.bytes → c ≠ f.bytes →
      MsgHeader.size ≤ c.length →
      handedToHandlers evp codec conn (pre.map (·.bytes) ++ c :: rest) ≠ frames.map (·.js)) ∧
    ((∀ cuts, IsCut cuts ((requestFormat evp codec).stream frames) →
      handedToHandlers evp codec conn cuts = frames.map (·.js)) ↔ frames = []) := by
  have hfeed : ∀ cuts, handedToHandlers evp codec conn cuts =
      feed (serverReceiver evp codec conn) cuts := by
    intro cuts
    rw [handedToHandlers, receive_eq_feed, List.nil_append]
  have hframe : ∀ f : RequestFrame evp codec, serverReceiver evp codec conn
      ((requestFormat evp codec).bytes f) = ([(requestFormat evp codec).item f], true) :=
    serverReceiver_frame he hc
  refine ⟨?_, ?_, ?_⟩
  · rintro groups rfl hne
    rw [hfeed]
    exact Format.delivers_groups_iff serverReceiver_length hne fun f _ => hframe f
  · rintro pre f post c rest rfl hpre hne h16
    obtain ⟨c', rfl, hpre', hne'⟩ := split_frame f.toSealed hpre hne h16
    rw [hfeed]
    exact Format.not_delivers_stop (fun f _ => hframe f)
      (serverReceiver_short he hc f.toJsonFrame hpre' hne')
  · simp only [hfeed]
    have hbyte : ∀ b, (serverReceiver evp codec conn [b]).1 = [] := serverReceiver_byte
    have hall : (∀ cuts, IsCut cuts ((requestFormat evp codec).stream frames) →
        (∀ c ∈ cuts, True) → (requestFormat evp codec).Delivers _ frames cuts) ↔ frames = [] :=
      Format.delivers_all_iff (fun _ => trivial) hbyte
    exact ⟨fun h => hall.mp fun cuts hcut _ => h cuts hcut,
      fun h cuts hcut => hall.mpr h cuts hcut fun _ _ => trivial⟩

/-- A logout and its resend are both handed over when each is a chunk, and not
when a chunk ends inside the resend. -/
theorem onMessage_reassembles_logout :
    handedToHandlers sampleEvp JsonText.codec 0 [sampleLogoutFrame.bytes, sampleLogoutFrame.bytes] =
        [sampleLogoutFrame.js, sampleLogoutFrame.js] ∧
      handedToHandlers sampleEvp JsonText.codec 0
          [sampleLogoutFrame.bytes, sampleLogoutFrame.bytes.take 40,
            sampleLogoutFrame.bytes.drop 40] ≠
        [sampleLogoutFrame.js, sampleLogoutFrame.js] := by
  obtain ⟨hgroups, hstop, -⟩ := onMessage_reassembles sampleEvp_lawful JsonText.codec_lawful 0
    [sampleLogoutFrame, sampleLogoutFrame]
  have hwhole := (hgroups [[sampleLogoutFrame], [sampleLogoutFrame]] rfl (by simp)).mpr (by simp)
  have hcut := hstop [sampleLogoutFrame] sampleLogoutFrame [] (sampleLogoutFrame.bytes.take 40)
    [sampleLogoutFrame.bytes.drop 40] rfl (List.take_prefix _ _) (by decide +kernel)
    (by decide +kernel)
  exact ⟨by simpa [requestFormat, Format.stream] using hwhole, hcut⟩

/-- Two requests in one segment: at most one of them is handed over. -/
theorem onMessage_loses_coalesced :
    ¬ ∀ (frames : List (RequestFrame sampleEvp JsonText.codec)) (cuts : List Bytes),
      IsCut cuts ((requestFormat sampleEvp JsonText.codec).stream frames) →
      handedToHandlers sampleEvp JsonText.codec 0 cuts = frames.map (·.js) := by
  intro h
  have hcut : IsCut
      [(requestFormat sampleEvp JsonText.codec).stream [sampleLogoutFrame, sampleLogoutFrame]]
      ((requestFormat sampleEvp JsonText.codec).stream [sampleLogoutFrame, sampleLogoutFrame]) := by
    refine ⟨by simp, ?_⟩
    intro c hc
    cases List.mem_singleton.mp hc
    exact List.append_ne_nil_of_left_ne_nil (sampleLogoutFrame.bytes_ne_nil sampleEvp_lawful) _
  have hl := h _ _ hcut
  rw [handedToHandlers, receive_eq_feed, List.nil_append] at hl
  have hle : 2 ≤ 1 := Format.Delivers.length_le (F := requestFormat sampleEvp JsonText.codec)
    serverReceiver_length hl
  simp at hle

/-! ## The client -/

theorem readTask_extends (c : Bytes) (s : List Json) :
    Extends (readTask evp codec record c s) (readTask evp codec record c []) s := by
  unfold readTask
  split
  · exact extends_unchanged _ s
  simp only
  split
  · exact extends_unchanged _ s
  · split
    · exact extends_unchanged _ s
    · split
      · exact extends_unchanged _ s
      · exact ⟨by simp [record], rfl⟩

theorem readTaskHandler_eq_feed (cuts : List Bytes) (s : List Json) :
    (readTaskHandler evp codec record cuts s).state =
      s ++ feed (clientReceiver evp codec) cuts := by
  induction cuts generalizing s with
  | nil => simp [readTaskHandler, feed]
  | cons c cuts ih =>
    obtain ⟨hs, ht⟩ := @readTask_extends evp codec c s
    rw [readTaskHandler, Ret.andThen, feed, clientReceiver, ht]
    cases h : (readTask evp codec record c []).thrown with
    | none => simp only [ih, hs, Option.isNone_none, ↓reduceIte, List.append_assoc]
    | some e => simp [hs]

theorem clientReceiver_length (c : Bytes) : (clientReceiver evp codec c).1.length ≤ 1 := by
  unfold clientReceiver readTask
  split
  · exact Nat.zero_le 1
  simp only
  split
  · exact Nat.zero_le 1
  · split
    · exact Nat.zero_le 1
    · split
      · exact Nat.zero_le 1
      · exact Nat.le_refl 1

theorem clientReceiver_byte (b : UInt8) : (clientReceiver evp codec [b]).1 = [] := rfl

/-- The header's length is the frame's, while it fits 32 bits. -/
theorem msgLength_eq (f : Sealed evp) (h : f.bytes.length < 2 ^ 32) (c : Bytes) :
    (MsgHeader.cast ((f.header f.cipher).bytes ++ c)).msgLength.toNat = f.bytes.length := by
  have hlen : f.bytes.length = MsgHeader.size + f.cipher.length := by
    rw [Sealed.bytes, List.length_append, MsgHeader.bytes_length]
  rw [MsgHeader.cast_bytes, Frame.header, ← hlen, UInt32.toNat_ofNat']
  exact Nat.mod_eq_of_lt h

/-- The loop body of `readTaskHandler` from the decrypted payload on. -/
def readPlain {σ : Type} (codec : JsonCodec) (process : Json → σ → Ret σ) (message : Bytes)
    (s : σ) : Ret σ :=
  match codec.parse message with
  | none => { state := s, thrown := some .parseError }
  | some js => process js s

/-- The client decrypts it too, and trusts the header's length. -/
theorem readTask_sealed (h : evp.Lawful) (f : Sealed evp) (hlen : f.bytes.length < 2 ^ 32)
    {σ : Type} (codec : JsonCodec) (process : Json → σ → Ret σ) (s : σ) :
    readTask evp codec process f.bytes s = readPlain codec process f.text s := by
  have hml : (MsgHeader.cast f.bytes).msgLength.toNat = f.bytes.length :=
    msgLength_eq f hlen f.cipher
  have hsize : f.bytes.length = MsgHeader.size + f.cipher.length := by
    rw [Sealed.bytes, List.length_append, MsgHeader.bytes_length]
  have hpay : payloadOf (MsgHeader.cast f.bytes) f.bytes = f.cipher := by
    rw [payloadOf, hml, if_neg (by omega), Sealed.bytes, MsgHeader.drop_bytes,
      ← Sealed.bytes, hsize]
    exact List.take_of_length_le (by omega)
  have henc : (MsgHeader.cast f.bytes).isEncrypted = 1 := cast_bytes_isEncrypted _ _
  rw [readTask, if_neg (by omega), if_neg (by rw [hml]; omega), hpay]
  simp only [henc, f.decrypt_cipher h, ↓reduceIte]
  rfl

theorem clientReceiver_frame (he : evp.Lawful) (hc : codec.Lawful) (f : JsonFrame evp codec)
    (hmax : f.bytes.length ≤ recvMax) :
    clientReceiver evp codec f.bytes = ([f.js], true) := by
  rw [clientReceiver, readTask_sealed he f.toSealed (lt_of_le_of_lt hmax (by decide)), readPlain,
    hc.parse_dump f.canon f.dumps]
  rfl

/-- A chunk that ends before its frame does makes the client exit. -/
theorem clientReceiver_short (f : Sealed evp) (hlen : f.bytes.length < 2 ^ 32) {c : Bytes}
    (hpre : c <+: f.bytes) (hne : c ≠ f.bytes) : clientReceiver evp codec c = ([], false) := by
  have hshort : c.length < f.bytes.length := lt_of_le_of_ne hpre.length_le fun he =>
    hne (hpre.eq_of_length he)
  rw [clientReceiver, readTask]
  split
  · rfl
  · next h16 =>
    obtain ⟨c', rfl, -, -⟩ := split_frame f hpre hne (not_lt.mp h16)
    rw [if_pos]
    · rfl
    · rw [msgLength_eq f hlen c']
      exact hshort

/-- Reassembly at the client, for frames that fit one `recv`: chunks of whole
frames are processed exactly when each holds one frame. A chunk that ends
before its frame does, as it must for a frame longer than one `recv`, makes the
client exit with the frame unprocessed. Only a stream without frames survives
every way to cut it. -/
theorem readTaskHandler_reassembles (he : evp.Lawful) (hc : codec.Lawful)
    (frames : List (JsonFrame evp codec)) :
    (∀ groups : List (List (JsonFrame evp codec)), groups.flatten = frames →
      (∀ g ∈ groups, g ≠ []) → (∀ f ∈ frames, f.bytes.length ≤ recvMax) →
      (processedByClient evp codec (groups.map (replyFormat evp codec).stream) =
          frames.map (·.js) ↔ ∀ g ∈ groups, g.length = 1)) ∧
    (∀ pre f post c rest, frames = pre ++ f :: post →
      (∀ f ∈ pre, f.bytes.length ≤ recvMax) → f.bytes.length < 2 ^ 32 →
      c <+: f.bytes → c ≠ f.bytes →
      processedByClient evp codec (pre.map (·.bytes) ++ c :: rest) ≠ frames.map (·.js)) ∧
    ((∀ cuts, IsCut cuts ((replyFormat evp codec).stream frames) →
      (∀ c ∈ cuts, c.length ≤ recvMax) →
      processedByClient evp codec cuts = frames.map (·.js)) ↔ frames = []) := by
  have hfeed : ∀ cuts, processedByClient evp codec cuts = feed (clientReceiver evp codec) cuts := by
    intro cuts
    rw [processedByClient, readTaskHandler_eq_feed, List.nil_append]
  refine ⟨?_, ?_, ?_⟩
  · rintro groups rfl hne hmax
    rw [hfeed]
    exact Format.delivers_groups_iff clientReceiver_length hne fun f hf =>
      clientReceiver_frame he hc f (hmax f hf)
  · rintro pre f post c rest rfl hmax hlen hpre hne
    rw [hfeed]
    exact Format.not_delivers_stop (F := replyFormat evp codec)
      (fun f hf => clientReceiver_frame he hc f (hmax f hf))
      (clientReceiver_short f.toSealed hlen hpre hne)
  · simp only [hfeed]
    exact Format.delivers_all_iff (F := replyFormat evp codec) (P := fun c => c.length ≤ recvMax)
      (fun _ => Nat.le_add_left 1 4095) clientReceiver_byte

/-- The ACKs of a request and of its resend are both processed when each is a
chunk, and not when a chunk ends inside the second. -/
theorem readTaskHandler_reassembles_ack :
    processedByClient sampleEvp JsonText.codec [sampleAckFrame.bytes, sampleAckFrame.bytes] =
        [sampleAckFrame.js, sampleAckFrame.js] ∧
      processedByClient sampleEvp JsonText.codec
          [sampleAckFrame.bytes, sampleAckFrame.bytes.take 20, sampleAckFrame.bytes.drop 20] ≠
        [sampleAckFrame.js, sampleAckFrame.js] := by
  have hmax : sampleAckFrame.bytes.length ≤ recvMax := by decide +kernel
  obtain ⟨hgroups, hstop, -⟩ := readTaskHandler_reassembles sampleEvp_lawful JsonText.codec_lawful
    [sampleAckFrame, sampleAckFrame]
  have hwhole := (hgroups [[sampleAckFrame], [sampleAckFrame]] rfl (by simp)
    (by simpa using hmax)).mpr (by simp)
  have hcut := hstop [sampleAckFrame] sampleAckFrame [] (sampleAckFrame.bytes.take 20)
    [sampleAckFrame.bytes.drop 20] rfl (by simpa using hmax) (lt_of_le_of_lt hmax (by decide))
    (List.take_prefix _ _) (by decide +kernel)
  exact ⟨by simpa [replyFormat, Format.stream] using hwhole, hcut⟩

/-- Two ACKs in one `recv`: at most one of them is processed. -/
theorem readTaskHandler_loses_coalesced :
    ¬ ∀ (frames : List (JsonFrame sampleEvp JsonText.codec)) (cuts : List Bytes),
      IsCut cuts ((replyFormat sampleEvp JsonText.codec).stream frames) →
      (∀ c ∈ cuts, c.length ≤ recvMax) →
      processedByClient sampleEvp JsonText.codec cuts = frames.map (·.js) := by
  intro h
  have hcut : IsCut [(replyFormat sampleEvp JsonText.codec).stream [sampleAckFrame, sampleAckFrame]]
      ((replyFormat sampleEvp JsonText.codec).stream [sampleAckFrame, sampleAckFrame]) := by
    refine ⟨by simp, ?_⟩
    intro c hc
    cases List.mem_singleton.mp hc
    exact List.append_ne_nil_of_left_ne_nil (sampleAckFrame.bytes_ne_nil sampleEvp_lawful) _
  have hmax : ((replyFormat sampleEvp JsonText.codec).stream
      [sampleAckFrame, sampleAckFrame]).length ≤ recvMax := by
    decide +kernel
  have hl := h _ _ hcut (by simpa using hmax)
  rw [processedByClient, readTaskHandler_eq_feed, List.nil_append] at hl
  have hle : 2 ≤ 1 := Format.Delivers.length_le (F := replyFormat sampleEvp JsonText.codec)
    clientReceiver_length hl
  simp at hle

end MyChat
