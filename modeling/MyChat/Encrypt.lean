import MyChat.Lib.Evp
import MyChat.Public

/-! AES-256-CBC framing of both ends, message ids and the header-only ACK.
The cipher calls are a parameter, and so is the outcome of `RAND_bytes`. -/

namespace MyChat

/-- An exception leaving a function, or what ends the process without one: a
`sprintf` past the end of its buffer, and `exit`. -/
inductive Failure
  | typeError
  | parseError
  | invalidUtf8
  | runtimeError (what : String)
  | overflow
  | exit
  deriving DecidableEq, Repr

/-- What `catch (const std::exception &)` catches. -/
def Failure.isException : Failure → Bool
  | overflow => false
  | exit => false
  | _ => true

/-- What a call leaves: effects made before an exception stay. -/
structure Ret (σ : Type) where
  state : σ
  thrown : Option Failure := none

/-- The rest of a function body: not reached after an exception. -/
def Ret.andThen {σ : Type} (r : Ret σ) (k : σ → Ret σ) : Ret σ :=
  match r.thrown with
  | none => k r.state
  | some _ => r

theorem Ret.andThen_ok {σ : Type} {r : Ret σ} {k : σ → Ret σ} (h : (r.andThen k).thrown = none) :
    r.thrown = none ∧ r.andThen k = k r.state := by
  unfold Ret.andThen at h ⊢
  cases hr : r.thrown with
  | none => exact ⟨rfl, rfl⟩
  | some e => rw [hr] at h; simp only [hr] at h; cases h

/-- The 16 bytes of an IV. -/
abbrev Iv := { b : Bytes // b.length = 16 }

theorem Iv.take_append (iv : Iv) (d : Bytes) : (iv.val ++ d).take 16 = iv.val := by
  rw [List.take_append_of_le_length (by rw [iv.property]),
    List.take_of_length_le (by rw [iv.property])]

theorem Iv.drop_append (iv : Iv) (d : Bytes) : (iv.val ++ d).drop 16 = d := by
  rw [List.drop_append_of_le_length (by rw [iv.property]),
    List.drop_of_length_le (by rw [iv.property]), List.nil_append]

section
variable (evp : Evp)

/-- The IV before the cipher text, or the empty string when a call fails. -/
def aes256CBCEncrypt (iv : Option Iv) (plaintext key : Bytes) : Bytes :=
  match iv with
  | none => []
  | some iv =>
      match evp.encrypt key iv.val plaintext with
      | none => []
      | some (out1, out2) => iv.val ++ (out1 ++ out2)

def decryptError : EvpStage → String
  | .context => "Failed to create cipher context"
  | .init => "Decrypt init failed"
  | .update => "Decrypt update failed"
  | .final => "Decrypt final failed - possibly incorrect key or corrupted data"

def aes256CBCDecrypt (ciphertext key : Bytes) : Except Failure Bytes :=
  if ciphertext.length ≤ 16 then .error (.runtimeError "Ciphertext too short")
  else
    match evp.decrypt key (ciphertext.take 16) (ciphertext.drop 16) with
    | .error stage => .error (.runtimeError (decryptError stage))
    | .ok (out1, out2) => .ok (out1 ++ out2)

end

/-- The clock's second above the number in the last four characters of the
client id. Throws where `substr` or `stoi` does. -/
def generateUniqueMsgId (time : Nat) (clientId : Bytes) : Option UInt32 :=
  let ts := UInt32.ofNat time
  let suffix : Option UInt32 :=
    if clientId = [] then some 0
    else if clientId.length < 4 then none
    else (stoi (clientId.drop (clientId.length - 4))).map fun n => UInt32.ofInt (n.tmod 10000)
  suffix.map fun suffix => (ts <<< 12) ||| suffix

def buildACKPacket (msgId : UInt32) : Bytes :=
  MsgHeader.bytes
    { msgLength := 16, msgType := EnMsgType.ackMsg.val.toUInt32, msgId := msgId, isEncrypted := 0 }

def isACKValid (srcMsgId : UInt32) (ackHeader : MsgHeader) : Bool :=
  ackHeader.msgType = EnMsgType.ackMsg.val.toUInt32 && ackHeader.msgId = srcMsgId

theorem isACKValid_buildACKPacket (m : UInt32) :
    isACKValid m (MsgHeader.cast (buildACKPacket m)) = true := by
  rw [buildACKPacket, ← List.append_nil (MsgHeader.bytes _), MsgHeader.cast_bytes]
  simp [isACKValid]

/-! ## Frames -/

/-- A frame before sealing: the header's type and id and the JSON text. -/
structure Frame where
  msgType : UInt32
  msgId : UInt32
  text : Bytes
  deriving DecidableEq, Repr

def Frame.header (f : Frame) (cipher : Bytes) : MsgHeader where
  msgLength := UInt32.ofNat (MsgHeader.size + cipher.length)
  msgType := f.msgType
  msgId := f.msgId
  isEncrypted := 1

/-- The bytes both senders put on the wire under an IV: nothing when the
encryption fails. -/
def Frame.wire (evp : Evp) (iv : Option Iv) (f : Frame) : Bytes :=
  let cipher := aes256CBCEncrypt evp iv f.text myAesKey
  if cipher = [] then [] else (f.header cipher).bytes ++ cipher

/-- A frame that went out, with the IV drawn for it and the two cipher parts. -/
structure Sealed (evp : Evp) extends Frame where
  iv : Iv
  out1 : Bytes
  out2 : Bytes
  encrypts : evp.encrypt myAesKey iv.val text = some (out1, out2)

namespace Sealed

variable {evp : Evp} (f : Sealed evp)

def cipher : Bytes := f.iv.val ++ (f.out1 ++ f.out2)

def bytes : Bytes := (f.header f.cipher).bytes ++ f.cipher

theorem wire_eq : f.toFrame.wire evp (some f.iv) = f.bytes := by
  have he : aes256CBCEncrypt evp (some f.iv) f.text myAesKey = f.cipher := by
    simp only [aes256CBCEncrypt, f.encrypts, cipher]
  have hne : f.cipher ≠ [] := by
    intro h
    have hl := congrArg List.length h
    rw [cipher, List.length_append, f.iv.property] at hl
    simp at hl
  simp only [Frame.wire, he, if_neg hne, bytes]

/-- Bytes that went out are those of a sealed frame. -/
theorem of_wire {g : Frame} {iv : Option Iv} (h : g.wire evp iv ≠ []) :
    ∃ f : Sealed evp, f.toFrame = g ∧ f.bytes = g.wire evp iv := by
  cases iv with
  | none => exact absurd rfl h
  | some iv =>
    cases henc : evp.encrypt myAesKey iv.val g.text with
    | none => exact absurd (by simp [Frame.wire, aes256CBCEncrypt, henc]) h
    | some out =>
      exact ⟨⟨g, iv, out.1, out.2, henc⟩, rfl, (wire_eq ⟨g, iv, out.1, out.2, henc⟩).symm⟩

theorem cipher_length (h : evp.Lawful) : f.cipher.length = 16 + 16 * (f.text.length / 16 + 1) := by
  rw [cipher, List.length_append, f.iv.property, h.encrypt_length f.encrypts]

theorem bytes_length (h : evp.Lawful) :
    f.bytes.length = 32 + 16 * (f.text.length / 16 + 1) := by
  rw [bytes, List.length_append, MsgHeader.bytes_length, f.cipher_length h, MsgHeader.size]
  omega

theorem bytes_ne_nil (h : evp.Lawful) : f.bytes ≠ [] := by
  intro he
  have hl := f.bytes_length h
  rw [he, List.length_nil] at hl
  omega

/-- Decrypting a whole sealed payload gives the text back. -/
theorem decrypt_cipher (h : evp.Lawful) : aes256CBCDecrypt evp f.cipher myAesKey = .ok f.text := by
  obtain ⟨c, e, hd, hce⟩ := h.decrypt_encrypt f.encrypts
  have hlen := f.cipher_length h
  rw [aes256CBCDecrypt, if_neg (by omega), cipher, Iv.take_append, Iv.drop_append, hd]
  exact congrArg Except.ok hce

/-- A payload cut short does not decrypt: the text of the blocks that are left
does not end in padding bytes. -/
theorem decrypt_prefix (h : evp.Lawful) (hp : ∀ b ∈ f.text, 0x20 ≤ b) {c : Bytes}
    (hc : c <+: f.cipher) (hne : c ≠ f.cipher) :
    ∃ e, aes256CBCDecrypt evp c myAesKey = .error e := by
  unfold aes256CBCDecrypt
  split
  · exact ⟨_, rfl⟩
  · next hlen =>
    obtain ⟨d, hd⟩ : ∃ d, c = f.iv.val ++ d := by
      have ht : c.take 16 = f.iv.val := by
        obtain ⟨r, hr⟩ := hc
        have h16 : (c ++ r).take 16 = f.iv.val := by rw [hr, cipher, Iv.take_append]
        rwa [List.take_append_of_le_length (by omega)] at h16
      exact ⟨c.drop 16, by rw [← ht, List.take_append_drop]⟩
    subst hd
    have hpre : d <+: f.out1 ++ f.out2 := (List.prefix_append_right_inj _).mp hc
    have hshort : d.length < (f.out1 ++ f.out2).length := by
      refine lt_of_le_of_ne hpre.length_le fun he => hne ?_
      rw [cipher, hpre.eq_of_length he]
    rw [Iv.take_append, Iv.drop_append]
    cases hdec : evp.decrypt myAesKey f.iv.val d with
    | error stage => exact ⟨_, rfl⟩
    | ok r =>
      obtain ⟨c', e'⟩ := r
      exfalso
      have hmod := h.decrypt_length hdec
      have hd' : (f.out1 ++ f.out2).take (16 * (d.length / 16)) = d := by
        rw [show 16 * (d.length / 16) = d.length by omega]
        exact (List.prefix_iff_eq_take.mp hpre).symm
      rw [← hd'] at hdec
      obtain ⟨k, h1, h16, hk⟩ := h.decrypt_truncated f.encrypts (by omega) hdec
      -- the last of the `k` padding bytes would be a byte of the text
      have hmem : UInt8.ofNat k ∈ f.text := by
        refine List.mem_of_mem_take (i := 16 * (d.length / 16)) ?_
        rw [hk]
        exact List.mem_append_right _ (List.mem_replicate.mpr ⟨by omega, rfl⟩)
      have hle := UInt8.le_iff_toNat_le.mp (hp _ hmem)
      simp only [UInt8.toNat_ofNat', UInt8.reduceToNat] at hle
      omega

end Sealed

end MyChat
