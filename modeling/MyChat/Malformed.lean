import MyChat.ChatServer
import MyChat.Handlers
import MyChat.Reassembly

/-! Which inputs `onMessage` survives. The plain branch catches every exception
of a call; the encrypted one catches only those of the parser. -/

namespace MyChat
open Json

variable {codec : JsonCodec}

/-- What the handler of a request needs in order to return: the fields it
reads, with their types, and texts that can be formatted and serialised. -/
def HandlerReturns (my : Nat → MySQL) (js : Json) (db : Database) : Option EnMsgType → Prop
  | some .loginMsg => ∃ id pwd msgId, LoginFields js id pwd msgId ∧
      (LoginAccepts my id pwd db →
        (loginTexts my id (UserModel.query (my 0) id db) db).all validUtf8)
  | some .regMsg => ∃ name pwd msgId, RegFields js name pwd msgId ∧ RegFits name pwd
  | some .oneChatMsg => ∃ toid msgId, ChatFields js toid msgId
  | some .addFriendMsg => ∃ userid friendid msgId, FriendFields js userid friendid msgId
  | some .createGroupMsg => ∃ userid name desc msgId, CreateFields js userid name desc msgId
  | some .addGroupMsg => ∃ userid groupid msgId, GroupFields js userid groupid msgId
  | some .groupChatMsg => ∃ userid groupid msgId, GroupFields js userid groupid msgId
  | some .logoutMsg => ∃ userid msgId, LogoutFields js userid msgId
  | _ => True

theorem LoginFields.unique {js : Json} {id id' msgId msgId' : Int32} {pwd pwd' : Bytes}
    (h : LoginFields js id pwd msgId) (h' : LoginFields js id' pwd' msgId') :
    id = id' ∧ pwd = pwd' ∧ msgId = msgId' :=
  ⟨Option.some.inj (h.id.symm.trans h'.id), Option.some.inj (h.password.symm.trans h'.password),
    Option.some.inj (h.msgId.symm.trans h'.msgId)⟩

theorem RegFields.unique {js : Json} {name name' pwd pwd' : Bytes} {msgId msgId' : Int32}
    (h : RegFields js name pwd msgId) (h' : RegFields js name' pwd' msgId') :
    name = name' ∧ pwd = pwd' ∧ msgId = msgId' :=
  ⟨Option.some.inj (h.name.symm.trans h'.name),
    Option.some.inj (h.password.symm.trans h'.password),
    Option.some.inj (h.msgId.symm.trans h'.msgId)⟩

theorem login_returns_iff (hc : codec.Lawful) (my : Nat → MySQL) (conn : Conn) (js : Json)
    (s : Server) :
    (login codec my conn js s).thrown = none ↔ HandlerReturns my js s.db (some .loginMsg) := by
  rcases login_cases hc my conn js s with ⟨hbad, hl⟩ | ⟨id, pwd, msgId, hf, hl⟩
  · rw [hl]
    constructor
    · intro h; cases h
    · rintro ⟨id, pwd, msgId, hf, -⟩
      exact absurd hf (hbad id pwd msgId)
  · rcases hl with ⟨hrej, _, _, _, hl⟩ | ⟨hacc, j, hj, hu, hl⟩ | ⟨hacc, htexts, hl⟩
    · rw [hl]
      exact iff_of_true rfl ⟨id, pwd, msgId, hf, fun h => absurd h hrej⟩
    · rw [hl]
      exact iff_of_true rfl
        ⟨id, pwd, msgId, hf, fun _ => (loginReply_utf8 hc _ _ _ _ _).mp ⟨j, hj, hu⟩⟩
    · rw [hl]
      refine iff_of_false (by simp) ?_
      rintro ⟨id', pwd', msgId', hf', hok⟩
      obtain ⟨rfl, rfl, rfl⟩ := hf.unique hf'
      exact htexts (hok hacc)

theorem reg_returns_iff (hc : codec.Lawful) (my : Nat → MySQL) (conn : Conn) {js : Json}
    (hu : js.utf8) (s : Server) :
    (reg codec my conn js s).thrown = none ↔ HandlerReturns my js s.db (some .regMsg) := by
  rcases reg_cases hc my conn js s with ⟨hbad, hr⟩ | ⟨name, pwd, msgId, hf, hr⟩
  · rw [hr]
    refine iff_of_false (by simp) ?_
    rintro ⟨name, pwd, msgId, hf, -⟩
    exact hbad name pwd msgId hf
  · rcases hr with ⟨hfit, hr⟩ | ⟨hfit, t, id, _, hr⟩ | ⟨hfit, _, hr⟩ | ⟨_, hu', _⟩
    · rw [hr]
      refine iff_of_false (by simp) ?_
      rintro ⟨name', pwd', msgId', hf', hfit'⟩
      obtain ⟨rfl, rfl, rfl⟩ := hf.unique hf'
      exact hfit hfit'
    · rw [hr]; exact iff_of_true rfl ⟨name, pwd, msgId, hf, hfit⟩
    · rw [hr]; exact iff_of_true rfl ⟨name, pwd, msgId, hf, hfit⟩
    · rw [hu] at hu'; cases hu'

theorem getHandler_returns_iff (hc : codec.Lawful) (my : Nat → MySQL) (msgid : Int32) (conn : Conn)
    {js : Json} (hu : js.utf8) (s : Server) :
    (getHandler codec my msgid conn js s).thrown = none ↔
      HandlerReturns my js s.db (handlerOf msgid) := by
  unfold getHandler
  cases handlerOf msgid with
  | none => exact iff_of_true rfl trivial
  | some t =>
    cases t with
    | loginMsg => exact login_returns_iff hc my conn js s
    | regMsg => exact reg_returns_iff hc my conn hu s
    | oneChatMsg =>
      rcases oneChat_cases hc my conn js s with ⟨hbad, h⟩ | ⟨t, m, hf, h⟩
      · exact iff_of_false (by simp [h]) fun ⟨t, m, hf⟩ => hbad t m hf
      · refine iff_of_true ?_ ⟨t, m, hf⟩
        rcases h with ⟨hu', _⟩ | ⟨_, c, _, h⟩ | ⟨_, _, _, h⟩ | ⟨_, _, _, h⟩
        · rw [hu] at hu'; cases hu'
        · simp only [h]
        · simp only [h]
        · simp only [h]
    | addFriendMsg =>
      rcases addFriend_cases hc conn js s with ⟨hbad, h⟩ | ⟨u, f, m, hf, h⟩
      · exact iff_of_false (by simp [h]) fun ⟨u, f, m, hf⟩ => hbad u f m hf
      · exact iff_of_true (by simp only [h]) ⟨u, f, m, hf⟩
    | createGroupMsg =>
      rcases createGroup_cases hc my conn js s with ⟨hbad, h⟩ | ⟨u, n, d, m, hf, h⟩
      · exact iff_of_false (by simp [h]) fun ⟨u, n, d, m, hf⟩ => hbad u n d m hf
      · exact iff_of_true (by simp only [h]) ⟨u, n, d, m, hf⟩
    | addGroupMsg =>
      rcases addGroup_cases hc conn js s with ⟨hbad, h⟩ | ⟨u, g, m, hf, h⟩
      · exact iff_of_false (by simp [h]) fun ⟨u, g, m, hf⟩ => hbad u g m hf
      · exact iff_of_true (by simp only [h]) ⟨u, g, m, hf⟩
    | groupChatMsg =>
      rcases groupChat_cases hc my conn js s with ⟨hbad, h⟩ | ⟨u, g, m, hf, h⟩
      · exact iff_of_false (by simp [h]) fun ⟨u, g, m, hf⟩ => hbad u g m hf
      · refine iff_of_true ?_ ⟨u, g, m, hf⟩
        rcases h with ⟨hu', _⟩ | ⟨_, h⟩
        · rw [hu] at hu'; cases hu'
        · simp only [h]
    | logoutMsg =>
      rcases logout_cases hc conn js s with ⟨hbad, h⟩ | ⟨u, m, hf, h⟩
      · exact iff_of_false (by simp [h]) fun ⟨u, m, hf⟩ => hbad u m hf
      · exact iff_of_true (by simp only [h]) ⟨u, m, hf⟩
    | _ => exact iff_of_true rfl trivial

/-! ## How a handler ends -/

/-- Every ending but a buffer overrun is an exception. -/
def EndsByException (r : Ret Server) : Prop := ∀ e, r.thrown = some e → e.isException

theorem endsByException_returned (s : Server) : EndsByException { state := s } := by
  intro e h
  cases h

theorem endsByException_typeError (s : Server) :
    EndsByException { state := s, thrown := some .typeError } := by
  intro e h
  cases h
  rfl

theorem endsByException_invalidUtf8 (s : Server) :
    EndsByException { state := s, thrown := some .invalidUtf8 } := by
  intro e h
  cases h
  rfl

/-- Only a registration can end otherwise. -/
theorem getHandler_endsByException (hc : codec.Lawful) (my : Nat → MySQL) {msgid : Int32}
    (hm : handlerOf msgid ≠ some .regMsg) (conn : Conn) (js : Json) (s : Server) :
    EndsByException (getHandler codec my msgid conn js s) := by
  have h := getHandler_handled hc my msgid conn js s
  generalize getHandler codec my msgid conn js s = r at h ⊢
  generalize handlerOf msgid = t at h hm
  cases h with
  | illTyped => exact endsByException_typeError s
  | unsendable | loginUnsendable => exact endsByException_invalidUtf8 _
  | regOverflow | registered | regFailed => exact absurd rfl hm
  | _ => exact endsByException_returned _

theorem handlerOf_regMsg {msgid : Int32} :
    handlerOf msgid = some .regMsg ↔ msgid = EnMsgType.regMsg.val := by
  constructor
  · exact handlerOf_some
  · rintro rfl
    decide

/-! ## The callback -/

/-- A registration whose statement runs past its buffer. -/
def OverflowingReg (js : Json) : Prop :=
  js.intAt (lit "msgid") = some EnMsgType.regMsg.val ∧
    ∃ name pwd msgId, RegFields js name pwd msgId ∧ ¬ RegFits name pwd

/-- What `onMessage` returns from: a short buffer, a plain payload that is no
overflowing registration, or an encrypted one that decrypts to nothing, to no
JSON, or to a request whose handler returns. -/
def Returns (evp : Evp) (codec : JsonCodec) (my : Nat → MySQL) (buf : Bytes) (db : Database) :
    Prop :=
  buf.length < MsgHeader.size ∨
  ((MsgHeader.cast buf).isEncrypted ≠ 1 ∧
    ∀ js, codec.parse (buf.drop MsgHeader.size) = some js → ¬ OverflowingReg js) ∨
  ((MsgHeader.cast buf).isEncrypted = 1 ∧
    ∃ plain, aes256CBCDecrypt evp (buf.drop MsgHeader.size) myAesKey = .ok plain ∧
      (plain = [] ∨ codec.parse plain = none ∨
        ∃ js msgid, codec.parse plain = some js ∧ js.intAt (lit "msgid") = some msgid ∧
          HandlerReturns my js db (handlerOf msgid)))

theorem catchShutdown_returns_iff (svc : Service Server) (conn : Conn) (r : Ret Server) :
    (catchShutdown svc conn r).thrown = none ↔ EndsByException r := by
  unfold catchShutdown EndsByException
  cases h : r.thrown with
  | none => simp [h]
  | some e =>
    simp only [Option.some.injEq, forall_eq']
    split
    · next he => simp [he]
    · next he => simp [h, he]

/-- The guarded call lets nothing out but an overflowing registration. -/
theorem handleJson_endsByException_iff (hc : codec.Lawful) (my : Nat → MySQL) (conn : Conn)
    {js : Json} (hu : js.utf8) (s : Server) :
    EndsByException (handleJson (chatService codec my) conn js s) ↔ ¬ OverflowingReg js := by
  unfold handleJson OverflowingReg
  cases hm : js.intAt (lit "msgid") with
  | none => exact iff_of_true (endsByException_typeError s) fun h => by cases h.1
  | some msgid =>
    simp only [chatService, Option.some.injEq]
    by_cases hreg : msgid = EnMsgType.regMsg.val
    · have hh : getHandler codec my msgid conn js s = reg codec my conn js s := by
        rw [getHandler, handlerOf_regMsg.mpr hreg]
      rw [hh]
      rcases reg_cases hc my conn js s with ⟨hbad, h⟩ | ⟨name, pwd, msgId, hf, h⟩
      · rw [h]
        exact iff_of_true (endsByException_typeError s) fun ⟨_, n, p, m, hf, _⟩ => hbad n p m hf
      · rcases h with ⟨hfit, h⟩ | ⟨hfit, t, id, _, h⟩ | ⟨hfit, _, h⟩ | ⟨_, hu', _⟩
        · rw [h]
          refine iff_of_false (fun h => by cases h _ rfl) fun h => ?_
          exact h ⟨hreg, name, pwd, msgId, hf, hfit⟩
        · rw [h]
          refine iff_of_true (endsByException_returned _) ?_
          rintro ⟨-, n, p, m, hf', hfit'⟩
          obtain ⟨rfl, rfl, rfl⟩ := hf.unique hf'
          exact hfit' hfit
        · rw [h]
          refine iff_of_true (endsByException_returned _) ?_
          rintro ⟨-, n, p, m, hf', hfit'⟩
          obtain ⟨rfl, rfl, rfl⟩ := hf.unique hf'
          exact hfit' hfit
        · rw [hu] at hu'; cases hu'
    · have hne : handlerOf msgid ≠ some .regMsg := fun h => hreg (handlerOf_regMsg.mp h)
      exact iff_of_true (getHandler_endsByException hc my hne conn js s) fun h => hreg h.1

/-- The calls of `onMessage` that return, whatever the server's state. -/
theorem onMessage_returns_iff (evp : Evp) (hc : codec.Lawful) (my : Nat → MySQL) (conn : Conn)
    (buf : Bytes) (s : Server) :
    (onMessage evp codec (chatService codec my) conn buf s).thrown = none ↔
      Returns evp codec my buf s.db := by
  unfold onMessage Returns
  by_cases hshort : buf.length < MsgHeader.size
  · rw [if_pos hshort]
    exact iff_of_true rfl (Or.inl hshort)
  rw [if_neg hshort]
  simp only [hshort, false_or]
  by_cases henc : (MsgHeader.cast buf).isEncrypted = 1
  · simp only [henc, ↓reduceIte, ne_eq, not_true_eq_false, false_and, false_or, true_and]
    cases hd : aes256CBCDecrypt evp (buf.drop MsgHeader.size) myAesKey with
    | error e => simp
    | ok plain =>
      simp only [Except.ok.injEq, exists_eq_left']
      by_cases hp : plain = []
      · simp [hp]
      · simp only [hp, ↓reduceIte, false_or]
        cases hj : codec.parse plain with
        | none => simp
        | some js =>
          simp only [reduceCtorEq, Option.some.injEq, false_or, exists_and_left, exists_eq_left']
          unfold handleJson
          cases hm : js.intAt (lit "msgid") with
          | none => simp
          | some msgid =>
            simp only [Option.some.injEq, exists_eq_left']
            exact getHandler_returns_iff hc my msgid conn (hc.parse_utf8 hj) s
  · simp only [henc, ↓reduceIte, ne_eq, not_false_eq_true, true_and, false_and, or_false]
    rw [catchShutdown_returns_iff]
    cases hj : codec.parse (buf.drop MsgHeader.size) with
    | none => exact iff_of_true (fun e h => by cases h; rfl) fun js h => by cases h
    | some js =>
      simp only [Option.some.injEq, forall_eq']
      exact handleJson_endsByException_iff hc my conn (hc.parse_utf8 hj) s

theorem onMessage_returns_logout :
    (onMessage sampleEvp JsonText.codec (chatService JsonText.codec fun _ => MySQL.up) 0
      sampleLogoutFrame.bytes (Server.start 0 Database.empty)).thrown = none := by
  refine (onMessage_returns_iff sampleEvp JsonText.codec_lawful (fun _ => MySQL.up) 0 _ _).mpr ?_
  refine Or.inr (Or.inr ⟨cast_bytes_isEncrypted _ _, sampleLogoutFrame.text,
    sampleLogoutFrame.decrypt_cipher sampleEvp_lawful, Or.inr (Or.inr ⟨sampleLogoutFrame.js, 2,
      JsonText.codec_lawful.parse_dump sampleLogoutFrame.canon sampleLogoutFrame.dumps,
      sampleLogoutFrame.typed, ?_⟩)⟩)
  have hh : handlerOf 2 = some .logoutMsg := by decide
  rw [hh]
  exact ⟨1, 7, by decide +kernel, by decide +kernel⟩

/-- A bare header that claims an encrypted payload. -/
def bareHeader : Bytes :=
  MsgHeader.bytes { msgLength := 16, msgType := 1, msgId := 1, isEncrypted := 1 }

/-- It takes the process down. -/
theorem onMessage_aborts_bareHeader :
    ¬ ∀ (buf : Bytes) (s : Server), (onMessage sampleEvp JsonText.codec
      (chatService JsonText.codec fun _ => MySQL.up) 0 buf s).thrown = none := by
  intro h
  have hb := h bareHeader (Server.start 0 Database.empty)
  revert hb
  decide +kernel

end MyChat
