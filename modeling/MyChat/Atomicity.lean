import MyChat.Malformed
import MyChat.Acks

/-! What a handler that throws leaves behind. Fields are read and chats
serialised ahead of every effect; only an accepted login serialises behind. -/

namespace MyChat
open Json

variable {codec : JsonCodec}

/-- Map, queue, Redis and database are as before, and nothing was sent. -/
structure Unaffected (s s' : Server) : Prop where
  userConnMap : s'.userConnMap = s.userConnMap
  dbQueue : s'.dbQueue = s.dbQueue
  redis : s'.redis = s.redis
  db : s'.db = s.db
  sent : s'.sent = s.sent

theorem Unaffected.refl (s : Server) : Unaffected s s := ⟨rfl, rfl, rfl, rfl, rfl⟩

/-- A call that throws has changed nothing. -/
def FailsClean (s : Server) (r : Ret Server) : Prop :=
  ∀ e, r.thrown = some e → e.isException = true → Unaffected s r.state

theorem failsClean_returned (s s' : Server) : FailsClean s { state := s' } := by
  intro e h
  cases h

theorem failsClean_unchanged (s : Server) (thrown : Option Failure) :
    FailsClean s { state := s, thrown := thrown } := fun _ _ _ => .refl s

/-- A login that is accepted while one of the texts for its reply is not UTF-8. -/
def LoginFailsLate (my : Nat → MySQL) (js : Json) (db : Database) : Prop :=
  ∃ id pwd msgId, LoginFields js id pwd msgId ∧ LoginAccepts my id pwd db ∧
    ¬ (loginTexts my id (UserModel.query (my 0) id db) db).all validUtf8

/-- The session and its row update stay, and so does the removal of the offline
messages. -/
theorem login_failsClean_iff (hc : codec.Lawful) (my : Nat → MySQL) (conn : Conn) (js : Json)
    (s : Server) : FailsClean s (login codec my conn js s) ↔ ¬ LoginFailsLate my js s.db := by
  rcases login_cases hc my conn js s with ⟨hbad, h⟩ | ⟨id, pwd, msgId, hf, h⟩
  · rw [h]
    exact iff_of_true (failsClean_unchanged s _) fun ⟨i, p, m, hf, _⟩ => hbad i p m hf
  rcases h with ⟨hrej, errno, errmsg, -, h⟩ | ⟨hacc, j, hj, hju, h⟩ | ⟨hacc, htexts, h⟩
  · rw [h]
    refine iff_of_true (failsClean_returned s _) ?_
    rintro ⟨i, p, m, hf', hacc, -⟩
    obtain ⟨rfl, rfl, rfl⟩ := hf.unique hf'
    exact hrej hacc
  · rw [h]
    refine iff_of_true (failsClean_returned s _) ?_
    rintro ⟨i, p, m, hf', -, htexts⟩
    obtain ⟨rfl, rfl, rfl⟩ := hf.unique hf'
    exact htexts ((loginReply_utf8 hc _ _ _ _ _).mp ⟨j, hj, hju⟩)
  · rw [h]
    refine iff_of_false (fun hclean => ?_) fun hlate => hlate ⟨id, pwd, msgId, hf, hacc, htexts⟩
    have hqueue := (hclean _ rfl rfl).dbQueue
    rw [(loginSession_lists my conn id s).2.2.1] at hqueue
    simp at hqueue

/-- The other handlers have nothing to undo where they can throw. -/
theorem getHandler_failsClean (hc : codec.Lawful) (my : Nat → MySQL) {msgid : Int32}
    (hm : handlerOf msgid ≠ some .loginMsg) (conn : Conn) (js : Json) (s : Server) :
    FailsClean s (getHandler codec my msgid conn js s) := by
  have h := getHandler_handled hc my msgid conn js s
  generalize getHandler codec my msgid conn js s = r at h ⊢
  generalize handlerOf msgid = t at h hm
  cases h with
  | illTyped | unsendable | regOverflow => exact failsClean_unchanged s _
  | loginRefused | loginAnswered | loginUnsendable => exact absurd rfl hm
  | _ => exact failsClean_returned s _

/-- For every message type, JSON value, server and database: a handler that
throws has changed nothing, unless it is a login that throws late. -/
theorem handler_failsClean_iff (hc : codec.Lawful) (my : Nat → MySQL) (msgid : Int32) (conn : Conn)
    (js : Json) (s : Server) :
    FailsClean s (getHandler codec my msgid conn js s) ↔
      ¬ (handlerOf msgid = some .loginMsg ∧ LoginFailsLate my js s.db) := by
  by_cases hm : handlerOf msgid = some .loginMsg
  · have hlogin : getHandler codec my msgid conn js s = login codec my conn js s := by
      simp only [getHandler, hm]
    rw [hlogin, login_failsClean_iff hc]
    exact ⟨fun h h' => h h'.2, fun h h' => h ⟨hm, h'⟩⟩
  · exact iff_of_true (getHandler_failsClean hc my hm conn js s) fun h => hm h.1

/-- A chat without a recipient, at a server with two users connected. -/
theorem handler_failsClean_chat :
    (getHandler JsonText.codec (fun _ => MySQL.up) EnMsgType.oneChatMsg.val 1 (Sample.logout 1)
      Sample.meeting).thrown = some .typeError ∧
    FailsClean Sample.meeting (getHandler JsonText.codec (fun _ => MySQL.up)
      EnMsgType.oneChatMsg.val 1 (Sample.logout 1) Sample.meeting) :=
  ⟨by decide +kernel,
    (handler_failsClean_iff JsonText.codec_lawful _ _ _ _ _).mpr fun h => absurd h.1 (by decide)⟩

/-- User 1, whose name is stored as the bytes that GBK has for it. -/
def gbkUser : Database :=
  match Database.empty.user.insert ⟨[0xC4, 0xE3], lit "pw", offline⟩ with
  | some (user, _) => { Database.empty with user := user }
  | none => Database.empty

/-- The login of that user throws, with the user in the map. -/
theorem login_fails_late :
    ¬ ∀ (my : Nat → MySQL) (msgid : Int32) (conn : Conn) (js : Json) (s : Server),
    FailsClean s (getHandler JsonText.codec my msgid conn js s) := by
  intro h
  have hclean :=
    h (fun _ => MySQL.up) EnMsgType.loginMsg.val 1 (Sample.login 1) (Server.start 0 gbkUser)
    .invalidUtf8 (by decide +kernel) rfl
  have hqueue := hclean.dbQueue
  revert hqueue
  decide +kernel

end MyChat
