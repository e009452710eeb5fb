import MyChat.Lib.JsonText
import MyChat.Acks

/-! Whom a login lets in. A lookup without result gives the default user, whose
id and password a request can name like any other. -/

namespace MyChat
open Json

variable {codec : JsonCodec}

/-- The user table has this id with this password, and not online. -/
def Authentic (db : Database) (id : Int32) (pwd : Bytes) : Prop :=
  ∃ row, db.user.get id = some row ∧ row.password = pwd ∧ row.state ≠ online

/-- A frame whose JSON carries errno 0. -/
def saysOk (codec : JsonCodec) (e : Sent) : Bool :=
  (codec.parse e.frame.text).any fun j => j.intAt (lit "errno") = some 0

/-- From `s` to `s'` a frame with errno 0 was sent, or one of the places that
say who is online has changed. -/
def LetIn (codec : JsonCodec) (s s' : Server) : Prop :=
  (∃ e ∈ s'.sent.drop s.sent.length, saysOk codec e) ∨ s'.userConnMap ≠ s.userConnMap ∨
    s'.redis ≠ s.redis ∨ s'.dbQueue ≠ s.dbQueue

/-! ## Accepted logins -/

theorem loginAccepts_cases {my : Nat → MySQL} {id : Int32} {pwd : Bytes} {db : Database}
    (h : LoginAccepts my id pwd db) : Authentic db id pwd ∨ id = -1 ∧ pwd = [] := by
  obtain ⟨hid, hpwd, hstate⟩ := h
  rcases UserModel.query_cases (my 0) id db with hq | ⟨row, hrow, hq⟩
  · rw [hq] at hid hpwd
    exact Or.inr ⟨hid.symm, hpwd.symm⟩
  · rw [hq] at hpwd hstate
    exact Or.inl ⟨row, hrow, hpwd, hstate⟩

theorem loginAccepts_sentinel (my : Nat → MySQL) (db : Database) : LoginAccepts my (-1) [] db := by
  unfold LoginAccepts
  rw [UserModel.query_neg_one]
  exact ⟨rfl, rfl, offline_ne_online⟩

/-! ## Refusals and sessions -/

/-- A refusal changes nothing but what was sent, and says no errno 0. -/
theorem not_letIn_refusal (hc : codec.Lawful) {errno : Int32} (he : errno ≠ 0) (errmsg : String)
    (conn : Conn) (msgId : Int32) (s : Server) :
    ¬ LetIn codec s (s.answer codec conn (loginRefusal errno errmsg msgId) msgId) := by
  rintro (⟨e, hmem, hok⟩ | hmap | hredis | hqueue)
  · rw [sent_answer conn _ msgId rfl, List.drop_left] at hmem
    rcases List.mem_pair.mp hmem with rfl | rfl
    · have hrefusal := parse_replyFrame hc (canon_loginRefusal errno errmsg msgId)
        (utf8_loginRefusal _ _ _) msgId
      simp [saysOk, hrefusal, intAt_loginRefusal, he] at hok
    · simp [saysOk, parse_ackFrame hc, (intAt_ackResponse msgId).2.2] at hok
  · exact hmap rfl
  · exact hredis rfl
  · exact hqueue rfl

theorem letIn_session (my : Nat → MySQL) (conn : Conn) (id : Int32) {s s' : Server}
    (h : s'.dbQueue = (loginSession my conn id s).dbQueue) : LetIn codec s s' := by
  refine Or.inr (Or.inr (Or.inr fun hq => ?_))
  rw [h, (loginSession_lists my conn id s).2.2.1] at hq
  simp at hq

/-- For every database, outcome of the query and request: a login lets in only
whom the user table vouches for, unless it names the default user. -/
theorem login_authenticates_iff (hc : codec.Lawful) (my : Nat → MySQL) (conn : Conn) {js : Json}
    {id : Int32} {pwd : Bytes} {msgId : Int32} (hf : LoginFields js id pwd msgId) (s : Server) :
    (LetIn codec s (login codec my conn js s).state → Authentic s.db id pwd) ↔
      ¬ (id = -1 ∧ pwd = []) := by
  rcases login_cases hc my conn js s with ⟨hbad, -⟩ | ⟨id', pwd', msgId', hf', h⟩
  · exact absurd hf (hbad id pwd msgId)
  obtain ⟨rfl, rfl, rfl⟩ := hf.unique hf'
  -- an accepted login opens a session, whether or not its reply goes out
  have hopen : LoginAccepts my id pwd s.db → LetIn codec s (login codec my conn js s).state := by
    intro hacc
    rcases h with ⟨hrej, -⟩ | ⟨-, j, -, -, h⟩ | ⟨-, -, h⟩
    · exact absurd hacc hrej
    · rw [h]; exact letIn_session my conn id rfl
    · rw [h]; exact letIn_session my conn id rfl
  constructor
  · rintro hauth ⟨rfl, rfl⟩
    obtain ⟨row, hrow, -⟩ := hauth (hopen (loginAccepts_sentinel my s.db))
    cases s.db.user.get_neg_one.symm.trans hrow
  · intro hne hin
    have hacc : LoginAccepts my id pwd s.db := by
      rcases h with ⟨-, errno, errmsg, he, h⟩ | ⟨hacc, -⟩ | ⟨hacc, -⟩
      · rw [h] at hin
        exact absurd hin (not_letIn_refusal hc he errmsg conn msgId s)
      · exact hacc
      · exact hacc
    exact (loginAccepts_cases hacc).resolve_right hne

/-- A login as user 2 with another password. -/
def strangersLogin : Json :=
  Sample.fields .loginMsg [("id", ofInt32 2), ("password", .str (lit "p"))]

/-- It arrives while users 1 and 2 are connected. -/
theorem login_authenticates_stranger :
    ¬ LetIn JsonText.codec Sample.meeting
        (login JsonText.codec (fun _ => MySQL.up) 3 strangersLogin Sample.meeting).state := by
  intro hin
  have hf : LoginFields strangersLogin 2 (lit "p") 7 :=
    ⟨by decide +kernel, by decide +kernel, by decide +kernel⟩
  obtain ⟨row, hrow, hpwd, -⟩ := (login_authenticates_iff JsonText.codec_lawful
    (fun _ => MySQL.up) 3 hf Sample.meeting).mpr (by decide) hin
  have hstored : (Sample.meeting.db.user.get 2).all (·.password ≠ lit "p") := by decide +kernel
  rw [hrow] at hstored
  exact absurd hpwd (by simpa using hstored)

/-- The request that names the default user: no id of a row, no password. -/
def sentinelLogin : Json :=
  Sample.fields .loginMsg [("id", ofInt32 (-1)), ("password", .str [])]

theorem sentinel_let_in :
    ¬ ∀ (my : Nat → MySQL) (conn : Conn) (js : Json) (id : Int32) (pwd : Bytes) (msgId : Int32),
      LoginFields js id pwd msgId → ∀ s : Server,
        LetIn JsonText.codec s (login JsonText.codec my conn js s).state →
          Authentic s.db id pwd := by
  intro h
  have hin : LetIn JsonText.codec (Server.start 0 Database.empty)
      (login JsonText.codec (fun _ => MySQL.up) 1 sentinelLogin
        (Server.start 0 Database.empty)).state := by
    refine Or.inr (Or.inr (Or.inr ?_))
    decide +kernel
  obtain ⟨row, hrow, -⟩ := h (fun _ => MySQL.up) 1 sentinelLogin (-1) [] 7
    ⟨by decide +kernel, by decide +kernel, by decide +kernel⟩ _ hin
  cases hrow

end MyChat
