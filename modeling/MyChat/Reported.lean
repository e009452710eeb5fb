import MyChat.Acks
import MyChat.Lib.JsonText

/-! What the replies to a registration, a group creation and a group entry
report, against what the database holds when they are sent. The groups' rows are
left to the worker, behind the reply. -/

namespace MyChat
open Json

variable {codec : JsonCodec}

/-- The type of the reply to a request of the three kinds. -/
def replyType : EnMsgType → EnMsgType
  | .regMsg => .regMsgAck
  | .createGroupMsg => .createGroupMsgAck
  | .addGroupMsg => .addGroupMsgAck
  | t => t

/-- The rows that the request asks for are in the database. -/
def Requested (js : Json) (db : Database) : EnMsgType → Prop
  | .regMsg => ∃ name pwd id row, js.stringAt (lit "name") = some name ∧
      js.stringAt (lit "password") = some pwd ∧ db.user.get id = some row ∧
      row.name = cStr name ∧ row.password = cStr pwd
  | .createGroupMsg => ∃ userid name desc g, js.intAt (lit "id") = some userid ∧
      js.stringAt (lit "groupname") = some name ∧ js.stringAt (lit "groupdesc") = some desc ∧
      db.allgroup.get g = some ⟨cStr name, cStr desc⟩ ∧
      ⟨g, userid, lit "creator"⟩ ∈ db.groupuser
  | .addGroupMsg => ∃ userid groupid, js.intAt (lit "id") = some userid ∧
      js.intAt (lit "groupid") = some groupid ∧ ⟨groupid, userid, lit "normal"⟩ ∈ db.groupuser
  | _ => False

/-- Besides the ACK one frame was sent, the reply to the request, and it says
errno 0 exactly if the rows are there. -/
def TellsTruth (codec : JsonCodec) (conn : Conn) (js : Json) (msgId : Int32) (t : EnMsgType)
    (s s' : Server) : Prop :=
  ∃ e response, (s'.sent.drop s.sent.length).filter (fun e => !isAck codec conn msgId e) = [e] ∧
    e.conn = conn ∧ codec.parse e.frame.text = some response ∧
    response.intAt (lit "msgid") = some (replyType t).val ∧
    response.intAt (lit "msgId") = some msgId ∧
    (response.intAt (lit "errno") = some 0 ↔ Requested js s'.db t)

/-- When the reply tells the truth: the registration fits its buffer and the
database takes it; the rows of a group were there before. -/
def Attested (my : Nat → MySQL) (js : Json) (s : Server) : EnMsgType → Prop
  | .regMsg => ∀ name pwd msgId, RegFields js name pwd msgId →
      RegFits name pwd ∧ (regInsert (my 0) name pwd s.db).isSome
  | t => Requested js s.db t

/-! ## The frames -/

theorem not_tellsTruth_unsent {conn : Conn} {js : Json} {msgId : Int32} {t : EnMsgType}
    {s s' : Server} (hs : s'.sent = s.sent) : ¬ TellsTruth codec conn js msgId t s s' := by
  rintro ⟨e, response, hnew, -⟩
  rw [hs, List.drop_length] at hnew
  cases hnew

/-- A reply and its ACK: what is to be told is the reply's type, id and errno. -/
theorem tellsTruth_answer (hc : codec.Lawful) {j : Json} (hj : j.canon) (hu : j.utf8) {t' : Int32}
    (ht : j.intAt (lit "msgid") = some t') (hne : t' ≠ EnMsgType.ackMsg.val) (conn : Conn)
    (js : Json) (msgId : Int32) (t : EnMsgType) {s s' : Server} (hs : s'.sent = s.sent) :
    TellsTruth codec conn js msgId t s (s'.answer codec conn j msgId) ↔
      t' = (replyType t).val ∧ j.intAt (lit "msgId") = some msgId ∧
        (j.intAt (lit "errno") = some 0 ↔ Requested js s'.db t) := by
  have hnew : ((s'.answer codec conn j msgId).sent.drop s.sent.length).filter
      (fun e => !isAck codec conn msgId e) = [⟨conn, none, replyFrame codec j msgId⟩] := by
    rw [sent_answer conn j msgId hs, List.drop_left]
    simp [isAck_replyFrame hc hj hu ht hne, isAck_ackFrame hc]
  have hparse := parse_replyFrame hc hj hu msgId
  constructor
  · rintro ⟨e, response, he, -, hp, htype, hid, herr⟩
    rw [hnew, List.singleton_inj] at he
    subst he
    cases Option.some.inj (hparse.symm.trans hp)
    exact ⟨Option.some.inj (ht.symm.trans htype), hid, herr⟩
  · rintro ⟨rfl, hid, herr⟩
    exact ⟨_, j, hnew, rfl, hparse, ht, hid, herr⟩

/-! ## The three handlers -/

/-- The row that the handler writes has no group, so it makes no difference. -/
theorem requested_addGroup (my : MySQL) (userid : Int32) (js : Json) (db : Database) :
    Requested js (GroupModel.addGroup my userid (-1) (lit "creator") db).1 .createGroupMsg ↔
      Requested js db .createGroupMsg := by
  unfold GroupModel.addGroup
  split
  · constructor
    · rintro ⟨u, name, desc, g, hu, hn, hd, hg, hmem⟩
      refine ⟨u, name, desc, g, hu, hn, hd, hg, ?_⟩
      rcases List.mem_append.mp hmem with hmem | hmem
      · exact hmem
      · cases List.mem_singleton.mp hmem
        cases db.allgroup.get_neg_one.symm.trans hg
    · rintro ⟨u, name, desc, g, hu, hn, hd, hg, hmem⟩
      exact ⟨u, name, desc, g, hu, hn, hd, hg, List.mem_append_left _ hmem⟩
  · exact Iff.rfl

section
variable (hc : codec.Lawful) (my : Nat → MySQL) (conn : Conn) {js : Json} {msgId : Int32}
    (s : Server)
include hc

/-- A registration that fails is answered with the request itself. -/
theorem reg_truth_iff (hj : js.canon) (hu : js.utf8)
    (hid : js.intAt (lit "msgid") = some EnMsgType.regMsg.val) {name pwd : Bytes}
    (hf : RegFields js name pwd msgId) :
    TellsTruth codec conn js msgId .regMsg s (reg codec my conn js s).state ↔
      Attested my js s .regMsg := by
  have hall : Attested my js s .regMsg ↔
      RegFits name pwd ∧ (regInsert (my 0) name pwd s.db).isSome := by
    refine ⟨fun h => h name pwd msgId hf, fun h name' pwd' msgId' hf' => ?_⟩
    obtain ⟨rfl, rfl, rfl⟩ := hf.unique hf'
    exact h
  rw [hall]
  by_cases hfit : RegFits name pwd
  · rw [reg_fits codec my conn hf hfit s]
    cases hins : regInsert (my 0) name pwd s.db with
    | none =>
      rw [respond_ack hc hu, tellsTruth_answer hc hj hu hid (by decide) conn js msgId .regMsg rfl]
      refine iff_of_false ?_ (by simp)
      rintro ⟨htype, -⟩
      exact absurd htype (by decide)
    | some r =>
      simp only [respond_ack hc (utf8_regResponse r.2 msgId)]
      refine (tellsTruth_answer hc (canon_regResponse _ _) (utf8_regResponse _ _) (intAt_msgid _ _)
        (by decide) conn js msgId .regMsg (by rfl)).trans ?_
      obtain ⟨hmsg, herr⟩ := intAt_regResponse r.2 msgId
      have htable : s.db.user.insert ⟨cStr name, cStr pwd, offline⟩ = some r := by
        unfold regInsert at hins
        split at hins
        · exact hins
        · cases hins
      have hrow := (AutoTable.get_insert htable).2 r.2
      rw [if_pos rfl] at hrow
      exact iff_of_true ⟨rfl, hmsg, iff_of_true herr
        ⟨name, pwd, r.2, _, hf.name, hf.password, hrow, rfl, rfl⟩⟩ ⟨hfit, rfl⟩
  · rcases reg_cases hc my conn js s with ⟨hbad, -⟩ | ⟨name', pwd', msgId', hf', h⟩
    · exact absurd hf (hbad name pwd msgId)
    obtain ⟨rfl, rfl, rfl⟩ := hf.unique hf'
    rcases h with ⟨-, h⟩ | ⟨hfit', -⟩ | ⟨hfit', -⟩ | ⟨hfit', -⟩
    · rw [h]
      exact iff_of_false (not_tellsTruth_unsent rfl) fun h => hfit h.1
    · exact absurd hfit' hfit
    · exact absurd hfit' hfit
    · exact absurd hfit' hfit

theorem createGroup_truth_iff {userid : Int32} {name desc : Bytes}
    (hf : CreateFields js userid name desc msgId) :
    TellsTruth codec conn js msgId .createGroupMsg s (createGroup codec my conn js s).state ↔
      Attested my js s .createGroupMsg := by
  rcases createGroup_cases hc my conn js s with ⟨hbad, -⟩ | ⟨u, n, d, m, hf', h⟩
  · exact absurd hf (hbad userid name desc msgId)
  cases Option.some.inj (hf.msgId.symm.trans hf'.msgId)
  obtain ⟨hmsg, herr⟩ := intAt_groupResponse .createGroupMsgAck "群组创建成功" msgId
  rw [h]
  refine (tellsTruth_answer hc (canon_groupResponse _ _ _) (utf8_groupResponse _ _ _)
    (intAt_msgid _ _)
    (by decide) conn js msgId .createGroupMsg (by rfl)).trans ?_
  have hrows := requested_addGroup (my 0) u js s.db
  simp only [Attested, ← hrows]
  exact ⟨fun ht => ht.2.2.mp herr, fun hreq => ⟨rfl, hmsg, iff_of_true herr hreq⟩⟩

theorem addGroup_truth_iff {userid groupid : Int32} (hf : GroupFields js userid groupid msgId) :
    TellsTruth codec conn js msgId .addGroupMsg s (addGroup codec conn js s).state ↔
      Attested my js s .addGroupMsg := by
  rcases addGroup_cases hc conn js s with ⟨hbad, -⟩ | ⟨u, g, m, hf', h⟩
  · exact absurd hf (hbad userid groupid msgId)
  cases Option.some.inj (hf.msgId.symm.trans hf'.msgId)
  obtain ⟨hmsg, herr⟩ := intAt_groupResponse .addGroupMsgAck "入群成功" msgId
  rw [h]
  refine (tellsTruth_answer hc (canon_groupResponse _ _ _) (utf8_groupResponse _ _ _)
    (intAt_msgid _ _)
    (by decide) conn js msgId .addGroupMsg (by rfl)).trans ?_
  exact ⟨fun ht => ht.2.2.mp herr, fun hreq => ⟨rfl, hmsg, iff_of_true herr hreq⟩⟩

end

/-- For every well-formed request of the three kinds, in every server state and
for every outcome of the database. -/
theorem reply_truth_iff (hc : codec.Lawful) (my : Nat → MySQL) (conn : Conn) {js : Json}
    (hj : js.canon) (hu : js.utf8) {t : EnMsgType}
    (ht : t = .regMsg ∨ t = .createGroupMsg ∨ t = .addGroupMsg)
    (hid : js.intAt (lit "msgid") = some t.val) {msgId : Int32} (hwf : WellFormed js msgId t)
    (s : Server) :
    TellsTruth codec conn js msgId t s (getHandler codec my t.val conn js s).state ↔
      Attested my js s t := by
  rcases ht with rfl | rfl | rfl
  · obtain ⟨name, pwd, hf⟩ := hwf
    exact reg_truth_iff hc my conn s hj hu hid hf
  · obtain ⟨userid, name, desc, hf⟩ := hwf
    exact createGroup_truth_iff hc my conn s hf
  · obtain ⟨userid, groupid, hf⟩ := hwf
    exact addGroup_truth_iff hc my conn s hf

namespace Sample

/-- The request of user 1 to enter group 1. -/
def enterGroup : Json := fields .addGroupMsg [("id", ofInt32 1), ("groupid", ofInt32 1)]

/-- User 1 has made group 1 and entered it. -/
def joined : List ServerStep :=
  bothOnline ++ [step .createGroupMsg 1 (createGroup 1), .work MySQL.up,
    step .addGroupMsg 1 enterGroup, .work MySQL.up]

theorem joined_runs :
    ((Server.machine JsonText.codec (· = Server.start 0 Database.empty)).exec
      (Server.start 0 Database.empty) joined).isSome := by decide +kernel

/-- The server behind it. -/
def grouped : Server := Option.get _ joined_runs

end Sample

/-- A third registration is reported as it is, and so is a second entry into the
group. That user 1 has made the group again is not so. -/
theorem reply_truth_joined :
    TellsTruth JsonText.codec 3 (Sample.reg "c") 7 .regMsg Sample.grouped
        (getHandler JsonText.codec (fun _ => MySQL.up) EnMsgType.regMsg.val 3 (Sample.reg "c")
          Sample.grouped).state ∧
      ¬ TellsTruth JsonText.codec 1 (Sample.createGroup 1) 7 .createGroupMsg Sample.grouped
        (getHandler JsonText.codec (fun _ => MySQL.up) EnMsgType.createGroupMsg.val 1
          (Sample.createGroup 1) Sample.grouped).state ∧
      TellsTruth JsonText.codec 1 Sample.enterGroup 7 .addGroupMsg Sample.grouped
        (getHandler JsonText.codec (fun _ => MySQL.up) EnMsgType.addGroupMsg.val 1
          Sample.enterGroup Sample.grouped).state := by
  refine ⟨?_, ?_, ?_⟩
  · have hf := Sample.reg_fields "c"
    refine (reply_truth_iff JsonText.codec_lawful (fun _ => MySQL.up) 3 (by decide +kernel)
      (by decide +kernel) (Or.inl rfl) (by decide +kernel) ⟨_, _, hf⟩ _).mpr ?_
    intro name pwd msgId hf'
    obtain ⟨rfl, rfl, rfl⟩ := hf.unique hf'
    exact ⟨by decide +kernel, by decide +kernel⟩
  · intro htells
    obtain ⟨u, name, desc, g, -, -, -, hg, hrow⟩ :=
      (reply_truth_iff JsonText.codec_lawful (fun _ => MySQL.up) 1 (by decide +kernel)
        (by decide +kernel) (Or.inr (Or.inl rfl)) (by decide +kernel)
        ⟨_, _, _, Sample.createGroup_fields 1⟩ Sample.grouped).mp htells
    -- the creator's row names no group
    have hcreators : ∀ m ∈ Sample.grouped.db.groupuser, m.grouprole = lit "creator" →
        Sample.grouped.db.allgroup.get m.groupid = none := by
      decide +kernel
    cases hg.symm.trans (hcreators _ hrow rfl)
  · have hf : GroupFields Sample.enterGroup 1 1 7 :=
      ⟨by decide +kernel, by decide +kernel, by decide +kernel⟩
    refine (reply_truth_iff JsonText.codec_lawful (fun _ => MySQL.up) 1 (by decide +kernel)
      (by decide +kernel) (Or.inr (Or.inr rfl)) (by decide +kernel) ⟨_, _, hf⟩ _).mpr ?_
    exact ⟨1, 1, by decide +kernel, by decide +kernel, by decide +kernel⟩

/-- The reply says errno 0, and no group is there. -/
theorem group_reported_early :
    ¬ ∀ (my : Nat → MySQL) (conn : Conn) (js : Json) (t : EnMsgType) (msgId : Int32), js.canon →
      js.utf8 →
      (t = .regMsg ∨ t = .createGroupMsg ∨ t = .addGroupMsg) →
      js.intAt (lit "msgid") = some t.val → WellFormed js msgId t → ∀ s : Server,
        TellsTruth JsonText.codec conn js msgId t s
          (getHandler JsonText.codec my t.val conn js s).state := by
  intro h
  have hf := Sample.createGroup_fields 1
  have htells :=
    h (fun _ => MySQL.up) 1 (Sample.createGroup 1) .createGroupMsg 7 (by decide +kernel)
    (by decide +kernel) (Or.inr (Or.inl rfl)) (by decide +kernel) ⟨_, _, _, hf⟩
    (Server.start 0 Database.empty)
  obtain ⟨u, name, desc, g, -, -, -, hg, -⟩ :=
    (createGroup_truth_iff JsonText.codec_lawful (fun _ => MySQL.up) 1 _ hf).mp htells
  cases hg

end MyChat
