import MyChat.SessionState

/-! The two cascades that decide how a chat reaches one recipient, compared. The
chat to one user asks Redis first and addresses the offline task to the user it
has read; the group chat does neither. -/

namespace MyChat
open Json

inductive Decision
  | sent (c : Conn)
  | published
  | queued (toid : Int32)
  deriving DecidableEq, Repr

namespace Decision

/-- The server behind the decision for recipient `x`, chat text and frame. -/
def apply (x : Int32) (text : Bytes) (msgId : Int32) (s : Server) : Decision → Server
  | sent c => s.sendTo x c (groupChatFrame text msgId)
  | published => s.publish x text
  | queued toid => s.push (offlineMsgTask toid text)

/-- The task that the decision enqueues. -/
def tasks (text : Bytes) : Decision → List DbTaskArgs
  | queued toid => [offlineMsgTask toid text]
  | _ => []

theorem apply_queue (x : Int32) (text : Bytes) (msgId : Int32) (s : Server) (d : Decision) :
    (d.apply x text msgId s).dbQueue = s.dbQueue ++ d.tasks text := by
  cases d with
  | queued toid => rfl
  | _ => exact (List.append_nil _).symm

theorem tasks_eq_queued {text : Bytes} {toid : Int32} {d : Decision}
    (h : d.tasks text = [offlineMsgTask toid text]) : d = queued toid := by
  cases d with
  | queued k =>
    have htoid := congrArg DbTaskArgs.toid (List.singleton_inj.mp h)
    exact congrArg queued htoid
  | _ => cases h

end Decision

/-- A handler that turned `s` into `s'` decided so for `x`, an ACK to the sender
apart. -/
def Decides (codec : JsonCodec) (conn : Conn) (js : Json) (msgId x : Int32) (s s' : Server)
    (d : Decision) : Prop :=
  s' = d.apply x (codec.text js) msgId s ∨
    s' = (d.apply x (codec.text js) msgId s).send conn (ackFrame codec msgId)

theorem Decides.queue {codec : JsonCodec} {conn : Conn} {js : Json} {msgId x : Int32}
    {s s' : Server} {d : Decision} (h : Decides codec conn js msgId x s s' d) :
    s'.dbQueue = s.dbQueue ++ d.tasks (codec.text js) := by
  rcases h with rfl | rfl
  · exact d.apply_queue x _ _ s
  · exact d.apply_queue x _ _ s

/-- The recipient is connected here, or its row says "Online", or its row was
read and Redis has no key for it. -/
def SameRoute (m : MySQL) (x : Int32) (s : Server) : Prop :=
  x ∈ s.userConnMap ∨ (UserModel.query m x s.db).state = online ∨
    (UserModel.query m x s.db).id = x ∧ ¬ s.redis.get x

section
variable {codec : JsonCodec} (hc : codec.Lawful) (my : Nat → MySQL) (conn : Conn) {js : Json}
  {x msgId : Int32} (s : Server)
include hc

/-- The decision of a chat to one user. -/
theorem oneChat_decides (hu : js.utf8) (hf : ChatFields js x msgId) :
    ∃ d, Decides codec conn js msgId x s (oneChat codec my conn js s).state d ∧
      ((∃ c, s.userConnMap.lookup x = some c ∧ d = .sent c) ∨
        (x ∉ s.userConnMap ∧ SeemsOnline (my 0) x s ∧ d = .published) ∨
        (x ∉ s.userConnMap ∧ ¬ SeemsOnline (my 0) x s ∧
          d = .queued (UserModel.query (my 0) x s.db).id)) := by
  rcases oneChat_cases hc my conn js s with ⟨hbad, -⟩ | ⟨toid, m, hf', h⟩
  · exact absurd hf (hbad x msgId)
  obtain ⟨rfl, rfl⟩ := hf.unique hf'
  rcases h with ⟨hu', -⟩ | ⟨-, c, hl, h⟩ | ⟨-, hl, hon, h⟩ | ⟨-, hl, hoff, h⟩
  · rw [hu] at hu'; cases hu'
  · exact ⟨.sent c, Or.inr (by rw [h]; rfl), Or.inl ⟨c, hl, rfl⟩⟩
  · exact ⟨.published, Or.inl (by rw [h]; rfl),
      Or.inr (Or.inl ⟨Finmap.lookup_eq_none.mp hl, hon, rfl⟩)⟩
  · exact ⟨.queued _, Or.inr (by rw [h]; rfl),
      Or.inr (Or.inr ⟨Finmap.lookup_eq_none.mp hl, hoff, rfl⟩)⟩

/-- The decision of a group chat for its only other member. -/
theorem groupChat_decides (hu : js.utf8) {userid groupid : Int32}
    (hf : GroupFields js userid groupid msgId)
    (hmembers : GroupModel.queryGroupUsers (my 0) userid groupid s.db = [x]) :
    ∃ d, Decides codec conn js msgId x s (groupChat codec my conn js s).state d ∧
      ((∃ c, s.userConnMap.lookup x = some c ∧ d = .sent c) ∨
        (x ∉ s.userConnMap ∧ (UserModel.query (my 1) x s.db).state = online ∧ d = .published) ∨
        (x ∉ s.userConnMap ∧ (UserModel.query (my 1) x s.db).state ≠ online ∧ d = .queued x)) := by
  rcases groupChat_cases hc my conn js s with ⟨hbad, -⟩ | ⟨u, g, m, hf', h⟩
  · exact absurd hf (hbad userid groupid msgId)
  obtain ⟨rfl, rfl, rfl⟩ := hf.unique hf'
  rcases h with ⟨hu', -⟩ | ⟨-, h⟩
  · rw [hu] at hu'; cases hu'
  rw [h, hmembers]
  simp only [routeMembers, routeMember]
  cases hl : s.userConnMap.lookup x with
  | some c => exact ⟨.sent c, Or.inr rfl, Or.inl ⟨c, rfl, rfl⟩⟩
  | none =>
    have hmem := Finmap.lookup_eq_none.mp hl
    simp only
    split
    · next hon => exact ⟨.published, Or.inr rfl, Or.inr (Or.inl ⟨hmem, hon, rfl⟩)⟩
    · next hoff => exact ⟨.queued x, Or.inr rfl, Or.inr (Or.inr ⟨hmem, hoff, rfl⟩)⟩

end

/-- The two handlers decide alike for `x`, whatever the query of its row gave,
exactly when `SameRoute` holds. -/
theorem routes_agree_iff {codec : JsonCodec} (hc : codec.Lawful) (m : MySQL) (x : Int32)
    (s : Server) {my my' : Nat → MySQL} (hmy : my 0 = m) (hmy' : my' 1 = m) (conn conn' : Conn)
    {js js' : Json} (hu : js.utf8) (hu' : js'.utf8) {msgId msgId' userid groupid : Int32}
    (hf : ChatFields js x msgId) (hf' : GroupFields js' userid groupid msgId')
    (hmembers : GroupModel.queryGroupUsers (my' 0) userid groupid s.db = [x]) :
    (∃ d, Decides codec conn js msgId x s (oneChat codec my conn js s).state d ∧
      Decides codec conn' js' msgId' x s (groupChat codec my' conn' js' s).state d) ↔
      SameRoute m x s := by
  obtain ⟨d, hd, hone⟩ := oneChat_decides hc my conn s hu hf
  obtain ⟨d', hd', hgroup⟩ := groupChat_decides hc my' conn' s hu' hf' hmembers
  rw [hmy] at hone
  rw [hmy'] at hgroup
  constructor
  · rintro ⟨e, he, he'⟩
    have hqueue : e.tasks (codec.text js) = d.tasks (codec.text js) :=
      List.append_cancel_left (he.queue.symm.trans hd.queue)
    have hqueue' : e.tasks (codec.text js') = d'.tasks (codec.text js') :=
      List.append_cancel_left (he'.queue.symm.trans hd'.queue)
    by_contra hne
    simp only [SameRoute, not_or] at hne
    obtain ⟨hmem, hstate, hrow⟩ := hne
    -- the group chat queues for `x`, so the chat to one user must have done so
    have hx : e = .queued x := by
      rcases hgroup with ⟨c, hl, -⟩ | ⟨-, hon, -⟩ | ⟨-, -, rfl⟩
      · exact absurd (Finmap.mem_of_lookup_eq_some hl) hmem
      · exact absurd hon hstate
      · exact Decision.tasks_eq_queued hqueue'
    rcases hone with ⟨c, hl, -⟩ | ⟨-, -, rfl⟩ | ⟨-, hoff, rfl⟩
    · exact hmem (Finmap.mem_of_lookup_eq_some hl)
    · rw [hx] at hqueue
      cases hqueue
    · rw [hx] at hqueue
      have htoid := Decision.tasks_eq_queued (d := .queued x) hqueue
      refine hrow ⟨(Decision.queued.inj htoid).symm, fun hkey => hoff (Or.inl hkey)⟩
  · intro hsame
    have heq : d = d' := by
      rcases hone with ⟨c, hl, rfl⟩ | ⟨hmem, hon, rfl⟩ | ⟨hmem, hoff, rfl⟩
      · rcases hgroup with ⟨c', hl', rfl⟩ | ⟨hmem', -⟩ | ⟨hmem', -⟩
        · cases hl.symm.trans hl'
          rfl
        · exact absurd (Finmap.mem_of_lookup_eq_some hl) hmem'
        · exact absurd (Finmap.mem_of_lookup_eq_some hl) hmem'
      · rcases hgroup with ⟨c', hl', -⟩ | ⟨-, -, rfl⟩ | ⟨-, hstate, rfl⟩
        · exact absurd (Finmap.mem_of_lookup_eq_some hl') hmem
        · rfl
        · rcases hsame with hmem' | hon' | ⟨-, hkey⟩
          · exact absurd hmem' hmem
          · exact absurd hon' hstate
          · exact absurd hon (fun h => h.elim hkey hstate)
      · rcases hgroup with ⟨c', hl', -⟩ | ⟨-, hon, -⟩ | ⟨-, hstate, rfl⟩
        · exact absurd (Finmap.mem_of_lookup_eq_some hl') hmem
        · exact absurd (Or.inr hon) hoff
        · rcases hsame with hmem' | hon' | ⟨hid, -⟩
          · exact absurd hmem' hmem
          · exact absurd hon' hstate
          · rw [hid]
    exact ⟨d, hd, heq ▸ hd'⟩

/-- A server on a database whose group 1 has the members 1 and 2, neither of
them registered. -/
def twoStrangers : Server :=
  Server.start 0 { Database.empty with groupuser := [⟨1, 1, lit "normal"⟩, ⟨1, 2, lit "normal"⟩] }

def strangerGroupChat : Json :=
  Sample.fields .groupChatMsg [("id", ofInt32 1), ("groupid", ofInt32 1), ("msg", .str (lit "hi"))]

theorem strangerGroupChat_fields : GroupFields strangerGroupChat 1 1 7 := by
  constructor <;> simp [strangerGroupChat, Sample.fields, intAt_lit]

/-- With the recipient connected here both send. -/
theorem routes_agree_connected :
    ∃ d, Decides JsonText.codec 1 (Sample.chat 1 2) 7 2
        { twoStrangers with userConnMap := Finmap.singleton 2 5 }
        (oneChat JsonText.codec (fun _ => MySQL.up) 1 (Sample.chat 1 2)
          { twoStrangers with userConnMap := Finmap.singleton 2 5 }).state d ∧
      Decides JsonText.codec 1 strangerGroupChat 7 2
        { twoStrangers with userConnMap := Finmap.singleton 2 5 }
        (groupChat JsonText.codec (fun _ => MySQL.up) 1 strangerGroupChat
          { twoStrangers with userConnMap := Finmap.singleton 2 5 }).state d := by
  have hf := Sample.chat_fields 1 2
  refine (routes_agree_iff JsonText.codec_lawful MySQL.up 2
    { twoStrangers with userConnMap := Finmap.singleton 2 5 } rfl rfl 1 1 (by decide +kernel)
    (by decide +kernel) hf strangerGroupChat_fields (by decide +kernel)).mpr (Or.inl ?_)
  exact (Finmap.mem_singleton _ _ _).mpr rfl

/-- A chat to the unregistered user 2 is stored for user -1, the group chat for
user 2. -/
theorem routes_disagree :
    ¬ ∀ s, (Server.machine JsonText.codec Fresh).Reachable s → ∀ (m : MySQL) (x : Int32)
      (my my' : Nat → MySQL), my 0 = m → my' 1 = m → ∀ (conn conn' : Conn) (js js' : Json)
      (msgId msgId' userid groupid : Int32), js.utf8 → js'.utf8 → ChatFields js x msgId →
      GroupFields js' userid groupid msgId' →
      GroupModel.queryGroupUsers (my' 0) userid groupid s.db = [x] →
      ∃ d, Decides JsonText.codec conn js msgId x s (oneChat JsonText.codec my conn js s).state d ∧
        Decides JsonText.codec conn' js' msgId' x s
          (groupChat JsonText.codec my' conn' js' s).state d := by
  intro h
  have hstart : Fresh twoStrangers := ⟨rfl, rfl, rfl, rfl, by rintro id row ⟨⟩⟩
  have hf := Sample.chat_fields 1 2
  obtain ⟨d, hd, hd'⟩ := h twoStrangers (.start hstart) MySQL.up 2 (fun _ => MySQL.up)
    (fun _ => MySQL.up) rfl rfl 1 1 (Sample.chat 1 2) strangerGroupChat 7 7 1 1 (by decide +kernel)
    (by decide +kernel) hf strangerGroupChat_fields (by decide +kernel)
  have hone : (oneChat JsonText.codec (fun _ => MySQL.up) 1 (Sample.chat 1 2)
      twoStrangers).state.dbQueue =
      [offlineMsgTask (-1) (JsonText.codec.text (Sample.chat 1 2))] := by decide +kernel
  have hgroup : (groupChat JsonText.codec (fun _ => MySQL.up) 1 strangerGroupChat
      twoStrangers).state.dbQueue = [offlineMsgTask 2 (JsonText.codec.text strangerGroupChat)] := by
    decide +kernel
  have h1 : d = .queued (-1) := Decision.tasks_eq_queued (hd.queue.symm.trans hone)
  have h2 : d = .queued 2 := Decision.tasks_eq_queued (hd'.queue.symm.trans hgroup)
  rw [h1] at h2
  cases h2

end MyChat
