import MyChat.LoginView
import MyChat.Routing

/-! What a chat's recipient receives and whether the client can process it. The
server forwards the request's own text, having read two or three of its fields;
the client reads others. -/

namespace MyChat
open Json

variable {codec : JsonCodec}

/-! ## The text that is forwarded -/

/-- Every message that goes on to a user has this text. -/
structure Carries (text : Bytes) (a : Added) : Prop where
  sent : ∀ e ∈ a.sent, e.forUser ≠ none → e.frame.text = text
  tasks : ∀ t ∈ a.tasks, t.type = .insertOfflineMsg ∧ t.msg = text
  deliveries : ∀ d ∈ a.deliveries, d.message = cStr text

namespace Carries

variable {text : Bytes} {a b : Added}

theorem nothing (text : Bytes) : Carries text ⟨[], [], []⟩ := ⟨by simp, by simp, by simp⟩

theorem append (h : Carries text a) (h' : Carries text b) :
    Carries text ⟨a.sent ++ b.sent, a.tasks ++ b.tasks, a.deliveries ++ b.deliveries⟩ := by
  refine ⟨fun e he => ?_, fun t ht => ?_, fun d hd => ?_⟩
  · exact (List.mem_append.mp he).elim (h.sent e) (h'.sent e)
  · exact (List.mem_append.mp ht).elim (h.tasks t) (h'.tasks t)
  · exact (List.mem_append.mp hd).elim (h.deliveries d) (h'.deliveries d)

/-- A frame to the requester is not a forwarded one. -/
theorem send (text : Bytes) (conn : Conn) (frame : Frame) :
    Carries text ⟨[⟨conn, none, frame⟩], [], []⟩ :=
  ⟨by simp, by simp, by simp⟩

end Carries

theorem Routed.carries {s s' : Server} {r : Int32} {text : Bytes} {msgId : Int32}
    (h : Routed s r text msgId s') : ∃ a, Appends s s' a ∧ Carries text a := by
  cases h with
  | sent c _ =>
    refine ⟨⟨[⟨c, some r, groupChatFrame text msgId⟩], [], []⟩, ⟨rfl, rfl, by simp [Server.sendTo],
      by simp [Server.sendTo]⟩, by simp [groupChatFrame, encryptedMessageSvr], by simp, by simp⟩
  | published _ => exact ⟨_, .publish r text s, by simp, by simp, by simp⟩
  | queued _ =>
    exact ⟨_, .push (offlineMsgTask r text) s, by simp, by simp [offlineMsgTask], by simp⟩

theorem routeMembers_carries (my : Nat → MySQL) (text : Bytes) (msgId : Int32) (n : Nat)
    (ids : List Int32) (s : Server) :
    ∃ a, Appends s (routeMembers my text msgId n ids s) a ∧ Carries text a := by
  induction ids generalizing n s with
  | nil => exact ⟨_, .nothing s, .nothing text⟩
  | cons r ids ih =>
    obtain ⟨a, ha, hca⟩ := (routeMember_routed (my n) text msgId r s).carries
    obtain ⟨b, hb, hcb⟩ := ih (n + 1) (routeMember (my n) text msgId r s)
    exact ⟨_, ha.trans hb, hca.append hcb⟩

/-- A chat that its handler takes on, with the fields the handler read. -/
structure TakenOn (js : Json) (msgid msgId : Int32) : Prop where
  hasType : js.intAt (lit "msgid") = some msgid
  hasId : js.intAt (lit "msgId") = some msgId
  hasFields : msgid = EnMsgType.oneChatMsg.val ∧ (∃ toid, js.intAt (lit "toid") = some toid) ∨
    msgid = EnMsgType.groupChatMsg.val ∧ (∃ id, js.intAt (lit "id") = some id) ∧
      ∃ groupid, js.intAt (lit "groupid") = some groupid

/-- A chat handler forwards the request's text or nothing. -/
theorem getHandler_carries (hc : codec.Lawful) (my : Nat → MySQL) (conn : Conn) {js : Json}
    {msgid : Int32} (hid : js.intAt (lit "msgid") = some msgid)
    (hchat : handlerOf msgid = some .oneChatMsg ∨ handlerOf msgid = some .groupChatMsg)
    (s : Server) :
    (getHandler codec my msgid conn js s).state = s ∨
      (∃ msgId, TakenOn js msgid msgId) ∧
        ∃ a, Appends s (getHandler codec my msgid conn js s).state a ∧
          Carries (codec.text js) a := by
  rcases hchat with ht | ht
  · have hval := handlerOf_some ht
    simp only [getHandler, ht]
    rcases oneChat_cases hc my conn js s with ⟨-, h⟩ | ⟨toid, msgId, hf, h⟩
    · exact Or.inl (by rw [h])
    have htaken : ∃ msgId, TakenOn js msgid msgId :=
      ⟨msgId, hid, hf.msgId, Or.inl ⟨hval, toid, hf.toid⟩⟩
    rcases h with ⟨-, h⟩ | ⟨-, c, hl, h⟩ | ⟨-, hl, -, h⟩ | ⟨-, hl, -, h⟩
    · exact Or.inl (by rw [h])
    · have hr : Routed s toid (codec.text js) msgId (s.sendTo toid c (replyFrame codec js msgId)) :=
        .sent c hl
      obtain ⟨a, ha, hca⟩ := hr.carries
      rw [h]
      exact Or.inr ⟨htaken, _, ha.trans (.send conn _ _), hca.append (.send _ conn _)⟩
    · have hr : Routed s toid (codec.text js) msgId (s.publish toid (codec.text js)) :=
        .published hl
      obtain ⟨a, ha, hca⟩ := hr.carries
      rw [h]
      exact Or.inr ⟨htaken, a, ha, hca⟩
    · have ha :=
        (Appends.push (offlineMsgTask (UserModel.query (my 0) toid s.db).id (codec.text js))
          s).trans
        (.send conn (ackFrame codec msgId) _)
      rw [h]
      exact Or.inr ⟨htaken, _, ha, by simp, by simp [offlineMsgTask], by simp⟩
  · have hval := handlerOf_some ht
    simp only [getHandler, ht]
    rcases groupChat_cases hc my conn js s with ⟨-, h⟩ | ⟨u, g, msgId, hf, h⟩
    · exact Or.inl (by rw [h])
    have htaken : ∃ msgId, TakenOn js msgid msgId :=
      ⟨msgId, hid, hf.msgId, Or.inr ⟨hval, ⟨u, hf.id⟩, g, hf.groupid⟩⟩
    rcases h with ⟨-, h⟩ | ⟨-, h⟩
    · exact Or.inl (by rw [h])
    · obtain ⟨a, ha, hca⟩ := routeMembers_carries my (codec.text js) msgId 1
        (GroupModel.queryGroupUsers (my 0) u g s.db) s
      rw [h]
      exact Or.inr ⟨htaken, _, ha.trans (.send conn _ _), hca.append (.send _ conn _)⟩

/-! ## What the client reads -/

theorem failure_seq {α β : Type} (x : Except Failure α) (y : Except Failure β) :
    Except.failure (x >>= fun _ => y) = none ↔
      Except.failure x = none ∧ Except.failure y = none := by
  cases x with
  | error e => simp [Except.failure, Bind.bind, Except.bind]
  | ok a => simp [Except.failure, ok_bind]

theorem failure_pure {α : Type} (a : α) : Except.failure (pure a : Except Failure α) = none := rfl

theorem failure_getAt {α : Type} (get : Json → Option α) (j : Json) (k : String) :
    Except.failure (getAt get j k) = none ↔ ((j.index (lit k)).bind get).isSome := by
  unfold getAt
  cases (j.index (lit k)).bind get <;> simp [Except.failure]

/-- The member is absent, null or of the type read. -/
def FitsGuard {α : Type} (get : Json → Option α) (j : Json) (k : String) : Prop :=
  ∀ v, j.index (lit k) = some v → v.isNull = false → (get v).isSome

theorem failure_guardedAt {α : Type} (get : Json → Option α) (j : Json) (k : String) :
    Except.failure (guardedAt get j k) = none ↔ FitsGuard get j k := by
  unfold guardedAt FitsGuard
  cases j.index (lit k) with
  | none => simp [Except.failure]
  | some v =>
    cases hv : v.isNull with
    | true => simp [Except.failure, hv]
    | false =>
      cases hg : get v <;> simp [Except.failure, hv, hg]

theorem failure_showChat (js : Json) (receiver : String) :
    Except.failure (showChat js receiver) = none ↔
      (js.stringAt (lit "time")).isSome ∧ (js.stringAt (lit "name")).isSome ∧
        (js.stringAt (lit "msg")).isSome ∧ (js.intAt (lit "id")).isSome ∧
          (js.intAt (lit receiver)).isSome := by
  simp only [showChat, failure_seq, failure_getAt, failure_pure, and_true, Json.stringAt,
    Json.intAt]

theorem uint32At_of_intAt {js : Json} {k : Bytes} {n : Int32} (h : js.intAt k = some n) :
    ∃ m, js.uint32At k = some m := by
  obtain ⟨v, hv, hn⟩ := Option.bind_eq_some_iff.mp h
  rw [Json.uint32At, hv]
  cases v with
  | bool b => exact ⟨_, rfl⟩
  | int n => exact ⟨_, rfl⟩
  | float bits => exact ⟨_, rfl⟩
  | _ => cases hn

/-- The fields that the client reads of a chat in a frame of its own. -/
def ShownFields (js : Json) : Prop :=
  (js.stringAt (lit "time")).isSome ∧ (js.stringAt (lit "name")).isSome ∧
    (js.stringAt (lit "msg")).isSome ∧ (js.intAt (lit "id")).isSome

/-- Among the offline messages it makes do without them. -/
def StoredFields (js : Json) : Prop :=
  FitsGuard getString js "time" ∧ FitsGuard getString js "name" ∧ FitsGuard getString js "msg"

theorem readMessage_ok_iff {α : Type} {js : Json} {msgid msgId : Int32} (h : TakenOn js msgid msgId)
    (c : ClientState α) : (readMessage codec js c).thrown = none ↔ ShownFields js := by
  obtain ⟨m, hm⟩ := uint32At_of_intAt h.hasId
  have htype : msgid ∈ ackTypes.map EnMsgType.val := by
    rcases h.hasFields with ⟨rfl, -⟩ | ⟨rfl, -⟩ <;> decide
  -- a `msg` that is no string stops the reader before it looks at the type
  have hack : ackOf js = .ok (some m) ∨
      ackOf js = .error .typeError ∧ js.stringAt (lit "msg") = none := by
    simp only [ackOf, h.hasType, hm, htype, ↓reduceIte]
    split
    · exact Or.inl rfl
    · next hmsg =>
      refine Or.inr ⟨rfl, ?_⟩
      rw [not_or, Option.not_isSome_iff_eq_none] at hmsg
      cases hi : js.index (lit "msg") with
      | none => simp [Json.stringAt, hi]
      | some v => simpa [Json.stringAt, hi] using hmsg.2
  rcases hack with hack | ⟨hack, hmsg⟩
  · simp only [readMessage, hack, h.hasType]
    rcases h.hasFields with ⟨rfl, toid, hto⟩ | ⟨rfl, ⟨id, hid⟩, groupid, hgroup⟩
    · rw [if_pos rfl, failure_showChat, hto]
      simp [ShownFields]
    · have hne : EnMsgType.groupChatMsg.val ≠ EnMsgType.oneChatMsg.val := by decide
      rw [if_neg hne, if_pos rfl, failure_showChat, hgroup]
      simp [ShownFields]
  · simp [readMessage, hack, h.hasType, ShownFields, hmsg]

theorem showOfflineMsg_ok_iff (hc : codec.Lawful) {js : Json} (hj : js.canon) (hu : js.utf8)
    {msgid msgId : Int32} (h : TakenOn js msgid msgId) :
    Except.failure (showOfflineMsg codec (codec.text js)) = none ↔ StoredFields js := by
  have hparse : parseText codec (codec.text js) = .ok js := by
    rw [parseText, parse_text hc hj hu]
  obtain ⟨v, hv, hint⟩ := Option.bind_eq_some_iff.mp h.hasType
  have hnull : v.isNull = false := by cases v with
    | null => cases hint
    | _ => rfl
  have htype : msgid = EnMsgType.oneChatMsg.val ∨ msgid = EnMsgType.groupChatMsg.val :=
    h.hasFields.imp And.left And.left
  simp only [showOfflineMsg, hparse, ok_bind, guardedAt_eq hv hnull hint, Option.some.injEq, htype,
    ↓reduceIte, failure_seq, failure_guardedAt, failure_pure, and_true, StoredFields]

/-! ## From the request to the client -/

/-- How a chat comes to the client: in a frame of its own or in the list of a
login reply. -/
inductive Arrival
  | frame
  | offlinemsg

/-- The texts in which the chat of a request comes to its recipients. A server
that gets it through Redis may be in any state, and so may the database when a
worker stores it. -/
inductive Arrives (codec : JsonCodec) (my : Nat → MySQL) (msgid : Int32) (conn : Conn) (js : Json)
    (s : Server) : Arrival → Bytes → Prop
  | sent {e : Sent} (he : e ∈ (Added.between s (getHandler codec my msgid conn js s).state).sent)
      (hu : e.forUser ≠ none) : Arrives codec my msgid conn js s .frame e.frame.text
  | published {d : Delivery}
      (hd : d ∈ (Added.between s (getHandler codec my msgid conn js s).state).deliveries)
      (my' : MySQL) (s' : Server) {e : Sent}
      (he : e ∈ (Added.between s'
        (handleRedisSubscribeMessage codec my' d.channel d.message s').state).sent) :
      Arrives codec my msgid conn js s .frame e.frame.text
  | stored {t : DbTaskArgs}
      (ht : t ∈ (Added.between s (getHandler codec my msgid conn js s).state).tasks)
      (my' : MySQL) {db db' : Database} (hw : dbWork my' t db = .ok db') {r : Int32} {text : Bytes}
      (hrow : db'.offlinemessage = db.offlinemessage ++ [(r, text)]) :
      Arrives codec my msgid conn js s .offlinemsg text
  | missed {d : Delivery}
      (hd : d ∈ (Added.between s (getHandler codec my msgid conn js s).state).deliveries)
      (my' : MySQL) (s' : Server) {r : Int32} {text : Bytes}
      (hrow : (handleRedisSubscribeMessage codec my' d.channel d.message
        s').state.db.offlinemessage =
        s'.db.offlinemessage ++ [(r, text)]) :
      Arrives codec my msgid conn js s .offlinemsg text

/-- The client takes the text without an exception, whatever it has done before;
in a list, if no other message of the list throws. -/
def Processed (codec : JsonCodec) : Arrival → Bytes → Prop
  | .frame, text => ∀ c : ClientState Bytes, (readText codec text c).thrown = none
  | .offlinemsg, text => ∀ (my : Nat → MySQL) (id : Int32) (user : User) (msgId : Int32)
      (db : Database) (response : Json) (g : Globals),
      loginReply codec my id user msgId db = some response →
      text ∈ OfflineMsgModel.query (my 1) id db →
      (∀ t ∈ OfflineMsgModel.query (my 1) id db, t ≠ text →
        Except.failure (showOfflineMsg codec t) = none) →
      (doLoginResponse codec response g).thrown = none

/-- What the client's code at that place needs the request to have. -/
def Displayable : Arrival → Json → Prop
  | .frame, js => ShownFields js
  | .offlinemsg, js => StoredFields js

theorem insert_adds {my : MySQL} {userid r : Int32} {msg text : Bytes} {db db' : Database}
    (h : OfflineMsgModel.insert my userid msg db = .ok db')
    (hrow : db'.offlinemessage = db.offlinemessage ++ [(r, text)]) : text = cStr msg := by
  unfold OfflineMsgModel.insert at h
  split at h
  · split at h
    · cases h
      have hpair := List.append_cancel_left hrow
      simp only [List.cons.injEq, Prod.mk.injEq, and_true] at hpair
      exact hpair.2.symm
    · cases h
      simp at hrow
  · cases h

/-- The other server sends the request's text on, or stores it. -/
theorem redis_text (hc : codec.Lawful) {js : Json} (hj : js.canon) (hu : js.utf8) (my : MySQL)
    (userid : Int32) (s : Server) :
    (∀ e ∈ (Added.between s
        (handleRedisSubscribeMessage codec my userid (codec.text js) s).state).sent,
      e.frame.text = codec.text js) ∧
    ∀ r text,
      (handleRedisSubscribeMessage codec my userid (codec.text js) s).state.db.offlinemessage =
      s.db.offlinemessage ++ [(r, text)] → text = codec.text js := by
  have hcstr : cStr (codec.text js) = codec.text js := hc.cStr_dump (hc.dump_eq hu)
  unfold handleRedisSubscribeMessage
  split
  · rw [parse_text hc hj hu]
    simp only [hc.dump_eq hu]
    split
    · simp [Added.between, Server.sendTo, Server.onHeartBeat, encryptedMessageSvr]
    · simp [Added.between, Server.onHeartBeat]
  · split
    · simp [Added.between]
    · next db hdb =>
      refine ⟨by simp [Added.between], fun r text hrow => ?_⟩
      rw [insert_adds hdb hrow, hcstr]

/-- Whichever way, what arrives is the text of a request that was taken on. -/
theorem arrives_text (hc : codec.Lawful) {my : Nat → MySQL} {conn : Conn} {js : Json}
    (hj : js.canon) (hu : js.utf8) {msgid : Int32} (hid : js.intAt (lit "msgid") = some msgid)
    (hchat : handlerOf msgid = some .oneChatMsg ∨ handlerOf msgid = some .groupChatMsg) {s : Server}
    {way : Arrival} {text : Bytes} (h : Arrives codec my msgid conn js s way text) :
    (∃ msgId, TakenOn js msgid msgId) ∧ text = codec.text js := by
  have hcstr : cStr (codec.text js) = codec.text js := hc.cStr_dump (hc.dump_eq hu)
  obtain ⟨a, ha, htaken, hca⟩ : ∃ a, Appends s (getHandler codec my msgid conn js s).state a ∧
      (a = ⟨[], [], []⟩ ∨ ∃ msgId, TakenOn js msgid msgId) ∧ Carries (codec.text js) a := by
    rcases getHandler_carries hc my conn hid hchat s with hs | ⟨htaken, a, ha, hca⟩
    · rw [hs]
      exact ⟨_, .nothing s, Or.inl rfl, .nothing _⟩
    · exact ⟨a, ha, Or.inr htaken, hca⟩
  cases h with
  | sent he hfor =>
    rw [ha.between] at he
    exact ⟨htaken.resolve_left (by rintro rfl; cases he), hca.sent _ he hfor⟩
  | published hd my' s' he =>
    rw [ha.between] at hd
    rw [hca.deliveries _ hd, hcstr] at he
    exact ⟨htaken.resolve_left (by rintro rfl; cases hd), (redis_text hc hj hu my' _ s').1 _ he⟩
  | stored ht my' hw hrow =>
    rw [ha.between] at ht
    obtain ⟨htype, hmsg⟩ := hca.tasks _ ht
    simp only [dbWork, htype] at hw
    refine ⟨htaken.resolve_left (by rintro rfl; cases ht), ?_⟩
    rw [insert_adds hw hrow, hmsg, hcstr]
  | missed hd my' s' hrow =>
    rw [ha.between] at hd
    rw [hca.deliveries _ hd, hcstr] at hrow
    exact ⟨htaken.resolve_left (by rintro rfl; cases hd), (redis_text hc hj hu my' _ s').2 _ _ hrow⟩

theorem processed_frame_iff (hc : codec.Lawful) {js : Json} (hj : js.canon) (hu : js.utf8)
    {msgid msgId : Int32} (h : TakenOn js msgid msgId) :
    Processed codec .frame (codec.text js) ↔ ShownFields js := by
  have hread : ∀ c : ClientState Bytes, (readText codec (codec.text js) c).thrown = none ↔
      ShownFields js := by
    intro c
    rw [readText, parse_text hc hj hu]
    exact readMessage_ok_iff h c
  exact ⟨fun hp => (hread ⟨Client.start, {}, 0⟩).mp (hp _), fun hf c => (hread c).mpr hf⟩

theorem processed_offlinemsg_iff (hc : codec.Lawful) {js : Json} (hj : js.canon) (hu : js.utf8)
    {msgid msgId : Int32} (h : TakenOn js msgid msgId) :
    Processed codec .offlinemsg (codec.text js) ↔ StoredFields js := by
  have hshow := showOfflineMsg_ok_iff hc hj hu h
  constructor
  · intro hp
    -- a login of user 1, for whom this message alone is stored
    have hreply : loginReply codec (fun _ => MySQL.up) 1 {} 0
        { Database.empty with offlinemessage := [(1, codec.text js)] } =
          some (loginResponse {} 0 [codec.text js] [] []) := rfl
    have hquery : OfflineMsgModel.query MySQL.up 1
        { Database.empty with offlinemessage := [(1, codec.text js)] } = [codec.text js] := rfl
    have hnone := hp _ _ _ _ _ _ {} hreply (by simp [hquery]) (by simp [hquery])
    rw [(doLoginResponse_loginReply hc hreply {}).2, readEach_eq_none, hquery] at hnone
    exact hshow.mp (hnone _ (by simp))
  · intro hf my id user m db response g hreply _ hothers
    rw [(doLoginResponse_loginReply hc hreply g).2, readEach_eq_none]
    intro t ht
    by_cases htext : t = codec.text js
    · rw [htext]
      exact hshow.mpr hf
    · exact hothers t ht htext

/-- For every chat that a handler takes on and every way it comes to a client:
it is processed exactly when it has the fields that the code there reads. -/
theorem forwarded_processed_iff (hc : codec.Lawful) {my : Nat → MySQL} {conn : Conn} {js : Json}
    (hj : js.canon) (hu : js.utf8) {msgid : Int32} (hid : js.intAt (lit "msgid") = some msgid)
    (hchat : handlerOf msgid = some .oneChatMsg ∨ handlerOf msgid = some .groupChatMsg) {s : Server}
    {way : Arrival} {text : Bytes} (h : Arrives codec my msgid conn js s way text) :
    Processed codec way text ↔ Displayable way js := by
  obtain ⟨⟨msgId, htaken⟩, rfl⟩ := arrives_text hc hj hu hid hchat h
  cases way with
  | frame => exact processed_frame_iff hc hj hu htaken
  | offlinemsg => exact processed_offlinemsg_iff hc hj hu htaken

/-- A server on a database without users, where user 2 is connected. -/
def recipientConnected : Server :=
  { Server.start 0 Database.empty with userConnMap := Finmap.singleton 2 5 }

theorem forwarded_processed_chat :
    ∃ text, Arrives JsonText.codec (fun _ => MySQL.up) EnMsgType.oneChatMsg.val 1 (Sample.chat 1 2)
      recipientConnected .frame text ∧ Processed JsonText.codec .frame text := by
  have h : Arrives JsonText.codec (fun _ => MySQL.up) EnMsgType.oneChatMsg.val 1 (Sample.chat 1 2)
      recipientConnected .frame (replyFrame JsonText.codec (Sample.chat 1 2) 7).text :=
    .sent (e := ⟨5, some 2, replyFrame JsonText.codec (Sample.chat 1 2) 7⟩) (by decide +kernel)
    (by simp)
  refine ⟨_, h,
    (forwarded_processed_iff JsonText.codec_lawful (by decide +kernel) (by decide +kernel)
    (by decide +kernel) (by decide) h).mpr ?_⟩
  exact ⟨by decide +kernel, by decide +kernel, by decide +kernel, by decide +kernel⟩

/-- A chat with no field but those that the handler reads. -/
def bareChat : Json := Sample.fields .oneChatMsg [("id", ofInt32 1), ("toid", ofInt32 2)]

/-- It is sent to user 2, whose client ends by an exception. -/
theorem bareChat_throws :
    ¬ ∀ (my : Nat → MySQL) (msgid : Int32) (conn : Conn) (js : Json) (s : Server) (way : Arrival)
      (text : Bytes), js.canon → js.utf8 → js.intAt (lit "msgid") = some msgid →
      (handlerOf msgid = some .oneChatMsg ∨ handlerOf msgid = some .groupChatMsg) →
      (getHandler JsonText.codec my msgid conn js s).thrown = none →
      Arrives JsonText.codec my msgid conn js s way text → Processed JsonText.codec way text := by
  intro h
  have harrives : Arrives JsonText.codec (fun _ => MySQL.up) EnMsgType.oneChatMsg.val 1 bareChat
      recipientConnected .frame (replyFrame JsonText.codec bareChat 7).text :=
    .sent (e := ⟨5, some 2, replyFrame JsonText.codec bareChat 7⟩) (by decide +kernel) (by simp)
  have hp := h (fun _ => MySQL.up) EnMsgType.oneChatMsg.val 1 bareChat recipientConnected .frame _
    (by decide +kernel) (by decide +kernel) (by decide +kernel) (by decide) (by decide +kernel)
    harrives
  have htaken : TakenOn bareChat EnMsgType.oneChatMsg.val 7 :=
    ⟨by decide +kernel, by decide +kernel, Or.inl ⟨rfl, 2, by decide +kernel⟩⟩
  have hfields := (processed_frame_iff JsonText.codec_lawful (by decide +kernel) (by decide +kernel)
    htaken).mp hp
  have hnone : bareChat.stringAt (lit "time") = none := by decide +kernel
  rw [ShownFields, hnone] at hfields
  cases hfields.1

end MyChat
