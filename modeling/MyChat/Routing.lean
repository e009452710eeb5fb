import MyChat.Routes
import MyChat.ServerRun

/-! Where a chat for a user can be: in a frame sent to that user, in a task that
stores it, on its way through Redis, or in the offline table. No step of a
server lowers their number, but for the steps that lose a chat. -/

namespace MyChat
open Json

section
variable (codec : JsonCodec) (r : Int32) (t : Bytes)

/-- How often a login reply for `r` lists `t` among the offline messages. -/
def loginReplyHands (frame : Frame) : Nat :=
  match codec.parse frame.text with
  | none => 0
  | some j =>
      if j.intAt (lit "msgid") = some EnMsgType.loginMsgAck.val ∧ j.intAt (lit "id") = some r then
        match j.index (lit "offlinemsg") with
        | some (.arr v) => v.countP fun x => x.getString = some t
        | _ => 0
      else 0

/-- How often a frame hands `t` to `r`: once when it was written to the
connection of `r`, and as often as it says when it is a login reply. -/
def Sent.hands (e : Sent) : Nat :=
  match e.forUser with
  | some u => if u = r ∧ e.frame.text = t then 1 else 0
  | none => loginReplyHands codec r t e.frame

/-- The task will store `t` for `r`. -/
def DbTaskArgs.holds (k : DbTaskArgs) : Bool :=
  k.type = .insertOfflineMsg ∧ k.toid = r ∧ cStr k.msg = t

def Delivery.holds (d : Delivery) : Bool := d.channel = r ∧ d.message = t

namespace Server

def handed (s : Server) : Nat := (s.sent.map (Sent.hands codec r t)).sum

def queued (s : Server) : Nat := s.dbQueue.countP (DbTaskArgs.holds r t)

def travelling (s : Server) : Nat := s.redis.inbox.countP (Delivery.holds r t)

def stored (s : Server) : Nat := s.db.offlinemessage.count (r, t)

def accounts (s : Server) : Nat :=
  s.handed codec r t + s.queued r t + s.travelling r t + s.stored r t

end Server

/-- What additions hand over, queue and put on the way. -/
def Added.accounts (a : Added) : Nat :=
  (a.sent.map (Sent.hands codec r t)).sum + a.tasks.countP (DbTaskArgs.holds r t) +
    a.deliveries.countP (Delivery.holds r t)

end

variable {codec : JsonCodec} {r : Int32} {t : Bytes}

theorem Appends.accounts {s s' : Server} {a : Added} (h : Appends s s' a)
    (hdb : s'.db.offlinemessage = s.db.offlinemessage) :
    s'.accounts codec r t = s.accounts codec r t + a.accounts codec r t := by
  have hsent : s'.handed codec r t =
      s.handed codec r t + (a.sent.map (Sent.hands codec r t)).sum := by
    rw [Server.handed, h.sent, List.map_append, List.sum_append]
    rfl
  have htasks : s'.queued r t = s.queued r t + a.tasks.countP (DbTaskArgs.holds r t) := by
    rw [Server.queued, h.tasks, List.countP_append]
    rfl
  have hdel : s'.travelling r t = s.travelling r t + a.deliveries.countP (Delivery.holds r t) := by
    rw [Server.travelling, h.deliveries, List.countP_append]
    rfl
  have hst : s'.stored r t = s.stored r t := by rw [Server.stored, hdb]; rfl
  rw [Server.accounts, hsent, htasks, hdel, hst, Server.accounts, Added.accounts]
  omega

/-! ## Chats -/

/-- A server listens on the channel of `r`. -/
def Subscribed (r : Int32) (s : Server) : Prop := ∃ sub ∈ s.redis.subs, sub.2 = r

instance (r : Int32) (s : Server) : Decidable (Subscribed r s) := by
  unfold Subscribed; infer_instance

/-- One if the chat `text` for `k` is the one looked at. -/
def isChat (r : Int32) (t : Bytes) (k : Int32) (text : Bytes) : Nat :=
  if k = r ∧ text = t then 1 else 0

theorem accounts_sendTo (codec : JsonCodec) (k : Int32) (c : Conn) (text : Bytes) (msgId : Int32)
    (s : Server) :
    (s.sendTo k c (groupChatFrame text msgId)).accounts codec r t =
      s.accounts codec r t + isChat r t k text := by
  have ha : Appends s (s.sendTo k c (groupChatFrame text msgId))
      ⟨[⟨c, some k, groupChatFrame text msgId⟩], [], []⟩ :=
    ⟨rfl, rfl, by simp [Server.sendTo], by simp [Server.sendTo]⟩
  rw [ha.accounts rfl]
  simp [Added.accounts, Sent.hands, groupChatFrame, encryptedMessageSvr, isChat]

theorem accounts_offlineMsg (k : Int32) {text : Bytes} (htext : cStr text = text) (s : Server) :
    (s.push (offlineMsgTask k text)).accounts codec r t =
      s.accounts codec r t + isChat r t k text := by
  rw [(Appends.push (offlineMsgTask k text) s).accounts rfl]
  simp [Added.accounts, DbTaskArgs.holds, offlineMsgTask, htext, List.countP_cons, isChat]

theorem Appends.publish (k : Int32) (text : Bytes) (s : Server) :
    Appends s (s.publish k text) ⟨[], [], (s.redis.subs.filter (·.2 = k)).map fun sub =>
      ⟨sub.1, k, cStr text⟩⟩ :=
  ⟨rfl, by simp [Server.publish], by simp [Server.publish], rfl⟩

theorem accounts_le_publish (k : Int32) (text : Bytes) (s : Server) :
    s.accounts codec r t ≤ (s.publish k text).accounts codec r t := by
  rw [(Appends.publish k text s).accounts rfl]
  exact Nat.le_add_right _ _

/-- A publication that someone hears is on its way. -/
theorem accounts_publish {k : Int32} {text : Bytes} (htext : cStr text = text) {s : Server}
    (hsub : Subscribed k s) :
    s.accounts codec r t + isChat r t k text ≤ (s.publish k text).accounts codec r t := by
  rw [(Appends.publish k text s).accounts rfl]
  refine Nat.add_le_add_left ?_ _
  unfold isChat
  split
  · next hkt =>
    obtain ⟨rfl, rfl⟩ := hkt
    obtain ⟨sub, hmem, hk⟩ := hsub
    have hpos : 0 < ((s.redis.subs.filter (·.2 = k)).map fun sub =>
        (⟨sub.1, k, cStr text⟩ : Delivery)).countP (Delivery.holds k text) := by
      rw [List.countP_pos_iff]
      refine ⟨⟨sub.1, k, cStr text⟩, List.mem_map.mpr ⟨sub, ?_, rfl⟩, ?_⟩
      · exact List.mem_filter.mpr ⟨hmem, by simpa using hk⟩
      · simp [Delivery.holds, htext]
    simpa [Added.accounts] using hpos
  · exact Nat.zero_le _

theorem accounts_send (conn : Conn) (frame : Frame) (s : Server) :
    (s.send conn frame).accounts codec r t =
      s.accounts codec r t + loginReplyHands codec r t frame := by
  rw [(Appends.send conn frame s).accounts rfl]
  simp [Added.accounts, Sent.hands]

/-- A group chat is accounted for once for each time a member is listed. -/
theorem accounts_routeMembers (codec : JsonCodec) (my : Nat → MySQL) {text : Bytes}
    (htext : cStr text = text) (msgId : Int32) (n : Nat) (ids : List Int32) (s : Server)
    (hsub : ∀ id ∈ ids, ∀ n, s.userConnMap.lookup id = none →
      (UserModel.query (my n) id s.db).state = online → Subscribed id s) :
    s.accounts codec r t + (if text = t then ids.count r else 0) ≤
      (routeMembers my text msgId n ids s).accounts codec r t := by
  induction ids generalizing n s with
  | nil => simp [routeMembers]
  | cons id ids ih =>
    have hone : s.accounts codec r t + isChat r t id text ≤
        (routeMember (my n) text msgId id s).accounts codec r t := by
      unfold routeMember
      split
      · exact (accounts_sendTo codec id _ text msgId s).ge
      · next hl =>
        split
        · next hon => exact accounts_publish htext (hsub id (by simp) n hl hon)
        · exact (accounts_offlineMsg id htext s).ge
    have hkeep := (routeMember_routed (my n) text msgId id s).keeps
    have hrest := ih (n + 1) (routeMember (my n) text msgId id s) (by
      intro k hk n hl hon
      rw [hkeep.1] at hl
      rw [hkeep.2.1] at hon
      obtain ⟨sub, hmem, hsk⟩ := hsub k (List.mem_cons_of_mem _ hk) n hl hon
      exact ⟨sub, hkeep.2.2 ▸ hmem, hsk⟩)
    rw [routeMembers]
    refine Nat.le_trans ?_ hrest
    have hcount : (if text = t then (id :: ids).count r else 0) =
        isChat r t id text + if text = t then ids.count r else 0 := by
      unfold isChat
      rw [List.count_cons]
      by_cases htt : text = t
      · by_cases hid : id = r
        · simp only [htt, hid, beq_self_eq_true, and_self, ↓reduceIte]
          omega
        · simp [htt, hid]
      · simp [htt]
    omega

/-! ## Logins -/

theorem count_remove (id : Int32) (m : OfflineTable Bytes) :
    (m.remove id).count (r, t) = if r = id then 0 else m.count (r, t) := by
  unfold OfflineTable.remove
  split
  · next h =>
    subst h
    rw [List.count_eq_zero]
    intro hmem
    simpa using (List.mem_filter.mp hmem).2
  · next h => exact List.count_filter (by simpa using h)

theorem count_query (m : OfflineTable Bytes) : (m.query r).count t = m.count (r, t) := by
  rw [OfflineTable.query, List.count, List.countP_map, List.countP_filter, List.count]
  refine List.countP_congr fun p _ => ?_
  simp [Prod.ext_iff, and_comm]

/-- A session that opens takes the messages that its reply will list. -/
theorem accounts_loginSession (codec : JsonCodec) (conn : Conn) (id : Int32) (s : Server) :
    s.accounts codec r t ≤ (loginSession (fun _ => MySQL.up) conn id s).accounts codec r t +
      if r = id then (s.db.offlinemessage.query id).count t else 0 := by
  obtain ⟨-, hsent, hqueue, hinbox⟩ := loginSession_lists (fun _ => MySQL.up) conn id s
  have hq : s.queued r t ≤ (loginSession (fun _ => MySQL.up) conn id s).queued r t := by
    rw [Server.queued, Server.queued, hqueue, List.countP_append]
    exact Nat.le_add_right _ _
  have hst : s.stored r t = (loginSession (fun _ => MySQL.up) conn id s).stored r t +
      if r = id then (s.db.offlinemessage.query id).count t else 0 := by
    have hdb : (openSession conn id (UserModel.query MySQL.up id s.db) s).db = s.db :=
      openSession_db conn id _ s
    have hvec : OfflineMsgModel.query MySQL.up id s.db = s.db.offlinemessage.query id := rfl
    unfold loginSession takeOffline
    simp only [hdb, hvec]
    split
    · next hnil =>
      rw [Server.stored, Server.stored, hdb, hnil, List.count_nil, ite_self, Nat.add_zero]
    · show s.db.offlinemessage.count (r, t) = (s.db.offlinemessage.remove id).count (r, t) + _
      rw [count_remove]
      split
      · next hid => rw [← hid, count_query, Nat.zero_add]
      · rw [Nat.add_zero]
  rw [Server.accounts, Server.accounts, Server.handed, Server.handed, Server.travelling,
    Server.travelling, hsent, hinbox]
  omega

theorem loginReplyHands_reply (hc : codec.Lawful) {my : Nat → MySQL} {id : Int32} {user : User}
    {msgId : Int32} {db : Database} {j : Json} (h : loginReply codec my id user msgId db = some j)
    (hu : j.utf8) (m : Int32) :
    (OfflineMsgModel.query (my 1) id db).count t ≤
      loginReplyHands codec user.id t (replyFrame codec j m) := by
  obtain ⟨hj, hm⟩ := loginReply_msgid h
  have hp := parse_replyFrame hc hj hu m
  obtain ⟨v, -, rfl⟩ := Option.map_eq_some_iff.mp h
  have hid := (intAt_loginResponse user msgId (OfflineMsgModel.query (my 1) id db) v.1 v.2).2
  rw [loginReplyHands, hp]
  simp only [hm, hid, and_self, ↓reduceIte]
  by_cases hvec : OfflineMsgModel.query (my 1) id db = []
  · rw [hvec]
    exact Nat.zero_le _
  · have hmsg : (loginResponse user msgId (OfflineMsgModel.query (my 1) id db) v.1 v.2).index
        (lit "offlinemsg") = some (ofStrings (OfflineMsgModel.query (my 1) id db)) := by
      simp [loginResponse, msgidField, msgIdField, optional, hvec, index_lit]
    rw [hmsg]
    simp only [ofStrings, List.countP_map, List.count]
    refine (List.countP_congr fun x _ => ?_).le
    simp [Json.getString]

/-! ## Requests -/

/-- The registered recipients of a chat that its handler takes on. -/
def addressees (msgid : Int32) (js : Json) (s : Server) : List Int32 :=
  match handlerOf msgid with
  | some .oneChatMsg =>
      match js.intAt (lit "toid"), js.intAt (lit "msgId") with
      | some toid, some _ => if (s.db.user.get toid).isSome then [toid] else []
      | _, _ => []
  | some .groupChatMsg =>
      match js.intAt (lit "id"), js.intAt (lit "groupid"), js.intAt (lit "msgId") with
      | some userid, some groupid, some _ =>
          GroupModel.queryGroupUsers MySQL.up userid groupid s.db
      | _, _, _ => []
  | _ => []

/-- Someone listens wherever the handler publishes for an addressee, and a
login that takes offline messages can send its reply. -/
structure Routable (msgid : Int32) (js : Json) (s : Server) : Prop where
  oneChat : handlerOf msgid = some .oneChatMsg → ∀ id ∈ addressees msgid js s,
    s.userConnMap.lookup id = none → SeemsOnline MySQL.up id s → Subscribed id s
  groupChat : handlerOf msgid = some .groupChatMsg → ∀ id ∈ addressees msgid js s,
    s.userConnMap.lookup id = none → (UserModel.query MySQL.up id s.db).state = online →
      Subscribed id s
  login : handlerOf msgid = some .loginMsg → ∀ id pwd msgId, LoginFields js id pwd msgId →
    LoginAccepts (fun _ => MySQL.up) id pwd s.db → s.db.offlinemessage.query id ≠ [] →
      (loginTexts (fun _ => MySQL.up) id (UserModel.query MySQL.up id s.db) s.db).all validUtf8

theorem accounts_answer (codec : JsonCodec) (conn : Conn) (response : Json) (msgId : Int32)
    (s : Server) :
    s.accounts codec r t + loginReplyHands codec r t (replyFrame codec response msgId) ≤
      (s.answer codec conn response msgId).accounts codec r t := by
  rw [Server.answer, accounts_send, accounts_send]
  exact Nat.le_add_right _ _

theorem accounts_login (hc : codec.Lawful) (conn : Conn) {js : Json} {s : Server}
    (hok : ∀ id pwd msgId, LoginFields js id pwd msgId →
      LoginAccepts (fun _ => MySQL.up) id pwd s.db → s.db.offlinemessage.query id ≠ [] →
      (loginTexts (fun _ => MySQL.up) id (UserModel.query MySQL.up id s.db) s.db).all validUtf8) :
    s.accounts codec r t ≤
      (login codec (fun _ => MySQL.up) conn js s).state.accounts codec r t := by
  rcases login_cases hc (fun _ => MySQL.up) conn js s with ⟨-, h⟩ | ⟨id, pwd, msgId, hf, h⟩
  · rw [h]
  rcases h with ⟨-, errno, errmsg, -, h⟩ | ⟨hacc, j, hj, hu, h⟩ | ⟨hacc, htexts, h⟩
  · rw [h]
    exact (Nat.le_add_right _ _).trans (accounts_answer codec conn _ msgId s)
  · rw [h]
    have hopen := accounts_loginSession (r := r) (t := t) codec conn id s
    have hans := accounts_answer (r := r) (t := t) codec conn j msgId
      (loginSession (fun _ => MySQL.up) conn id s)
    have hreply : (s.db.offlinemessage.query id).count t ≤
        loginReplyHands codec id t (replyFrame codec j msgId) := by
      have hr := loginReplyHands_reply (t := t) hc hj hu msgId
      rwa [hacc.1] at hr
    refine Nat.le_trans ?_ hans
    by_cases hid : r = id
    · subst hid
      rw [if_pos rfl] at hopen
      omega
    · rw [if_neg hid] at hopen
      omega
  · rw [h]
    have hnil : s.db.offlinemessage.query id = [] := by
      by_contra hne
      exact htexts (hok id pwd msgId hf hacc hne)
    have hopen := accounts_loginSession (r := r) (t := t) codec conn id s
    rw [hnil, List.count_nil, ite_self, Nat.add_zero] at hopen
    exact hopen

theorem count_chat (k : Int32) (text : Bytes) :
    (([k] : List Int32).map (·, text)).count (r, t) = isChat r t k text := by
  rw [List.map_singleton, List.count_singleton, isChat]
  by_cases h : k = r ∧ text = t
  · rw [if_pos h, if_pos (by simpa using h)]
  · rw [if_neg h, if_neg (by simpa using h)]

theorem accounts_oneChat (hc : codec.Lawful) (conn : Conn) {js : Json} (hu : js.utf8)
    {msgid : Int32} (hid : handlerOf msgid = some .oneChatMsg) {s : Server}
    (hok : Routable msgid js s) :
    s.accounts codec r t + ((addressees msgid js s).map (·, codec.text js)).count (r, t) ≤
      (oneChat codec (fun _ => MySQL.up) conn js s).state.accounts codec r t := by
  rcases oneChat_cases hc (fun _ => MySQL.up) conn js s with ⟨hbad, h⟩ | ⟨toid, msgId, hf, h⟩
  · have hnone : addressees msgid js s = [] := by
      unfold addressees
      rw [hid]
      simp only
      split
      · next toid msgId ht hm => exact absurd ⟨ht, hm⟩ (hbad toid msgId)
      · rfl
    rw [h, hnone]
    exact Nat.le_refl _
  have haddr : addressees msgid js s = if (s.db.user.get toid).isSome then [toid] else [] := by
    simp only [addressees, hid, hf.toid, hf.msgId]
  -- an unregistered recipient counts for nothing
  have hle : ((addressees msgid js s).map (·, codec.text js)).count (r, t) ≤
      isChat r t toid (codec.text js) := by
    rw [haddr]
    split
    · rw [count_chat]
    · exact Nat.zero_le _
  have htext : cStr (codec.text js) = codec.text js := hc.cStr_dump (hc.dump_eq hu)
  rcases h with ⟨hbad, -⟩ | ⟨-, c, -, h⟩ | ⟨-, hl, hon, h⟩ | ⟨-, -, -, h⟩
  · rw [hu] at hbad; cases hbad
  · rw [h]
    refine Nat.le_trans ?_ (accounts_send conn (ackFrame codec msgId) _).ge
    have hsend := accounts_sendTo (r := r) (t := t) codec toid c (codec.text js) msgId s
    refine Nat.le_trans (Nat.add_le_add_left hle _) (Nat.le_add_right_of_le ?_)
    exact hsend.ge
  · rw [h]
    by_cases hreg : (s.db.user.get toid).isSome
    · have hmem : toid ∈ addressees msgid js s := by rw [haddr, if_pos hreg]; simp
      exact (Nat.add_le_add_left hle _).trans
        (accounts_publish htext (hok.oneChat hid toid hmem hl hon))
    · rw [haddr, if_neg hreg]
      exact accounts_le_publish toid (codec.text js) s
  · rw [h]
    refine Nat.le_trans ?_ (accounts_send conn (ackFrame codec msgId) _).ge
    refine Nat.le_add_right_of_le ?_
    rw [accounts_offlineMsg _ htext]
    refine Nat.add_le_add_left ?_ _
    rw [haddr]
    split
    · next hreg =>
      obtain ⟨row, hrow⟩ := Option.isSome_iff_exists.mp hreg
      rw [count_chat, UserModel.query_row hrow]
    · exact Nat.zero_le _

theorem accounts_groupChat (hc : codec.Lawful) (conn : Conn) {js : Json} (hu : js.utf8)
    {msgid : Int32} (hid : handlerOf msgid = some .groupChatMsg) {s : Server}
    (hok : Routable msgid js s) :
    s.accounts codec r t + ((addressees msgid js s).map (·, codec.text js)).count (r, t) ≤
      (groupChat codec (fun _ => MySQL.up) conn js s).state.accounts codec r t := by
  rcases groupChat_cases hc (fun _ => MySQL.up) conn js s with ⟨hbad, h⟩ | ⟨u, g, msgId, hf, h⟩
  · have hnone : addressees msgid js s = [] := by
      unfold addressees
      rw [hid]
      simp only
      split
      · next u g m hu hg hm => exact absurd ⟨hu, hg, hm⟩ (hbad u g m)
      · rfl
    rw [h, hnone]
    exact Nat.le_refl _
  have haddr : addressees msgid js s = GroupModel.queryGroupUsers MySQL.up u g s.db := by
    simp only [addressees, hid, hf.id, hf.groupid, hf.msgId]
  rcases h with ⟨hbad, -⟩ | ⟨-, h⟩
  · rw [hu] at hbad; cases hbad
  · have hroute := accounts_routeMembers (r := r) (t := t) codec (fun _ => MySQL.up)
      (hc.cStr_dump (hc.dump_eq hu)) msgId 1 (GroupModel.queryGroupUsers MySQL.up u g s.db) s
      fun id hmem _ hl hon => hok.groupChat hid id (haddr ▸ hmem) hl hon
    rw [h, accounts_send, haddr]
    refine Nat.le_add_right_of_le (Nat.le_trans (Nat.add_le_add_left ?_ _) hroute)
    rw [List.count, List.countP_map]
    split
    · next htt =>
      refine (List.countP_congr fun id _ => ?_).le
      simp [htt]
    · next htt =>
      rw [Nat.le_zero, List.countP_eq_zero]
      intro id _
      simp [htt]

/-- A request keeps every chat accounted for, and accounts for its own. -/
theorem accounts_getHandler (hc : codec.Lawful) (conn : Conn) {js : Json} (hu : js.utf8)
    {msgid : Int32} {s : Server} (hok : Routable msgid js s) :
    s.accounts codec r t + ((addressees msgid js s).map (·, codec.text js)).count (r, t) ≤
      (getHandler codec (fun _ => MySQL.up) msgid conn js s).state.accounts codec r t := by
  by_cases hone : handlerOf msgid = some .oneChatMsg
  · have hstep : getHandler codec (fun _ => MySQL.up) msgid conn js s =
        oneChat codec (fun _ => MySQL.up) conn js s := by simp only [getHandler, hone]
    rw [hstep]
    exact accounts_oneChat hc conn hu hone hok
  by_cases hgroup : handlerOf msgid = some .groupChatMsg
  · have hstep : getHandler codec (fun _ => MySQL.up) msgid conn js s =
        groupChat codec (fun _ => MySQL.up) conn js s := by simp only [getHandler, hgroup]
    rw [hstep]
    exact accounts_groupChat hc conn hu hgroup hok
  have hnone : addressees msgid js s = [] := by
    unfold addressees
    split
    · next h => exact absurd h hone
    · next h => exact absurd h hgroup
    · rfl
  rw [hnone, List.map_nil, List.count_nil, Nat.add_zero]
  by_cases hlogin : handlerOf msgid = some .loginMsg
  · have hstep : getHandler codec (fun _ => MySQL.up) msgid conn js s =
        login codec (fun _ => MySQL.up) conn js s := by simp only [getHandler, hlogin]
    rw [hstep]
    exact accounts_login hc conn (hok.login hlogin)
  · obtain ⟨a, ha, -⟩ :=
      (getHandler_routesNothing hc (fun _ => MySQL.up) conn js hone hgroup s).appends
    have hdb := (getHandler_writes hc (fun _ => MySQL.up) msgid conn js s).offline hlogin
    rw [ha.accounts hdb]
    exact Nat.le_add_right _ _

/-! ## Worker, closes and deliveries -/

theorem dbWork_offline {k : DbTaskArgs} (htype : k.type ≠ .insertOfflineMsg) {db db' : Database}
    (h : dbWork MySQL.up k db = .ok db') : db'.offlinemessage = db.offlinemessage := by
  unfold dbWork at h
  split at h
  · cases h; rfl
  · cases h; rfl
  · unfold GroupModel.createGroup at h
    split at h
    · split at h
      · split at h <;> cases h <;> rfl
      · cases h; rfl
    · cases h
  · next ht => exact absurd ht htype
  · cases h; rfl

/-- A task that fits its buffer turns from a queued chat into a stored one. -/
theorem accounts_work {s s' : Server} (hs : s.work MySQL.up = some s')
    (hfit : ∀ k rest, s.dbQueue = k :: rest → k.type = .insertOfflineMsg →
      fits (OfflineMsgModel.insertSql k.toid k.msg)) :
    s.accounts codec r t ≤ s'.accounts codec r t := by
  unfold Server.work at hs
  split at hs
  · cases hs
  · next k rest hq =>
    have hqueued : s.queued r t = rest.countP (DbTaskArgs.holds r t) +
        if k.holds r t then 1 else 0 := by
      rw [Server.queued, hq, List.countP_cons]
    have hnew : ∀ db : Database,
        ({ s with dbQueue := rest, db := db } : Server).accounts codec r t =
        s.handed codec r t + rest.countP (DbTaskArgs.holds r t) + s.travelling r t +
          db.offlinemessage.count (r, t) := fun _ => rfl
    by_cases htype : k.type = .insertOfflineMsg
    · have hins : dbWork MySQL.up k s.db =
          .ok { s.db with offlinemessage := s.db.offlinemessage.insert k.toid (cStr k.msg) } := by
        simp only [dbWork, htype, OfflineMsgModel.insert, hfit k rest hq htype, ↓reduceIte,
          MySQL.up, and_self]
      rw [hins] at hs
      cases hs
      have hstored : (s.db.offlinemessage.insert k.toid (cStr k.msg)).count (r, t) =
          s.stored r t + if k.holds r t then 1 else 0 := by
        rw [OfflineTable.insert, List.count_append, List.count_singleton, Server.stored]
        simp only [DbTaskArgs.holds, htype, true_and, beq_iff_eq, Prod.mk.injEq, decide_eq_true_eq]
      rw [hnew, hstored, Server.accounts, hqueued]
      omega
    · have hholds : k.holds r t = false := by simp [DbTaskArgs.holds, htype]
      rw [hholds, if_neg Bool.false_ne_true, Nat.add_zero] at hqueued
      rw [Server.accounts, hqueued]
      split at hs
      · next db hdb =>
        cases hs
        rw [hnew, dbWork_offline htype hdb]
        exact Nat.le_refl _
      · cases hs
        rw [hnew]
        exact Nat.le_refl _

theorem work_redis {my : MySQL} {s s' : Server} (h : s.work my = some s') : s'.redis = s.redis := by
  unfold Server.work at h
  split at h
  · cases h
  · split at h <;> cases h <;> rfl

/-- A close queues a row update at most. -/
theorem onConnection_appends (order : List Int32) (conn : Conn) (s : Server) :
    ∃ tasks, Appends s (onConnection order conn s) ⟨[], tasks, []⟩ ∧
      (onConnection order conn s).db = s.db := by
  have hkeep : ∀ (erased : Bool) (id : Int32),
      Appends s (((if erased then s.mapErase id else s).redisOffline id).shutdown conn)
      ⟨[], [], []⟩ ∧
        Appends s ((((if erased then s.mapErase id else s).redisOffline id).push
          (updateStateTask id offline)).shutdown conn) ⟨[], [updateStateTask id offline], []⟩ ∧
        ((if erased then s.mapErase id else s).redisOffline id).db = s.db := by
    intro erased id
    cases erased <;> refine ⟨⟨rfl, ?_, ?_, ?_⟩, ⟨rfl, ?_, ?_, ?_⟩, rfl⟩ <;>
      simp [Server.push, Server.shutdown, Server.redisOffline, Server.mapErase]
  unfold onConnection clientCloseException
  simp only
  split
  · exact ⟨_, (hkeep _ _).2.1, (hkeep _ _).2.2⟩
  · exact ⟨_, (hkeep _ _).1, (hkeep _ _).2.2⟩

theorem accounts_onConnection (order : List Int32) (conn : Conn) (s : Server) :
    s.accounts codec r t ≤ (onConnection order conn s).accounts codec r t := by
  obtain ⟨tasks, ha, hdb⟩ := onConnection_appends order conn s
  rw [ha.accounts (by rw [hdb])]
  exact Nat.le_add_right _ _

/-- The text of a chat that another server can send on. -/
def Forwardable (codec : JsonCodec) (m : Bytes) : Prop :=
  ∃ js : Json, js.canon ∧ js.utf8 ∧ m = codec.text js ∧
  (∃ msgId, js.intAt (lit "msgId") = some msgId) ∧
    ∃ msgid, (js.index (lit "msgid")).bind getEnum = some msgid

/-- Taking a delivery out of the inbox. -/
theorem travelling_take {s : Server} {k : Nat} {d : Delivery} (hd : s.redis.inbox[k]? = some d) :
    s.travelling r t =
      (s.redis.take k).inbox.countP (Delivery.holds r t) + if d.holds r t then 1 else 0 := by
  obtain ⟨hlt, hget⟩ := List.getElem?_eq_some_iff.mp hd
  rw [Redis.take, Server.travelling, List.eraseIdx_eq_take_drop_succ, List.countP_append, ← hget]
  conv => lhs; rw [← List.take_append_drop k s.redis.inbox, List.drop_eq_getElem_cons hlt]
  rw [List.countP_append, List.countP_cons, Nat.add_assoc]

/-- A delivery taken out of the inbox is accounted for where it is handed over or
stored. -/
theorem accounts_taken {s s' : Server} {k : Nat} {d : Delivery} (hd : s.redis.inbox[k]? = some d)
    (hqueue : s'.dbQueue = s.dbQueue) (hinbox : s'.redis.inbox = (s.redis.take k).inbox)
    (hplaced : s.handed codec r t + s.stored r t + (if d.holds r t then 1 else 0) ≤
      s'.handed codec r t + s'.stored r t) : s.accounts codec r t ≤ s'.accounts codec r t := by
  have htake := travelling_take (r := r) (t := t) hd
  simp only [Server.accounts, Server.queued, Server.travelling, hqueue, hinbox] at htake ⊢
  omega

/-- A delivered chat is sent on or stored. -/
theorem accounts_observe (hc : codec.Lawful) {s s' : Server} {k : Nat}
    (hs : s.observe codec MySQL.up k = some s')
    (hforward : ∀ d ∈ s.redis.inbox, Forwardable codec d.message)
    (hfit : ∀ d, s.redis.inbox[k]? = some d → s.userConnMap.lookup d.channel = none →
      fits (OfflineMsgModel.insertSql d.channel d.message)) :
    s.accounts codec r t ≤ s'.accounts codec r t := by
  unfold Server.observe at hs
  cases hd : s.redis.inbox[k]? with
  | none => rw [hd] at hs; cases hs
  | some d =>
    rw [hd] at hs
    simp only [Option.ite_none_right_eq_some, Option.some.injEq] at hs
    obtain ⟨-, rfl⟩ := hs
    obtain ⟨js, hcanon, hu, hm, ⟨msgId, hid⟩, msgid, htype⟩ :=
      hforward d (List.mem_of_getElem? hd)
    have hdump : codec.dump js = some d.message := hm ▸ hc.dump_eq hu
    unfold handleRedisSubscribeMessage
    split
    · next conn hl =>
      simp only [hc.parse_dump hcanon hdump, hid, htype, hdump]
      refine accounts_taken hd rfl rfl ?_
      have hsent :
          (Server.sendTo d.channel conn (encryptedMessageSvr d.message msgid msgId.toUInt32)
          (Server.onHeartBeat d.channel { s with redis := s.redis.take k })).handed codec r t =
            s.handed codec r t + if d.holds r t then 1 else 0 := by
        simp [Server.handed, Server.sendTo, Server.onHeartBeat, Sent.hands, encryptedMessageSvr,
          Delivery.holds]
      rw [hsent, Nat.add_right_comm]
      exact Nat.le_refl _
    · next hl =>
      simp only [OfflineMsgModel.insert, hfit d hd hl, ↓reduceIte, MySQL.up, and_self]
      refine accounts_taken hd rfl rfl ?_
      have hstored : (s.db.offlinemessage.insert d.channel (cStr d.message)).count (r, t) =
          s.stored r t + if d.holds r t then 1 else 0 := by
        rw [OfflineTable.insert, List.count_append, List.count_singleton, Server.stored,
          hc.cStr_dump hdump]
        simp [Delivery.holds]
      rw [Nat.add_assoc, ← hstored]
      exact Nat.le_refl _

/-! ## Messages on their way -/

theorem toInt32_ofInt (n : Int) : (UInt32.ofInt n).toInt32 = Int32.ofInt n := by
  apply Int32.toBitVec_inj.mp
  apply BitVec.eq_of_toNat_eq
  simp only [UInt32.ofInt, Int32.toBitVec_ofInt, BitVec.toNat_ofInt, UInt32.toBitVec_toInt32,
    UInt32.toBitVec_ofNat', BitVec.toNat_ofNat]
  omega

/-- What reads as an `int` reads as an enumeration value, but for `bool`s and what
is out of range. -/
theorem getEnum_of_getInt {j : Json} {v : Int32} (h : j.getInt = some v) (h0 : v ≠ 0) (h1 : v ≠ 1)
    (hmin : v ≠ Int32.ofInt (-2 ^ 31)) : j.getEnum = some v := by
  cases j with
  | bool b =>
    cases b
    · exact absurd (Option.some.inj h).symm h0
    · exact absurd (Option.some.inj h).symm h1
  | int n =>
    rw [← h]
    simp only [getEnum, getUInt32, Option.map_some, toInt32_ofInt]
    rfl
  | float bits =>
    have hv := Option.some.inj h
    simp only [floatToInt32] at hv
    split at hv
    · rw [← hv]
      simp only [getEnum, getUInt32, floatToUInt32, Option.map_some]
      rw [if_pos (by omega), toInt32_ofInt]
    · exact absurd hv.symm hmin
  | _ => cases h

/-- A chat that a handler takes on can be sent on by another server. -/
theorem forwardable_chat (hc : codec.Lawful) {js : Json} (hj : js.canon) (hu : js.utf8)
    {msgid msgId : Int32} (hid : js.intAt (lit "msgid") = some msgid)
    (hchat : handlerOf msgid = some .oneChatMsg ∨ handlerOf msgid = some .groupChatMsg)
    (hmsg : js.intAt (lit "msgId") = some msgId) : Forwardable codec (cStr (codec.text js)) := by
  have hval : msgid = EnMsgType.oneChatMsg.val ∨ msgid = EnMsgType.groupChatMsg.val := by
    rcases hchat with h | h
    · exact Or.inl (handlerOf_some h)
    · exact Or.inr (handlerOf_some h)
  refine ⟨js, hj, hu, hc.cStr_dump (hc.dump_eq hu), ⟨msgId, hmsg⟩, msgid, ?_⟩
  obtain ⟨v, hv, hint⟩ := Option.bind_eq_some_iff.mp hid
  rw [hv, Option.bind_some]
  apply getEnum_of_getInt hint
  · rcases hval with rfl | rfl <;> decide
  · rcases hval with rfl | rfl <;> decide
  · rcases hval with rfl | rfl <;> decide

theorem getHandler_forwardable (hc : codec.Lawful) (my : Nat → MySQL) (conn : Conn) {js : Json}
    (hj : js.canon) (hu : js.utf8) {msgid : Int32} (hid : js.intAt (lit "msgid") = some msgid)
    {s : Server} (h : ∀ d ∈ s.redis.inbox, Forwardable codec d.message) :
    ∀ d ∈ (getHandler codec my msgid conn js s).state.redis.inbox, Forwardable codec d.message := by
  intro d hd
  by_cases hone : handlerOf msgid = some .oneChatMsg
  · simp only [getHandler, hone] at hd
    rcases oneChat_cases hc my conn js s with ⟨-, hs⟩ | ⟨toid, msgId, hf, hs⟩
    · rw [hs] at hd; exact h d hd
    · rcases hs with ⟨-, hs⟩ | ⟨-, c, -, hs⟩ | ⟨-, hl, -, hs⟩ | ⟨-, -, -, hs⟩
      · rw [hs] at hd; exact h d hd
      · rw [hs] at hd; exact h d hd
      · rw [hs] at hd
        have hp : Routed s toid (codec.text js) msgId (s.publish toid (codec.text js)) :=
          .published hl
        rcases hp.inbox hd with hd | hd
        · exact h d hd
        · exact hd ▸ forwardable_chat hc hj hu hid (Or.inl hone) hf.msgId
      · rw [hs] at hd; exact h d hd
  by_cases hgroup : handlerOf msgid = some .groupChatMsg
  · simp only [getHandler, hgroup] at hd
    rcases groupChat_cases hc my conn js s with ⟨-, hs⟩ | ⟨u, g, msgId, hf, hs⟩
    · rw [hs] at hd; exact h d hd
    · rcases hs with ⟨-, hs⟩ | ⟨-, hs⟩
      · rw [hs] at hd; exact h d hd
      · rw [hs] at hd
        rcases routeMembers_inbox my (codec.text js) msgId 1 _ s hd with hd | hd
        · exact h d hd
        · exact hd ▸ forwardable_chat hc hj hu hid (Or.inr hgroup) hf.msgId
  obtain ⟨a, ha, -, hdel, -⟩ := (getHandler_routesNothing hc my conn js hone hgroup s).appends
  rw [ha.deliveries, hdel, List.append_nil] at hd
  exact h d hd

/-- A step that publishes nothing leaves on the way what was there, or less. -/
theorem observe_inbox {s s' : Server} {k : Nat} (hs : s.observe codec MySQL.up k = some s') :
    ∀ d ∈ s'.redis.inbox, d ∈ s.redis.inbox := by
  unfold Server.observe at hs
  split at hs
  · cases hs
  · simp only [Option.ite_none_right_eq_some, Option.some.injEq] at hs
    obtain ⟨-, rfl⟩ := hs
    intro d' hd'
    have hinbox : ∀ (userid : Int32) (msg : Bytes) (s : Server),
        (handleRedisSubscribeMessage codec MySQL.up userid msg s).state.redis.inbox =
        s.redis.inbox := by
      intro userid msg s
      unfold handleRedisSubscribeMessage
      repeat' split
      all_goals rfl
    rw [hinbox] at hd'
    exact List.mem_of_mem_eraseIdx hd'

end MyChat
