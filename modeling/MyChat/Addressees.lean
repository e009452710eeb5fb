import MyChat.Forwarding
import MyChat.Records

/-! Where the chats on a server come from. Wherever a text is held for a user,
written to the connection of that user, queued, travelling through Redis or
stored, some client had sent it and the user was named in it. -/

namespace MyChat
open Json

section
variable (codec : JsonCodec)

/-- A chat `t` for `r` is on the server, or has been handed to `r` by it. -/
inductive Holds (r : Int32) (t : Bytes) (s : Server) : Prop
  | handed {e : Sent} (he : e ∈ s.sent) (h : 0 < e.hands codec r t)
  | queued {k : DbTaskArgs} (hk : k ∈ s.dbQueue) (h : k.holds r t)
  | travelling {d : Delivery} (hd : d ∈ s.redis.inbox) (h : d.holds r t)
  | stored (h : (r, t) ∈ s.db.offlinemessage)

/-- A user whom the chat is for. A one-to-one chat for someone without a row, or
whose row is not found, is for user -1. -/
def Addressed (js : Json) (r : Int32) (db : Database) : Prop :=
  js.intAt (lit "msgid") = some EnMsgType.oneChatMsg.val ∧
  (js.intAt (lit "toid") = some r ∨ r = -1) ∨
  js.intAt (lit "msgid") = some EnMsgType.groupChatMsg.val ∧ ∃ userid groupid,
    js.intAt (lit "id") = some userid ∧ js.intAt (lit "groupid") = some groupid ∧ r ≠ userid ∧
      ∃ m ∈ db.groupuser, m.groupid = groupid ∧ m.userid = r

end

variable {evp : Evp} {codec : JsonCodec} {r : Int32} {t : Bytes}

theorem hands_forUser {c : Conn} {u : Int32} {frame : Frame}
    (h : 0 < (⟨c, some u, frame⟩ : Sent).hands codec r t) : u = r ∧ frame.text = t := by
  by_contra hne
  simp only [Sent.hands, if_neg hne] at h
  cases h

theorem Addressed.mono {js : Json} {db db' : Database} (h : Addressed js r db)
    (hk : RecordsKept db db') :
    Addressed js r db' := by
  rcases h with h | ⟨htype, u, g, hu, hg, hne, m, hm, hmg⟩
  · exact Or.inl h
  · obtain ⟨new, hnew, -⟩ := hk.groups.members
    exact Or.inr ⟨htype, u, g, hu, hg, hne, m, by rw [hnew]; exact List.mem_append_left new hm, hmg⟩

/-! ## One step -/

namespace Holds

variable {s s' : Server}

/-- Fewer frames, tasks, deliveries and rows hold nothing new. -/
theorem mono (h : Holds codec r t s') (hsent : s'.sent ⊆ s.sent) (hqueue : s'.dbQueue ⊆ s.dbQueue)
    (hinbox : s'.redis.inbox ⊆ s.redis.inbox) (hrows : s'.db.offlinemessage ⊆ s.db.offlinemessage) :
    Holds codec r t s := by
  cases h with
  | handed he h => exact .handed (hsent he) h
  | queued hk h => exact .queued (hqueue hk) h
  | travelling hd h => exact .travelling (hinbox hd) h
  | stored h => exact .stored (hrows h)

theorem send {conn : Conn} {frame : Frame} (h : Holds codec r t (s.send conn frame)) :
    Holds codec r t s ∨ 0 < loginReplyHands codec r t frame := by
  cases h with
  | handed he h =>
    rcases List.mem_append.mp he with he | he
    · exact Or.inl (.handed he h)
    · rw [List.mem_singleton.mp he] at h
      exact Or.inr h
  | queued hk h => exact Or.inl (.queued hk h)
  | travelling hd h => exact Or.inl (.travelling hd h)
  | stored h => exact Or.inl (.stored h)

/-- A task of another kind holds nothing. -/
theorem push {k : DbTaskArgs} (hk : k.type ≠ .insertOfflineMsg) (h : Holds codec r t s')
    (hsent : s'.sent = s.sent) (hqueue : s'.dbQueue = s.dbQueue ++ [k])
    (hinbox : s'.redis.inbox = s.redis.inbox) (hrows : s'.db.offlinemessage ⊆ s.db.offlinemessage) :
    Holds codec r t s := by
  cases h with
  | handed he h => exact .handed (hsent ▸ he) h
  | queued hmem h =>
    rw [hqueue] at hmem
    rcases List.mem_append.mp hmem with hmem | hmem
    · exact .queued hmem h
    · rw [List.mem_singleton.mp hmem] at h
      simp [DbTaskArgs.holds, hk] at h
  | travelling hd h => exact .travelling (hinbox ▸ hd) h
  | stored h => exact .stored (hrows h)

theorem loginReplyHands_pos {frame : Frame} (h : 0 < loginReplyHands codec r t frame) :
    ∃ j v, codec.parse frame.text = some j ∧
      j.intAt (lit "msgid") = some EnMsgType.loginMsgAck.val ∧
      j.intAt (lit "id") = some r ∧ j.index (lit "offlinemsg") = some (.arr v) ∧
      ∃ x ∈ v, x.getString = some t := by
  unfold loginReplyHands at h
  split at h
  · cases h
  next j hp =>
  split at h
  case isFalse => cases h
  next hj =>
  split at h
  · next v hv =>
    obtain ⟨x, hx, ht⟩ := List.countP_pos_iff.mp h
    exact ⟨j, v, hp, hj.1, hj.2, hv, x, hx, of_decide_eq_true ht⟩
  · cases h

/-- Only a login reply hands anything over. -/
theorem reply_none {j : Json} {m k : Int32} (hc : codec.Lawful) (hj : j.canon) (hu : j.utf8)
    (hk : j.intAt (lit "msgid") = some k) (hne : k ≠ EnMsgType.loginMsgAck.val) :
    ¬ 0 < loginReplyHands codec r t (replyFrame codec j m) := by
  intro h
  obtain ⟨j', v, hp, hj', -⟩ := loginReplyHands_pos h
  cases Option.some.inj (hp.symm.trans (parse_replyFrame hc hj hu m))
  exact hne (Option.some.inj (hk.symm.trans hj'))

theorem ack (hc : codec.Lawful) {conn : Conn} {m : Int32}
    (h : Holds codec r t (s.send conn (ackFrame codec m))) :
    Holds codec r t s :=
  h.send.resolve_right
    (reply_none hc (canon_ackResponse m) (utf8_ackResponse m) (intAt_ackResponse m).1 (by decide))

theorem answer (hc : codec.Lawful) {conn : Conn} {j : Json} {m k : Int32} (hj : j.canon)
    (hu : j.utf8) (hk : j.intAt (lit "msgid") = some k) (hne : k ≠ EnMsgType.loginMsgAck.val)
    (h : Holds codec r t (s.answer codec conn j m)) : Holds codec r t s :=
  (h.ack hc).send.resolve_right (reply_none hc hj hu hk hne)

theorem refusal (hc : codec.Lawful) {conn : Conn} {errno m : Int32} {errmsg : String}
    (h : Holds codec r t (s.answer codec conn (loginRefusal errno errmsg m) m)) :
    Holds codec r t s := by
  refine (h.ack hc).send.resolve_right fun hpos => ?_
  obtain ⟨j, v, hp, -, hr, -⟩ := loginReplyHands_pos hpos
  cases Option.some.inj (hp.symm.trans
    (parse_replyFrame hc (canon_loginRefusal errno errmsg m) (utf8_loginRefusal errno errmsg m) m))
  simp [loginRefusal, msgidField, msgIdField, intAt_lit, intAt_lit_nil] at hr

theorem offlineMsg {k : Int32} {text : Bytes} (htext : cStr text = text)
    (h : Holds codec r t (s.push (offlineMsgTask k text))) :
    Holds codec r t s ∨ k = r ∧ text = t := by
  cases h with
  | handed he h => exact Or.inl (.handed he h)
  | queued hk h =>
    rcases List.mem_append.mp hk with hk | hk
    · exact Or.inl (.queued hk h)
    · rw [List.mem_singleton.mp hk] at h
      simp only [DbTaskArgs.holds, offlineMsgTask, true_and, Bool.decide_and, Bool.and_eq_true,
        decide_eq_true_eq, htext] at h
      exact Or.inr h
  | travelling hd h => exact Or.inl (.travelling hd h)
  | stored h => exact Or.inl (.stored h)

/-- A chat goes to the one it is routed to. -/
theorem routed {k : Int32} {text : Bytes} (htext : cStr text = text) {m : Int32}
    (hr : Routed s k text m s') (h : Holds codec r t s') :
    Holds codec r t s ∨ k = r ∧ text = t := by
  cases hr with
  | sent c _ =>
    cases h with
    | handed he h =>
      rcases List.mem_append.mp he with he | he
      · exact Or.inl (.handed he h)
      · rw [List.mem_singleton.mp he] at h
        exact Or.inr (hands_forUser h)
    | queued hk h => exact Or.inl (.queued hk h)
    | travelling hd h => exact Or.inl (.travelling hd h)
    | stored h => exact Or.inl (.stored h)
  | published _ =>
    cases h with
    | handed he h => exact Or.inl (.handed he h)
    | queued hk h => exact Or.inl (.queued hk h)
    | travelling hd h =>
      rcases List.mem_append.mp hd with hd | hd
      · exact Or.inl (.travelling hd h)
      · obtain ⟨sub, -, rfl⟩ := List.mem_map.mp hd
        simp only [Delivery.holds, Bool.decide_and, Bool.and_eq_true, decide_eq_true_eq, htext] at h
        exact Or.inr h
    | stored h => exact Or.inl (.stored h)
  | queued _ => exact h.offlineMsg htext

theorem routeMembers {my : Nat → MySQL} {text : Bytes} (htext : cStr text = text) {m : Int32}
    {n : Nat} {ids : List Int32} (h : Holds codec r t (MyChat.routeMembers my text m n ids s)) :
    Holds codec r t s ∨ r ∈ ids ∧ text = t := by
  induction ids generalizing n s with
  | nil => exact Or.inl h
  | cons id ids ih =>
    rcases ih h with h | ⟨hmem, ht⟩
    · rcases h.routed htext (routeMember_routed (my n) text m id s) with h | ⟨rfl, ht⟩
      · exact Or.inl h
      · exact Or.inr ⟨List.mem_cons_self, ht⟩
    · exact Or.inr ⟨List.mem_cons_of_mem id hmem, ht⟩

/-- A session that opens takes the messages, and its reply hands over no others. -/
theorem login {my : Nat → MySQL} {conn : Conn} {id : Int32}
    (h : Holds codec r t (loginSession my conn id s)) : Holds codec r t s := by
  obtain ⟨-, hsent, hqueue, hinbox⟩ := loginSession_lists my conn id s
  refine h.push (k := updateStateTask _ online) (by simp [updateStateTask]) hsent hqueue hinbox ?_
  have hopen : (openSession conn id (UserModel.query (my 0) id s.db) s).db = s.db :=
    openSession_db conn id _ s
  unfold loginSession takeOffline
  simp only
  split
  · rw [hopen]
    exact fun p hp => hp
  · show (OfflineMsgModel.remove (my 2) id (openSession conn id _ s).db).offlinemessage ⊆ _
    rw [hopen]
    unfold OfflineMsgModel.remove
    split
    · exact List.filter_subset_self _
    · exact fun p hp => hp

theorem loginReply {my : Nat → MySQL} {id m : Int32} {user : User} {db : Database} {j : Json}
    (hc : codec.Lawful) (hu : j.utf8) (hj : MyChat.loginReply codec my id user m db = some j)
    (h : 0 < loginReplyHands codec r t (replyFrame codec j m)) (hid : user.id = id) :
    (r, t) ∈ db.offlinemessage := by
  obtain ⟨j', v, hp, -, hr, hv, x, hx, ht⟩ := loginReplyHands_pos h
  cases Option.some.inj (hp.symm.trans (parse_replyFrame hc (loginReply_msgid hj).1 hu m))
  obtain ⟨view, -, rfl⟩ := Option.map_eq_some_iff.mp hj
  rw [(intAt_loginResponse user m _ _ _).2, hid, Option.some.injEq] at hr
  subst hr
  have hmsgs : (loginResponse user m (OfflineMsgModel.query (my 1) id db) view.1 view.2).index
      (lit "offlinemsg") =
      if OfflineMsgModel.query (my 1) id db = [] then some .null
      else some (ofStrings (OfflineMsgModel.query (my 1) id db)) := by
    by_cases hnil : OfflineMsgModel.query (my 1) id db = []
    · by_cases hf : view.1 = [] <;> by_cases hg : view.2 = [] <;>
        simp [loginResponse, msgidField, msgIdField, optional, hnil, hf, hg, index_lit,
          index_lit_nil]
    · simp [loginResponse, msgidField, msgIdField, optional, hnil, index_lit]
  rw [hmsgs] at hv
  split at hv
  · cases hv
  cases hv
  obtain ⟨b, hb, rfl⟩ := List.mem_map.mp hx
  cases ht
  unfold OfflineMsgModel.query at hb
  split at hb
  · obtain ⟨p, hp, rfl⟩ := List.mem_map.mp hb
    obtain ⟨hmem, hp⟩ := List.mem_filter.mp hp
    rw [← of_decide_eq_true hp]
    exact hmem
  · cases hb

theorem mem_queryGroupUsers {my : MySQL} {userid groupid id : Int32} {db : Database}
    (h : id ∈ GroupModel.queryGroupUsers my userid groupid db) :
    id ≠ userid ∧ ∃ m ∈ db.groupuser, m.groupid = groupid ∧ m.userid = id := by
  unfold GroupModel.queryGroupUsers at h
  split at h
  · obtain ⟨m, hm, rfl⟩ := List.mem_map.mp h
    obtain ⟨hm, hg⟩ := List.mem_filter.mp hm
    simp only [Bool.decide_and, Bool.and_eq_true, decide_eq_true_eq] at hg
    exact ⟨hg.2, m, hm, hg.1, rfl⟩
  · cases h

/-- What a request adds is its own text, for someone it addresses. -/
theorem getHandler (hc : codec.Lawful) {my : Nat → MySQL} {conn : Conn} {js : Json} (hj : js.canon)
    (hu : js.utf8) {msgid : Int32} (hid : js.intAt (lit "msgid") = some msgid)
    (h : Holds codec r t (MyChat.getHandler codec my msgid conn js s).state) :
    Holds codec r t s ∨ t = codec.text js ∧ Addressed js r s.db := by
  have htext : cStr (codec.text js) = codec.text js := hc.cStr_dump (hc.dump_eq hu)
  have hhandled := getHandler_handled hc my msgid conn js s
  have hval : ∀ k, handlerOf msgid = some k → js.intAt (lit "msgid") = some k.val := fun k hk =>
    handlerOf_some hk ▸ hid
  generalize MyChat.getHandler codec my msgid conn js s = ret at h hhandled
  generalize handlerOf msgid = k at hhandled hval
  cases hhandled with
  | unhandled | illTyped | unsendable | regOverflow => exact Or.inl h
  | loginRefused => exact Or.inl (h.refusal hc)
  | loginAnswered hf hacc hreply hju =>
    rcases (h.ack hc).send with h | h
    · exact Or.inl h.login
    · exact Or.inl (.stored (loginReply hc hju hreply h hacc.1))
  | loginUnsendable => exact Or.inl h.login
  | registered =>
    have hanswer :=
      h.answer hc (canon_regResponse _ _) (utf8_regResponse _ _) (intAt_msgid _ _) (by decide)
    exact Or.inl (hanswer.mono (fun _ h => h) (fun _ h => h) (fun _ h => h) fun _ h => h)
  | regFailed => exact Or.inl (h.answer hc hj hu (hval _ rfl) (by decide))
  | @loggedOut userid =>
    exact Or.inl <| (h.ack hc).push (k := updateStateTask userid offline)
      (by simp [updateStateTask]) rfl rfl rfl fun _ h => h
  | chatSent hf hl =>
    rcases (h.ack hc).routed htext (.sent _ hl) with h | ⟨rfl, ht⟩
    · exact Or.inl h
    · exact Or.inr ⟨ht.symm, Or.inl ⟨hval _ rfl, Or.inl hf.toid⟩⟩
  | chatPublished hf hl =>
    rcases h.routed (m := 0) htext (.published hl) with h | ⟨rfl, ht⟩
    · exact Or.inl h
    · exact Or.inr ⟨ht.symm, Or.inl ⟨hval _ rfl, Or.inl hf.toid⟩⟩
  | @chatStored toid _ hf hl hoff =>
    have huser : (UserModel.query (my 0) toid s.db).id = toid ∨
        (UserModel.query (my 0) toid s.db).id = -1 := by
      rcases UserModel.query_cases (my 0) toid s.db with h | ⟨row, -, h⟩
      · exact Or.inr (by rw [h])
      · exact Or.inl (by rw [h])
    rcases (h.ack hc).offlineMsg htext with h | ⟨hr, ht⟩
    · exact Or.inl h
    · refine Or.inr ⟨ht.symm, Or.inl ⟨hval _ rfl, ?_⟩⟩
      rw [← hr]
      refine huser.imp_left fun hk => ?_
      rw [hk]
      exact hf.toid
  | groupRouted hf =>
    rcases (h.ack hc).routeMembers htext with h | ⟨hmem, ht⟩
    · exact Or.inl h
    · exact Or.inr ⟨ht.symm, Or.inr ⟨hval _ rfl, _, _, hf.id, hf.groupid, mem_queryGroupUsers hmem⟩⟩
  | friendQueued =>
    exact Or.inl ((h.ack hc).push (by simp) rfl rfl rfl fun _ h => h)
  | @groupQueued userid =>
    have hanswer :=
      h.answer hc (canon_groupResponse _ _ _) (utf8_groupResponse _ _ _) (intAt_msgid _ _)
      (by decide)
    refine Or.inl (hanswer.push (by simp) rfl rfl rfl ?_)
    show (GroupModel.addGroup (my 0) userid (-1) (lit "creator") s.db).1.offlinemessage ⊆ _
    unfold GroupModel.addGroup
    split <;> exact fun p hp => hp
  | memberQueued =>
    have hanswer :=
      h.answer hc (canon_groupResponse _ _ _) (utf8_groupResponse _ _ _) (intAt_msgid _ _)
      (by decide)
    exact Or.inl (hanswer.push (by simp) rfl rfl rfl fun _ h => h)

theorem received (hc : codec.Lawful) {my : Nat → MySQL} {conn : Conn} {buf : Bytes}
    (hr : Received evp codec my conn buf s s') (h : Holds codec r t s') : Holds codec r t s ∨
      ∃ js, requestOf evp codec buf = some js ∧ t = codec.text js ∧ Addressed js r s.db := by
  induction hr with
  | nothing => exact Or.inl h
  | handled hreq hid =>
    obtain ⟨hj, hu⟩ := requestOf_canon hc hreq
    exact (h.getHandler hc hj hu hid).imp_right fun hasked => ⟨_, hreq, hasked⟩
  | shut _ ih => exact ih (h.mono (fun _ h => h) (fun _ h => h) (fun _ h => h) fun _ h => h)

theorem closed {order : List Int32} {conn : Conn}
    (h : Holds codec r t (onConnection order conn s)) :
    Holds codec r t s := by
  have herase : ∀ (erased : Bool) (id : Int32),
      ((if erased then s.mapErase id else s).redisOffline id).sent = s.sent ∧
        ((if erased then s.mapErase id else s).redisOffline id).dbQueue = s.dbQueue ∧
        ((if erased then s.mapErase id else s).redisOffline id).redis.inbox = s.redis.inbox ∧
        ((if erased then s.mapErase id else s).redisOffline id).db = s.db := by
    intro erased id
    cases erased <;> exact ⟨rfl, rfl, rfl, rfl⟩
  unfold onConnection clientCloseException at h
  simp only at h
  split at h
  · obtain ⟨hsent, hqueue, hinbox, hdb⟩ := herase _ _
    refine h.push (k := updateStateTask _ offline) (by simp [updateStateTask]) hsent
      (congrArg (· ++ [updateStateTask _ offline]) hqueue) hinbox ?_
    exact fun p hp => congrArg Database.offlinemessage hdb ▸ hp
  · obtain ⟨hsent, hqueue, hinbox, hdb⟩ := herase _ _
    exact h.mono (fun _ he => hsent ▸ he) (fun _ hk => hqueue ▸ hk) (fun _ hd => hinbox ▸ hd)
      fun p hp => congrArg Database.offlinemessage hdb ▸ hp

theorem redis_inbox (my : MySQL) (userid : Int32) (msg : Bytes) (s : Server) :
    (handleRedisSubscribeMessage codec my userid msg s).state.redis.inbox = s.redis.inbox := by
  unfold handleRedisSubscribeMessage
  repeat' split
  all_goals rfl

theorem insertOffline {my : MySQL} {userid : Int32} {msg : Bytes} {db db' : Database}
    (hi : OfflineMsgModel.insert my userid msg db = .ok db') {p : Int32 × Bytes}
    (hp : p ∈ db'.offlinemessage) :
    p ∈ db.offlinemessage ∨ p = (userid, cStr msg) := by
  unfold OfflineMsgModel.insert at hi
  split at hi
  · split at hi
    · cases hi
      exact (List.mem_append.mp hp).imp_right List.mem_singleton.mp
    · cases hi
      exact Or.inl hp
  · cases hi

/-- A delivery is sent on as it is, or stored. -/
theorem observed (hc : codec.Lawful) {my : MySQL} {k : Nat} {d : Delivery}
    (hd : s.redis.inbox[k]? = some d) (hf : Forwardable codec d.message)
    (h : Holds codec r t
      (handleRedisSubscribeMessage codec my d.channel d.message
        { s with redis := s.redis.take k }).state) : Holds codec r t s := by
  obtain ⟨js, hcanon, hu, hm, ⟨msgId, hid⟩, msgid, htype⟩ := hf
  have hdump : codec.dump js = some d.message := hm ▸ hc.dump_eq hu
  have htaken : d.channel = r → d.message = t → Holds codec r t s := fun hr ht =>
    .travelling (List.mem_of_getElem? hd) (by simp [Delivery.holds, hr, ht])
  have hless : (s.redis.take k).inbox ⊆ s.redis.inbox := fun d' hd' => List.mem_of_mem_eraseIdx hd'
  unfold handleRedisSubscribeMessage at h
  split at h
  · simp only [hc.parse_dump hcanon hdump, hid, htype, hdump] at h
    cases h with
    | handed he h =>
      rcases List.mem_append.mp he with he | he
      · exact .handed he h
      · rw [List.mem_singleton.mp he] at h
        exact htaken (hands_forUser h).1 (hands_forUser h).2
    | queued hk h => exact .queued hk h
    | travelling hd' h => exact .travelling (hless hd') h
    | stored h => exact .stored h
  · split at h
    · exact h.mono (fun _ h => h) (fun _ h => h) hless fun _ h => h
    · next db hdb =>
      cases h with
      | handed he h => exact .handed he h
      | queued hk h => exact .queued hk h
      | travelling hd' h => exact .travelling (hless hd') h
      | stored h =>
        rcases insertOffline hdb h with h | h
        · exact .stored h
        · cases h
          exact htaken rfl (hc.cStr_dump hdump).symm

theorem dbWork {my : MySQL} {k : DbTaskArgs} {db db' : Database}
    (hw : MyChat.dbWork my k db = .ok db') {p : Int32 × Bytes} (hp : p ∈ db'.offlinemessage) :
    p ∈ db.offlinemessage ∨ k.holds p.1 p.2 := by
  unfold MyChat.dbWork at hw
  cases htype : k.type with
  | insertOfflineMsg =>
    simp only [htype] at hw
    rcases insertOffline hw hp with h | rfl
    · exact Or.inl h
    · exact Or.inr (by simp [DbTaskArgs.holds, htype])
  | addFriend =>
    simp only [htype, Except.ok.injEq] at hw
    refine Or.inl ?_
    rw [← hw] at hp
    unfold FriendModel.insert at hp
    split at hp
    · simp only at hp
      split at hp <;> split at hp <;> exact hp
    · exact hp
  | addGroupUser =>
    simp only [htype, Except.ok.injEq] at hw
    refine Or.inl ?_
    rw [← hw] at hp
    unfold GroupModel.addGroup at hp
    split at hp <;> exact hp
  | createGroup =>
    simp only [htype, GroupModel.createGroup] at hw
    refine Or.inl ?_
    split at hw
    · split at hw
      · split at hw <;> (cases hw; exact hp)
      · cases hw; exact hp
    · cases hw
  | updateUserState =>
    simp only [htype, Except.ok.injEq] at hw
    refine Or.inl ?_
    rw [← hw] at hp
    unfold UserModel.updateState at hp
    split at hp <;> exact hp

theorem worked {my : MySQL} (hw : s.work my = some s') (h : Holds codec r t s') :
    Holds codec r t s := by
  unfold Server.work at hw
  split at hw
  · cases hw
  next k rest hq =>
  have hrest : rest ⊆ s.dbQueue := hq ▸ List.subset_cons_self k rest
  split at hw
  · next db hdb =>
    cases hw
    cases h with
    | handed he h => exact .handed he h
    | queued hk h => exact .queued (hrest hk) h
    | travelling hd h => exact .travelling hd h
    | stored h =>
      rcases dbWork hdb h with h | h
      · exact .stored h
      · exact .queued (hq ▸ List.mem_cons_self) h
  · cases hw
    exact h.mono (fun _ h => h) hrest (fun _ h => h) fun _ h => h

end Holds

/-! ## Runs -/

variable {n : Nat}

/-- A request in the run has this text and addresses `r`. -/
def Asked (evp : Evp) (codec : JsonCodec) (ls : List (FleetStep n)) (r : Int32) (t : Bytes)
    (db : Database) : Prop :=
  ∃ i my conn buf js, .receive i my conn buf ∈ ls ∧ requestOf evp codec buf = some js ∧
  t = codec.text js ∧
    Addressed js r db

theorem Asked.mono {ls ls' : List (FleetStep n)} {db db' : Database} (h : Asked evp codec ls r t db)
    (hls : ls ⊆ ls') (hk : RecordsKept db db') : Asked evp codec ls' r t db' := by
  obtain ⟨i, my, conn, buf, js, hmem, hreq, ht, ha⟩ := h
  exact ⟨i, my, conn, buf, js, hls hmem, hreq, ht, ha.mono hk⟩

/-- What any server holds was stored from the start or has been asked for. -/
structure Traced (evp : Evp) (codec : JsonCodec) (old : OfflineTable Bytes)
    (ls : List (FleetStep n)) (c : Fleet n) : Prop where
  held : ∀ i r t, Holds codec r t (c.view i) → (r, t) ∈ old ∨ Asked evp codec ls r t c.db
  inbox : ∀ d ∈ c.redis.inbox, Forwardable codec d.message

namespace Traced

variable {old : OfflineTable Bytes} {ls : List (FleetStep n)} {c : Fleet n}

theorem start (evp : Evp) (codec : JsonCodec) (n : Nat) (db : Database) :
    Traced evp codec db.offlinemessage [] (Fleet.start n db) := by
  refine ⟨fun i r t h => ?_, by simp [Fleet.start, Redis.empty]⟩
  cases h with
  | handed he _ => cases he
  | queued hk _ => cases hk
  | travelling hd _ => cases hd
  | stored h => exact Or.inl h

/-- One server moves: what is held there afterwards was held or is asked for,
and the others see its database and Redis. -/
theorem put (h : Traced evp codec old ls c) {i : Fin n} {s : Server}
    (hheld : ∀ r t, Holds codec r t s → Holds codec r t (c.view i) ∨ Asked evp codec ls r t s.db)
    (hinbox : ∀ d ∈ s.redis.inbox, Forwardable codec d.message) (hdb : RecordsKept c.db s.db) :
    Traced evp codec old ls (c.put i s) := by
  have hown : ∀ r t, Holds codec r t s → (r, t) ∈ old ∨ Asked evp codec ls r t s.db := by
    intro r t hs
    rcases hheld r t hs with hs | hs
    · exact (h.held i r t hs).imp_right fun ha => ha.mono (fun _ h => h) hdb
    · exact Or.inr hs
  refine ⟨fun j r t hs => ?_, hinbox⟩
  by_cases hj : j = i
  · subst hj
    refine hown r t (hs.mono (fun e he => ?_) (fun k hk => ?_) (fun _ h => h) fun _ h => h)
    · simpa [Fleet.view] using he
    · simpa [Fleet.view] using hk
  · cases hs with
    | handed he hh =>
      simp only [Fleet.view, Fleet.hosts_put_ne hj] at he
      exact (h.held j r t (.handed he hh)).imp_right fun ha => ha.mono (fun _ h => h) hdb
    | queued hk hh =>
      simp only [Fleet.view, Fleet.hosts_put_ne hj] at hk
      exact (h.held j r t (.queued hk hh)).imp_right fun ha => ha.mono (fun _ h => h) hdb
    | travelling hd hh => exact hown r t (.travelling hd hh)
    | stored hs => exact hown r t (.stored hs)

/-- A served step, whichever server takes it. -/
theorem serve (hc : codec.Lawful) (h : Traced evp codec old ls c) {i : Fin n} {l : FleetStep n}
    {s : Server} (hl : l ∈ ls) (hs : Served evp codec l (c.view i) s) :
    Traced evp codec old ls (c.put i s) := by
  have hdb : RecordsKept c.db s.db := RecordsKept.served hc hs
  refine h.put (fun r t ht => ?_) (fun d hd => ?_) hdb
  · cases hs with
    | received hr =>
      rcases ht.received hc hr with ht | ⟨js, hreq, ht, ha⟩
      · exact Or.inl ht
      · exact Or.inr ⟨_, _, _, _, js, hl, hreq, ht, ha.mono hdb⟩
    | closed _ => exact Or.inl ht.closed
    | observed hd _ => exact Or.inl (ht.observed hc hd (h.inbox _ (List.mem_of_getElem? hd)))
    | worked hw => exact Or.inl (ht.worked hw)
  · cases hs with
    | received hr =>
      clear hdb hl
      induction hr with
      | nothing => exact h.inbox d hd
      | handled hreq hid =>
        obtain ⟨hj, hu⟩ := requestOf_canon hc hreq
        exact getHandler_forwardable hc _ _ hj hu hid h.inbox d hd
      | shut _ ih => exact ih hd
    | closed _ =>
      obtain ⟨tasks, ha, -⟩ := onConnection_appends _ _ (c.view i)
      rw [ha.deliveries, List.append_nil] at hd
      exact h.inbox d hd
    | observed _ _ =>
      rw [Holds.redis_inbox] at hd
      exact h.inbox d (List.mem_of_mem_eraseIdx hd)
    | worked hw =>
      rw [work_redis hw] at hd
      exact h.inbox d hd

theorem halt (h : Traced evp codec old ls c) (i : Fin n) : Traced evp codec old ls (c.halt i) := by
  have hless : (c.halt i).redis.inbox ⊆ c.redis.inbox := List.filter_subset_self _
  refine ⟨fun j r t hs => h.held j r t (hs.mono ?_ ?_ hless fun _ h => h), fun d hd =>
    h.inbox d (hless hd)⟩
  · simp only [Fleet.view, Fleet.hosts_halt]
    split
    · next hj => subst hj; exact fun _ h => h
    · exact fun _ h => h
  · simp only [Fleet.view, Fleet.hosts_halt]
    split
    · exact List.nil_subset _
    · exact fun _ h => h

/-- Every step keeps it, crashes and restarts included. -/
theorem kept (hc : codec.Lawful) (old : OfflineTable Bytes) :
    Fleet.Kept (n := n) evp codec (Traced evp codec old) where
  more _ _ _ h := ⟨fun i r t hs => (h.held i r t hs).imp_right fun ha =>
    ha.mono (List.subset_append_left _ _) (.refl _), h.inbox⟩
  serve _ _ _ _ _ h _ hl hs := h.serve hc hl hs
  halt _ _ i h := h.halt i
  boot _ _ _ h _ :=
    ⟨fun j r t hs =>
      h.held j r t (hs.mono (fun _ h => h) (fun _ h => h) (fun _ h => h) fun _ h => h), h.inbox⟩
  expire _ _ _ h :=
    ⟨fun j r t hs =>
      h.held j r t (hs.mono (fun _ h => h) (fun _ h => h) (fun _ h => h) fun _ h => h), h.inbox⟩
  interrupt _ c i my h _ _ := by
    have hrows : (UserModel.resetState my c.db).offlinemessage = c.db.offlinemessage := by
      unfold UserModel.resetState
      split <;> rfl
    have hreset : Traced evp codec old _ (c.put i (reset my (c.view i))) :=
      h.put (fun r t hs =>
        Or.inl (hs.mono (fun _ h => h) (fun _ h => h) (fun _ h => h) fun p hp => hrows ▸ hp))
        h.inbox (RecordsKept.resetState my c.db)
    exact ⟨hreset.held, hreset.inbox⟩

end Traced

/-- In every run, wherever a text is written to the connection of a user, listed
among the offline messages of a login reply for the user, queued, on its way
through Redis or stored for the user, it is the text of a JSON value that some
server was sent in this run, a chat that addresses this user, unless it was in
the table when the run began. -/
theorem chats_reach_addressees (hc : codec.Lawful) {db : Database} {ls : List (FleetStep n)}
    {c : Fleet n} (h : (Fleet.machine evp codec n).exec (Fleet.start n db) ls = some c) (i : Fin n)
    {r : Int32} {t : Bytes} (ht : Holds codec r t (c.view i)) :
    (r, t) ∈ db.offlinemessage ∨ Asked evp codec ls r t c.db :=
  ((Traced.kept hc db.offlinemessage).run (Traced.start evp codec n db) h).held i r t ht

namespace Sample

/-- A chat to user 2 is stored, the process is killed, and the next one hands
the chat over in the login reply. -/
def mailing : List (FleetStep 1) :=
  [.boot only, receives 1 (reg "a"), receives 2 (reg "b"), receives 1 (chat 1 2),
    .work only MySQL.up, .kill only, .boot only, receives 2 (login 2)]

theorem mailing_runs : (host.exec off mailing).isSome := by decide +kernel

end Sample

theorem chats_reach_addressees_mailing :
    Holds JsonText.codec 2 (JsonText.codec.text (Sample.chat 1 2))
      ((Option.get _ Sample.mailing_runs).view 0) ∧
      ((2, JsonText.codec.text (Sample.chat 1 2)) ∈ Database.empty.offlinemessage ∨
        Asked sampleEvp JsonText.codec Sample.mailing 2 (JsonText.codec.text (Sample.chat 1 2))
          (Option.get _ Sample.mailing_runs).db) := by
  have hhanded : ∃ e ∈ ((Option.get _ Sample.mailing_runs).view 0).sent,
      0 < e.hands JsonText.codec 2 (JsonText.codec.text (Sample.chat 1 2)) := by decide +kernel
  obtain ⟨e, he, h⟩ := hhanded
  exact ⟨.handed he h, chats_reach_addressees JsonText.codec_lawful
    (Option.some_get Sample.mailing_runs).symm 0 (.handed he h)⟩

end MyChat
