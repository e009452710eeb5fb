import MyChat.Acks

/-! What a request adds to the frames sent, to the task queue and to the
messages on their way through Redis. A chat is routed to a recipient by one of
the three; no other request adds anything of the kind. -/

namespace MyChat
open Json

/-- A task that changes friends or groups. -/
def DbTaskArgs.isCommand (t : DbTaskArgs) : Bool :=
  t.type = .addFriend || t.type = .createGroup || t.type = .addGroupUser

/-- A task that stores a chat for `r`. -/
def DbTaskArgs.storesFor (r : Int32) (t : DbTaskArgs) : Bool :=
  t.type = .insertOfflineMsg && t.toid = r

/-- What a step adds to the three lists. -/
structure Added where
  sent : List Sent
  tasks : List DbTaskArgs
  deliveries : List Delivery

def Added.between (s s' : Server) : Added where
  sent := s'.sent.drop s.sent.length
  tasks := s'.dbQueue.drop s.dbQueue.length
  deliveries := s'.redis.inbox.drop s.redis.inbox.length

/-- How often a chat was routed to `r`: sent on the connection of `r`, handed to
the channel of `r` for `self`, or queued for the offline table. -/
def Added.routesTo (self : Nat) (r : Int32) (a : Added) : Nat :=
  a.sent.countP (·.forUser = some r) + a.tasks.countP (·.storesFor r) +
    a.deliveries.countP fun d => d.server = self ∧ d.channel = r

/-- The tasks among the additions that change friends or groups. -/
def Added.commands (a : Added) : Nat := a.tasks.countP (·.isCommand)

/-- The step appends to the three lists. -/
structure Appends (s s' : Server) (a : Added) : Prop where
  self : s'.self = s.self
  sent : s'.sent = s.sent ++ a.sent
  tasks : s'.dbQueue = s.dbQueue ++ a.tasks
  deliveries : s'.redis.inbox = s.redis.inbox ++ a.deliveries

namespace Appends

variable {s s' s'' : Server} {a b : Added}

theorem between (h : Appends s s' a) : Added.between s s' = a := by
  rw [Added.between, h.sent, h.tasks, h.deliveries]
  simp only [List.drop_left]

theorem nothing (s : Server) : Appends s s ⟨[], [], []⟩ := ⟨rfl, by simp, by simp, by simp⟩

theorem trans (h : Appends s s' a) (h' : Appends s' s'' b) :
    Appends s s'' ⟨a.sent ++ b.sent, a.tasks ++ b.tasks, a.deliveries ++ b.deliveries⟩ := by
  refine ⟨h'.self.trans h.self, ?_, ?_, ?_⟩
  · rw [h'.sent, h.sent, List.append_assoc]
  · rw [h'.tasks, h.tasks, List.append_assoc]
  · rw [h'.deliveries, h.deliveries, List.append_assoc]

theorem send (conn : Conn) (frame : Frame) (s : Server) :
    Appends s (s.send conn frame) ⟨[⟨conn, none, frame⟩], [], []⟩ :=
  ⟨rfl, rfl, by simp [Server.send], by simp [Server.send]⟩

theorem push (t : DbTaskArgs) (s : Server) : Appends s (s.push t) ⟨[], [t], []⟩ :=
  ⟨rfl, by simp [Server.push], rfl, by simp [Server.push]⟩

end Appends

/-! ## Requests that route nothing -/

/-- Replies to the requester, at most one task, and none that stores a chat. -/
structure RoutesNothing (s s' : Server) : Prop where
  appends : ∃ a, Appends s s' a ∧ (∀ e ∈ a.sent, e.forUser = none) ∧ a.deliveries = [] ∧
    (∀ t ∈ a.tasks, t.type ≠ .insertOfflineMsg) ∧ a.tasks.length ≤ 1

namespace RoutesNothing

variable {s s' : Server}

theorem refl (s : Server) : RoutesNothing s s := ⟨_, .nothing s, by simp, rfl, by simp, by simp⟩

theorem same (hself : s'.self = s.self) (hsent : s'.sent = s.sent) (hqueue : s'.dbQueue = s.dbQueue)
    (hinbox : s'.redis.inbox = s.redis.inbox) : RoutesNothing s s' :=
  ⟨⟨[], [], []⟩, ⟨hself, by simpa using hsent, by simpa using hqueue, by simpa using hinbox⟩,
    by simp, rfl, by simp, by simp⟩

theorem push {t : DbTaskArgs} (ht : t.type ≠ .insertOfflineMsg) (hself : s'.self = s.self)
    (hsent : s'.sent = s.sent) (hqueue : s'.dbQueue = s.dbQueue ++ [t])
    (hinbox : s'.redis.inbox = s.redis.inbox) : RoutesNothing s s' :=
  ⟨⟨[], [t], []⟩, ⟨hself, by simpa using hsent, hqueue, by simpa using hinbox⟩, by simp, rfl,
    by simpa using ht, by simp⟩

theorem send (h : RoutesNothing s s') (conn : Conn) (frame : Frame) :
    RoutesNothing s (s'.send conn frame) := by
  obtain ⟨a, ha, hsent, hdel, htasks, hlen⟩ := h
  refine ⟨_, ha.trans (.send conn frame s'), ?_, by simp [hdel], by simpa using htasks, by simpa⟩
  intro e he
  rcases List.mem_append.mp he with he | he
  · exact hsent e he
  · rw [List.mem_singleton.mp he]

theorem answer (h : RoutesNothing s s') (codec : JsonCodec) (conn : Conn) (j : Json)
    (msgId : Int32) :
    RoutesNothing s (s'.answer codec conn j msgId) := (h.send conn _).send conn _

theorem routesTo (h : RoutesNothing s s') (self : Nat) (r : Int32) :
    (Added.between s s').routesTo self r = 0 := by
  obtain ⟨a, ha, hsent, hdel, htasks, -⟩ := h
  rw [ha.between, Added.routesTo, hdel]
  have h1 : a.sent.countP (·.forUser = some r) = 0 := by
    rw [List.countP_eq_zero]
    intro e he
    simp [hsent e he]
  have h2 : a.tasks.countP (·.storesFor r) = 0 := by
    rw [List.countP_eq_zero]
    intro t ht
    simp [DbTaskArgs.storesFor, htasks t ht]
  rw [h1, h2]
  rfl

theorem commands (h : RoutesNothing s s') : (Added.between s s').commands ≤ 1 := by
  obtain ⟨a, ha, -, -, -, hlen⟩ := h
  rw [ha.between]
  exact le_trans List.countP_le_length hlen

end RoutesNothing

variable {codec : JsonCodec}

theorem getHandler_routesNothing (hc : codec.Lawful) (my : Nat → MySQL) (conn : Conn) (js : Json)
    {msgid : Int32} (hone : handlerOf msgid ≠ some .oneChatMsg)
    (hgroup : handlerOf msgid ≠ some .groupChatMsg) (s : Server) :
    RoutesNothing s (getHandler codec my msgid conn js s).state := by
  have h := getHandler_handled hc my msgid conn js s
  generalize getHandler codec my msgid conn js s = r at h ⊢
  generalize handlerOf msgid = t at h hone hgroup
  have hopen : ∀ id, RoutesNothing s (loginSession my conn id s) := by
    intro id
    obtain ⟨hself, hsent, hqueue, hinbox⟩ := loginSession_lists my conn id s
    exact .push (by simp [updateStateTask]) hself hsent hqueue hinbox
  cases h with
  | chatSent | chatPublished | chatStored => exact absurd rfl hone
  | groupRouted => exact absurd rfl hgroup
  | unhandled | illTyped | unsendable | regOverflow => exact .refl s
  | loginRefused | regFailed => exact (RoutesNothing.refl s).answer codec conn _ _
  | loginAnswered => exact (hopen _).answer codec conn _ _
  | loginUnsendable => exact hopen _
  | @registered _ _ _ _ users =>
    have hreg : RoutesNothing s { s with db := { s.db with user := users } } :=
      .same rfl rfl rfl rfl
    exact hreg.answer codec conn _ _
  | @loggedOut userid =>
    have hend : RoutesNothing s (endSession userid s) :=
      .push (t := updateStateTask userid offline) (by simp [updateStateTask]) rfl rfl rfl rfl
    exact hend.send conn _
  | @friendQueued u f =>
    have hpush : RoutesNothing s (s.push { type := .addFriend, userid := u, friendid := f }) :=
      .push (by simp) rfl rfl rfl rfl
    exact hpush.send conn _
  | @groupQueued u n d =>
    have hpush : RoutesNothing s { s.push { type := .createGroup, name := n, desc := d } with
        db := (GroupModel.addGroup (my 0) u (-1) (lit "creator") s.db).1 } :=
      .push (t := { type := .createGroup, name := n, desc := d }) (by simp) rfl rfl rfl rfl
    exact hpush.answer codec conn _ _
  | @memberQueued u g =>
    have hpush : RoutesNothing s (s.push { type := .addGroupUser, userid := u, groupid := g }) :=
      .push (by simp) rfl rfl rfl rfl
    exact hpush.answer codec conn _ _

/-! ## Chats -/

/-- The copies of a publication that are for one server: at most one. -/
theorem countP_published (self : Nat) (r k : Int32) (t : Bytes) (rd : Redis) :
    ((rd.subs.filter (·.2 = r)).map fun sub => (⟨sub.1, r, cStr t⟩ : Delivery)).countP
      (fun d => d.server = self ∧ d.channel = k) ≤ if r = k then 1 else 0 := by
  rw [List.countP_map]
  split
  · next h =>
    subst h
    have hle : (rd.subs.filter (·.2 = r)).countP
        ((fun d : Delivery => decide (d.server = self ∧ d.channel = r)) ∘ fun sub =>
          ⟨sub.1, r, cStr t⟩) ≤ rd.subs.count (self, r) := by
      rw [List.countP_filter, List.count]
      apply List.countP_mono_left
      intro sub _ hsub
      simp only [Function.comp_apply, and_true, Bool.and_eq_true, decide_eq_true_eq] at hsub
      simp [← hsub.1, ← hsub.2]
    exact hle.trans (List.nodup_iff_count_le_one.mp rd.nodup _)
  · next h =>
    rw [Nat.le_zero, List.countP_eq_zero]
    intro sub _
    simp [h]

/-- One routing reaches its recipient at most once and nobody else. -/
theorem Routed.routesTo {s s' : Server} {r : Int32} {t : Bytes} {msgId : Int32}
    (h : Routed s r t msgId s') (k : Int32) :
    ∃ a, Appends s s' a ∧ a.routesTo s.self k ≤ (if r = k then 1 else 0) ∧ a.commands = 0 := by
  cases h with
  | sent c _ =>
    refine ⟨⟨[⟨c, some r, groupChatFrame t msgId⟩], [], []⟩, ⟨rfl, rfl, by simp [Server.sendTo],
      by simp [Server.sendTo]⟩, ?_, rfl⟩
    simp [Added.routesTo, List.countP_cons]
  | published _ =>
    refine ⟨⟨[], [], (s.redis.subs.filter (·.2 = r)).map fun sub => ⟨sub.1, r, cStr t⟩⟩,
      ⟨rfl, by simp [Server.publish], by simp [Server.publish], rfl⟩, ?_, rfl⟩
    simpa [Added.routesTo] using countP_published s.self r k t s.redis
  | queued _ =>
    refine ⟨⟨[], [offlineMsgTask r t], []⟩, .push _ s, ?_, rfl⟩
    simp [Added.routesTo, DbTaskArgs.storesFor, offlineMsgTask, List.countP_cons]

theorem Added.routesTo_append (self : Nat) (k : Int32) (a b : Added) :
    Added.routesTo self k ⟨a.sent ++ b.sent, a.tasks ++ b.tasks, a.deliveries ++ b.deliveries⟩ =
      a.routesTo self k + b.routesTo self k := by
  simp only [Added.routesTo, List.countP_append]
  omega

theorem Added.commands_append (a b : Added) :
    Added.commands ⟨a.sent ++ b.sent, a.tasks ++ b.tasks, a.deliveries ++ b.deliveries⟩ =
      a.commands + b.commands := by
  simp only [Added.commands, List.countP_append]

/-- A group chat reaches each member once for each time it is listed. -/
theorem routeMembers_routesTo (my : Nat → MySQL) (t : Bytes) (msgId : Int32) (n : Nat)
    (ids : List Int32) (s : Server) (k : Int32) :
    ∃ a, Appends s (routeMembers my t msgId n ids s) a ∧ a.routesTo s.self k ≤ ids.count k ∧
      a.commands = 0 := by
  induction ids generalizing n s with
  | nil => exact ⟨_, .nothing s, Nat.le_refl 0, rfl⟩
  | cons r ids ih =>
    obtain ⟨a, ha, hra, hca⟩ := (routeMember_routed (my n) t msgId r s).routesTo k
    obtain ⟨b, hb, hrb, hcb⟩ := ih (n + 1) (routeMember (my n) t msgId r s)
    refine ⟨_, ha.trans hb, ?_, by rw [Added.commands_append, hca, hcb]⟩
    rw [Added.routesTo_append, List.count_cons]
    rw [ha.self] at hrb
    simp only [beq_iff_eq]
    omega

theorem Added.send (a : Added) (self : Nat) (k : Int32) (conn : Conn) (frame : Frame) :
    Added.routesTo self k ⟨a.sent ++ [⟨conn, none, frame⟩], a.tasks ++ [], a.deliveries ++ []⟩ =
      a.routesTo self k := by
  simp [Added.routesTo, List.countP_append]

/-- A one-to-one chat is routed at most once, to its recipient or, should that
user not exist, to the offline messages of no one. -/
theorem oneChat_routes (hc : codec.Lawful) (my : Nat → MySQL) (conn : Conn) (js : Json) (s : Server)
    (k : Int32) :
    (Added.between s (oneChat codec my conn js s).state).routesTo s.self k ≤ 1 ∧
      (Added.between s (oneChat codec my conn js s).state).commands = 0 := by
  have hrouted : ∀ {r t msgId s'}, Routed s r t msgId s' →
      ((Added.between s s').routesTo s.self k ≤ 1 ∧ (Added.between s s').commands = 0) ∧
      ∀ frame, (Added.between s (s'.send conn frame)).routesTo s.self k ≤ 1 ∧
        (Added.between s (s'.send conn frame)).commands = 0 := by
    intro r t msgId s' h
    obtain ⟨a, ha, hr, hcmd⟩ := h.routesTo k
    have hle : a.routesTo s.self k ≤ 1 := hr.trans (by split <;> omega)
    refine ⟨by rw [ha.between]; exact ⟨hle, hcmd⟩, fun frame => ?_⟩
    rw [(ha.trans (.send conn frame s')).between, Added.send, Added.commands_append]
    exact ⟨hle, hcmd⟩
  rcases oneChat_cases hc my conn js s with ⟨-, h⟩ | ⟨toid, msgId, -, h⟩
  · rw [h, (Appends.nothing s).between]
    exact ⟨Nat.zero_le 1, rfl⟩
  rcases h with ⟨-, h⟩ | ⟨-, c, hl, h⟩ | ⟨-, hl, -, h⟩ | ⟨-, hl, -, h⟩
  · rw [h, (Appends.nothing s).between]
    exact ⟨Nat.zero_le 1, rfl⟩
  · rw [h]
    exact (hrouted (.sent c hl)).2 _
  · rw [h]
    have hp : Routed s toid (codec.text js) msgId (s.publish toid (codec.text js)) := .published hl
    exact (hrouted hp).1
  · rw [h]
    have ha :=
      (Appends.push (offlineMsgTask (UserModel.query (my 0) toid s.db).id (codec.text js)) s).trans
      (.send conn (ackFrame codec msgId) _)
    rw [ha.between]
    refine ⟨?_, by simp [Added.commands, DbTaskArgs.isCommand, offlineMsgTask]⟩
    have hsent : ([] ++ [⟨conn, none, ackFrame codec msgId⟩] : List Sent).countP
        (·.forUser = some k) = 0 := by simp
    simp only [Added.routesTo, hsent, List.append_nil, List.countP_nil, List.countP_singleton]
    split <;> omega

/-- A group chat is routed to a member at most once for each of its rows. -/
theorem groupChat_routes (hc : codec.Lawful) (my : Nat → MySQL) (conn : Conn) (js : Json)
    (s : Server) (k : Int32) :
    (Added.between s (groupChat codec my conn js s).state).commands = 0 ∧
    ∀ groupid, js.intAt (lit "groupid") = some groupid →
      (Added.between s (groupChat codec my conn js s).state).routesTo s.self k ≤
        s.db.groupuser.countP fun m => m.groupid = groupid ∧ m.userid = k := by
  rcases groupChat_cases hc my conn js s with ⟨-, h⟩ | ⟨u, g, msgId, hf, h⟩
  · rw [h, (Appends.nothing s).between]
    exact ⟨rfl, fun _ _ => Nat.zero_le _⟩
  rcases h with ⟨-, h⟩ | ⟨-, h⟩
  · rw [h, (Appends.nothing s).between]
    exact ⟨rfl, fun _ _ => Nat.zero_le _⟩
  · obtain ⟨a, ha, hr, hcmd⟩ := routeMembers_routesTo my (codec.text js) msgId 1
      (GroupModel.queryGroupUsers (my 0) u g s.db) s k
    rw [h, (ha.trans (.send conn (ackFrame codec msgId) _)).between]
    refine ⟨by rw [Added.commands_append, hcmd]; rfl, fun groupid hg => ?_⟩
    cases Option.some.inj (hf.groupid.symm.trans hg)
    rw [Added.send]
    refine hr.trans ?_
    unfold GroupModel.queryGroupUsers
    split
    · rw [List.count, List.countP_map, List.countP_filter]
      apply List.countP_mono_left
      intro m _ hm
      simp only [Function.comp_apply, beq_iff_eq, Bool.and_eq_true, decide_eq_true_eq] at hm
      simp [hm.1, hm.2.1]
    · simp

/-! ## What a request writes to the database itself -/

/-- Chats and friends write nothing: their rows come from the queue. -/
inductive RequestWrites (t : Option EnMsgType) (db : Database) : Database → Prop
  | nothing : RequestWrites t db db
  | user {row : UserRow} {users : AutoTable UserRow} {id : Int32}
      (h : db.user.insert row = some (users, id)) : RequestWrites t db { db with user := users }
  | member (row : GroupUserRow) :
      RequestWrites t db { db with groupuser := db.groupuser ++ [row] }
  | read (id : Int32) (h : t = some .loginMsg) :
      RequestWrites t db { db with offlinemessage := db.offlinemessage.remove id }

theorem loginSession_writes (my : Nat → MySQL) (conn : Conn) (id : Int32) (s : Server) :
    RequestWrites (some .loginMsg) s.db (loginSession my conn id s).db := by
  have hopen : (openSession conn id (UserModel.query (my 0) id s.db) s).db = s.db :=
    openSession_db conn id _ s
  unfold loginSession takeOffline
  simp only
  split
  · rw [hopen]; exact .nothing
  · rw [hopen]
    unfold OfflineMsgModel.remove
    split
    · exact .read id rfl
    · exact .nothing

theorem addGroup_writes (my : MySQL) (userid groupid : Int32) (role : Bytes) (db : Database)
    (t : Option EnMsgType) :
    RequestWrites t db (GroupModel.addGroup my userid groupid role db).1 := by
  unfold GroupModel.addGroup
  split
  · exact .member _
  · exact .nothing

theorem getHandler_writes (hc : codec.Lawful) (my : Nat → MySQL) (msgid : Int32) (conn : Conn)
    (js : Json) (s : Server) :
    RequestWrites (handlerOf msgid) s.db (getHandler codec my msgid conn js s).state.db := by
  have h := getHandler_handled hc my msgid conn js s
  generalize getHandler codec my msgid conn js s = r at h ⊢
  generalize handlerOf msgid = t at h ⊢
  cases h with
  | loginAnswered | loginUnsendable => exact loginSession_writes my conn _ s
  | registered _ _ hi => exact .user hi
  | @groupRouted u g msgId =>
    have hdb := (routeMembers_keeps my (codec.text js) msgId 1
      (GroupModel.queryGroupUsers (my 0) u g s.db) s).2
    simp only [Server.send, hdb]
    exact .nothing
  | @groupQueued u => exact addGroup_writes (my 0) u (-1) (lit "creator") s.db _
  | _ => exact .nothing

/-- A request registers at most one user. -/
theorem RequestWrites.registers {t : Option EnMsgType} {db db' : Database}
    (h : RequestWrites t db db') : db'.user.rows.length ≤ db.user.rows.length + 1 := by
  cases h with
  | user hi => exact (AutoTable.length_insert hi).le
  | _ => exact Nat.le_succ _

/-- Only a login takes offline messages away. -/
theorem RequestWrites.offline {t : Option EnMsgType} {db db' : Database}
    (h : RequestWrites t db db') (hlogin : t ≠ some .loginMsg) :
    db'.offlinemessage = db.offlinemessage := by
  cases h with
  | read id ht => exact absurd ht hlogin
  | _ => rfl

end MyChat
