import MyChat.Forwarding
import MyChat.Records
import MyChat.SessionState

/-! Sessions over the life of several server processes: what a step does to the
connection map, the subscriptions and the queued row updates of the server that
takes it, and what follows for publications, for crashes and for restarts. -/

namespace MyChat
open Json

/-! ## What a step does to sessions -/

/-- Rows stay, and those that appear are offline. -/
structure UsersGrow (db db' : Database) : Prop where
  kept : ∀ id row, db.user.get id = some row → db'.user.get id = some row
  fresh : ∀ id row, db'.user.get id = some row → db.user.get id = some row ∨ row.state = offline

theorem UsersGrow.of_eq {db db' : Database} (h : db'.user = db.user) : UsersGrow db db' :=
  ⟨fun id row hr => by rw [h]; exact hr, fun id row hr => Or.inl (by rw [← h]; exact hr)⟩

theorem UsersGrow.insertUser {db : Database} {name pwd : Bytes} {users : AutoTable UserRow}
    {k : Int32} (h : db.user.insert ⟨name, pwd, offline⟩ = some (users, k)) :
    UsersGrow db { db with user := users } := by
  obtain ⟨hfree, hget⟩ := AutoTable.get_insert h
  constructor <;> intro id row hr
  · have hne : id ≠ k := by
      rintro rfl
      cases hfree.symm.trans hr
    show users.get id = some row
    rw [hget, if_neg hne]
    exact hr
  · change users.get id = some row at hr
    rw [hget] at hr
    split at hr
    · cases hr; exact Or.inr rfl
    · exact Or.inl hr

/-- A session is opened or ended on all three at once. `P` says which sessions
the step may end. -/
inductive SessionMove (P : Int32 → Prop) (s s' : Server) : Prop
  | kept {tasks : List DbTaskArgs} (hmap : s'.userConnMap = s.userConnMap)
      (hsubs : s'.redis.subs = s.redis.subs) (hqueue : s'.dbQueue = s.dbQueue ++ tasks)
      (htasks : ∀ t ∈ tasks, t.type ≠ .updateUserState)
  | opened {id : Int32} {conn : Conn}
      (hrow : id = -1 ∨ ∃ row, s.db.user.get id = some row ∧ row.state ≠ online)
      (hmap : s'.userConnMap = (s.mapInsert id conn).userConnMap)
      (hsubs : s'.redis.subs = (s.redis.subscribe s.self id).subs)
      (hqueue : s'.dbQueue = s.dbQueue ++ [updateStateTask id online])
  | ended {id : Int32} (hP : P id) (hmap : s'.userConnMap = (s.mapErase id).userConnMap)
      (hsubs : s'.redis.subs = (s.redis.unsubscribe s.self id).subs)
      (hqueue : s'.dbQueue = s.dbQueue ++ [updateStateTask id offline])
  /-- The closed connection had no session, or that of -1. -/
  | missed (hmap : s'.userConnMap = s.userConnMap ∨ s'.userConnMap = (s.mapErase (-1)).userConnMap)
      (hsubs : s'.redis.subs = (s.redis.unsubscribe s.self (-1)).subs)
      (hqueue : s'.dbQueue = s.dbQueue)

structure SessionChange (P : Int32 → Prop) (s s' : Server) : Prop where
  self : s'.self = s.self
  users : UsersGrow s.db s'.db
  move : SessionMove P s s'

theorem SessionChange.same {P : Int32 → Prop} {s s' : Server} (hself : s'.self = s.self)
    (huser : s'.db.user = s.db.user) (hmap : s'.userConnMap = s.userConnMap)
    (hsubs : s'.redis.subs = s.redis.subs) (hqueue : s'.dbQueue = s.dbQueue) :
    SessionChange P s s' :=
  ⟨hself, .of_eq huser, .kept hmap hsubs (by rw [hqueue, List.append_nil]) (List.forall_mem_nil _)⟩

theorem SessionChange.refl (P : Int32 → Prop) (s : Server) : SessionChange P s s :=
  .same rfl rfl rfl rfl rfl

/-- What is written or rows of other tables do not matter. -/
theorem SessionChange.congr {P : Int32 → Prop} {s s' s'' : Server} (h : SessionChange P s s')
    (hself : s''.self = s'.self) (huser : s''.db.user = s'.db.user)
    (hmap : s''.userConnMap = s'.userConnMap) (hsubs : s''.redis.subs = s'.redis.subs)
    (hqueue : s''.dbQueue = s'.dbQueue) : SessionChange P s s'' := by
  refine ⟨hself.trans h.self, ?_, ?_⟩
  · exact ⟨fun id row hr => huser ▸ h.users.kept id row hr, fun id row hr =>
      h.users.fresh id row (huser ▸ hr)⟩
  · cases h.move with
    | kept hm hs hq ht => exact .kept (hmap.trans hm) (hsubs.trans hs) (hqueue.trans hq) ht
    | opened hr hm hs hq => exact .opened hr (hmap.trans hm) (hsubs.trans hs) (hqueue.trans hq)
    | ended hP hm hs hq => exact .ended hP (hmap.trans hm) (hsubs.trans hs) (hqueue.trans hq)
    | missed hm hs hq => exact .missed (hmap ▸ hm) (hsubs.trans hs) (hqueue.trans hq)

theorem SessionChange.mono {P Q : Int32 → Prop} {s s' : Server} (h : SessionChange P s s')
    (hPQ : ∀ id, P id → Q id) : SessionChange Q s s' := by
  refine ⟨h.self, h.users, ?_⟩
  cases h.move with
  | kept hm hs hq ht => exact .kept hm hs hq ht
  | opened hr hm hs hq => exact .opened hr hm hs hq
  | ended hP hm hs hq => exact .ended (hPQ _ hP) hm hs hq
  | missed hm hs hq => exact .missed hm hs hq

variable {codec : JsonCodec}

theorem routeMembers_sessions {P : Int32 → Prop} (my : Nat → MySQL) (text : Bytes) (msgId : Int32)
    (n : Nat) (ids : List Int32) (s : Server) :
    SessionChange P s (routeMembers my text msgId n ids s) := by
  obtain ⟨a, ha, hca⟩ := routeMembers_carries my text msgId n ids s
  obtain ⟨hmap, hdb⟩ := routeMembers_keeps my text msgId n ids s
  have hsubs : (routeMembers my text msgId n ids s).redis.subs = s.redis.subs := by
    clear ha hca hmap hdb
    induction ids generalizing n s with
    | nil => rfl
    | cons r ids ih =>
      exact (ih (n + 1) (routeMember (my n) text msgId r s)).trans
        (routeMember_routed (my n) text msgId r s).keeps.2.2
  refine ⟨ha.self, .of_eq (by rw [hdb]), .kept hmap hsubs ha.tasks fun t ht => ?_⟩
  rw [(hca.tasks t ht).1]
  simp

theorem loginSession_sessions {P : Int32 → Prop} {my : Nat → MySQL} {conn : Conn} {id : Int32}
    {pwd : Bytes} {s : Server} (h : LoginAccepts my id pwd s.db) :
    SessionChange P s (loginSession my conn id s) := by
  have hrow : id = -1 ∨ ∃ row, s.db.user.get id = some row ∧ row.state ≠ online := by
    rcases UserModel.query_cases (my 0) id s.db with hq | ⟨row, hget, hq⟩
    · have hid := h.1
      rw [hq] at hid
      exact Or.inl hid.symm
    · have hoff := h.2.2
      rw [hq] at hoff
      exact Or.inr ⟨row, hget, hoff⟩
  obtain ⟨hself, -, hqueue, -⟩ := loginSession_lists my conn id s
  have hopen : ∀ user, (openSession conn id user s).db = s.db ∧
      (openSession conn id user s).userConnMap = (s.mapInsert id conn).userConnMap ∧
      (openSession conn id user s).redis.subs = (s.redis.subscribe s.self id).subs := by
    intro user
    refine ⟨openSession_db conn id user s, rfl, ?_⟩
    unfold openSession Server.mapInsert
    split <;> rfl
  obtain ⟨hdb, hmap, hsubs⟩ := hopen (UserModel.query (my 0) id s.db)
  rw [h.1] at hqueue
  have htake : (loginSession my conn id s).db.user = s.db.user ∧
      (loginSession my conn id s).userConnMap = (s.mapInsert id conn).userConnMap ∧
      (loginSession my conn id s).redis.subs = (s.redis.subscribe s.self id).subs := by
    unfold loginSession takeOffline
    simp only
    split
    · exact ⟨by rw [hdb], hmap, hsubs⟩
    · refine ⟨?_, hmap, hsubs⟩
      show (OfflineMsgModel.remove (my 2) id (openSession conn id _ s).db).user = _
      rw [hdb]
      unfold OfflineMsgModel.remove
      split <;> rfl
  exact ⟨hself, .of_eq htake.1, .opened hrow htake.2.1 htake.2.2 hqueue⟩

/-- A request ends no session but the one that a logout names. -/
theorem getHandler_sessions (hc : codec.Lawful) (my : Nat → MySQL) (msgid : Int32) (conn : Conn)
    (js : Json) (s : Server) :
    SessionChange (fun id => msgid = EnMsgType.logoutMsg.val ∧ js.intAt (lit "id") = some id) s
      (getHandler codec my msgid conn js s).state := by
  have hhandled := getHandler_handled hc my msgid conn js s
  have hval : ∀ k, handlerOf msgid = some k → msgid = k.val := fun k => handlerOf_some
  generalize MyChat.getHandler codec my msgid conn js s = ret at hhandled ⊢
  generalize handlerOf msgid = k at hhandled hval
  have hpush : ∀ {t : DbTaskArgs} {s' : Server}, t.type ≠ .updateUserState → s'.self = s.self →
      s'.db.user = s.db.user → s'.userConnMap = s.userConnMap → s'.redis.subs = s.redis.subs →
      s'.dbQueue = s.dbQueue ++ [t] →
      SessionChange
      (fun id => msgid = EnMsgType.logoutMsg.val ∧ js.intAt (lit "id") = some id) s s' :=
    fun ht hself huser hmap hsubs hqueue =>
      ⟨hself, .of_eq huser, .kept hmap hsubs hqueue fun u hu => List.mem_singleton.mp hu ▸ ht⟩
  cases hhandled with
  | unhandled | illTyped | unsendable | regOverflow => exact .refl _ s
  | loginRefused | regFailed => exact .same rfl rfl rfl rfl rfl
  | loginAnswered hf hacc => exact (loginSession_sessions hacc).congr rfl rfl rfl rfl rfl
  | loginUnsendable hf hacc => exact loginSession_sessions hacc
  | registered hf hfits hi =>
    exact ⟨rfl, .insertUser hi, .kept rfl rfl (List.append_nil s.dbQueue).symm nofun⟩
  | loggedOut hf => exact ⟨rfl, .of_eq rfl, .ended ⟨hval _ rfl, hf.id⟩ rfl rfl rfl⟩
  | chatSent => exact .same rfl rfl rfl rfl rfl
  | chatPublished => exact .same rfl rfl rfl rfl rfl
  | chatStored => exact hpush (by simp [offlineMsgTask]) rfl rfl rfl rfl rfl
  | groupRouted => exact (routeMembers_sessions my _ _ _ _ s).congr rfl rfl rfl rfl rfl
  | friendQueued => exact hpush (by simp) rfl rfl rfl rfl rfl
  | @groupQueued userid name desc =>
    refine hpush (t := { type := .createGroup, name := name, desc := desc }) (by simp) rfl ?_
      rfl rfl rfl
    show (GroupModel.addGroup (my 0) userid (-1) (lit "creator") s.db).1.user = _
    unfold GroupModel.addGroup
    split <;> rfl
  | memberQueued => exact hpush (by simp) rfl rfl rfl rfl rfl

/-- A close ends a session of the map. -/
theorem onConnection_sessions (order : List Int32) (conn : Conn) (s : Server) :
    SessionChange (· ∈ s.userConnMap) s (onConnection order conn s) := by
  unfold onConnection clientCloseException
  simp only
  cases hf : order.find? fun id => s.userConnMap.lookup id = some conn with
  | none =>
    simp only [Option.getD_none, Option.isSome_none, ne_eq, not_true_eq_false, ↓reduceIte,
      Bool.false_eq_true]
    exact ⟨rfl, .of_eq rfl, .missed (Or.inl rfl) rfl rfl⟩
  | some id =>
    have hlookup := List.find?_some hf
    have hmem : id ∈ s.userConnMap := Finmap.mem_of_lookup_eq_some (of_decide_eq_true hlookup)
    simp only [Option.getD_some, Option.isSome_some, ↓reduceIte]
    split
    · exact ⟨rfl, .of_eq rfl, .ended hmem rfl rfl rfl⟩
    · next hid =>
      rw [ne_eq, not_not] at hid
      subst hid
      exact ⟨rfl, .of_eq rfl, .missed (Or.inr rfl) rfl rfl⟩

/-- The delivery is out of the inbox when the callback runs. -/
theorem redis_sessions {P : Int32 → Prop} (my : MySQL) (userid : Int32) (msg : Bytes) (k : Nat)
    (s : Server) :
    SessionChange P s
      (handleRedisSubscribeMessage codec my userid msg
        { s with redis := s.redis.take k }).state := by
  unfold handleRedisSubscribeMessage
  split
  · simp only
    split
    · exact .same rfl rfl rfl rfl rfl
    · split
      · split <;> exact .same rfl rfl rfl rfl rfl
      · exact .same rfl rfl rfl rfl rfl
  · split
    · exact .same rfl rfl rfl rfl rfl
    · next db hdb =>
      refine .same rfl ?_ rfl rfl rfl
      unfold OfflineMsgModel.insert at hdb
      split at hdb
      · split at hdb <;> (cases hdb; rfl)
      · cases hdb

variable {evp : Evp} {n : Nat}

/-- The step brings a logout that names `id`. -/
def LogoutArrives (evp : Evp) (codec : JsonCodec) (id : Int32) (l : FleetStep n) : Prop :=
  ∃ i my conn buf js, l = .receive i my conn buf ∧ requestOf evp codec buf = some js ∧
    js.intAt (lit "msgid") = some EnMsgType.logoutMsg.val ∧ js.intAt (lit "id") = some id

/-- What a served step does, but for the worker's. -/
theorem Served.sessions (hc : codec.Lawful) {l : FleetStep n} {s s' : Server}
    (h : Served evp codec l s s') :
    SessionChange (fun id => LogoutArrives evp codec id l ∨ id ∈ s.userConnMap) s s' ∨
      ∃ i my, l = .work i my ∧ s.work my = some s' := by
  cases h with
  | @received i my conn buf _ _ hr =>
    refine Or.inl ?_
    induction hr with
    | nothing => exact .refl _ s
    | @handled js msgid hreq hid =>
      refine (getHandler_sessions hc my msgid conn js s).mono ?_
      rintro id ⟨hlogout, hjs⟩
      exact Or.inl ⟨i, my, conn, buf, js, rfl, hreq, hlogout ▸ hid, hjs⟩
    | shut _ ih => exact ih.congr rfl rfl rfl rfl rfl
  | closed _ => exact Or.inl ((onConnection_sessions _ _ s).mono fun id hid => Or.inr hid)
  | observed _ _ => exact Or.inl (redis_sessions _ _ _ _ s)
  | worked h => exact Or.inr ⟨_, _, rfl, h⟩

theorem work_userConnMap {my : MySQL} {s s' : Server} (h : s.work my = some s') :
    s'.userConnMap = s.userConnMap := by
  unfold Server.work at h
  split at h
  · cases h
  · split at h <;> cases h <;> rfl

/-! ## Publications -/

/-- A server listens on the channels of its sessions and on no others. -/
structure Listening (c : Fleet n) : Prop where
  subs : ∀ (i : Fin n) id, id ≠ -1 → (((i : Nat), id) ∈ c.redis.subs ↔ id ∈ (c.hosts i).userConnMap)
  ours : ∀ sub ∈ c.redis.subs, sub.1 < n

namespace Listening

variable {c : Fleet n}

theorem start (n : Nat) (db : Database) : Listening (Fleet.start n db) :=
  ⟨fun i id _ => iff_of_false (by simp [Fleet.start, Redis.empty]) Finmap.notMem_empty,
    by simp [Fleet.start, Redis.empty]⟩

/-- Only the subscriptions of the server that moves may change, and with its map. -/
theorem put (h : Listening c) {i : Fin n} {s : Server}
    (hown : ∀ id, id ≠ -1 → (((i : Nat), id) ∈ s.redis.subs ↔ id ∈ s.userConnMap))
    (hothers : ∀ j id, j ≠ (i : Nat) → ((j, id) ∈ s.redis.subs ↔ (j, id) ∈ c.redis.subs)) :
    Listening (c.put i s) := by
  refine ⟨fun j id hid => ?_, fun sub hsub => ?_⟩
  · by_cases hj : j = i
    · rw [hj, Fleet.hosts_put]
      exact hown id hid
    · rw [Fleet.hosts_put_ne hj]
      exact (hothers j id (Fin.val_ne_of_ne hj)).trans (h.subs j id hid)
  · by_cases hj : sub.1 = i
    · rw [hj]
      exact i.isLt
    · exact h.ours sub ((hothers sub.1 sub.2 hj).mp hsub)

theorem sessionChange (h : Listening c) {i : Fin n} {P : Int32 → Prop} {s : Server}
    (hs : SessionChange P (c.view i) s) : Listening (c.put i s) := by
  have hold := h.subs i
  have hview : (c.view i).redis.subs = c.redis.subs := rfl
  have hmap : (c.view i).userConnMap = (c.hosts i).userConnMap := rfl
  cases hs.move with
  | kept hm hsubs _ _ =>
    refine h.put (fun id hid => ?_) fun j id _ => by rw [hsubs, hview]
    rw [hsubs, hm]
    exact hold id hid
  | @opened k conn _ hm hsubs _ =>
    refine h.put (fun id hid => ?_) fun j id hj => ?_
    · rw [hsubs, hm, Redis.mem_subscribe, Consistent.mem_mapInsert, hview, hmap, ← hold id hid]
      simp [Fleet.view]
    · rw [hsubs, Redis.mem_subscribe, hview]
      simp [Fleet.view, hj]
  | @ended k _ hm hsubs _ =>
    refine h.put (fun id hid => ?_) fun j id hj => ?_
    · rw [hsubs, hm, Redis.mem_unsubscribe, Consistent.mem_mapErase, hview, hmap, ← hold id hid]
      simp [Fleet.view, and_comm]
    · rw [hsubs, Redis.mem_unsubscribe, hview]
      simp [Fleet.view, hj]
  | missed hm hsubs _ =>
    refine h.put (fun id hid => ?_) fun j id hj => ?_
    · have hmem : id ∈ s.userConnMap ↔ id ∈ (c.hosts i).userConnMap := by
        rcases hm with hm | hm
        · rw [hm, hmap]
        · rw [hm, Consistent.mem_mapErase, hmap]
          simp [hid]
      rw [hsubs, Redis.mem_unsubscribe, hview, hmem, ← hold id hid]
      simp [hid]
    · rw [hsubs, Redis.mem_unsubscribe, hview]
      simp [Fleet.view, hj]

theorem halt (h : Listening c) (i : Fin n) : Listening (c.halt i) := by
  refine ⟨fun j id hid => ?_, fun sub hsub => ?_⟩
  · rw [Fleet.redis_halt, Redis.mem_disconnect, h.subs j id hid, Fleet.hosts_halt]
    split
    · next hj => simp [hj, Server.exit, Finmap.notMem_empty]
    · next hj => exact and_iff_left (Fin.val_ne_of_ne hj)
  · rw [Fleet.redis_halt] at hsub
    exact h.ours sub (Redis.mem_disconnect.mp hsub).1

theorem kept (hc : codec.Lawful) : Fleet.Kept (n := n) evp codec fun _ c => Listening c where
  more _ _ _ h := h
  serve _ c i _ s h _ _ hs := by
    rcases hs.sessions hc with hs | ⟨_, my, -, hw⟩
    · exact h.sessionChange hs
    · refine h.put (fun id hid => ?_) fun j id _ => by rw [work_redis hw]; rfl
      rw [work_redis hw, work_userConnMap hw]
      exact h.subs i id hid
  halt _ _ i h := h.halt i
  boot _ _ _ h _ := ⟨h.subs, h.ours⟩
  expire _ _ _ h := ⟨h.subs, h.ours⟩
  interrupt _ c i my h _ _ :=
    have hput : Listening (c.put i (reset my (c.view i))) := h.put (h.subs i) fun _ _ _ => Iff.rfl
    ⟨hput.subs, hput.ours⟩

end Listening

namespace Sample

end Sample

/-- The step can free an account: a logout that names it, or a reset that the
database runs. -/
def Frees (evp : Evp) (codec : JsonCodec) (id : Int32) (l : FleetStep n) : Prop :=
  LogoutArrives evp codec id l ∨ ∃ i my, l = .interrupt i my ∧ my.connect ∧ my.exec 0

/-- The row says "Online", and nobody is, or is about to be written down as
being, anything else. -/
structure Locked (id : Int32) (c : Fleet n) : Prop where
  row : ∃ row, c.db.user.get id = some row ∧ row.state = online
  nowhere : ∀ i, id ∉ (c.hosts i).userConnMap
  unqueued : ∀ i, ∀ t ∈ (c.hosts i).dbQueue, isUpdate id t = false

namespace Locked

variable {c : Fleet n} {id : Int32}

theorem put (h : Locked id c) {i : Fin n} {s : Server}
    (hrow : ∃ row, s.db.user.get id = some row ∧ row.state = online) (hmap : id ∉ s.userConnMap)
    (hqueue : ∀ t ∈ s.dbQueue, isUpdate id t = false) : Locked id (c.put i s) := by
  refine ⟨hrow, fun j => ?_, fun j => ?_⟩ <;> by_cases hj : j = i
  · rw [hj, Fleet.hosts_put]; exact hmap
  · rw [Fleet.hosts_put_ne hj]; exact h.nowhere j
  · rw [hj, Fleet.hosts_put]; exact hqueue
  · rw [Fleet.hosts_put_ne hj]; exact h.unqueued j

theorem sessionChange (h : Locked id c) {i : Fin n} {P : Int32 → Prop} {s : Server}
    (hs : SessionChange P (c.view i) s) (hP : ¬ P id) : Locked id (c.put i s) := by
  obtain ⟨row, hrow, hon⟩ := h.row
  have hmap : id ∉ (c.view i).userConnMap := h.nowhere i
  have hqueue : ∀ t ∈ (c.view i).dbQueue, isUpdate id t = false := h.unqueued i
  have hpush : ∀ {k : Int32} {state : Bytes}, k ≠ id →
      s.dbQueue = (c.view i).dbQueue ++ [updateStateTask k state] →
      ∀ t ∈ s.dbQueue, isUpdate id t = false := by
    intro k state hk hq t ht
    rw [hq] at ht
    rcases List.mem_append.mp ht with ht | ht
    · exact hqueue t ht
    · rw [List.mem_singleton.mp ht, Bool.eq_false_iff, ne_eq, isUpdate_updateStateTask]
      exact hk
  refine h.put ⟨row, hs.users.kept id row hrow, hon⟩ ?_ ?_
  · cases hs.move with
    | kept hm _ _ _ => rw [hm]; exact hmap
    | opened hr hm _ _ =>
      rw [hm, Consistent.mem_mapInsert]
      rintro (rfl | hk)
      · rcases hr with rfl | ⟨row', hrow', hoff⟩
        · cases (AutoTable.get_neg_one _).symm.trans hrow
        · cases Option.some.inj (hrow.symm.trans hrow')
          exact hoff hon
      · exact hmap hk
    | ended _ hm _ _ =>
      rw [hm, Consistent.mem_mapErase]
      exact fun hk => hmap hk.2
    | missed hm _ _ =>
      rcases hm with hm | hm
      · rw [hm]; exact hmap
      · rw [hm, Consistent.mem_mapErase]
        exact fun hk => hmap hk.2
  · cases hs.move with
    | kept _ _ hq ht =>
      intro t hmem
      rw [hq] at hmem
      rcases List.mem_append.mp hmem with hmem | hmem
      · exact hqueue t hmem
      · simp [isUpdate, ht t hmem]
    | @opened k _ hr _ _ hq =>
      refine hpush ?_ hq
      rintro rfl
      rcases hr with rfl | ⟨row', hrow', hoff⟩
      · cases (AutoTable.get_neg_one _).symm.trans hrow
      · cases Option.some.inj (hrow.symm.trans hrow')
        exact hoff hon
    | ended hk _ _ hq => exact hpush (fun he => hP (he ▸ hk)) hq
    | missed _ _ hq => rw [hq]; exact hqueue

/-- The worker writes other rows. -/
theorem work (h : Locked id c) {i : Fin n} {my : MySQL} {s : Server}
    (hw : (c.view i).work my = some s) :
    Locked id (c.put i s) := by
  obtain ⟨row, hrow, hon⟩ := h.row
  have hmap : id ∉ s.userConnMap := by rw [work_userConnMap hw]; exact h.nowhere i
  unfold Server.work at hw
  split at hw
  · cases hw
  next t rest hq =>
  have hqueue : ∀ u ∈ t :: rest, isUpdate id u = false := fun u hu => h.unqueued i u (hq ▸ hu)
  have hrest : ∀ u ∈ rest, isUpdate id u = false := fun u hu => hqueue u (List.mem_cons_of_mem t hu)
  have ht := hqueue t List.mem_cons_self
  have hget : ∀ db, dbWork my t c.db = .ok db → db.user.get id = some row := by
    intro db hdb
    by_cases htype : t.type = .updateUserState
    · have hne : id ≠ t.userid := by
        rintro rfl
        simp [isUpdate, htype] at ht
      simp only [dbWork, htype, Except.ok.injEq] at hdb
      subst hdb
      unfold UserModel.updateState
      split
      · show (c.db.user.modify t.userid _).get id = some row
        rw [AutoTable.get_modify, if_neg hne, hrow]
      · exact hrow
    · rw [Consistent.dbWork_user htype hdb]
      exact hrow
  split at hw
  · next db hdb =>
    cases hw
    exact h.put ⟨row, hget db hdb, hon⟩ hmap hrest
  · cases hw
    exact h.put ⟨row, hrow, hon⟩ hmap hrest

theorem halt (h : Locked id c) (i : Fin n) : Locked id (c.halt i) := by
  refine ⟨h.row, fun j => ?_, fun j => ?_⟩ <;> rw [Fleet.hosts_halt] <;> split
  · exact Finmap.notMem_empty
  · exact h.nowhere j
  · simp [Server.exit]
  · exact h.unqueued j

theorem kept (hc : codec.Lawful) (id : Int32) :
    Fleet.Kept (n := n) evp codec fun ls c => (∀ l ∈ ls, ¬ Frees evp codec id l) → Locked id c where
  more _ _ _ h hls := h fun l hl => hls l (List.mem_append_left _ hl)
  serve _ c i l s h _ hl hs hls := by
    have hlocked := h hls
    rcases hs.sessions hc with hs | ⟨_, my, -, hw⟩
    · refine hlocked.sessionChange hs ?_
      rintro (hout | hmem)
      · exact hls l hl (Or.inl hout)
      · exact hlocked.nowhere i hmem
    · exact hlocked.work hw
  halt _ _ i h hls := (h hls).halt i
  boot _ _ _ h _ hls := ⟨(h hls).row, (h hls).nowhere, (h hls).unqueued⟩
  expire _ _ _ h hls := ⟨(h hls).row, (h hls).nowhere, (h hls).unqueued⟩
  interrupt _ c i my h _ hl hls := by
    have hlocked := h hls
    have hdown : UserModel.resetState my c.db = c.db := by
      unfold UserModel.resetState
      exact if_neg fun hup => hls _ hl (Or.inr ⟨i, my, rfl, hup⟩)
    have hput : Locked id (c.put i (reset my (c.view i))) :=
      hlocked.put (by rw [show (reset my (c.view i)).db = c.db from hdown]; exact hlocked.row)
        (hlocked.nowhere i) (hlocked.unqueued i)
    exact ⟨hput.row, hput.nowhere, hput.unqueued⟩

end Locked

namespace Sample

end Sample

end MyChat
