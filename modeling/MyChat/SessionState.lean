import MyChat.Lib.JsonText
import MyChat.Handlers
import MyChat.ServerRun

/-! The four places that say who is online: the connection map, the rows with
the updates still queued for them, the subscriptions and the online keys. They
agree in every reachable state, the queue being read through to its end. -/

namespace MyChat
open Json

/-! ## Queued row updates -/

def isUpdate (id : Int32) (t : DbTaskArgs) : Bool := t.type = .updateUserState && t.userid = id

/-- The state of the last update queued for `id`. -/
def lastUpdate (id : Int32) (queue : List DbTaskArgs) : Option Bytes :=
  ((queue.filter (isUpdate id)).getLast?).map (·.state)

/-- What the row of `id` will say once the queue is drained: the last queued
update, or the row when none is queued. -/
def stateOf (id : Int32) (s : Server) : Option Bytes :=
  (lastUpdate id s.dbQueue).or ((s.db.user.get id).map (·.state))

theorem lastUpdate_push {id : Int32} {t : DbTaskArgs} (queue : List DbTaskArgs) :
    lastUpdate id (queue ++ [t]) = if isUpdate id t then some t.state else lastUpdate id queue := by
  unfold lastUpdate
  rw [List.filter_append]
  split
  · next h => simp [h]
  · next h => simp [h]

theorem lastUpdate_pop {id : Int32} {t : DbTaskArgs} (queue : List DbTaskArgs) :
    lastUpdate id (t :: queue) =
      (lastUpdate id queue).or (if isUpdate id t then some t.state else none) := by
  unfold lastUpdate
  cases h : isUpdate id t with
  | false => simp [h]
  | true =>
    simp only [h, List.filter_cons_of_pos, ↓reduceIte]
    cases hq : queue.filter (isUpdate id) with
    | nil => simp
    | cons u q =>
      rw [List.getLast?_cons_cons]
      cases hl : (u :: q).getLast? with
      | none => simp at hl
      | some v => rfl

@[simp] theorem isUpdate_updateStateTask (id k : Int32) (state : Bytes) :
    isUpdate id (updateStateTask k state) = true ↔ k = id := by
  rw [isUpdate, updateStateTask, Bool.and_eq_true, decide_eq_true_eq, decide_eq_true_eq]
  exact and_iff_right rfl

/-! ## The invariant -/

/-- -1 is the id of no user: it marks a row that was not found. -/
structure Consistent (s : Server) : Prop where
  state : ∀ id, id ≠ -1 → (id ∈ s.userConnMap ↔ stateOf id s = some online)
  subs : ∀ id, id ≠ -1 → (id ∈ s.userConnMap ↔ (s.self, id) ∈ s.redis.subs)
  keys : ∀ id, id ≠ -1 → id ∈ s.redis.keys → id ∈ s.userConnMap
  tasks : ∀ t ∈ s.dbQueue, t.type = .updateUserState →
    t.state = offline ∨ t.state = online ∧ (t.userid = -1 ∨ (s.db.user.get t.userid).isSome)

/-- The parts of a server that the invariant reads. -/
structure SameSessions (s s' : Server) : Prop where
  self : s'.self = s.self
  userConnMap : s'.userConnMap = s.userConnMap
  dbQueue : s'.dbQueue = s.dbQueue
  user : s'.db.user = s.db.user
  subs : s'.redis.subs = s.redis.subs
  keys : s'.redis.keys = s.redis.keys

theorem SameSessions.refl (s : Server) : SameSessions s s := ⟨rfl, rfl, rfl, rfl, rfl, rfl⟩

theorem SameSessions.send (conn : Conn) (frame : Frame) (s : Server) :
    SameSessions s (s.send conn frame) := ⟨rfl, rfl, rfl, rfl, rfl, rfl⟩

theorem SameSessions.answer (codec : JsonCodec) (conn : Conn) (response : Json) (msgId : Int32)
    (s : Server) : SameSessions s (s.answer codec conn response msgId) :=
  ⟨rfl, rfl, rfl, rfl, rfl, rfl⟩

namespace Consistent

variable {s s' : Server}

theorem congr (h : Consistent s) (hs : SameSessions s s') : Consistent s' := by
  have hst : ∀ id, stateOf id s' = stateOf id s := by
    intro id
    rw [stateOf, stateOf, hs.dbQueue, hs.user]
  refine ⟨fun id hid => ?_, fun id hid => ?_, fun id hid => ?_, ?_⟩
  · rw [hs.userConnMap, hst]; exact h.state id hid
  · rw [hs.userConnMap, hs.subs, hs.self]; exact h.subs id hid
  · rw [hs.userConnMap, hs.keys]; exact h.keys id hid
  · rw [hs.dbQueue, hs.user]; exact h.tasks

/-- A task that is no row update concerns no one's state. -/
theorem push {t : DbTaskArgs} (ht : t.type ≠ .updateUserState) (h : Consistent s) :
    Consistent (s.push t) := by
  have hu : ∀ id, isUpdate id t = false := by simp [isUpdate, ht]
  have hst : ∀ id, stateOf id (s.push t) = stateOf id s := by
    intro id
    rw [stateOf, stateOf, Server.push, lastUpdate_push, hu id]
    rfl
  refine ⟨fun id hid => ?_, h.subs, h.keys, ?_⟩
  · rw [hst]; exact h.state id hid
  · intro u hu htype
    rcases List.mem_append.mp hu with hu | hu
    · exact h.tasks u hu htype
    · cases List.mem_singleton.mp hu
      exact absurd htype ht

theorem mem_mapInsert {id k : Int32} {conn : Conn} :
    k ∈ (s.mapInsert id conn).userConnMap ↔ k = id ∨ k ∈ s.userConnMap := by
  unfold Server.mapInsert
  split
  · next h =>
    refine ⟨Or.inr, ?_⟩
    rintro (rfl | hk)
    · exact h
    · exact hk
  · exact Finmap.mem_insert

theorem mem_mapErase {id k : Int32} :
    k ∈ (s.mapErase id).userConnMap ↔ k ≠ id ∧ k ∈ s.userConnMap := by
  exact Finmap.mem_erase

/-- A new session: all four places learn of it at once, the row through the
queue. -/
theorem openSession (h : Consistent s) (conn : Conn) {id : Int32} {user : User} (hid : user.id = id)
    (hrow : id = -1 ∨ (s.db.user.get id).isSome) : Consistent (openSession conn id user s) := by
  have hmap : ∀ k, k ∈ (MyChat.openSession conn id user s).userConnMap ↔
      k = id ∨ k ∈ s.userConnMap := fun k => mem_mapInsert
  have hdb : (MyChat.openSession conn id user s).db = s.db := openSession_db conn id user s
  have hself : (MyChat.openSession conn id user s).self = s.self := by
    unfold MyChat.openSession Server.mapInsert
    split <;> rfl
  have hqueue : (MyChat.openSession conn id user s).dbQueue =
      s.dbQueue ++ [updateStateTask id online] := by
    unfold MyChat.openSession Server.mapInsert
    rw [hid]
    split <;> rfl
  have hredis : (MyChat.openSession conn id user s).redis =
      (s.redis.subscribe s.self id).set id := by
    unfold MyChat.openSession Server.mapInsert
    split <;> rfl
  refine ⟨fun k hk => ?_, fun k hk => ?_, fun k hk => ?_, ?_⟩
  · rw [hmap, stateOf, hqueue, hdb, lastUpdate_push]
    by_cases he : id = k
    · subst he
      simp [updateStateTask, isUpdate]
    · have hne : ¬ k = id := fun h => he h.symm
      rw [if_neg (by simpa using he), h.state k hk, stateOf]
      simp [hne]
  · rw [hmap, hself, hredis, Redis.subs_set, Redis.mem_subscribe]
    by_cases he : k = id
    · simp [he]
    · simpa [he] using h.subs k hk
  · rw [hredis, Redis.keys_set, hmap, Finset.mem_insert, Redis.keys_subscribe]
    rintro (he | hkey)
    · exact Or.inl he
    · exact Or.inr (h.keys k hk hkey)
  · rw [hqueue, hdb]
    intro t ht htype
    rcases List.mem_append.mp ht with ht | ht
    · exact h.tasks t ht htype
    · cases List.mem_singleton.mp ht
      exact Or.inr ⟨rfl, hrow⟩

/-- The end of a session, by logout or close: all four places forget it. -/
theorem endSession (h : Consistent s) (id : Int32) : Consistent (endSession id s) := by
  refine ⟨fun k hk => ?_, fun k hk => ?_, fun k hk => ?_, ?_⟩
  · show k ∈ (s.mapErase id).userConnMap ↔
      (lastUpdate k (s.dbQueue ++ [updateStateTask id offline])).or
        ((s.db.user.get k).map (·.state)) = some online
    rw [mem_mapErase, lastUpdate_push]
    by_cases he : id = k
    · subst he
      simp [updateStateTask, isUpdate, offline_ne_online]
    · have hne : k ≠ id := fun h => he h.symm
      rw [if_neg (by simpa using he), h.state k hk, stateOf]
      simp [hne]
  · show k ∈ (s.mapErase id).userConnMap ↔
      (s.self, k) ∈ ((s.redis.unsubscribe s.self id).delete id).subs
    rw [mem_mapErase, Redis.subs_delete, Redis.mem_unsubscribe]
    by_cases he : k = id
    · simp [he]
    · simpa [he] using h.subs k hk
  · show k ∈ ((s.redis.unsubscribe s.self id).delete id).keys → k ∈ (s.mapErase id).userConnMap
    rw [mem_mapErase, Redis.keys_delete, Redis.keys_unsubscribe, Finset.mem_erase]
    exact fun hkey => ⟨hkey.1, h.keys k hk hkey.2⟩
  · intro t ht htype
    rcases List.mem_append.mp ht with ht | ht
    · exact h.tasks t ht htype
    · cases List.mem_singleton.mp ht
      exact Or.inl rfl

/-- A registered user starts offline, under an id that no one used. -/
theorem insertUser (h : Consistent s) {name pwd : Bytes} {t : AutoTable UserRow} {id : Int32}
    (ht : s.db.user.insert ⟨name, pwd, offline⟩ = some (t, id)) :
    Consistent { s with db := { s.db with user := t } } := by
  obtain ⟨hnew, hget⟩ := AutoTable.get_insert ht
  refine ⟨fun k hk => ?_, h.subs, h.keys, ?_⟩
  · show k ∈ s.userConnMap ↔ (lastUpdate k s.dbQueue).or ((t.get k).map (·.state)) = some online
    rw [h.state k hk, stateOf, hget]
    by_cases he : k = id
    · subst he
      cases hl : lastUpdate k s.dbQueue with
      | none => simp [hnew, offline_ne_online]
      | some st => simp
    · rw [if_neg he]
  · intro u hu htype
    rcases h.tasks u hu htype with hoff | ⟨hon, hreg⟩
    · exact Or.inl hoff
    · refine Or.inr ⟨hon, hreg.imp_right fun hr => ?_⟩
      show (t.get u.userid).isSome
      rw [hget]
      split
      · rfl
      · exact hr

/-- The worker takes a task that is no row update. -/
theorem popOther (h : Consistent s) {t : DbTaskArgs} {rest : List DbTaskArgs} {db : Database}
    (hq : s.dbQueue = t :: rest) (ht : t.type ≠ .updateUserState) (hdb : db.user = s.db.user) :
    Consistent { s with dbQueue := rest, db := db } := by
  have hu : ∀ id, isUpdate id t = false := by simp [isUpdate, ht]
  refine ⟨fun id hid => ?_, h.subs, h.keys, ?_⟩
  · show id ∈ s.userConnMap ↔ (lastUpdate id rest).or ((db.user.get id).map (·.state)) = some online
    rw [h.state id hid, stateOf, hq, lastUpdate_pop, hu id, hdb]
    simp
  · intro u hmem htype
    rw [hdb]
    exact h.tasks u (hq ▸ List.mem_cons_of_mem t hmem) htype

/-- The worker writes the oldest queued state into its row. -/
theorem popUpdate (h : Consistent s) {t : DbTaskArgs} {rest : List DbTaskArgs}
    (hq : s.dbQueue = t :: rest) (ht : t.type = .updateUserState) :
    Consistent
      { s with
        dbQueue := rest
        db := (UserModel.updateState MySQL.up { id := t.userid, state := t.state } s.db).1 } := by
  have htask := h.tasks t (hq ▸ List.mem_cons_self) ht
  have hc : cStr t.state = t.state := by
    rcases htask with h | ⟨h, -⟩ <;> rw [h] <;> decide
  have hget : ∀ k,
      ((UserModel.updateState MySQL.up { id := t.userid, state := t.state } s.db).1.user).get
      k = if k = t.userid then (s.db.user.get k).map fun row => { row with state := t.state }
        else s.db.user.get k := by
    intro k
    rw [UserModel.get_updateState, hc]
  refine ⟨fun k hk => ?_, h.subs, h.keys, ?_⟩
  · rw [h.state k hk, stateOf, stateOf, hq, lastUpdate_pop, hget]
    by_cases he : k = t.userid
    · subst he
      have hu : isUpdate t.userid t = true := by simp [isUpdate, ht]
      rw [hu, if_pos rfl, if_pos rfl]
      cases hl : lastUpdate t.userid rest with
      | some st => simp
      | none =>
        cases hrow : s.db.user.get t.userid with
        | some row => simp
        | none =>
          -- an update to "Online" always has its row
          have hoff : t.state ≠ online := by
            rcases htask with hoff | ⟨-, hid | hreg⟩
            · rw [hoff]; exact offline_ne_online
            · exact absurd hid hk
            · rw [hrow] at hreg; cases hreg
          simp [hoff]
    · have hu : isUpdate k t = false := by
        have hne : ¬ t.userid = k := fun h => he h.symm
        simp [isUpdate, ht, hne]
      rw [hu, if_neg he]
      simp
  · intro u hmem htype
    rcases h.tasks u (hq ▸ List.mem_cons_of_mem t hmem) htype with hoff | ⟨hon, hreg⟩
    · exact Or.inl hoff
    · refine Or.inr ⟨hon, hreg.imp_right fun hr => ?_⟩
      show ((UserModel.updateState MySQL.up { id := t.userid, state := t.state } s.db).1.user.get
        u.userid).isSome
      rw [hget]
      split
      · simpa using hr
      · exact hr

/-- Losing a key breaks nothing. -/
theorem expire (h : Consistent s) (id : Int32) : Consistent (s.expire id) := by
  refine ⟨h.state, h.subs, fun k hk hkey => ?_, h.tasks⟩
  simp only [Server.expire, Redis.keys_delete, Finset.mem_erase] at hkey
  exact h.keys k hk hkey.2

theorem onHeartBeat (h : Consistent s) {id : Int32} (hid : id ∈ s.userConnMap) :
    Consistent (s.onHeartBeat id) := by
  refine ⟨h.state, h.subs, fun k hk hkey => ?_, h.tasks⟩
  simp only [Server.onHeartBeat, Redis.keys_set, Finset.mem_insert] at hkey
  rcases hkey with rfl | hkey
  · exact hid
  · exact h.keys k hk hkey

/-! ## Steps -/

variable {codec : JsonCodec}

theorem loginSession (h : Consistent s) (conn : Conn) {id : Int32} {pwd : Bytes} {my : Nat → MySQL}
    (hacc : LoginAccepts my id pwd s.db) : Consistent (loginSession my conn id s) := by
  have hrow : id = -1 ∨ (s.db.user.get id).isSome := by
    rcases UserModel.query_cases (my 0) id s.db with hq | ⟨row, hrow, -⟩
    · have hid := hacc.1
      rw [hq] at hid
      exact Or.inl hid.symm
    · exact Or.inr (Option.isSome_of_eq_some hrow)
  refine (h.openSession conn hacc.1 hrow).congr ?_
  unfold MyChat.loginSession takeOffline
  simp only
  split
  · exact SameSessions.refl _
  · unfold OfflineMsgModel.remove
    split
    · exact ⟨rfl, rfl, rfl, rfl, rfl, rfl⟩
    · exact SameSessions.refl _

theorem routed (h : Consistent s) {r : Int32} {t : Bytes} {msgId : Int32}
    (hr : Routed s r t msgId s') : Consistent s' := by
  cases hr with
  | sent c _ => exact h.congr ⟨rfl, rfl, rfl, rfl, rfl, rfl⟩
  | published _ => exact h.congr ⟨rfl, rfl, rfl, rfl, rfl, rfl⟩
  | queued _ => exact h.push (by simp [offlineMsgTask])

theorem routeMembers (h : Consistent s) (my : Nat → MySQL) (jsonStr : Bytes) (msgId : Int32)
    (k : Nat) (ids : List Int32) : Consistent (routeMembers my jsonStr msgId k ids s) := by
  induction ids generalizing k s with
  | nil => exact h
  | cons id ids ih => exact ih (h.routed (routeMember_routed (my k) jsonStr msgId id s)) (k + 1)

theorem getHandler (hc : codec.Lawful) (h : Consistent s) (my : Nat → MySQL) (msgid : Int32)
    (conn : Conn) (js : Json) :
    Consistent (getHandler codec my msgid conn js s).state := by
  have hh := getHandler_handled hc my msgid conn js s
  generalize MyChat.getHandler codec my msgid conn js s = r at hh ⊢
  generalize handlerOf msgid = t at hh
  cases hh with
  | unhandled | illTyped | unsendable | regOverflow => exact h
  | loginRefused | regFailed => exact h.congr (.answer _ _ _ _ _)
  | loginAnswered _ hacc => exact (h.loginSession conn hacc).congr (.answer _ _ _ _ _)
  | loginUnsendable _ hacc => exact h.loginSession conn hacc
  | registered _ _ hins => exact (h.insertUser hins).congr (.answer _ _ _ _ _)
  | @loggedOut userid => exact (h.endSession userid).congr (.send _ _ _)
  | chatSent | chatPublished => exact h.congr ⟨rfl, rfl, rfl, rfl, rfl, rfl⟩
  | chatStored => exact (h.push (by simp [offlineMsgTask])).congr (.send _ _ _)
  | groupRouted => exact (h.routeMembers my _ _ 1 _).congr (.send _ _ _)
  | friendQueued => exact (h.push (by simp)).congr (.send _ _ _)
  | @groupQueued u n d =>
    refine (h.push (t := { type := .createGroup, name := n, desc := d }) (by simp)).congr
      ⟨rfl, rfl, rfl, ?_, rfl, rfl⟩
    show (GroupModel.addGroup (my 0) u (-1) (lit "creator") s.db).1.user = s.db.user
    unfold GroupModel.addGroup
    split <;> rfl
  | memberQueued => exact (h.push (by simp)).congr (.answer _ _ _ _ _)

/-- A close ends the session of the entry it finds. The sentinel id -1 stands
for an entry not found and for the entry of no user. -/
theorem onConnection (h : Consistent s) (order : List Int32) (conn : Conn) :
    Consistent (onConnection order conn s) := by
  have hclose : Consistent (clientCloseException order conn s) := by
    unfold clientCloseException
    simp only
    cases hf : order.find? fun id => s.userConnMap.lookup id = some conn with
    | none =>
      simp only [Option.getD_none, Option.isSome_none, ne_eq, not_true_eq_false, ↓reduceIte,
        Bool.false_eq_true]
      refine ⟨h.state, fun k hk => ?_, fun k hk hkey => ?_, h.tasks⟩
      · show k ∈ s.userConnMap ↔ (s.self, k) ∈ ((s.redis.unsubscribe s.self (-1)).delete (-1)).subs
        rw [h.subs k hk, Redis.subs_delete, Redis.mem_unsubscribe]
        simp [hk]
      · simp only [Server.redisOffline, Redis.keys_delete, Redis.keys_unsubscribe,
          Finset.mem_erase] at hkey
        exact h.keys k hk hkey.2
    | some id =>
      simp only [Option.getD_some, Option.isSome_some, ↓reduceIte]
      split
      · exact h.endSession id
      · next hid =>
        simp only [ne_eq, not_not] at hid
        subst hid
        refine ⟨fun k hk => ?_, fun k hk => ?_, fun k hk hkey => ?_, h.tasks⟩
        · show k ∈ (s.mapErase (-1)).userConnMap ↔ stateOf k s = some online
          rw [mem_mapErase]
          simpa [hk] using h.state k hk
        · show k ∈ (s.mapErase (-1)).userConnMap ↔
            (s.self, k) ∈ ((s.redis.unsubscribe s.self (-1)).delete (-1)).subs
          rw [mem_mapErase, Redis.subs_delete, Redis.mem_unsubscribe]
          simpa [hk] using h.subs k hk
        · show k ∈ (s.mapErase (-1)).userConnMap
          simp only [Server.redisOffline, Redis.keys_delete, Server.mapErase,
            Redis.keys_unsubscribe, Finset.mem_erase] at hkey
          exact mem_mapErase.mpr ⟨hk, h.keys k hk hkey.2⟩
  exact hclose.congr ⟨rfl, rfl, rfl, rfl, rfl, rfl⟩

theorem deliver (h : Consistent s) (my : MySQL) (userid : Int32) (msg : Bytes) :
    Consistent (handleRedisSubscribeMessage codec my userid msg s).state := by
  unfold handleRedisSubscribeMessage
  split
  · next conn hl =>
    have hb := h.onHeartBeat (Finmap.mem_of_lookup_eq_some hl)
    simp only
    split
    · exact hb
    · split
      · split
        · exact hb
        · exact hb.congr ⟨rfl, rfl, rfl, rfl, rfl, rfl⟩
      · exact hb
  · split
    · exact h
    · next db hdb =>
      refine h.congr ⟨rfl, rfl, rfl, ?_, rfl, rfl⟩
      unfold OfflineMsgModel.insert at hdb
      split at hdb
      · split at hdb <;> (cases hdb; rfl)
      · cases hdb

theorem dbWork_user {my : MySQL} {t : DbTaskArgs} (ht : t.type ≠ .updateUserState)
    {db db' : Database} (h : dbWork my t db = .ok db') : db'.user = db.user := by
  unfold dbWork at h
  cases htype : t.type with
  | updateUserState => exact absurd htype ht
  | addFriend =>
    simp only [htype, Except.ok.injEq] at h
    subst h
    unfold FriendModel.insert
    split
    · simp only
      split <;> split <;> rfl
    · rfl
  | addGroupUser =>
    simp only [htype, Except.ok.injEq] at h
    subst h
    unfold GroupModel.addGroup
    split <;> rfl
  | createGroup =>
    simp only [htype, GroupModel.createGroup] at h
    split at h
    · split at h
      · split at h <;> (cases h; rfl)
      · cases h; rfl
    · cases h
  | insertOfflineMsg =>
    simp only [htype, OfflineMsgModel.insert] at h
    split at h
    · split at h <;> (cases h; rfl)
    · cases h

theorem work (h : Consistent s) (hs : s.work MySQL.up = some s') : Consistent s' := by
  unfold Server.work at hs
  split at hs
  · cases hs
  · next t rest hq =>
    by_cases ht : t.type = .updateUserState
    · have hw : dbWork MySQL.up t s.db =
          .ok (UserModel.updateState MySQL.up { id := t.userid, state := t.state } s.db).1 := by
        simp only [dbWork, ht]
      rw [hw] at hs
      cases hs
      exact h.popUpdate hq ht
    · split at hs
      · next db hdb =>
        cases hs
        exact h.popOther hq ht (dbWork_user ht hdb)
      · cases hs
        exact h.popOther hq ht rfl

theorem step (hc : codec.Lawful) (h : Consistent s) {l : ServerStep} (hl : l.succeeds)
    (hs : s.apply codec l = some s') : Consistent s' := by
  cases l with
  | request my msgid conn js => cases hs; exact h.getHandler hc my msgid conn js
  | close order conn =>
    simp only [Server.apply] at hs
    split at hs
    · cases hs; exact h.onConnection order conn
    · cases hs
  | deliver my userid msg => cases hs; exact h.deliver my userid msg
  | expire id => cases hs; exact h.expire id
  | work my =>
    cases (hl : my = MySQL.up)
    exact h.work hs

end Consistent

/-- A server with no client yet: empty map and queue, no subscriptions or keys,
every row offline. -/
structure Fresh (s : Server) : Prop where
  userConnMap : s.userConnMap = ∅
  dbQueue : s.dbQueue = []
  subs : s.redis.subs = []
  keys : s.redis.keys = ∅
  rows : ∀ id row, s.db.user.get id = some row → row.state = offline

theorem fresh_start : Fresh (Server.start 0 Database.empty) :=
  ⟨rfl, rfl, rfl, rfl, by rintro id row ⟨⟩⟩

theorem Fresh.consistent {s : Server} (h : Fresh s) : Consistent s := by
  have hmap : ∀ id, id ∉ s.userConnMap := fun id => by rw [h.userConnMap]; exact Finmap.notMem_empty
  refine ⟨fun id _ => iff_of_false (hmap id) ?_, fun id _ => iff_of_false (hmap id) ?_,
    fun id _ hkey => ?_, ?_⟩
  · rw [stateOf, h.dbQueue]
    cases hg : s.db.user.get id with
    | none => simp [lastUpdate]
    | some row =>
      simpa [lastUpdate, h.rows id row hg] using offline_ne_online
  · rw [h.subs]
    simp
  · rw [h.keys] at hkey
    simp at hkey
  · rw [h.dbQueue]
    simp

/-- Session state is consistent in every run: for a registered user the map, the
row seen through the queue and the subscription agree, and an online key has
its map entry. With an empty queue the online rows are the keys of the map. -/
theorem sessions_consistent {codec : JsonCodec} (hc : codec.Lawful) {s : Server}
    (h : (Server.machine codec Fresh).Run (fun _ l => l.succeeds) s) :
    (∀ id, id ≠ -1 → (s.db.user.get id).isSome →
      (id ∈ s.userConnMap ↔ stateOf id s = some online) ∧
      (id ∈ s.userConnMap ↔ (s.self, id) ∈ s.redis.subs) ∧
      (id ∈ s.redis.keys → id ∈ s.userConnMap)) ∧
    (s.dbQueue = [] → ∀ id, id ≠ -1 →
      (id ∈ s.userConnMap ↔ ∃ row, s.db.user.get id = some row ∧ row.state = online)) := by
  have hcons : Consistent s :=
    h.invariant (fun s hs => hs.consistent) fun s l s' hi hl hs => hi.step hc hl hs
  refine ⟨fun id hid _ => ⟨hcons.state id hid, hcons.subs id hid, hcons.keys id hid⟩, ?_⟩
  intro hq id hid
  rw [hcons.state id hid, stateOf, hq]
  simp [lastUpdate]

/-- User 2 is logged in and the worker has caught up. -/
def loggedIn : List ServerStep :=
  Sample.registered ++ [Sample.step .loginMsg 2 (Sample.login 2), .work MySQL.up]

theorem loggedIn_runs : ((Server.machine JsonText.codec Fresh).exec
    (Server.start 0 Database.empty) loggedIn).isSome := by decide +kernel

theorem sessions_consistent_loggedIn :
    (((Server.machine JsonText.codec Fresh).exec (Server.start 0 Database.empty) loggedIn).get
      loggedIn_runs).userConnMap.lookup 2 = some 2 ∧
    ∃ row, (((Server.machine JsonText.codec Fresh).exec (Server.start 0 Database.empty)
      loggedIn).get loggedIn_runs).db.user.get 2 = some row ∧ row.state = online := by
  have hok : ∀ l ∈ loggedIn, ∀ s : Server, l.succeeds := by
    intro l hl _
    simp only [loggedIn, Sample.registered, Sample.step, List.cons_append, List.nil_append,
      List.mem_cons, List.not_mem_nil, or_false] at hl
    rcases hl with rfl | rfl | rfl | rfl
    · exact fun _ => rfl
    · exact fun _ => rfl
    · exact fun _ => rfl
    · rfl
  have hrun := Machine.Run.exec (.start fresh_start) hok (Option.some_get loggedIn_runs).symm
  refine ⟨by decide +kernel, ((sessions_consistent JsonText.codec_lawful hrun).2 ?_ 2 ?_).mp ?_⟩
  · decide +kernel
  · decide
  · decide +kernel

end MyChat
