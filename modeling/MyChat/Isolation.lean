import MyChat.SessionState

/-! Which sessions a step touches. A request takes the user id it acts on from
its message, a close from the connection map. -/

namespace MyChat
open Json

/-- What `s` says of `id` in the map, in Redis and in the queued row updates is
what `s'` says. -/
structure Untouched (id : Int32) (s s' : Server) : Prop where
  entry : s'.userConnMap.lookup id = s.userConnMap.lookup id
  key : id ∈ s'.redis.keys ↔ id ∈ s.redis.keys
  subs : ∀ server, (server, id) ∈ s'.redis.subs ↔ (server, id) ∈ s.redis.subs
  updates : s'.dbQueue.filter (isUpdate id) = s.dbQueue.filter (isUpdate id)

/-- The session of `id` is over, with one update of its row enqueued. -/
structure Ended (id : Int32) (s s' : Server) : Prop where
  entry : s'.userConnMap.lookup id = none
  key : id ∉ s'.redis.keys
  subs : (s.self, id) ∉ s'.redis.subs
  updates : s'.dbQueue.filter (isUpdate id) =
    s.dbQueue.filter (isUpdate id) ++ [updateStateTask id offline]

namespace Untouched

variable {id : Int32} {s s' s'' : Server}

theorem refl (s : Server) : Untouched id s s := ⟨rfl, Iff.rfl, fun _ => Iff.rfl, rfl⟩

theorem trans (h : Untouched id s s') (h' : Untouched id s' s'') : Untouched id s s'' :=
  ⟨h'.entry.trans h.entry, h'.key.trans h.key, fun p => (h'.subs p).trans (h.subs p),
    h'.updates.trans h.updates⟩

/-- Map, keys, subscriptions and queue are all that counts. -/
theorem of_eq (hmap : s'.userConnMap = s.userConnMap) (hkeys : s'.redis.keys = s.redis.keys)
    (hsubs : s'.redis.subs = s.redis.subs) (hqueue : s'.dbQueue = s.dbQueue) :
    Untouched id s s' := by
  refine ⟨by rw [hmap], by rw [hkeys], fun p => by rw [hsubs], by rw [hqueue]⟩

theorem send (conn : Conn) (frame : Frame) (s : Server) : Untouched id s (s.send conn frame) :=
  of_eq rfl rfl rfl rfl

theorem answer (codec : JsonCodec) (conn : Conn) (j : Json) (msgId : Int32) (s : Server) :
    Untouched id s (s.answer codec conn j msgId) := of_eq rfl rfl rfl rfl

theorem push {t : DbTaskArgs} (h : isUpdate id t = false) (s : Server) :
    Untouched id s (s.push t) := by
  refine ⟨rfl, Iff.rfl, fun _ => Iff.rfl, ?_⟩
  simp [Server.push, List.filter_append, h]

theorem isUpdate_other {id k : Int32} (h : k ≠ id) (state : Bytes) :
    isUpdate id (updateStateTask k state) = false := by
  simp [isUpdate, updateStateTask, h]

theorem mapInsert {k : Int32} (h : k ≠ id) (conn : Conn) (s : Server) :
    Untouched id s (s.mapInsert k conn) := by
  unfold Server.mapInsert
  split
  · exact refl s
  · exact ⟨Finmap.lookup_insert_of_ne _ (Ne.symm h), Iff.rfl, fun _ => Iff.rfl, rfl⟩

theorem mapErase {k : Int32} (h : k ≠ id) (s : Server) : Untouched id s (s.mapErase k) :=
  ⟨Finmap.lookup_erase_ne (Ne.symm h), Iff.rfl, fun _ => Iff.rfl, rfl⟩

theorem redisOnline {k : Int32} (h : k ≠ id) (s : Server) : Untouched id s (s.redisOnline k) := by
  refine ⟨rfl, ?_, fun p => ?_, rfl⟩
  · show id ∈ ((s.redis.subscribe s.self k).set k).keys ↔ _
    simp [Ne.symm h]
  · show (p, id) ∈ ((s.redis.subscribe s.self k).set k).subs ↔ _
    simp [Ne.symm h]

theorem redisOffline {k : Int32} (h : k ≠ id) (s : Server) : Untouched id s (s.redisOffline k) := by
  refine ⟨rfl, ?_, fun p => ?_, rfl⟩
  · show id ∈ ((s.redis.unsubscribe s.self k).delete k).keys ↔ _
    simp [Ne.symm h]
  · show (p, id) ∈ ((s.redis.unsubscribe s.self k).delete k).subs ↔ _
    simp [Ne.symm h]

theorem endSession {k : Int32} (h : k ≠ id) (s : Server) : Untouched id s (endSession k s) :=
  ((mapErase h s).trans (redisOffline h _)).trans (push (isUpdate_other h _) _)

theorem loginSession {my : Nat → MySQL} {k : Int32} (h : k ≠ id) (conn : Conn) {s : Server}
    (hid : (UserModel.query (my 0) k s.db).id = k) : Untouched id s (loginSession my conn k s) := by
  have hopen : Untouched id s (openSession conn k (UserModel.query (my 0) k s.db) s) := by
    refine ((mapInsert h conn s).trans (redisOnline h _)).trans (push ?_ _)
    rw [hid]
    exact isUpdate_other h _
  unfold MyChat.loginSession takeOffline
  simp only
  split
  · exact hopen
  · exact hopen.trans (of_eq rfl rfl rfl rfl)

theorem routed {r : Int32} {t : Bytes} {msgId : Int32} (h : Routed s r t msgId s') :
    Untouched id s s' := by
  cases h with
  | sent c _ => exact of_eq rfl rfl rfl rfl
  | published _ => exact of_eq rfl rfl rfl rfl
  | queued _ => exact push (by simp [isUpdate, offlineMsgTask]) s

theorem routeMembers (my : Nat → MySQL) (t : Bytes) (msgId : Int32) (n : Nat) (ids : List Int32)
    (s : Server) : Untouched id s (routeMembers my t msgId n ids s) := by
  induction ids generalizing n s with
  | nil => exact refl s
  | cons r ids ih => exact (routed (routeMember_routed (my n) t msgId r s)).trans (ih _ _)

end Untouched

theorem ended_endSession (id : Int32) (s : Server) : Ended id s (endSession id s) := by
  refine ⟨?_, ?_, ?_, ?_⟩
  · show (s.userConnMap.erase id).lookup id = none
    exact Finmap.lookup_erase _ _
  · show id ∉ ((s.redis.unsubscribe s.self id).delete id).keys
    simp
  · show (s.self, id) ∉ ((s.redis.unsubscribe s.self id).delete id).subs
    simp
  · show (s.dbQueue ++ [updateStateTask id offline]).filter (isUpdate id) = _
    simp [List.filter_append]

/-! ## Requests -/

/-- The request is a logout that names `id`. -/
def LogsOut (msgid : Int32) (js : Json) (id : Int32) : Prop :=
  msgid = EnMsgType.logoutMsg.val ∧ ∃ msgId, LogoutFields js id msgId

/-- The request is a login for `id` that is accepted. -/
def LogsIn (my : Nat → MySQL) (db : Database) (msgid : Int32) (js : Json) (id : Int32) : Prop :=
  msgid = EnMsgType.loginMsg.val ∧ ∃ pwd msgId, LoginFields js id pwd msgId ∧
  LoginAccepts my id pwd db

section
variable {codec : JsonCodec} (hc : codec.Lawful) (my : Nat → MySQL) (conn : Conn) {js : Json}
    {id : Int32}
  (s : Server)
include hc

/-- A request touches no session but that of the user it logs out or in. -/
theorem getHandler_untouched {msgid : Int32} (hout : ¬ LogsOut msgid js id)
    (hin : ¬ LogsIn my s.db msgid js id) :
    Untouched id s (getHandler codec my msgid conn js s).state := by
  have h := getHandler_handled hc my msgid conn js s
  generalize getHandler codec my msgid conn js s = r at h ⊢
  generalize ht : handlerOf msgid = t at h
  have hopen : ∀ {k pwd msgId}, LoginFields js k pwd msgId → LoginAccepts my k pwd s.db →
      t = some .loginMsg → Untouched id s (loginSession my conn k s) := by
    intro k pwd msgId hf hacc hlogin
    have hk : k ≠ id := by
      rintro rfl
      exact hin ⟨handlerOf_some (ht.trans hlogin), pwd, msgId, hf, hacc⟩
    exact .loginSession hk conn hacc.1
  cases h with
  | unhandled | illTyped | unsendable | regOverflow => exact .refl s
  | loginRefused | regFailed => exact .answer _ _ _ _ _
  | loginAnswered hf hacc => exact (hopen hf hacc rfl).trans (.answer _ _ _ _ _)
  | loginUnsendable hf hacc => exact hopen hf hacc rfl
  | registered | chatSent | chatPublished => exact .of_eq rfl rfl rfl rfl
  | @loggedOut k msgId hf =>
    have hk : k ≠ id := by
      rintro rfl
      exact hout ⟨handlerOf_some ht, msgId, hf⟩
    exact (Untouched.endSession hk s).trans (.send _ _ _)
  | chatStored => exact (Untouched.push (by simp [isUpdate, offlineMsgTask]) s).trans (.send _ _ _)
  | groupRouted => exact (Untouched.routeMembers my _ _ 1 _ s).trans (.send _ _ _)
  | friendQueued => exact (Untouched.push (by simp [isUpdate]) s).trans (.send _ _ _)
  | @groupQueued _ n d =>
    exact (Untouched.push (t := { type := .createGroup, name := n, desc := d }) (by simp [isUpdate])
      s).trans
      (.of_eq rfl rfl rfl rfl)
  | memberQueued => exact (Untouched.push (by simp [isUpdate]) s).trans (.answer _ _ _ _ _)

end

/-- Sessions of other connections are isolated but for logouts: whatever request
arrives on whatever connection, the session of `id` is untouched unless a logout
names it, which ends it, or a login for it is accepted. -/
theorem sessions_isolated {codec : JsonCodec} (hc : codec.Lawful) (my : Nat → MySQL) (msgid : Int32)
    (conn : Conn) (js : Json) (id : Int32) (s : Server) :
    (¬ LogsOut msgid js id → ¬ LogsIn my s.db msgid js id →
      Untouched id s (getHandler codec my msgid conn js s).state) ∧
    (LogsOut msgid js id → Ended id s (getHandler codec my msgid conn js s).state) := by
  refine ⟨getHandler_untouched hc my conn s, ?_⟩
  rintro ⟨rfl, msgId, hf⟩
  have hhandler : getHandler codec my EnMsgType.logoutMsg.val conn js s = logout codec conn js s :=
    rfl
  rw [hhandler]
  rcases logout_cases hc conn js s with ⟨hbad, -⟩ | ⟨k, m, hf', hl⟩
  · exact absurd hf (hbad id msgId)
  · cases Option.some.inj (hf.id.symm.trans hf'.id)
    rw [hl]
    obtain ⟨hentry, hkey, hsubs, hupdates⟩ := ended_endSession id s
    exact ⟨hentry, hkey, hsubs, hupdates⟩

/-- User 2 is logged in on connection 2. A logout of user 1 on connection 3 leaves
the session alone, and one of user 2 there ends it. -/
theorem sessions_isolated_logout :
    (Option.get _ loggedIn_runs).userConnMap.lookup 2 = some 2 ∧
      Untouched 2 (Option.get _ loggedIn_runs) (getHandler JsonText.codec (fun _ => MySQL.up)
        EnMsgType.logoutMsg.val 3 (Sample.logout 1) (Option.get _ loggedIn_runs)).state ∧
      Ended 2 (Option.get _ loggedIn_runs) (getHandler JsonText.codec (fun _ => MySQL.up)
        EnMsgType.logoutMsg.val 3 (Sample.logout 2) (Option.get _ loggedIn_runs)).state := by
  refine ⟨by decide +kernel, ?_, ?_⟩
  · refine (sessions_isolated JsonText.codec_lawful (fun _ => MySQL.up) EnMsgType.logoutMsg.val 3
      (Sample.logout 1) 2 (Option.get _ loggedIn_runs)).1 ?_ ?_
    · rintro ⟨-, msgId, hf⟩
      have hid : (Sample.logout 1).intAt (lit "id") = some 1 := by decide +kernel
      cases hid.symm.trans hf.id
    · rintro ⟨ht, -⟩
      exact absurd ht (by decide)
  · exact (sessions_isolated JsonText.codec_lawful (fun _ => MySQL.up) EnMsgType.logoutMsg.val 3
      (Sample.logout 2) 2 (Option.get _ loggedIn_runs)).2 ⟨rfl, 7, by decide +kernel, by
        decide +kernel⟩

/-- User 2 is logged in on connection 2 when a logout for user 2 arrives on
connection 3. -/
theorem logged_out_by_stranger :
    ¬ ∀ s, (Server.machine JsonText.codec Fresh).Reachable s → ∀ (my : Nat → MySQL) (msgid : Int32)
      (conn c : Conn) (js : Json) (id : Int32), s.userConnMap.lookup id = some c → c ≠ conn →
        Untouched id s (getHandler JsonText.codec my msgid conn js s).state := by
  intro h
  have hreach := Machine.reachable_exec fresh_start loggedIn_runs
  have hsame := (h _ hreach (fun _ => MySQL.up) EnMsgType.logoutMsg.val 3 2 (Sample.logout 2) 2
    (by decide +kernel) (by decide)).entry
  revert hsame
  decide +kernel

end MyChat
