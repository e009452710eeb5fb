import MyChat.Lib.JsonText
import MyChat.Handlers
import MyChat.ServerRun

/-! What becomes of a created group. The worker inserts the group; the creator's
row is written by the handler, with the id of a group object that the database
has not seen. -/

namespace MyChat
open Json

variable {codec : JsonCodec}

/-! ## How the two group tables grow -/

/-- Groups stay, rows of members are appended, and a new creator row names the
group -1. -/
structure GroupsGrow (db db' : Database) : Prop where
  members : ∃ new, db'.groupuser = db.groupuser ++ new ∧
    ∀ m ∈ new, m.grouprole = lit "creator" → m.groupid = -1
  groups : ∀ g row, db.allgroup.get g = some row → db'.allgroup.get g = some row

namespace GroupsGrow

variable {db db' db'' : Database}

theorem same (hm : db'.groupuser = db.groupuser) (hg : db'.allgroup = db.allgroup) :
    GroupsGrow db db' :=
  ⟨⟨[], by simpa using hm, by simp⟩, fun g row h => by rw [hg]; exact h⟩

theorem refl (db : Database) : GroupsGrow db db := same rfl rfl

theorem trans (h : GroupsGrow db db') (h' : GroupsGrow db' db'') : GroupsGrow db db'' := by
  obtain ⟨new, hm, hnew⟩ := h.members
  obtain ⟨new', hm', hnew'⟩ := h'.members
  refine ⟨⟨new ++ new', by rw [hm', hm, List.append_assoc], fun m hmem => ?_⟩,
    fun g row hg => h'.groups g row (h.groups g row hg)⟩
  exact (List.mem_append.mp hmem).elim (hnew m) (hnew' m)

theorem addGroup (my : MySQL) (userid groupid : Int32) (role : Bytes) (db : Database)
    (hrole : cStr role = lit "creator" → groupid = -1) :
    GroupsGrow db (GroupModel.addGroup my userid groupid role db).1 := by
  unfold GroupModel.addGroup
  split
  · refine ⟨⟨[⟨groupid, userid, cStr role⟩], rfl, fun m hm => ?_⟩, fun g row h => h⟩
    rw [List.mem_singleton.mp hm]
    exact hrole
  · exact refl db

theorem createGroup {my : MySQL} {group : Group} {id : Option Int32}
    (h : GroupModel.createGroup my group db = .ok (db', id)) : GroupsGrow db db' := by
  unfold GroupModel.createGroup at h
  split at h
  · split at h
    · split at h
      · next t k hins =>
        cases h
        obtain ⟨hfree, hget⟩ := AutoTable.get_insert hins
        refine ⟨⟨[], by simp, by simp⟩, fun g row hg => ?_⟩
        rw [hget, if_neg]
        · exact hg
        · rintro rfl
          cases hfree.symm.trans hg
      · cases h; exact refl db
    · cases h; exact refl db
  · cases h

end GroupsGrow

theorem normal_ne_creator : cStr (lit "normal") ≠ lit "creator" := by decide

/-- The worker's turn. -/
theorem dbWork_groups {my : MySQL} {t : DbTaskArgs} {db db' : Database}
    (h : dbWork my t db = .ok db') :
    GroupsGrow db db' := by
  unfold dbWork at h
  cases htype : t.type with
  | addFriend =>
    simp only [htype, Except.ok.injEq] at h
    subst h
    unfold FriendModel.insert
    split
    · simp only
      split <;> split <;> exact .same rfl rfl
    · exact .refl db
  | addGroupUser =>
    simp only [htype, Except.ok.injEq] at h
    subst h
    exact .addGroup my t.userid t.groupid _ db fun hrole => absurd hrole normal_ne_creator
  | createGroup =>
    simp only [htype] at h
    cases hcreate : GroupModel.createGroup my { name := t.name, desc := t.desc } db with
    | error e => rw [hcreate] at h; cases h
    | ok r =>
      rw [hcreate] at h
      cases h
      exact .createGroup hcreate
  | insertOfflineMsg =>
    simp only [htype, OfflineMsgModel.insert] at h
    split at h
    · split at h <;> (cases h; exact .same rfl rfl)
    · cases h
  | updateUserState =>
    simp only [htype, Except.ok.injEq] at h
    subst h
    unfold UserModel.updateState
    split <;> exact .same rfl rfl

theorem loginSession_groups (my : Nat → MySQL) (conn : Conn) (id : Int32) (s : Server) :
    GroupsGrow s.db (loginSession my conn id s).db := by
  unfold loginSession takeOffline
  simp only [openSession_db]
  split
  · rw [openSession_db]
    exact .refl _
  · unfold OfflineMsgModel.remove
    split <;> exact .same rfl rfl

theorem getHandler_groups (hc : codec.Lawful) (my : Nat → MySQL) (msgid : Int32) (conn : Conn)
    (js : Json) (s : Server) : GroupsGrow s.db (getHandler codec my msgid conn js s).state.db := by
  have h := getHandler_handled hc my msgid conn js s
  generalize getHandler codec my msgid conn js s = r at h ⊢
  generalize handlerOf msgid = t at h
  cases h with
  | loginAnswered | loginUnsendable => exact loginSession_groups my conn _ s
  | registered => exact .same rfl rfl
  | @groupRouted u g msgId =>
    have hdb := (routeMembers_keeps my (codec.text js) msgId 1
      (GroupModel.queryGroupUsers (my 0) u g s.db) s).2
    exact .same (congrArg (·.groupuser) hdb) (congrArg (·.allgroup) hdb)
  | @groupQueued u => exact .addGroup (my 0) u (-1) (lit "creator") s.db fun _ => rfl
  | _ => exact .refl _

theorem redis_groups (my : MySQL) (userid : Int32) (msg : Bytes) (s : Server) :
    GroupsGrow s.db (handleRedisSubscribeMessage codec my userid msg s).state.db := by
  unfold handleRedisSubscribeMessage
  split
  · simp only
    split
    · exact .refl _
    · split
      · split <;> exact .refl _
      · exact .refl _
  · split
    · exact .refl _
    · next db hdb =>
      unfold OfflineMsgModel.insert at hdb
      split at hdb
      · split at hdb <;> (cases hdb; exact .same rfl rfl)
      · cases hdb

theorem onConnection_db (order : List Int32) (conn : Conn) (s : Server) :
    (onConnection order conn s).db = s.db := by
  unfold onConnection clientCloseException
  simp only
  split <;> split <;> rfl

/-- No step removes a group or a member, and none writes a creator row for a
group that exists. -/
theorem step_groups (hc : codec.Lawful) {s s' : Server} {l : ServerStep}
    (hs : Server.apply codec s l = some s') : GroupsGrow s.db s'.db := by
  cases l with
  | request my msgid conn js =>
    cases hs
    exact getHandler_groups hc my msgid conn js s
  | close order conn =>
    simp only [Server.apply, Option.ite_none_right_eq_some, Option.some.injEq] at hs
    obtain ⟨-, rfl⟩ := hs
    rw [onConnection_db]
    exact .refl _
  | deliver my userid msg =>
    cases hs
    exact redis_groups my userid msg s
  | expire id =>
    cases hs
    exact .refl _
  | work my =>
    simp only [Server.apply, Server.work] at hs
    split at hs
    · cases hs
    · split at hs
      · next hdb => cases hs; exact dbWork_groups hdb
      · cases hs; exact .refl _

/-! ## The creator's row -/

/-- Every creator row names a group that exists. -/
def CreatorsHaveGroups (db : Database) : Prop :=
  ∀ m ∈ db.groupuser, m.grouprole = lit "creator" → (db.allgroup.get m.groupid).isSome

instance (db : Database) : Decidable (CreatorsHaveGroups db) := by
  unfold CreatorsHaveGroups; infer_instance

/-- Between the two databases the group was created, and its creator is the one
who asked for it: the row that the creator's group list and the group's chats
go by. -/
def CreatedFor (userid : Int32) (name desc : Bytes) (db db' : Database) : Prop :=
  ∃ g, db.allgroup.get g = none ∧ db'.allgroup.get g = some ⟨cStr name, cStr desc⟩ ∧
    ⟨g, userid, lit "creator"⟩ ∈ db'.groupuser

/-- What the code keeps: a creator row names a group that exists, or group -1. -/
def CreatorsNamed (db : Database) : Prop :=
  ∀ m ∈ db.groupuser, m.grouprole = lit "creator" →
    m.groupid = -1 ∨ ∃ row, db.allgroup.get m.groupid = some row

theorem GroupsGrow.named {db db' : Database} (h : GroupsGrow db db') (hn : CreatorsNamed db) :
    CreatorsNamed db' := by
  obtain ⟨new, hm, hnew⟩ := h.members
  intro m hmem hrole
  rw [hm] at hmem
  rcases List.mem_append.mp hmem with hmem | hmem
  · rcases hn m hmem hrole with hid | ⟨row, hrow⟩
    · exact Or.inl hid
    · exact Or.inr ⟨row, h.groups _ row hrow⟩
  · exact Or.inl (hnew m hmem hrole)

theorem run_groups (hc : codec.Lawful) {ok : Server → ServerStep → Prop} {s s' : Server}
    (h : (Server.machine codec (· = s)).Run ok s') : GroupsGrow s.db s'.db := by
  refine h.invariant (I := fun st => GroupsGrow s.db st.db) ?_ ?_
  · rintro st rfl
    exact .refl _
  · intro st l st' hi _ hs
    exact hi.trans (step_groups hc hs)

theorem run_named (hc : codec.Lawful) {ok : Server → ServerStep → Prop} {s : Server}
    (h : (Server.machine codec fun s => CreatorsHaveGroups s.db).Run ok s) :
    CreatorsNamed s.db := by
  refine h.invariant (I := fun st => CreatorsNamed st.db) ?_ ?_
  · intro st hst m hmem hrole
    exact Or.inr (Option.isSome_iff_exists.mp (hst m hmem hrole))
  · intro st l st' hi _ hs
    exact (step_groups hc hs).named hi

/-- A created group is never its creator's: in every run, whatever is handled
before and behind the request. -/
theorem created_group_orphaned (hc : codec.Lawful) {s : Server}
    (hrun : (Server.machine codec fun s => CreatorsHaveGroups s.db).Run (fun _ l => l.succeeds) s)
    {my : Nat → MySQL} (hmy : ∀ k, my k = MySQL.up) (conn : Conn) {js : Json} {userid : Int32}
    {name desc : Bytes} {msgId : Int32} (hf : CreateFields js userid name desc msgId) {s' : Server}
    (hrest : (Server.machine codec
      (· = (getHandler codec my EnMsgType.createGroupMsg.val conn js s).state)).Run
      (fun _ l => l.succeeds) s') :
    ¬ CreatedFor userid name desc s.db s'.db ∧ ¬ CreatorsHaveGroups s'.db := by
  have hnamed := run_named hc hrun
  have hgrow :=
    (getHandler_groups hc my EnMsgType.createGroupMsg.val conn js s).trans (run_groups hc hrest)
  have hrow : ⟨-1, userid, lit "creator"⟩ ∈ s'.db.groupuser := by
    obtain ⟨new, hm, -⟩ := (run_groups hc hrest).members
    rw [hm]
    refine List.mem_append_left _ ?_
    show _ ∈ (createGroup codec my conn js s).state.db.groupuser
    rcases createGroup_cases hc my conn js s with ⟨hbad, -⟩ | ⟨u, n, d, m, hf', h⟩
    · exact absurd hf (hbad userid name desc msgId)
    · cases Option.some.inj (hf.id.symm.trans hf'.id)
      rw [h, hmy 0]
      exact List.mem_append_right _ (List.mem_singleton.mpr rfl)
  constructor
  · rintro ⟨g, hnew, hget, hmem⟩
    have hg : g = -1 := by
      obtain ⟨new, hm, hcreators⟩ := hgrow.members
      rw [hm] at hmem
      rcases List.mem_append.mp hmem with hmem | hmem
      · rcases hnamed _ hmem rfl with hid | ⟨row, hold⟩
        · exact hid
        · cases hnew.symm.trans hold
      · exact hcreators _ hmem rfl
    rw [hg, AutoTable.get_neg_one] at hget
    cases hget
  · intro hall
    have hsome := hall _ hrow rfl
    rw [AutoTable.get_neg_one] at hsome
    cases hsome

theorem creatorsHaveGroups_empty : CreatorsHaveGroups Database.empty := by rintro m ⟨⟩

/-- User 1 has asked a new server for a group. -/
def groupRequested : Server :=
  (getHandler JsonText.codec (fun _ => MySQL.up) EnMsgType.createGroupMsg.val 1
    (Sample.createGroup 1) (Server.start 0 Database.empty)).state

theorem groupInserted_runs :
    ((Server.machine JsonText.codec (· = groupRequested)).exec groupRequested
    [.work MySQL.up]).isSome := by decide +kernel

/-- And the worker has inserted it. -/
def groupInserted : Server := Option.get _ groupInserted_runs

theorem groupInserted_run :
    (Server.machine JsonText.codec (· = groupRequested)).Run (fun _ l => l.succeeds)
      groupInserted := by
  refine Machine.Run.exec (.start rfl) (fun l hl _ => ?_) (Option.some_get groupInserted_runs).symm
  rw [List.mem_singleton.mp hl]
  rfl

theorem created_group_orphaned_first :
    ¬ CreatedFor 1 (lit "g") (lit "d") Database.empty groupInserted.db ∧
      ¬ CreatorsHaveGroups groupInserted.db :=
  created_group_orphaned JsonText.codec_lawful (s := Server.start 0 Database.empty)
    (.start creatorsHaveGroups_empty) (fun _ => rfl) 1 (Sample.createGroup_fields 1)
    groupInserted_run

/-- The group is in the database, and the creator's row names group -1. -/
theorem group_without_creator :
    ¬ ∀ s, (Server.machine JsonText.codec fun s => CreatorsHaveGroups s.db).Run
      (fun _ l => l.succeeds) s →
      ∀ (my : Nat → MySQL) (conn : Conn) (js : Json) (userid : Int32) (name desc : Bytes)
        (msgId : Int32),
        (∀ k, my k = MySQL.up) → CreateFields js userid name desc msgId →
        ∀ s', (Server.machine JsonText.codec
            (· = (getHandler JsonText.codec my EnMsgType.createGroupMsg.val conn js s).state)).Run
          (fun _ l => l.succeeds) s' → s'.dbQueue = [] →
          CreatedFor userid name desc s.db s'.db ∧ CreatorsHaveGroups s'.db := by
  intro h
  have hall :=
    (h (Server.start 0 Database.empty) (.start creatorsHaveGroups_empty) (fun _ => MySQL.up) 1 _
    1 (lit "g") (lit "d") 7 (fun _ => rfl) (Sample.createGroup_fields 1) groupInserted
    groupInserted_run
    (by decide +kernel)).2
  revert hall
  decide +kernel

end MyChat
