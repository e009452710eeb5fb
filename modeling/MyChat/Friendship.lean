import MyChat.Routes
import MyChat.GroupCreation

/-! Friendship in both directions. A task of the worker inserts the two rows of
a pair one after the other and looks at neither result. -/

namespace MyChat
open Json

variable {codec : JsonCodec}

/-- Whoever is a friend of somebody has that person as a friend. -/
def FriendsMutual (db : Database) : Prop := ∀ a b, (a, b) ∈ db.friend ↔ (b, a) ∈ db.friend

theorem friendsMutual_of {db : Database} (h : ∀ a b, (a, b) ∈ db.friend → (b, a) ∈ db.friend) :
    FriendsMutual db := fun a b => ⟨h a b, h b a⟩

/-- The two inserts of a pair meet the same fate, or the pair is one that a
single row keeps mutual: a user and himself, or friends already. -/
def PairKept (my : MySQL) (userid friendid : Int32) (db : Database) : Prop :=
  my.connect = false ∨ my.exec 0 = my.exec 1 ∨ userid = friendid ∨ (userid, friendid) ∈ db.friend

/-- The table with one more row stays mutual when the row has its mirror image. -/
theorem mutual_append {db : Database} (h : FriendsMutual db) (a b : Int32) :
    FriendsMutual { db with friend := db.friend ++ [(a, b)] } ↔ a = b ∨ (a, b) ∈ db.friend := by
  constructor
  · intro hnew
    have hmirror : (b, a) ∈ db.friend ++ [(a, b)] :=
      (hnew a b).mp (show (a, b) ∈ db.friend ++ [(a, b)] from List.mem_append_right _ (by simp))
    rcases List.mem_append.mp hmirror with hold | hlast
    · exact Or.inr ((h b a).mp hold)
    · cases List.mem_singleton.mp hlast
      exact Or.inl rfl
  · intro hab
    refine friendsMutual_of fun x y hxy => ?_
    rcases List.mem_append.mp hxy with hold | hlast
    · exact List.mem_append_left _ ((h x y).mp hold)
    · cases List.mem_singleton.mp hlast
      rcases hab with rfl | hold
      · exact hxy
      · exact List.mem_append_left _ ((h _ _).mp hold)

theorem mutual_both {db : Database} (h : FriendsMutual db) (a b : Int32) :
    FriendsMutual { db with friend := db.friend ++ [(a, b)] ++ [(b, a)] } := by
  refine friendsMutual_of fun x y hxy => ?_
  simp only [List.append_assoc, List.mem_append, List.mem_cons, List.not_mem_nil, or_false,
    Prod.mk.injEq] at hxy ⊢
  rcases hxy with hold | ⟨rfl, rfl⟩ | ⟨rfl, rfl⟩
  · exact Or.inl ((h x y).mp hold)
  · exact Or.inr (Or.inr ⟨rfl, rfl⟩)
  · exact Or.inr (Or.inl ⟨rfl, rfl⟩)

theorem friendModel_insert_mutual {db : Database} (h : FriendsMutual db) (my : MySQL)
    (userid friendid : Int32) :
    FriendsMutual (FriendModel.insert my userid friendid db) ↔ PairKept my userid friendid db := by
  unfold FriendModel.insert PairKept
  cases hconn : my.connect with
  | false => simpa using h
  | true =>
    cases h0 : my.exec 0 <;> cases h1 : my.exec 1
    · simpa using h
    · simp only [if_true, Bool.false_eq_true, if_false, Bool.true_eq_false, false_or]
      rw [mutual_append h, eq_comm, h friendid userid]
    · simp only [if_true, Bool.false_eq_true, if_false, Bool.true_eq_false, false_or]
      exact mutual_append h userid friendid
    · simpa using mutual_both h userid friendid

/-! ## Runs -/

/-- A server just started on a database in which friendship is mutual. -/
def FriendsStart (s : Server) : Prop :=
  ∃ self db, FriendsMutual db ∧ s = Server.start self db

/-- The condition is on the tasks that add friends only. -/
def ServerStep.KeepsPairs (s : Server) : ServerStep → Prop
  | .work my => ∀ opt rest, s.dbQueue = opt :: rest → opt.type = .addFriend →
      PairKept my opt.userid opt.friendid s.db
  | _ => True

theorem RequestWrites.friend {t : Option EnMsgType} {db db' : Database}
    (h : RequestWrites t db db') :
    db'.friend = db.friend := by
  cases h <;> rfl

theorem redis_friend (my : MySQL) (userid : Int32) (msg : Bytes) (s : Server) :
    (handleRedisSubscribeMessage codec my userid msg s).state.db.friend = s.db.friend := by
  unfold handleRedisSubscribeMessage
  repeat' split
  all_goals first
    | rfl
    | (next hdb =>
        unfold OfflineMsgModel.insert at hdb
        split at hdb
        · split at hdb <;> (cases hdb; rfl)
        · cases hdb)

/-- Of the worker's tasks only one kind writes to the friend table. -/
theorem dbWork_friend {my : MySQL} {opt : DbTaskArgs} (ht : opt.type ≠ .addFriend)
    {db db' : Database} (h : dbWork my opt db = .ok db') : db'.friend = db.friend := by
  unfold dbWork at h
  cases htype : opt.type with
  | addFriend => exact absurd htype ht
  | addGroupUser =>
    simp only [htype, GroupModel.addGroup] at h
    cases h
    split <;> rfl
  | createGroup =>
    simp only [htype, GroupModel.createGroup] at h
    repeat' split at h
    all_goals (cases h; try rfl)
  | insertOfflineMsg =>
    simp only [htype, OfflineMsgModel.insert] at h
    repeat' split at h
    all_goals (cases h; try rfl)
  | updateUserState =>
    simp only [htype, UserModel.updateState] at h
    cases h
    split <;> rfl

theorem FriendsMutual.congr {db db' : Database} (h : db'.friend = db.friend) :
    FriendsMutual db' ↔ FriendsMutual db := by
  rw [FriendsMutual, FriendsMutual, h]

/-- From mutual friendship a step leads to mutual friendship exactly when it
meets the condition. -/
theorem step_mutual (hc : codec.Lawful) {s s' : Server} (h : FriendsMutual s.db) {l : ServerStep}
    (hs : Server.apply codec s l = some s') : FriendsMutual s'.db ↔ l.KeepsPairs s := by
  cases l with
  | request my msgid conn js =>
    cases hs
    rw [FriendsMutual.congr (getHandler_writes hc my msgid conn js s).friend]
    exact iff_of_true h trivial
  | close order conn =>
    simp only [Server.apply, Option.ite_none_right_eq_some, Option.some.injEq] at hs
    obtain ⟨-, rfl⟩ := hs
    rw [onConnection_db]
    exact iff_of_true h trivial
  | deliver my userid msg =>
    cases hs
    rw [FriendsMutual.congr (redis_friend my userid msg s)]
    exact iff_of_true h trivial
  | expire id =>
    cases hs
    exact iff_of_true h trivial
  | work my =>
    simp only [Server.apply, Server.work] at hs
    cases hq : s.dbQueue with
    | nil => simp [hq] at hs
    | cons opt rest =>
      have hcond : ServerStep.KeepsPairs s (.work my) ↔
          (opt.type = .addFriend → PairKept my opt.userid opt.friendid s.db) := by
        simp only [ServerStep.KeepsPairs, hq, List.cons.injEq]
        refine ⟨fun hk => hk opt rest ⟨rfl, rfl⟩, fun hk o r ho => ?_⟩
        obtain ⟨rfl, -⟩ := ho
        exact hk
      rw [hcond]
      by_cases ht : opt.type = .addFriend
      · have hdb : dbWork my opt s.db =
            .ok (FriendModel.insert my opt.userid opt.friendid s.db) := by
          simp only [dbWork, ht]
        simp only [hq, hdb, Option.some.injEq] at hs
        subst hs
        rw [friendModel_insert_mutual h]
        exact ⟨fun hk _ => hk, fun hk => hk ht⟩
      · have hkeep : s'.db.friend = s.db.friend := by
          simp only [hq] at hs
          split at hs
          · next hdb => cases hs; exact dbWork_friend ht hdb
          · cases hs; rfl
        rw [FriendsMutual.congr hkeep]
        exact iff_of_true h fun ht' => absurd ht' ht

/-- As long as the steps meet the condition friendship is mutual, and the first
step that does not ends it. -/
theorem friends_mutual_iff (hc : codec.Lawful) {s : Server}
    (h : (Server.machine codec FriendsStart).Run (fun s l => l.KeepsPairs s) s) :
    FriendsMutual s.db ∧ ∀ l s', Server.apply codec s l = some s' →
      (FriendsMutual s'.db ↔ l.KeepsPairs s) := by
  have hmutual : FriendsMutual s.db := by
    refine h.invariant (I := fun s => FriendsMutual s.db) ?_ ?_
    · rintro s ⟨self, db, hdb, rfl⟩
      exact hdb
    · intro s l s' hs hok hstep
      exact (step_mutual hc hs hstep).mpr hok
  exact ⟨hmutual, fun l s' hs => step_mutual hc hmutual hs⟩

/-- User `id` asks to add a friend. -/
def addFriendRequest (id friendid : Int32) : ServerStep :=
  Sample.step .addFriendMsg 1
  (Sample.fields .addFriendMsg [("id", ofInt32 id), ("friendid", ofInt32 friendid)])

/-- Two users add each other, and the worker has taken the first task. -/
def newFriendsSteps : List ServerStep :=
  [addFriendRequest 1 2, addFriendRequest 2 1, .work MySQL.up]

theorem newFriends_runs : ((Server.machine JsonText.codec FriendsStart).exec
    (Server.start 0 Database.empty) newFriendsSteps).isSome := by decide +kernel

def newFriends : Server := Option.get _ newFriends_runs

theorem friendsStart_empty : FriendsStart (Server.start 0 Database.empty) :=
  ⟨0, Database.empty, fun _ _ => by simp [Database.empty], rfl⟩

theorem newFriends_run :
    (Server.machine JsonText.codec FriendsStart).Run (fun s l => l.KeepsPairs s) newFriends := by
  refine Machine.Run.exec (.start friendsStart_empty) (fun l hl s => ?_)
    (Option.some_get newFriends_runs).symm
  rcases List.mem_cons.mp hl with rfl | hl
  · trivial
  · rcases List.mem_cons.mp hl with rfl | hl
    · trivial
    · cases List.mem_singleton.mp hl
      exact fun opt rest _ _ => Or.inr (Or.inl rfl)

theorem friends_mutual_twice :
    (Server.apply JsonText.codec newFriends (.work ⟨true, fun _ => false⟩)).isSome ∧
    FriendsMutual newFriends.db ∧ ∀ l s', Server.apply JsonText.codec newFriends l = some s' →
      (FriendsMutual s'.db ↔ l.KeepsPairs newFriends) :=
  ⟨by decide +kernel, friends_mutual_iff JsonText.codec_lawful newFriends_run⟩

theorem oneSided_runs : ((Server.machine JsonText.codec FriendsStart).exec
    (Server.start 0 Database.empty) [addFriendRequest 1 2, .work ⟨true, (· = 0)⟩]).isSome := by
  decide +kernel

/-- The second insert of the task fails. -/
def oneSided : Server := Option.get _ oneSided_runs

theorem friends_one_sided : (Server.machine JsonText.codec FriendsStart).Reachable oneSided ∧
    (1, 2) ∈ oneSided.db.friend ∧ (2, 1) ∉ oneSided.db.friend :=
  ⟨Machine.reachable_exec friendsStart_empty oneSided_runs, by decide +kernel, by decide +kernel⟩

end MyChat
