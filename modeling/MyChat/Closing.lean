import MyChat.Isolation

/-! The end of a connection. The search through the connection map stops at the
first entry it finds, and a connection without an entry stands for the user with
the default id. -/

namespace MyChat

variable {codec : JsonCodec}

/-! ## Draining the queue -/

/-- The worker takes task after task until none is left. -/
def Drained (codec : JsonCodec) (s s' : Server) : Prop :=
  (Server.machine codec (· = s)).Run (fun _ l => l = .work MySQL.up) s' ∧ s'.dbQueue = []

/-- What the row of `id` says behind all tasks, if there is a row. -/
def drainedState (id : Int32) (s : Server) : Option Bytes :=
  (s.db.user.get id).map fun row => ((lastUpdate id s.dbQueue).map cStr).getD row.state

theorem drainedState_work {id : Int32} {s s' : Server} (h : s.work MySQL.up = some s') :
    drainedState id s' = drainedState id s := by
  unfold Server.work at h
  split at h
  · cases h
  · next t rest hq =>
    by_cases ht : t.type = .updateUserState
    · have hw : dbWork MySQL.up t s.db =
          .ok (UserModel.updateState MySQL.up { id := t.userid, state := t.state } s.db).1 := by
        simp only [dbWork, ht]
      rw [hw] at h
      cases h
      unfold drainedState
      rw [UserModel.get_updateState, hq, lastUpdate_pop]
      by_cases hid : id = t.userid
      · subst hid
        have hu : isUpdate t.userid t = true := by simp [isUpdate, ht]
        rw [if_pos rfl, hu, if_pos rfl]
        cases s.db.user.get t.userid with
        | none => rfl
        | some row => cases lastUpdate t.userid rest <;> rfl
      · have hu : isUpdate id t = false := by simp [isUpdate, ht, Ne.symm hid]
        rw [if_neg hid, hu]
        simp
    · have hu : isUpdate id t = false := by simp [isUpdate, ht]
      have hlast : lastUpdate id s.dbQueue = lastUpdate id rest := by
        rw [hq, lastUpdate_pop, hu]
        simp
      unfold drainedState
      split at h
      · next db hdb =>
        cases h
        rw [hlast, Consistent.dbWork_user ht hdb]
      · cases h
        rw [hlast]

/-- A row whose last queued update says "Offline" says so once the queue is
drained. -/
theorem offline_of_drained {id : Int32} {s s' : Server} (h : Drained codec s s')
    (hlast : lastUpdate id s.dbQueue = some offline) {row : UserRow}
    (hrow : s'.db.user.get id = some row) : row.state = offline := by
  have hsame : drainedState id s' = drainedState id s := by
    refine h.1.invariant (I := fun st => drainedState id st = drainedState id s) ?_ ?_
    · rintro st rfl
      rfl
    · rintro st l st' hi rfl hs
      exact (drainedState_work hs).trans hi
  rw [drainedState, drainedState, hrow, h.2, hlast] at hsame
  cases hget : s.db.user.get id with
  | none => rw [hget] at hsame; cases hsame
  | some old =>
    rw [hget] at hsame
    have hstate := Option.some.inj hsame
    simpa [lastUpdate, cStr_offline] using hstate

/-! ## Closing -/

/-- From `s` to `s'` the connection's sessions end and no others. -/
structure EndsExactly (codec : JsonCodec) (conn : Conn) (s s' : Server) : Prop where
  gone : ∀ id, s'.userConnMap.lookup id ≠ some conn
  ended : ∀ id, s.userConnMap.lookup id = some conn → Ended id s s'
  others : ∀ id, s.userConnMap.lookup id ≠ some conn → Untouched id s s'
  again : ∀ id, s.userConnMap.lookup id = some conn → ∀ s'', Drained codec s' s'' →
    ∀ row, s''.db.user.get id = some row → LoginAccepts (fun _ => MySQL.up) id row.password s''.db

/-- The connection has one user with a session, or it has none and the default
id has neither a subscription nor a key. -/
def OneSession (conn : Conn) (s : Server) : Prop :=
  (∃ id, id ≠ -1 ∧ ∀ k, s.userConnMap.lookup k = some conn ↔ k = id) ∨
    (∀ k, s.userConnMap.lookup k ≠ some conn) ∧ -1 ∉ s.redis.keys ∧ (s.self, -1) ∉ s.redis.subs

theorem close_found {order : List Int32} {conn : Conn} {s : Server} {id : Int32}
    (h : (order.find? fun k => s.userConnMap.lookup k = some conn) = some id) :
    clientCloseException order conn s =
      if id ≠ -1 then endSession id s else (s.mapErase id).redisOffline id := by
  unfold clientCloseException
  rw [h]
  rfl

theorem close_not_found {order : List Int32} {conn : Conn} {s : Server}
    (h : (order.find? fun k => s.userConnMap.lookup k = some conn) = none) :
    clientCloseException order conn s = s.redisOffline (-1) := by
  unfold clientCloseException
  rw [h]
  rfl

theorem lookup_mapErase (id k : Int32) (s : Server) :
    (s.mapErase id).userConnMap.lookup k = if k = id then none else s.userConnMap.lookup k := by
  by_cases h : k = id
  · subst h
    rw [if_pos rfl]
    exact Finmap.lookup_erase _ _
  · rw [if_neg h]
    exact Finmap.lookup_erase_ne h

theorem endsExactly_endSession {conn : Conn} {s : Server} {id : Int32}
    (h : ∀ k, s.userConnMap.lookup k = some conn ↔ k = id) :
    EndsExactly codec conn s (endSession id s) := by
  refine ⟨fun k hk => ?_, fun k hk => ?_, fun k hk => ?_, fun k hk s'' hd row hrow => ?_⟩
  · have hk' : (if k = id then none else s.userConnMap.lookup k) = some conn :=
      (lookup_mapErase id k s).symm.trans hk
    split at hk'
    · cases hk'
    · next hne => exact hne ((h k).mp hk')
  · cases (h k).mp hk
    exact ended_endSession _ s
  · exact .endSession (fun he => hk ((h k).mpr he.symm)) s
  · cases (h k).mp hk
    have hlast : lastUpdate id (endSession id s).dbQueue = some offline := by
      show lastUpdate id (s.dbQueue ++ [updateStateTask id offline]) = some offline
      rw [lastUpdate_push, if_pos ((isUpdate_updateStateTask id id offline).mpr rfl)]
      rfl
    have hoff := offline_of_drained hd hlast hrow
    exact loginAccepts_row hrow (hoff ▸ offline_ne_online)

/-- A close that finds no entry takes away what the default id has. -/
theorem endsExactly_not_found {conn : Conn} {s : Server}
    (hnone : ∀ k, s.userConnMap.lookup k ≠ some conn) :
    EndsExactly codec conn s (s.redisOffline (-1)) ↔
      -1 ∉ s.redis.keys ∧ (s.self, -1) ∉ s.redis.subs := by
  have hkey : -1 ∉ (s.redisOffline (-1)).redis.keys := by
    show (-1 : Int32) ∉ ((s.redis.unsubscribe s.self (-1)).delete (-1)).keys
    simp
  have hsub : (s.self, -1) ∉ (s.redisOffline (-1)).redis.subs := by
    show (s.self, (-1 : Int32)) ∉ ((s.redis.unsubscribe s.self (-1)).delete (-1)).subs
    simp
  constructor
  · intro h
    have hsame := h.others (-1) (hnone _)
    exact ⟨fun hk => hkey (hsame.key.mpr hk), fun hs => hsub ((hsame.subs _).mpr hs)⟩
  · rintro ⟨hk, hs⟩
    refine ⟨hnone, fun id hid => absurd hid (hnone id), fun id _ => ?_,
      fun id hid => absurd hid (hnone id)⟩
    by_cases hid : id = -1
    · subst hid
      refine ⟨rfl, iff_of_false hkey hk, fun p => ?_, rfl⟩
      by_cases hp : p = s.self
      · subst hp
        exact iff_of_false hsub hs
      · show (p, (-1 : Int32)) ∈ ((s.redis.unsubscribe s.self (-1)).delete (-1)).subs ↔ _
        simp [hp]
    · exact .redisOffline (Ne.symm hid) s

/-- Closing a connection ends exactly its sessions if and only if it has exactly
one, of a user with an id, or has none where the default id has no traces. -/
theorem close_endsExactly_iff {order : List Int32} {conn : Conn} {s : Server}
    (horder : order.toFinset = s.userConnMap.keys) :
    EndsExactly codec conn s (clientCloseException order conn s) ↔ OneSession conn s := by
  cases hf : order.find? fun k => s.userConnMap.lookup k = some conn with
  | none =>
    have hnone : ∀ k, s.userConnMap.lookup k ≠ some conn := by
      intro k hk
      have hmem : k ∈ order := by
        rw [← List.mem_toFinset, horder, Finmap.mem_keys]
        exact Finmap.mem_of_lookup_eq_some hk
      exact absurd (decide_eq_true hk) (List.find?_eq_none.mp hf k hmem)
    rw [close_not_found hf, endsExactly_not_found hnone]
    constructor
    · exact fun h => Or.inr ⟨hnone, h⟩
    · rintro (⟨id, -, hid⟩ | ⟨-, h⟩)
      · exact absurd ((hid id).mpr rfl) (hnone id)
      · exact h
  | some id =>
    rw [close_found hf]
    have hid : s.userConnMap.lookup id = some conn := by simpa using List.find?_some hf
    constructor
    · intro h
      -- one entry goes, so there was no other
      have hone : ∀ k, s.userConnMap.lookup k = some conn → k = id := by
        intro k hk
        by_contra hne
        refine h.gone k ?_
        have hmap : (if id ≠ -1 then endSession id s
            else (s.mapErase id).redisOffline id).userConnMap =
            (s.mapErase id).userConnMap := by
          split <;> rfl
        rw [hmap, lookup_mapErase, if_neg hne]
        exact hk
      have hne : id ≠ -1 := by
        intro he
        have hupdates := (h.ended id hid).updates
        rw [if_neg (not_not.mpr he)] at hupdates
        exact absurd (congrArg List.length hupdates)
          (by simp [Server.redisOffline, Server.mapErase])
      exact Or.inl ⟨id, hne, fun k => ⟨hone k, fun he => he ▸ hid⟩⟩
    · rintro (⟨k, hk, hall⟩ | ⟨hnone, -⟩)
      · cases (hall id).mp hid
        rw [if_pos hk]
        exact endsExactly_endSession hall
      · exact absurd hid (hnone id)

/-- User 2 alone has a session, on connection 5. -/
theorem close_endsExactly_alone :
    EndsExactly JsonText.codec 5
      { Server.start 0 Database.empty with userConnMap := Finmap.singleton 2 5 }
      (clientCloseException [2] 5
        { Server.start 0 Database.empty with userConnMap := Finmap.singleton 2 5 }) := by
  refine (close_endsExactly_iff (by decide +kernel)).mpr
    (Or.inl ⟨2, by decide, fun k => ⟨fun h => ?_, ?_⟩⟩)
  · exact (Finmap.mem_singleton _ _ _).mp (Finmap.mem_of_lookup_eq_some h)
  · rintro rfl
    exact Finmap.lookup_singleton_eq

/-- Users 1 and 2 log in on connection 5. -/
def sharedConnection : List ServerStep :=
  Sample.registered ++
  [Sample.step .loginMsg 5 (Sample.login 1), Sample.step .loginMsg 5 (Sample.login 2)]

theorem sharedConnection_runs : ((Server.machine JsonText.codec Fresh).exec
    (Server.start 0 Database.empty) sharedConnection).isSome := by decide +kernel

/-- When the connection closes, one of them stays in the map. -/
theorem close_leaves_session :
    ¬ ∀ s, (Server.machine JsonText.codec Fresh).Reachable s → ∀ (conn : Conn) (order : List Int32),
      order.toFinset = s.userConnMap.keys →
        EndsExactly JsonText.codec conn s (clientCloseException order conn s) := by
  intro h
  have hreach := Machine.reachable_exec fresh_start sharedConnection_runs
  have hgone := (h _ hreach 5 [1, 2] (by decide +kernel)).gone 2
  revert hgone
  decide +kernel

end MyChat
