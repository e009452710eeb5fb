import MyChat.Authentication
import MyChat.ClientMain
import MyChat.SessionState

/-! The view a login reply leaves in the client. The two sides are written
separately: what one serialises entry by entry the other reads back, and a list
the reply does not carry stays as it was. -/

namespace MyChat
open Json

variable {codec : JsonCodec}

/-! ## Reading back what the server wrote -/

theorem guardedAt_eq {α : Type} {get : Json → Option α} {j v : Json} {k : String} {a : α}
    (hi : j.index (lit k) = some v) (hn : v.isNull = false) (hg : get v = some a) :
    guardedAt get j k = .ok (some a) := by
  simp only [guardedAt, hi, hn, Bool.false_eq_true, ↓reduceIte, hg]

theorem ok_bind {α β : Type} (a : α) (f : α → Except Failure β) :
    ((Except.ok a : Except Failure α) >>= f) = f a := rfl

theorem getAt_intAt {j : Json} {k : String} {n : Int32} (h : j.intAt (lit k) = some n) :
    getAt getInt j k = .ok n := by
  unfold Json.intAt at h
  simp only [getAt, h]

theorem guardedAt_null {α : Type} (get : Json → Option α) {j : Json} {k : String}
    (hi : j.index (lit k) = some .null) : guardedAt get j k = .ok none := by
  simp only [guardedAt, hi, Json.isNull, ↓reduceIte]

theorem getStrings_ofStrings (v : List Bytes) : (ofStrings v).getStrings = some v := by
  simp only [ofStrings, Json.getStrings]
  induction v with
  | nil => rfl
  | cons s v ih => simp [ih, Json.getString]

theorem parseText_object (hc : codec.Lawful) {fs : List (String × Json)} {t : Bytes}
    (hcanon : ∀ f ∈ fs, f.2.canon) (hd : codec.dump (object fs) = some t) :
    parseText codec t = .ok (object fs) := by
  rw [parseText, hc.parse_dump (canon_object hcanon) hd]

/-- The entries of a friend list carry no password. -/
theorem readFriend_friendEntry (hc : codec.Lawful) {user : User} (hp : user.password = [])
    {t : Bytes} (h : friendEntry codec user = some t) : readFriend codec t = .ok user := by
  have hparse := parseText_object hc (by simp [canon_ofInt32, Json.canon]) h
  obtain ⟨id, name, password, state⟩ := user
  subst hp
  rw [readFriend, hparse, ok_bind,
    guardedAt_eq (v := ofInt32 id) (a := id) (by simp [index_lit]) rfl (getInt_ofInt32 id), ok_bind,
    guardedAt_eq (v := .str name) (a := name) (by simp [index_lit]) rfl rfl, ok_bind,
    guardedAt_eq (v := .str state) (a := state) (by simp [index_lit]) rfl rfl]
  rfl

theorem readMember_memberEntry (hc : codec.Lawful) {user : GroupUser} (hp : user.password = [])
    {t : Bytes} (h : memberEntry codec user = some t) : readMember codec t = .ok user := by
  have hparse := parseText_object hc (by simp [canon_ofInt32, Json.canon]) h
  obtain ⟨⟨id, name, password, state⟩, role⟩ := user
  simp only at hp
  subst hp
  rw [readMember, hparse, ok_bind,
    guardedAt_eq (v := ofInt32 id) (a := id) (by simp [index_lit]) rfl (getInt_ofInt32 id), ok_bind,
    guardedAt_eq (v := .str name) (a := name) (by simp [index_lit]) rfl rfl, ok_bind,
    guardedAt_eq (v := .str state) (a := state) (by simp [index_lit]) rfl rfl, ok_bind,
    guardedAt_eq (v := .str role) (a := role) (by simp [index_lit]) rfl rfl]
  rfl

/-- A list that is serialised entry by entry is read back as it was. -/
theorem readEach_dumpAll {α : Type} {entry : α → Option Bytes} {read : Bytes → Except Failure α}
    {l : List α} (h : ∀ a ∈ l, ∀ t, entry a = some t → read t = .ok a) {ts : List Bytes}
    (hd : dumpAll entry l = some ts) : readEach read ts = (l, none) := by
  induction l generalizing ts with
  | nil => cases hd; rfl
  | cons a l ih =>
    obtain ⟨t, ht, hd⟩ := Option.bind_eq_some_iff.mp hd
    obtain ⟨ts', hts, rfl⟩ := Option.map_eq_some_iff.mp hd
    rw [readEach, h a (by simp) t ht, ih (fun b hb => h b (by simp [hb])) hts]

theorem mapM_dumpAll {α : Type} {entry : α → Option Bytes} {read : Bytes → Except Failure α}
    {l : List α} (h : ∀ a ∈ l, ∀ t, entry a = some t → read t = .ok a) {ts : List Bytes}
    (hd : dumpAll entry l = some ts) : ts.mapM read = .ok l := by
  induction l generalizing ts with
  | nil => cases hd; rfl
  | cons a l ih =>
    obtain ⟨t, ht, hd⟩ := Option.bind_eq_some_iff.mp hd
    obtain ⟨ts', hts, rfl⟩ := Option.map_eq_some_iff.mp hd
    rw [List.mapM_cons, h a (by simp) t ht, ih (fun b hb => h b (by simp [hb])) hts]
    rfl

theorem readGroup_groupEntry (hc : codec.Lawful) {group : Group}
    (hp : ∀ user ∈ group.users, user.password = []) {t : Bytes}
    (h : groupEntry codec group = some t) : readGroup codec t = .ok group := by
  obtain ⟨userV, hv, hd⟩ := Option.bind_eq_some_iff.mp h
  have hparse := parseText_object hc (by simp [canon_ofInt32, canon_ofStrings, Json.canon]) hd
  have husers := mapM_dumpAll (fun user hu t ht => readMember_memberEntry hc (hp user hu) ht) hv
  obtain ⟨id, name, desc, users⟩ := group
  rw [readGroup, hparse, ok_bind,
    guardedAt_eq (v := ofInt32 id) (a := id) (by simp [index_lit]) rfl (getInt_ofInt32 id), ok_bind,
    guardedAt_eq (v := .str name) (a := name) (by simp [index_lit]) rfl rfl, ok_bind,
    guardedAt_eq (v := .str desc) (a := desc) (by simp [index_lit]) rfl rfl, ok_bind,
    guardedAt_eq (v := ofStrings userV) (a := userV) (by simp [index_lit]) rfl
      (getStrings_ofStrings userV)]
  show (do let users ← userV.mapM (readMember codec); pure _) = _
  rw [husers]
  rfl

/-! ## What the queries return -/

theorem password_friend {my : MySQL} {id : Int32} {db : Database} {user : User}
    (h : user ∈ FriendModel.query my id db) : user.password = [] := by
  unfold FriendModel.query at h
  split at h
  · obtain ⟨f, -, hf⟩ := List.mem_filterMap.mp h
    obtain ⟨row, -, rfl⟩ := Option.map_eq_some_iff.mp hf
    rfl
  · cases h

theorem password_member {groupid : Int32} {db : Database} {user : GroupUser}
    (h : user ∈ GroupModel.members groupid db) : user.password = [] := by
  obtain ⟨m, -, hm⟩ := List.mem_filterMap.mp h
  obtain ⟨row, -, rfl⟩ := Option.map_eq_some_iff.mp hm
  rfl

theorem password_queryGroups {my : MySQL} {id : Int32} {db : Database} {group : Group}
    (h : group ∈ GroupModel.queryGroups my id db) : ∀ user ∈ group.users, user.password = [] := by
  intro user hu
  obtain ⟨⟨g, i⟩, -, rfl⟩ := List.mem_map.mp h
  simp only at hu
  split at hu
  · exact password_member hu
  · cases hu

theorem dumpAll_eq_nil {α : Type} {entry : α → Option Bytes} {l : List α} {ts : List Bytes}
    (hd : dumpAll entry l = some ts) : ts = [] ↔ l = [] := by
  cases l with
  | nil => cases hd; simp
  | cons a l =>
    obtain ⟨t, -, hd⟩ := Option.bind_eq_some_iff.mp hd
    obtain ⟨ts', -, rfl⟩ := Option.map_eq_some_iff.mp hd
    simp

/-! ## The globals behind an accepted reply -/

theorem index_optional (k : String) (v : List Bytes) (fs : List (String × Json)) (k' : String) :
    (object (optional k v ++ fs)).index (lit k') =
      if k = k' ∧ v ≠ [] then some (ofStrings v) else (object fs).index (lit k') := by
  unfold optional
  split
  · next h => simp [h]
  · next h =>
    rw [List.singleton_append, index_lit]
    simp [h]

theorem index_optional_last (k : String) (v : List Bytes) (k' : String) :
    (object (optional k v)).index (lit k') = if k = k' ∧ v ≠ [] then some (ofStrings v)
      else some .null := by
  rw [← List.append_nil (optional k v), index_optional, index_lit_nil]

theorem guardedAt_optional {j : Json} {k : String} {v : List Bytes}
    (h : j.index (lit k) = if v ≠ [] then some (ofStrings v) else some .null) :
    guardedAt getStrings j k = .ok (if v = [] then none else some v) := by
  by_cases hv : v = []
  · rw [if_pos hv]
    exact guardedAt_null _ (by simpa [hv] using h)
  · rw [if_neg hv]
    exact guardedAt_eq (by simpa [hv] using h) rfl (getStrings_ofStrings v)

section
variable (user : User) (msgId : Int32) (vec friends groups : List Bytes)

theorem lists_loginResponse :
    guardedAt getStrings (loginResponse user msgId vec friends groups) "friends" =
        .ok (if friends = [] then none else some friends) ∧
      guardedAt getStrings (loginResponse user msgId vec friends groups) "groups" =
        .ok (if groups = [] then none else some groups) ∧
      guardedAt getStrings (loginResponse user msgId vec friends groups) "offlinemsg" =
        .ok (if vec = [] then none else some vec) := by
  refine ⟨?_, ?_, ?_⟩
  · refine guardedAt_optional ?_
    simp [loginResponse, msgidField, msgIdField, index_lit, index_optional, index_optional_last]
  · refine guardedAt_optional ?_
    simp [loginResponse, msgidField, msgIdField, index_lit, index_optional, index_optional_last]
  · refine guardedAt_optional ?_
    simp [loginResponse, msgidField, msgIdField, index_lit, index_optional, index_optional_last]

theorem setCurrentUser_loginResponse (g : Globals) :
    setCurrentUser (loginResponse user msgId vec friends groups) g =
      { state := { g with
          currentUser := { g.currentUser with id := user.id, name := user.name } } } := by
  have hid : getAt getInt (loginResponse user msgId vec friends groups) "id" = .ok user.id :=
    getAt_intAt (intAt_loginResponse _ _ _ _ _).2
  have hname : guardedAt getString (loginResponse user msgId vec friends groups) "name" =
      .ok (some user.name) :=
    guardedAt_eq (v := .str user.name) (by simp [loginResponse, msgidField, index_lit]) rfl rfl
  simp only [setCurrentUser, hid, hname, Option.getD_some]

theorem setFriendList_loginResponse (hc : codec.Lawful) {fs : List User}
    (hf : dumpAll (friendEntry codec) fs = some friends) (hp : ∀ f ∈ fs, f.password = [])
    (g : Globals) :
    setFriendList codec (loginResponse user msgId vec friends groups) g =
      { state := { g with
          currentUserFriendList := if fs = [] then g.currentUserFriendList else fs } } := by
  have hread := readEach_dumpAll (fun f hm t ht => readFriend_friendEntry hc (hp f hm) ht) hf
  have hlist := (lists_loginResponse user msgId vec friends groups).1
  by_cases h : fs = []
  · rw [if_pos ((dumpAll_eq_nil hf).mpr h)] at hlist
    simp only [setFriendList, hlist, if_pos h]
  · rw [if_neg (mt (dumpAll_eq_nil hf).mp h)] at hlist
    simp only [setFriendList, hlist, hread, if_neg h]

theorem setGroupList_loginResponse (hc : codec.Lawful) {gs : List Group}
    (hg : dumpAll (groupEntry codec) gs = some groups)
    (hp : ∀ x ∈ gs, ∀ u ∈ x.users, u.password = []) (g : Globals) :
    setGroupList codec (loginResponse user msgId vec friends groups) g =
      { state := { g with
          currentUserGroupList := if gs = [] then g.currentUserGroupList else gs } } := by
  have hread := readEach_dumpAll (fun x hm t ht => readGroup_groupEntry hc (hp x hm) ht) hg
  have hlist := (lists_loginResponse user msgId vec friends groups).2.1
  by_cases h : gs = []
  · rw [if_pos ((dumpAll_eq_nil hg).mpr h)] at hlist
    simp only [setGroupList, hlist, if_pos h]
  · rw [if_neg (mt (dumpAll_eq_nil hg).mp h)] at hlist
    simp only [setGroupList, hlist, hread, if_neg h]

end

/-- The globals where the offline messages are shown: the lists the reply
carries replace the client's, the others are left alone. -/
def Globals.refill (user : User) (fs : List User) (gs : List Group) (g : Globals) : Globals where
  currentUser := { g.currentUser with id := user.id, name := user.name }
  currentUserFriendList := if fs = [] then g.currentUserFriendList else fs
  currentUserGroupList := if gs = [] then g.currentUserGroupList else gs
  isLoginSuccess := g.isLoginSuccess

theorem doLoginResponse_loginResponse (hc : codec.Lawful) (user : User) (msgId : Int32)
    (vec : List Bytes) {friends groups : List Bytes} {fs : List User} {gs : List Group}
    (hf : dumpAll (friendEntry codec) fs = some friends) (hfp : ∀ f ∈ fs, f.password = [])
    (hg : dumpAll (groupEntry codec) gs = some groups)
    (hgp : ∀ x ∈ gs, ∀ u ∈ x.users, u.password = []) (g : Globals) :
    doLoginResponse codec (loginResponse user msgId vec friends groups) g =
      (showOffline codec (loginResponse user msgId vec friends groups)
        (g.refill user fs gs)).andThen
        fun g => { state := { g with isLoginSuccess := true } } := by
  have herr : getAt getInt (loginResponse user msgId vec friends groups) "errno" = .ok 0 :=
    getAt_intAt (intAt_loginResponse _ _ _ _ _).1
  simp only [doLoginResponse, herr, ne_eq, not_true_eq_false, ↓reduceIte,
    setCurrentUser_loginResponse, Ret.andThen, setFriendList_loginResponse _ _ _ _ _ hc hf hfp,
    setGroupList_loginResponse _ _ _ _ _ hc hg hgp]
  rfl

/-- The offline messages are only shown. -/
theorem showOffline_state (response : Json) (g : Globals) :
    (showOffline codec response g).state = g := by
  unfold showOffline
  split <;> rfl

theorem readEach_eq_none {α : Type} {read : Bytes → Except Failure α} {l : List Bytes} :
    (readEach read l).2 = none ↔ ∀ t ∈ l, Except.failure (read t) = none := by
  induction l with
  | nil => simp [readEach]
  | cons t l ih =>
    rw [readEach, List.forall_mem_cons, ← ih]
    cases read t with
    | error e => simp [Except.failure]
    | ok a => simp [Except.failure]

/-! ## A login seen by the client -/

/-- `response` is what a frame of the login for `id` says, with errno 0. -/
def Answers (codec : JsonCodec) (my : Nat → MySQL) (conn : Conn) (js : Json) (id : Int32)
    (s : Server) (response : Json) : Prop :=
  ∃ pwd msgId, LoginFields js id pwd msgId ∧
    ∃ e ∈ (login codec my conn js s).state.sent.drop s.sent.length,
      codec.parse e.frame.text = some response ∧ response.intAt (lit "errno") = some 0

/-- The client shows the row, the friends and the groups that the queries of
the login return. -/
structure Shows (my : Nat → MySQL) (userid : Int32) (db : Database) (g : Globals) : Prop where
  id : g.currentUser.id = (UserModel.query (my 0) userid db).id
  name : g.currentUser.name = (UserModel.query (my 0) userid db).name
  friends : g.currentUserFriendList = FriendModel.query (my 3) userid db
  groups : g.currentUserGroupList = GroupModel.queryGroups (my 4) userid db

/-- Each list that the login finds empty was empty in the client before. -/
def NothingLeft (my : Nat → MySQL) (id : Int32) (db : Database) (g : Globals) : Prop :=
  (FriendModel.query (my 3) id db = [] → g.currentUserFriendList = []) ∧
    (GroupModel.queryGroups (my 4) id db = [] → g.currentUserGroupList = [])

/-- Of the two frames of a login only the reply carries errno 0, and only when
the login was accepted. -/
theorem reply_of_answers (hc : codec.Lawful) {my : Nat → MySQL} {conn : Conn} {js : Json}
    {id : Int32} {s : Server} {response : Json} (h : Answers codec my conn js id s response) :
    ∃ msgId, loginReply codec my id (UserModel.query (my 0) id s.db) msgId s.db =
      some response := by
  obtain ⟨pwd, msgId, hf, e, hmem, hp, herr⟩ := h
  rcases login_cases hc my conn js s with ⟨hbad, -⟩ | ⟨id', pwd', msgId', hf', h⟩
  · exact absurd hf (hbad id pwd msgId)
  obtain ⟨rfl, rfl, rfl⟩ := hf.unique hf'
  rcases h with ⟨-, errno, errmsg, he, h⟩ | ⟨-, j, hj, hju, h⟩ | ⟨-, -, h⟩
  · have hok : LetIn codec s (s.answer codec conn (loginRefusal errno errmsg msgId) msgId) :=
      Or.inl ⟨e, by rwa [h] at hmem, by simp [saysOk, hp, herr]⟩
    exact absurd hok (not_letIn_refusal hc he errmsg conn msgId s)
  · refine ⟨msgId, ?_⟩
    rw [h, sent_answer conn j msgId (loginSession_sent my conn id s), List.drop_left] at hmem
    rcases List.mem_pair.mp hmem with rfl | rfl
    · rw [parse_replyFrame hc (loginReply_msgid hj).1 hju] at hp
      rw [hj, hp]
    · rw [parse_ackFrame hc] at hp
      cases hp
      rw [(intAt_ackResponse _).2.2] at herr
      cases herr
  · have hsent : (login codec my conn js s).state.sent = s.sent ++ [] := by
      simp [h, loginSession_sent]
    rw [hsent, List.drop_left] at hmem
    cases hmem

/-- Reading the reply of an accepted login: the globals, and the exceptions of
the offline messages, if any. -/
theorem doLoginResponse_loginReply (hc : codec.Lawful) {my : Nat → MySQL} {id : Int32} {user : User}
    {msgId : Int32} {db : Database} {response : Json}
    (h : loginReply codec my id user msgId db = some response) (g : Globals) :
    (∃ b, (doLoginResponse codec response g).state =
      { g.refill user (FriendModel.query (my 3) id db) (GroupModel.queryGroups (my 4) id db) with
        isLoginSuccess := b }) ∧
    (doLoginResponse codec response g).thrown =
      (readEach (showOfflineMsg codec) (OfflineMsgModel.query (my 1) id db)).2 := by
  obtain ⟨v, hv, rfl⟩ := Option.map_eq_some_iff.mp h
  obtain ⟨friends, hf, hv⟩ := Option.bind_eq_some_iff.mp hv
  obtain ⟨groups, hg, rfl⟩ := Option.map_eq_some_iff.mp hv
  have hvec :=
    (lists_loginResponse user msgId (OfflineMsgModel.query (my 1) id db) friends groups).2.2
  have hthrown : ∀ g,
      (showOffline codec (loginResponse user msgId (OfflineMsgModel.query (my 1) id db)
      friends groups) g).thrown =
      (readEach (showOfflineMsg codec) (OfflineMsgModel.query (my 1) id db)).2 := by
    intro g
    simp only [showOffline, hvec]
    split
    · next hnil => rw [hnil]; rfl
    · rfl
  rw [doLoginResponse_loginResponse hc user msgId _ hf (fun _ => password_friend) hg
    (fun _ => password_queryGroups) g, Ret.andThen, hthrown, showOffline_state]
  cases hr : (readEach (showOfflineMsg codec) (OfflineMsgModel.query (my 1) id db)).2 with
  | none => exact ⟨⟨true, rfl⟩, rfl⟩
  | some e => exact ⟨⟨g.isLoginSuccess, showOffline_state _ _⟩, (hthrown _).trans hr⟩

theorem lists_of_answers (hc : codec.Lawful) {my : Nat → MySQL} {conn : Conn} {js : Json}
    {id : Int32} {s : Server} {response : Json} (h : Answers codec my conn js id s response)
    (g : Globals) :
    ∃ b, (doLoginResponse codec response g).state =
      { g.refill (UserModel.query (my 0) id s.db) (FriendModel.query (my 3) id s.db)
          (GroupModel.queryGroups (my 4) id s.db) with isLoginSuccess := b } := by
  obtain ⟨msgId, hreply⟩ := reply_of_answers hc h
  exact (doLoginResponse_loginReply hc hreply g).1

/-- For every database and every prior state of the client: the view is the
logged-in user's exactly when no list is left over. -/
theorem login_view_iff (hc : codec.Lawful) {my : Nat → MySQL} {conn : Conn} {js : Json} {id : Int32}
    {s : Server} {response : Json} (h : Answers codec my conn js id s response) (g : Globals) :
    Shows my id s.db (doLoginResponse codec response g).state ↔ NothingLeft my id s.db g := by
  obtain ⟨b, hg⟩ := lists_of_answers hc h g
  rw [hg]
  constructor
  · intro hs
    refine ⟨fun hnil => ?_, fun hnil => ?_⟩
    · have hlist := hs.friends
      simpa [Globals.refill, hnil] using hlist
    · have hlist := hs.groups
      simpa [Globals.refill, hnil] using hlist
  · rintro ⟨hfl, hgl⟩
    refine ⟨rfl, rfl, ?_, ?_⟩
    · simp only [Globals.refill]
      split
      · next hnil => rw [hfl hnil, hnil]
      · rfl
    · simp only [Globals.refill]
      split
      · next hnil => rw [hgl hnil, hnil]
      · rfl

theorem answers_of_accepts (hc : codec.Lawful) {my : Nat → MySQL} (conn : Conn) {js : Json}
    {id : Int32} {pwd : Bytes} {msgId : Int32} (hf : LoginFields js id pwd msgId) {s : Server}
    (hacc : LoginAccepts my id pwd s.db)
    (htexts : (loginTexts my id (UserModel.query (my 0) id s.db) s.db).all validUtf8) :
    ∃ response, Answers codec my conn js id s response := by
  rcases login_cases hc my conn js s with ⟨hbad, -⟩ | ⟨id', pwd', msgId', hf', h⟩
  · exact absurd hf (hbad id pwd msgId)
  obtain ⟨rfl, rfl, rfl⟩ := hf.unique hf'
  rcases h with ⟨hrej, -⟩ | ⟨-, j, hj, hju, h⟩ | ⟨-, hbad, -⟩
  · exact absurd hacc hrej
  · have hreply := parse_replyFrame hc (loginReply_msgid hj).1 hju msgId
    obtain ⟨v, -, rfl⟩ := Option.map_eq_some_iff.mp hj
    refine ⟨_, pwd, msgId, hf, ⟨conn, none, replyFrame codec _ msgId⟩, ?_, hreply, ?_⟩
    · rw [h, sent_answer conn _ msgId (loginSession_sent my conn id s), List.drop_left]
      exact List.mem_cons_self
    · exact (intAt_loginResponse _ _ _ _ _).1
  · exact absurd htexts hbad

/-! ## Two users at one client -/

/-- Users 1 and 2 register and become friends, user 3 registers. -/
def friends : List ServerStep :=
  Sample.registered ++ [Sample.step .regMsg 3 (Sample.reg "c"),
    Sample.step .addFriendMsg 1
    (Sample.fields .addFriendMsg [("id", ofInt32 1), ("friendid", ofInt32 2)]), .work MySQL.up]

theorem friends_runs : ((Server.machine JsonText.codec Fresh).exec
    (Server.start 0 Database.empty) friends).isSome := by decide +kernel

def befriended : Server :=
  ((Server.machine JsonText.codec Fresh).exec (Server.start 0 Database.empty) friends).get
  friends_runs

theorem befriended_reachable : (Server.machine JsonText.codec Fresh).Reachable befriended :=
  Machine.reachable_exec fresh_start friends_runs

theorem befriended_friends :
    FriendModel.query MySQL.up 1 befriended.db ≠ [] ∧
      FriendModel.query MySQL.up 3 befriended.db = [] := by
  decide +kernel

theorem befriended_answers (id : Int32)
    (hacc : LoginAccepts (fun _ => MySQL.up) id (lit "pw") befriended.db)
    (htexts : (loginTexts (fun _ => MySQL.up) id (UserModel.query MySQL.up id befriended.db)
      befriended.db).all validUtf8) :
    ∃ response, Answers JsonText.codec (fun _ => MySQL.up) 1 (Sample.login id) id befriended
      response := by
  exact answers_of_accepts JsonText.codec_lawful 1 (Sample.login_fields id) hacc htexts

/-- A client that shows nothing yet shows user 1 with friend 2. -/
theorem login_view_first : ∃ response,
    Answers JsonText.codec (fun _ => MySQL.up) 1 (Sample.login 1) 1 befriended response ∧
      Shows (fun _ => MySQL.up) 1 befriended.db
        (doLoginResponse JsonText.codec response {}).state := by
  obtain ⟨response, h⟩ := befriended_answers 1 (by decide +kernel) (by decide +kernel)
  exact ⟨response, h, (login_view_iff JsonText.codec_lawful h {}).mpr ⟨fun _ => rfl, fun _ => rfl⟩⟩

/-- User 3 logs in where user 1 was logged in before, and sees 1's friends. -/
theorem former_friends_stay :
    ¬ ∀ s, (Server.machine JsonText.codec Fresh).Reachable s → ∀ (conn : Conn) (js js' : Json)
      (id id' : Int32) (response response' : Json),
      Answers JsonText.codec (fun _ => MySQL.up) conn js id s response →
      Answers JsonText.codec (fun _ => MySQL.up) conn js' id' s response' →
      Shows (fun _ => MySQL.up) id' s.db (doLoginResponse JsonText.codec response'
        (doLoginResponse JsonText.codec response {}).state).state := by
  intro h
  obtain ⟨r, hr⟩ := befriended_answers 1 (by decide +kernel) (by decide +kernel)
  obtain ⟨r', hr'⟩ := befriended_answers 3 (by decide +kernel) (by decide +kernel)
  have hlist := (h befriended befriended_reachable 1 _ _ 1 3 r r' hr hr').friends
  obtain ⟨b, hg⟩ := lists_of_answers JsonText.codec_lawful hr {}
  obtain ⟨b', hg'⟩ :=
    lists_of_answers JsonText.codec_lawful hr' (doLoginResponse JsonText.codec r {}).state
  obtain ⟨hsome, hnil⟩ := befriended_friends
  rw [hg', hg] at hlist
  simp only [Globals.refill, hnil, if_neg hsome, ↓reduceIte] at hlist
  exact hsome hlist

end MyChat
