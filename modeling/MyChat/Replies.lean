import MyChat.ChatService

/-! The texts the handlers send, and when the login reply can be serialised. -/

namespace MyChat
open Json

variable {codec : JsonCodec}

/-! ## Replies and ACKs -/

section
variable (codec)

def replyFrame (response : Json) (msgId : Int32) : Frame :=
  groupChatFrame (codec.text response) msgId

def ackFrame (msgId : Int32) : Frame := replyFrame codec (ackResponse msgId) msgId

/-- A reply and the ACK behind it. -/
def Server.answer (conn : Conn) (response : Json) (msgId : Int32) (s : Server) : Server :=
  (s.send conn (replyFrame codec response msgId)).send conn (ackFrame codec msgId)

end

theorem respond_eq (hc : codec.Lawful) {response : Json} (hu : response.utf8) (conn : Conn)
    (msgId : Int32) (s : Server) :
    respond codec conn response msgId s =
      { state := s.send conn (replyFrame codec response msgId) } := by
  rw [respond, hc.dump_eq hu]
  rfl

theorem respond_invalid (hc : codec.Lawful) {response : Json} (hu : response.utf8 = false)
    (conn : Conn) (msgId : Int32) (s : Server) :
    respond codec conn response msgId s = { state := s, thrown := some .invalidUtf8 } := by
  rw [respond, hc.dump_none.mpr hu]

theorem utf8_ackResponse (msgId : Int32) : (ackResponse msgId).utf8 :=
  utf8_object (by simp [msgIdField, msgidField])

theorem ackToClient_eq (hc : codec.Lawful) (conn : Conn) (msgId : Int32) (s : Server) :
    ackToClient codec conn msgId s = { state := s.send conn (ackFrame codec msgId) } :=
  respond_eq hc (utf8_ackResponse msgId) conn msgId s

theorem respond_ack (hc : codec.Lawful) {response : Json} (hu : response.utf8) (conn : Conn)
    (msgId : Int32) (s : Server) :
    (respond codec conn response msgId s).andThen (ackToClient codec conn msgId) =
      { state := s.answer codec conn response msgId } := by
  rw [respond_eq hc hu, Ret.andThen, ackToClient_eq hc]
  rfl

theorem utf8_loginRefusal (errno : Int32) (errmsg : String) (msgId : Int32) :
    (loginRefusal errno errmsg msgId).utf8 :=
  utf8_object (by simp [msgidField, msgIdField, Json.utf8])

theorem utf8_regResponse (id msgId : Int32) : (regResponse id msgId).utf8 :=
  utf8_object (by simp [msgidField, msgIdField])

theorem utf8_groupResponse (t : EnMsgType) (desc : String) (msgId : Int32) :
    (groupResponse t desc msgId).utf8 :=
  utf8_object (by simp [msgidField, msgIdField, Json.utf8])

/-! ## The login reply -/

def friendTexts (user : User) : List Bytes := [user.name, user.state]

def memberTexts (user : GroupUser) : List Bytes := [user.name, user.state, user.role]

def groupTexts (group : Group) : List Bytes :=
  group.name :: group.desc :: group.users.flatMap memberTexts

/-- Every text of the database that the reply to an accepted login carries. -/
def loginTexts (my : Nat → MySQL) (id : Int32) (user : User) (db : Database) : List Bytes :=
  user.name :: (OfflineMsgModel.query (my 1) id db ++
    (FriendModel.query (my 3) id db).flatMap friendTexts ++
    (GroupModel.queryGroups (my 4) id db).flatMap groupTexts)

/-- The reply to an accepted login, unless serialising a part of it throws. -/
def loginReply (codec : JsonCodec) (my : Nat → MySQL) (id : Int32) (user : User) (msgId : Int32)
    (db : Database) : Option Json :=
  (loginView codec my id db).map fun v =>
    loginResponse user msgId (OfflineMsgModel.query (my 1) id db) v.1 v.2

theorem dumpAll_isSome {α : Type} {entry : α → Option Bytes} {p : α → Bool}
    (h : ∀ a, (entry a).isSome = p a) (l : List α) : (dumpAll entry l).isSome = l.all p := by
  induction l with
  | nil => rfl
  | cons a l ih =>
    rw [dumpAll, List.all_cons, ← h a, ← ih]
    cases entry a with
    | none => rfl
    | some t => cases dumpAll entry l <;> rfl

theorem dumpAll_utf8 {α : Type} {entry : α → Option Bytes}
    (h : ∀ a t, entry a = some t → validUtf8 t) {l : List α} {ts : List Bytes}
    (hd : dumpAll entry l = some ts) : ts.all validUtf8 := by
  induction l generalizing ts with
  | nil => cases hd; rfl
  | cons a l ih =>
    obtain ⟨t, ht, hd⟩ := Option.bind_eq_some_iff.mp hd
    obtain ⟨ts', hts, rfl⟩ := Option.map_eq_some_iff.mp hd
    rw [List.all_cons, h a t ht, ih hts, Bool.and_self]

theorem friendEntry_isSome (hc : codec.Lawful) (user : User) :
    (friendEntry codec user).isSome = (friendTexts user).all validUtf8 := by
  rw [friendEntry, hc.dump_isSome, utf8_object_eq (by simp)]
  simp [Json.utf8, friendTexts]

theorem memberEntry_isSome (hc : codec.Lawful) (user : GroupUser) :
    (memberEntry codec user).isSome = (memberTexts user).all validUtf8 := by
  rw [memberEntry, hc.dump_isSome, utf8_object_eq (by simp)]
  simp [Json.utf8, memberTexts]

theorem groupEntry_isSome (hc : codec.Lawful) (group : Group) :
    (groupEntry codec group).isSome = (groupTexts group).all validUtf8 := by
  have hm := dumpAll_isSome (memberEntry_isSome hc) group.users
  rw [groupEntry, groupTexts, List.all_cons, List.all_cons, List.all_flatMap, ← hm]
  cases hd : dumpAll (memberEntry codec) group.users with
  | none => simp
  | some userV =>
    have hv : (ofStrings userV).utf8 = true := by
      rw [utf8_ofStrings]
      exact dumpAll_utf8 (fun _ _ h => hc.dump_utf8 h) hd
    rw [Option.bind_some, hc.dump_isSome, utf8_object_eq (by simp)]
    simp [Json.utf8, hv]

theorem groupEntry_utf8 (hc : codec.Lawful) {group : Group} {t : Bytes}
    (h : groupEntry codec group = some t) : validUtf8 t := by
  obtain ⟨userV, -, hd⟩ := Option.bind_eq_some_iff.mp h
  exact hc.dump_utf8 hd

theorem optional_keys (k : String) (v : List Bytes) :
    ((optional k v).map Prod.fst).Sublist [k] := by
  unfold optional
  split
  · exact List.nil_sublist _
  · exact List.Sublist.refl _

theorem utf8_optional (k : String) (v : List Bytes) :
    ((optional k v).all fun f => f.2.utf8) = v.all validUtf8 := by
  unfold optional
  split
  · next h => subst h; rfl
  · simp [utf8_ofStrings]

theorem utf8_loginResponse (user : User) (msgId : Int32) (vec friends groups : List Bytes) :
    (loginResponse user msgId vec friends groups).utf8 =
      (validUtf8 user.name &&
        (vec.all validUtf8 && friends.all validUtf8 && groups.all validUtf8)) := by
  have hkeys :
      ["msgid", "errno", "id", "name", "msgId", "offlinemsg", "friends", "groups"].Nodup := by
    simp
  rw [loginResponse, utf8_object_eq]
  · rw [List.all_append, List.all_append, List.all_append, utf8_optional, utf8_optional,
      utf8_optional]
    simp only [List.all_cons, List.all_nil, msgidField, msgIdField, utf8_ofInt32, Json.utf8,
      Bool.true_and, Bool.and_true, Bool.and_assoc]
  · simp only [List.map_append]
    refine List.Nodup.sublist ?_ hkeys
    exact (((List.Sublist.refl _).append (optional_keys _ _)).append (optional_keys _ _)).append
      (optional_keys _ _)

/-- The `dump` calls of a login reply all succeed exactly when every text is UTF-8. -/
theorem loginResponse_dumps (hc : codec.Lawful) (user : User) (msgId : Int32) (vec : List Bytes)
    (friends : List User) (groups : List Group) :
    ((dumpAll (friendEntry codec) friends).bind fun vec2 =>
      (dumpAll (groupEntry codec) groups).bind fun groupV =>
        codec.dump (loginResponse user msgId vec vec2 groupV)).isSome =
      (user.name :: (vec ++ friends.flatMap friendTexts ++ groups.flatMap groupTexts)).all
        validUtf8 := by
  have hf := dumpAll_isSome (friendEntry_isSome hc) friends
  have hg := dumpAll_isSome (groupEntry_isSome hc) groups
  rw [List.all_cons, List.all_append, List.all_append, List.all_flatMap, List.all_flatMap, ← hf,
    ← hg]
  cases hfd : dumpAll (friendEntry codec) friends with
  | none => simp
  | some vec2 =>
    cases hgd : dumpAll (groupEntry codec) groups with
    | none => simp
    | some groupV =>
      have hfv := dumpAll_utf8 (fun _ _ h => hc.dump_utf8 h) hfd
      have hgv := dumpAll_utf8 (fun _ _ h => groupEntry_utf8 hc h) hgd
      simp only [Option.bind_some, hc.dump_isSome, utf8_loginResponse, hfv, hgv,
        Option.isSome_some, Bool.and_true]

/-- The reply can be sent exactly when every text it carries is UTF-8. -/
theorem loginReply_utf8 (hc : codec.Lawful) (my : Nat → MySQL) (id : Int32) (user : User)
    (msgId : Int32) (db : Database) :
    (∃ j, loginReply codec my id user msgId db = some j ∧ j.utf8) ↔
      (loginTexts my id user db).all validUtf8 := by
  have hdumps := loginResponse_dumps hc user msgId (OfflineMsgModel.query (my 1) id db)
    (FriendModel.query (my 3) id db) (GroupModel.queryGroups (my 4) id db)
  rw [loginTexts, ← hdumps, loginReply, loginView]
  cases dumpAll (friendEntry codec) (FriendModel.query (my 3) id db) with
  | none => simp
  | some friends =>
    cases dumpAll (groupEntry codec) (GroupModel.queryGroups (my 4) id db) with
    | none => simp
    | some groups => simp [hc.dump_isSome]

end MyChat
