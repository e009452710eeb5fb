import Mathlib.Data.List.Flatten
import MyChat.Handlers
import MyChat.Lib.JsonText
import MyChat.Lib.Machine
import MyChat.ServerRun

/-! The offline mailbox, statement by statement: logins select, delete and then
serialise their replies, on connections of their own, while the worker and the
observer insert. Rows carry a tag, so that two messages with one text stay apart. -/

namespace MyChat

structure Mail where
  tag : Nat
  text : Bytes
  deriving DecidableEq, Repr

/-- A row of the table, or a message of a reply: whom it is for and what it is. -/
abbrev MailRow := Int32 × Mail

/-- An accepted login from its select on. -/
structure MailLogin where
  /-- the process that runs it -/
  server : Nat
  /-- how its request came: only the plain branch catches what the handler throws -/
  isEncrypted : Bool
  user : User
  msgId : Int32
  /-- what the select found, in the reply from then on -/
  vec : List Mail
  deriving DecidableEq, Repr

structure Mailbox where
  table : OfflineTable Mail
  /-- every row inserted so far, in order -/
  inserted : List MailRow
  /-- the logins between a select that found rows and their delete -/
  pending : List MailLogin
  /-- the logins behind that, whose replies are not serialised yet -/
  building : List MailLogin
  /-- the logins whose replies were sent -/
  replies : List MailLogin
  deriving DecidableEq

inductive MailStep
  | insert (userid : Int32) (msg : Bytes)
  | select (server : Nat) (isEncrypted : Bool) (user : User) (msgId : Int32)
  | delete (k : Nat)
  /-- What is left of the `k`-th login in `building`, which its own statements give
  these friends and groups. -/
  | finish (k : Nat) (friends : List User) (groups : List Group)

namespace MailLogin

/-- The text of the reply, unless a `dump` on the way to it throws. -/
def reply (codec : JsonCodec) (friends : List User) (groups : List Group) (p : MailLogin) :
    Option Bytes :=
  (dumpAll (friendEntry codec) friends).bind fun vec2 =>
    (dumpAll (groupEntry codec) groups).bind fun groupV =>
      codec.dump (loginResponse p.user p.msgId (p.vec.map (·.text)) vec2 groupV)

/-- Every text that the reply carries. -/
def texts (friends : List User) (groups : List Group) (p : MailLogin) : List Bytes :=
  p.user.name :: (p.vec.map (·.text) ++ friends.flatMap friendTexts ++ groups.flatMap groupTexts)

def rows (p : MailLogin) : List MailRow := p.vec.map (p.user.id, ·)

theorem reply_isSome {codec : JsonCodec} (hc : codec.Lawful) (friends : List User)
    (groups : List Group) (p : MailLogin) :
    (p.reply codec friends groups).isSome = (p.texts friends groups).all validUtf8 := by
  rw [texts, ← loginResponse_dumps hc p.user p.msgId]
  rfl

end MailLogin

namespace Mailbox

def empty : Mailbox := ⟨[], [], [], [], []⟩

/-- The row of the next insert. -/
def nextMail (msg : Bytes) (b : Mailbox) : Mail := ⟨b.inserted.length, cStr msg⟩

def insert (userid : Int32) (msg : Bytes) (b : Mailbox) : Mailbox :=
  { b with
    table := b.table.insert userid (b.nextMail msg)
    inserted := b.inserted ++ [(userid, b.nextMail msg)] }

/-- The select of a login puts what it found into the reply. It deletes if it
found anything. -/
def select (server : Nat) (isEncrypted : Bool) (user : User) (msgId : Int32) (b : Mailbox) :
    Mailbox :=
  let p : MailLogin := ⟨server, isEncrypted, user, msgId, b.table.query user.id⟩
  if p.vec = [] then { b with building := b.building ++ [p] }
  else { b with pending := b.pending ++ [p] }

/-- The delete of the `k`-th waiting login. -/
def delete (k : Nat) (b : Mailbox) : Option Mailbox :=
  (b.pending[k]?).map fun p =>
    { b with
      table := b.table.remove p.user.id
      pending := b.pending.eraseIdx k
      building := b.building ++ [p] }

/-- A `dump` of the `k`-th login in `building` throws. Behind an encrypted
request this ends the process, and every login that it runs. -/
def abort (k : Nat) (p : MailLogin) (b : Mailbox) : Mailbox :=
  if p.isEncrypted then
    { b with
      pending := b.pending.filter (·.server ≠ p.server)
      building := b.building.filter (·.server ≠ p.server) }
  else { b with building := b.building.eraseIdx k }

def finish (codec : JsonCodec) (k : Nat) (friends : List User) (groups : List Group)
    (b : Mailbox) : Option Mailbox :=
  (b.building[k]?).map fun p =>
    match p.reply codec friends groups with
    | some _ => { b with building := b.building.eraseIdx k, replies := b.replies ++ [p] }
    | none => b.abort k p

def step (codec : JsonCodec) (b : Mailbox) : MailStep → Option Mailbox
  | .insert userid msg =>
      if fits (OfflineMsgModel.insertSql userid msg) then some (b.insert userid msg) else none
  | .select server isEncrypted user msgId => some (b.select server isEncrypted user msgId)
  | .delete k => b.delete k
  | .finish k friends groups => b.finish codec k friends groups

def machine (codec : JsonCodec) : Machine Mailbox MailStep where
  init := (· = empty)
  step := step codec

variable {codec : JsonCodec}

theorem abort_fields (b : Mailbox) (k : Nat) (p : MailLogin) :
    (b.abort k p).table = b.table ∧ (b.abort k p).inserted = b.inserted ∧
      (b.abort k p).replies = b.replies ∧ (b.abort k p).pending.Sublist b.pending := by
  unfold abort
  split
  · exact ⟨rfl, rfl, rfl, List.filter_sublist⟩
  · exact ⟨rfl, rfl, rfl, List.Sublist.refl _⟩

/-! ## The rows of the source -/

/-- The table as the database has it. -/
def untag (t : OfflineTable Mail) : OfflineTable Bytes := t.map fun r => (r.1, r.2.text)

theorem untag_insert (userid : Int32) (m : Mail) (t : OfflineTable Mail) :
    untag (t.insert userid m) = (untag t).insert userid m.text := by
  simp [untag, OfflineTable.insert]

theorem untag_remove (userid : Int32) (t : OfflineTable Mail) :
    untag (t.remove userid) = (untag t).remove userid := by
  induction t with
  | nil => rfl
  | cons r t ih =>
    simp only [untag, OfflineTable.remove, List.map_cons, List.filter_cons] at ih ⊢
    split
    · rw [List.map_cons, ih]
    · exact ih

theorem query_untag (userid : Int32) (t : OfflineTable Mail) :
    (untag t).query userid = (t.query userid).map (·.text) := by
  induction t with
  | nil => rfl
  | cons r t ih =>
    simp only [untag, OfflineTable.query, List.map_cons, List.filter_cons] at ih ⊢
    split
    · rw [List.map_cons, List.map_cons, List.map_cons, ih]
    · exact ih

/-- An insert of the worker or of the observer is the mailbox's. -/
theorem insert_refines {b b' : Mailbox} {userid : Int32} {msg : Bytes} {db : Database}
    (hdb : db.offlinemessage = untag b.table)
    (h : b.step codec (.insert userid msg) = some b') :
    OfflineMsgModel.insert MySQL.up userid msg db =
      .ok { db with offlinemessage := untag b'.table } := by
  simp only [step] at h
  split at h
  · next hfit =>
    cases h
    rw [OfflineMsgModel.insert, if_pos hfit, if_pos ⟨rfl, rfl⟩, hdb]
    simp only [insert, untag_insert, nextMail]
  · cases h

theorem eraseIdx_length {α : Type} (l : List α) (a : α) : (l ++ [a]).eraseIdx l.length = l := by
  rw [List.eraseIdx_append_of_length_le (Nat.le_refl _)]
  simp

/-- The select and the delete of a login that nothing comes between. -/
theorem takeOffline_refines {b : Mailbox} {user : User} {my : Nat → MySQL}
    (hmy : ∀ k, my k = MySQL.up) {s : Server} (hdb : s.db.offlinemessage = untag b.table)
    (codec : JsonCodec) (server : Nat) (isEncrypted : Bool) (msgId : Int32) :
    ∃ steps b', (machine codec).exec b steps = some b' ∧
      (takeOffline my user.id s).1 = (b.table.query user.id).map (·.text) ∧
      (takeOffline my user.id s).2.db.offlinemessage = untag b'.table ∧
      b'.pending = b.pending ∧ b'.replies = b.replies ∧
      b'.building = b.building ++
        [⟨server, isEncrypted, user, msgId, b.table.query user.id⟩] := by
  have hquery : OfflineMsgModel.query (my 1) user.id s.db =
      (b.table.query user.id).map (·.text) := by
    rw [hmy 1, OfflineMsgModel.query, if_pos ⟨rfl, rfl⟩, hdb, query_untag]
  by_cases hvec : b.table.query user.id = []
  · refine ⟨[.select server isEncrypted user msgId], b.select server isEncrypted user msgId, rfl,
      hquery, ?_, ?_⟩
    · simp only [takeOffline, hquery, hvec, List.map_nil, ↓reduceIte, select]
      exact hdb
    · simp only [select, hvec, ↓reduceIte, and_self]
  · have hpend : (b.select server isEncrypted user msgId).pending[b.pending.length]? =
        some ⟨server, isEncrypted, user, msgId, b.table.query user.id⟩ := by
      simp [select, hvec]
    refine ⟨[.select server isEncrypted user msgId, .delete b.pending.length],
      { b.select server isEncrypted user msgId with
        table := b.table.remove user.id
        pending := (b.select server isEncrypted user msgId).pending.eraseIdx b.pending.length
        building := b.building ++
          [⟨server, isEncrypted, user, msgId, b.table.query user.id⟩] },
      ?_, hquery, ?_, ?_, ?_, rfl⟩
    · simp only [Machine.exec, machine, step, Option.bind_some, delete, hpend, Option.map_some]
      simp only [select, hvec, ↓reduceIte]
    · have hne : (b.table.query user.id).map (·.text) ≠ [] := by simpa using hvec
      simp only [takeOffline, hquery, if_neg hne, OfflineMsgModel.remove, hmy 2, MySQL.up,
        and_self, ↓reduceIte, hdb, untag_remove]
    · simp only [select, hvec, ↓reduceIte, eraseIdx_length]
    · simp only [select, hvec, ↓reduceIte]

/-- What an accepted login comes to, by the text of its reply. -/
theorem loginAccepted_reply (codec : JsonCodec) (my : Nat → MySQL) (conn : Conn) {user : User}
    {msgId : Int32} {s : Server} {p : MailLogin} (huser : p.user = user) (hid : p.msgId = msgId)
    (hvec : (takeOffline my user.id (openSession conn user.id user s)).1 = p.vec.map (·.text)) :
    loginAccepted codec my conn user.id user msgId s =
      match p.reply codec (FriendModel.query (my 3) user.id s.db)
        (GroupModel.queryGroups (my 4) user.id s.db) with
      | some text =>
          { state := (takeOffline my user.id (openSession conn user.id user s)).2.send conn
              (groupChatFrame text msgId) }
      | none =>
          { state := (takeOffline my user.id (openSession conn user.id user s)).2
            thrown := some .invalidUtf8 } := by
  subst huser hid
  have hview : loginView codec my p.user.id (takeOffline my p.user.id
      (openSession conn p.user.id p.user s)).2.db = loginView codec my p.user.id s.db := by
    rw [loginView_takeOffline, openSession_db]
  simp only [loginAccepted, hview, hvec]
  simp only [loginView, MailLogin.reply]
  cases dumpAll (friendEntry codec) (FriendModel.query (my 3) p.user.id s.db) with
  | none => rfl
  | some vec2 =>
    cases dumpAll (groupEntry codec) (GroupModel.queryGroups (my 4) p.user.id s.db) with
    | none => rfl
    | some groupV =>
      simp only [Option.bind_some, Option.map_some, respond]
      cases codec.dump (loginResponse p.user p.msgId (p.vec.map (·.text)) vec2 groupV) <;> rfl

/-- A login that nothing interrupts is the select, the delete and the rest in a
row: its reply is sent, or its exception leaves the reply unsent. -/
theorem loginAccepted_refines {b : Mailbox} {user : User} {my : Nat → MySQL}
    (hmy : ∀ k, my k = MySQL.up) {s : Server} (hdb : s.db.offlinemessage = untag b.table)
    (codec : JsonCodec) (conn : Conn) (server : Nat) (isEncrypted : Bool) (msgId : Int32) :
    ∃ steps b', (machine codec).exec b steps = some b' ∧
      (loginAccepted codec my conn user.id user msgId s).state.db.offlinemessage =
        untag b'.table ∧
      ((loginAccepted codec my conn user.id user msgId s).thrown = none → b'.replies =
        b.replies ++ [⟨server, isEncrypted, user, msgId, b.table.query user.id⟩]) ∧
      ((loginAccepted codec my conn user.id user msgId s).thrown ≠ none →
        b'.replies = b.replies) := by
  have hopen : (openSession conn user.id user s).db.offlinemessage = untag b.table := by
    rw [openSession_db, hdb]
  obtain ⟨steps, b₁, hexec, hvec, htable, -, hreplies, hbuilding⟩ :=
    takeOffline_refines hmy hopen codec server isEncrypted msgId
  have hout := loginAccepted_reply codec my conn
    (p := ⟨server, isEncrypted, user, msgId, b.table.query user.id⟩) rfl rfl hvec
  have hlast : b₁.building[b.building.length]? =
      some ⟨server, isEncrypted, user, msgId, b.table.query user.id⟩ := by
    rw [hbuilding]
    simp
  let last : MailStep := .finish b.building.length (FriendModel.query (my 3) user.id s.db)
    (GroupModel.queryGroups (my 4) user.id s.db)
  cases hreply : MailLogin.reply codec (FriendModel.query (my 3) user.id s.db)
      (GroupModel.queryGroups (my 4) user.id s.db)
      ⟨server, isEncrypted, user, msgId, b.table.query user.id⟩ with
  | some text =>
    rw [hreply] at hout
    refine ⟨steps ++ [last], { b₁ with
      building := b₁.building.eraseIdx b.building.length
      replies := b₁.replies ++
        [⟨server, isEncrypted, user, msgId, b.table.query user.id⟩] }, ?_, ?_, ?_, ?_⟩
    · rw [Machine.exec_append, hexec]
      simp only [Option.bind_some, Machine.exec, machine, step, last, finish, hlast,
        Option.map_some, hreply]
    · rw [hout]
      exact htable
    · intro _
      rw [hreplies]
    · intro hthrown
      rw [hout] at hthrown
      exact absurd rfl hthrown
  | none =>
    rw [hreply] at hout
    obtain ⟨htable', -, hreplies', -⟩ := abort_fields b₁ b.building.length
      ⟨server, isEncrypted, user, msgId, b.table.query user.id⟩
    refine ⟨steps ++ [last], b₁.abort b.building.length
      ⟨server, isEncrypted, user, msgId, b.table.query user.id⟩, ?_, ?_, ?_, ?_⟩
    · rw [Machine.exec_append, hexec]
      simp only [Option.bind_some, Machine.exec, machine, step, last, finish, hlast,
        Option.map_some, hreply]
    · rw [hout, htable']
      exact htable
    · intro hthrown
      rw [hout] at hthrown
      cases hthrown
    · intro _
      rw [hreplies', hreplies]

/-! ## The hand-over -/

def rowsOf (l : List MailLogin) : List MailRow := l.flatMap MailLogin.rows

/-- Every message in a reply, begun or sent, with the user the reply is for. -/
def handed (b : Mailbox) : List MailRow := rowsOf (b.pending ++ b.building ++ b.replies)

/-- Every inserted message is in the table or in exactly one reply to its user,
no message is in two, and replies contain nothing else. -/
structure HandedOver (b : Mailbox) : Prop where
  kept : ∀ r ∈ b.inserted, r ∈ b.table ∨ b.handed.count r = 1
  once : ∀ r, b.handed.count r ≤ 1
  own : ∀ r ∈ b.handed, r ∈ b.inserted

/-- The logins behind their deletes that end when a `dump` of `p` throws. -/
def endedWith (p : MailLogin) (b : Mailbox) : List MailLogin :=
  if p.isEncrypted then b.building.filter (·.server = p.server) else [p]

/-- A select finds no login of the user between its select and its delete, a
delete removes nothing that its login has not read, and a reply can be
serialised, or no login that ends with it has read anything. -/
def Undisturbed (b : Mailbox) : MailStep → Prop
  | .insert _ _ => True
  | .select _ _ user _ => ∀ p ∈ b.pending, p.user.id ≠ user.id
  | .delete k => ∀ p, b.pending[k]? = some p → ∀ m ∈ b.table.query p.user.id, m ∈ p.vec
  | .finish k friends groups => ∀ p, b.building[k]? = some p →
      (p.texts friends groups).all validUtf8 ∨ ∀ q ∈ b.endedWith p, q.vec = []

/-! ## Counting rows -/

theorem count_query (u : Int32) (t : OfflineTable Mail) (r : MailRow) :
    ((t.query u).map (u, ·)).count r = if r.1 = u then t.count r else 0 := by
  induction t with
  | nil => simp [OfflineTable.query]
  | cons q t ih =>
    simp only [OfflineTable.query] at ih ⊢
    by_cases hq : q.1 = u
    · have hpair : (u, q.2) = q := by rw [← hq]
      simp only [List.filter_cons, hq, decide_true, ↓reduceIte, List.map_cons, List.count_cons, ih,
        hpair, beq_iff_eq]
      by_cases hr : r.1 = u
      · rw [if_pos hr, if_pos hr]
      · have hne : q ≠ r := fun h => hr (h ▸ hq)
        rw [if_neg hr, if_neg hr, if_neg hne]
    · simp only [List.filter_cons, hq, decide_false, Bool.false_eq_true, ↓reduceIte, ih,
        List.count_cons, beq_iff_eq]
      by_cases hr : r.1 = u
      · have hne : q ≠ r := fun h => hq (h ▸ hr)
        rw [if_pos hr, if_pos hr, if_neg hne, Nat.add_zero]
      · rw [if_neg hr, if_neg hr]

theorem count_remove (u : Int32) (t : OfflineTable Mail) (r : MailRow) :
    (t.remove u).count r = if r.1 = u then 0 else t.count r := by
  unfold OfflineTable.remove
  split
  · next h => exact List.count_eq_zero.mpr (by simp [h])
  · next h => exact List.count_filter (by simpa using h)

theorem mem_query {u : Int32} {m : Mail} {t : OfflineTable Mail} :
    m ∈ t.query u ↔ (u, m) ∈ t := by
  simp only [OfflineTable.query, List.mem_map, List.mem_filter, decide_eq_true_eq]
  constructor
  · rintro ⟨⟨k, m⟩, ⟨hmem, rfl⟩, rfl⟩
    exact hmem
  · intro h
    exact ⟨(u, m), ⟨h, rfl⟩, rfl⟩

theorem rowsOf_append (l l' : List MailLogin) : rowsOf (l ++ l') = rowsOf l ++ rowsOf l' :=
  List.flatMap_append

theorem rowsOf_singleton (p : MailLogin) : rowsOf [p] = p.rows := List.flatMap_singleton ..

theorem mem_rows {p : MailLogin} {m : Mail} (h : m ∈ p.vec) : (p.user.id, m) ∈ p.rows :=
  List.mem_map_of_mem h

theorem count_handed (b : Mailbox) (r : MailRow) :
    b.handed.count r =
      (rowsOf b.pending).count r + (rowsOf b.building).count r + (rowsOf b.replies).count r := by
  rw [handed, rowsOf_append, rowsOf_append, List.count_append, List.count_append]

/-- Taking one login out of the list takes its rows out. -/
theorem count_eraseIdx {l : List MailLogin} {k : Nat} {p : MailLogin} (h : l[k]? = some p)
    (r : MailRow) :
    (rowsOf l).count r = (rowsOf (l.eraseIdx k)).count r + p.rows.count r := by
  induction l generalizing k with
  | nil => simp at h
  | cons q l ih =>
    cases k with
    | zero =>
      cases h
      simp [rowsOf, Nat.add_comm]
    | succ k =>
      have hl := ih h
      simp only [rowsOf, List.flatMap_cons, List.count_append, List.eraseIdx_cons_succ] at hl ⊢
      omega

/-- Some logins have their rows, and the others theirs. -/
theorem count_filter (l : List MailLogin) (f : MailLogin → Bool) (r : MailRow) :
    (rowsOf l).count r =
      (rowsOf (l.filter fun p => !f p)).count r + (rowsOf (l.filter f)).count r := by
  induction l with
  | nil => rfl
  | cons p l ih =>
    simp only [rowsOf, List.flatMap_cons, List.count_append] at ih ⊢
    cases hp : f p <;> simp [hp, ih] <;> omega

theorem count_rowsOf_eq_zero {l : List MailLogin} {r : MailRow}
    (h : ∀ p ∈ l, p.user.id ≠ r.1) : (rowsOf l).count r = 0 := by
  rw [List.count_eq_zero]
  intro hr
  obtain ⟨p, hp, hm⟩ := List.mem_flatMap.mp hr
  obtain ⟨m, -, rfl⟩ := List.mem_map.mp hm
  exact h p hp rfl

theorem count_rows_ne {p : MailLogin} {r : MailRow} (h : r.1 ≠ p.user.id) :
    p.rows.count r = 0 := by
  rw [List.count_eq_zero]
  intro hr
  obtain ⟨m, -, rfl⟩ := List.mem_map.mp hr
  exact h rfl

theorem count_rowsOf_nil {l : List MailLogin} (h : ∀ p ∈ l, p.vec = []) (r : MailRow) :
    (rowsOf l).count r = 0 := by
  rw [List.count_eq_zero]
  intro hr
  obtain ⟨p, hp, hm⟩ := List.mem_flatMap.mp hr
  rw [MailLogin.rows, h p hp] at hm
  cases hm

/-- No other login of a user waits beside the `k`-th. -/
theorem eraseIdx_ne {l : List MailLogin} {k : Nat} {p q : MailLogin}
    (hn : (l.map (·.user.id)).Nodup) (h : l[k]? = some p) (hq : q ∈ l.eraseIdx k) :
    q.user.id ≠ p.user.id := by
  induction l generalizing k with
  | nil => simp at h
  | cons a l ih =>
    rw [List.map_cons, List.nodup_cons] at hn
    cases k with
    | zero =>
      cases h
      intro he
      exact hn.1 (List.mem_map.mpr ⟨q, hq, he⟩)
    | succ k =>
      rcases List.mem_cons.mp hq with rfl | hq
      · intro he
        exact hn.1 (List.mem_map.mpr ⟨p, List.mem_of_getElem? h, he.symm⟩)
      · exact ih hn.2 h hq

/-- The rows that end with `p` are those that `building` loses. -/
theorem count_abort {b : Mailbox} {k : Nat} {p : MailLogin} (hp : b.building[k]? = some p)
    (r : MailRow) :
    (rowsOf b.building).count r =
      (rowsOf (b.abort k p).building).count r + (rowsOf (b.endedWith p)).count r := by
  unfold abort endedWith
  split
  · simpa using count_filter b.building (·.server = p.server) r
  · rw [rowsOf_singleton]
    exact count_eraseIdx hp r

/-! ## The ledger -/

/-- Every inserted row is in one place: the table, a login behind its delete or
a sent reply. What waits for a delete is in the table. -/
structure Ledger (b : Mailbox) : Prop where
  balance : ∀ r, b.table.count r + (rowsOf b.building).count r + (rowsOf b.replies).count r =
    b.inserted.count r
  waiting : ∀ r, (rowsOf b.pending).count r ≤ b.table.count r
  fresh : b.inserted.Nodup
  tags : ∀ r ∈ b.inserted, r.2.tag < b.inserted.length
  alone : (b.pending.map (·.user.id)).Nodup
  found : ∀ p ∈ b.pending, p.vec ≠ []

namespace Ledger

variable {b b' : Mailbox}

theorem handedOver (h : Ledger b) : HandedOver b := by
  have hfresh := fun r => List.nodup_iff_count_le_one.mp h.fresh r
  refine ⟨fun r hr => ?_, fun r => ?_, fun r hr => ?_⟩
  · have hi := List.count_pos_iff.mpr hr
    have hb := h.balance r
    have hw := h.waiting r
    have hf := hfresh r
    by_cases ht : r ∈ b.table
    · exact Or.inl ht
    · have h0 := List.count_eq_zero.mpr ht
      rw [count_handed]
      exact Or.inr (by omega)
  · have hb := h.balance r
    have hw := h.waiting r
    have hf := hfresh r
    rw [count_handed]
    omega
  · have hi := List.count_pos_iff.mpr hr
    have hb := h.balance r
    have hw := h.waiting r
    rw [count_handed] at hi
    exact List.count_pos_iff.mp (by omega)

theorem empty : Ledger Mailbox.empty :=
  ⟨fun _ => rfl, fun _ => Nat.le_refl 0, List.nodup_nil, by simp [Mailbox.empty],
    List.nodup_nil, by simp [Mailbox.empty]⟩

/-- The new row has a tag of its own. -/
theorem insert (h : Ledger b) (userid : Int32) (msg : Bytes) : Ledger (b.insert userid msg) := by
  have hnew : (userid, b.nextMail msg) ∉ b.inserted := fun hmem =>
    Nat.lt_irrefl _ (h.tags _ hmem)
  refine ⟨fun r => ?_, fun r => ?_, ?_, ?_, h.alone, h.found⟩
  · have hb := h.balance r
    simp only [Mailbox.insert, OfflineTable.insert, List.count_append] at hb ⊢
    omega
  · have hw := h.waiting r
    simp only [Mailbox.insert, OfflineTable.insert, List.count_append]
    omega
  · simp only [Mailbox.insert]
    rw [List.nodup_append]
    refine ⟨h.fresh, List.nodup_singleton _, fun r hr q hq => ?_⟩
    cases List.mem_singleton.mp hq
    rintro rfl
    exact hnew hr
  · intro r hr
    simp only [Mailbox.insert, List.length_append, List.length_singleton] at hr ⊢
    rcases List.mem_append.mp hr with hr | hr
    · exact Nat.lt_succ_of_lt (h.tags r hr)
    · cases List.mem_singleton.mp hr
      exact Nat.lt_succ_self _

section
variable (server : Nat) (isEncrypted : Bool) (user : User) (msgId : Int32)

theorem pending_select (b : Mailbox) (r : MailRow) :
    (rowsOf (b.select server isEncrypted user msgId).pending).count r =
      (rowsOf b.pending).count r + if r.1 = user.id then b.table.count r else 0 := by
  rw [← count_query]
  simp only [Mailbox.select]
  split
  · next hvec => rw [hvec]; rfl
  · rw [rowsOf_append, rowsOf_singleton, List.count_append]
    rfl

theorem building_select (b : Mailbox) (r : MailRow) :
    (rowsOf (b.select server isEncrypted user msgId).building).count r =
      (rowsOf b.building).count r := by
  simp only [Mailbox.select]
  split
  · next hvec =>
    rw [rowsOf_append, rowsOf_singleton, List.count_append, MailLogin.rows, hvec]
    rfl
  · rfl

theorem select_fields (b : Mailbox) :
    (b.select server isEncrypted user msgId).table = b.table ∧
      (b.select server isEncrypted user msgId).inserted = b.inserted ∧
      (b.select server isEncrypted user msgId).replies = b.replies := by
  simp only [Mailbox.select]
  split <;> exact ⟨rfl, rfl, rfl⟩

theorem select (h : Ledger b) (hok : ∀ p ∈ b.pending, p.user.id ≠ user.id) :
    Ledger (b.select server isEncrypted user msgId) := by
  obtain ⟨htable, hinserted, hreplies⟩ := select_fields server isEncrypted user msgId b
  have hnone : ∀ r : MailRow, r.1 = user.id → (rowsOf b.pending).count r = 0 := fun r hr =>
    count_rowsOf_eq_zero fun p hp he => hok p hp (he.trans hr)
  refine ⟨fun r => ?_, fun r => ?_, hinserted ▸ h.fresh, ?_, ?_, ?_⟩
  · rw [building_select, htable, hinserted, hreplies]
    exact h.balance r
  · have hw := h.waiting r
    rw [pending_select, htable]
    split
    · next hr =>
      have hz := hnone r hr
      omega
    · exact hw
  · rw [hinserted]
    exact h.tags
  · simp only [Mailbox.select]
    split
    · exact h.alone
    · rw [List.map_append, List.nodup_append]
      refine ⟨h.alone, List.nodup_singleton _, fun k hk q hq => ?_⟩
      cases List.mem_singleton.mp hq
      obtain ⟨p, hp, rfl⟩ := List.mem_map.mp hk
      exact hok p hp
  · simp only [Mailbox.select]
    split
    · exact h.found
    · next hvec =>
      intro p hp
      rcases List.mem_append.mp hp with hp | hp
      · exact h.found p hp
      · cases List.mem_singleton.mp hp
        exact hvec

end

/-- What waits of a user's rows is what the `k`-th login has read. -/
theorem pending_rows (h : Ledger b) {k : Nat} {p : MailLogin} (hp : b.pending[k]? = some p)
    {r : MailRow} (hr : r.1 = p.user.id) : (rowsOf b.pending).count r = p.rows.count r := by
  have he := count_eraseIdx hp r
  have h0 : (rowsOf (b.pending.eraseIdx k)).count r = 0 :=
    count_rowsOf_eq_zero fun q hq he => eraseIdx_ne h.alone hp hq (he.trans hr)
  omega

theorem delete (h : Ledger b) {k : Nat} {p : MailLogin} (hp : b.pending[k]? = some p)
    (hok : ∀ m ∈ b.table.query p.user.id, m ∈ p.vec) :
    Ledger { b with
      table := b.table.remove p.user.id
      pending := b.pending.eraseIdx k
      building := b.building ++ [p] } := by
  -- the rows of the user are those the login has read
  have hread : ∀ r : MailRow, r.1 = p.user.id → b.table.count r = p.rows.count r := by
    intro r hr
    have hw := h.waiting r
    have hmine := h.pending_rows hp hr
    have hb := h.balance r
    have hf := List.nodup_iff_count_le_one.mp h.fresh r
    by_cases ht : r ∈ b.table
    · have hmem : r ∈ p.rows :=
        List.mem_map.mpr ⟨r.2, hok r.2 (mem_query.mpr (hr ▸ ht)), by rw [← hr]⟩
      have hv := List.count_pos_iff.mpr hmem
      omega
    · have h0 := List.count_eq_zero.mpr ht
      omega
  refine ⟨fun r => ?_, fun r => ?_, h.fresh, h.tags, ?_, ?_⟩
  · have hb := h.balance r
    simp only [count_remove, rowsOf_append, rowsOf_singleton, List.count_append]
    split
    · next hr =>
      have h1 := hread r hr
      omega
    · next hr =>
      have h0 := count_rows_ne hr
      omega
  · have hw := h.waiting r
    have he := count_eraseIdx hp r
    simp only [count_remove]
    split
    · next hr =>
      have hmine := h.pending_rows hp hr
      omega
    · omega
  · exact h.alone.sublist ((List.eraseIdx_sublist _ _).map _)
  · exact fun q hq => h.found q (List.mem_of_mem_eraseIdx hq)

/-- Logins that end take nothing with them if they have read nothing. -/
theorem abort (h : Ledger b) {k : Nat} {p : MailLogin} (hp : b.building[k]? = some p)
    (hok : ∀ q ∈ b.endedWith p, q.vec = []) : Ledger (b.abort k p) := by
  have hbuilding : ∀ r, (rowsOf (b.abort k p).building).count r = (rowsOf b.building).count r := by
    intro r
    have hcount := count_abort hp r
    have hnone := count_rowsOf_nil hok r
    omega
  obtain ⟨htable, hinserted, hreplies, hpending⟩ := abort_fields b k p
  refine ⟨fun r => ?_, fun r => ?_, hinserted ▸ h.fresh, hinserted ▸ h.tags,
    h.alone.sublist (hpending.map _), fun q hq => h.found q (hpending.subset hq)⟩
  · rw [hbuilding, htable, hinserted, hreplies]
    exact h.balance r
  · rw [htable]
    exact ((hpending.flatMap MailLogin.rows).count_le r).trans (h.waiting r)

theorem answered (h : Ledger b) {k : Nat} {p : MailLogin} (hp : b.building[k]? = some p) :
    Ledger { b with building := b.building.eraseIdx k, replies := b.replies ++ [p] } := by
  refine ⟨fun r => ?_, h.waiting, h.fresh, h.tags, h.alone, h.found⟩
  have hb := h.balance r
  have he := count_eraseIdx hp r
  simp only [rowsOf_append, rowsOf_singleton, List.count_append]
  omega

/-! ### Disturbed steps -/

/-- A row that a login has read but not deleted is handed over twice if it is
selected again. -/
theorem select_twice (h : Ledger b) {p : MailLogin} (hp : p ∈ b.pending) {server : Nat}
    {isEncrypted : Bool} {user : User} {msgId : Int32} (he : p.user.id = user.id) :
    ¬ HandedOver (b.select server isEncrypted user msgId) := by
  intro hover
  obtain ⟨m, hm⟩ := List.exists_mem_of_ne_nil _ (h.found p hp)
  have hrow : (p.user.id, m) ∈ rowsOf b.pending := List.mem_flatMap.mpr ⟨p, hp, mem_rows hm⟩
  have hpos := List.count_pos_iff.mpr hrow
  have hw := h.waiting (p.user.id, m)
  have honce := hover.once (p.user.id, m)
  rw [count_handed, pending_select, if_pos he] at honce
  omega

/-- A row that a delete removes unread is nowhere. -/
theorem delete_unread (h : Ledger b) {k : Nat} {p : MailLogin} (hp : b.pending[k]? = some p)
    {m : Mail} (hm : m ∈ b.table.query p.user.id) (hnot : m ∉ p.vec) :
    ¬ HandedOver { b with
      table := b.table.remove p.user.id
      pending := b.pending.eraseIdx k
      building := b.building ++ [p] } := by
  intro hover
  have ht := List.count_pos_iff.mpr (mem_query.mp hm)
  have hb := h.balance (p.user.id, m)
  have hf := List.nodup_iff_count_le_one.mp h.fresh (p.user.id, m)
  have hunread : p.rows.count (p.user.id, m) = 0 := by
    rw [List.count_eq_zero]
    intro hmem
    obtain ⟨m', hm', heq⟩ := List.mem_map.mp hmem
    cases heq
    exact hnot hm'
  have hmine := h.pending_rows hp (r := (p.user.id, m)) rfl
  have he := count_eraseIdx hp (p.user.id, m)
  have hins : (p.user.id, m) ∈ b.inserted := List.count_pos_iff.mp (by omega)
  rcases hover.kept _ hins with hkept | hone
  · have hgone := count_remove p.user.id b.table (p.user.id, m)
    rw [if_pos rfl] at hgone
    exact List.count_eq_zero.mp hgone hkept
  · rw [count_handed] at hone
    simp only [rowsOf_append, rowsOf_singleton, List.count_append] at hone
    omega

/-- A row in a reply that comes to nothing is nowhere. -/
theorem abort_read (h : Ledger b) {k : Nat} {p q : MailLogin} (hp : b.building[k]? = some p)
    (hq : q ∈ b.endedWith p) (hread : q.vec ≠ []) : ¬ HandedOver (b.abort k p) := by
  intro hover
  obtain ⟨m, hm⟩ := List.exists_mem_of_ne_nil _ hread
  have hended : (q.user.id, m) ∈ rowsOf (b.endedWith p) :=
    List.mem_flatMap.mpr ⟨q, hq, mem_rows hm⟩
  have hpos := List.count_pos_iff.mpr hended
  have hcount := count_abort hp (q.user.id, m)
  have hb := h.balance (q.user.id, m)
  have hw := h.waiting (q.user.id, m)
  have hf := List.nodup_iff_count_le_one.mp h.fresh (q.user.id, m)
  have hins : (q.user.id, m) ∈ b.inserted := List.count_pos_iff.mp (by omega)
  obtain ⟨htable, hinserted, hreplies, hpending⟩ := abort_fields b k p
  have hless : (rowsOf (b.abort k p).pending).count (q.user.id, m) ≤
      (rowsOf b.pending).count (q.user.id, m) := (hpending.flatMap MailLogin.rows).count_le _
  rcases hover.kept _ (hinserted ▸ hins) with hkept | hone
  · have hin := List.count_pos_iff.mpr (htable ▸ hkept)
    omega
  · rw [count_handed, hreplies] at hone
    omega

/-- A step keeps the ledger if it is undisturbed, and one that is not hands a
message over twice or loses one. -/
theorem step (hc : codec.Lawful) (h : Ledger b) {l : MailStep} (hs : b.step codec l = some b') :
    (Undisturbed b l → Ledger b') ∧ (HandedOver b' → Undisturbed b l) := by
  cases l with
  | insert userid msg =>
    simp only [Mailbox.step] at hs
    split at hs
    · cases hs
      exact ⟨fun _ => h.insert userid msg, fun _ => trivial⟩
    · cases hs
  | select server isEncrypted user msgId =>
    cases hs
    exact ⟨h.select server isEncrypted user msgId,
      fun hover p hp he => h.select_twice hp he hover⟩
  | delete k =>
    obtain ⟨p, hp, rfl⟩ := Option.map_eq_some_iff.mp hs
    refine ⟨fun hok => h.delete hp (hok p hp), fun hover q hq m hm => ?_⟩
    cases Option.some.inj (hp.symm.trans hq)
    by_contra hnot
    exact h.delete_unread hp hm hnot hover
  | finish k friends groups =>
    obtain ⟨p, hp, rfl⟩ := Option.map_eq_some_iff.mp hs
    have hdumps := p.reply_isSome hc friends groups
    have hsame : ∀ q, b.building[k]? = some q → q = p := fun q hq =>
      Option.some.inj (hq.symm.trans hp)
    cases hreply : p.reply codec friends groups with
    | some text =>
      rw [hreply, Option.isSome_some] at hdumps
      refine ⟨fun _ => h.answered hp, fun _ q hq => Or.inl ?_⟩
      rw [hsame q hq]
      exact hdumps.symm
    | none =>
      rw [hreply, Option.isSome_none] at hdumps
      refine ⟨fun hok => h.abort hp ((hok p hp).resolve_left ?_),
        fun hover q hq => Or.inr fun q' hq' => ?_⟩
      · rw [← hdumps]
        exact Bool.false_ne_true
      · by_contra hread
        rw [hsame q hq] at hq'
        exact h.abort_read hp hq' hread hover

end Ledger

/-- The hand-over is exact in every run whose steps are all undisturbed, and the
first step that is not undisturbed breaks it. -/
theorem handedOver_iff (hc : codec.Lawful) {b : Mailbox} (h : (machine codec).Run Undisturbed b) :
    HandedOver b ∧ ∀ l b', b.step codec l = some b' → (HandedOver b' ↔ Undisturbed b l) := by
  have hledger : Ledger b := by
    refine h.invariant ?_ fun b l b' hi hok hs => (hi.step hc hs).1 hok
    rintro b rfl
    exact Ledger.empty
  refine ⟨hledger.handedOver, fun l b' hs => ⟨(hledger.step hc hs).2, fun hok => ?_⟩⟩
  exact ((hledger.step hc hs).1 hok).handedOver

/-! ## Runs -/

def reader : User := { id := 2, name := lit "li", password := lit "pw" }

/-- The login of user 2 that reads the first message. -/
def readerLogin : MailLogin := ⟨0, true, reader, 7, [⟨0, lit "a"⟩]⟩

def mailA : MailRow := (2, ⟨0, lit "a"⟩)
def mailB : MailRow := (2, ⟨1, lit "b"⟩)

/-- A message for user 2 arrives, user 2 logs in, another one arrives behind the
delete, and the login is answered. -/
theorem handedOver_read : HandedOver ⟨[mailB], [mailA, mailB], [], [], [readerLogin]⟩ := by
  have harrived : (machine JsonText.codec).Run Undisturbed ⟨[mailA], [mailA], [], [], []⟩ :=
    .next (l := .insert 2 (lit "a")) (.start rfl) (by trivial) (by decide +kernel)
  have hselected : (machine JsonText.codec).Run Undisturbed
      ⟨[mailA], [mailA], [readerLogin], [], []⟩ := by
    refine .next (l := .select 0 true reader 7) harrived ?_ (by decide +kernel)
    simp [Undisturbed]
  have hdeleted :
      (machine JsonText.codec).Run Undisturbed ⟨[], [mailA], [], [readerLogin], []⟩ := by
    refine .next (l := .delete 0) hselected ?_ (by decide +kernel)
    intro p hp m hm
    cases hp
    exact hm
  have hbehind : (machine JsonText.codec).Run Undisturbed
      ⟨[mailB], [mailA, mailB], [], [readerLogin], []⟩ :=
    .next (l := .insert 2 (lit "b")) hdeleted (by trivial) (by decide +kernel)
  have hanswered : (machine JsonText.codec).Run Undisturbed
      ⟨[mailB], [mailA, mailB], [], [], [readerLogin]⟩ := by
    refine .next (l := .finish 0 [] []) hbehind ?_ (by decide +kernel)
    intro p hp
    cases hp
    exact Or.inl (by decide +kernel)
  exact (handedOver_iff JsonText.codec_lawful hanswered).1

/-- A message that arrives between the select and the delete is deleted unread. -/
theorem mail_lost_unread :
    ¬ ∀ b, (machine JsonText.codec).Reachable b → HandedOver b := by
  intro h
  have hexec : (machine JsonText.codec).exec empty [.insert 2 (lit "a"), .select 0 true reader 7,
      .insert 2 (lit "b"), .delete 0] = some ⟨[], [mailA, mailB], [], [readerLogin], []⟩ := by
    decide +kernel
  have hover := h _ (Machine.Run.exec (.start rfl) (fun _ _ _ => trivial) hexec)
  rcases hover.kept mailB (by simp) with hkept | hone
  · simp at hkept
  · revert hone
    decide

end Mailbox

end MyChat
