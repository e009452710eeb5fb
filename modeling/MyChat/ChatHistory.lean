import MyChat.Forwarding
import MyChat.Lib.SqliteText

/-! The client's local chat history. What the receiving thread shows of chats and
what it puts into the table: only chats in frames of their own, their contents
formatted unescaped into a statement of limited length. -/

namespace MyChat
open Json SqliteText
open SqlText (quote Value rowText valueText)

/-! ## The table and SQLite -/

/-- A row of `chathistory` without its number. -/
structure ChatRow where
  sendid : Int
  recvid : Int
  msgcontent : Bytes
  sendtime : Int
  msgtype : Int
  deriving DecidableEq, Repr

/-- The table `chathistory` in `client_chat.db`, if it has been created. -/
abbrev History := Option (List ChatRow)

/-- What `time(nullptr)` returns. -/
abbrev Seconds := { t : Nat // t < 2 ^ 63 }

/-- `sqlite3_exec`: the table after it, and whether it returned `SQLITE_OK`. -/
structure Sqlite where
  exec : Bytes → History → History × Bool

def createSql : Bytes :=
  lit "CREATE TABLE IF NOT EXISTS chathistory(id INTEGER PRIMARY KEY AUTOINCREMENT, " ++
    lit "sendid INT, recvid INT, msgcontent TEXT, sendtime INT, msgtype INT);"

def chatInsertHead : Bytes :=
  lit "INSERT INTO chathistory(sendid, recvid, msgcontent, sendtime, msgtype) VALUES("

/-- The statement without its semicolon. -/
def chatValues (sendId receiveId : Int32) (content : Bytes) (now : Seconds) (msgType : Int32) :
    Bytes :=
  chatInsertHead ++ dumpInt sendId.toInt ++ lit ", " ++ dumpInt receiveId.toInt ++ lit ", '" ++
    content ++ lit "', " ++ dumpNat now.val ++ lit ", " ++ dumpInt msgType.toInt ++ lit ")"

/-- What SQLite documents about the statements used here: a semicolon at the end
may be left out, a quote ends a literal unless doubled, and a statement that
breaks off before its end is an error. -/
structure Sqlite.Lawful (sq : Sqlite) : Prop where
  creates : ∀ h, sq.exec createSql h = (some (h.getD []), true)
  inserts : ∀ {sendId receiveId msgType : Int32} {now : Seconds} {literal content : Bytes}
    {rows : List ChatRow} {last : Bytes},
    denotes literal = some content → validUtf8 literal → 0 ∉ literal →
      last = [] ∨ last = lit ";" →
        sq.exec (chatValues sendId receiveId literal now msgType ++ last) (some rows) =
          (some (rows ++ [⟨sendId.toInt, receiveId.toInt, content, now.val, msgType.toInt⟩]), true)
  missing : ∀ {sendId receiveId msgType : Int32} {now : Seconds} {literal last : Bytes},
    (denotes literal).isSome → last = [] ∨ last = lit ";" →
      sq.exec (chatValues sendId receiveId literal now msgType ++ last) none = (none, false)
  incomplete : ∀ {sendId receiveId msgType : Int32} {now : Seconds} {literal sql rest : Bytes}
    {h : History}, (denotes literal).isSome → rest ≠ [] →
    sql ++ rest = chatValues sendId receiveId literal now msgType →
      (sq.exec sql h).1 = h

/-! ## Writing the history -/

/-- Whether `sqlite3_open` succeeds, and the time. -/
structure HistoryEnv where
  opens : Bool
  now : Seconds

/-- `snprintf` into a buffer of `n` bytes. -/
def snprintf (n : Nat) (text : Bytes) : Bytes := text.take (n - 1)

def sqliteInit (sq : Sqlite) (env : HistoryEnv) (h : History) : History × Bool :=
  if env.opens then sq.exec createSql h else (h, false)

def insertChatHistory (sq : Sqlite) (env : HistoryEnv) (content : Bytes)
    (sendId receiveId msgType : Int32) (h : History) : History × Bool :=
  if env.opens then
    sq.exec (snprintf 2048 (chatValues sendId receiveId (cStr content) env.now msgType ++ lit ";"))
    h
  else (h, false)

def clientInsertChat (sq : Sqlite) (env : HistoryEnv) (content : Bytes)
    (sendId receiveId msgType : Int32) (h : History) : History × Bool :=
  let r := insertChatHistory sq env content sendId receiveId msgType h
  if r.2 then (r.1, true) else (r.1, false)

/-! ## What is shown -/

/-- A chat on the screen. -/
structure Shown where
  arrival : Arrival
  js : Json
  msgtype : Int32

/-- The member that names the receiver or the group. -/
def receiverKey (msgtype : Int32) : String :=
  if msgtype = EnMsgType.oneChatMsg.val then "toid" else "groupid"

/-- `content`, and what is shown as `msg`. -/
def contentOf (js : Json) : Bytes := (js.stringAt (lit "msg")).getD []

def IsChat (msgtype : Int32) : Prop :=
  msgtype = EnMsgType.oneChatMsg.val ∨ msgtype = EnMsgType.groupChatMsg.val

instance (msgtype : Int32) : Decidable (IsChat msgtype) := by unfold IsChat; infer_instance

section
variable (codec : JsonCodec)

/-- The offline messages in turn, up to the first that cannot be read. -/
def shownOffline : List Bytes → List Shown
  | [] => []
  | text :: vec =>
      match showOfflineMsg codec text, codec.parse text with
      | .ok _, some js =>
          match js.intAt (lit "msgid") with
          | some msgtype =>
              if IsChat msgtype then ⟨.offlinemsg, js, msgtype⟩ :: shownOffline vec
              else shownOffline vec
          | none => shownOffline vec
      | _, _ => []

/-- `doLoginResponse` shows the messages when it gets as far. -/
def shownByLogin (responsejs : Json) (g : Globals) : List Shown :=
  match getAt getInt responsejs "errno" with
  | .error _ => []
  | .ok errno =>
      if errno ≠ 0 then []
      else
        match (((setCurrentUser responsejs g).andThen (setFriendList codec responsejs)).andThen
          (setGroupList codec responsejs)).thrown, guardedAt getStrings responsejs "offlinemsg" with
        | none, .ok vec => shownOffline codec (vec.getD [])
        | _, _ => []

/-- A chat in a frame of its own is on the screen once its last part, the text,
is. -/
def shownLive (js : Json) (msgtype : Int32) : List Shown :=
  match js.stringAt (lit "time"), js.stringAt (lit "name"), js.stringAt (lit "msg") with
  | some _, some _, some _ => [⟨.frame, js, msgtype⟩]
  | _, _, _ => []

/-- What `readTaskHandler` shows of chats for one message. -/
def shownBy (message : Bytes) (g : Globals) : List Shown :=
  match codec.parse message with
  | none => []
  | some js =>
      match ackOf js, js.intAt (lit "msgid") with
      | .ok _, some msgtype =>
          if IsChat msgtype then shownLive js msgtype
          else if msgtype = EnMsgType.loginMsgAck.val then shownByLogin codec js g
          else []
      | _, _ => []

/-- The part behind the screen: the ids are converted and the chat inserted. -/
def recordLive (sq : Sqlite) (env : HistoryEnv) (js : Json) (msgtype : Int32) (h : History) :
    History :=
  match showChat js (receiverKey msgtype), js.intAt (lit "id"),
    js.intAt (lit (receiverKey msgtype)) with
  | .ok _, some sendId, some receiveId =>
      (clientInsertChat sq env (contentOf js) sendId receiveId msgtype h).1
  | _, _, _ => h

/-- What `readTaskHandler` makes of the history for one message. -/
def recordedBy (sq : Sqlite) (env : HistoryEnv) (message : Bytes) (h : History) : History :=
  match codec.parse message with
  | none => h
  | some js =>
      match ackOf js, js.intAt (lit "msgid") with
      | .ok _, some msgtype => if IsChat msgtype then recordLive sq env js msgtype h else h
      | _, _ => h

end

/-! ## Complete histories -/

/-- The row holds the chat: sender, receiver or group, type and text. -/
structure ChatRow.Holds (r : ChatRow) (e : Shown) : Prop where
  sender : ∃ id, e.js.intAt (lit "id") = some id ∧ r.sendid = id.toInt
  receiver : ∃ id, e.js.intAt (lit (receiverKey e.msgtype)) = some id ∧ r.recvid = id.toInt
  type : r.msgtype = e.msgtype.toInt
  content : r.msgcontent = contentOf e.js

/-- The table gains one row for each chat on the screen, and no other. -/
def HistoryComplete (shown : List Shown) (h h' : History) : Prop :=
  ∃ rows, h'.getD [] = h.getD [] ++ rows ∧ List.Forall₂ ChatRow.Holds rows shown

/-- What it takes for a chat to be kept: a frame of its own, a file that opens
with the table in it, ids that are numbers, no quote and no NUL in the text, and
a statement that fits the buffer but for its semicolon. -/
structure Shown.Keepable (env : HistoryEnv) (h : History) (e : Shown) : Prop where
  arrival : e.arrival = .frame
  opens : env.opens = true
  table : h ≠ none
  fits : ∃ sendId receiveId, e.js.intAt (lit "id") = some sendId ∧
    e.js.intAt (lit (receiverKey e.msgtype)) = some receiveId ∧
    (chatValues sendId receiveId (contentOf e.js) env.now e.msgtype).length < 2048
  noQuote : quote ∉ contentOf e.js
  noNul : 0 ∉ contentOf e.js

/-- Texts whose quotes come in pairs, so that they stay inside their literal. -/
def Shown.StaysInside (e : Shown) : Prop :=
  0 ∉ contentOf e.js ∧ (denotes (contentOf e.js)).isSome

theorem complete_nil {h h' : History} (hh : h' = h) : HistoryComplete [] h h' :=
  ⟨[], by rw [hh, List.append_nil], .nil⟩

theorem HistoryComplete.length {shown : List Shown} {h h' : History}
    (hh : HistoryComplete shown h h') :
    (h'.getD []).length = (h.getD []).length + shown.length := by
  obtain ⟨rows, hrows, hall⟩ := hh
  rw [hrows, List.length_append, hall.length_eq]

theorem complete_cons_self {e : Shown} {shown : List Shown} {h : History} :
    ¬ HistoryComplete (e :: shown) h h := by
  intro hh
  have hlen := hh.length
  rw [List.length_cons] at hlen
  omega

theorem complete_singleton {e : Shown} {h h' : History} :
    HistoryComplete [e] h h' ↔ ∃ r : ChatRow, h'.getD [] = h.getD [] ++ [r] ∧ r.Holds e := by
  constructor
  · rintro ⟨rows, hrows, hall⟩
    obtain ⟨r, rs, hr, htail, rfl⟩ := List.forall₂_cons_right_iff.mp hall
    cases htail
    exact ⟨r, hrows, hr⟩
  · rintro ⟨r, hrows, hr⟩
    exact ⟨[r], hrows, .cons hr .nil⟩

/-! ## A SQLite that runs these statements only -/

theorem chatValues_eq (sendId receiveId : Int32) (content : Bytes) (now : Seconds)
    (msgType : Int32) :
    chatValues sendId receiveId content now msgType =
      chatInsertHead ++
        (rowText [.int sendId.toInt, .int receiveId.toInt, .str content, .int now.val,
        .int msgType.toInt] ++ [0x29]) := by
  have hcomma : lit ", " = [0x2C, 0x20] := rfl
  have hopen : lit ", '" = [0x2C, 0x20, quote] := rfl
  have hclose : lit "', " = [quote, 0x2C, 0x20] := rfl
  have hend : lit ")" = [0x29] := rfl
  simp only [chatValues, hcomma, hopen, hclose, hend, rowText, valueText, List.append_assoc,
    List.cons_append, List.nil_append]
  rfl

/-- How the values of a row are stored. -/
def ChatRow.ofValues : List Value → Option ChatRow
  | [.int sendid, .int recvid, .str msgcontent, .int sendtime, .int msgtype] =>
      some ⟨sendid, recvid, msgcontent, sendtime, msgtype⟩
  | _ => none

/-- The row that a text inserts: nothing but a semicolon behind it. -/
def insertedRow (sql : Bytes) : Option ChatRow :=
  (row chatInsertHead 5 sql).bind fun p =>
    if p.2 = [] ∨ p.2 = lit ";" then ChatRow.ofValues p.1 else none

def Sqlite.strict : Sqlite where
  exec sql h :=
    if sql = createSql then (some (h.getD []), true)
    else
      match insertedRow sql, h with
      | some r, some rows => (some (rows ++ [r]), true)
      | _, _ => (h, false)

theorem createSql_head : createSql.head? = some 0x43 := by decide +kernel

theorem chatInsertHead_head : chatInsertHead.head? = some 0x49 := by decide +kernel

theorem ne_createSql {sql s : Bytes} (rest : Bytes) (h : sql ++ rest = chatInsertHead ++ s) :
    sql ≠ createSql := by
  intro hc
  have hhead := congrArg List.head? h
  rw [hc, List.head?_append, createSql_head, List.head?_append, chatInsertHead_head, Option.some_or,
    Option.some_or] at hhead
  exact absurd hhead (by decide)

theorem chatValues_head (sendId receiveId msgType : Int32) (now : Seconds) (content last : Bytes) :
    ∃ s, chatValues sendId receiveId content now msgType ++ last = chatInsertHead ++ s :=
  ⟨_, by rw [chatValues_eq, List.append_assoc]⟩

theorem chatValues_ne_createSql (sendId receiveId msgType : Int32) (now : Seconds)
    (content last : Bytes) :
    chatValues sendId receiveId content now msgType ++ last ≠ createSql := by
  obtain ⟨s, hs⟩ := chatValues_head sendId receiveId msgType now content last
  exact ne_createSql [] (by rw [List.append_nil, hs])

theorem values_mean (sendId receiveId msgType : Int32) (now : Seconds) {literal content : Bytes}
    (hden : denotes literal = some content) :
    List.Forall₂ (meaning · = some ·) [.int sendId.toInt, .int receiveId.toInt, .str literal,
      .int now.val, .int msgType.toInt]
        [.int sendId.toInt, .int receiveId.toInt, .str content, .int now.val,
        .int msgType.toInt] := by
  refine .cons rfl (.cons rfl (.cons ?_ (.cons rfl (.cons rfl .nil))))
  rw [meaning, hden]
  rfl

theorem row_chatValues (sendId receiveId msgType : Int32) (now : Seconds) {literal content : Bytes}
    (hden : denotes literal = some content) (last : Bytes) :
    row chatInsertHead 5 (chatValues sendId receiveId literal now msgType ++ last) =
      some ([.int sendId.toInt, .int receiveId.toInt, .str content, .int now.val,
        .int msgType.toInt], last) := by
  have hrow :=
    row_rowText chatInsertHead (List.cons_ne_nil _ _)
    (values_mean sendId receiveId msgType now hden) last
  simp only [List.length_cons, List.length_nil] at hrow
  rw [chatValues_eq, List.append_assoc, List.append_assoc, List.singleton_append, hrow]

theorem insertedRow_chatValues {sendId receiveId msgType : Int32} {now : Seconds}
    {literal content last : Bytes} (hden : denotes literal = some content)
    (hlast : last = [] ∨ last = lit ";") :
    insertedRow (chatValues sendId receiveId literal now msgType ++ last) =
      some ⟨sendId.toInt, receiveId.toInt, content, now.val, msgType.toInt⟩ := by
  rw [insertedRow, row_chatValues sendId receiveId msgType now hden, Option.bind_some, if_pos hlast]
  rfl

theorem insertedRow_incomplete {sendId receiveId msgType : Int32} {now : Seconds}
    {literal sql rest : Bytes} (hden : (denotes literal).isSome) (hrest : rest ≠ [])
    (hsql : sql ++ rest = chatValues sendId receiveId literal now msgType) :
    insertedRow sql = none := by
  obtain ⟨content, hden⟩ := Option.isSome_iff_exists.mp hden
  rw [chatValues_eq] at hsql
  have hnone :=
    row_incomplete (List.cons_ne_nil _ _) (values_mean sendId receiveId msgType now hden) hrest hsql
  simp only [List.length_cons, List.length_nil] at hnone
  rw [insertedRow, hnone]
  rfl

theorem strict_lawful : Sqlite.strict.Lawful where
  creates h := by simp [Sqlite.strict]
  inserts := by
    intro sendId receiveId msgType now literal content rows last hden _ _ hlast
    have hne : chatValues sendId receiveId literal now msgType ++ last ≠ createSql :=
      chatValues_ne_createSql sendId receiveId msgType now literal last
    simp only [Sqlite.strict, if_neg hne, insertedRow_chatValues hden hlast]
  missing := by
    intro sendId receiveId msgType now literal last hden hlast
    obtain ⟨content, hden⟩ := Option.isSome_iff_exists.mp hden
    have hne : chatValues sendId receiveId literal now msgType ++ last ≠ createSql :=
      chatValues_ne_createSql sendId receiveId msgType now literal last
    simp only [Sqlite.strict, if_neg hne, insertedRow_chatValues hden hlast]
  incomplete := by
    intro sendId receiveId msgType now literal sql rest h hden hrest hsql
    have hne : sql ≠ createSql := ne_createSql _ (hsql.trans (chatValues_eq _ _ _ _ _))
    simp only [Sqlite.strict, if_neg hne, insertedRow_incomplete hden hrest hsql]

/-! ## One insert -/

theorem snprintf_fits {sql : Bytes} (h : sql.length < 2048) :
    ∃ last, (last = [] ∨ last = lit ";") ∧ snprintf 2048 (sql ++ lit ";") = sql ++ last := by
  have hlast : lit ";" = [0x3B] := rfl
  rw [snprintf, hlast]
  rcases Nat.lt_or_ge sql.length 2047 with hlt | hge
  · refine ⟨[0x3B], Or.inr rfl, List.take_of_length_le ?_⟩
    rw [List.length_append, List.length_singleton]
    omega
  · refine ⟨[], Or.inl rfl, ?_⟩
    rw [List.append_nil]
    exact List.take_left' (by omega)

theorem snprintf_cut {sql : Bytes} (h : 2048 ≤ sql.length) :
    ∃ rest, rest ≠ [] ∧ snprintf 2048 (sql ++ lit ";") ++ rest = sql := by
  refine ⟨sql.drop 2047, ?_, ?_⟩
  · exact List.ne_nil_of_length_pos (by rw [List.length_drop]; omega)
  · rw [snprintf, List.take_append_of_le_length (by omega), List.take_append_drop]

section
variable {sq : Sqlite} {env : HistoryEnv} {content : Bytes} {sendId receiveId msgType : Int32}

theorem insertChatHistory_fits (hsq : sq.Lawful) (hopen : env.opens = true) {v : Bytes}
    (hden : denotes content = some v) (hutf : validUtf8 content) (hnul : 0 ∉ content)
    (hfit : (chatValues sendId receiveId content env.now msgType).length < 2048)
    (rows : List ChatRow) :
    (insertChatHistory sq env content sendId receiveId msgType (some rows)).1 =
      some (rows ++ [⟨sendId.toInt, receiveId.toInt, v, env.now.val, msgType.toInt⟩]) := by
  obtain ⟨last, hlast, hsql⟩ := snprintf_fits hfit
  rw [insertChatHistory, if_pos hopen, cStr_eq_self hnul, hsql, hsq.inserts hden hutf hnul hlast]

/-- A statement that does not fit is cut off inside and inserts nothing. -/
theorem insertChatHistory_cut (hsq : sq.Lawful) (hden : (denotes content).isSome)
    (hnul : 0 ∉ content)
    (hfit : 2048 ≤ (chatValues sendId receiveId content env.now msgType).length) (h : History) :
    (insertChatHistory sq env content sendId receiveId msgType h).1 = h := by
  unfold insertChatHistory
  split
  · obtain ⟨rest, hrest, hsql⟩ := snprintf_cut hfit
    rw [cStr_eq_self hnul]
    exact hsq.incomplete hden hrest hsql
  · rfl

theorem insertChatHistory_missing (hsq : sq.Lawful) (hden : (denotes content).isSome)
    (hnul : 0 ∉ content) :
    (insertChatHistory sq env content sendId receiveId msgType none).1 = none := by
  rcases Nat.lt_or_ge (chatValues sendId receiveId content env.now msgType).length 2048 with
    hlt | hge
  · unfold insertChatHistory
    split
    · obtain ⟨last, hlast, hsql⟩ := snprintf_fits hlt
      rw [cStr_eq_self hnul, hsql, hsq.missing hden hlast]
    · rfl
  · exact insertChatHistory_cut hsq hden hnul hge none

end

theorem quote_not_mem_dumpNat (n : Nat) : quote ∉ dumpNat n := fun h =>
  absurd (dumpNat_isDigit n quote h) (by decide)

theorem quote_not_mem_dumpInt (n : Int) : quote ∉ dumpInt n := by
  cases n with
  | ofNat n => exact quote_not_mem_dumpNat n
  | negSucc n =>
    rw [dumpInt, List.mem_cons, not_or]
    exact ⟨by decide, quote_not_mem_dumpNat (n + 1)⟩

/-- What the reader makes of a statement that was cut to the buffer: a text no
longer than the content, and as long only when the content has no quote and the
statement was not cut. -/
theorem insertedRow_snprintf {sendId receiveId msgType : Int32} {now : Seconds} {content : Bytes}
    {r : ChatRow}
    (h : insertedRow
      (snprintf 2048 (chatValues sendId receiveId content now msgType ++ lit ";")) = some r) :
    r.msgcontent.length ≤ content.length ∧ (content.length ≤ r.msgcontent.length →
      quote ∉ content ∧ (chatValues sendId receiveId content now msgType).length < 2048) := by
  obtain ⟨⟨vs, rest⟩, hrow, hlast⟩ := Option.bind_eq_some_iff.mp h
  rw [Option.ite_none_right_eq_some] at hlast
  obtain ⟨hlast, hvalues⟩ := hlast
  have hwhole :=
    row_extend hrow ((chatValues sendId receiveId content now msgType ++ lit ";").drop 2047)
  rw [snprintf, List.take_append_drop] at hwhole
  -- the whole statement is read as its columns
  have htext : chatValues sendId receiveId content now msgType ++ lit ";" = chatInsertHead ++
      (valueText (.int sendId.toInt) ++
        0x2C :: 0x20 :: (valueText (.int receiveId.toInt) ++ 0x2C :: 0x20 ::
        (valueText (.str content) ++ 0x2C :: 0x20 :: (valueText (.int now.val) ++ 0x2C :: 0x20 ::
          (valueText (.int msgType.toInt) ++ [0x29, 0x3B]))))) := by
    rw [chatValues_eq]
    simp only [rowText, List.append_assoc, List.cons_append, List.nil_append]
    rfl
  have hfree : quote ∉ 0x2C :: 0x20 :: (valueText (.int now.val) ++ 0x2C :: 0x20 ::
      (valueText (.int msgType.toInt) ++ [0x29, 0x3B])) := by
    have hnow := quote_not_mem_dumpInt now.val
    have htype := quote_not_mem_dumpInt msgType.toInt
    simp only [valueText, List.mem_cons, List.mem_append, not_or, List.not_mem_nil,
      not_false_eq_true, and_true]
    exact ⟨by decide, by decide, hnow, by decide, by decide, htype, by decide, by decide⟩
  have hread := hwhole
  rw [htext] at hread
  obtain ⟨s₁, ha, hread⟩ := Option.bind_eq_some_iff.mp hread
  rw [after_eq_some_iff.mpr rfl] at ha
  cases ha
  obtain ⟨⟨vs', s₂⟩, hcols, hread⟩ := Option.bind_eq_some_iff.mp hread
  obtain ⟨s₃, -, heq⟩ := Option.map_eq_some_iff.mp hread
  cases heq
  obtain ⟨_, rfl, hrecv⟩ := columns_int hcols
  obtain ⟨_, rfl, hstr⟩ := columns_int hrecv
  obtain ⟨v, ws, rfl, hle, hself⟩ := columns_str hfree hstr
  have hcontent : r.msgcontent = v := by
    unfold ChatRow.ofValues at hvalues
    split at hvalues
    · next heq =>
      cases heq
      cases hvalues
      rfl
    · cases hvalues
  rw [hcontent]
  refine ⟨hle, fun hge => ⟨hself hge, ?_⟩⟩
  have hden := denotes_of_not_mem (hself hge)
  -- nothing but the semicolon is behind the row
  rw [row_chatValues sendId receiveId msgType now hden] at hwhole
  have hrest := congrArg List.length (Prod.mk.inj (Option.some.inj hwhole)).2
  have hone : (lit ";").length = 1 := rfl
  rw [List.length_append, List.length_drop, List.length_append, hone] at hrest
  omega

/-! ## One chat in a frame of its own -/

section
variable {codec : JsonCodec} {sq : Sqlite} {env : HistoryEnv} {js : Json} {msgtype : Int32}
    {h : History}

theorem shownLive_eq_nil
    (hm : ¬ ((js.stringAt (lit "time")).isSome ∧ (js.stringAt (lit "name")).isSome ∧
      (js.stringAt (lit "msg")).isSome)) : shownLive js msgtype = [] := by
  unfold shownLive
  split
  · next ht hn hmsg => exact absurd ⟨by simp [ht], by simp [hn], by simp [hmsg]⟩ hm
  · rfl

theorem shownLive_eq (hm : (js.stringAt (lit "time")).isSome ∧ (js.stringAt (lit "name")).isSome ∧
    (js.stringAt (lit "msg")).isSome) : shownLive js msgtype = [⟨.frame, js, msgtype⟩] := by
  obtain ⟨ht, hn, hmsg⟩ := hm
  obtain ⟨t, ht⟩ := Option.isSome_iff_exists.mp ht
  obtain ⟨n, hn⟩ := Option.isSome_iff_exists.mp hn
  obtain ⟨m, hmsg⟩ := Option.isSome_iff_exists.mp hmsg
  rw [shownLive, ht, hn, hmsg]

/-- A chat that is not on the screen in full is not inserted either. -/
theorem recordLive_unshown
    (hm : ¬ ((js.stringAt (lit "time")).isSome ∧ (js.stringAt (lit "name")).isSome ∧
      (js.stringAt (lit "msg")).isSome)) : recordLive sq env js msgtype h = h := by
  unfold recordLive
  split
  · next hshow _ _ =>
    have hok : Except.failure (showChat js (receiverKey msgtype)) = none := by rw [hshow]; rfl
    rw [failure_showChat] at hok
    exact absurd ⟨hok.1, hok.2.1, hok.2.2.1⟩ hm
  · rfl

theorem recordLive_eq (hm : (js.stringAt (lit "time")).isSome ∧ (js.stringAt (lit "name")).isSome ∧
    (js.stringAt (lit "msg")).isSome) {sendId receiveId : Int32}
    (hs : js.intAt (lit "id") = some sendId)
    (hr : js.intAt (lit (receiverKey msgtype)) = some receiveId) :
    recordLive sq env js msgtype h =
      (insertChatHistory sq env (contentOf js) sendId receiveId msgtype h).1 := by
  have hshow : Except.failure (showChat js (receiverKey msgtype)) = none :=
    (failure_showChat _ _).mpr ⟨hm.1, hm.2.1, hm.2.2, by simp [hs], by simp [hr]⟩
  unfold recordLive
  rw [hs, hr]
  cases hc : showChat js (receiverKey msgtype) with
  | error e => rw [hc] at hshow; cases hshow
  | ok u =>
    simp only [clientInsertChat]
    split <;> rfl

/-- A chat that is kept was inserted, into a file that opened. -/
theorem inserted_of_complete
    (h' : HistoryComplete [⟨.frame, js, msgtype⟩] h (recordLive sq env js msgtype h)) :
    ∃ sendId receiveId r, js.intAt (lit "id") = some sendId ∧
      js.intAt (lit (receiverKey msgtype)) = some receiveId ∧ env.opens = true ∧
      (insertChatHistory sq env (contentOf js) sendId receiveId msgtype h).1.getD [] =
        h.getD [] ++ [r] ∧
      r.msgcontent = contentOf js := by
  have hm : (js.stringAt (lit "time")).isSome ∧ (js.stringAt (lit "name")).isSome ∧
      (js.stringAt (lit "msg")).isSome := by
    by_contra hm
    rw [recordLive_unshown hm] at h'
    exact complete_cons_self h'
  obtain ⟨r, hrows, hr⟩ := complete_singleton.mp h'
  obtain ⟨sendId, hs, -⟩ := hr.sender
  obtain ⟨receiveId, hrecv, -⟩ := hr.receiver
  rw [recordLive_eq hm hs hrecv] at hrows h'
  refine ⟨sendId, receiveId, r, hs, hrecv, ?_, hrows, hr.content⟩
  by_contra hclosed
  rw [insertChatHistory, if_neg hclosed] at h'
  exact complete_cons_self h'

theorem live_complete (hsq : sq.Lawful) (hu : js.utf8)
    (hm : (js.stringAt (lit "time")).isSome ∧ (js.stringAt (lit "name")).isSome ∧
      (js.stringAt (lit "msg")).isSome) (hk : Shown.Keepable env h ⟨.frame, js, msgtype⟩) :
    HistoryComplete [⟨.frame, js, msgtype⟩] h (recordLive sq env js msgtype h) := by
  obtain ⟨sendId, receiveId, hs, hr, hfit⟩ := hk.fits
  obtain ⟨content, hc⟩ := Option.isSome_iff_exists.mp hm.2.2
  have hutf : validUtf8 (contentOf js) := by
    rw [contentOf, hc]
    exact validUtf8_stringAt hu hc
  obtain ⟨rows, rfl⟩ := Option.ne_none_iff_exists'.mp hk.table
  rw [recordLive_eq hm hs hr,
    insertChatHistory_fits hsq hk.opens (denotes_of_not_mem hk.noQuote) hutf hk.noNul
    hfit, complete_singleton]
  exact ⟨_, rfl, ⟨sendId, hs, rfl⟩, ⟨receiveId, hr, rfl⟩, rfl, rfl⟩

/-- Texts that stay inside their literal are kept on no other condition. -/
theorem keepable_of_staysInside (hsq : sq.Lawful) (hu : js.utf8)
    (hin : Shown.StaysInside ⟨.frame, js, msgtype⟩)
    (h' : HistoryComplete [⟨.frame, js, msgtype⟩] h (recordLive sq env js msgtype h)) :
    Shown.Keepable env h ⟨.frame, js, msgtype⟩ := by
  obtain ⟨sendId, receiveId, r, hs, hr, hopen, hrows, hcontent⟩ := inserted_of_complete h'
  obtain ⟨hnul, hden⟩ := hin
  have hgrows : ∀ {h₁ : History}, h₁ = h → h₁.getD [] ≠ h.getD [] ++ [r] := by
    rintro h₁ rfl heq
    have hlen := congrArg List.length heq
    simp at hlen
  have hutf : validUtf8 (contentOf js) := by
    cases hc : js.stringAt (lit "msg") with
    | none => simp [contentOf, hc, validUtf8, utf8Run]
    | some content =>
      rw [contentOf, hc]
      exact validUtf8_stringAt hu hc
  rcases h with _ | rows
  · exact absurd hrows (hgrows (insertChatHistory_missing hsq hden hnul))
  rcases Nat.lt_or_ge (chatValues sendId receiveId (contentOf js) env.now msgtype).length 2048 with
    hfit | hcut
  · obtain ⟨v, hv⟩ := Option.isSome_iff_exists.mp hden
    rw [insertChatHistory_fits hsq hopen hv hutf hnul hfit rows] at hrows
    have hrow := List.append_cancel_left hrows
    rw [List.cons.injEq] at hrow
    have hself : v = contentOf js := by rw [← hcontent, ← hrow.1]
    rw [hself] at hv
    exact ⟨rfl, hopen, by simp, ⟨sendId, receiveId, hs, hr, hfit⟩, denotes_self_iff.mp hv, hnul⟩
  · exact absurd hrows (hgrows (insertChatHistory_cut hsq hden hnul hcut _))

theorem keepable_of_strict
    (h' : HistoryComplete [⟨.frame, js, msgtype⟩] h (recordLive Sqlite.strict env js msgtype h)) :
    Shown.Keepable env h ⟨.frame, js, msgtype⟩ := by
  obtain ⟨sendId, receiveId, r, hs, hr, hopen, hrows, hcontent⟩ := inserted_of_complete h'
  have hne : snprintf 2048
      (chatValues sendId receiveId (cStr (contentOf js)) env.now msgtype ++ lit ";") ≠
      createSql := by
    obtain ⟨s, hs⟩ :=
      chatValues_head sendId receiveId msgtype env.now (cStr (contentOf js)) (lit ";")
    exact ne_createSql _ ((List.take_append_drop 2047 _).trans hs)
  simp only [insertChatHistory, hopen, ↓reduceIte, Sqlite.strict, if_neg hne] at hrows
  split at hrows
  · next r' rows hins =>
    have hrow : [r'] = [r] := List.append_cancel_left hrows
    cases hrow
    obtain ⟨hle, hself⟩ := insertedRow_snprintf hins
    rw [hcontent] at hle hself
    have hcstr : cStr (contentOf js) = contentOf js :=
      (List.takeWhile_prefix _).eq_of_length_le hle
    rw [hcstr] at hself
    obtain ⟨hquote, hfit⟩ := hself le_rfl
    refine ⟨rfl, hopen, by simp, ⟨sendId, receiveId, hs, hr, hfit⟩, hquote, fun hnul => ?_⟩
    have hnonzero : ∀ b ∈ cStr (contentOf js), decide (b ≠ 0) = true := fun b hb =>
      List.mem_takeWhile_imp (p := fun b => decide (b ≠ 0)) hb
    rw [hcstr] at hnonzero
    exact absurd (hnonzero 0 hnul) (by decide)
  · have hlen := congrArg List.length hrows
    simp at hlen

end

/-! ## Both ways to the screen -/

section
variable {codec : JsonCodec}

theorem shownOffline_arrival (vec : List Bytes) :
    ∀ e ∈ shownOffline codec vec, e.arrival = .offlinemsg := by
  induction vec with
  | nil => simp [shownOffline]
  | cons text vec ih =>
    unfold shownOffline
    split
    · split
      · split
        · intro e he
          rcases List.mem_cons.mp he with rfl | he
          · rfl
          · exact ih e he
        · exact ih
      · exact ih
    · simp

theorem shownByLogin_arrival (responsejs : Json) (g : Globals) :
    ∀ e ∈ shownByLogin codec responsejs g, e.arrival = .offlinemsg := by
  unfold shownByLogin
  split
  · simp
  · split
    · simp
    · split
      · exact shownOffline_arrival _
      · simp

/-- Chats from the login reply are on the screen only. -/
theorem unrecorded_iff {shown : List Shown} {env : HistoryEnv} {h : History}
    (hoff : ∀ e ∈ shown, e.arrival = .offlinemsg) :
    HistoryComplete shown h h ↔ ∀ e ∈ shown, e.Keepable env h := by
  cases shown with
  | nil => exact iff_of_true (complete_nil rfl) (by simp)
  | cons e shown =>
    refine iff_of_false complete_cons_self fun hk => ?_
    have harr := (hk e (List.mem_cons_self ..)).arrival
    rw [hoff e (List.mem_cons_self ..)] at harr
    cases harr

/-- A message is one chat in a frame of its own, or leaves the history alone and
shows chats of the login reply at most. -/
theorem message_cases (codec : JsonCodec) (message : Bytes) (g : Globals) :
    (∃ js msgtype, codec.parse message = some js ∧ ((js.stringAt (lit "time")).isSome ∧
      (js.stringAt (lit "name")).isSome ∧ (js.stringAt (lit "msg")).isSome) ∧
      shownBy codec message g = [⟨.frame, js, msgtype⟩] ∧
      ∀ sq env h, recordedBy codec sq env message h = recordLive sq env js msgtype h) ∨
    (∀ e ∈ shownBy codec message g, e.arrival = .offlinemsg) ∧
      ∀ sq env h, recordedBy codec sq env message h = h := by
  unfold shownBy recordedBy
  cases hp : codec.parse message with
  | none => exact Or.inr ⟨by simp, fun _ _ _ => rfl⟩
  | some js =>
    simp only
    cases ha : ackOf js with
    | error e => exact Or.inr ⟨by simp, fun _ _ _ => rfl⟩
    | ok ack =>
      cases ht : js.intAt (lit "msgid") with
      | none => exact Or.inr ⟨by simp, fun _ _ _ => rfl⟩
      | some msgtype =>
        simp only
        by_cases hchat : IsChat msgtype
        · simp only [hchat, ↓reduceIte]
          by_cases hm : (js.stringAt (lit "time")).isSome ∧ (js.stringAt (lit "name")).isSome ∧
              (js.stringAt (lit "msg")).isSome
          · exact Or.inl ⟨js, msgtype, rfl, hm, shownLive_eq hm, fun _ _ _ => rfl⟩
          · rw [shownLive_eq_nil hm]
            exact Or.inr ⟨by simp, fun _ _ _ => recordLive_unshown hm⟩
        · simp only [hchat, ↓reduceIte]
          refine Or.inr ⟨?_, fun _ _ _ => trivial⟩
          split
          · exact shownByLogin_arrival js g
          · simp

/-- The table is there once the client has started with a file that opens. -/
theorem sqliteInit_table {sq : Sqlite} (hsq : sq.Lawful) {env : HistoryEnv}
    (hopen : env.opens = true) (h : History) : (sqliteInit sq env h).1 = some (h.getD []) := by
  rw [sqliteInit, if_pos hopen, hsq.creates]

/-- On SQLite as documented the history is complete exactly when every chat
shown can be kept. Where the texts stay inside their literals this holds of any
such SQLite; elsewhere the rest of the statement is up to the text itself. -/
theorem history_complete_iff (hc : codec.Lawful) (env : HistoryEnv) (message : Bytes) (g : Globals)
    (h : History) :
    ((∀ sq : Sqlite, sq.Lawful →
        HistoryComplete (shownBy codec message g) h (recordedBy codec sq env message h)) ↔
      ∀ e ∈ shownBy codec message g, e.Keepable env h) ∧
    ∀ sq : Sqlite, sq.Lawful → (∀ e ∈ shownBy codec message g, e.arrival = .frame → e.StaysInside) →
      (HistoryComplete (shownBy codec message g) h (recordedBy codec sq env message h) ↔
        ∀ e ∈ shownBy codec message g, e.Keepable env h) := by
  rcases message_cases codec message g with ⟨js, msgtype, hp, hm, hshown, hrec⟩ | ⟨hoff, hrec⟩
  · have hu := hc.parse_utf8 hp
    simp only [hshown, hrec, List.mem_singleton, forall_eq]
    refine ⟨⟨fun hall => keepable_of_strict (hall _ strict_lawful), fun hk sq hsq =>
      live_complete hsq hu hm hk⟩, fun sq hsq hin =>
      ⟨keepable_of_staysInside hsq hu (hin trivial), live_complete hsq hu hm⟩⟩
  · simp only [hrec]
    exact ⟨⟨fun hall => (unrecorded_iff hoff).mp (hall _ strict_lawful), fun hk _ _ =>
      (unrecorded_iff hoff).mpr hk⟩, fun _ _ _ => unrecorded_iff hoff⟩

end

/-- A chat from user 1 to user 2, as the client builds it. -/
def chatSaying (msg : String) : Json :=
  Sample.fields .oneChatMsg [("id", ofInt32 1), ("name", .str (lit "a")), ("toid", ofInt32 2),
    ("msg", .str (lit msg)), ("time", .str (lit "2025-01-01 00:00:00"))]

def chatText (msg : String) : Bytes := JsonText.codec.text (chatSaying msg)

def sampleHistoryEnv : HistoryEnv := ⟨true, ⟨1700000000, by decide⟩⟩

theorem chatHi_shown :
    shownBy JsonText.codec (chatText "hi") {} =
      [⟨.frame, chatSaying "hi", EnMsgType.oneChatMsg.val⟩] := by
  have hparse : JsonText.codec.parse (chatText "hi") = some (chatSaying "hi") :=
    parse_text JsonText.codec_lawful (by decide +kernel) (by decide +kernel)
  have hack : ackOf (chatSaying "hi") = .ok (some 7) := by rfl
  have htype : (chatSaying "hi").intAt (lit "msgid") = some EnMsgType.oneChatMsg.val := by
    decide +kernel
  have hchat : IsChat EnMsgType.oneChatMsg.val := Or.inl rfl
  simp only [shownBy, hparse, hack, htype, hchat, ↓reduceIte]
  exact shownLive_eq (by decide +kernel)

theorem history_complete_hi : HistoryComplete (shownBy JsonText.codec (chatText "hi") {}) (some [])
    (recordedBy JsonText.codec Sqlite.strict sampleHistoryEnv (chatText "hi") (some [])) := by
  refine (history_complete_iff JsonText.codec_lawful sampleHistoryEnv _ {} (some [])).1.mpr ?_ _
    strict_lawful
  rw [chatHi_shown]
  intro e he
  cases List.mem_singleton.mp he
  exact ⟨rfl, rfl, by simp, ⟨1, 2, by decide +kernel, by decide +kernel, by decide +kernel⟩,
    by decide +kernel, by decide +kernel⟩

/-- A login reply with an offline message. -/
def offlineReply : Bytes :=
  JsonText.codec.text (Sample.fields .loginMsgAck [("errno", ofInt32 0), ("id", ofInt32 2),
    ("offlinemsg", ofStrings [chatText "hi"])])

theorem history_incomplete :
    ¬ HistoryComplete (shownBy JsonText.codec offlineReply {}) (some [])
      (recordedBy JsonText.codec Sqlite.strict sampleHistoryEnv offlineReply (some [])) ∧
    ¬ HistoryComplete (shownBy JsonText.codec (chatText "it's") {}) (some [])
      (recordedBy JsonText.codec Sqlite.strict sampleHistoryEnv (chatText "it's") (some [])) := by
  have hoffline : (shownBy JsonText.codec offlineReply {}).length = 1 ∧
      recordedBy JsonText.codec Sqlite.strict sampleHistoryEnv offlineReply (some []) =
      some [] := by
    decide +kernel
  have hquote : (shownBy JsonText.codec (chatText "it's") {}).length = 1 ∧
      recordedBy JsonText.codec Sqlite.strict sampleHistoryEnv (chatText "it's") (some []) =
      some [] := by
    decide +kernel
  constructor
  · intro h
    have hlen := h.length
    rw [hoffline.1, hoffline.2] at hlen
    cases hlen
  · intro h
    have hlen := h.length
    rw [hquote.1, hquote.2] at hlen
    cases hlen

end MyChat
