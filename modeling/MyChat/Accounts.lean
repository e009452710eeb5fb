import MyChat.Authentication
import MyChat.CommandLines
import MyChat.Records
import MyChat.SqlBuffers
import MyChat.SqlStatements

/-! From the lines that are typed for an account to its row and back. The lines
of `main`'s two requests are read whole, so the password that was typed for a
registration is the one that a login has to type. -/

namespace MyChat
open Json

variable {codec : JsonCodec} {evp : Evp}

/-! ## What is typed -/

/-- A line for a name or a password. -/
structure InputLine (line : Bytes) : Prop where
  short : line.length < 50
  oneLine : 0x0A ∉ line
  noNul : 0 ∉ line
  utf8 : validUtf8 line

/-- The choices in `main` that make a request. -/
inductive Choice
  | login (id : Nat) (pwd : Bytes)
  | register (name pwd : Bytes)

namespace Choice

def lines : Choice → List Bytes
  | login id pwd => [dumpNat 1, dumpNat id, pwd]
  | register name pwd => [dumpNat 2, name, pwd]

def Typable : Choice → Prop
  | login id pwd => id < 2 ^ 31 ∧ InputLine pwd
  | register name pwd => InputLine name ∧ InputLine pwd

def type : Choice → EnMsgType
  | login _ _ => .loginMsg
  | register _ _ => .regMsg

def members : Choice → List (String × Json)
  | login id pwd => [("id", .int id), ("password", .str pwd)]
  | register name pwd => [("name", .str name), ("password", .str pwd)]

/-- Where the main thread stands behind it. -/
def place : Choice → Place
  | login _ _ => .sent
  | register _ _ => .choosing

/-- The input with the lines of the choice in front of `more`. -/
def input (c : Choice) (more : Bytes) : Bytes := c.lines.flatMap (· ++ [0x0A]) ++ more

theorem input_login (id : Nat) (pwd more : Bytes) : (login id pwd).input more =
    dumpNat 1 ++ 0x0A :: (dumpNat id ++ 0x0A :: (pwd ++ 0x0A :: more)) := by
  simp [input, lines]

theorem input_register (name pwd more : Bytes) : (register name pwd).input more =
    dumpNat 2 ++ 0x0A :: (name ++ 0x0A :: (pwd ++ 0x0A :: more)) := by
  simp [input, lines]

/-- What can be typed can be asked for. -/
theorem request_members (hc : codec.Lawful) (o : Outside) {c : Choice} (h : c.Typable) :
    ∃ r, request codec o c.type c.members = some r ∧ r.Asks codec c.type c.members := by
  cases c with
  | login id pwd =>
    obtain ⟨hid, hpwd⟩ := h
    refine request_asks hc o _ _ ?_ ?_ (by simp [members])
    · rw [members, ← ofInt32_ofNat hid]
      simp [canon_ofInt32, canon]
    · simp [members, utf8, hpwd.utf8]
  | register name pwd =>
    obtain ⟨hname, hpwd⟩ := h
    refine request_asks hc o _ _ ?_ ?_ (by simp [members])
    · simp [members, canon]
    · simp [members, utf8, hname.utf8, hpwd.utf8]

end Choice

/-- A request has an id that the server reads. -/
theorem intAt_request_msgId {o : Outside} {t : EnMsgType} {fs : List (String × Json)} {r : Request}
    (h : request codec o t fs = some r) : ∃ m, r.js.intAt (lit "msgId") = some m := by
  simp only [request, Option.bind_eq_bind] at h
  obtain ⟨msgId, -, h⟩ := Option.bind_eq_some_iff.mp h
  obtain ⟨text, -, h⟩ := Option.bind_eq_some_iff.mp h
  cases h
  obtain ⟨m, hm, -⟩ := ackResponse_answers t msgId fs
  exact ⟨m, hm⟩

namespace Menus

variable {o : Outside} {s : Menus}

/-- An iteration with a choice in front reads its lines and makes its request. -/
theorem choose_typed (hc : codec.Lawful) (evp : Evp) (o : Outside) {c : Choice} (h : c.Typable)
    (hplace : s.place = .choosing) {blank more : Bytes} (hblank : ∀ b ∈ blank, isSpaceC b)
    (hcin : s.cin = { rest := blank ++ c.input more }) :
    ∃ r, request codec o c.type c.members = some r ∧ r.Asks codec c.type c.members ∧
      s.choose codec evp o =
        { (({ s with cin := { rest := more } } : Menus).send evp o r).1 with
            place := c.place } := by
  obtain ⟨r, hr, hasks⟩ := c.request_members hc o h
  refine ⟨r, hr, hasks, ?_⟩
  cases c with
  | login id pwd =>
    obtain ⟨hid, hpwd⟩ := h
    rw [Choice.input_login] at hcin
    have hchoice := IStream.readInt_newline hblank (m := 1) (by decide) 0
      (dumpNat id ++ 0x0A :: (pwd ++ 0x0A :: more))
    have hnothing : ∀ b ∈ ([] : Bytes), isSpaceC b := by simp
    have hnumber := IStream.readInt_newline hnothing hid 0 (pwd ++ 0x0A :: more)
    have hline := IStream.getline_newline hpwd.oneLine hpwd.short more
    simp only [List.nil_append] at hnumber
    simp only [Choice.type, Choice.members] at hr
    simp only [choose, hcin, hchoice, IStream.get_cons, login, hnumber, hline,
      cStr_eq_self hpwd.noNul, ofInt32_ofNat hid, hr]
    rfl
  | register name pwd =>
    obtain ⟨hname, hpwd⟩ := h
    rw [Choice.input_register] at hcin
    have hchoice := IStream.readInt_newline hblank (m := 2) (by decide) 0
      (name ++ 0x0A :: (pwd ++ 0x0A :: more))
    have hfirst := IStream.getline_newline hname.oneLine hname.short (pwd ++ 0x0A :: more)
    have hsecond := IStream.getline_newline hpwd.oneLine hpwd.short more
    simp only [Choice.type, Choice.members] at hr
    simp only [choose, hcin, hchoice, IStream.get_cons, register, hfirst, hsecond,
      cStr_eq_self hname.noNul, cStr_eq_self hpwd.noNul, hr]
    rw [Choice.place, ← hplace]
    rfl

/-- A frame on the socket is the sealed text of the request. -/
theorem send_writes {r : Request} {data : Bytes}
    (h : (s.send evp o r).1.client.table.wire = s.client.table.wire ++ [data]) :
    ∃ f : Sealed evp, f.bytes = data ∧ f.text = r.text := by
  have hnone : s.client.table.wire ≠ s.client.table.wire ++ [data] := by simp
  simp only [send, Client.encryptedMessage] at h
  split at h
  · exact absurd h hnone
  next hne =>
  obtain ⟨f, hf, hb⟩ := Sealed.of_wire hne
  refine ⟨f, ?_, by rw [hf]⟩
  rw [hb]
  simp only [Client.register] at h
  split at h
  · exact List.singleton_inj.mp (List.append_cancel_left h)
  · exact absurd h hnone

/-- The choice is typed next, maybe behind blank lines, and the iteration that
reads it writes the frame `data`. -/
structure Enters (codec : JsonCodec) (evp : Evp) (s : Menus) (o : Outside) (c : Choice)
    (data : Bytes) : Prop where
  place : s.place = .choosing
  typable : c.Typable
  typed : ∃ blank more, (∀ b ∈ blank, isSpaceC b) ∧ s.cin = { rest := blank ++ c.input more }
  writes : ∃ s', s.step codec evp (.choose o) = some s' ∧
    s'.client.table.wire = s.client.table.wire ++ [data]

end Menus

/-! ## What the server reads -/

theorem requestOf_sealed (he : evp.Lawful) (f : Sealed evp) (hne : f.text ≠ []) :
    requestOf evp codec f.bytes = codec.parse f.text := by
  rw [Sealed.bytes, requestOf, if_neg (not_short _ _)]
  simp only [cast_bytes_isEncrypted, MsgHeader.drop_bytes, f.decrypt_cipher he, ↓reduceIte,
    if_neg hne]

/-- The JSON value of a request for the choice. -/
structure Choice.Made (c : Choice) (js : Json) : Prop where
  type : js.intAt (lit "msgid") = some c.type.val
  members : ∀ f ∈ c.members, js.index (lit f.1) = some f.2
  msgId : ∃ m, js.intAt (lit "msgId") = some m

/-- The frame reaches the handler of its type with what was typed, at any server. -/
structure Choice.Reaches (codec : JsonCodec) (evp : Evp) (c : Choice) (data : Bytes) (js : Json) :
    Prop where
  made : c.Made js
  request : requestOf evp codec data = some js
  handled : ∀ (my : Nat → MySQL) (conn : Conn) (s : Server),
    onMessage evp codec (chatService codec my) conn data s =
    getHandler codec my c.type.val conn js s

theorem Menus.Enters.reaches (hc : codec.Lawful) (he : evp.Lawful) {s : Menus} {o : Outside}
    {c : Choice} {data : Bytes} (h : s.Enters codec evp o c data) :
    ∃ js, c.Reaches codec evp data js := by
  obtain ⟨s', hstep, hwire⟩ := h.writes
  obtain ⟨blank, more, hblank, hcin⟩ := h.typed
  obtain ⟨r, hr, hasks, hchoose⟩ := Menus.choose_typed hc evp o h.typable h.place hblank hcin
  cases Menus.step_stepped hstep
  rw [hchoose] at hwire
  obtain ⟨f, rfl, htext⟩ := Menus.send_writes (s := { s with cin := { rest := more } }) hwire
  have hparse : codec.parse f.text = some r.js := htext ▸ hasks.parsed
  refine ⟨r.js, ⟨hasks.msgid, hasks.members, intAt_request_msgId hr⟩, ?_, fun my conn s => ?_⟩
  · rw [requestOf_sealed he f (hc.ne_nil_of_parse hparse), hparse]
  · exact onMessage_request he hc hparse hasks.msgid (chatService codec my) conn s

namespace Choice.Made

variable {id : Nat} {name pwd : Bytes} {js : Json}

theorem stringAt {c : Choice} (h : c.Made js) {k : String} {b : Bytes}
    (hmem : (k, Json.str b) ∈ c.members) :
    js.stringAt (lit k) = some b := by
  rw [Json.stringAt, h.members _ hmem]
  rfl

theorem regFields (h : (register name pwd).Made js) {name' pwd' : Bytes} {m : Int32}
    (hf : RegFields js name' pwd' m) : name' = name ∧ pwd' = pwd :=
  ⟨Option.some.inj (hf.name.symm.trans (h.stringAt (by simp [Choice.members]))),
    Option.some.inj (hf.password.symm.trans (h.stringAt (by simp [Choice.members])))⟩

theorem loginFields (h : (login id pwd).Made js) : ∃ m, LoginFields js (Int32.ofNat id) pwd m := by
  obtain ⟨m, hm⟩ := h.msgId
  refine ⟨m, ?_, h.stringAt (by simp [Choice.members]), hm⟩
  rw [Json.intAt, h.members ("id", .int id) (by simp [Choice.members])]
  rfl

end Choice.Made

/-- A login lets in exactly whom it accepts. -/
theorem letIn_login_iff (hc : codec.Lawful) (my : Nat → MySQL) (conn : Conn) {js : Json}
    {id : Int32} {pwd : Bytes} {msgId : Int32} (hf : LoginFields js id pwd msgId) (s : Server) :
    LetIn codec s (login codec my conn js s).state ↔ LoginAccepts my id pwd s.db := by
  rcases login_cases hc my conn js s with ⟨hbad, -⟩ | ⟨id', pwd', msgId', hf', h⟩
  · exact absurd hf (hbad id pwd msgId)
  obtain ⟨rfl, rfl, rfl⟩ := hf.unique hf'
  rcases h with ⟨hrej, errno, errmsg, he, h⟩ | ⟨hacc, j, -, -, h⟩ | ⟨hacc, -, h⟩
  · rw [h]
    exact iff_of_false (not_letIn_refusal hc he errmsg conn msgId s) hrej
  · rw [h]
    exact iff_of_true (letIn_session my conn id rfl) hacc
  · rw [h]
    exact iff_of_true (letIn_session my conn id rfl) hacc

/-! ## Main result -/

/-- Typed texts fit the statement's buffer, and without quotes and backslashes
the statement says what was typed. -/
theorem reads_typed {name pwd : Bytes} (hname : InputLine name) (hpwd : InputLine pwd)
    (hn : SqlText.plain name) (hp : SqlText.plain pwd) :
    ReadsAs userHead (userRow name pwd) (UserModel.insertSql (registered name pwd)) := by
  have hfits : fits (UserModel.insertSql (registered name pwd)) := by
    rw [registered, fits_userInsert, cStr_eq_self hname.noNul, cStr_eq_self hpwd.noNul]
    have hshort := hname.short
    have hshort' := hpwd.short
    omega
  rw [readsAs_iff (userRow name pwd) (by simp [userRow]) (by simp [userRow])
    (insertSql_user hname.noNul hpwd.noNul)]
  have hoff : SqlText.plain offline := by decide
  refine ⟨?_, hfits⟩
  simp [userRow, SqlText.Value.plain, hn, hp, hoff]

/-- A registration is typed at one console and announced to it as account `k`.
Whatever the processes receive then, and however often they end and start, a
login as `k` typed at any console is let in by any server exactly with the
password that was typed for the registration, unless the row says Online. -/
theorem typed_account_opens (hc : codec.Lawful) (he : evp.Lawful) {n : Nat} {name pwd : Bytes}
    {s₁ : Menus} {o₁ : Outside} {regFrame : Bytes}
    (h₁ : s₁.Enters codec evp o₁ (.register name pwd) regFrame) (hname : SqlText.plain name)
    (hpwd : SqlText.plain pwd) {c₁ c₂ c₃ : Fleet n} {i : Fin n} {my : Nat → MySQL} {conn : Conn}
    (hstep : (Fleet.machine evp codec n).step c₁ (.receive i my conn regFrame) = some c₂) {e : Sent}
    (hsent : e ∈ (c₂.hosts i).sent.drop (c₁.hosts i).sent.length) {k : Int32}
    (hk : Announces codec k e.frame) {ls : List (FleetStep n)}
    (hrun : (Fleet.machine evp codec n).exec c₂ ls = some c₃) {id : Nat} {p : Bytes} {s₂ : Menus}
    {o₂ : Outside} {loginFrame : Bytes} (h₂ : s₂.Enters codec evp o₂ (.login id p) loginFrame)
    (hid : Int32.ofNat id = k) :
    ReadsAs userHead (userRow name pwd) (UserModel.insertSql (registered name pwd)) ∧
      ∃ state, c₃.db.user.get k = some ⟨name, pwd, state⟩ ∧
        ∀ (j : Fin n) (conn' : Conn),
          LetIn codec (c₃.view j)
              (onMessage evp codec (chatService codec fun _ => MySQL.up) conn' loginFrame
                (c₃.view j)).state ↔
            p = pwd ∧ state ≠ online := by
  obtain ⟨hline, hline'⟩ := h₁.typable
  refine ⟨reads_typed hline hline' hname hpwd, ?_⟩
  obtain ⟨js, hreg⟩ := h₁.reaches hc he
  obtain ⟨s', hreceived, hdb, hs'⟩ := Fleet.step_receive hstep
  rw [hs'] at hsent
  obtain ⟨name', pwd', m, hf, hrow⟩ :=
    received_announces hc hreg.request hreg.made.type hreceived hsent hk
  obtain ⟨rfl, rfl⟩ := hreg.made.regFields hf
  rw [cStr_eq_self hline.noNul, cStr_eq_self hline'.noNul, ← hdb] at hrow
  obtain ⟨state, hkept⟩ := (RecordsKept.exec hc hrun).users k _ hrow
  refine ⟨state, hkept, fun j conn' => ?_⟩
  obtain ⟨js', hlogin⟩ := h₂.reaches hc he
  obtain ⟨m', hf'⟩ := hlogin.made.loginFields
  rw [hid] at hf'
  have hhandler :
      getHandler codec (fun _ => MySQL.up) (Choice.login id p).type.val conn' js' (c₃.view j) =
      login codec (fun _ => MySQL.up) conn' js' (c₃.view j) := rfl
  have hview : (c₃.view j).db.user.get k = some ⟨name', pwd', state⟩ := hkept
  rw [hlogin.handled, hhandler, letIn_login_iff hc _ conn' hf', LoginAccepts,
    UserModel.query_row hview]
  simp only [true_and, eq_comm]

namespace Sample

/-- A console with `input` on it, and the frame that the first choice writes. -/
def typedFrame (input : String) : Bytes :=
  ((Menus.start (lit input)).choose JsonText.codec sampleEvp
    Menus.Sample.outside).client.table.wire.flatten

theorem typed_runs :
    (host.step hosted (.receive only (fun _ => MySQL.up) 1 (typedFrame "2\na\npw\n"))).isSome := by
  decide +kernel

/-- User 1 has registered from a console. -/
def typedUser : Fleet 1 := Option.get _ typed_runs

theorem typed_restart_runs : (host.exec typedUser [.kill only, .boot only]).isSome := by
  decide +kernel

def typedUserLater : Fleet 1 := Option.get _ typed_restart_runs

theorem inputLine_a : InputLine (lit "a") := ⟨by decide, by decide, by decide, by decide +kernel⟩

theorem inputLine_pw : InputLine (lit "pw") := ⟨by decide, by decide, by decide, by decide +kernel⟩

theorem enters (input : String) {c : Choice} (h : c.Typable) (hinput : lit input = c.input [])
    (hwire : ((Menus.start (lit input)).choose JsonText.codec sampleEvp
      Menus.Sample.outside).client.table.wire = [typedFrame input]) :
    (Menus.start (lit input)).Enters JsonText.codec sampleEvp Menus.Sample.outside c
      (typedFrame input) := by
  refine ⟨rfl, h, ⟨[], [], by simp, ?_⟩, _, rfl, hwire⟩
  rw [Menus.start, hinput]
  rfl

end Sample

theorem typed_account_opens_restart :
    ReadsAs userHead (userRow (lit "a") (lit "pw"))
      (UserModel.insertSql (registered (lit "a") (lit "pw"))) ∧
      ∃ state, Sample.typedUserLater.db.user.get 1 = some ⟨lit "a", lit "pw", state⟩ ∧
        ∀ (j : Fin 1) (conn' : Conn),
          LetIn JsonText.codec (Sample.typedUserLater.view j)
              (onMessage sampleEvp JsonText.codec
                (chatService JsonText.codec fun _ => MySQL.up) conn'
                (Sample.typedFrame "1\n1\npw\n") (Sample.typedUserLater.view j)).state ↔
            lit "pw" = lit "pw" ∧ state ≠ online := by
  have hmem : (⟨1, none, replyFrame JsonText.codec (regResponse 1 1058013184) 1058013184⟩ : Sent) ∈
      (Sample.typedUser.hosts Sample.only).sent.drop
      (Sample.hosted.hosts Sample.only).sent.length := by
    decide +kernel
  have hann : Announces JsonText.codec 1
      (replyFrame JsonText.codec (regResponse 1 1058013184) 1058013184) :=
    ⟨_, parse_replyFrame JsonText.codec_lawful (canon_regResponse 1 1058013184)
      (utf8_regResponse 1 1058013184)
      1058013184, intAt_msgid _ _, intAt_regResponse_id 1 1058013184⟩
  have hreg := Sample.enters "2\na\npw\n" (c := .register (lit "a") (lit "pw"))
    ⟨Sample.inputLine_a, Sample.inputLine_pw⟩ (by decide +kernel) (by decide +kernel)
  have hlogin := Sample.enters "1\n1\npw\n" (c := .login 1 (lit "pw"))
    ⟨by decide, Sample.inputLine_pw⟩ (by decide +kernel) (by decide +kernel)
  have hstep : Sample.host.step Sample.hosted
      (.receive Sample.only (fun _ => MySQL.up) 1 (Sample.typedFrame "2\na\npw\n")) =
      some Sample.typedUser :=
    (Option.some_get Sample.typed_runs).symm
  have hrun : Sample.host.exec Sample.typedUser [.kill Sample.only, .boot Sample.only] =
      some Sample.typedUserLater := (Option.some_get Sample.typed_restart_runs).symm
  exact typed_account_opens JsonText.codec_lawful sampleEvp_lawful hreg (by decide) (by decide)
    hstep hmem hann
    hrun hlogin (by decide)

end MyChat
