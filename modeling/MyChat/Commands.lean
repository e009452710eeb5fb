import Mathlib.Data.List.TakeWhile
import MyChat.ClientMain
import MyChat.Correlation

/-! The command handlers of the main menu, as functions from the text behind the
command's name to the request that they send. An exception is `none`; what is
only shown on the screen is left out. -/

namespace MyChat
open Json

/-! ## Strings -/

/-- `int idx = str.find(":")`, where `npos` becomes -1. -/
def findColon (str : Bytes) : Int32 :=
  match str.findIdx? (· = 0x3A) with
  | none => -1
  | some pos => Int32.ofNat pos

/-- An `int` passed as a `size_t`. -/
def toSize (n : Int32) : Nat := (n.toInt % 2 ^ 64).toNat

/-- `str.substr(pos)`, which throws when `pos` is past the end. -/
def substr (str : Bytes) (pos : Nat) : Option Bytes :=
  if str.length < pos then none else some (str.drop pos)

/-- `str.substr(pos, n)`. -/
def substrN (str : Bytes) (pos n : Nat) : Option Bytes := (substr str pos).map (·.take n)

/-- `atoi(str.c_str())`: 0 without digits, the low 32 bits of the nearest
`long` otherwise. -/
def atoi (str : Bytes) : Int32 :=
  Int32.ofInt (max (-2 ^ 63) (min (2 ^ 63 - 1) ((stoi (cStr str)).getD 0)))

/-! ## Requests -/

/-- The fields of the local time. -/
structure Tm where
  year : Nat
  mon : Nat
  mday : Nat
  hour : Nat
  min : Nat
  sec : Nat

/-- `%02d`. -/
def twoDigits (n : Nat) : Bytes := if n < 10 then 0x30 :: dumpNat n else dumpNat n

def getCurrentTime (tm : Tm) : Bytes :=
  [dumpNat (tm.year + 1900), lit "-", twoDigits (tm.mon + 1), lit "-", twoDigits tm.mday, lit " ",
    twoDigits tm.hour, lit ":", twoDigits tm.min, lit ":", twoDigits tm.sec].flatten

/-- What a request takes from outside: `time(nullptr)`, the local time, the IV,
the milliseconds of its registration, and whether `send` accepts all of it. -/
structure Outside where
  time : Nat
  tm : Tm
  iv : Option Iv
  now : Int
  sends : Bool

/-- A call of `encryptedMessage`, with the value whose text it gets. -/
structure Request where
  type : EnMsgType
  msgId : UInt32
  js : Json
  text : Bytes

section
variable (codec : JsonCodec) (o : Outside)

/-- How every request is built: the id, type and id in front of the fields `fs`,
and `dump`. -/
def request (t : EnMsgType) (fs : List (String × Json)) : Option Request := do
  let msgId ← generateUniqueMsgId o.time clientId
  let js := clientRequest t msgId fs
  let jsonStr ← codec.dump js
  return { type := t, msgId := msgId, js := js, text := jsonStr }

/-! ## The handlers -/

namespace Commands

variable (user : User)

def help (_ : Bytes) : Option (Option Request) := return none

/-- A command with an id behind its name. -/
def sendId (t : EnMsgType) (key : String) (str : Bytes) : Option (Option Request) := do
  return some (← request codec o t [("id", ofInt32 user.id), (key, ofInt32 (atoi str))])

def addfriend (str : Bytes) : Option (Option Request) :=
  sendId codec o user .addFriendMsg "friendid" str

def addgroup (str : Bytes) : Option (Option Request) :=
  sendId codec o user .addGroupMsg "groupid" str

/-- A command with an id and a message, which `rest` takes from behind the colon. -/
def sendMsg (t : EnMsgType) (key : String) (rest : Int32 → Option Bytes) (str : Bytes) :
    Option (Option Request) := do
  let idx := findColon str
  if idx = -1 then return none
  let id := atoi (← substrN str 0 (toSize idx))
  let message ← rest idx
  return some (← request codec o t
    [("id", ofInt32 user.id), ("name", .str user.name), (key, ofInt32 id), ("msg", .str message),
      ("time", .str (getCurrentTime o.tm))])

def chat (str : Bytes) : Option (Option Request) :=
  sendMsg codec o user .oneChatMsg "toid" (fun idx => substr str (toSize (idx + 1))) str

def groupchat (str : Bytes) : Option (Option Request) :=
  sendMsg codec o user .groupChatMsg "groupid"
    (fun idx => substrN str (toSize (idx + 1)) (str.length - toSize idx)) str

def creategroup (str : Bytes) : Option (Option Request) := do
  let idx := findColon str
  if idx = -1 then return none
  let groupname ← substrN str 0 (toSize idx)
  let groupdesc ← substrN str (toSize (idx + 1)) (str.length - toSize idx)
  return some (← request codec o .createGroupMsg
    [("id", ofInt32 user.id), ("groupname", .str groupname), ("groupdesc", .str groupdesc)])

def logout (_ : Bytes) : Option (Option Request) := do
  return some (← request codec o .logoutMsg [("id", ofInt32 user.id)])

end Commands

def commandHandlerMap (user : User) : List (String × (Bytes → Option (Option Request))) :=
  [("help", Commands.help), ("chat", Commands.chat codec o user),
    ("addfriend", Commands.addfriend codec o user),
    ("creategroup", Commands.creategroup codec o user),
    ("addgroup", Commands.addgroup codec o user), ("groupchat", Commands.groupchat codec o user),
    ("logout", Commands.logout codec o user)]

/-- The loop body of `mainMenu` behind the read: no request for a name that is
not in the map. -/
def runCommand (user : User) (commandbuf : Bytes) : Option (Option Request) := do
  let idx := findColon commandbuf
  let command ← if idx = -1 then some commandbuf else substrN commandbuf 0 (toSize idx)
  match (commandHandlerMap codec o user).find? (lit ·.1 = command) with
  | none => return none
  | some (_, handler) => handler (← substr commandbuf (toSize (idx + 1)))

end

/-! ## Splitting at the first colon -/

section
variable {a b : Bytes}

theorem not_colon (ha : 0x3A ∉ a) : a.findIdx? (· = 0x3A) = none := by
  rw [List.findIdx?_eq_none_iff]
  intro c hc
  exact decide_eq_false fun he => ha (he ▸ hc)

theorem findColon_split (ha : 0x3A ∉ a) (b : Bytes) :
    findColon (a ++ 0x3A :: b) = Int32.ofNat a.length := by
  have hfind : (a ++ 0x3A :: b).findIdx? (· = 0x3A) = some a.length := by
    rw [List.findIdx?_append, not_colon ha]
    simp [List.findIdx?_cons]
  rw [findColon, hfind]

theorem findColon_none (ha : 0x3A ∉ a) : findColon a = -1 := by
  rw [findColon, not_colon ha]

theorem toSize_ofNat {k : Nat} (h : k < 2 ^ 31) : toSize (Int32.ofNat k) = k := by
  rw [toSize, Int32.toInt_ofNat_of_lt h]
  omega

theorem toSize_succ {k : Nat} (h : k + 1 < 2 ^ 31) : toSize (Int32.ofNat k + 1) = k + 1 := by
  have hsucc : Int32.ofNat k + 1 = Int32.ofNat (k + 1) := (Int32.ofNat_add k 1).symm
  rw [hsucc, toSize_ofNat h]

/-- What the handlers read of a text with a colon in it. -/
structure SplitAt (str a b : Bytes) : Prop where
  found : findColon str ≠ -1
  before : substrN str 0 (toSize (findColon str)) = some a
  behind : substr str (toSize (findColon str + 1)) = some b
  behindN : substrN str (toSize (findColon str + 1)) (str.length - toSize (findColon str)) = some b

theorem splitAt_colon (ha : 0x3A ∉ a) (hlen : a.length + 1 < 2 ^ 31) (b : Bytes) :
    SplitAt (a ++ 0x3A :: b) a b := by
  have hidx := findColon_split ha b
  have hsize : toSize (Int32.ofNat a.length) = a.length := toSize_ofNat (by omega)
  have hbehind : substr (a ++ 0x3A :: b) (a.length + 1) = some b := by
    rw [substr, if_neg (by simp)]
    simp
  refine ⟨?_, ?_, ?_, ?_⟩
  · rw [hidx]
    intro he
    have hint := congrArg Int32.toInt he
    rw [Int32.toInt_ofNat_of_lt (by omega)] at hint
    exact absurd hint (by simp)
  · rw [hidx, hsize]
    simp [substrN, substr]
  · rw [hidx, toSize_succ hlen, hbehind]
  · rw [hidx, toSize_succ hlen, hsize, substrN, hbehind]
    simp

/-! ## Numbers -/

theorem ofInt32_ofNat {n : Nat} (h : n < 2 ^ 31) : ofInt32 (Int32.ofNat n) = .int n := by
  rw [ofInt32, Int32.toInt_ofNat_of_lt h]

/-- Digits are read whole. -/
theorem atoi_dumpNat {n : Nat} (h : n < 2 ^ 31) : atoi (dumpNat n) = Int32.ofNat n := by
  have hnul : 0 ∉ dumpNat n := fun h0 => absurd (dumpNat_isDigit n 0 h0) (by decide)
  have hstoi : stoi (dumpNat n) = some (n : Int) := by
    rw [stoi_digits (dumpNat_isDigit n) (dumpNat_ne_nil n), digitsValue_dumpNat]
  have hclamp : max (-2 ^ 63) (min (2 ^ 63 - 1) (n : Int)) = n := by omega
  rw [atoi, cStr_eq_self hnul, hstoi, Option.getD_some, hclamp]
  rfl

end

/-! ## What a request asks for -/

/-- The request is of type `t`, and the text that goes out has this type and the
members `fs`. -/
structure Request.Asks (codec : JsonCodec) (r : Request) (t : EnMsgType)
    (fs : List (String × Json)) :
    Prop where
  type : r.type = t
  parsed : codec.parse r.text = some r.js
  msgid : r.js.intAt (lit "msgid") = some t.val
  members : ∀ f ∈ fs, r.js.index (lit f.1) = some f.2

section
variable {codec : JsonCodec} {o : Outside} {user : User}

theorem request_asks (hc : codec.Lawful) (o : Outside) (t : EnMsgType) (fs : List (String × Json))
    (hcanon : ∀ f ∈ fs, f.2.canon) (hu : ∀ f ∈ fs, f.2.utf8)
    (hkeys : ("msgid" :: "msgId" :: fs.map Prod.fst).Nodup) :
    ∃ r, request codec o t fs = some r ∧ r.Asks codec t fs := by
  obtain ⟨msgId, hid, -⟩ := generateUniqueMsgId_clientId o.time
  have hnum : ∀ f ∈ [msgidField t, ("msgId", ofUInt32 msgId)], f.2.canon ∧ f.2.utf8 := by
    have hlt := msgId.toNat_lt
    simp only [List.mem_cons, List.not_mem_nil, or_false, forall_eq_or_imp, forall_eq]
    refine ⟨⟨canon_ofInt32 _, utf8_ofInt32 _⟩, ?_, rfl⟩
    simp only [ofUInt32, canon, Bool.and_eq_true, decide_eq_true_eq]
    omega
  have hall : ∀ f ∈ msgidField t :: ("msgId", ofUInt32 msgId) :: fs, f.2.canon ∧ f.2.utf8 := by
    intro f hf
    rcases List.mem_append.mp
      (show f ∈ [msgidField t, ("msgId", ofUInt32 msgId)] ++ fs from hf) with hf | hf
    · exact hnum f hf
    · exact ⟨hcanon f hf, hu f hf⟩
  have hjs : (clientRequest t msgId fs).canon := canon_object fun f hf => (hall f hf).1
  obtain ⟨text, hd⟩ :=
    hc.dump_of_utf8 (j := clientRequest t msgId fs) (utf8_object fun f hf => (hall f hf).2)
  refine ⟨⟨t, msgId, clientRequest t msgId fs, text⟩, by simp [request, hid, hd], rfl,
    hc.parse_dump hjs hd, ?_, fun f hf => ?_⟩
  · simp [clientRequest, msgidField, intAt_lit]
  · have hmem : f ∈ msgidField t :: ("msgId", ofUInt32 msgId) :: fs :=
      List.mem_cons_of_mem _ (List.mem_cons_of_mem _ hf)
    exact index_object_mem (by simpa [msgidField] using hkeys) hmem

theorem Request.Asks.mono {r : Request} {t : EnMsgType} {fs gs : List (String × Json)}
    (h : r.Asks codec t fs) (hsub : gs ⊆ fs) : r.Asks codec t gs :=
  { h with members := fun f hf => h.members f (hsub hf) }

/-! ## The handlers -/

theorem validUtf8_digits {ds : Bytes} (h : ∀ b ∈ ds, isDigit b) : validUtf8 ds := by
  refine validUtf8_ascii fun b hb => ?_
  have hd := h b hb
  simp only [isDigit, Bool.and_eq_true, decide_eq_true_eq, UInt8.le_iff_toNat_le,
    UInt8.reduceToNat] at hd
  simp only [UInt8.lt_iff_toNat_lt, UInt8.reduceToNat]
  omega

theorem validUtf8_twoDigits (n : Nat) : validUtf8 (twoDigits n) := by
  refine validUtf8_digits fun b hb => ?_
  unfold twoDigits at hb
  split at hb
  · rcases List.mem_cons.mp hb with rfl | hb
    · rfl
    · exact dumpNat_isDigit n b hb
  · exact dumpNat_isDigit n b hb

theorem validUtf8_getCurrentTime (tm : Tm) : validUtf8 (getCurrentTime tm) := by
  have hyear : validUtf8 (dumpNat (tm.year + 1900)) := validUtf8_digits (dumpNat_isDigit _)
  exact validUtf8_flatten (by simp [hyear, validUtf8_twoDigits])

theorem dumpNat_split {n : Nat} (h : n < 2 ^ 31) (m : Bytes) :
    SplitAt (dumpNat n ++ 0x3A :: m) (dumpNat n) m := by
  have hcolon : 0x3A ∉ dumpNat n := fun hb => absurd (dumpNat_isDigit n _ hb) (by decide)
  have hlen : (dumpNat n).length ≤ 10 := dumpNat_length_le (by decide) (by omega)
  exact splitAt_colon hcolon (by omega) m

variable {n : Nat} {m : Bytes}

theorem sendId_asks (hc : codec.Lawful) (o : Outside) (user : User) (t : EnMsgType) {key : String}
    (hkey : key ∉ ["msgid", "msgId", "id"]) (hn : n < 2 ^ 31) :
    ∃ r, Commands.sendId codec o user t key (dumpNat n) = some (some r) ∧
      r.Asks codec t [(key, .int n)] := by
  rw [← ofInt32_ofNat hn]
  simp only [List.mem_cons, List.not_mem_nil, or_false, not_or] at hkey
  obtain ⟨r, hr, hasks⟩ := request_asks hc o t
    [("id", ofInt32 user.id), (key, ofInt32 (Int32.ofNat n))]
    (by simp [canon_ofInt32]) (by simp) (by simp [hkey, eq_comm (b := key)])
  refine ⟨r, ?_, hasks.mono (by simp)⟩
  simp only [Commands.sendId, atoi_dumpNat hn, hr]
  rfl

theorem addfriend_asks (hc : codec.Lawful) (o : Outside) (user : User) (hn : n < 2 ^ 31) :
    ∃ r, Commands.addfriend codec o user (dumpNat n) = some (some r) ∧
      r.Asks codec .addFriendMsg [("friendid", .int n)] :=
  sendId_asks hc o user .addFriendMsg (by decide) hn

theorem addgroup_asks (hc : codec.Lawful) (o : Outside) (user : User) (hn : n < 2 ^ 31) :
    ∃ r, Commands.addgroup codec o user (dumpNat n) = some (some r) ∧
      r.Asks codec .addGroupMsg [("groupid", .int n)] :=
  sendId_asks hc o user .addGroupMsg (by decide) hn

/-- However the message is taken from behind the colon. -/
theorem sendMsg_asks (hc : codec.Lawful) (o : Outside) (hname : validUtf8 user.name) (t : EnMsgType)
    {key : String} (hkey : key ∉ ["msgid", "msgId", "id", "name", "msg", "time"]) (hn : n < 2 ^ 31)
    (hm : validUtf8 m) {rest : Int32 → Option Bytes}
    (hrest : rest (findColon (dumpNat n ++ 0x3A :: m)) = some m) :
    ∃ r, Commands.sendMsg codec o user t key rest (dumpNat n ++ 0x3A :: m) = some (some r) ∧
      r.Asks codec t [(key, .int n), ("msg", .str m)] := by
  rw [← ofInt32_ofNat hn]
  have hsplit := dumpNat_split hn m
  simp only [List.mem_cons, List.not_mem_nil, or_false, not_or] at hkey
  obtain ⟨r, hr, hasks⟩ := request_asks hc o t
    [("id", ofInt32 user.id), ("name", .str user.name), (key, ofInt32 (Int32.ofNat n)),
      ("msg", .str m), ("time", .str (getCurrentTime o.tm))]
    (by simp [canon_ofInt32, canon]) (by simp [utf8, hname, hm, validUtf8_getCurrentTime])
    (by simp [hkey, eq_comm (b := key)])
  refine ⟨r, ?_, hasks.mono (by simp)⟩
  simp only [Commands.sendMsg, hsplit.before, hrest, if_neg hsplit.found, Option.bind_eq_bind,
    Option.bind_some, atoi_dumpNat hn, hr]
  rfl

theorem chat_asks (hc : codec.Lawful) (o : Outside) (hname : validUtf8 user.name) (hn : n < 2 ^ 31)
    (hm : validUtf8 m) :
    ∃ r, Commands.chat codec o user (dumpNat n ++ 0x3A :: m) = some (some r) ∧
      r.Asks codec .oneChatMsg [("toid", .int n), ("msg", .str m)] :=
  sendMsg_asks hc o hname .oneChatMsg (by decide) hn hm (dumpNat_split hn m).behind

theorem groupchat_asks (hc : codec.Lawful) (o : Outside) (hname : validUtf8 user.name)
    (hn : n < 2 ^ 31) (hm : validUtf8 m) :
    ∃ r, Commands.groupchat codec o user (dumpNat n ++ 0x3A :: m) = some (some r) ∧
      r.Asks codec .groupChatMsg [("groupid", .int n), ("msg", .str m)] :=
  sendMsg_asks hc o hname .groupChatMsg (by decide) hn hm (dumpNat_split hn m).behindN

theorem creategroup_asks (hc : codec.Lawful) (o : Outside) (user : User) {g d : Bytes}
    (hcolon : 0x3A ∉ g) (hlen : g.length + 1 < 2 ^ 31) (hg : validUtf8 g) (hd : validUtf8 d) :
    ∃ r, Commands.creategroup codec o user (g ++ 0x3A :: d) = some (some r) ∧
      r.Asks codec .createGroupMsg [("groupname", .str g), ("groupdesc", .str d)] := by
  have hsplit := splitAt_colon hcolon hlen d
  obtain ⟨r, hr, hasks⟩ := request_asks hc o .createGroupMsg
    [("id", ofInt32 user.id), ("groupname", .str g), ("groupdesc", .str d)]
    (by simp [canon_ofInt32, canon]) (by simp [utf8, hg, hd]) (by simp)
  refine ⟨r, ?_, hasks.mono (by simp)⟩
  simp only [Commands.creategroup, hsplit.before, hsplit.behindN, if_neg hsplit.found,
    Option.bind_eq_bind, Option.bind_some, hr]
  rfl

/-! ## The command in front of the colon -/

/-- The names in the map. -/
def commandNames : List String :=
  ["help", "chat", "addfriend", "creategroup", "addgroup", "groupchat", "logout"]

theorem commandHandlerMap_names (codec : JsonCodec) (o : Outside) (user : User) :
    (commandHandlerMap codec o user).map Prod.fst = commandNames := rfl

theorem runCommand_colon {c arg : Bytes} (hcolon : 0x3A ∉ c) (hlen : c.length + 1 < 2 ^ 31) :
    runCommand codec o user (c ++ 0x3A :: arg) =
      match (commandHandlerMap codec o user).find? (lit ·.1 = c) with
      | none => some none
      | some (_, handler) => handler arg := by
  have hsplit := splitAt_colon hcolon hlen arg
  simp only [runCommand, if_neg hsplit.found, hsplit.before, hsplit.behind, Option.bind_eq_bind,
    Option.bind_some]
  rfl

theorem runCommand_whole {c : Bytes} (hcolon : 0x3A ∉ c) :
    runCommand codec o user c =
      match (commandHandlerMap codec o user).find? (lit ·.1 = c) with
      | none => some none
      | some (_, handler) => handler c := by
  have hstart : substr c (toSize (-1 + 1)) = some c := by
    rw [substr, if_neg (by simp [toSize])]
    rfl
  simp only [runCommand, findColon_none hcolon, ↓reduceIte, hstart, Option.bind_eq_bind,
    Option.bind_some]
  rfl

/-- A line that names no command makes no request. -/
theorem runCommand_unknown {line : Bytes} (hlen : line.length < 2 ^ 31)
    (h : line.takeWhile (· ≠ 0x3A) ∉ commandNames.map lit) :
    runCommand codec o user line = some none := by
  have hnone : ∀ c, c ∉ commandNames.map lit →
      (commandHandlerMap codec o user).find? (lit ·.1 = c) = none := by
    intro c hc
    rw [List.find?_eq_none]
    intro p hp
    simp only [decide_eq_true_eq]
    rintro rfl
    refine hc (List.mem_map_of_mem ?_)
    rw [← commandHandlerMap_names codec o user]
    exact List.mem_map_of_mem hp
  have htake : 0x3A ∉ line.takeWhile (· ≠ 0x3A) := fun hmem =>
    absurd (List.mem_takeWhile_imp hmem) (by decide)
  have hline := List.takeWhile_append_dropWhile (p := fun b => decide (b ≠ 0x3A)) (l := line)
  cases hdrop : line.dropWhile (· ≠ 0x3A) with
  | nil =>
    rw [hdrop, List.append_nil] at hline
    rw [hline] at h htake
    rw [runCommand_whole htake, hnone _ h]
  | cons b arg =>
    have hb : b = 0x3A := by
      have hhead := List.head?_dropWhile_not (fun b => decide (b ≠ 0x3A)) line
      rw [hdrop] at hhead
      simpa using hhead
    subst hb
    have hshort := congrArg List.length hline
    rw [hdrop, List.length_append, List.length_cons] at hshort
    rw [← hline, hdrop, runCommand_colon htake (by omega), hnone _ h]

end

end MyChat
