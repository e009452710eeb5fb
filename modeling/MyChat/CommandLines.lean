import MyChat.Menus

/-! What `mainMenu` makes of a typed line, in every state that the client can be
in. The name that goes into a chat is one that a JSON text carried, so it can be
serialised. -/

namespace MyChat
open Json

/-! ## The user's name -/

theorem Ret.andThen_state {σ : Type} {P : σ → Prop} {r : Ret σ} {k : σ → Ret σ} (h : P r.state)
    (hk : ∀ s, P s → P (k s).state) : P (r.andThen k).state := by
  unfold Ret.andThen
  split
  · exact hk _ h
  · exact h

/-- The name can be serialised. -/
def Globals.Named (g : Globals) : Prop := validUtf8 g.currentUser.name

section
variable {codec : JsonCodec} {js : Json} {g : Globals}

theorem guardedAt_utf8 (hu : js.utf8) {k : String} {name : Option Bytes}
    (h : guardedAt getString js k = .ok name) : validUtf8 (name.getD []) := by
  unfold guardedAt at h
  split at h
  · cases h; rfl
  · next v hv =>
    split at h
    · cases h; rfl
    · split at h
      · cases h
      · next s hs =>
        cases h
        exact validUtf8_stringAt hu (k := lit k) (by rw [stringAt, hv]; exact hs)

theorem setCurrentUser_named (hu : js.utf8) (h : g.Named) : (setCurrentUser js g).state.Named := by
  unfold setCurrentUser
  split
  · exact h
  · simp only
    split
    · exact h
    · next name hname => exact guardedAt_utf8 hu hname

theorem setFriendList_named (h : g.Named) : (setFriendList codec js g).state.Named := by
  unfold setFriendList
  split <;> exact h

theorem setGroupList_named (h : g.Named) : (setGroupList codec js g).state.Named := by
  unfold setGroupList
  split <;> exact h

theorem showOffline_named (h : g.Named) : (showOffline codec js g).state.Named := by
  unfold showOffline
  split <;> exact h

theorem doLoginResponse_named (codec : JsonCodec) (hu : js.utf8) (h : g.Named) :
    (doLoginResponse codec js g).state.Named := by
  unfold doLoginResponse
  split
  · exact h
  · split
    · exact h
    · refine Ret.andThen_state (P := Globals.Named) ?_ fun _ h => h
      refine Ret.andThen_state (P := Globals.Named) ?_ fun _ h => showOffline_named h
      refine Ret.andThen_state (P := Globals.Named) ?_ fun _ h => setGroupList_named h
      refine Ret.andThen_state (P := Globals.Named) ?_ fun _ h => setFriendList_named h
      exact setCurrentUser_named hu h

theorem readText_named {α : Type} (hc : codec.Lawful) (message : Bytes) {c : ClientState α}
    (h : c.globals.Named) : (readText codec message c).state.globals.Named := by
  unfold readText
  split
  · exact h
  · next js hp =>
    unfold readMessage
    split
    · next ack msgtype _ _ =>
      have hlogin := doLoginResponse_named codec (hc.parse_utf8 hp) h
      simp only
      split
      · cases ack <;> exact h
      split
      · cases ack <;> exact h
      split
      · cases ack <;> exact hlogin
      split
      · cases ack <;> exact h
      · cases ack <;> exact h
    · exact h
    · exact h

end

namespace Menus

variable {codec : JsonCodec} {evp : Evp} {o : Outside} {s s' : Menus}

theorem choose_globals (codec : JsonCodec) (evp : Evp) (o : Outside) (s : Menus) :
    (s.choose codec evp o).client.globals = s.client.globals := by
  unfold choose login register
  simp only
  split
  · split <;> rfl
  split
  · split <;> rfl
  split <;> rfl

theorem command_globals (codec : JsonCodec) (evp : Evp) (o : Outside) (s : Menus) :
    (s.command codec evp o).client.globals = s.client.globals := by
  unfold command
  simp only
  split
  · rfl
  · rfl
  · split <;> rfl

/-- In every state reached the current user's name is valid UTF-8: empty, or
read from a JSON text. -/
theorem reachable_named (hc : codec.Lawful) (h : (machine codec evp).Reachable s) :
    s.client.globals.Named := by
  refine h.invariant (I := fun s => s.client.globals.Named) (fun s hs => ?_)
    fun s l s' hi _ hs => ?_
  · obtain ⟨input, rfl⟩ := hs
    rfl
  · cases step_stepped hs with
    | choose o =>
      rw [choose_globals]
      exact hi
    | command o =>
      rw [command_globals]
      exact hi
    | handled message | thrown message => exact readText_named hc message hi
    | _ => exact hi

/-! ## Lines -/

/-- The line `line` comes next on the console, with a newline or the end of the
input behind it. -/
structure Typed (s : Menus) (line : Bytes) : Prop where
  good : s.cin.good
  next : s.cin.rest = line ∨ ∃ more, s.cin.rest = line ++ 0x0A :: more
  oneLine : 0x0A ∉ line
  short : line.length < 4095

/-- The next iteration of `mainMenu` calls `encryptedMessage` once, with a request
of type `t` and the members `fs`. -/
def Issues (codec : JsonCodec) (evp : Evp) (s : Menus) (o : Outside) (t : EnMsgType)
    (fs : List (String × Json)) : Prop :=
  ∃ s' r, s.step codec evp (.command o) = some s' ∧ s'.requests = s.requests ++ [r] ∧
    r.Asks codec t fs

/-- The next iteration sends nothing: neither a call, nor a change of the table
or the socket. -/
def SendsNothing (codec : JsonCodec) (evp : Evp) (s : Menus) (o : Outside) : Prop :=
  ∃ s', s.step codec evp (.command o) = some s' ∧ s'.requests = s.requests ∧ s'.client = s.client

theorem step_command {s' : Menus} (h : s.step codec evp (.command o) = some s') :
    s' = s.command codec evp o := by
  cases step_stepped h
  rfl

theorem Issues.length {t : EnMsgType} {fs : List (String × Json)} (h : s.Issues codec evp o t fs) :
    (s.command codec evp o).requests.length = s.requests.length + 1 := by
  obtain ⟨s', r, hs, hreq, -⟩ := h
  rw [← step_command hs, hreq, List.length_append]
  rfl

theorem SendsNothing.length (h : s.SendsNothing codec evp o) :
    (s.command codec evp o).requests.length = s.requests.length := by
  obtain ⟨s', hs, hreq, -⟩ := h
  rw [← step_command hs, hreq]

theorem Typed.getline {line : Bytes} (h : s.Typed line) : (s.cin.getline 4096).1 = line :=
  IStream.getline_line h.good h.oneLine (Nat.lt_succ_of_lt h.short) h.next

/-- A line that is a request makes the one call of `encryptedMessage`. -/
theorem command_sends (evp : Evp) {line : Bytes} (hm : s.place = .mainMenu) (h : s.Typed line)
    (hnul : 0 ∉ line) {r : Request}
    (hrun : runCommand codec o s.client.globals.currentUser line = some (some r)) :
    ∃ s', s.step codec evp (.command o) = some s' ∧ s'.requests = s.requests ++ [r] ∧
      s'.client = (s.send evp o r).1.client := by
  refine ⟨s.command codec evp o, by simp only [step, hm, ↓reduceIte], ?_, ?_⟩
  · simp only [command, h.getline, cStr_eq_self hnul, hrun]
    split <;> rfl
  · simp only [command, h.getline, cStr_eq_self hnul, hrun]
    split <;> rfl

theorem issues_of_asks {line : Bytes} (hm : s.place = .mainMenu) (h : s.Typed line)
    (hnul : 0 ∉ line) {t : EnMsgType} {fs : List (String × Json)}
    (hr : ∃ r, runCommand codec o s.client.globals.currentUser line = some (some r) ∧
      r.Asks codec t fs) :
    s.Issues codec evp o t fs := by
  obtain ⟨r, hrun, hasks⟩ := hr
  obtain ⟨s', hs, hreq, -⟩ := command_sends evp hm h hnul hrun
  exact ⟨s', r, hs, hreq, hasks⟩

theorem sendsNothing_of_none {line : Bytes} (hm : s.place = .mainMenu) (h : s.Typed line)
    (hnul : 0 ∉ line) (hr : runCommand codec o s.client.globals.currentUser line = some none) :
    s.SendsNothing codec evp o := by
  refine ⟨s.command codec evp o, by simp only [step, hm, ↓reduceIte], ?_, ?_⟩
  · simp only [command, h.getline, cStr_eq_self hnul, hr]
  · simp only [command, h.getline, cStr_eq_self hnul, hr]

theorem commandNames_plain : ∀ name ∈ commandNames,
    0x3A ∉ lit name ∧ 0 ∉ lit name ∧ (lit name).length + 1 < 2 ^ 31 := by decide

theorem lit_colon : lit ":" = [0x3A] := by decide

/-- A command with one argument, by what the command's handler makes of it. -/
theorem word_issues (name : String) {cmd : String} (hcmd : cmd = name ++ ":")
    (hmem : name ∈ commandNames) {handler : Bytes → Option (Option Request)}
    (hfind : (commandHandlerMap codec o s.client.globals.currentUser).find? (lit ·.1 = lit name) =
      some (name, handler)) {arg : Bytes} {t : EnMsgType} {fs : List (String × Json)}
    (hr : ∃ r, handler arg = some (some r) ∧ r.Asks codec t fs) (hm : s.place = .mainMenu)
    (hnul : 0 ∉ arg) (h : s.Typed (lit cmd ++ arg)) :
    s.Issues codec evp o t fs := by
  obtain ⟨hcolon, hnul', hlen⟩ := commandNames_plain name hmem
  have hline : lit cmd ++ arg = lit name ++ 0x3A :: arg := by
    rw [hcmd, lit_append, lit_colon, List.append_assoc]
    rfl
  rw [hline] at h
  refine issues_of_asks hm h (by simp [hnul, hnul']) ?_
  rw [runCommand_colon hcolon hlen, hfind]
  exact hr

/-- The same with two. -/
theorem words_issue (name : String) {cmd : String} (hcmd : cmd = name ++ ":")
    (hmem : name ∈ commandNames) {handler : Bytes → Option (Option Request)}
    (hfind : (commandHandlerMap codec o s.client.globals.currentUser).find? (lit ·.1 = lit name) =
      some (name, handler)) {a b : Bytes} {t : EnMsgType} {fs : List (String × Json)}
    (hr : ∃ r, handler (a ++ 0x3A :: b) = some (some r) ∧ r.Asks codec t fs)
    (hm : s.place = .mainMenu) (ha : 0 ∉ a) (hb : 0 ∉ b)
    (h : s.Typed (lit cmd ++ a ++ lit ":" ++ b)) :
    s.Issues codec evp o t fs := by
  have hline : lit cmd ++ a ++ lit ":" ++ b = lit cmd ++ (a ++ 0x3A :: b) := by simp [lit_colon]
  rw [hline] at h
  exact word_issues name hcmd hmem hfind hr hm (by simp [ha, hb]) h

theorem nul_dumpNat (n : Nat) : 0 ∉ dumpNat n := fun h => absurd (dumpNat_isDigit n 0 h) (by decide)

theorem unknown_sendsNothing (hm : s.place = .mainMenu) (o : Outside) {line : Bytes}
    (hnul : 0 ∉ line) (hname : line.takeWhile (· ≠ 0x3A) ∉ commandNames.map lit)
    (h : s.Typed line) :
    s.SendsNothing codec evp o := by
  have hshort := h.short
  exact sendsNothing_of_none hm h hnul (runCommand_unknown (by omega) hname)

/-- For every state of the client in `mainMenu` and every line: the requests are
those that were typed, and what names no command sends nothing. -/
theorem lines_decode (hc : codec.Lawful) (h : (machine codec evp).Reachable s)
    (hm : s.place = .mainMenu) (o : Outside) :
    (∀ (n : Nat) (m : Bytes), n < 2 ^ 31 → validUtf8 m → 0 ∉ m →
      s.Typed (lit "chat:" ++ dumpNat n ++ lit ":" ++ m) →
      s.Issues codec evp o .oneChatMsg [("toid", .int n), ("msg", .str m)]) ∧
    (∀ (n : Nat) (m : Bytes), n < 2 ^ 31 → validUtf8 m → 0 ∉ m →
      s.Typed (lit "groupchat:" ++ dumpNat n ++ lit ":" ++ m) →
      s.Issues codec evp o .groupChatMsg [("groupid", .int n), ("msg", .str m)]) ∧
    (∀ g d : Bytes, 0x3A ∉ g → validUtf8 g → validUtf8 d → 0 ∉ g → 0 ∉ d →
      s.Typed (lit "creategroup:" ++ g ++ lit ":" ++ d) →
      s.Issues codec evp o .createGroupMsg [("groupname", .str g), ("groupdesc", .str d)]) ∧
    (∀ n : Nat, n < 2 ^ 31 → s.Typed (lit "addfriend:" ++ dumpNat n) →
      s.Issues codec evp o .addFriendMsg [("friendid", .int n)]) ∧
    (∀ n : Nat, n < 2 ^ 31 → s.Typed (lit "addgroup:" ++ dumpNat n) →
      s.Issues codec evp o .addGroupMsg [("groupid", .int n)]) ∧
    (∀ line : Bytes, 0 ∉ line → line.takeWhile (· ≠ 0x3A) ∉ commandNames.map lit → s.Typed line →
      s.SendsNothing codec evp o) := by
  have hname := reachable_named hc h
  refine ⟨fun n m hn hmsg hnul ht => ?_, fun n m hn hmsg hnul ht => ?_,
    fun g d hcolon hg hd hgnul hdnul ht => ?_, fun n hn ht => ?_, fun n hn ht => ?_,
    fun line hnul hunknown ht => ?_⟩
  · exact words_issue "chat" rfl (by decide) (by simp [commandHandlerMap, lit_inj])
      (chat_asks hc o hname hn hmsg) hm (nul_dumpNat n) hnul ht
  · exact words_issue "groupchat" rfl (by decide) (by simp [commandHandlerMap, lit_inj])
      (groupchat_asks hc o hname hn hmsg) hm (nul_dumpNat n) hnul ht
  · have hlen : g.length + 1 < 2 ^ 31 := by
      have hshort := ht.short
      simp only [List.length_append] at hshort
      omega
    exact words_issue "creategroup" rfl (by decide) (by simp [commandHandlerMap, lit_inj])
      (creategroup_asks hc o s.client.globals.currentUser hcolon hlen hg hd) hm hgnul hdnul ht
  · exact word_issues "addfriend" rfl (by decide) (by simp [commandHandlerMap, lit_inj])
      (addfriend_asks hc o s.client.globals.currentUser hn) hm (nul_dumpNat n) ht
  · exact word_issues "addgroup" rfl (by decide) (by simp [commandHandlerMap, lit_inj])
      (addgroup_asks hc o s.client.globals.currentUser hn) hm (nul_dumpNat n) ht
  · exact unknown_sendsNothing hm o hnul hunknown ht

namespace Sample

/-- The server's reply to a login as user 1. -/
def loginAck : Json :=
  object [msgidField .loginMsgAck, ("msgId", ofUInt32 0), ("errno", ofInt32 0), ("id", ofInt32 1),
    ("name", .str (lit "li"))]

/-- A user logs in, with `line` behind the password. -/
def session (line : Bytes) : Option Menus :=
  (machine JsonText.codec sampleEvp).exec (start (lit "1\n1\npw\n" ++ (line ++ lit "\n")))
    [.choose outside, .reset, .receive (JsonText.codec.text loginAck), .wait, .test]

/-- In the menu with `line` to be read, and the next iteration calls
`encryptedMessage` `k` times. -/
def atMenu (line : Bytes) (k : Nat) (s : Menus) : Bool :=
  s.place = .mainMenu ∧ s.cin = { rest := line ++ lit "\n" } ∧
    (s.command JsonText.codec sampleEvp outside).requests.length = s.requests.length + k

theorem session_menu (line : Bytes) (k : Nat) (h : (session line).any (atMenu line k))
    (hline : 0x0A ∉ line) (hshort : line.length < 4095) :
    ∃ s, (machine JsonText.codec sampleEvp).Reachable s ∧ s.place = .mainMenu ∧ s.Typed line ∧
      (s.command JsonText.codec sampleEvp outside).requests.length = s.requests.length + k := by
  obtain ⟨s, hs, hmenu⟩ := (Option.any_eq_true _ _).mp h
  obtain ⟨hm, hcin, hlen⟩ := of_decide_eq_true hmenu
  have hrest : s.cin.rest = line ++ 0x0A :: [] := by rw [hcin]; rfl
  refine ⟨s, Machine.Run.exec (.start ⟨_, rfl⟩) (fun _ _ _ => trivial) hs, hm, ?_, hlen⟩
  exact ⟨by rw [hcin]; rfl, Or.inr ⟨[], hrest⟩, hline, hshort⟩

/-- A message with a colon. -/
def chatLine : Bytes := lit "chat:" ++ dumpNat 2 ++ lit ":" ++ lit "a:b"

/-- A group's name that is not UTF-8. -/
def latinGroup : Bytes := lit "creategroup:" ++ [0xE9] ++ lit ":" ++ lit "d"

/-- A group's name with a NUL in it. -/
def nulGroup : Bytes := lit "creategroup:" ++ [0x61, 0] ++ lit ":" ++ lit "d"

/-- A NUL behind a command's name. -/
def nulLogout : Bytes := lit "logout" ++ [0, 0x78]

end Sample

theorem lines_decode_chat :
    ∃ s, (machine JsonText.codec sampleEvp).Reachable s ∧ s.place = .mainMenu ∧
    s.Typed Sample.chatLine ∧
    s.Issues JsonText.codec sampleEvp Sample.outside .oneChatMsg
      [("toid", .int 2), ("msg", .str (lit "a:b"))] := by
  obtain ⟨s, hs, hm, htyped, -⟩ := Sample.session_menu Sample.chatLine 1
    (by decide +kernel) (by decide +kernel) (by decide +kernel)
  exact ⟨s, hs, hm, htyped,
    (lines_decode JsonText.codec_lawful hs hm Sample.outside).1 2 (lit "a:b")
    (by decide) (by decide +kernel) (by decide +kernel) htyped⟩

/-- Text that is no C string or no UTF-8 is misread: for a group's name neither
condition can be left out, and a command's name may end in a NUL. -/
theorem lines_misread :
    (¬ ∀ (s : Menus) (o : Outside) (g d : Bytes), (machine JsonText.codec sampleEvp).Reachable s →
      s.place = .mainMenu → 0x3A ∉ g → 0 ∉ g → 0 ∉ d →
      s.Typed (lit "creategroup:" ++ g ++ lit ":" ++ d) →
      s.Issues JsonText.codec sampleEvp o .createGroupMsg
        [("groupname", .str g), ("groupdesc", .str d)]) ∧
    (¬ ∀ (s : Menus) (o : Outside) (g d : Bytes), (machine JsonText.codec sampleEvp).Reachable s →
      s.place = .mainMenu → 0x3A ∉ g → validUtf8 g → validUtf8 d →
      s.Typed (lit "creategroup:" ++ g ++ lit ":" ++ d) →
      s.Issues JsonText.codec sampleEvp o .createGroupMsg
        [("groupname", .str g), ("groupdesc", .str d)]) ∧
    ¬ ∀ (s : Menus) (o : Outside) (line : Bytes), (machine JsonText.codec sampleEvp).Reachable s →
      s.place = .mainMenu → line.takeWhile (· ≠ 0x3A) ∉ commandNames.map lit → s.Typed line →
      s.SendsNothing JsonText.codec sampleEvp o := by
  refine ⟨fun h => ?_, fun h => ?_, fun h => ?_⟩
  · obtain ⟨s, hs, hm, htyped, hlen⟩ := Sample.session_menu Sample.latinGroup 0
      (by decide +kernel) (by decide +kernel) (by decide +kernel)
    have hissues :=
      h s Sample.outside [0xE9] (lit "d") hs hm (by decide) (by decide) (by decide) htyped
    rw [hissues.length] at hlen
    omega
  · obtain ⟨s, hs, hm, htyped, hlen⟩ := Sample.session_menu Sample.nulGroup 0
      (by decide +kernel) (by decide +kernel) (by decide +kernel)
    have hissues :=
      h s Sample.outside [0x61, 0] (lit "d") hs hm (by decide) (by decide) (by decide) htyped
    rw [hissues.length] at hlen
    omega
  · obtain ⟨s, hs, hm, htyped, hlen⟩ := Sample.session_menu Sample.nulLogout 1
      (by decide +kernel) (by decide +kernel) (by decide +kernel)
    have hnothing := h s Sample.outside Sample.nulLogout hs hm (by decide +kernel) htyped
    rw [hnothing.length] at hlen
    omega

end Menus

end MyChat
