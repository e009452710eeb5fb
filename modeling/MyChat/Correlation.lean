import Mathlib.Logic.Function.Basic
import MyChat.Lib.Machine
import MyChat.Acks
import MyChat.Retry

/-! ACK correlation over several clients. Each client keys its table by an id
made of the second alone, so commands of one second share an id, at one client
or at several. -/

namespace MyChat
open Json

/-- A command: its client, the second of its issue, its id and its request. -/
structure Command (ι : Type) where
  issuer : ι
  time : Nat
  msgId : UInt32
  js : Json

/-- Clients, the commands they have issued, and the commands a reply or ACK to
which has reached the table of its client. -/
structure Network (ι : Type) where
  clients : ι → Client Tagged
  commands : List (Command ι)
  answered : List Nat

/-- A request as the client builds it: type and id in front of its own fields. -/
def clientRequest (t : EnMsgType) (msgId : UInt32) (fs : List (String × Json)) : Json :=
  object (msgidField t :: ("msgId", ofUInt32 msgId) :: fs)

/-- A reply or an ACK carries the id of the request and is no chat. -/
def IsAnswer (js : Json) (msgId : UInt32) : Prop :=
  js.uint32At (lit "msgId") = some msgId ∧
    js.intAt (lit "msgid") ≠ some EnMsgType.oneChatMsg.val ∧
    js.intAt (lit "msgid") ≠ some EnMsgType.groupChatMsg.val

instance (js : Json) (msgId : UInt32) : Decidable (IsAnswer js msgId) := by
  unfold IsAnswer; infer_instance

inductive NetworkStep (ι : Type)
  /-- A client issues a command at a second of its clock. -/
  | issue (c : ι) (time : Nat) (now : Int) (t : EnMsgType) (fs : List (String × Json))
      (data : Bytes) (sends : Bool)
  /-- A reply or ACK to the `k`-th command reaches its client. -/
  | answer (k : Nat) (js : Json)
  /-- The chat that is the `k`-th command is forwarded to a client. -/
  | forward (c : ι) (k : Nat)
  /-- A timeout pass of a client. -/
  | timeout (c : ι) (now : Int) (sends : UInt32 → Bool) (order : List UInt32)

/-! ## What a client's table says of its commands -/

/-- The frame of the `k`-th command is in the table. -/
def Client.Waits (cl : Client Tagged) (msgId : UInt32) (k : Nat) : Prop :=
  ∃ data, cl.waitAckMsgMap.lookup msgId = some (k, data)

/-- The timeout pass gave the frame up, after the last of its resends. -/
def Client.GaveUp (cl : Client Tagged) (k : Nat) : Prop :=
  k ∈ cl.failed.map Prod.fst ∧ cl.resends k = retryMax

/-- Every entry is the frame of a command of this client, neither answered nor
given up; and every command of this client waits, was answered, or was given up. -/
structure ClientInv {ι : Type} (commands : List (Command ι)) (answered : List Nat) (c : ι)
    (cl : Client Tagged) : Prop where
  counted : Counted (commands.map (·.msgId)) cl
  issuer : ∀ m k d (cmd : Command ι), cl.waitAckMsgMap.lookup m = some (k, d) →
    commands[k]? = some cmd → cmd.issuer = c
  unanswered : ∀ m k d, cl.waitAckMsgMap.lookup m = some (k, d) → k ∉ answered
  notFailed : ∀ m k d, cl.waitAckMsgMap.lookup m = some (k, d) → k ∉ cl.failed.map Prod.fst
  failed : ∀ e ∈ cl.failed, e.1 < commands.length
  correlated : ∀ (k : Nat) (cmd : Command ι), commands[k]? = some cmd → cmd.issuer = c →
    cl.Waits cmd.msgId k ∨ k ∈ answered ∨ cl.GaveUp k

namespace ClientInv

variable {ι : Type} {commands : List (Command ι)} {answered : List Nat} {c : ι} {cl : Client Tagged}

theorem start (c : ι) : ClientInv [] [] c Client.start := by
  refine ⟨Counted.start, fun m k d cmd h => ?_, fun m k d h => ?_, fun m k d h => ?_, ?_, ?_⟩
  · simp [Client.start] at h
  · simp [Client.start] at h
  · simp [Client.start] at h
  · simp [Client.start]
  · simp

theorem append_lookup {α : Type} {l : List α} {a b : α} {k : Nat} (h : l[k]? = some a) :
    (l ++ [b])[k]? = some a := by
  rw [List.getElem?_append_left (List.getElem?_eq_some_iff.mp h).1, h]

theorem append_cases {cmd cmd' : Command ι} {k : Nat} (h : (commands ++ [cmd'])[k]? = some cmd) :
    commands[k]? = some cmd ∨ k = commands.length ∧ cmd = cmd' := by
  rcases Nat.lt_or_ge k commands.length with hlt | hge
  · rw [List.getElem?_append_left hlt] at h
    exact Or.inl h
  · rw [List.getElem?_append_right hge] at h
    have hlen := (List.getElem?_eq_some_iff.mp h).1
    simp only [List.length_singleton, Nat.lt_one_iff] at hlen
    rw [hlen] at h
    exact Or.inr ⟨by omega, (Option.some.inj h).symm⟩

/-- The command of an entry. -/
theorem command (h : ClientInv commands answered c cl) {m : UInt32} {k : Nat} {d : Bytes}
    (he : cl.waitAckMsgMap.lookup m = some (k, d)) :
    ∃ cmd, commands[k]? = some cmd ∧ cmd.issuer = c ∧ cmd.msgId = m := by
  have hid := h.counted.msgId m k d he
  rw [List.getElem?_map] at hid
  obtain ⟨cmd, hk, hm⟩ := Option.map_eq_some_iff.mp hid
  exact ⟨cmd, hk, h.issuer m k d cmd he hk, hm⟩

/-- A command of another client. -/
theorem otherIssues (h : ClientInv commands answered c cl) {cmd : Command ι}
    (hne : cmd.issuer ≠ c) :
    ClientInv (commands ++ [cmd]) answered c cl := by
  refine ⟨?_, fun m k d cmd' he hk => ?_, h.unanswered, h.notFailed, fun e he => ?_,
    fun k cmd' hk hi => ?_⟩
  · rw [List.map_append]
    exact h.counted.append cmd.msgId
  · obtain ⟨cmd₀, hk₀, hi, -⟩ := h.command he
    rw [append_lookup hk₀] at hk
    cases hk
    exact hi
  · exact Nat.lt_of_lt_of_le (h.failed e he) (by simp)
  · rcases append_cases hk with hk | ⟨-, rfl⟩
    · exact h.correlated k cmd' hk hi
    · exact absurd hi hne

/-- A command of another client is answered. -/
theorem otherAnswered (h : ClientInv commands answered c cl) {k : Nat} {cmd : Command ι}
    (hk : commands[k]? = some cmd) (hne : cmd.issuer ≠ c) :
    ClientInv commands (answered ++ [k]) c cl := by
  refine ⟨h.counted, h.issuer, fun m j d he hj => ?_, h.notFailed, h.failed, fun j cmd' hj hi => ?_⟩
  · rcases List.mem_append.mp hj with hj | hj
    · exact h.unanswered m j d he hj
    · rw [List.mem_singleton.mp hj] at he
      exact hne (h.issuer m k d cmd he hk)
  · rcases h.correlated j cmd' hj hi with hw | ha | hg
    · exact Or.inl hw
    · exact Or.inr (Or.inl (List.mem_append_left _ ha))
    · exact Or.inr (Or.inr hg)

/-- A new command takes an id under which nothing waits. -/
theorem register (h : ClientInv commands answered c cl) (ha : ∀ k ∈ answered, k < commands.length)
    {msgId : UInt32} (hfree : msgId ∉ cl.waitAckMsgMap) (time : Nat) (js : Json) (data : Bytes)
    (now : Int) (sends : Bool) :
    ClientInv (commands ++ [⟨c, time, msgId, js⟩]) answered c
      (cl.register msgId (commands.length, data) now sends) := by
  refine ⟨?_, fun m k d cmd he hk => ?_, fun m k d he => ?_, fun m k d he => ?_, fun e he => ?_,
    fun k cmd hk hi => ?_⟩
  · have hc := h.counted.register msgId data now sends
    rwa [List.length_map, ← List.map_singleton (f := fun cmd : Command ι => cmd.msgId)
      (a := ⟨c, time, msgId, js⟩), ← List.map_append] at hc
  · rcases Counted.lookup_register he with ⟨-, he⟩ | ⟨-, he⟩
    · cases he
      rw [List.getElem?_concat_length] at hk
      cases hk
      rfl
    · obtain ⟨cmd₀, hk₀, hi, -⟩ := h.command he
      rw [append_lookup hk₀] at hk
      cases hk
      exact hi
  · rcases Counted.lookup_register he with ⟨-, he⟩ | ⟨-, he⟩
    · cases he
      exact fun hk => Nat.lt_irrefl _ (ha _ hk)
    · exact h.unanswered m k d he
  · rcases Counted.lookup_register he with ⟨-, he⟩ | ⟨-, he⟩
    · cases he
      intro hmem
      obtain ⟨e, he, hlen⟩ := List.mem_map.mp hmem
      exact Nat.lt_irrefl _ (hlen ▸ h.failed e he)
    · exact h.notFailed m k d he
  · exact Nat.lt_of_lt_of_le (h.failed e he) (by simp)
  · rcases append_cases hk with hk | ⟨rfl, rfl⟩
    · rcases h.correlated k cmd hk hi with ⟨d, hw⟩ | hrest
      · refine Or.inl ⟨d, ?_⟩
        have hm : cmd.msgId ≠ msgId := by
          rintro rfl
          exact hfree (Finmap.mem_of_lookup_eq_some hw)
        exact (Finmap.lookup_insert_of_ne _ hm).trans hw
      · exact Or.inr hrest
    · exact Or.inl ⟨data, Finmap.lookup_insert _⟩

/-- A reply or ACK to a command of this client that takes out no other's frame. -/
theorem ownAnswered (h : ClientInv commands answered c cl) {k : Nat} {cmd : Command ι}
    (hk : commands[k]? = some cmd)
    (hown : ∀ e, cl.waitAckMsgMap.lookup cmd.msgId = some e → e.1 = k) :
    ClientInv commands (answered ++ [k]) c (cl.onReceiveAck cmd.msgId) := by
  have herase : cl.onReceiveAck cmd.msgId = cl.erase cmd.msgId ∨
      cl.onReceiveAck cmd.msgId = cl ∧ cmd.msgId ∉ cl.waitAckMsgMap := by
    unfold Client.onReceiveAck
    split
    · exact Or.inl rfl
    · next hm => exact Or.inr ⟨rfl, hm⟩
  have hlogs : (cl.onReceiveAck cmd.msgId).resent = cl.resent ∧
      (cl.onReceiveAck cmd.msgId).failed = cl.failed := by
    rcases herase with he | ⟨he, -⟩
    · rw [he]; exact ⟨rfl, rfl⟩
    · rw [he]; exact ⟨rfl, rfl⟩
  -- an entry that is left is under another id, and so of another command
  have hleft : ∀ m j d, (cl.onReceiveAck cmd.msgId).waitAckMsgMap.lookup m = some (j, d) →
      cl.waitAckMsgMap.lookup m = some (j, d) ∧ j ≠ k := by
    intro m j d he
    have hm : m ≠ cmd.msgId ∧ cl.waitAckMsgMap.lookup m = some (j, d) := by
      rcases herase with hr | ⟨hr, hnot⟩
      · exact Counted.lookup_erase (hr ▸ he)
      · rw [hr] at he
        refine ⟨?_, he⟩
        rintro rfl
        exact hnot (Finmap.mem_of_lookup_eq_some he)
    refine ⟨hm.2, ?_⟩
    rintro rfl
    obtain ⟨cmd', hk', -, hid⟩ := h.command hm.2
    cases Option.some.inj (hk.symm.trans hk')
    exact hm.1 hid.symm
  refine ⟨h.counted.onReceiveAck _, fun m j d cmd' he => h.issuer m j d cmd' (hleft m j d he).1,
    fun m j d he hj => ?_, fun m j d he => ?_, ?_, fun j cmd' hj hi' => ?_⟩
  · obtain ⟨hold, hne⟩ := hleft m j d he
    rcases List.mem_append.mp hj with hj | hj
    · exact h.unanswered m j d hold hj
    · exact hne (List.mem_singleton.mp hj)
  · rw [hlogs.2]
    exact h.notFailed m j d (hleft m j d he).1
  · rw [hlogs.2]; exact h.failed
  · rcases h.correlated j cmd' hj hi' with ⟨d, hw⟩ | ha | hg
    · by_cases hm : cmd'.msgId = cmd.msgId
      · have hjk : j = k := hown (j, d) (hm ▸ hw)
        exact Or.inr (Or.inl (by simp [hjk]))
      · refine Or.inl ⟨d, ?_⟩
        rcases herase with hr | ⟨hr, -⟩
        · rw [hr]; exact (Finmap.lookup_erase_ne hm).trans hw
        · rw [hr]; exact hw
    · exact Or.inr (Or.inl (List.mem_append_left _ ha))
    · refine Or.inr (Or.inr ⟨?_, ?_⟩)
      · rw [hlogs.2]; exact hg.1
      · rw [Client.resends, hlogs.1]; exact hg.2

/-! ### The timeout pass -/

theorem touch (h : ClientInv commands answered c cl) {m : UInt32} {k : Nat} {d : Bytes}
    (he : cl.waitAckMsgMap.lookup m = some (k, d)) : ClientInv commands answered c (cl.touch m) :=
  ⟨h.counted.touch he, h.issuer, h.unanswered, h.notFailed, h.failed, h.correlated⟩

/-- An entry behind its last resend is given up. -/
theorem giveUp (h : ClientInv commands answered c cl) {m : UInt32} {k : Nat} {d : Bytes}
    (he : cl.waitAckMsgMap.lookup m = some (k, d)) (hlast : cl.resends k = retryMax) :
    ClientInv commands answered c { cl.erase m with failed := cl.failed ++ [(k, d)] } := by
  have hc := h.counted.erase m
  refine ⟨⟨hc.msgId, hc.retry, hc.bound, hc.resent⟩,
    fun m' j d' cmd he' => h.issuer m' j d' cmd (Counted.lookup_erase he').2,
    fun m' j d' he' => h.unanswered m' j d' (Counted.lookup_erase he').2, fun m' j d' he' hj => ?_,
    fun e hmem => ?_, fun j cmd' hj hi' => ?_⟩
  · obtain ⟨hm, hold⟩ := Counted.lookup_erase he'
    rw [List.map_append] at hj
    rcases List.mem_append.mp hj with hj | hj
    · exact h.notFailed m' j d' hold hj
    · rw [List.mem_singleton.mp hj] at hold
      exact hm (h.counted.unique hold he)
  · rcases List.mem_append.mp hmem with hmem | hmem
    · exact h.failed e hmem
    · obtain ⟨cmd, hk, -, -⟩ := h.command he
      rw [List.mem_singleton.mp hmem]
      exact (List.getElem?_eq_some_iff.mp hk).1
  · rcases h.correlated j cmd' hj hi' with ⟨d', hw⟩ | ha | hg
    · by_cases hm : cmd'.msgId = m
      · have hjk : j = k := by
          rw [hm, he] at hw
          exact (congrArg Prod.fst (Option.some.inj hw)).symm
        subst hjk
        exact Or.inr (Or.inr ⟨by simp, hlast⟩)
      · exact Or.inl ⟨d', (Finmap.lookup_erase_ne hm).trans hw⟩
    · exact Or.inr (Or.inl ha)
    · refine Or.inr (Or.inr ⟨?_, hg.2⟩)
      rw [List.map_append]
      exact List.mem_append_left _ hg.1

/-- An entry before its last resend is sent again, and counted. -/
theorem resend (h : ClientInv commands answered c cl) {m : UInt32} {k : Nat} {d : Bytes}
    (he : cl.waitAckMsgMap.lookup m = some (k, d)) (hless : cl.resends k < retryMax) (now : Int) :
    ClientInv commands answered c (cl.resend m (k, d) (cl.resends k) now) := by
  refine ⟨h.counted.resend he hless now, h.issuer, h.unanswered, h.notFailed, h.failed,
    fun j cmd' hj hi' => ?_⟩
  rcases h.correlated j cmd' hj hi' with hw | ha | hg
  · exact Or.inl hw
  · exact Or.inr (Or.inl ha)
  · have hjk : k ≠ j := by
      rintro rfl
      exact h.notFailed m k d he hg.1
    refine Or.inr (Or.inr ⟨hg.1, ?_⟩)
    rw [Counted.resends_resend, if_neg hjk]
    exact hg.2

theorem checkEntry (h : ClientInv commands answered c cl) (now : Int) (sends : UInt32 → Bool)
    (m : UInt32) : ClientInv commands answered c (cl.checkEntry now sends m) := by
  unfold Client.checkEntry
  split
  · exact h
  · next e he =>
    obtain ⟨k, d⟩ := e
    have ht := h.touch he
    have he' : (cl.touch m).waitAckMsgMap.lookup m = some (k, d) := he
    simp only [h.counted.retry m k d he, Option.getD_some]
    split
    · split
      · next hmax => exact ht.giveUp he' (Nat.le_antisymm (h.counted.bound k) hmax)
      · next hmax =>
        split
        · exact ht.resend he' (Nat.lt_of_not_le hmax) now
        · exact ht
    · exact ht

theorem checkTimeOutAndResend (h : ClientInv commands answered c cl) (now : Int)
    (sends : UInt32 → Bool) (order : List UInt32) :
    ClientInv commands answered c (cl.checkTimeOutAndResend now sends order) := by
  induction order generalizing cl with
  | nil => exact h
  | cons m order ih => exact ih (h.checkEntry now sends m)

end ClientInv

/-! ## The network -/

namespace Network

variable {ι : Type} [DecidableEq ι]

def start : Network ι := ⟨fun _ => Client.start, [], []⟩

def withClient (c : ι) (cl : Client Tagged) (n : Network ι) : Network ι :=
  { n with clients := Function.update n.clients c cl }

def step (n : Network ι) : NetworkStep ι → Option (Network ι)
  | .issue c time now t fs data sends =>
      (generateUniqueMsgId time clientId).map fun msgId =>
        { n.withClient c ((n.clients c).register msgId (n.commands.length, data) now sends) with
          commands := n.commands ++ [⟨c, time, msgId, clientRequest t msgId fs⟩] }
  | .answer k js =>
      (n.commands[k]?).bind fun cmd =>
        if IsAnswer js cmd.msgId then
          some { n.withClient cmd.issuer (processAck js (n.clients cmd.issuer)).state with
            answered := if ackOf js = .ok (some cmd.msgId) then n.answered ++ [k] else n.answered }
        else none
  | .forward c k =>
      (n.commands[k]?).map fun cmd => n.withClient c (processAck cmd.js (n.clients c)).state
  | .timeout c now sends order =>
      if order.Nodup ∧ order.toFinset = (n.clients c).waitAckMsgMap.keys then
        some (n.withClient c ((n.clients c).checkTimeOutAndResend now sends order))
      else none

def machine (ι : Type) [DecidableEq ι] : Machine (Network ι) (NetworkStep ι) where
  init := (· = start)
  step := step

end Network

/-- A command whose frame is not in its client's table was answered or given up. -/
def Correlated {ι : Type} (n : Network ι) : Prop :=
  ∀ (k : Nat) (cmd : Command ι), n.commands[k]? = some cmd →
    (n.clients cmd.issuer).Waits cmd.msgId k ∨ k ∈ n.answered ∨ (n.clients cmd.issuer).GaveUp k

/-- No other command waits under the id that the step carries. -/
def Uncontested {ι : Type} (n : Network ι) : NetworkStep ι → Prop
  | .issue c time _ _ _ _ _ => ∀ msgId, generateUniqueMsgId time clientId = some msgId →
      msgId ∉ (n.clients c).waitAckMsgMap
  | .answer k js => ∀ cmd : Command ι, n.commands[k]? = some cmd →
      ackOf js = .ok (some cmd.msgId) →
        ∀ e, (n.clients cmd.issuer).waitAckMsgMap.lookup cmd.msgId = some e → e.1 = k
  | .forward c k => ∀ (cmd : Command ι) msgId, n.commands[k]? = some cmd →
      ackOf cmd.js = .ok (some msgId) → msgId ∉ (n.clients c).waitAckMsgMap
  | .timeout _ _ _ _ => True

structure NetworkInv {ι : Type} (n : Network ι) : Prop where
  clients : ∀ c, ClientInv n.commands n.answered c (n.clients c)
  answered : ∀ k ∈ n.answered, k < n.commands.length

namespace NetworkInv

variable {ι : Type} [DecidableEq ι] {n n' : Network ι}

omit [DecidableEq ι] in
theorem start : NetworkInv (Network.start : Network ι) :=
  ⟨fun c => ClientInv.start c, by simp [Network.start]⟩

omit [DecidableEq ι] in
theorem correlated (h : NetworkInv n) : Correlated n := fun k cmd hk =>
  (h.clients cmd.issuer).correlated k cmd hk rfl

/-- One client changed, and the others seen with the new commands and answers. -/
theorem withClient {commands : List (Command ι)} {answered : List Nat} {c : ι} {cl : Client Tagged}
    (hc : ClientInv commands answered c cl)
    (hothers : ∀ c', c' ≠ c → ClientInv commands answered c' (n.clients c')) (c' : ι) :
    ClientInv commands answered c' ((n.withClient c cl).clients c') := by
  by_cases hne : c' = c
  · subst hne
    simpa [Network.withClient] using hc
  · simpa [Network.withClient, hne] using hothers c' hne

/-- A step of one client keeps the others as they are. -/
theorem update (h : NetworkInv n) {c : ι} {cl : Client Tagged}
    (hc : ClientInv n.commands n.answered c cl) : NetworkInv (n.withClient c cl) :=
  ⟨withClient hc fun c' _ => h.clients c', h.answered⟩

omit [DecidableEq ι] in
/-- An entry taken out although its command was neither answered nor given up. -/
theorem not_correlated (h : NetworkInv n) {c : ι} {m : UInt32} {e : Tagged}
    (he : (n.clients c).waitAckMsgMap.lookup m = some e)
    (hcommands : ∀ cmd : Command ι, n.commands[e.1]? = some cmd → n'.commands[e.1]? = some cmd)
    (hanswered : e.1 ∈ n'.answered → e.1 ∈ n.answered)
    (hfailed : (n'.clients c).failed = (n.clients c).failed)
    (hgone : ¬ (n'.clients c).Waits m e.1) : ¬ Correlated n' := by
  have hinv := h.clients c
  obtain ⟨cmd, hk, rfl, rfl⟩ := hinv.command he
  intro hcor
  rcases hcor e.1 cmd (hcommands cmd hk) with hw | ha | hg
  · exact hgone hw
  · exact hinv.unanswered _ _ _ he (hanswered ha)
  · exact hinv.notFailed _ _ _ he (hfailed ▸ hg.1)

/-- An ACK takes the entry of its id out of the table and gives nothing up. -/
theorem erased (h : NetworkInv n) {c : ι} {m : UInt32} {e : Tagged}
    (he : (n.clients c).waitAckMsgMap.lookup m = some e) {answered : List Nat}
    (hanswered : e.1 ∈ answered → e.1 ∈ n.answered) :
    ¬ Correlated { n.withClient c ((n.clients c).onReceiveAck m) with answered := answered } := by
  have hmem : m ∈ (n.clients c).waitAckMsgMap := Finmap.mem_of_lookup_eq_some he
  refine h.not_correlated he (fun cmd hk => hk) hanswered ?_ ?_
  · simp [Network.withClient, Client.onReceiveAck, hmem, Client.erase]
  · rintro ⟨d, hw⟩
    simp [Network.withClient, Client.onReceiveAck, hmem, Client.erase] at hw

theorem issue (h : NetworkInv n) {c : ι} {time : Nat} {msgId : UInt32}
    (hok : msgId ∉ (n.clients c).waitAckMsgMap) (js : Json) (data : Bytes) (now : Int)
    (sends : Bool) :
    NetworkInv
      { n.withClient c ((n.clients c).register msgId (n.commands.length, data) now sends) with
      commands := n.commands ++ [⟨c, time, msgId, js⟩] } := by
  have hreg := (h.clients c).register h.answered hok time js data now sends
  refine ⟨withClient hreg fun c' hne => ?_, fun k hk =>
    Nat.lt_of_lt_of_le (h.answered k hk) (by simp)⟩
  exact (h.clients c').otherIssues (show (⟨c, time, msgId, js⟩ : Command ι).issuer ≠ c' from
    fun he => hne he.symm)

/-- A registration under an id in use overwrites the entry that waits there. -/
theorem not_issue (h : NetworkInv n) {c : ι} {msgId : UInt32}
    (hmem : msgId ∈ (n.clients c).waitAckMsgMap) (time : Nat) (js : Json) (data : Bytes) (now : Int)
    (sends : Bool) : ¬ Correlated
      { n.withClient c ((n.clients c).register msgId (n.commands.length, data) now sends) with
        commands := n.commands ++ [⟨c, time, msgId, js⟩] } := by
  obtain ⟨e, he⟩ := Finmap.mem_iff.mp hmem
  obtain ⟨cmd, hk, -, -⟩ := (h.clients c).command he
  have hlt := (List.getElem?_eq_some_iff.mp hk).1
  refine h.not_correlated he (fun cmd hk => ClientInv.append_lookup hk) (fun ha => ha) ?_ ?_
  · simp [Network.withClient, Client.register]
  · rintro ⟨d, hw⟩
    simp only [Network.withClient, Client.register, Function.update_self, Finmap.lookup_insert,
      Option.some.injEq, Prod.mk.injEq] at hw
    omega

theorem answer (h : NetworkInv n) {k : Nat} {cmd : Command ι} (hk : n.commands[k]? = some cmd)
    (hok : ∀ e, (n.clients cmd.issuer).waitAckMsgMap.lookup cmd.msgId = some e → e.1 = k) :
    NetworkInv { n.withClient cmd.issuer ((n.clients cmd.issuer).onReceiveAck cmd.msgId) with
      answered := n.answered ++ [k] } := by
  have hown := (h.clients cmd.issuer).ownAnswered hk hok
  refine ⟨withClient hown fun c' hne => ?_, fun j hj => ?_⟩
  · exact (h.clients c').otherAnswered hk fun he => hne he.symm
  · rcases List.mem_append.mp hj with hj | hj
    · exact h.answered j hj
    · rw [List.mem_singleton.mp hj]
      exact (List.getElem?_eq_some_iff.mp hk).1

/-- One step keeps the invariant exactly when nothing else waits under its id. -/
theorem step (h : NetworkInv n) {l : NetworkStep ι} (hs : n.step l = some n') :
    (Uncontested n l → NetworkInv n') ∧ (Correlated n' → Uncontested n l) := by
  cases l with
  | issue c time now t fs data sends =>
    simp only [Network.step, Option.map_eq_some_iff] at hs
    obtain ⟨msgId, hid, rfl⟩ := hs
    refine ⟨fun hok => h.issue (hok msgId hid) _ data now sends, fun hcor m hm hmem => ?_⟩
    cases Option.some.inj (hid.symm.trans hm)
    exact h.not_issue hmem time _ data now sends hcor
  | answer k js =>
    obtain ⟨cmd, hk, hs⟩ := Option.bind_eq_some_iff.mp hs
    split at hs
    · next hans =>
      cases hs
      by_cases hack : ackOf js = .ok (some cmd.msgId)
      · rw [processAck_acked hack, if_pos hack]
        refine ⟨fun hok => h.answer hk (hok cmd hk hack), fun hcor cmd' hk' _ e he => ?_⟩
        cases Option.some.inj (hk.symm.trans hk')
        by_contra hne
        refine h.erased he (fun ha => ?_) hcor
        rcases List.mem_append.mp ha with ha | ha
        · exact ha
        · exact absurd (List.mem_singleton.mp ha) hne
      · have hself : (processAck js (n.clients cmd.issuer)).state = n.clients cmd.issuer :=
          processAck_eq_self fun m ha => absurd (ackOf_uint32At hans.1 ha ▸ ha) hack
        rw [if_neg hack, hself]
        refine ⟨fun _ => h.update (h.clients cmd.issuer), fun _ cmd' hk' ha => ?_⟩
        cases Option.some.inj (hk.symm.trans hk')
        exact absurd ha hack
    · cases hs
  | forward c k =>
    obtain ⟨cmd, hk, rfl⟩ := Option.map_eq_some_iff.mp hs
    constructor
    · intro hok
      rw [processAck_eq_self fun m ha => hok cmd m hk ha]
      exact h.update (h.clients c)
    · intro hcor cmd' m hk' ha hmem
      cases Option.some.inj (hk.symm.trans hk')
      obtain ⟨e, he⟩ := Finmap.mem_iff.mp hmem
      rw [processAck_acked ha] at hcor
      exact h.erased he (fun ha => ha) hcor
  | timeout c now sends order =>
    simp only [Network.step] at hs
    split at hs
    · cases hs
      exact ⟨fun _ => h.update ((h.clients c).checkTimeOutAndResend now sends order),
        fun _ => trivial⟩
    · cases hs

end NetworkInv

/-! ## Ids and seconds -/

/-- The id of a command is its second, modulo 2^20, above twelve zero bits. -/
theorem generateUniqueMsgId_clientId (time : Nat) :
    ∃ msgId, generateUniqueMsgId time clientId = some msgId ∧
      msgId.toNat = (time % 2 ^ 20) * 2 ^ 12 := by
  refine ⟨UInt32.ofNat time <<< 12 ||| 0, rfl, ?_⟩
  have h12 : (12 : UInt32).toNat % 32 = 12 := rfl
  have h0 : (0 : UInt32).toNat = 0 := rfl
  rw [UInt32.toNat_or, UInt32.toNat_shiftLeft, UInt32.toNat_ofNat', h12, h0, Nat.or_zero,
    Nat.shiftLeft_eq]
  omega

theorem generateUniqueMsgId_eq {time time' : Nat} {msgId : UInt32}
    (h : generateUniqueMsgId time clientId = some msgId)
    (h' : generateUniqueMsgId time' clientId = some msgId) : time % 2 ^ 20 = time' % 2 ^ 20 := by
  obtain ⟨m, hm, hv⟩ := generateUniqueMsgId_clientId time
  obtain ⟨m', hm', hv'⟩ := generateUniqueMsgId_clientId time'
  cases Option.some.inj (h.symm.trans hm)
  cases Option.some.inj (h'.symm.trans hm')
  omega

theorem uint32At_clientRequest (t : EnMsgType) (msgId : UInt32) (fs : List (String × Json)) :
    (clientRequest t msgId fs).uint32At (lit "msgId") = some msgId := by
  have hindex : (clientRequest t msgId fs).index (lit "msgId") = some (ofUInt32 msgId) := by
    simp [clientRequest, msgidField, index_lit]
  rw [Json.uint32At, hindex, Option.bind_some, ofUInt32, Json.getUInt32]
  congr 1
  apply UInt32.toNat_inj.mp
  have hlt := msgId.toNat_lt
  rw [UInt32.ofInt, UInt32.toNat_ofNat']
  omega

/-- The server reads the id as an `int` and the client reads it back: the ACK
of a request is an answer to it. -/
theorem ackResponse_answers (t : EnMsgType) (msgId : UInt32) (fs : List (String × Json)) :
    ∃ m, (clientRequest t msgId fs).intAt (lit "msgId") = some m ∧
      IsAnswer (ackResponse m) msgId := by
  refine ⟨Int32.ofInt msgId.toNat, ?_, ?_, ?_⟩
  · simp [clientRequest, msgidField, intAt_lit, ofUInt32, Json.getInt]
  · rw [Json.uint32At, ackResponse, msgIdField, index_lit, if_pos rfl, Option.bind_some, ofInt32,
      Json.getUInt32]
    congr 1
    apply UInt32.toNat_inj.mp
    have hlt := msgId.toNat_lt
    have hsize : Int32.size = 2 ^ 32 := rfl
    rw [UInt32.ofInt, UInt32.toNat_ofNat', Int32.toInt_ofInt, Int.bmod_def, hsize]
    split
    · omega
    · omega
  · rw [(intAt_ackResponse _).1]
    decide

/-! ## Runs -/

/-- Every command has a second, modulo 2^20, of its own, and no chat is
forwarded to the client that sent it. -/
def OwnSecond {ι : Type} (n : Network ι) : NetworkStep ι → Prop
  | .issue _ time _ _ _ _ _ => ∀ cmd ∈ n.commands, cmd.time % 2 ^ 20 ≠ time % 2 ^ 20
  | .forward c k => ∀ cmd : Command ι, n.commands[k]? = some cmd → cmd.issuer ≠ c
  | _ => True

instance {ι : Type} [DecidableEq ι] (n : Network ι) (l : NetworkStep ι) :
    Decidable (OwnSecond n l) :=
  match l with
  | .issue _ time _ _ _ _ _ =>
      inferInstanceAs (Decidable (∀ cmd ∈ n.commands, cmd.time % 2 ^ 20 ≠ time % 2 ^ 20))
  | .forward c k => inferInstanceAs (Decidable (∀ cmd ∈ n.commands[k]?, cmd.issuer ≠ c))
  | .answer .. | .timeout .. => inferInstanceAs (Decidable True)

/-- The commands of a run in which each has its own second. -/
structure Distinct {ι : Type} (commands : List (Command ι)) : Prop where
  index : ∀ (i j : Nat) (cmd cmd' : Command ι), commands[i]? = some cmd → commands[j]? = some cmd' →
    cmd.msgId = cmd'.msgId → i = j
  time : ∀ cmd ∈ commands, generateUniqueMsgId cmd.time clientId = some cmd.msgId
  js : ∀ cmd ∈ commands, cmd.js.uint32At (lit "msgId") = some cmd.msgId

section
variable {ι : Type} [DecidableEq ι] {n n' : Network ι}

theorem Distinct.step (hd : Distinct n.commands) {l : NetworkStep ι} (hl : OwnSecond n l)
    (hs : n.step l = some n') : Distinct n'.commands := by
  cases l with
  | issue c time now t fs data sends =>
    simp only [Network.step, Option.map_eq_some_iff] at hs
    obtain ⟨msgId, hid, rfl⟩ := hs
    have hnew : ∀ cmd ∈ n.commands, cmd.msgId ≠ msgId := fun cmd hmem he =>
      hl cmd hmem (generateUniqueMsgId_eq (he ▸ hd.time cmd hmem) hid)
    refine ⟨fun i j cmd cmd' hi hj he => ?_, fun cmd hmem => ?_, fun cmd hmem => ?_⟩
    · rcases ClientInv.append_cases hi with hi | ⟨rfl, rfl⟩
      · rcases ClientInv.append_cases hj with hj | ⟨rfl, rfl⟩
        · exact hd.index i j cmd cmd' hi hj he
        · exact absurd he (hnew cmd (List.mem_of_getElem? hi))
      · rcases ClientInv.append_cases hj with hj | ⟨rfl, rfl⟩
        · exact absurd he.symm (hnew cmd' (List.mem_of_getElem? hj))
        · rfl
    · rcases List.mem_append.mp hmem with hmem | hmem
      · exact hd.time cmd hmem
      · cases List.mem_singleton.mp hmem
        exact hid
    · rcases List.mem_append.mp hmem with hmem | hmem
      · exact hd.js cmd hmem
      · cases List.mem_singleton.mp hmem
        exact uint32At_clientRequest t msgId fs
  | answer k js =>
    obtain ⟨cmd, -, hs⟩ := Option.bind_eq_some_iff.mp hs
    split at hs
    · cases hs; exact hd
    · cases hs
  | forward c k =>
    obtain ⟨cmd, -, rfl⟩ := Option.map_eq_some_iff.mp hs
    exact hd
  | timeout c now sends order =>
    simp only [Network.step] at hs
    split at hs
    · cases hs; exact hd
    · cases hs

omit [DecidableEq ι] in
theorem Distinct.uncontested (hd : Distinct n.commands) (hn : NetworkInv n) {l : NetworkStep ι}
    (hl : OwnSecond n l) : Uncontested n l := by
  cases l with
  | issue c time now t fs data sends =>
    intro msgId hid hmem
    obtain ⟨e, he⟩ := Finmap.mem_iff.mp hmem
    obtain ⟨cmd, hk, -, rfl⟩ := (hn.clients c).command he
    have hcmd := List.mem_of_getElem? hk
    exact hl cmd hcmd (generateUniqueMsgId_eq (hd.time cmd hcmd) hid)
  | answer k js =>
    intro cmd hk _ e he
    obtain ⟨cmd', hk', -, hid⟩ := (hn.clients cmd.issuer).command he
    exact hd.index _ _ cmd' cmd hk' hk hid
  | forward c k =>
    intro cmd msgId hk ha hmem
    have hid : msgId = cmd.msgId := by
      have hjs := hd.js cmd (List.mem_of_getElem? hk)
      unfold ackOf at ha
      split at ha
      · cases ha
      · simp only [hjs] at ha
        split at ha
        · split at ha <;> cases ha
          rfl
        · cases ha
    obtain ⟨e, he⟩ := Finmap.mem_iff.mp hmem
    obtain ⟨cmd', hk', hi, hid'⟩ := (hn.clients c).command he
    have hindex := hd.index _ _ cmd' cmd hk' hk (hid'.trans hid)
    rw [hindex, hk] at hk'
    cases Option.some.inj hk'
    exact hl cmd hk hi
  | timeout c now sends order => trivial

theorem networkInv_of_run (h : (Network.machine ι).Run Uncontested n) : NetworkInv n := by
  refine h.invariant ?_ fun n l n' hi hok hs => (hi.step hs).1 hok
  rintro n rfl
  exact NetworkInv.start

/-- Runs in which every command has its own second are uncontested. -/
theorem uncontested_of_ownSecond (h : (Network.machine ι).Run OwnSecond n) :
    (Network.machine ι).Run Uncontested n ∧ Distinct n.commands := by
  induction h with
  | start hi =>
    refine ⟨.start hi, ?_⟩
    cases hi
    exact ⟨by simp [Network.start], by simp [Network.start], by simp [Network.start]⟩
  | next _ hok hs ih =>
    obtain ⟨hrun, hd⟩ := ih
    exact ⟨hrun.next (hd.uncontested (networkInv_of_run hrun) hok) hs, hd.step hok hs⟩

/-- Frames leave the tables for their own reasons in every run in which no step
finds another command's frame under its id, and the first step that does breaks
it. Runs whose commands all have their own second are such runs. -/
theorem waiting_frames_correlated (n : Network ι) :
    ((Network.machine ι).Run Uncontested n → Correlated n ∧
      ∀ l n', n.step l = some n' → (Correlated n' ↔ Uncontested n l)) ∧
    ((Network.machine ι).Run OwnSecond n → (Network.machine ι).Run Uncontested n) := by
  refine ⟨fun h => ?_, fun h => (uncontested_of_ownSecond h).1⟩
  have hn := networkInv_of_run h
  exact ⟨hn.correlated, fun l n' hs =>
    ⟨(hn.step hs).2, fun hok => ((hn.step hs).1 hok).correlated⟩⟩

end

def chatFields (msg : Bytes) : List (String × Json) :=
  [("id", ofInt32 1), ("name", .str (lit "a")), ("toid", ofInt32 2), ("msg", .str msg),
    ("time", .str (lit "2023-11-14 22:13:20"))]

/-- A chat of client 0 to user 2 in the second 1700000000. -/
def issueChat (data : Bytes) : NetworkStep Nat :=
  .issue 0 1700000000 1700000000000 .oneChatMsg (chatFields data) data true

theorem issueChat_runs (data : Bytes) (n : Network Nat) : ∃ msgId js n',
    generateUniqueMsgId 1700000000 clientId = some msgId ∧ n.step (issueChat data) = some n' ∧
      n' =
        { n.withClient 0 ((n.clients 0).register msgId (n.commands.length, data) 1700000000000 true)
        with commands := n.commands ++ [⟨0, 1700000000, msgId, js⟩] } := by
  obtain ⟨msgId, hid, -⟩ := generateUniqueMsgId_clientId 1700000000
  refine ⟨msgId, clientRequest .oneChatMsg msgId (chatFields data), _, hid, ?_, rfl⟩
  simp only [issueChat, Network.step, hid, Option.map_some]

/-- Clients 0 and 1 issue a chat each, that of client 0 is forwarded to client 1,
client 0 sends it again and gets its ACK, and client 1 sends its own again. -/
def chatAcrossClients : List (NetworkStep Nat) :=
  [issueChat (lit "hi"),
    .issue 1 1700000001 1700000001000 .oneChatMsg (chatFields (lit "yo")) (lit "yo") true,
    .forward 1 0, .timeout 0 1700000003000 (fun _ => true) [1058013184],
    .answer 0 (ackResponse 1058013184), .timeout 1 1700000004000 (fun _ => true) [1058017280]]

theorem chatAcrossClients_runs :
    ((Network.machine Nat).exec .start chatAcrossClients).isSome := by decide +kernel

theorem waiting_frames_correlated_chat :
    Correlated (Option.get _ chatAcrossClients_runs) ∧
      (Option.get _ chatAcrossClients_runs).answered = [0] ∧
      ((Option.get _ chatAcrossClients_runs).clients 1).resends 1 = 1 := by
  have hown : (Network.machine Nat).Run OwnSecond (Option.get _ chatAcrossClients_runs) := by
    refine Machine.Run.exec_steps (.start rfl) ?_ (Option.some_get chatAcrossClients_runs).symm
    decide +kernel
  obtain ⟨hcor, hrun⟩ := waiting_frames_correlated (Option.get _ chatAcrossClients_runs)
  exact ⟨(hcor (hrun hown)).1, by decide +kernel, by decide +kernel⟩

/-- Two chats in one second: the second frame takes the place of the first. -/
theorem waiting_frame_overwritten :
    ¬ ∀ n, (Network.machine Nat).Reachable n → Correlated n := by
  intro h
  obtain ⟨msgId, js, n, hid, hs, hn⟩ := issueChat_runs (lit "a") Network.start
  obtain ⟨msgId', js', n', hid', hs', -⟩ := issueChat_runs (lit "b") n
  have hok : Uncontested Network.start (issueChat (lit "a")) := by
    intro m _ hmem
    exact Finmap.notMem_empty hmem
  have hinv := (NetworkInv.start.step hs).1 hok
  have hreach : (Network.machine Nat).Reachable n :=
    .next (l := issueChat (lit "a")) (.start rfl) trivial hs
  have hcor := h n' (.next (l := issueChat (lit "b")) hreach trivial hs')
  have hfree := (hinv.step hs').2 hcor msgId hid
  rw [hn] at hfree
  apply hfree
  simp [Network.withClient, Client.register]

end MyChat
