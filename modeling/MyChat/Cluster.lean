import Mathlib.Algebra.BigOperators.Fin
import Mathlib.Algebra.Order.BigOperators.Group.Finset
import MyChat.Routing

/-! Servers that share a database and a Redis. Every chat that a handler takes
on for a registered user is noted, and stays accounted for as long as nothing
is published to a channel without listeners. -/

namespace MyChat
open Json

/-- A server here is its own part only: the database and Redis it sees are the
shared ones. `chats` notes recipient and text of the chats taken on. -/
structure Cluster (n : Nat) where
  servers : Fin n → Server
  db : Database
  redis : Redis
  chats : List (Int32 × Bytes)

inductive ClusterStep (n : Nat)
  /-- A text arrives at a server. -/
  | request (i : Fin n) (conn : Conn) (text : Bytes)
  /-- A connection closes; `order` is how the connection map iterates. -/
  | close (i : Fin n) (order : List Int32) (conn : Conn)
  /-- The observer thread takes the `k`-th pending delivery. -/
  | observe (i : Fin n) (k : Nat)
  /-- An online key runs out. -/
  | expire (id : Int32)
  /-- The worker applies its next task. -/
  | work (i : Fin n)

namespace Cluster

variable {n : Nat}

/-- Servers just started on a database. -/
def start (n : Nat) (db : Database) : Cluster n where
  servers i := Server.start i db
  db := db
  redis := Redis.empty
  chats := []

def view (i : Fin n) (c : Cluster n) : Server :=
  { c.servers i with self := i, db := c.db, redis := c.redis }

def put (i : Fin n) (s : Server) (c : Cluster n) : Cluster n :=
  { c with servers := Function.update c.servers i s, db := s.db, redis := s.redis }

/-- What a handler takes on. -/
def takenOn (codec : JsonCodec) (js : Json) (s : Server) : List (Int32 × Bytes) :=
  match js.intAt (lit "msgid") with
  | none => []
  | some msgid => (addressees msgid js s).map (·, codec.text js)

/-- Every database operation succeeds. -/
def step (codec : JsonCodec) (c : Cluster n) : ClusterStep n → Option (Cluster n)
  | .request i conn text =>
      (codec.parse text).map fun js =>
        { c.put i (handleJson (chatService codec fun _ => MySQL.up) conn js (c.view i)).state with
          chats := c.chats ++ takenOn codec js (c.view i) }
  | .close i order conn =>
      if order.toFinset = (c.view i).userConnMap.keys then
        some (c.put i (onConnection order conn (c.view i)))
      else none
  | .observe i k => ((c.view i).observe codec MySQL.up k).map fun s => c.put i s
  | .expire id => some { c with redis := c.redis.delete id }
  | .work i => ((c.view i).work MySQL.up).map fun s => c.put i s

def machine (codec : JsonCodec) (n : Nat) : Machine (Cluster n) (ClusterStep n) where
  init c := ∃ db, c = start n db
  step := step codec

/-- Nothing is left to do. -/
def Drained (c : Cluster n) : Prop := (∀ i, (c.servers i).dbQueue = []) ∧ c.redis.inbox = []

/-- Once nothing is left to do, every chat taken on was written to a connection
that a map held for the recipient, or stands in the offline table, or was in a
login reply. Equal chats are told apart by their number. -/
def Accounted (codec : JsonCodec) (c : Cluster n) : Prop :=
  c.Drained → ∀ r t, c.chats.count (r, t) ≤
    ∑ i, (c.servers i).handed codec r t + c.db.offlinemessage.count (r, t)

/-- The step loses nothing: whoever is published to is listened for, a chat to
store fits its statement, and a login that takes messages can reply. -/
def Delivers (codec : JsonCodec) (c : Cluster n) : ClusterStep n → Prop
  | .request i _ text =>
      ∀ js msgid, codec.parse text = some js → js.intAt (lit "msgid") = some msgid →
      Routable msgid js (c.view i)
  | .observe i k => ∀ d, c.redis.inbox[k]? = some d →
      (c.servers i).userConnMap.lookup d.channel = none →
        fits (OfflineMsgModel.insertSql d.channel d.message)
  | .work i => ∀ k rest, (c.servers i).dbQueue = k :: rest → k.type = .insertOfflineMsg →
      fits (OfflineMsgModel.insertSql k.toid k.msg)
  | .close _ _ _ => True
  | .expire _ => True

/-! ## The shared account -/

/-- Where a chat can be, over all servers. -/
def total (codec : JsonCodec) (r : Int32) (t : Bytes) (c : Cluster n) : Nat :=
  ∑ i, ((c.servers i).handed codec r t + (c.servers i).queued r t) +
    (c.redis.inbox.countP (Delivery.holds r t) + c.db.offlinemessage.count (r, t))

variable {codec : JsonCodec} {r : Int32} {t : Bytes} {c c' : Cluster n}

/-- What a step of one server adds to its account it adds to the total. -/
theorem total_put {i : Fin n} {s : Server} {k : Nat}
    (h : (c.view i).accounts codec r t + k ≤ s.accounts codec r t) :
    c.total codec r t + k ≤ (c.put i s).total codec r t := by
  have hold : c.total codec r t = (c.view i).accounts codec r t +
      ∑ j ∈ Finset.univ.erase i, ((c.servers j).handed codec r t + (c.servers j).queued r t) := by
    rw [total, ← Finset.add_sum_erase _ _ (Finset.mem_univ i)]
    simp only [Server.accounts, Server.handed, Server.queued, Server.travelling,
      Server.stored, view]
    omega
  have hnew : (c.put i s).total codec r t = s.accounts codec r t +
      ∑ j ∈ Finset.univ.erase i, ((c.servers j).handed codec r t + (c.servers j).queued r t) := by
    have hothers : ∑ j ∈ Finset.univ.erase i, (((c.put i s).servers j).handed codec r t +
        ((c.put i s).servers j).queued r t) =
          ∑ j ∈ Finset.univ.erase i,
          ((c.servers j).handed codec r t + (c.servers j).queued r t) := by
      refine Finset.sum_congr rfl fun j hj => ?_
      have hj' : (c.put i s).servers j = c.servers j :=
        Function.update_of_ne (Finset.ne_of_mem_erase hj) _ _
      rw [hj']
    rw [total, ← Finset.add_sum_erase _ _ (Finset.mem_univ i), hothers]
    simp only [Server.accounts, Server.travelling, Server.stored, put, Function.update_self]
    omega
  omega

/-! ## Runs -/

/-- Every chat is accounted for, and what is on its way can be sent on. -/
structure Inv (codec : JsonCodec) (c : Cluster n) : Prop where
  counted : ∀ r t, c.chats.count (r, t) ≤ c.total codec r t
  inbox : ∀ d ∈ c.redis.inbox, Forwardable codec d.message

namespace Inv

theorem start (codec : JsonCodec) (n : Nat) (db : Database) : Inv codec (Cluster.start n db) :=
  ⟨fun r t => by simp [Cluster.start], by simp [Cluster.start, Redis.empty]⟩

/-- A step of one server that adds nothing to the chats. -/
theorem put (h : Inv codec c) {i : Fin n} {s : Server}
    (hacc : ∀ r t, (c.view i).accounts codec r t ≤ s.accounts codec r t)
    (hinbox : ∀ d ∈ s.redis.inbox, Forwardable codec d.message) : Inv codec (c.put i s) :=
  ⟨fun r t => (h.counted r t).trans (total_put (k := 0) (hacc r t)), hinbox⟩

theorem step (hc : codec.Lawful) (h : Inv codec c) {l : ClusterStep n} (hok : Delivers codec c l)
    (hs : c.step codec l = some c') : Inv codec c' := by
  cases l with
  | request i conn text =>
    obtain ⟨js, hparse, rfl⟩ := Option.map_eq_some_iff.mp hs
    have hj := hc.parse_canon hparse
    have hu := hc.parse_utf8 hparse
    unfold handleJson takenOn
    cases hid : js.intAt (lit "msgid") with
    | none =>
      have hput := h.put (i := i) (s := c.view i) (fun _ _ => Nat.le_refl _) h.inbox
      rw [List.append_nil]
      exact ⟨hput.counted, hput.inbox⟩
    | some msgid =>
      have hroute := hok js msgid hparse hid
      refine ⟨fun r t => ?_, getHandler_forwardable hc _ conn hj hu hid h.inbox⟩
      show (c.chats ++ (addressees msgid js (c.view i)).map (·, codec.text js)).count (r, t) ≤ _
      rw [List.count_append]
      exact (Nat.add_le_add_right (h.counted r t) _).trans
        (total_put (accounts_getHandler hc conn hu hroute))
  | close i order conn =>
    simp only [Cluster.step] at hs
    split at hs
    · cases hs
      obtain ⟨tasks, happ, -⟩ := onConnection_appends order conn (c.view i)
      refine h.put (fun r t => accounts_onConnection order conn (c.view i)) ?_
      rw [happ.deliveries, List.append_nil]
      exact h.inbox
    · cases hs
  | observe i k =>
    obtain ⟨s, hobs, rfl⟩ := Option.map_eq_some_iff.mp hs
    exact h.put (fun r t => accounts_observe hc hobs h.inbox hok)
      fun d hd => h.inbox d (observe_inbox hobs d hd)
  | expire id =>
    cases hs
    exact ⟨h.counted, h.inbox⟩
  | work i =>
    obtain ⟨s, hwork, rfl⟩ := Option.map_eq_some_iff.mp hs
    refine h.put (fun r t => accounts_work hwork hok) ?_
    rw [work_redis hwork]
    exact h.inbox

theorem accounted (h : Inv codec c) : Accounted codec c := by
  rintro ⟨hqueues, hinbox⟩ r t
  refine (h.counted r t).trans ?_
  rw [total, hinbox, List.countP_nil, Nat.zero_add]
  refine Nat.add_le_add_right (Finset.sum_le_sum fun i _ => ?_) _
  rw [Server.queued, hqueues i, List.countP_nil, Nat.add_zero]

end Inv

end Cluster

/-! ## Sample runs -/

namespace Sample

def clusterMachine : Machine (Cluster 1) (ClusterStep 1) := Cluster.machine JsonText.codec 1

/-- A request as a text that arrives at the only server. -/
def arrives (conn : Conn) (js : Json) : ClusterStep 1 := .request 0 conn (JsonText.codec.text js)

/-- User 2 logs in and out again; the worker has applied the logins only when
the chat to user 2 arrives. -/
def publishedToNobody : List (ClusterStep 1) :=
  [arrives 1 (reg "a"), arrives 2 (reg "b"), arrives 1 (login 1), arrives 2 (login 2), .work 0,
    .work 0, arrives 2 (logout 2), arrives 1 (chat 1 2), .work 0]

theorem publishedToNobody_runs :
    (clusterMachine.exec (Cluster.start 1 Database.empty) publishedToNobody).isSome := by
  decide +kernel

def lost : Cluster 1 := Option.get _ publishedToNobody_runs

theorem registered_runs : ((Server.machine JsonText.codec (· = Server.start 0 Database.empty)).exec
    (Server.start 0 Database.empty) registered).isSome := by decide +kernel

/-- The server of users 1 and 2, of whom neither has logged in. -/
def users : Cluster 1 := Cluster.start 1 (Option.get _ registered_runs).db

theorem mailed_runs : (clusterMachine.exec users [arrives 1 (chat 1 2)]).isSome := by decide +kernel

/-- A chat to user 2, still in the queue. -/
def mailed : Cluster 1 := Option.get _ mailed_runs

theorem stored_runs : (clusterMachine.step mailed (.work 0)).isSome := by decide +kernel

/-- The chat in the table. -/
def stored : Cluster 1 := Option.get _ stored_runs

end Sample

/-- In every run whose steps lose nothing, every chat taken on for a registered
user is accounted for. -/
theorem chats_accounted {codec : JsonCodec} (hc : codec.Lawful) {n : Nat} {c : Cluster n}
    (h : (Cluster.machine codec n).Run (Cluster.Delivers codec) c) : Cluster.Accounted codec c := by
  have hinv : Cluster.Inv codec c := by
    refine h.invariant ?_ fun c l c' hi hok hs => hi.step hc hok hs
    rintro c ⟨db, rfl⟩
    exact Cluster.Inv.start codec n db
  exact hinv.accounted

theorem chats_accounted_stored : Sample.stored.chats =
    [(2, JsonText.codec.text (Sample.chat 1 2))] ∧
      Cluster.Accounted JsonText.codec Sample.stored := by
  have hstart : Sample.clusterMachine.Run (Cluster.Delivers JsonText.codec) Sample.users :=
    .start ⟨_, rfl⟩
  have hroute :
      Cluster.Delivers JsonText.codec Sample.users (Sample.arrives 1 (Sample.chat 1 2)) := by
    intro js msgid hp hm
    have hjs : js = Sample.chat 1 2 := by
      have hu : (Sample.chat 1 2).utf8 := by decide +kernel
      have hp' := parse_text JsonText.codec_lawful (by decide +kernel) hu
      exact Option.some.inj (hp.symm.trans hp')
    subst hjs
    have hid : msgid = 6 := by
      have h6 : (Sample.chat 1 2).intAt (lit "msgid") = some 6 := by decide +kernel
      exact Option.some.inj (hm.symm.trans h6)
    subst hid
    have haddr : addressees 6 (Sample.chat 1 2) (Sample.users.view 0) = [2] := by decide +kernel
    have hoff : ¬ SeemsOnline MySQL.up 2 (Sample.users.view 0) := by decide +kernel
    refine ⟨fun _ id hmem _ hon => ?_, fun h => absurd h (by decide), fun h => absurd h (by decide)⟩
    rw [haddr] at hmem
    exact absurd (List.mem_singleton.mp hmem ▸ hon) hoff
  have hmailed : Sample.clusterMachine.Run (Cluster.Delivers JsonText.codec) Sample.mailed := by
    have hexec := (Option.some_get Sample.mailed_runs).symm
    obtain ⟨c, hs, hc⟩ := Option.bind_eq_some_iff.mp hexec
    cases hc
    exact .next hstart hroute hs
  have hfit : Cluster.Delivers JsonText.codec Sample.mailed (.work 0) := by
    have hall : ∀ k ∈ (Sample.mailed.servers 0).dbQueue,
        fits (OfflineMsgModel.insertSql k.toid k.msg) := by decide +kernel
    intro k rest hq _
    exact hall k (hq ▸ List.mem_cons_self)
  have hstored : Sample.clusterMachine.Run (Cluster.Delivers JsonText.codec) Sample.stored :=
    .next hmailed hfit (Option.some_get Sample.stored_runs).symm
  exact ⟨by decide +kernel, chats_accounted JsonText.codec_lawful hstored⟩

/-- The chat to user 2 is published to nobody. -/
theorem chat_lost :
    ¬ ∀ c, Sample.clusterMachine.Reachable c → Cluster.Accounted JsonText.codec c := by
  intro h
  have hreach : Sample.clusterMachine.Reachable Sample.lost :=
    Machine.reachable_exec (M := Sample.clusterMachine) ⟨Database.empty, rfl⟩
    Sample.publishedToNobody_runs
  have hdrained : Sample.lost.Drained := by
    refine ⟨fun i => ?_, by decide +kernel⟩
    have hi : i = 0 := Subsingleton.elim _ _
    subst hi
    decide +kernel
  have hcount := h _ hreach hdrained 2 (JsonText.codec.text (Sample.chat 1 2))
  revert hcount
  decide +kernel

end MyChat
