import MyChat.Commands
import MyChat.Lib.Simulation
import MyChat.Redis

/-! The class `Redis` by the commands that it sends. Redis itself knows keys and
channels as texts and sends a subscriber confirmations and messages alike; what
the observer's loop hands to a server is what was published for its ids. -/

namespace MyChat

/-! ## Redis on texts -/

inductive RedisReply
  | status (s : Bytes)
  | string (s : Bytes)
  | integer (n : Nat)
  | nil
  | array (elements : List RedisReply)

namespace RedisReply

/-- hiredis' `str`, null for numbers, nil and arrays. -/
def str : RedisReply → Option Bytes
  | .status s | .string s => some s
  | _ => none

def element (i : Nat) : RedisReply → Option RedisReply
  | .array elements => elements[i]?
  | _ => none

/-- What a subscriber gets: a kind, a channel, and a message or a count. -/
def push (kind channel : Bytes) (third : RedisReply) : RedisReply :=
  .array [.string kind, .string channel, third]

end RedisReply

inductive RedisCommand
  | get (key : Bytes)
  | set (key value : Bytes) (seconds : Int32)
  | del (key : Bytes)
  | publish (channel message : Bytes)
  | subscribe (channel : Bytes)
  | unsubscribe (channel : Bytes)

/-- `replies` are on their way to the subscribed connections, one for each server. -/
structure RedisServer where
  subs : List (Nat × Bytes)
  values : Finmap fun _ : Bytes => Bytes
  replies : List (Nat × RedisReply)

namespace RedisServer

def start : RedisServer := ⟨[], ∅, []⟩

/-- The confirmation of a subscription goes the way of the messages. -/
def confirm (server : Nat) (kind channel : Bytes) (r : RedisServer) : RedisServer :=
  { r with replies := r.replies ++
      [(server, .push kind channel (.integer (r.subs.countP (·.1 = server))))] }

def execute (server : Nat) (r : RedisServer) : RedisCommand → RedisReply × RedisServer
  | .get key => ((r.values.lookup key).elim .nil .string, r)
  | .set key value _ => (.status (lit "OK"), { r with values := r.values.insert key value })
  | .del key =>
      (.integer (if key ∈ r.values then 1 else 0), { r with values := r.values.erase key })
  | .publish channel message =>
      (.integer (r.subs.countP (·.2 = channel)),
        { r with replies := r.replies ++ (r.subs.filter (·.2 = channel)).map fun sub =>
            (sub.1, .push (lit "message") channel (.string message)) })
  | .subscribe channel =>
      (.nil, { r with subs := r.subs.insert (server, channel) }.confirm server (lit "subscribe")
        channel)
  | .unsubscribe channel =>
      (.nil, { r with subs := r.subs.filter (· ≠ (server, channel)) }.confirm server
        (lit "unsubscribe") channel)

/-! ## The class -/

/-- An id under `%d` and `to_string`. -/
def idText (id : Int32) : Bytes := dumpInt id.toInt

def publish (server : Nat) (channel : Int32) (message : Bytes) (r : RedisServer) : RedisServer :=
  (r.execute server (.publish (idText channel) (cStr message))).2

def subscribe (server : Nat) (channel : Int32) (r : RedisServer) : RedisServer :=
  (r.execute server (.subscribe (idText channel))).2

def unsubscribe (server : Nat) (channel : Int32) (r : RedisServer) : RedisServer :=
  (r.execute server (.unsubscribe (idText channel))).2

def get (server : Nat) (key : Bytes) (r : RedisServer) : Option Bytes :=
  match (r.execute server (.get (cStr key))).1 with
  | .string val => some (cStr val)
  | _ => none

def set (server : Nat) (key value : Bytes) (expireSec : Int32) (r : RedisServer) :
    Bool × RedisServer :=
  let reply := r.execute server (.set (cStr key) (cStr value) expireSec)
  (match reply.1 with
    | .status s => s = lit "OK"
    | _ => false, reply.2)

def delete (server : Nat) (key : Bytes) (r : RedisServer) : Bool × RedisServer :=
  let reply := r.execute server (.del (cStr key))
  (match reply.1 with
    | .integer n => 0 < n
    | _ => false, reply.2)

/-- What a turn of `observer_channel_message` gives to the notify handler. A
confirmation has a number where a message has its text. -/
def notification (reply : RedisReply) : Option (Int32 × Bytes) :=
  match (reply.element 1).bind RedisReply.str, (reply.element 2).bind RedisReply.str with
  | some channel, some message => some (atoi channel, cStr message)
  | _, _ => none

/-- One turn of the loop, on the next reply of its connection. -/
def observerChannelMessage (server : Nat) (r : RedisServer) :
    Option (Option (Int32 × Bytes) × RedisServer) :=
  (r.replies.find? (·.1 = server)).map fun x =>
    (notification x.2, { r with replies := r.replies.eraseP (·.1 = server) })

end RedisServer

/-- The calls of the servers, and Redis when the time of a key is up. -/
inductive RedisCall
  | publish (server : Nat) (channel : Int32) (message : Bytes)
  | subscribe (server : Nat) (channel : Int32)
  | unsubscribe (server : Nat) (channel : Int32)
  /-- As a login and `OnHeartBeat` call `Set`. -/
  | set (server : Nat) (id : Int32)
  | delete (server : Nat) (id : Int32)
  | expire (key : Bytes)
  | observe (server : Nat)

/-- The same by ids, with the calls of the notify handlers. -/
inductive RedisEvent
  | publish (channel : Int32) (message : Bytes)
  | subscribe (server : Nat) (channel : Int32)
  | unsubscribe (server : Nat) (channel : Int32)
  | set (key : Int32)
  | delete (key : Int32)
  | notify (d : Delivery)
  deriving DecidableEq

namespace RedisServer

def machine : Machine RedisServer RedisCall where
  init r := r = start
  step r
    | .publish server channel message => some (r.publish server channel message)
    | .subscribe server channel => some (r.subscribe server channel)
    | .unsubscribe server channel => some (r.unsubscribe server channel)
    | .set server id => some (r.set server (idText id) (idText 0) 120).2
    | .delete server id => some (r.delete server (idText id)).2
    | .expire key => if key ∈ r.values then some { r with values := r.values.erase key } else none
    | .observe server => (r.observerChannelMessage server).map Prod.snd

def event (r : RedisServer) : RedisCall → Option RedisEvent
  | .publish _ channel message => some (.publish channel message)
  | .subscribe server channel => some (.subscribe server channel)
  | .unsubscribe server channel => some (.unsubscribe server channel)
  | .set _ id => some (.set id)
  | .delete _ id => some (.delete id)
  | .expire key => some (.delete (atoi key))
  | .observe server =>
      ((r.observerChannelMessage server).bind Prod.fst).map fun x => .notify ⟨server, x.1, x.2⟩

end RedisServer

namespace Redis

/-- Redis as the servers' model has it. Each server gets its messages in order. -/
def machine : Machine Redis RedisEvent where
  init r := r = empty
  step r
    | .publish channel message => some (r.publish channel message)
    | .subscribe server channel => some (r.subscribe server channel)
    | .unsubscribe server channel => some (r.unsubscribe server channel)
    | .set key => some (r.set key)
    | .delete key => some (r.delete key)
    | .notify d =>
        if r.inbox.find? (·.server = d.server) = some d then
          some (r.take (r.inbox.findIdx (·.server = d.server)))
        else none

theorem take_first {r : Redis} {server : Nat} {d : Delivery}
    (h : r.inbox.find? (·.server = server) = some d) :
    (r.take (r.inbox.findIdx (·.server = server))).inbox = r.inbox.eraseP (·.server = server) := by
  have hidx : r.inbox.findIdx? (·.server = server) = some (r.inbox.findIdx (·.server = server)) :=
    List.findIdx?_eq_some_of_exists
    ⟨d, List.mem_of_find?_eq_some h, by simpa using List.find?_some h⟩
  rw [List.eraseP_eq_eraseIdx, hidx]
  rfl

/-- A handler's call takes a pending delivery, as the servers' model has it. -/
theorem notify_take {r r' : Redis} {d : Delivery} (h : machine.step r (.notify d) = some r') :
    ∃ k, r.inbox[k]? = some d ∧ r' = r.take k := by
  simp only [machine] at h
  split at h
  · next hd =>
    cases h
    rw [List.find?_eq_getElem?_findIdx] at hd
    exact ⟨_, hd, rfl⟩
  · cases h

end Redis

/-! ## Texts and ids -/

namespace RedisServer

theorem idText_nul (id : Int32) : (0 : UInt8) ∉ idText id := by
  intro h0
  unfold idText at h0
  cases h : id.toInt with
  | ofNat n =>
    rw [h] at h0
    exact absurd (dumpNat_isDigit n 0 h0) (by decide)
  | negSucc n =>
    rw [h] at h0
    rcases List.mem_cons.mp h0 with h0 | h0
    · cases h0
    · exact absurd (dumpNat_isDigit (n + 1) 0 h0) (by decide)

@[simp] theorem cStr_idText (id : Int32) : cStr (idText id) = idText id :=
  cStr_eq_self (idText_nul id)

@[simp] theorem atoi_idText (id : Int32) : atoi (idText id) = id := by
  have hlow := id.le_toInt
  have hhigh := id.toInt_lt
  have hclamp : max (-2 ^ 63) (min (2 ^ 63 - 1) id.toInt) = id.toInt := by omega
  rw [atoi, cStr_idText, idText, stoi_dumpInt, Option.getD_some, hclamp, Int32.ofInt_toInt]

theorem idText_inj {id id' : Int32} : idText id = idText id' ↔ id = id' :=
  ⟨fun h => by rw [← atoi_idText id, h, atoi_idText], fun h => h ▸ rfl⟩

/-- Channels and keys are texts of ids. -/
structure Named (r : RedisServer) : Prop where
  nodup : r.subs.Nodup
  channels : ∀ sub ∈ r.subs, ∃ id, sub.2 = idText id
  keys : ∀ key ∈ r.values, ∃ id, key = idText id

def delivery (x : Nat × RedisReply) : Option Delivery :=
  (notification x.2).map fun n => ⟨x.1, n.1, n.2⟩

/-- Redis by ids. -/
def ids (r : RedisServer) : Redis where
  subs := (r.subs.map fun sub => (sub.1, atoi sub.2)).dedup
  nodup := List.nodup_dedup _
  keys := r.values.keys.image atoi
  inbox := r.replies.filterMap delivery

variable {r r' : RedisServer}

namespace Named

theorem start : Named RedisServer.start :=
  ⟨List.nodup_nil, List.forall_mem_nil _, fun key h => by cases h⟩

/-- The text of a channel comes back from its id. -/
theorem idText_atoi (h : r.Named) {sub : Nat × Bytes} (hsub : sub ∈ r.subs) :
    idText (atoi sub.2) = sub.2 := by
  obtain ⟨id, hid⟩ := h.channels sub hsub
  rw [hid, atoi_idText]

theorem ids_subs (h : r.Named) : r.ids.subs = r.subs.map fun sub => (sub.1, atoi sub.2) := by
  refine (List.Nodup.map_on (fun sub hsub sub' hsub' he => ?_) h.nodup).dedup
  obtain ⟨hserver, hid⟩ := Prod.mk.injEq .. ▸ he
  refine Prod.ext hserver ?_
  rw [← h.idText_atoi hsub, hid, h.idText_atoi hsub']

theorem mem_ids_subs (h : r.Named) {server : Nat} {id : Int32} :
    (server, id) ∈ r.ids.subs ↔ (server, idText id) ∈ r.subs := by
  rw [h.ids_subs, List.mem_map]
  constructor
  · rintro ⟨sub, hsub, he⟩
    cases he
    rw [h.idText_atoi hsub]
    exact hsub
  · intro hmem
    exact ⟨_, hmem, by rw [atoi_idText]⟩

theorem mem_ids_keys (h : r.Named) {id : Int32} : id ∈ r.ids.keys ↔ idText id ∈ r.values := by
  change id ∈ r.values.keys.image atoi ↔ _
  rw [Finset.mem_image]
  constructor
  · rintro ⟨key, hkey, rfl⟩
    obtain ⟨id, rfl⟩ := h.keys key (Finmap.mem_keys.mp hkey)
    rw [atoi_idText]
    exact Finmap.mem_keys.mp hkey
  · intro hmem
    exact ⟨_, Finmap.mem_keys.mpr hmem, atoi_idText id⟩

end Named

/-! ## One call -/

theorem redis_ext {a b : Redis} (hsubs : a.subs = b.subs) (hkeys : a.keys = b.keys)
    (hinbox : a.inbox = b.inbox) :
    a = b := by
  cases a
  cases b
  cases hsubs
  cases hkeys
  cases hinbox
  rfl

theorem delivery_message (server : Nat) (channel : Int32) (message : Bytes) :
    delivery (server, .push (lit "message") (idText channel) (.string (cStr message))) =
      some ⟨server, channel, cStr message⟩ := by
  have hcut : cStr (cStr message) = cStr message := by
    rw [cStr, cStr, List.takeWhile_takeWhile]
    simp
  simp [delivery, notification, RedisReply.push, RedisReply.element, RedisReply.str, hcut]

/-- A confirmation is handed to nobody. -/
theorem inbox_confirm (server : Nat) (kind channel : Bytes) (r : RedisServer) :
    (r.confirm server kind channel).ids.inbox = r.ids.inbox := by
  change (r.replies ++ [_]).filterMap delivery = r.replies.filterMap delivery
  rw [List.filterMap_append]
  exact List.append_nil _

theorem ids_publish (h : r.Named) (server : Nat) (channel : Int32) (message : Bytes) :
    (r.publish server channel message).ids = r.ids.publish channel message := by
  refine redis_ext rfl rfl ?_
  change (r.replies ++ _).filterMap delivery = r.replies.filterMap delivery ++ _
  rw [List.filterMap_append, List.filterMap_map]
  congr 1
  have hsent : delivery ∘ (fun sub : Nat × Bytes =>
      (sub.1, RedisReply.push (lit "message") (idText channel) (.string (cStr message)))) =
      fun sub => some ⟨sub.1, channel, cStr message⟩ :=
    funext fun sub => delivery_message sub.1 channel message
  have hto : r.ids.subs.filter (·.2 = channel) =
      (r.subs.filter (·.2 = idText channel)).map fun sub => (sub.1, atoi sub.2) := by
    rw [h.ids_subs, List.filter_map]
    refine congrArg _ (List.filter_congr fun sub hsub => ?_)
    rw [← h.idText_atoi hsub]
    simp [idText_inj]
  rw [hsent, hto, List.map_map]
  exact congrFun List.filterMap_eq_map' _

theorem Named.subscribe (h : r.Named) (server : Nat) (channel : Int32) :
    (r.subscribe server channel).Named := by
  refine ⟨h.nodup.insert, fun sub hsub => ?_, h.keys⟩
  rcases List.mem_insert_iff.mp hsub with rfl | hsub
  · exact ⟨channel, rfl⟩
  · exact h.channels sub hsub

theorem Named.unsubscribe (h : r.Named) (server : Nat) (channel : Int32) :
    (r.unsubscribe server channel).Named :=
  ⟨h.nodup.filter _, fun sub hsub => h.channels sub (List.mem_of_mem_filter hsub), h.keys⟩

theorem ids_subscribe (h : r.Named) (server : Nat) (channel : Int32) :
    (r.subscribe server channel).ids = r.ids.subscribe server channel := by
  refine redis_ext ?_ rfl (inbox_confirm ..)
  change _ = r.ids.subs.insert (server, channel)
  rw [(h.subscribe server channel).ids_subs]
  change (r.subs.insert (server, idText channel)).map _ = _
  by_cases hmem : (server, idText channel) ∈ r.subs
  · rw [List.insert_of_mem hmem, List.insert_of_mem (h.mem_ids_subs.mpr hmem), h.ids_subs]
  · rw [List.insert_of_not_mem hmem, List.insert_of_not_mem fun he =>
      hmem (h.mem_ids_subs.mp he), h.ids_subs, List.map_cons, atoi_idText]

theorem ids_unsubscribe (h : r.Named) (server : Nat) (channel : Int32) :
    (r.unsubscribe server channel).ids = r.ids.unsubscribe server channel := by
  refine redis_ext ?_ rfl (inbox_confirm ..)
  change _ = r.ids.subs.filter (· ≠ (server, channel))
  rw [(h.unsubscribe server channel).ids_subs, h.ids_subs, List.filter_map]
  refine congrArg _ (List.filter_congr fun sub hsub => ?_)
  obtain ⟨id, hid⟩ := h.channels sub hsub
  simp [Prod.ext_iff, hid, idText_inj]

theorem keys_insert (values : Finmap fun _ : Bytes => Bytes) (key value : Bytes) :
    (values.insert key value).keys = insert key values.keys := by
  ext k
  rw [Finmap.mem_keys, Finmap.mem_insert, Finset.mem_insert, Finmap.mem_keys]

theorem Named.set (h : r.Named) (server : Nat) (id : Int32) (value : Bytes) (expireSec : Int32) :
    (r.set server (idText id) value expireSec).2.Named := by
  refine ⟨h.nodup, h.channels, fun key hkey => ?_⟩
  change key ∈ r.values.insert (cStr (idText id)) (cStr value) at hkey
  rcases Finmap.mem_insert.mp hkey with rfl | hkey
  · exact ⟨id, cStr_idText id⟩
  · exact h.keys key hkey

theorem ids_set (server : Nat) (id : Int32) (value : Bytes) (expireSec : Int32) (r : RedisServer) :
    (r.set server (idText id) value expireSec).2.ids = r.ids.set id := by
  refine redis_ext rfl ?_ rfl
  change (r.values.insert (cStr (idText id)) (cStr value)).keys.image atoi =
    insert id (r.values.keys.image atoi)
  rw [cStr_idText, keys_insert, Finset.image_insert, atoi_idText]

theorem Named.erase (h : r.Named) (key : Bytes) : Named { r with values := r.values.erase key } :=
  ⟨h.nodup, h.channels, fun k hk => h.keys k (Finmap.mem_erase.mp hk).2⟩

theorem ids_erase (h : r.Named) (id : Int32) :
    ids { r with values := r.values.erase (idText id) } = r.ids.delete id := by
  refine redis_ext rfl ?_ rfl
  ext k
  rw [(h.erase (idText id)).mem_ids_keys, Redis.keys_delete, Finset.mem_erase, h.mem_ids_keys,
    Finmap.mem_erase]
  exact and_congr_left fun _ => not_congr idText_inj

theorem ids_delete (h : r.Named) (server : Nat) (id : Int32) :
    (r.delete server (idText id)).2.ids = r.ids.delete id := by
  have herase := ids_erase h id
  rw [← cStr_idText id] at herase
  exact herase

/-! ## The observer -/

theorem delivery_server {x : Nat × RedisReply} {d : Delivery} (h : delivery x = some d) :
    d.server = x.1 := by
  obtain ⟨n, -, rfl⟩ := Option.map_eq_some_iff.mp h
  rfl

/-- The next reply of a connection leaves: a confirmation was no delivery. -/
theorem inbox_erase_none {replies : List (Nat × RedisReply)} {server : Nat} {x : Nat × RedisReply}
    (hx : replies.find? (·.1 = server) = some x) (hnone : delivery x = none) :
    (replies.eraseP (·.1 = server)).filterMap delivery = replies.filterMap delivery := by
  induction replies with
  | nil => cases hx
  | cons y replies ih =>
    by_cases hy : y.1 = server
    · rw [List.find?_cons_of_pos (by simpa using hy)] at hx
      cases hx
      rw [List.eraseP_cons_of_pos (by simpa using hy), List.filterMap_cons_none hnone]
    · rw [List.find?_cons_of_neg (by simpa using hy)] at hx
      rw [List.eraseP_cons_of_neg (by simpa using hy), List.filterMap_cons,
        List.filterMap_cons, ih hx]

/-- A message was the first delivery of its server. -/
theorem inbox_erase_some {replies : List (Nat × RedisReply)} {server : Nat} {x : Nat × RedisReply}
    {d : Delivery} (hx : replies.find? (·.1 = server) = some x) (hd : delivery x = some d) :
    (replies.filterMap delivery).find? (·.server = server) = some d ∧
      (replies.eraseP (·.1 = server)).filterMap delivery =
        (replies.filterMap delivery).eraseP (·.server = server) := by
  induction replies with
  | nil => cases hx
  | cons y replies ih =>
    by_cases hy : y.1 = server
    · rw [List.find?_cons_of_pos (by simpa using hy)] at hx
      cases hx
      have hserver : d.server = server := (delivery_server hd).trans hy
      rw [List.eraseP_cons_of_pos (by simpa using hy), List.filterMap_cons_some hd,
        List.find?_cons_of_pos (by simpa using hserver),
        List.eraseP_cons_of_pos (by simpa using hserver)]
      exact ⟨rfl, rfl⟩
    · rw [List.find?_cons_of_neg (by simpa using hy)] at hx
      obtain ⟨hfind, herase⟩ := ih hx
      rw [List.eraseP_cons_of_neg (by simpa using hy)]
      cases hdy : delivery y with
      | none =>
        rw [List.filterMap_cons_none hdy, List.filterMap_cons_none hdy]
        exact ⟨hfind, herase⟩
      | some e =>
        have hserver : ¬ e.server = server := fun he => hy ((delivery_server hdy).symm.trans he)
        rw [List.filterMap_cons_some hdy, List.filterMap_cons_some hdy,
          List.find?_cons_of_neg (by simpa using hserver),
          List.eraseP_cons_of_neg (by simpa using hserver), herase]
        exact ⟨hfind, rfl⟩

theorem ids_observe_none {server : Nat} (hs : r.observerChannelMessage server = some (none, r')) :
    r'.ids = r.ids := by
  obtain ⟨x, hx, he⟩ := Option.map_eq_some_iff.mp hs
  obtain ⟨hn, rfl⟩ := Prod.mk.inj he
  have hnone : delivery x = none := by rw [delivery, hn]; rfl
  exact redis_ext rfl rfl (inbox_erase_none hx hnone)

theorem ids_observe_some {server : Nat} {m : Int32 × Bytes}
    (hs : r.observerChannelMessage server = some (some m, r')) :
    Redis.machine.step r.ids (.notify ⟨server, m.1, m.2⟩) = some r'.ids := by
  obtain ⟨x, hx, he⟩ := Option.map_eq_some_iff.mp hs
  obtain ⟨hn, rfl⟩ := Prod.mk.inj he
  have hserver : x.1 = server := by simpa using List.find?_some hx
  have hd : delivery x = some ⟨server, m.1, m.2⟩ := by rw [delivery, hn, hserver]; rfl
  obtain ⟨hfind, herase⟩ := inbox_erase_some hx hd
  refine (if_pos hfind).trans (congrArg some ?_)
  exact redis_ext rfl rfl ((Redis.take_first hfind).trans herase.symm)

/-! ## Every run -/

theorem Named.step (h : r.Named) {l : RedisCall} (hs : machine.step r l = some r') : r'.Named := by
  cases l with
  | publish server channel message => cases hs; exact ⟨h.nodup, h.channels, h.keys⟩
  | subscribe server channel => cases hs; exact h.subscribe server channel
  | unsubscribe server channel => cases hs; exact h.unsubscribe server channel
  | set server id => cases hs; exact h.set server id _ _
  | delete server id => cases hs; exact h.erase _
  | expire key =>
    simp only [machine] at hs
    split at hs
    · cases hs; exact h.erase key
    · cases hs
  | observe server =>
    obtain ⟨⟨n, r₁⟩, hobs, rfl⟩ := Option.map_eq_some_iff.mp hs
    obtain ⟨x, -, he⟩ := Option.map_eq_some_iff.mp hobs
    cases he
    exact ⟨h.nodup, h.channels, h.keys⟩

theorem machine_simulates : machine.Simulates Redis.machine Named ids event where
  init r hr := by
    cases hr
    exact ⟨.start, redis_ext rfl rfl rfl⟩
  keeps r l r' h hs := h.step hs
  silent r l r' h hs hev := by
    cases l with
    | observe server =>
      obtain ⟨⟨n, r₁⟩, hobs, rfl⟩ := Option.map_eq_some_iff.mp hs
      simp only [event, hobs, Option.bind_some, Option.map_eq_none_iff] at hev
      subst hev
      exact ids_observe_none hobs
    | _ => cases hev
  step r l r' e h hs hev := by
    cases l with
    | publish server channel message =>
      cases hs; cases hev; exact congrArg some (ids_publish h ..).symm
    | subscribe server channel => cases hs; cases hev; exact congrArg some (ids_subscribe h ..).symm
    | unsubscribe server channel =>
      cases hs; cases hev; exact congrArg some (ids_unsubscribe h ..).symm
    | set server id => cases hs; cases hev; exact congrArg some (ids_set ..).symm
    | delete server id => cases hs; cases hev; exact congrArg some (ids_delete h ..).symm
    | expire key =>
      simp only [machine] at hs
      split at hs
      · next hkey =>
        cases hs
        cases hev
        obtain ⟨id, rfl⟩ := h.keys key hkey
        rw [atoi_idText]
        exact congrArg some (ids_erase h id).symm
      · cases hs
    | observe server =>
      obtain ⟨⟨n, r₁⟩, hobs, rfl⟩ := Option.map_eq_some_iff.mp hs
      simp only [event, hobs, Option.bind_some, Option.map_eq_some_iff] at hev
      obtain ⟨m, rfl, rfl⟩ := hev
      exact ids_observe_some hobs

end RedisServer

/-- What one server is to hear of: the messages published on the channels that it
has subscribed to and not left since. -/
def heard (server : Nat) : Finset Int32 → List RedisEvent → List (Int32 × Bytes)
  | _, [] => []
  | subs, .subscribe s id :: es => heard server (if s = server then insert id subs else subs) es
  | subs, .unsubscribe s id :: es => heard server (if s = server then subs.erase id else subs) es
  | subs, .publish id message :: es =>
      (if id ∈ subs then [(id, cStr message)] else []) ++ heard server subs es
  | subs, _ :: es => heard server subs es

namespace Redis

/-- The messages that one server has not read yet. -/
def pending (server : Nat) (r : Redis) : List (Int32 × Bytes) :=
  (r.inbox.filter (·.server = server)).map fun d => (d.channel, d.message)

variable {r r' : Redis}

end Redis

namespace RedisServer

namespace Sample

end Sample

end RedisServer

end MyChat
