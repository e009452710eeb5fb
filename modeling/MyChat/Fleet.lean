import MyChat.ServerRun

/-! Server processes that share a database and a Redis, from start to end: they
are booted, read whatever bytes clients write, are interrupted, killed or ended
by an exception, and booted again. Every database call has its own outcome. -/

namespace MyChat
open Json

/-! ## One callback -/

section
variable (evp : Evp) (codec : JsonCodec)

/-- The JSON value that a call of `onMessage` hands on. -/
def requestOf (buf : Bytes) : Option Json :=
  if buf.length < MsgHeader.size then none
  else if (MsgHeader.cast buf).isEncrypted = 1 then
    match aes256CBCDecrypt evp (buf.drop MsgHeader.size) myAesKey with
    | .error _ => none
    | .ok plain => if plain = [] then none else codec.parse plain
  else codec.parse (buf.drop MsgHeader.size)

/-- What a call of `onMessage` leaves: maybe the effects of one handler, and
maybe the connection shut down. -/
inductive Received (my : Nat → MySQL) (conn : Conn) (buf : Bytes) (s : Server) : Server → Prop
  | nothing : Received my conn buf s s
  | handled {js : Json} {msgid : Int32} (hreq : requestOf evp codec buf = some js)
      (hid : js.intAt (lit "msgid") = some msgid) :
      Received my conn buf s (getHandler codec my msgid conn js s).state
  | shut {s' : Server} (h : Received my conn buf s s') : Received my conn buf s (s'.shutdown conn)

end

variable {evp : Evp} {codec : JsonCodec}

theorem requestOf_canon (hc : codec.Lawful) {buf : Bytes} {js : Json}
    (h : requestOf evp codec buf = some js) : js.canon ∧ js.utf8 := by
  have hparse : ∀ {t : Bytes}, codec.parse t = some js → js.canon ∧ js.utf8 := fun hp =>
    ⟨hc.parse_canon hp, hc.parse_utf8 hp⟩
  unfold requestOf at h
  split at h
  · cases h
  · split at h
    · split at h
      · cases h
      · split at h
        · cases h
        · exact hparse h
    · exact hparse h

theorem handleJson_received {my : Nat → MySQL} {buf : Bytes} {js : Json}
    (hreq : requestOf evp codec buf = some js) (conn : Conn) (s : Server) :
    Received evp codec my conn buf s (handleJson (chatService codec my) conn js s).state := by
  unfold handleJson
  split
  · exact .nothing
  · next msgid hid => exact .handled hreq hid

theorem onMessage_received (my : Nat → MySQL) (conn : Conn) (buf : Bytes) (s : Server) :
    Received evp codec my conn buf s
      (onMessage evp codec (chatService codec my) conn buf s).state := by
  unfold onMessage
  split
  · exact .shut .nothing
  next hlen =>
  simp only
  split
  · next henc =>
    cases hplain : aes256CBCDecrypt evp (buf.drop MsgHeader.size) myAesKey with
    | error e => exact .nothing
    | ok plain =>
      simp only
      split
      · exact .shut .nothing
      next hne =>
      cases hparse : codec.parse plain with
      | none => exact .shut .nothing
      | some js =>
        refine handleJson_received ?_ conn s
        simp only [requestOf, if_neg hlen, if_pos henc, hplain, if_neg hne, hparse]
  · next henc =>
    have hcatch : ∀ r : Ret Server, Received evp codec my conn buf s r.state →
        Received evp codec my conn buf s (catchShutdown (chatService codec my) conn r).state := by
      intro r hr
      unfold catchShutdown
      split
      · exact hr
      · split
        · exact .shut hr
        · exact hr
    refine hcatch _ ?_
    cases hparse : codec.parse (buf.drop MsgHeader.size) with
    | none => exact .nothing
    | some js =>
      refine handleJson_received ?_ conn s
      simp only [requestOf, if_neg hlen, if_neg henc, hparse]

/-! ## The machine -/

namespace Server

/-- One turn of the worker, with how it ended. -/
def turn (my : MySQL) (s : Server) : Option (Ret Server) :=
  match s.dbQueue with
  | [] => none
  | opt :: rest =>
      match dbWork my opt s.db with
      | .ok db => some { state := { s with dbQueue := rest, db := db } }
      | .error e => some { state := { s with dbQueue := rest }, thrown := some e }

theorem work_of_turn {my : MySQL} {s : Server} {r : Ret Server} (h : s.turn my = some r) :
    s.work my = some r.state := by
  unfold turn at h
  unfold work
  cases hq : s.dbQueue with
  | nil => rw [hq] at h; cases h
  | cons opt rest =>
    rw [hq] at h
    simp only at h ⊢
    cases hw : dbWork my opt s.db with
    | ok db => rw [hw] at h; cases h; rfl
    | error e => rw [hw] at h; cases h; rfl

/-- The observer thread takes the `k`-th pending delivery, with how it ended. -/
def delivery (codec : JsonCodec) (my : MySQL) (k : Nat) (s : Server) : Option (Ret Server) :=
  match s.redis.inbox[k]? with
  | none => none
  | some d =>
      if d.server = s.self then
        some (handleRedisSubscribeMessage codec my d.channel d.message
          { s with redis := s.redis.take k })
      else none

/-- The end of the process. What it wrote is written. -/
def exit (s : Server) : Server := { s with userConnMap := ∅, dbQueue := [] }

end Server

/-- `stopping` is a process whose signal handler has reset the states and has
not exited yet; its other threads go on. -/
inductive Phase
  | down
  | up
  | stopping
  deriving DecidableEq, Repr

/-- A server here is its own part only. -/
structure Fleet (n : Nat) where
  hosts : Fin n → Server
  phase : Fin n → Phase
  db : Database
  redis : Redis

inductive FleetStep (n : Nat)
  | boot (i : Fin n)
  /-- Bytes of a connection reach `onMessage`. -/
  | receive (i : Fin n) (my : Nat → MySQL) (conn : Conn) (buf : Bytes)
  /-- A connection closes; `order` is how the connection map iterates. -/
  | close (i : Fin n) (order : List Int32) (conn : Conn)
  /-- The observer thread takes the `k`-th pending delivery. -/
  | observe (i : Fin n) (my : MySQL) (k : Nat)
  /-- The worker's next turn. -/
  | work (i : Fin n) (my : MySQL)
  /-- An online key runs out. -/
  | expire (id : Int32)
  /-- SIGINT: the signal handler resets the states. -/
  | interrupt (i : Fin n) (my : MySQL)
  /-- The signal handler exits. -/
  | stop (i : Fin n)
  | kill (i : Fin n)

namespace Fleet

variable {n : Nat}

/-- No process runs yet. -/
def start (n : Nat) (db : Database) : Fleet n where
  hosts i := Server.start i db
  phase _ := .down
  db := db
  redis := Redis.empty

def view (i : Fin n) (c : Fleet n) : Server :=
  { c.hosts i with self := i, db := c.db, redis := c.redis }

def put (i : Fin n) (s : Server) (c : Fleet n) : Fleet n :=
  { c with hosts := Function.update c.hosts i s, db := s.db, redis := s.redis }

def enter (i : Fin n) (p : Phase) (c : Fleet n) : Fleet n :=
  { c with phase := Function.update c.phase i p }

/-- The process is gone, and its connections with it. -/
def halt (i : Fin n) (c : Fleet n) : Fleet n :=
  { c.put i ((c.view i).exit) with
    phase := Function.update c.phase i .down
    redis := c.redis.disconnect i }

/-- An exception that leaves a thread ends the process. -/
def settle (i : Fin n) (r : Ret Server) (c : Fleet n) : Fleet n :=
  match r.thrown with
  | none => c.put i r.state
  | some _ => (c.put i r.state).halt i

def step (evp : Evp) (codec : JsonCodec) (c : Fleet n) : FleetStep n → Option (Fleet n)
  | .boot i => if c.phase i = .down then some (c.enter i .up) else none
  | .receive i my conn buf =>
      if c.phase i = .down then none
      else some (c.settle i (onMessage evp codec (chatService codec my) conn buf (c.view i)))
  | .close i order conn =>
      if c.phase i = .down then none
      else if order.toFinset = (c.view i).userConnMap.keys then
        some (c.put i (onConnection order conn (c.view i)))
      else none
  | .observe i my k =>
      if c.phase i = .down then none else ((c.view i).delivery codec my k).map fun r => c.settle i r
  | .work i my => if c.phase i = .down then none else ((c.view i).turn my).map fun r => c.settle i r
  | .expire id => some { c with redis := c.redis.delete id }
  | .interrupt i my =>
      if c.phase i = .down then none else some ((c.put i (reset my (c.view i))).enter i .stopping)
  | .stop i => if c.phase i = .stopping then some (c.halt i) else none
  | .kill i => if c.phase i = .down then none else some (c.halt i)

def machine (evp : Evp) (codec : JsonCodec) (n : Nat) : Machine (Fleet n) (FleetStep n) where
  init c := ∃ db, c = start n db
  step := step evp codec

@[simp] theorem hosts_put (i : Fin n) (s : Server) (c : Fleet n) : (c.put i s).hosts i = s := by
  simp only [put, Function.update_self]
@[simp] theorem redis_halt (i : Fin n) (c : Fleet n) : (c.halt i).redis = c.redis.disconnect i :=
  rfl

theorem hosts_put_ne {i j : Fin n} (h : j ≠ i) (s : Server) (c : Fleet n) :
    (c.put i s).hosts j = c.hosts j := Function.update_of_ne h _ _

theorem hosts_halt (i j : Fin n) (c : Fleet n) :
    (c.halt i).hosts j = if j = i then (c.view i).exit else c.hosts j := by
  by_cases h : j = i
  · subst h
    rw [if_pos rfl]
    exact Function.update_self j _ _
  · rw [if_neg h]
    exact Function.update_of_ne h _ _

theorem phase_halt (i j : Fin n) (c : Fleet n) :
    (c.halt i).phase j = if j = i then .down else c.phase j := by
  simp only [halt, Function.update_apply]

theorem phase_enter (i j : Fin n) (p : Phase) (c : Fleet n) :
    (c.enter i p).phase j = if j = i then p else c.phase j := by
  simp only [enter, Function.update_apply]

end Fleet

/-! ## What a step can do -/

/-- What a step of a running process does to the server it sees. -/
inductive Served (evp : Evp) (codec : JsonCodec) {n : Nat} : FleetStep n → Server → Server → Prop
  | received {i : Fin n} {my : Nat → MySQL} {conn : Conn} {buf : Bytes} {s s' : Server}
      (h : Received evp codec my conn buf s s') : Served evp codec (.receive i my conn buf) s s'
  | closed {i : Fin n} {order : List Int32} {conn : Conn} {s : Server}
      (h : order.toFinset = s.userConnMap.keys) :
      Served evp codec (.close i order conn) s (onConnection order conn s)
  | observed {i : Fin n} {my : MySQL} {k : Nat} {d : Delivery} {s : Server}
      (hd : s.redis.inbox[k]? = some d) (hself : d.server = s.self) :
      Served evp codec (.observe i my k) s
        (handleRedisSubscribeMessage codec my d.channel d.message
          { s with redis := s.redis.take k }).state
  | worked {i : Fin n} {my : MySQL} {s s' : Server} (h : s.work my = some s') :
      Served evp codec (.work i my) s s'

namespace Fleet

variable {n : Nat} {c c' : Fleet n}

inductive Stepped (evp : Evp) (codec : JsonCodec) (c : Fleet n) : FleetStep n → Fleet n → Prop
  | served {l : FleetStep n} {i : Fin n} {s' : Server} (hup : c.phase i ≠ .down)
      (h : Served evp codec l (c.view i) s') : Stepped evp codec c l (c.put i s')
  | crashed {l : FleetStep n} {i : Fin n} {s' : Server} (hup : c.phase i ≠ .down)
      (h : Served evp codec l (c.view i) s') : Stepped evp codec c l ((c.put i s').halt i)
  | booted {i : Fin n} (hdown : c.phase i = .down) : Stepped evp codec c (.boot i) (c.enter i .up)
  | expired (id : Int32) : Stepped evp codec c (.expire id) { c with redis := c.redis.delete id }
  | interrupted {i : Fin n} (hup : c.phase i ≠ .down) (my : MySQL) :
      Stepped evp codec c (.interrupt i my) ((c.put i (reset my (c.view i))).enter i .stopping)
  | stopped {i : Fin n} (h : c.phase i = .stopping) : Stepped evp codec c (.stop i) (c.halt i)
  | killed {i : Fin n} (hup : c.phase i ≠ .down) : Stepped evp codec c (.kill i) (c.halt i)

theorem settle_stepped {l : FleetStep n} {i : Fin n} {r : Ret Server} (hup : c.phase i ≠ .down)
    (h : Served evp codec l (c.view i) r.state) : Stepped evp codec c l (c.settle i r) := by
  unfold settle
  split
  · exact .served hup h
  · exact .crashed hup h

theorem step_stepped {l : FleetStep n} (h : c.step evp codec l = some c') :
    Stepped evp codec c l c' := by
  cases l with
  | boot i =>
    simp only [step] at h
    split at h
    · next hdown => cases h; exact .booted hdown
    · cases h
  | receive i my conn buf =>
    simp only [step] at h
    split at h
    · cases h
    · next hup => cases h; exact settle_stepped hup (.received (onMessage_received my conn buf _))
  | close i order conn =>
    simp only [step] at h
    split at h
    · cases h
    next hup =>
    split at h
    · next hkeys => cases h; exact .served hup (.closed hkeys)
    · cases h
  | observe i my k =>
    simp only [step] at h
    split at h
    · cases h
    next hup =>
    obtain ⟨r, hr, rfl⟩ := Option.map_eq_some_iff.mp h
    unfold Server.delivery at hr
    split at hr
    · cases hr
    next d hd =>
    split at hr
    · next hself => cases hr; exact settle_stepped hup (.observed hd hself)
    · cases hr
  | work i my =>
    simp only [step] at h
    split at h
    · cases h
    next hup =>
    obtain ⟨r, hr, rfl⟩ := Option.map_eq_some_iff.mp h
    exact settle_stepped hup (.worked (Server.work_of_turn hr))
  | expire id => cases h; exact .expired id
  | interrupt i my =>
    simp only [step] at h
    split at h
    · cases h
    · next hup => cases h; exact .interrupted hup my
  | stop i =>
    simp only [step] at h
    split at h
    · next hstop => cases h; exact .stopped hstop
    · cases h
  | kill i =>
    simp only [step] at h
    split at h
    · cases h
    · next hup => cases h; exact .killed hup

/-- What a receiving server has stored and written. -/
theorem step_receive {i : Fin n} {my : Nat → MySQL} {conn : Conn} {buf : Bytes}
    (h : c.step evp codec (.receive i my conn buf) = some c') :
    ∃ s', Received evp codec my conn buf (c.view i) s' ∧ c'.db = s'.db ∧
      (c'.hosts i).sent = s'.sent := by
  have hreceived : Received evp codec my conn buf (c.view i) _ :=
    onMessage_received my conn buf (c.view i)
  simp only [step] at h
  split at h
  · cases h
  cases h
  refine ⟨_, hreceived, ?_⟩
  unfold settle
  split
  · exact ⟨rfl, by rw [hosts_put]⟩
  · refine ⟨rfl, ?_⟩
    rw [hosts_halt, if_pos rfl]
    show ((c.put i _).hosts i).sent = _
    rw [hosts_put]

/-! ## Invariants -/

/-- `I` survives every step. It may speak of the steps taken so far. -/
structure Kept (evp : Evp) (codec : JsonCodec) (I : List (FleetStep n) → Fleet n → Prop) :
    Prop where
  more : ∀ ls c l, I ls c → I (ls ++ [l]) c
  serve : ∀ ls c i l s', I ls c → c.phase i ≠ .down → l ∈ ls → Served evp codec l (c.view i) s' →
    I ls (c.put i s')
  halt : ∀ ls c i, I ls c → I ls (c.halt i)
  boot : ∀ ls c i, I ls c → c.phase i = .down → I ls (c.enter i .up)
  expire : ∀ ls c id, I ls c → I ls { c with redis := c.redis.delete id }
  interrupt : ∀ ls c i my, I ls c → c.phase i ≠ .down → .interrupt i my ∈ ls →
    I ls ((c.put i (reset my (c.view i))).enter i .stopping)

variable {I : List (FleetStep n) → Fleet n → Prop}

theorem Kept.step (hk : Kept evp codec I) {ls : List (FleetStep n)} (h : I ls c) {l : FleetStep n}
    (hs : Stepped evp codec c l c') : I (ls ++ [l]) c' := by
  have hl : l ∈ ls ++ [l] := by simp
  have hmore := hk.more ls c l h
  cases hs with
  | served hup hserved => exact hk.serve _ _ _ _ _ hmore hup hl hserved
  | crashed hup hserved => exact hk.halt _ _ _ (hk.serve _ _ _ _ _ hmore hup hl hserved)
  | booted hdown => exact hk.boot _ _ _ hmore hdown
  | expired id => exact hk.expire _ _ _ hmore
  | interrupted hup my => exact hk.interrupt _ _ _ _ hmore hup hl
  | stopped _ => exact hk.halt _ _ _ hmore
  | killed _ => exact hk.halt _ _ _ hmore

/-- What every step keeps, every run keeps. -/
theorem Kept.exec (hk : Kept evp codec I) {ls : List (FleetStep n)} (h : I ls c)
    {ls' : List (FleetStep n)} (he : (machine evp codec n).exec c ls' = some c') :
    I (ls ++ ls') c' := by
  induction ls' generalizing c ls with
  | nil => cases he; simpa using h
  | cons l ls' ih =>
    obtain ⟨c₁, h₁, he⟩ := Option.bind_eq_some_iff.mp he
    have hone := hk.step h (step_stepped h₁)
    have hrest := ih hone he
    rwa [List.append_assoc, List.singleton_append] at hrest

theorem Kept.run (hk : Kept evp codec I) (h : I [] c) {ls : List (FleetStep n)}
    (he : (machine evp codec n).exec c ls = some c') : I ls c' := hk.exec h he

end Fleet

end MyChat
