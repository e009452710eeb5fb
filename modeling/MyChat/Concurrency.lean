import MyChat.Reassembly
import MyChat.TaskQueue
import MyChat.Threads

/-! Any number of threads of one server in its callbacks at once, one operation
at a time, while other processes do what they like to the database and to Redis.
The connection map is touched under the mutex only and its iterators are valid
when they are used, nobody waits for ever, and each chat goes one way. -/

namespace MyChat.Threads
open Json
open Prog (locked)
open TaskQueue.Sample (first second)

/-! ## Keeping to the mutex -/

/-- The iterator that the operation uses, if any, points at an entry. -/
def Valid (map : ConnMap) : ServerOp → Prop
  | .erase id conn | .sendTo id conn _ => map.lookup id = some conn
  | _ => True

/-- The program keeps to the mutex, and has it at the end if it had it at the
start, with the map as it was. -/
def Stays {α : Type} (p : ServerProg α) (v : Option ConnMap) : Prop :=
  p.Keeps effects Valid v fun _ v' => v' = v

/-- Neither waits nor touches the map. -/
def Plain (o : ServerOp) : Prop := o.guarded = false ∧ o.waits = false

section
variable {α β : Type} {v : Option ConnMap}

theorem stays_pure (a : α) : Stays (pure a) v := rfl

theorem Stays.bind {p : ServerProg α} {f : α → ServerProg β} (hp : Stays p v)
    (hf : ∀ a, Stays (f a) v) :
    Stays (p >>= f) v :=
  Prog.Keeps.bind hp fun a _ h => by subst h; exact hf a

theorem stays_perform {o : ServerOp} (h : Plain o) :
    Stays (Prog.perform o : ServerProg o.Answer) v := by
  refine Prog.keeps_plain h.1 h.2 (fun map => ?_) fun _ => rfl
  cases o with
  | erase _ _ | sendTo _ _ _ => cases h.1
  | _ => trivial

theorem stays_call {o : ServerOp} (h : Plain o) : Stays (call o) v :=
  (stays_perform h).bind fun _ => stays_pure ()

theorem stays_ite {c : Prop} [Decidable c] {p q : ServerProg α} (hp : Stays p v) (hq : Stays q v) :
    Stays (if c then p else q) v := by
  split
  · exact hp
  · exact hq

theorem stays_andThen {p q : ServerProg (Option Failure)} (hp : Stays p v) (hq : Stays q v) :
    Stays (andThen p q) v := by
  refine hp.bind fun e => ?_
  cases e with
  | none => exact hq
  | some e => exact stays_pure _

theorem stays_locked {p : ServerProg α}
    (h : ∀ map, p.Keeps effects Valid (some map) fun _ v => v.isSome) :
    Stays (locked p) none :=
  Prog.keeps_locked fun map => (h map).mono fun _ _ hv => ⟨hv, rfl⟩

theorem Stays.inside {p : ServerProg α} {map : ConnMap} (h : Stays p (some map)) :
    p.Keeps effects Valid (some map) fun _ v => v.isSome :=
  h.mono fun _ _ hv => by rw [hv]; rfl

end

section
variable (codec : JsonCodec) (evp : Evp) (my : Nat → MySQL) (conn : Conn) (js : Json)
    {v : Option ConnMap}

theorem stays_respond (response : Json) (msgId : Int32) :
    Stays (respond codec conn response msgId) v := by
  unfold respond
  split
  · exact stays_pure _
  · exact (stays_call ⟨rfl, rfl⟩).bind fun _ => stays_pure _

theorem stays_ackToClient (msgId : Int32) : Stays (ackToClient codec conn msgId) v :=
  stays_respond codec conn _ msgId

/-- Inside, an entry that was found is there. -/
theorem keeps_find {map : ConnMap} {β : Type} {id : Int32} {f : Option Conn → ServerProg β}
    {Q : β → Option ConnMap → Prop} (h : (f (map.lookup id)).Keeps effects Valid (some map) Q) :
    (find id >>= f).Keeps effects Valid (some map) Q := by
  refine Prog.keeps_bind.mpr ⟨rfl, trivial, fun s hs => ?_⟩
  change (f (s.userConnMap.lookup id)).Keeps effects Valid (some s.userConnMap) Q
  change s.userConnMap = map at hs
  rw [hs]
  exact h

theorem stays_sendTo {map : ConnMap} {id : Int32} {toConn : Conn} (h : map.lookup id = some toConn)
    (frame : Frame) : Stays (call (.sendTo id toConn frame)) (some map) := by
  refine Prog.keeps_bind.mpr ⟨rfl, h, fun s hs => ?_⟩
  exact congrArg some hs

theorem stays_loginAccepted (id : Int32) (user : User) (msgId : Int32) :
    Stays (loginAccepted codec my conn id user msgId) none := by
  refine Stays.bind ?_ fun _ => Stays.bind ?_ fun vec => Stays.bind ?_ fun view => ?_
  · refine Stays.bind (stays_locked fun map => ?_) fun _ => (stays_call ⟨rfl, rfl⟩).bind fun _ =>
      (stays_call ⟨rfl, rfl⟩).bind fun _ => stays_call ⟨rfl, rfl⟩
    exact Prog.keeps_bind.mpr ⟨rfl, trivial, fun s _ => rfl⟩
  · exact (stays_perform ⟨rfl, rfl⟩).bind fun vec =>
      stays_ite (stays_pure _) ((stays_call ⟨rfl, rfl⟩).bind fun _ => stays_pure _)
  · refine (stays_perform ⟨rfl, rfl⟩).bind fun userVec => ?_
    split
    · exact stays_pure _
    · refine (stays_perform ⟨rfl, rfl⟩).bind fun groupuserVec => ?_
      split <;> exact stays_pure _
  · split
    · exact stays_pure _
    · exact stays_respond ..

theorem stays_login : Stays (login codec my conn js) none := by
  unfold login
  split
  · refine (stays_perform ⟨rfl, rfl⟩).bind fun user => stays_andThen ?_ (stays_ackToClient ..)
    exact stays_ite (stays_ite (stays_respond ..) (stays_loginAccepted codec my conn _ _ _))
      (stays_respond ..)
  · exact stays_pure _

theorem stays_reg : Stays (reg codec my conn js) none := by
  unfold reg
  split
  · refine (stays_perform ⟨rfl, rfl⟩).bind fun id => ?_
    split
    · exact stays_pure _
    · exact stays_andThen (stays_respond ..) (stays_ackToClient ..)
    · exact stays_andThen (stays_respond ..) (stays_ackToClient ..)
  · exact stays_pure _

theorem keeps_eraseFirst (ids : List Int32) (map : ConnMap) :
    (eraseFirst conn ids).Keeps effects Valid (some map) fun _ v => v.isSome := by
  induction ids with
  | nil => rfl
  | cons id ids ih =>
    refine keeps_find ?_
    split
    · next h => exact Prog.keeps_bind.mpr (Prog.keeps_bind.mpr ⟨rfl, h, fun s _ => rfl⟩)
    · exact ih

theorem stays_onConnection (order : Finset Int32 → List Int32) :
    Stays (onConnection order conn) none := by
  refine stays_andThen ?_ ((stays_call ⟨rfl, rfl⟩).bind fun _ => stays_pure _)
  refine Stays.bind (stays_locked fun map => ?_) fun found => (stays_call ⟨rfl, rfl⟩).bind fun _ =>
    (stays_call ⟨rfl, rfl⟩).bind fun _ => stays_ite ?_ (stays_pure _)
  · refine Prog.keeps_bind.mpr ⟨rfl, trivial, fun s hs => ?_⟩
    exact keeps_eraseFirst conn _ _
  · exact (stays_call ⟨rfl, rfl⟩).bind fun _ => stays_pure _

theorem stays_logout : Stays (logout codec conn js) none := by
  unfold logout
  split
  · refine Stays.bind (stays_locked fun map => keeps_find ?_) fun _ =>
      (stays_call ⟨rfl, rfl⟩).bind fun _ =>
      (stays_call ⟨rfl, rfl⟩).bind fun _ => (stays_call ⟨rfl, rfl⟩).bind fun _ =>
      stays_ackToClient ..
    split
    · next toConn h => exact Prog.keeps_bind.mpr ⟨rfl, h, fun s _ => rfl⟩
    · rfl
  · exact stays_pure _

theorem stays_oneChat : Stays (oneChat codec my conn js) none := by
  unfold oneChat
  split
  · split
    · exact stays_pure _
    · refine Stays.bind (stays_locked fun map => keeps_find ?_) fun r => ?_
      · split
        · next toConn h =>
          exact ((stays_sendTo h _).bind fun _ => (stays_ackToClient ..).bind fun _ =>
            stays_pure _).inside
        · rfl
      · split
        · exact stays_pure _
        · refine (stays_perform ⟨rfl, rfl⟩).bind fun isOnline => ?_
          split
          · exact (stays_call ⟨rfl, rfl⟩).bind fun _ => stays_pure _
          · refine (stays_perform ⟨rfl, rfl⟩).bind fun user => stays_ite ?_ ?_
            · exact (stays_call ⟨rfl, rfl⟩).bind fun _ => stays_pure _
            · exact (stays_call ⟨rfl, rfl⟩).bind fun _ => stays_ackToClient ..
  · exact stays_pure _

theorem stays_routeMember (m : MySQL) (jsonStr : Bytes) (msgId id : Int32) (map : ConnMap) :
    Stays (routeMember m jsonStr msgId id) (some map) := by
  refine keeps_find ?_
  split
  · next toConn h => exact stays_sendTo h _
  · exact (stays_perform ⟨rfl, rfl⟩).bind fun user =>
      stays_ite (stays_call ⟨rfl, rfl⟩) (stays_call ⟨rfl, rfl⟩)

theorem stays_routeMembers (jsonStr : Bytes) (msgId : Int32) (k : Nat) (ids : List Int32)
    (map : ConnMap) :
    Stays (routeMembers my jsonStr msgId k ids) (some map) := by
  induction ids generalizing k with
  | nil => exact stays_pure _
  | cons id ids ih => exact (stays_routeMember ..).bind fun _ => ih (k + 1)

theorem stays_groupChat : Stays (groupChat codec my conn js) none := by
  unfold groupChat
  split
  · split
    · exact stays_pure _
    · refine (stays_perform ⟨rfl, rfl⟩).bind fun useridVec => stays_locked fun map => ?_
      exact ((stays_routeMembers ..).bind fun _ => stays_ackToClient ..).inside
  · exact stays_pure _

theorem stays_handleRedisSubscribeMessage (m : MySQL) (userid : Int32) (msg : Bytes) :
    Stays (handleRedisSubscribeMessage codec m userid msg) none := by
  refine stays_locked fun map => keeps_find ?_
  split
  · next toConn h =>
    refine ((stays_call ⟨rfl, rfl⟩).bind fun _ => ?_ : Stays _ (some map)).inside
    split
    · exact stays_pure _
    · split
      · split
        · exact stays_pure _
        · exact (stays_sendTo h _).bind fun _ => stays_pure _
      · exact stays_pure _
  · exact (stays_perform ⟨rfl, rfl⟩ : Stays _ (some map)).inside

theorem stays_getHandler (msgid : Int32) : Stays (getHandler codec my msgid conn js) none := by
  unfold getHandler
  split
  · exact stays_login ..
  · exact stays_reg ..
  · exact stays_oneChat ..
  · unfold addFriend
    split
    · exact (stays_call ⟨rfl, rfl⟩).bind fun _ => stays_ackToClient ..
    · exact stays_pure _
  · unfold createGroup
    split
    · exact (stays_call ⟨rfl, rfl⟩).bind fun _ => (stays_call ⟨rfl, rfl⟩).bind fun _ =>
        stays_andThen (stays_respond ..) (stays_ackToClient ..)
    · exact stays_pure _
  · unfold addGroup
    split
    · exact (stays_call ⟨rfl, rfl⟩).bind fun _ =>
        stays_andThen (stays_respond ..) (stays_ackToClient ..)
    · exact stays_pure _
  · exact stays_groupChat ..
  · exact stays_logout ..
  · exact stays_pure _

theorem stays_onMessage (buf : Bytes) : Stays (onMessage codec evp my conn buf) none := by
  have hshut : Stays (do call (.shutdown conn); return none : ServerProg (Option Failure)) none :=
    (stays_call ⟨rfl, rfl⟩).bind fun _ => stays_pure _
  have hjson : ∀ js, Stays (handleJson codec my conn js) none := by
    intro js
    unfold handleJson
    split
    · exact stays_pure _
    · exact stays_getHandler ..
  refine stays_ite hshut (stays_ite ?_ ?_)
  · split
    · exact stays_pure _
    · refine stays_ite hshut ?_
      split
      · exact hshut
      · exact hjson _
  · refine Stays.bind ?_ fun e => ?_
    · split
      · exact stays_pure _
      · exact hjson _
    · split
      · exact stays_pure _
      · exact stays_ite ((stays_call ⟨rfl, rfl⟩).bind fun _ => stays_pure _) (stays_pure _)

/-- Only the worker waits, and not with the mutex. -/
theorem stays_dbWork (m : MySQL) : Stays (dbWork m) none := by
  refine Prog.keeps_bind.mpr ⟨rfl, fun s => ?_⟩
  generalize (effects.perform .pop s).1 = opt
  cases opt with
  | none => exact stays_pure (none : Option Failure)
  | some opt => exact (stays_call ⟨rfl, rfl⟩).bind fun _ => stays_pure (none : Option Failure)

end

/-! ## The threads of a server -/

/-- What the threads run: the callbacks of a connection, that of the observer
thread, and the worker's turns. A request is the handler's part of a message. -/
inductive Callback
  | message (my : Nat → MySQL) (conn : Conn) (buf : Bytes)
  | request (my : Nat → MySQL) (msgid : Int32) (conn : Conn) (js : Json)
  | connection (order : Finset Int32 → List Int32) (conn : Conn)
  | published (my : MySQL) (userid : Int32) (msg : Bytes)
  | task (my : MySQL)

def Callback.prog (codec : JsonCodec) (evp : Evp) : Callback → ServerProg (Option Failure)
  | .message my conn buf => onMessage codec evp my conn buf
  | .request my msgid conn js => getHandler codec my msgid conn js
  | .connection order conn => onConnection order conn
  | .published my userid msg => handleRedisSubscribeMessage codec my userid msg
  | .task my => dbWork my

theorem Callback.stays (codec : JsonCodec) (evp : Evp) (c : Callback) :
    Stays (c.prog codec evp) none := by
  cases c with
  | message my conn buf => exact stays_onMessage codec evp my conn buf
  | request my msgid conn js => exact stays_getHandler codec my conn js msgid
  | connection order conn => exact stays_onConnection conn order
  | published my userid msg => exact stays_handleRedisSubscribeMessage codec my userid msg
  | task my => exact stays_dbWork my

abbrev Process (τ : Type) := Pool τ ServerOp ServerOp.Answer Server (Option Failure)
abbrev ProcessStep (τ : Type) := PoolStep τ Callback (Database × Redis)

variable {τ : Type} [DecidableEq τ] {codec : JsonCodec} {evp : Evp} {init : Server → Prop}
  {s s' : Process τ} {i : τ}

/-- A process that starts with no callback under way. -/
def machine (codec : JsonCodec) (evp : Evp) (init : Server → Prop) :
    Machine (Process τ) (ProcessStep τ) :=
  Pool.machine effects (Callback.prog codec evp) init

theorem reachable_inv (h : (machine codec evp init).Reachable s) : s.Inv effects Valid :=
  Pool.Inv.reachable (Callback.stays codec evp) h

/-- In every interleaving at most one thread is about to touch the connection map,
and an iterator that it uses points at an entry that is there. -/
theorem map_guarded (h : (machine codec evp init).Reachable s) {o : ServerOp}
    {k : o.Answer → ServerProg (Option Failure)} (hp : s.prog i = .op o k) (hg : o.guarded) :
    Valid s.shared.userConnMap o ∧
      ∀ j o' k', s.prog j = .op o' k' → o'.guarded → j = i := by
  have hinv := reachable_inv h
  obtain ⟨hm, hvalid⟩ := hinv.inside hp hg
  refine ⟨hvalid, fun j o' k' hp' hg' => ?_⟩
  exact Option.some.inj ((hinv.inside hp' hg').1.symm.trans hm)

namespace Sample

/-- A server with user 1 on connection 5, and two threads that are done. -/
def idle : Process (Fin 2) where
  prog _ := .ret none
  mutex := none
  shared := { Server.start 0 Database.empty with userConnMap := Finmap.singleton 1 5 }

/-- The two threads on that server. -/
abbrev twoThreads : Machine (Process (Fin 2)) (ProcessStep (Fin 2)) :=
  machine JsonText.codec sampleEvp (· = idle.shared)

theorem idle_reachable : twoThreads.Reachable idle := .start ⟨fun _ => ⟨none, rfl⟩, rfl, rfl⟩

/-- The connection closes while its user logs out on the other thread. -/
def closing : List (ProcessStep (Fin 2)) :=
  [.start first (.connection (fun _ => [1]) 5),
    .start second (.request (fun _ => MySQL.up) EnMsgType.logoutMsg.val 5 (Sample.logout 1)),
    .run first, .run first, .run first]

/-- The first thread is at `erase(it)`. -/
def erasing (s : Process (Fin 2)) : Bool :=
  match s.prog first with
  | .op (.erase id conn) _ => id = 1 ∧ conn = 5
  | _ => false

theorem erasing_iff {s : Process (Fin 2)} (h : erasing s) :
    ∃ k, s.prog first = .op (.erase 1 5) k := by
  unfold erasing at h
  split at h
  · next id conn k hp =>
    obtain ⟨rfl, rfl⟩ := of_decide_eq_true h
    exact ⟨k, hp⟩
  · cases h

theorem closing_runs :
    ∃ s, twoThreads.exec idle closing = some s ∧ ∃ k, s.prog first = .op (.erase 1 5) k := by
  have hrun : (twoThreads.exec idle closing).any erasing := by decide +kernel
  obtain ⟨s, hs, herase⟩ := (Option.any_eq_true _ _).mp hrun
  exact ⟨s, hs, erasing_iff herase⟩

end Sample

theorem map_guarded_closing : ∃ (s : Process (Fin 2)) (k : Unit → ServerProg (Option Failure)),
    s.prog first = .op (.erase 1 5) k ∧ Valid s.shared.userConnMap (.erase 1 5) ∧
      ∀ j o' k', s.prog j = .op o' k' → o'.guarded → j = first := by
  obtain ⟨s, hs, k, hp⟩ := Sample.closing_runs
  exact ⟨s, k, hp, map_guarded (Sample.idle_reachable.exec (fun _ _ _ => trivial) hs) hp rfl⟩

/-- What becomes of a session, and the frames that go to it. -/
inductive TableEvent
  | opened (id : Int32) (conn : Conn)
  | erased (id : Int32) (conn : Conn)
  | forwarded (id : Int32) (conn : Conn) (frame : Frame)
  deriving DecidableEq

/-- Sessions opened and ended one after another. An entry is ended, and a frame
goes to it, only while it is there. -/
def table : Machine ConnMap TableEvent where
  init _ := True
  step map
    | .opened id conn => some (if id ∈ map then map else map.insert id conn)
    | .erased id conn => if map.lookup id = some conn then some (map.erase id) else none
    | .forwarded id conn _ => if map.lookup id = some conn then some map else none

def tableEvent (s : Process τ) : ProcessStep τ → Option TableEvent
  | .run i =>
      match s.prog i with
      | .op (.insert id conn) _ => some (.opened id conn)
      | .op (.erase id conn) _ => some (.erased id conn)
      | .op (.sendTo id conn frame) _ => some (.forwarded id conn frame)
      | _ => none
  | _ => none

/-- The operations that are no event leave the map alone. -/
theorem userConnMap_perform {o : ServerOp} {s : Server} (h₁ : ∀ id conn, o ≠ .insert id conn)
    (h₂ : ∀ id conn, o ≠ .erase id conn) : (o.perform s).2.userConnMap = s.userConnMap := by
  cases o with
  | insert id conn => exact absurd rfl (h₁ id conn)
  | erase id conn => exact absurd rfl (h₂ id conn)
  | insertUser my user | insertOffline my id msg | dbWork my opt =>
    simp only [ServerOp.perform]
    split <;> rfl
  | _ => rfl

theorem machine_simulates_table :
    (machine (τ := τ) codec evp init).Simulates table (Pool.Inv effects Valid)
      (fun s => s.shared.userConnMap) tableEvent where
  init s hs := ⟨.init hs.1 hs.2.1, trivial⟩
  keeps s l s' hi hs := hi.step (Callback.stays codec evp) hs
  silent s l s' _ hs hev := by
    cases l with
    | start i c =>
      simp only [machine, Pool.machine, Pool.step] at hs
      split at hs
      · cases hs; rfl
      · cases hs
    | outside e => cases hs; rfl
    | run i =>
      obtain ⟨p, m, t, hmoved, rfl⟩ := Pool.next_moved hs
      cases hmoved with
      | op hp hr =>
        simp only [tableEvent, hp] at hev
        refine userConnMap_perform ?_ ?_
        · rintro id conn rfl
          cases hev
        · rintro id conn rfl
          cases hev
      | lock hp hm | unlock hp => rfl
  step s l s' e hi hs hev := by
    cases l with
    | start i c | outside e => cases hev
    | run i =>
      obtain ⟨p, m, t, hmoved, rfl⟩ := Pool.next_moved hs
      cases hmoved with
      | lock hp hm | unlock hp =>
        simp only [tableEvent, hp] at hev
        cases hev
      | @op o k hp hr =>
        simp only [tableEvent, hp] at hev
        cases o with
        | insert id conn =>
          cases hev
          change some _ = some _
          congr 1
          change _ = (s.shared.mapInsert id conn).userConnMap
          unfold Server.mapInsert
          split <;> rfl
        | erase id conn =>
          cases hev
          exact if_pos (hi.inside hp rfl).2
        | sendTo id conn frame =>
          cases hev
          exact if_pos (hi.inside hp rfl).2
        | _ => cases hev

/-- In every interleaving the connection map is what a table holds to which the
sessions' events happen one after another: no ended session is ended again, and
every frame for a user goes to the connection that is the user's at that moment. -/
theorem sessions_serialize (h : (machine codec evp init).Reachable s) {ls : List (ProcessStep τ)}
    (he : (machine codec evp init).exec s ls = some s') :
    table.exec s.shared.userConnMap ((machine codec evp init).trace tableEvent s ls) =
      some s'.shared.userConnMap :=
  machine_simulates_table.exec (reachable_inv h) he

theorem sessions_serialize_closing :
    ∃ s, Sample.twoThreads.exec Sample.idle (Sample.closing ++ [.run first]) = some s ∧
    Sample.twoThreads.trace tableEvent Sample.idle (Sample.closing ++ [.run first]) =
      [.erased 1 5] ∧
    table.exec Sample.idle.shared.userConnMap
      (Sample.twoThreads.trace tableEvent Sample.idle (Sample.closing ++ [.run first])) =
        some s.shared.userConnMap := by
  have hrun : (Sample.twoThreads.exec Sample.idle (Sample.closing ++ [.run first])).isSome := by
    decide +kernel
  obtain ⟨s, hs⟩ := Option.isSome_iff_exists.mp hrun
  exact ⟨s, hs, by decide +kernel, sessions_serialize Sample.idle_reachable hs⟩

/-! ## The task queue -/

def queueEvent (s : Process τ) : ProcessStep τ → Option (TaskQueue.QueueEvent DbTaskArgs)
  | .run i =>
      match s.prog i with
      | .op (.push t) _ => some (.push t)
      | .op .pop _ => s.shared.dbQueue.head?.map .pop
      | _ => none
  | _ => none

theorem dbQueue_perform {o : ServerOp} {s : Server} (h₁ : ∀ t, o ≠ .push t) (h₂ : o ≠ .pop) :
    (o.perform s).2.dbQueue = s.dbQueue := by
  cases o with
  | push t => exact absurd rfl (h₁ t)
  | pop => exact absurd rfl h₂
  | insert id conn =>
    simp only [ServerOp.perform, Server.mapInsert]
    split <;> rfl
  | insertUser my user | insertOffline my id msg | dbWork my opt =>
    simp only [ServerOp.perform]
    split <;> rfl
  | _ => rfl

/-- What the callbacks do to the queue is what the threads in `DbTaskQueue` do to it. -/
theorem machine_simulates_queue :
    (machine (τ := τ) codec evp (·.dbQueue = [])).Simulates TaskQueue.atomic (fun _ => True)
      (fun s => s.shared.dbQueue) queueEvent where
  init s hs := ⟨trivial, hs.2.2⟩
  keeps _ _ _ _ _ := trivial
  silent s l s' _ hs hev := by
    cases l with
    | start i c =>
      simp only [machine, Pool.machine, Pool.step] at hs
      split at hs
      · cases hs; rfl
      · cases hs
    | outside e => cases hs; rfl
    | run i =>
      obtain ⟨p, m, t, hmoved, rfl⟩ := Pool.next_moved hs
      cases hmoved with
      | op hp hr =>
        simp only [queueEvent, hp] at hev
        refine dbQueue_perform ?_ ?_
        · rintro t rfl
          cases hev
        · rintro rfl
          cases hq : s.shared.dbQueue with
          | nil => simp [effects, ServerOp.ready, hq] at hr
          | cons t rest => simp [hq] at hev
      | lock hp hm | unlock hp => rfl
  step s l s' e _ hs hev := by
    cases l with
    | start i c | outside e => cases hev
    | run i =>
      obtain ⟨p, m, t, hmoved, rfl⟩ := Pool.next_moved hs
      cases hmoved with
      | lock hp hm | unlock hp =>
        simp only [queueEvent, hp] at hev
        cases hev
      | @op o k hp hr =>
        simp only [queueEvent, hp] at hev
        cases o with
        | push t => cases hev; rfl
        | pop =>
          obtain ⟨t, hhead, rfl⟩ := Option.map_eq_some_iff.mp hev
          exact if_pos hhead
        | _ => cases hev

end MyChat.Threads
