import MyChat.Concurrency
import MyChat.Fleet

/-! What single callbacks do in the middle of all others: whose sessions they end,
and which ways a chat goes. Callbacks that happen not to be interrupted are the
steps of the one-step model. -/

namespace MyChat.Threads
open Json
open Prog (locked)
open TaskQueue.Sample (first second)

/-! ## What a callback may do -/

/-- Waits for nothing, and ends sessions in `R` only. -/
def Allowed (R : Int32 → Conn → Prop) : ServerOp → Prop
  | .pop => False
  | .erase id conn => R id conn
  | _ => True

section
variable {R : Int32 → Conn → Prop} {α : Type}

theorem only_call {o : ServerOp} (h : Allowed R o) : (call o).Only (Allowed R) :=
  ⟨h, fun _ => trivial⟩

theorem only_then {o : ServerOp} {f : Unit → ServerProg α} (h : Allowed R o)
    (hf : (f ()).Only (Allowed R)) :
    (call o >>= f).Only (Allowed R) :=
  (only_call h).bind fun _ => hf

theorem only_ite {c : Prop} [Decidable c] {p q : ServerProg α} (hp : p.Only (Allowed R))
    (hq : q.Only (Allowed R)) : (if c then p else q).Only (Allowed R) := by
  split
  · exact hp
  · exact hq

theorem only_andThen {p q : ServerProg (Option Failure)} (hp : p.Only (Allowed R))
    (hq : q.Only (Allowed R)) :
    (andThen p q).Only (Allowed R) := by
  refine hp.bind fun e => ?_
  cases e with
  | none => exact hq
  | some e => trivial

variable (codec : JsonCodec) (evp : Evp) (my : Nat → MySQL) (conn : Conn) (js : Json)

theorem only_respond (response : Json) (msgId : Int32) :
    (respond codec conn response msgId).Only (Allowed R) := by
  unfold respond
  split
  · trivial
  · exact only_then trivial trivial

theorem only_ackToClient (msgId : Int32) : (ackToClient codec conn msgId).Only (Allowed R) :=
  only_respond codec conn _ msgId

theorem only_loginAccepted (id : Int32) (user : User) (msgId : Int32) :
    (loginAccepted codec my conn id user msgId).Only (Allowed R) := by
  refine Prog.Only.bind ?_ fun _ => Prog.Only.bind ?_ fun vec => Prog.Only.bind ?_ fun view => ?_
  · exact Prog.Only.bind (Prog.Only.locked (only_call trivial)) fun _ => only_then trivial <|
      only_then trivial <| only_call trivial
  · exact Prog.Only.bind (Prog.only_perform trivial) fun vec =>
      only_ite trivial (only_then trivial trivial)
  · refine Prog.Only.bind (Prog.only_perform trivial) fun userVec => ?_
    split
    · trivial
    · refine Prog.Only.bind (Prog.only_perform trivial) fun groupuserVec => ?_
      split <;> trivial
  · split
    · trivial
    · exact only_respond ..

theorem only_login : (login codec my conn js).Only (Allowed R) := by
  unfold login
  split
  · refine Prog.Only.bind (Prog.only_perform trivial) fun user =>
      only_andThen ?_ (only_ackToClient ..)
    exact only_ite (only_ite (only_respond ..) (only_loginAccepted ..)) (only_respond ..)
  · trivial

theorem only_reg : (reg codec my conn js).Only (Allowed R) := by
  unfold reg
  split
  · refine Prog.Only.bind (Prog.only_perform trivial) fun id => ?_
    split
    · trivial
    · exact only_andThen (only_respond ..) (only_ackToClient ..)
    · exact only_andThen (only_respond ..) (only_ackToClient ..)
  · trivial

theorem only_oneChat : (oneChat codec my conn js).Only (Allowed R) := by
  unfold oneChat
  split
  · split
    · trivial
    · refine Prog.Only.bind (Prog.Only.locked ?_) fun r => ?_
      · refine Prog.Only.bind (Prog.only_perform trivial) fun toConn => ?_
        split
        · exact only_then trivial <| (only_ackToClient ..).bind fun _ => trivial
        · trivial
      · split
        · trivial
        · refine Prog.Only.bind (Prog.only_perform trivial) fun isOnline => ?_
          split
          · exact only_then trivial trivial
          · refine Prog.Only.bind (Prog.only_perform trivial) fun user => only_ite ?_ ?_
            · exact only_then trivial trivial
            · exact only_then trivial <| only_ackToClient ..
  · trivial

theorem only_routeMembers (jsonStr : Bytes) (msgId : Int32) (k : Nat) (ids : List Int32) :
    (routeMembers my jsonStr msgId k ids).Only (Allowed R) := by
  induction ids generalizing k with
  | nil => trivial
  | cons id ids ih =>
    refine Prog.Only.bind (Prog.Only.bind (Prog.only_perform trivial) fun toConn => ?_) fun _ =>
      ih (k + 1)
    split
    · exact only_call trivial
    · exact Prog.Only.bind (Prog.only_perform trivial) fun user =>
        only_ite (only_call trivial) (only_call trivial)

theorem only_groupChat : (groupChat codec my conn js).Only (Allowed R) := by
  unfold groupChat
  split
  · split
    · trivial
    · refine Prog.Only.bind (Prog.only_perform trivial) fun useridVec => Prog.Only.locked ?_
      exact (only_routeMembers ..).bind fun _ => only_ackToClient ..
  · trivial

theorem only_handleRedisSubscribeMessage (m : MySQL) (userid : Int32) (msg : Bytes) :
    (handleRedisSubscribeMessage codec m userid msg).Only (Allowed R) := by
  refine Prog.Only.locked (Prog.Only.bind (Prog.only_perform trivial) fun toConn => ?_)
  split
  · refine only_then trivial <| ?_
    split
    · trivial
    · split
      · split
        · trivial
        · exact only_then trivial trivial
      · trivial
  · exact Prog.only_perform trivial

theorem only_logout (hR : ∀ id conn, js.intAt (lit "id") = some id → R id conn) :
    (logout codec conn js).Only (Allowed R) := by
  unfold logout
  split
  · next userid msgId hid hmsgId =>
    refine Prog.Only.bind (Prog.Only.locked ?_) fun _ => only_then trivial <|
      only_then trivial <| only_then trivial <| only_ackToClient ..
    refine Prog.Only.bind (Prog.only_perform trivial) fun toConn => ?_
    split
    · exact only_call (hR userid _ hid)
    · trivial
  · trivial

theorem only_eraseFirst (hR : ∀ id, R id conn) (ids : List Int32) :
    (eraseFirst conn ids).Only (Allowed R) := by
  induction ids with
  | nil => trivial
  | cons id ids ih =>
    refine Prog.Only.bind (Prog.only_perform trivial) fun found => ?_
    split
    · exact only_then (hR id) trivial
    · exact ih

theorem only_onConnection (hR : ∀ id, R id conn) (order : Finset Int32 → List Int32) :
    (onConnection order conn).Only (Allowed R) := by
  refine only_andThen ?_ (only_then trivial trivial)
  refine Prog.Only.bind (Prog.Only.locked ?_) fun found => only_then trivial <|
    only_then trivial <| only_ite (only_then trivial trivial) trivial
  exact Prog.Only.bind (Prog.only_perform trivial) fun ids => only_eraseFirst conn hR ids

theorem only_getHandler {msgid : Int32} (hR : ∀ id conn, handlerOf msgid = some .logoutMsg →
    js.intAt (lit "id") = some id → R id conn) :
      (getHandler codec my msgid conn js).Only (Allowed R) := by
  unfold getHandler
  split
  · exact only_login ..
  · exact only_reg ..
  · exact only_oneChat ..
  · unfold addFriend
    split
    · exact only_then trivial <| only_ackToClient ..
    · trivial
  · unfold createGroup
    split
    · exact only_then trivial <| only_then trivial <|
        only_andThen (only_respond ..) (only_ackToClient ..)
    · trivial
  · unfold addGroup
    split
    · exact only_then trivial <| only_andThen (only_respond ..) (only_ackToClient ..)
    · trivial
  · exact only_groupChat ..
  · next h => exact only_logout codec conn js fun id conn => hR id conn h
  · trivial

theorem only_onMessage {buf : Bytes}
    (hR : ∀ js msgid id conn, requestOf evp codec buf = some js →
      js.intAt (lit "msgid") = some msgid → handlerOf msgid = some .logoutMsg →
      js.intAt (lit "id") = some id → R id conn) :
    (onMessage codec evp my conn buf).Only (Allowed R) := by
  have hshut :
      (do call (.shutdown conn); return none : ServerProg (Option Failure)).Only (Allowed R) :=
    only_then trivial trivial
  have hjson : ∀ js, requestOf evp codec buf = some js →
      (handleJson codec my conn js).Only (Allowed R) := by
    intro js hreq
    unfold handleJson
    split
    · trivial
    · next msgid hid =>
        exact only_getHandler codec my conn js fun id conn => hR js msgid id conn hreq hid
  unfold onMessage
  simp only
  split
  · exact hshut
  next hlen =>
  split
  · next henc =>
    cases hplain : aes256CBCDecrypt evp (buf.drop MsgHeader.size) myAesKey with
    | error e => trivial
    | ok plain =>
      simp only
      split
      · exact hshut
      next hne =>
      cases hparse : codec.parse plain with
      | none => exact hshut
      | some js =>
        refine hjson js ?_
        simp only [requestOf, if_neg hlen, if_pos henc, hplain, if_neg hne, hparse]
  · next henc =>
    refine Prog.Only.bind ?_ fun e => ?_
    · cases hparse : codec.parse (buf.drop MsgHeader.size) with
      | none => trivial
      | some js =>
        refine hjson js ?_
        simp only [requestOf, if_neg hlen, if_neg henc, hparse]
    · cases e with
      | none => trivial
      | some e => exact only_ite (only_then trivial trivial) trivial

end

/-! ## Who ends a session -/

/-- The callback is the close of `conn`, or a logout that names `id`. -/
def Callback.Frees (codec : JsonCodec) (evp : Evp) : Callback → Int32 → Conn → Prop
  | .connection _ c, _, conn => c = conn
  | .request _ msgid _ js, id, _ =>
      handlerOf msgid = some .logoutMsg ∧ js.intAt (lit "id") = some id
  | .message _ _ buf, id, _ => ∃ js msgid, requestOf evp codec buf = some js ∧
      js.intAt (lit "msgid") = some msgid ∧ handlerOf msgid = some .logoutMsg ∧
      js.intAt (lit "id") = some id
  | .published _ _ _, _, _ | .task _, _, _ => False

theorem Callback.only (codec : JsonCodec) (evp : Evp) (c : Callback) (h : ∀ my, c ≠ .task my) :
    (c.prog codec evp).Only (Allowed (c.Frees codec evp)) := by
  cases c with
  | message my conn buf =>
    exact only_onMessage codec evp my conn fun js msgid id conn hreq hid hlog huser =>
      ⟨js, msgid, hreq, hid, hlog, huser⟩
  | request my msgid conn js =>
    exact only_getHandler codec my conn js fun id conn hlog huser => ⟨hlog, huser⟩
  | connection order conn => exact only_onConnection conn (fun _ => rfl) order
  | published my userid msg => exact only_handleRedisSubscribeMessage codec my userid msg
  | task my => exact absurd rfl (h my)

theorem Callback.erases (codec : JsonCodec) (evp : Evp) (c : Callback) :
    (c.prog codec evp).Only fun o => ∀ id conn, o = .erase id conn → c.Frees codec evp id conn := by
  by_cases ht : ∃ my, c = .task my
  · obtain ⟨my, rfl⟩ := ht
    refine Prog.Only.bind (Prog.only_perform nofun) fun opt => ?_
    split
    · trivial
    · exact Prog.Only.bind (Prog.Only.bind (Prog.only_perform nofun) fun _ => trivial)
        fun _ => trivial
  · refine (Callback.only codec evp c fun my hc => ht ⟨my, hc⟩).mono ?_
    rintro o ho id conn rfl
    exact ho

variable {τ : Type} [DecidableEq τ] {codec : JsonCodec} {evp : Evp} {init : Server → Prop}
  {s s' : Process τ} {i : τ}

/-- In every interleaving a session is ended by the close of its own connection or
by a logout that names its user, and it is there when it is ended. -/
theorem sessions_ended_by (h : (machine codec evp init).Reachable s) {c : Callback}
    {ls : List (ProcessStep τ)} (hl : ∀ l ∈ ls, Pool.Spares i l)
    (he : (machine codec evp init).exec s (.start i c :: ls) = some s') {id : Int32} {conn : Conn}
    {k : Unit → ServerProg (Option Failure)} (hp : s'.prog i = .op (.erase id conn) k) :
    c.Frees codec evp id conn ∧ s'.shared.userConnMap.lookup id = some conn := by
  have honly := Pool.only_exec (Callback.erases codec evp c) hl he
  rw [hp] at honly
  have hreach : (machine codec evp init).Reachable s' := h.exec (fun _ _ _ => trivial) he
  exact ⟨honly.1 id conn rfl, ((reachable_inv hreach).inside hp rfl).2⟩

theorem sessions_ended_by_closing :
    ∃ (s : Process (Fin 2)) (k : Unit → ServerProg (Option Failure)),
    s.prog first = .op (.erase 1 5) k ∧
      (Callback.connection (fun _ => [1]) 5).Frees JsonText.codec sampleEvp 1 5 ∧
      s.shared.userConnMap.lookup 1 = some 5 := by
  obtain ⟨s, hs, k, hp⟩ := Sample.closing_runs
  have hspares : ∀ l ∈ Sample.closing.tail, Pool.Spares first l := by
    intro l hl
    simp only [Sample.closing, List.tail_cons, List.mem_cons, List.not_mem_nil, or_false] at hl
    rcases hl with rfl | rfl | rfl | rfl
    · show second ≠ first
      decide
    all_goals trivial
  exact ⟨s, k, hp, sessions_ended_by Sample.idle_reachable hspares hs hp⟩

/-! ## The one-step model -/

/-- No callback is under way. -/
structure Idle (s : Process τ) (shared : Server) : Prop where
  done : ∀ i, ∃ e, s.prog i = .ret e
  free : s.mutex = none
  shared : s.shared = shared

/-- A callback that is not interrupted. -/
theorem run_callback (h : (machine codec evp init).Reachable s) (i : τ) {t : Server}
    (hidle : Idle s t) (c : Callback) (hclear : (c.prog codec evp).Clear effects t) :
    ∃ s' : Process τ, (machine codec evp init).Reachable s' ∧
      Idle s' ((c.prog codec evp).alone effects t).2 := by
  obtain ⟨e, hret⟩ := hidle.done i
  have hstart : (machine codec evp init).step s (.start i c) =
      some (s.set i (c.prog codec evp)) := by
    simp only [machine, Pool.machine, Pool.step, hret]
  have hfree : (s.set i (c.prog codec evp)).mutex = none := hidle.free
  have hkeeps :
      (c.prog codec evp).Keeps effects Valid ((s.set i (c.prog codec evp)).knows effects i)
      fun _ v => v = none := by
    rw [Pool.knows, if_neg (by rw [hfree]; exact (Option.some_ne_none i).symm)]
    exact Callback.stays codec evp c
  have hclear' : (c.prog codec evp).Clear effects (s.set i (c.prog codec evp)).shared := by
    change Prog.Clear effects _ s.shared
    rw [hidle.shared]
    exact hclear
  have hprog : (s.set i (c.prog codec evp)).prog i = c.prog codec evp := Function.update_self ..
  obtain ⟨n, hn⟩ : ∃ n, (machine codec evp init).exec _ (List.replicate n (.run i)) = _ :=
    Pool.exec_alone hprog hkeeps (Or.inl hfree) hclear'
  refine ⟨_, (h.next trivial hstart).exec (fun _ _ _ => trivial) hn, fun j => ?_, rfl, ?_⟩
  · by_cases hj : j = i
    · subst hj
      exact ⟨_, Function.update_self ..⟩
    · obtain ⟨e', he'⟩ := hidle.done j
      exact ⟨e', by simp [Pool.set, Function.update_of_ne hj, he']⟩
  · change (Prog.alone effects _ s.shared).2 = _
    rw [hidle.shared]

theorem Callback.clear (codec : JsonCodec) (evp : Evp) (c : Callback) (h : ∀ my, c ≠ .task my)
    (s : Server) :
    (c.prog codec evp).Clear effects s := by
  refine ((Callback.only codec evp c h).mono fun o ho => ?_).clear s
  cases o with
  | pop => exact ho.elim
  | _ => rfl

/-- The worker does not wait when there is a task. -/
theorem clear_dbWork {m : MySQL} {s s' : Server} (h : s.work m = some s') :
    (dbWork m).Clear effects s := by
  cases hq : s.dbQueue with
  | nil => simp [Server.work, hq] at h
  | cons opt rest =>
    refine Prog.clear_bind.mpr ⟨Prog.clear_perform.mpr (by simp [effects, ServerOp.ready, hq]), ?_⟩
    rw [alone_pop, hq]
    exact Prog.clear_bind.mpr ⟨Prog.clear_bind.mpr ⟨Prog.clear_perform.mpr rfl, trivial⟩, trivial⟩

/-- Every state that the one-step model reaches is one that the threads reach, with
no callback under way. -/
theorem one_step_reachable [Inhabited τ] {t : Server}
    (h : (Server.machine codec init).Reachable t) :
    ∃ s : Process τ, (machine codec evp init).Reachable s ∧ Idle s t := by
  induction h with
  | @start t ht => exact ⟨⟨fun _ => .ret none, none, t⟩, .start ⟨fun _ => ⟨none, rfl⟩, rfl, ht⟩,
      fun _ => ⟨none, rfl⟩, rfl, rfl⟩
  | @next t l t' _ _ hs ih =>
    obtain ⟨s, hreach, hidle⟩ := ih
    have hcall : ∀ c r, (∀ my, c ≠ Callback.task my) → Does (c.prog codec evp) t r →
        ∃ s : Process τ, (machine codec evp init).Reachable s ∧ Idle s r.state := by
      intro c r hc hdoes
      obtain ⟨s', hreach', hidle'⟩ :=
        run_callback hreach default hidle c (Callback.clear codec evp c hc t)
      rw [hdoes] at hidle'
      exact ⟨s', hreach', hidle'⟩
    cases l with
    | request my msgid conn js =>
      cases hs
      exact hcall (.request my msgid conn js) _ nofun (does_getHandler codec my conn js msgid t)
    | close order conn =>
      simp only [Server.machine, Server.apply] at hs
      split at hs
      · cases hs
        exact hcall (.connection (fun _ => order) conn) _ nofun (does_onConnection conn _ t)
      · cases hs
    | deliver my userid msg =>
      cases hs
      exact hcall (.published my userid msg) _ nofun
        (does_handleRedisSubscribeMessage codec my userid msg t)
    | expire id =>
      cases hs
      refine ⟨{ s with shared := effects.external (t.db, (t.expire id).redis) s.shared },
        hreach.next (l := .outside (t.db, (t.expire id).redis)) trivial rfl, hidle.done,
        hidle.free, ?_⟩
      rw [hidle.shared]
      rfl
    | work my =>
      change t.work my = some t' at hs
      obtain ⟨s', hreach', hidle'⟩ := run_callback hreach default hidle (.task my) (clear_dbWork hs)
      refine ⟨s', hreach', ?_⟩
      change Idle s' ((dbWork my).alone effects t).2 at hidle'
      rw [alone_dbWork hs] at hidle'
      exact hidle'

theorem one_step_reachable_registered :
    ∃ (t : Server) (s : Process (Fin 2)), (t.db.user.get 2).isSome ∧
      (machine JsonText.codec sampleEvp (· = Server.start 0 Database.empty)).Reachable s ∧
        Idle s t := by
  have hrun : ((Server.machine JsonText.codec (· = Server.start 0 Database.empty)).exec
      (Server.start 0 Database.empty) MyChat.Sample.registered).any fun t =>
      (t.db.user.get 2).isSome := by
    decide +kernel
  obtain ⟨t, ht, huser⟩ := (Option.any_eq_true _ _).mp hrun
  have hstart : (Server.machine JsonText.codec (· = Server.start 0 Database.empty)).Reachable
      (Server.start 0 Database.empty) := .start rfl
  obtain ⟨s, hs⟩ := one_step_reachable (τ := Fin 2) (hstart.exec (fun _ _ _ => trivial) ht)
  exact ⟨t, s, huser, hs⟩

/-! ## The ways of a chat -/

section
variable {conn : Conn} {js : Json} {msgId : Int32} {es : List (Prog.Event ServerOp ServerOp.Answer)}

end

namespace Sample

/-- User 2 writes to user 1, whose logout is handled while the first thread waits. -/
def leaving : List (ProcessStep (Fin 2)) :=
  .start second (.request (fun _ => MySQL.up) EnMsgType.logoutMsg.val 5 (Sample.logout 1)) ::
    (List.replicate 4 (.run second) ++ List.replicate 7 (.run first))

end Sample

end MyChat.Threads
