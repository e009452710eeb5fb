import MyChat.Lib.Simulation
import MyChat.Sessions

/-! One server that is only ever stopped by SIGINT. The rows, read through to the
end of the queue, say who has a session, before a restart and after it; what the
online keys say is another matter, for they outlive the process. -/

namespace MyChat
open Json

/-! ## Rows and sessions -/

/-- The rows and the updates queued for them say who has a session. -/
structure Recorded (s : Server) : Prop where
  state : ∀ id, id ≠ -1 → (id ∈ s.userConnMap ↔ stateOf id s = some online)
  tasks : ∀ t ∈ s.dbQueue, t.type = .updateUserState →
    t.state = offline ∨ t.state = online ∧ (t.userid = -1 ∨ (s.db.user.get t.userid).isSome)

namespace Recorded

variable {s s' : Server}

/-- Some Redis would agree as well. -/
theorem consistent (h : Recorded s) : ∃ r, Consistent { s with redis := r } := by
  have hinj : Function.Injective (Prod.mk (β := Int32) s.self) := Prod.mk_right_injective s.self
  refine ⟨⟨s.userConnMap.keys.toList.map (Prod.mk s.self), (Finset.nodup_toList _).map hinj, ∅, []⟩,
    h.state, fun id _ => ?_, fun id _ hk => ?_, h.tasks⟩
  · show id ∈ s.userConnMap ↔ (s.self, id) ∈ s.userConnMap.keys.toList.map (Prod.mk s.self)
    rw [List.mem_map_of_injective hinj, Finset.mem_toList]
    exact Finmap.mem_keys.symm
  · simp at hk

/-- The worker does not look at Redis. -/
theorem work (h : Recorded s) (hs : s.work MySQL.up = some s') : Recorded s' := by
  obtain ⟨r, hr⟩ := h.consistent
  have hs' : ({ s with redis := r } : Server).work MySQL.up = some { s' with redis := r } := by
    unfold Server.work at hs ⊢
    split at hs
    · cases hs
    · next t rest hq =>
      simp only [hq]
      split at hs <;> (cases hs; rfl)
  have hnext := hr.work hs'
  exact ⟨hnext.state, hnext.tasks⟩

/-- Rows that appear are not online. -/
theorem stateOf_grow {db db' : Database} (h : UsersGrow db db') (id : Int32) (q : Option Bytes) :
    q.or ((db'.user.get id).map (·.state)) = some online ↔
      q.or ((db.user.get id).map (·.state)) = some online := by
  cases q with
  | some state => exact Iff.rfl
  | none =>
    simp only [Option.none_or, Option.map_eq_some_iff]
    constructor
    · rintro ⟨row, hrow, hon⟩
      rcases h.fresh id row hrow with hrow | hoff
      · exact ⟨row, hrow, hon⟩
      · exact absurd (hoff.symm.trans hon) offline_ne_online
    · rintro ⟨row, hrow, hon⟩
      exact ⟨row, h.kept id row hrow, hon⟩

theorem lastUpdate_append {id : Int32} (queue : List DbTaskArgs) {tasks : List DbTaskArgs}
    (h : ∀ t ∈ tasks, t.type ≠ .updateUserState) :
    lastUpdate id (queue ++ tasks) = lastUpdate id queue := by
  have hnone : tasks.filter (isUpdate id) = [] := by
    rw [List.filter_eq_nil_iff]
    intro t ht
    simp [isUpdate, h t ht]
  rw [lastUpdate, List.filter_append, hnone, List.append_nil]
  rfl

theorem isSome_grow {db db' : Database} (h : UsersGrow db db') {id : Int32}
    (hrow : (db.user.get id).isSome) :
    (db'.user.get id).isSome := by
  obtain ⟨row, hrow⟩ := Option.isSome_iff_exists.mp hrow
  rw [h.kept id row hrow]
  rfl

theorem sessionChange (h : Recorded s) {P : Int32 → Prop} (hs : SessionChange P s s') :
    Recorded s' := by
  have hold : ∀ {t : DbTaskArgs}, t ∈ s.dbQueue → t.type = .updateUserState →
      t.state = offline ∨ t.state = online ∧ (t.userid = -1 ∨ (s'.db.user.get t.userid).isSome) :=
    fun hmem htype => (h.tasks _ hmem htype).imp_right fun ht =>
      ⟨ht.1, ht.2.imp_right (isSome_grow hs.users)⟩
  cases hs.move with
  | kept hm _ hq ht =>
    refine ⟨fun id hid => ?_, fun t hmem htype => ?_⟩
    · rw [stateOf, stateOf_grow hs.users, hm, hq, lastUpdate_append s.dbQueue ht]
      exact h.state id hid
    · rw [hq] at hmem
      rcases List.mem_append.mp hmem with hmem | hmem
      · exact hold hmem htype
      · exact absurd htype (ht t hmem)
  | @opened k conn hr hm _ hq =>
    refine ⟨fun id hid => ?_, fun t hmem htype => ?_⟩
    · rw [stateOf, stateOf_grow hs.users, hm, hq, lastUpdate_push, Consistent.mem_mapInsert,
        h.state id hid, stateOf]
      by_cases hk : k = id
      · rw [if_pos ((isUpdate_updateStateTask id k online).mpr hk)]
        exact iff_of_true (Or.inl hk.symm) rfl
      · rw [if_neg fun hu => hk ((isUpdate_updateStateTask id k online).mp hu)]
        exact or_iff_right fun he => hk he.symm
    · rw [hq] at hmem
      rcases List.mem_append.mp hmem with hmem | hmem
      · exact hold hmem htype
      · rw [List.mem_singleton.mp hmem]
        refine Or.inr ⟨rfl, ?_⟩
        rcases hr with hk | ⟨row, hrow, -⟩
        · exact Or.inl hk
        · exact Or.inr (isSome_grow hs.users (Option.isSome_of_eq_some hrow))
  | @ended k _ hm _ hq =>
    refine ⟨fun id hid => ?_, fun t hmem htype => ?_⟩
    · rw [stateOf, stateOf_grow hs.users, hm, hq, lastUpdate_push, Consistent.mem_mapErase,
        h.state id hid, stateOf]
      by_cases hk : k = id
      · rw [if_pos ((isUpdate_updateStateTask id k offline).mpr hk)]
        exact iff_of_false (fun hold => hold.1 hk.symm) fun hon =>
          offline_ne_online (Option.some.inj hon)
      · rw [if_neg fun hu => hk ((isUpdate_updateStateTask id k offline).mp hu)]
        exact and_iff_right fun he => hk he.symm
    · rw [hq] at hmem
      rcases List.mem_append.mp hmem with hmem | hmem
      · exact hold hmem htype
      · rw [List.mem_singleton.mp hmem]
        exact Or.inl rfl
  | missed hm _ hq =>
    refine ⟨fun id hid => ?_, fun t hmem htype => hold (hq ▸ hmem) htype⟩
    have hmem : id ∈ s'.userConnMap ↔ id ∈ s.userConnMap := by
      rcases hm with hm | hm
      · rw [hm]
      · rw [hm, Consistent.mem_mapErase]
        simp [hid]
    rw [stateOf, stateOf_grow hs.users, hmem, hq]
    exact h.state id hid

end Recorded

/-! ## Orderly runs of one server -/

variable {evp : Evp} {codec : JsonCodec}

/-- The step does not end the process but through its signal handler, which
nothing overtakes, and the database runs the updates of rows. -/
structure Orderly (evp : Evp) (codec : JsonCodec) (c : Fleet 1) (l : FleetStep 1) : Prop where
  updates : ∀ i my, l = .work i my ∨ l = .interrupt i my → my = MySQL.up
  exits : c.phase 0 = .stopping → l = .stop 0 ∨ ∃ id, l = .expire id
  lives : ∀ c', c.step evp codec l = some c' → c.phase 0 ≠ .down → c'.phase 0 = .down → l = .stop 0

/-- Between two processes no row is online. -/
structure Restartable (c : Fleet 1) : Prop where
  up : c.phase 0 = .up → Recorded (c.view 0)
  quiet : c.phase 0 ≠ .up → ∀ id row, c.db.user.get id = some row → row.state ≠ online
  gone : c.phase 0 = .down → (c.hosts 0).userConnMap = ∅ ∧ (c.hosts 0).dbQueue = []

namespace Restartable

variable {c c' : Fleet 1}

theorem start {db : Database} (h : ∀ id row, db.user.get id = some row → row.state ≠ online) :
    Restartable (Fleet.start 1 db) :=
  ⟨nofun, fun _ => h, fun _ => ⟨rfl, rfl⟩⟩

/-- A process starts without sessions, on rows that are all offline. -/
theorem boot (h : Restartable c) (hdown : c.phase 0 = .down) : Restartable (c.enter 0 .up) := by
  have hphase : (c.enter 0 .up).phase 0 = .up := by rw [Fleet.phase_enter, if_pos rfl]
  obtain ⟨hmap, hqueue⟩ := h.gone hdown
  have hquiet := h.quiet (by rw [hdown]; decide)
  refine ⟨fun _ => ⟨fun id _ => ?_, fun t ht => ?_⟩, fun hne => absurd hphase hne, fun hd => ?_⟩
  · have hno : id ∉ ((c.enter 0 .up).view 0).userConnMap := by
      show id ∉ (c.hosts 0).userConnMap
      rw [hmap]
      exact Finmap.notMem_empty
    refine iff_of_false hno ?_
    show (lastUpdate id (c.hosts 0).dbQueue).or ((c.db.user.get id).map (·.state)) ≠ some online
    rw [hqueue]
    intro hon
    obtain ⟨row, hrow, hon⟩ := Option.map_eq_some_iff.mp hon
    exact hquiet id row hrow hon
  · have ht' : t ∈ (c.hosts 0).dbQueue := ht
    rw [hqueue] at ht'
    cases ht'
  · rw [hphase] at hd
    cases hd

theorem halt (h : Restartable c) (hne : c.phase 0 ≠ .up) : Restartable (c.halt 0) := by
  have hphase : (c.halt 0).phase 0 = .down := by rw [Fleet.phase_halt, if_pos rfl]
  refine ⟨fun hup => ?_, fun _ => h.quiet hne, fun _ => ?_⟩
  · rw [hphase] at hup
    cases hup
  · rw [Fleet.hosts_halt, if_pos rfl]
    exact ⟨rfl, rfl⟩

/-- The reset leaves no row online. -/
theorem interrupt (c : Fleet 1) :
    Restartable ((c.put 0 (reset MySQL.up (c.view 0))).enter 0 .stopping) := by
  have hphase : ((c.put 0 (reset MySQL.up (c.view 0))).enter 0 .stopping).phase 0 = .stopping := by
    rw [Fleet.phase_enter, if_pos rfl]
  refine ⟨fun hup => ?_, fun _ id row hrow => ?_, fun hd => ?_⟩
  · rw [hphase] at hup
    cases hup
  · have hreset : (UserModel.resetState MySQL.up c.db).user.get id = some row := hrow
    rw [UserModel.resetState, if_pos ⟨rfl, rfl⟩] at hreset
    simp only [AutoTable.get_map, Option.map_eq_some_iff] at hreset
    obtain ⟨old, -, rfl⟩ := hreset
    split
    · exact offline_ne_online
    · next hoff => exact hoff
  · rw [hphase] at hd
    cases hd

theorem step (hc : codec.Lawful) (h : Restartable c) {l : FleetStep 1} (hl : Orderly evp codec c l)
    (hs : c.step evp codec l = some c') : Restartable c' := by
  have hlives := hl.lives c' hs
  cases Fleet.step_stepped hs with
  | @served _ i s' hup hserved =>
    have hi : i = 0 := Subsingleton.elim i 0
    subst hi
    have hrunning : c.phase 0 = .up := by
      cases hphase : c.phase 0 with
      | up => rfl
      | down => exact absurd hphase hup
      | stopping => rcases hl.exits hphase with rfl | ⟨id, rfl⟩ <;> cases hserved
    have hrec : Recorded s' := by
      rcases hserved.sessions hc with hstep | ⟨i, my, rfl, hw⟩
      · exact (h.up hrunning).sessionChange hstep
      · rw [hl.updates i my (Or.inl rfl)] at hw
        exact (h.up hrunning).work hw
    refine ⟨fun _ => ⟨fun id hid => ?_, fun t ht htype => ?_⟩, fun hne =>
      absurd hrunning hne, fun hd => absurd hd hup⟩
    · have hview : (c.put 0 s').hosts 0 = s' := Fleet.hosts_put 0 s' c
      show id ∈ ((c.put 0 s').hosts 0).userConnMap ↔
        (lastUpdate id ((c.put 0 s').hosts 0).dbQueue).or ((s'.db.user.get id).map (·.state)) =
        some online
      rw [hview]
      exact hrec.state id hid
    · have ht' : t ∈ ((c.put 0 s').hosts 0).dbQueue := ht
      rw [Fleet.hosts_put] at ht'
      exact hrec.tasks t ht' htype
  | @crashed _ i s' hup hserved =>
    have hi : i = 0 := Subsingleton.elim i 0
    subst hi
    have hdown : ((c.put 0 s').halt 0).phase 0 = .down := by rw [Fleet.phase_halt, if_pos rfl]
    cases hlives hup hdown
    cases hserved
  | @booted i hdown =>
    have hi : i = 0 := Subsingleton.elim i 0
    subst hi
    exact h.boot hdown
  | expired id => exact ⟨fun hup => ⟨(h.up hup).state, (h.up hup).tasks⟩, h.quiet, h.gone⟩
  | @interrupted i hup my =>
    have hi : i = 0 := Subsingleton.elim i 0
    subst hi
    rw [hl.updates 0 my (Or.inr rfl)]
    exact interrupt c
  | @stopped i hstop =>
    have hi : i = 0 := Subsingleton.elim i 0
    subst hi
    exact h.halt (by rw [hstop]; decide)
  | @killed i hup =>
    have hi : i = 0 := Subsingleton.elim i 0
    subst hi
    have hdown : (c.halt 0).phase 0 = .down := by rw [Fleet.phase_halt, if_pos rfl]
    cases hlives hup hdown

end Restartable

namespace Sample

theorem interrupt_runs : (host.step oneUser (.interrupt only MySQL.up)).isSome := by decide +kernel

def interrupted : Fleet 1 := Option.get _ interrupt_runs

theorem stop_runs : (host.step interrupted (.stop only)).isSome := by decide +kernel

def stopped : Fleet 1 := Option.get _ stop_runs

def stopping : List (FleetStep 1) :=
  [.boot only, receives 1 (reg "a"), .interrupt only MySQL.up, .stop only]

end Sample

end MyChat
