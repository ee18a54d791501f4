import Mathlib.Algebra.GroupWithZero.Nat
import Mathlib.Algebra.Order.BigOperators.Group.List
import Mathlib.Algebra.Order.Group.Nat
import Emm.Proofs.Exchange

/-!
How much a system has left to do when nothing comes from outside and the clock stands. A timer that
is given no time runs out as soon as it is started, so an identification is counted with all the
retransmissions that it may still come to, and everything that may start a timer with the expiry of
that timer.

Main statements: `begin_load` and `resume_load`, by which every turn of a handler leaves less to be
done than there was before it.
-/

namespace Emm

namespace Table

variable {κ : Type u} {ν : Type v} (t : Table κ ν) (w : ν → Nat)

/-- The weights of all values together. -/
def total : Nat := (t.entries.map fun e => w e.2).sum

variable [DecidableEq κ] (k : κ)

theorem total_erase_le : (t.erase k).total w ≤ t.total w :=
  (List.filter_sublist.map _).sum_le_sum fun _ _ => Nat.zero_le _

theorem total_modify_of_none (f : ν → ν) (h : t.get? k = none) :
    (t.modify k f).total w = t.total w := by
  have hout : ∀ e ∈ t.entries, e.1 ≠ k := by
    rintro ⟨k', v⟩ he rfl
    rw [(t.get?_eq_some_iff_mem k' v).2 he] at h
    cases h
  unfold total modify
  rw [List.map_map]
  refine congrArg List.sum (List.map_congr_left fun e he => ?_)
  simp only [Function.comp_apply, if_neg (hout e he)]

theorem total_modify_of_some (f : ν → ν) {v : ν} (h : t.get? k = some v) :
    (t.modify k f).total w + w v = t.total w + w (f v) := by
  obtain ⟨entries, hnodup⟩ := t
  rw [get?_eq_some_iff_mem] at h
  simp only [total, modify] at h ⊢
  induction entries with
  | nil => cases h
  | cons e entries ih =>
      rw [List.map_cons, List.nodup_cons] at hnodup
      simp only [List.map_cons, List.sum_cons]
      rcases List.mem_cons.1 h with rfl | htail
      · have hout : ∀ e ∈ entries, e.1 ≠ k := fun e he hk =>
          hnodup.1 (List.mem_map.2 ⟨e, he, hk⟩)
        have hrest : (entries.map fun e => if e.1 = k then (e.1, f e.2) else e) = entries := by
          conv_rhs => rw [← List.map_id entries]
          exact List.map_congr_left fun e he => if_neg (hout e he)
        simp only [hrest, if_true]
        omega
      · have hne : e.1 ≠ k := by
          intro hk
          exact hnodup.1 (List.mem_map.2 ⟨(k, v), htail, hk.symm⟩)
        rw [if_neg hne]
        have := ih hnodup.2 htail
        omega

theorem total_modify_le (f : ν → ν) {d : Nat} (h : ∀ v, t.get? k = some v → w (f v) ≤ w v + d) :
    (t.modify k f).total w ≤ t.total w + d := by
  cases hv : t.get? k with
  | none =>
      rw [t.total_modify_of_none w k f hv]
      exact Nat.le_add_right _ _
  | some v =>
      have hsum := t.total_modify_of_some w k f hv
      have hweight := h v hv
      omega

end Table

/-- How often the identification may still be retransmitted. The count starts over at the end of its
range. -/
def Identification.resends (limit : Nat) (p : Identification) : Nat :=
  limit - (p.expiries + 1).toNat

def Context.resends (limit : Nat) (c : Context) : Nat :=
  match c.procedures.identification with
  | some p => p.resends limit
  | none => 0

/-- The work with an expiry. It is enough for an identification whose count starts over. -/
def Expiry.load (limit : Nat) : Nat := 5 * limit + 5

/-- The work that the timers, and the identifications under way, may make. -/
def Mme.load (limit : Nat) (m : Mme) : Nat :=
  5 * m.store.contexts.total (·.resends limit) + (Expiry.load limit + 2) * m.timers.armed.length

/-- The work of a handler that waits. A request starts a timer, and so does a displacement. -/
def Resumption.load (limit : Nat) : Resumption → Nat
  | requested _ .start => Expiry.load limit + 7
  | requested .. => Expiry.load limit + 5
  | displaced .. => Expiry.load limit + 7
  | exhausted _ => 5
  | _ => 3

def EmmPhase.load (limit : Nat) : EmmPhase → Nat
  | receiving => 1
  | publishing _ _ next => next.load limit
  | stopped | crashed _ => 0

def Progress.load (limit : Nat) : Progress → Nat
  | done (.crashed _) => 0
  | done _ => 1
  | publish _ next => next.load limit

def Message.load (limit : Nat) : Message → Nat
  | start .. => 2 * Expiry.load limit + 2
  | expired _ => Expiry.load limit
  | _ => Expiry.load limit + 7

theorem EmmPhase.load_phaseAfter (limit : Nat) (ue : UeId) (p : Progress) :
    (System.phaseAfter ue p).load limit = p.load limit := by
  cases p with
  | publish n next => rfl
  | done outcome => cases outcome <;> rfl

theorem Outcome.load_done_le (limit : Nat) (outcome : Outcome) :
    (Progress.done outcome).load limit ≤ 1 := by
  cases outcome with
  | crashed crash => exact Nat.zero_le 1
  | _ => exact Nat.le_refl 1

theorem Resumption.load_pos (limit : Nat) (next : Resumption) : 3 ≤ next.load limit := by
  unfold load
  split <;> omega

theorem Identification.resends_le (limit : Nat) (p : Identification) : p.resends limit ≤ limit :=
  Nat.sub_le _ _

theorem Identification.resends_next {max : UInt32} {p q : Identification}
    (hnext : p.expiries + 1 < max) (hq : q.expiries = p.expiries + 1) :
    q.resends max.toNat + 1 = p.resends max.toNat := by
  have hlt := UInt32.lt_iff_toNat_lt.1 hnext
  have hmax := max.toNat_lt
  have hcount : (p.expiries + 1 + 1).toNat = (p.expiries + 1).toNat + 1 := by
    rw [UInt32.toNat_add (p.expiries + 1) 1]
    exact Nat.mod_eq_of_lt (by simp only [UInt32.toNat_one]; omega)
  unfold resends
  rw [hq, hcount]
  omega

namespace Mme

variable (limit : Nat) (m : Mme) (ue : UeId)

/-- What is left after a turn of a handler. -/
def turnLoad (turn : Mme × Progress) : Nat := turn.1.load limit + turn.2.load limit

@[simp]
theorem load_emit (e : Log.Event) : (m.emit e).load limit = m.load limit := rfl

@[simp]
theorem load_claim (imsi : Imsi) : (m.claim imsi ue).load limit = m.load limit := by
  unfold claim emitMove
  split <;> rfl

theorem load_modifyContext_add (f : Context → Context) {d : Nat}
    (h : ∀ c, m.context? ue = some c → (f c).resends limit ≤ c.resends limit + d) :
    (m.modifyContext ue f).load limit ≤ m.load limit + 5 * d := by
  have htotal := m.store.contexts.total_modify_le (·.resends limit) ue f h
  simp only [load, modifyContext, Store.modify]
  omega

theorem load_modifyContext_le (f : Context → Context)
    (h : ∀ c, m.context? ue = some c → (f c).resends limit ≤ c.resends limit) :
    (m.modifyContext ue f).load limit ≤ m.load limit :=
  m.load_modifyContext_add limit ue f (d := 0) h

theorem load_modifyContext (f : Context → Context)
    (hf : ∀ c, (f c).procedures.identification = c.procedures.identification) :
    (m.modifyContext ue f).load limit ≤ m.load limit := by
  refine m.load_modifyContext_le limit ue f fun c _ => ?_
  simp only [Context.resends, hf, Nat.le_refl]

theorem load_setIdentification_none :
    (m.setIdentification ue none).load limit ≤ m.load limit :=
  m.load_modifyContext_le limit ue _ fun _ _ => Nat.zero_le _

theorem load_setIdentification_some {p q : Identification} (hp : m.identification? ue = some p)
    (hq : q.expiries = p.expiries) :
    (m.setIdentification ue (some q)).load limit ≤ m.load limit := by
  refine m.load_modifyContext_le limit ue _ fun c hc => ?_
  have hrecord : c.procedures.identification = some p := by simpa [identification?, hc] using hp
  simp only [Context.resends, hrecord, Identification.resends, hq, Nat.le_refl]

theorem load_enter_le (q : Identification) :
    (m.setIdentification ue (some q)).load limit ≤ m.load limit + 5 * limit :=
  m.load_modifyContext_add limit ue _ fun _ _ =>
    (q.resends_le limit).trans (Nat.le_add_left _ _)

theorem load_stopTimers_le (ids : List TimerId) :
    (m.stopTimers ids).load limit ≤ m.load limit := by
  have harmed : (m.stopTimers ids).timers.armed.length ≤ m.timers.armed.length := by
    rw [timers_stopTimers]
    exact List.length_filter_le _ _
  have hwork := Nat.mul_le_mul_left (Expiry.load limit + 2) harmed
  simp only [load, store_stopTimers]
  omega

theorem load_startTimer (kind : TimerKind) (interval : Duration) :
    (m.startTimer ue kind interval).2.load limit = m.load limit + (Expiry.load limit + 2) := by
  have hlength : (m.timers.start ue kind interval).armed.length = m.timers.armed.length + 1 := by
    simp [Timers.start]
  rw [load, timers_startTimer, hlength, Nat.mul_succ, ← Nat.add_assoc]
  rfl

theorem load_removeContext_le : (m.removeContext ue).load limit ≤ m.load limit := by
  have htotal := m.store.contexts.total_erase_le (·.resends limit) ue
  unfold removeContext
  split
  · rename_i hpresent
    rw [load_emit]
    simp only [load, Store.remove, if_pos hpresent]
    omega
  · exact Nat.le_refl _

theorem load_releaseIdentification_le :
    (m.releaseIdentification ue).load limit ≤ m.load limit := by
  unfold releaseIdentification
  split
  · exact (load_stopTimers_le limit _ _).trans (m.load_setIdentification_none limit ue)
  · exact Nat.le_refl _

theorem load_deleteProcedures_le : (m.deleteProcedures ue).load limit ≤ m.load limit := by
  unfold deleteProcedures
  split
  · refine (load_stopTimers_le limit _ _).trans ?_
    exact m.load_modifyContext_le limit ue _ fun _ _ => Nat.zero_le _
  · exact Nat.le_refl _

theorem load_tearDown_le : (m.tearDown ue).load limit ≤ m.load limit := by
  unfold tearDown unregister
  split
  · exact (load_stopTimers_le limit _ _).trans (m.load_removeContext_le limit ue)
  · exact Nat.le_refl _

@[simp]
theorem load_noteRefusal (n : Notification) (d : Delivery) :
    (m.noteRefusal n d).load limit = m.load limit := by
  cases d <;> rfl

theorem load_apply_le (n : Notification) : (m.apply n).load limit ≤ m.load limit := by
  cases n with
  | procedureConfirmed ue ending =>
      simp only [apply, registerImsi]
      split
      · split <;> exact Nat.le_refl _
      · exact Nat.le_refl _
  | teardownSession ue cause => exact load_tearDown_le limit (m.emit _) ue
  | applicationTeardown ue =>
      simp only [apply]
      split <;> exact Nat.le_refl _
  | specificProcedureRetry ue procedure old =>
      simp only [apply, reportOld]
      split <;> exact Nat.le_refl _
  | _ => exact Nat.le_refl _

theorem requestFailed_load (purpose : RequestPurpose) (e : IdentificationError) :
    turnLoad limit (m.requestFailed ue purpose e) = m.load limit + 1 := by
  unfold requestFailed
  split
  · rfl
  · rfl
  · split <;> rfl

theorem request_load (purpose : RequestPurpose) :
    turnLoad limit (m.request ue purpose) ≤
      m.load limit + (Resumption.requested ue purpose).load limit := by
  have hpos := (Resumption.requested ue purpose).load_pos limit
  unfold request
  split
  · rw [requestFailed_load, load_emit]
    omega
  · split
    · rw [requestFailed_load]
      omega
    · exact Nat.le_refl _

theorem armT3470_load (interval : Duration) :
    (m.armT3470 interval ue).load limit ≤ m.load limit + (Expiry.load limit + 2) := by
  unfold armT3470
  split
  · rename_i p hp
    have hstopped := m.load_stopTimers_le limit p.t3470.toList
    have hstarted := load_startTimer limit (m.stopTimers p.t3470.toList) ue .t3470 interval
    have hrecord : ((m.stopTimers p.t3470.toList).startTimer ue .t3470 interval).2.identification?
        ue = some p := (congrFun (identification?_stopTimers m _) ue).trans hp
    have hset := load_setIdentification_some limit _ ue hrecord
      (q := { p with t3470 := some (m.stopTimers p.t3470.toList).timers.nextId }) rfl
    simp only [load_emit]
    exact hset.trans (by omega)
  · rw [load_emit]
    omega

theorem requestSucceeded_load (purpose : RequestPurpose) :
    turnLoad limit (m.requestSucceeded ue purpose) + (Expiry.load limit + 4) =
      m.load limit + (Resumption.requested ue purpose).load limit := by
  cases purpose with
  | start =>
      simp only [requestSucceeded, turnLoad, Progress.load, Resumption.load]
      omega
  | retransmission =>
      simp only [requestSucceeded, turnLoad, Progress.load, Resumption.load]
      omega
  | redelivery =>
      simp only [requestSucceeded, turnLoad, Progress.load, Resumption.load, load_emit]
      omega

/-! ### First turns -/

theorem enterIdentification_load (c : Context) (requested : IdentityType)
    (parent : Option ProcedureId) :
    (m.enterIdentification ue c requested parent).load limit ≤ m.load limit + 5 * limit := by
  unfold enterIdentification
  split
  · exact load_enter_le limit (m.emit _) ue _
  · exact load_enter_le limit m.takeProcedureId.2 ue _

theorem start_load (requested : IdentityType) (parent : Option ProcedureId) :
    turnLoad limit (m.start ue requested parent) ≤
      m.load limit + 5 * limit + (Expiry.load limit + 7) := by
  have hfail : ∀ e, turnLoad limit (m, .done (.started (.error e))) ≤
      m.load limit + 5 * limit + (Expiry.load limit + 7) := by
    intro e
    simp only [turnLoad, Progress.load]
    omega
  unfold start
  split
  · exact hfail _
  · split
    · exact hfail _
    · rename_i c hc
      split
      · exact hfail _
      · have hentered := m.enterIdentification_load limit ue c requested parent
        refine (request_load limit _ ue .start).trans ?_
        simp only [load_emit, Resumption.load]
        omega

theorem conclude_load (previousState : EmmState) (completion : Completion) :
    turnLoad limit (m.conclude ue previousState completion) ≤ m.load limit + 3 :=
  Nat.add_le_add_right (m.load_releaseIdentification_le limit ue) 3

theorem giveUp_load (claim : Claim) (e : IdentificationError) :
    turnLoad limit (m.giveUp claim e) ≤ m.load limit + 3 :=
  Nat.add_le_add_right (load_releaseIdentification_le limit (m.emit _) claim.ue) 3

theorem findHolder_load (imsi : Imsi) : (m.findHolder ue imsi).1.load limit = m.load limit := by
  have happlication : ∀ m : Mme, (m.findApplicationHolder ue imsi).1.load limit =
      m.load limit := by
    intro m
    unfold findApplicationHolder
    split <;> rfl
  unfold findHolder
  split
  · split
    · rfl
    · exact happlication _
  · exact happlication m

theorem settleImsi_load (claim : Claim) :
    turnLoad limit (m.settleImsi claim) ≤ m.load limit + (Expiry.load limit + 7) := by
  have hfound := m.findHolder_load limit claim.ue claim.imsi
  unfold settleImsi
  split
  · rename_i m₁ holder heq
    rw [heq] at hfound
    exact Nat.le_of_eq (congrArg (· + (Expiry.load limit + 7)) hfound)
  · rename_i m₁ heq
    rw [heq] at hfound
    simp only at hfound
    split
    · rename_i m₂ hassign
      have hassigned : m₂.load limit ≤ m₁.load limit := by
        unfold assign at hassign
        split at hassign
        · cases hassign
          rw [load_claim]
          exact m₁.load_modifyContext limit claim.ue _ fun _ => rfl
        · cases hassign
      have hconcluded := m₂.conclude_load limit claim.ue claim.previousState .confirmed
      omega
    · rename_i e _
      have hgivenUp := m₁.giveUp_load limit claim e
      omega

theorem complete_load (identity : MobileIdentity) :
    turnLoad limit (m.complete ue identity) ≤ m.load limit + (Expiry.load limit + 7) := by
  unfold complete
  simp only [identification?_emit]
  split
  · simp only [turnLoad, load_emit, Progress.load]
    omega
  · rename_i p hp
    generalize hheard : Mme.modifyContext _ ue (noteEquipment identity) = m₁
    have hless : m₁.load limit ≤ m.load limit := by
      rw [← hheard]
      refine (load_modifyContext limit _ ue _ fun _ => ?_).trans
        ((load_stopTimers_le limit _ _).trans
          (load_setIdentification_some limit (m.emit _) ue hp rfl))
      cases identity <;> rfl
    cases identity with
    | imsi imsi => exact (m₁.settleImsi_load limit _).trans (Nat.add_le_add_right hless _)
    | imei imei =>
        have hconcluded := m₁.conclude_load limit ue p.previousState .confirmed
        simp only
        omega
    | imeisv imeisv =>
        have hconcluded := m₁.conclude_load limit ue p.previousState .confirmed
        simp only
        omega
    | tmsi tmsi =>
        have hreleased := load_releaseIdentification_le limit
          (m₁.emit (.responseCarriesTmsi ue)) ue
        rw [load_emit] at hreleased
        simp only [turnLoad, Progress.load, Resumption.load]
        omega

theorem t3470Expired_load (config : NasConfig) (timer : TimerId) :
    turnLoad config.maxRetransmissions.toNat (m.t3470Expired config ue timer) ≤
      m.load config.maxRetransmissions.toNat +
        Expiry.load config.maxRetransmissions.toNat := by
  have hidle : 1 ≤ Expiry.load config.maxRetransmissions.toNat := Nat.le_add_left _ _
  unfold t3470Expired
  split
  · exact Nat.add_le_add_left hidle _
  · rename_i c hc
    split
    · exact Nat.add_le_add_left hidle _
    · rename_i p hp
      have hrecord : c.procedures.identification = some p := (Option.filter_eq_some_iff.1 hp).1
      simp only
      split
      · rename_i hnext
        have hresends := Identification.resends_next
          (q := { p with t3470 := none, expiries := p.expiries + 1 }) hnext rfl
        have htotal := m.store.contexts.total_modify_of_some
          (·.resends config.maxRetransmissions.toNat) ue (fun c => { c with
            procedures := { c.procedures with
              identification := some { p with t3470 := none, expiries := p.expiries + 1 } } }) hc
        have hrequested := request_load config.maxRetransmissions.toNat
          ((m.setIdentification ue
            (some { p with t3470 := none, expiries := p.expiries + 1 })).emit
              (.t3470Expired ue timer (p.expiries + 1))) ue .retransmission
        simp only [load_emit, Resumption.load] at hrequested
        simp only [Context.resends, hrecord] at htotal
        refine hrequested.trans ?_
        simp only [load, setIdentification, modifyContext, Store.modify, Context.resends]
        omega
      · have hentered := m.load_enter_le config.maxRetransmissions.toNat ue
          { p with t3470 := none, expiries := p.expiries + 1 }
        simp only [turnLoad, load_emit, Progress.load, Resumption.load]
        unfold Expiry.load
        omega

theorem retryExpired_load (timer : TimerId) :
    turnLoad limit (m.retryExpired ue timer) ≤ m.load limit + Expiry.load limit := by
  have hlast : 3 ≤ Expiry.load limit := by
    unfold Expiry.load
    omega
  unfold retryExpired
  split
  · exact Nat.add_le_add_left ((by decide : 1 ≤ 3).trans hlast) _
  · rename_i s hs
    have hset : (m.setSpecific ue (some { s with
        retryTimer := none, reconciliation := none })).load limit ≤ m.load limit :=
      m.load_modifyContext limit ue _ fun _ => rfl
    exact Nat.add_le_add hset hlast

theorem begin_load (config : NasConfig) (msg : Message) :
    turnLoad config.maxRetransmissions.toNat (m.begin config msg) ≤
      m.load config.maxRetransmissions.toNat + msg.load config.maxRetransmissions.toNat := by
  generalize hlimit : config.maxRetransmissions.toNat = limit
  cases msg with
  | start ue requested parent =>
      refine (m.start_load limit ue requested parent).trans ?_
      simp only [Message.load]
      unfold Expiry.load
      omega
  | complete ue identity => exact m.complete_load limit ue identity
  | expired e =>
      obtain ⟨timer, ue, kind⟩ := e
      cases kind with
      | t3470 =>
          rw [← hlimit]
          exact m.t3470Expired_load ue config timer
      | specificRetry => exact m.retryExpired_load limit ue timer
  | lowerLayerFailure ue =>
      simp only [begin, lowerLayerFailed, Message.load]
      split <;> simp only [turnLoad, load_emit, Progress.load, Resumption.load] <;> omega
  | nonDelivery ue =>
      refine (m.request_load limit ue .redelivery).trans ?_
      simp only [Message.load, Resumption.load]
      omega
  | abort ue =>
      have hreleased := m.load_releaseIdentification_le limit ue
      simp only [begin, abort, Message.load]
      split <;> simp only [turnLoad, load_emit, Progress.load] <;> omega

/-! ### Later turns -/

theorem parkParent_load (interval : Duration) (parent : Option ProcedureId) (old : UeId) :
    (m.parkParent interval ue parent old).1.load limit ≤
      m.load limit + (Expiry.load limit + 2) := by
  unfold parkParent
  split
  · exact Nat.le_add_right _ _
  · split
    · exact Nat.le_add_right _ _
    · rename_i s _
      have hstopped := m.load_stopTimers_le limit s.retryTimer.toList
      have hstarted := load_startTimer limit (m.stopTimers s.retryTimer.toList) ue .specificRetry
        interval
      have hset : ∀ s', (setSpecific ((m.stopTimers s.retryTimer.toList).startTimer ue
          .specificRetry interval).2 ue s').load limit ≤ _ := fun s' =>
        load_modifyContext limit _ ue _ fun _ => rfl
      simp only
      split
      · exact (hset _).trans (by omega)
      · exact (hset _).trans (by omega)

theorem displace_load (interval : Duration) (parent : Option ProcedureId) (holder : Holder) :
    (m.displace interval ue parent holder).1.load limit ≤
      m.load limit + (Expiry.load limit + 2) := by
  cases holder with
  | context old =>
      have hblamed : (m.modifyContext old fun c => { c with cause := some .illegalUe }).load limit ≤
          m.load limit := m.load_modifyContext limit old _ fun _ => rfl
      exact (parkParent_load limit _ ue interval parent old).trans (Nat.add_le_add_right hblamed _)
  | application old => exact m.parkParent_load limit ue interval parent old

theorem followExhaustion_load : turnLoad limit (m.followExhaustion ue) = m.load limit + 3 := by
  unfold followExhaustion
  split <;> rfl

/-- A later turn leaves less than the handler still had to do, even with the notification before it
counted. -/
theorem resume_load (config : NasConfig) (n : Notification) (next : Resumption) (d : Delivery) :
    turnLoad limit (m.resume config n next d) + 1 < m.load limit + next.load limit := by
  have hdone : ∀ {m' : Mme} {outcome : Outcome} (next : Resumption),
      m'.load limit = m.load limit →
        turnLoad limit (m', .done outcome) + 1 < m.load limit + next.load limit := by
    intro m' outcome next hm'
    have hpos := next.load_pos limit
    have hended := outcome.load_done_le limit
    simp only [turnLoad, hm']
    omega
  have hdeleted : ∀ ue, ((m.noteRefusal n d).deleteProcedures ue).load limit ≤ m.load limit := by
    intro ue
    refine (load_deleteProcedures_le limit _ ue).trans ?_
    rw [load_noteRefusal]
  unfold resume
  split
  · rename_i ue purpose
    have harmed := m.armT3470_load limit ue config.t3470Interval
    have hsucceeded := requestSucceeded_load limit (m.armT3470 config.t3470Interval ue) ue purpose
    omega
  · rename_i ue purpose e
    rw [requestFailed_load]
    have hpos := (Resumption.requested ue purpose).load_pos limit
    omega
  · exact hdone _ rfl
  · exact hdone _ rfl
  · rename_i claim holder
    have hdisplaced := m.displace_load limit claim.ue config.retryInterval claim.parent holder
    simp only [Resumption.load]
    split
    · rename_i m₁ heq
      have hconcluded := m₁.conclude_load limit claim.ue claim.previousState (.deferred holder.ue)
      rw [heq] at hdisplaced
      simp only at hdisplaced
      omega
    · rename_i m₁ crash heq
      rw [heq] at hdisplaced
      simp only at hdisplaced
      simp only [turnLoad, Progress.load]
      omega
  · rename_i claim holder e
    have hgivenUp := m.giveUp_load limit claim (.dispatch e)
    simp only [Resumption.load]
    omega
  · exact hdone _ (m.load_noteRefusal limit n d)
  · exact hdone _ rfl
  · exact hdone _ rfl
  · exact hdone _ rfl
  · exact hdone _ rfl
  · rename_i ue
    rw [followExhaustion_load]
    have hless := hdeleted ue
    simp only [Resumption.load]
    omega
  · rename_i ue
    have hless := hdeleted ue
    simp only [turnLoad, Progress.load, Resumption.load]
    omega
  · exact hdone _ (m.load_noteRefusal limit n d)

end Mme

end Emm
