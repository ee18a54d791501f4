import Emm.Proofs.Rejection

/-!
The same turn taken at another time. Handlers do not read the log, and what the clock shows matters
to them only where they start a timer, which they do at most once, after their first notification.

Main statements: `begin_later` and `resume_later`. A turn that starts no timer may as well be taken
later, and every turn may be taken with another log.
-/

namespace Emm

/-- The handler starts a timer when it goes on. -/
def Resumption.startsTimer : Resumption → Bool
  | requested .. | displaced .. => true
  | _ => false

namespace Mme

def advance (m : Mme) (d : Duration) : Mme := { m with timers := m.timers.advance d }

/-- `m'` is what `m` is after `d`. Anything may have been logged. -/
structure Later (d : Duration) (m m' : Mme) : Prop where
  store : m'.store = m.store
  registry : m'.registry = m.registry
  timers : m'.timers = m.timers.advance d

/-- Two turns that end alike, the second one `d` later. -/
structure LaterTurn (d : Duration) (turn turn' : Mme × Progress) : Prop where
  later : Later d turn.1 turn'.1
  progress : turn'.2 = turn.2

variable {d d' : Duration} {m m' m'' : Mme}

theorem later_advance (m : Mme) (d : Duration) : m.Later d (m.advance d) := ⟨rfl, rfl, rfl⟩

theorem later_zero_iff : m.Later ⟨0⟩ m' ↔ m.SameButLog m' := by
  constructor
  · rintro ⟨hstore, hregistry, htimers⟩
    obtain ⟨store, registry, timers, log⟩ := m'
    cases hstore
    cases hregistry
    cases htimers
    rfl
  · intro h
    rw [h]
    exact ⟨rfl, rfl, rfl⟩

namespace Later

theorem trans (h : m.Later d m') (h' : m'.Later d' m'') : m.Later ⟨d.millis + d'.millis⟩ m'' where
  store := h'.store.trans h.store
  registry := h'.registry.trans h.registry
  timers := by
    rw [h'.timers, h.timers]
    simp [Timers.advance, Nat.add_assoc]

theorem of_same (h : m.Later d m') (h' : m.Later d m'') : m'.SameButLog m'' := by
  refine later_zero_iff.1 ⟨?_, ?_, ?_⟩
  · rw [h'.store, h.store]
  · rw [h'.registry, h.registry]
  · rw [h'.timers, h.timers]
    rfl

theorem advance (h : m.Later d m') (d' : Duration) : (m.advance d').Later d (m'.advance d') where
  store := h.store
  registry := h.registry
  timers := by
    simp only [Mme.advance, h.timers]
    simp only [Timers.advance, Nat.add_assoc, Nat.add_comm d.millis]

theorem context? (h : m.Later d m') (u : UeId) : m'.context? u = m.context? u := by
  simp only [Mme.context?, h.store]

theorem identification? (h : m.Later d m') (u : UeId) :
    m'.identification? u = m.identification? u := by
  simp only [Mme.identification?, h.context?]

theorem specific? (h : m.Later d m') (u : UeId) : m'.specific? u = m.specific? u := by
  simp only [Mme.specific?, h.context?]

theorem emit (h : m.Later d m') (e e' : Log.Event) : (m.emit e).Later d (m'.emit e') :=
  ⟨h.store, h.registry, h.timers⟩

theorem modifyContext (h : m.Later d m') (ue : UeId) (f : Context → Context) :
    (m.modifyContext ue f).Later d (m'.modifyContext ue f) where
  store := congrArg (·.modify ue f) h.store
  registry := h.registry
  timers := h.timers

theorem claim (h : m.Later d m') (imsi : Imsi) (ue : UeId) :
    (m.claim imsi ue).Later d (m'.claim imsi ue) where
  store := by simp only [Mme.claim, store_emitMove, h.store]
  registry := by simp only [registry_claim, h.registry]
  timers := by simp only [timers_claim, h.timers]

theorem stopTimers (h : m.Later d m') (ids : List TimerId) :
    (m.stopTimers ids).Later d (m'.stopTimers ids) where
  store := by simp only [store_stopTimers, h.store]
  registry := by simp only [registry_stopTimers, h.registry]
  timers := by
    simp only [timers_stopTimers, h.timers]
    rfl

theorem startTimer (h : m.Later ⟨0⟩ m') (ue : UeId) (kind : TimerKind) (interval : Duration) :
    (m'.startTimer ue kind interval).1 = (m.startTimer ue kind interval).1 ∧
      (m.startTimer ue kind interval).2.Later ⟨0⟩ (m'.startTimer ue kind interval).2 := by
  have htimers : m'.timers = m.timers := h.timers
  refine ⟨?_, h.store, h.registry, ?_⟩
  · rw [fst_startTimer, fst_startTimer, htimers]
  · rw [timers_startTimer, timers_startTimer, htimers]
    rfl

theorem releaseIdentification (h : m.Later d m') (ue : UeId) :
    (m.releaseIdentification ue).Later d (m'.releaseIdentification ue) := by
  unfold Mme.releaseIdentification
  rw [h.identification? ue]
  split
  · exact (h.modifyContext ue _).stopTimers _
  · exact h

theorem deleteProcedures (h : m.Later d m') (ue : UeId) :
    (m.deleteProcedures ue).Later d (m'.deleteProcedures ue) := by
  unfold Mme.deleteProcedures
  rw [h.context? ue]
  split
  · exact (h.modifyContext ue _).stopTimers _
  · exact h

end Later

section

variable (h : m.Later d m') (ue : UeId)

include h

theorem requestFailed_later (purpose : RequestPurpose) (e : IdentificationError) :
    LaterTurn d (m.requestFailed ue purpose e) (m'.requestFailed ue purpose e) := by
  unfold requestFailed
  split
  · exact ⟨h, rfl⟩
  · exact ⟨h.emit _ _, rfl⟩
  · split
    · exact ⟨h.emit _ _, rfl⟩
    · exact ⟨h.emit _ _, rfl⟩

theorem request_later (purpose : RequestPurpose) :
    LaterTurn d (m.request ue purpose) (m'.request ue purpose) := by
  unfold request
  rw [h.context? ue]
  split
  · exact requestFailed_later (h.emit _ _) ue purpose _
  · split
    · exact requestFailed_later h ue purpose _
    · exact ⟨h, rfl⟩

theorem enterIdentification_later (c : Context) (requested : IdentityType)
    (parent : Option ProcedureId) :
    (m.enterIdentification ue c requested parent).Later d
      (m'.enterIdentification ue c requested parent) := by
  unfold enterIdentification
  split
  · exact (h.emit _ _).modifyContext ue _
  · have hid : m'.takeProcedureId.1 = m.takeProcedureId.1 :=
      congrArg (fun s => s.takeProcedureId.1) h.store
    have htaken : m.takeProcedureId.2.Later d m'.takeProcedureId.2 :=
      ⟨congrArg (fun s => s.takeProcedureId.2) h.store, h.registry, h.timers⟩
    simp only [hid]
    exact htaken.modifyContext ue _

theorem start_later (requested : IdentityType) (parent : Option ProcedureId) :
    LaterTurn d (m.start ue requested parent) (m'.start ue requested parent) := by
  unfold start
  rw [h.context? ue]
  split
  · exact ⟨h, rfl⟩
  · split
    · exact ⟨h, rfl⟩
    · rename_i c hc
      split
      · exact ⟨h, rfl⟩
      · exact request_later ((enterIdentification_later h ue c requested parent).emit _ _) ue .start

theorem conclude_later (previousState : EmmState) (completion : Completion) :
    LaterTurn d (m.conclude ue previousState completion)
      (m'.conclude ue previousState completion) :=
  ⟨h.releaseIdentification ue, rfl⟩

theorem giveUp_later (claim : Claim) (e : IdentificationError) :
    LaterTurn d (m.giveUp claim e) (m'.giveUp claim e) :=
  ⟨(h.emit _ _).releaseIdentification claim.ue, rfl⟩

theorem findApplicationHolder_later (imsi : Imsi) :
    (m.findApplicationHolder ue imsi).1.Later d (m'.findApplicationHolder ue imsi).1 ∧
      (m'.findApplicationHolder ue imsi).2 = (m.findApplicationHolder ue imsi).2 := by
  unfold findApplicationHolder
  rw [h.registry]
  split
  · exact ⟨h.emit _ _, rfl⟩
  · exact ⟨h, rfl⟩

theorem findHolder_later (imsi : Imsi) :
    (m.findHolder ue imsi).1.Later d (m'.findHolder ue imsi).1 ∧
      (m'.findHolder ue imsi).2 = (m.findHolder ue imsi).2 := by
  unfold findHolder
  rw [h.store]
  split
  · split
    · exact ⟨h.emit _ _, rfl⟩
    · exact findApplicationHolder_later (h.emit _ _) ue imsi
  · exact findApplicationHolder_later h ue imsi

theorem settleImsi_later (claim : Claim) :
    LaterTurn d (m.settleImsi claim) (m'.settleImsi claim) := by
  obtain ⟨hlater, hfound⟩ := findHolder_later h claim.ue claim.imsi
  unfold settleImsi
  generalize m.findHolder claim.ue claim.imsi = found at hlater hfound
  generalize m'.findHolder claim.ue claim.imsi = found' at hlater hfound
  obtain ⟨m₁, holder⟩ := found
  obtain ⟨m₁', _⟩ := found'
  cases hfound
  cases holder with
  | some holder => exact ⟨hlater, rfl⟩
  | none =>
      have hlater : m₁.Later d m₁' := hlater
      simp only [assign, hlater.store]
      by_cases hpresent : m₁.store.contains claim.ue = true
      · simp only [if_pos hpresent]
        exact conclude_later ((hlater.modifyContext _ _).claim _ _) claim.ue _ _
      · simp only [if_neg hpresent]
        exact giveUp_later hlater claim _

theorem complete_later (identity : MobileIdentity) :
    LaterTurn d (m.complete ue identity) (m'.complete ue identity) := by
  unfold complete
  simp only [identification?_emit, h.identification? ue]
  split
  · exact ⟨(h.emit _ _).emit _ _, rfl⟩
  · rename_i p hp
    have hheard := (((h.emit (.responseReceived ue identity)
      (.responseReceived ue identity)).modifyContext ue fun c =>
        { c with procedures := { c.procedures with
            identification := some { p with t3470 := none } } }).stopTimers
              p.t3470.toList).modifyContext ue (noteEquipment identity)
    cases identity with
    | imsi imsi => exact settleImsi_later hheard _
    | imei imei => exact conclude_later hheard ue _ _
    | imeisv imeisv => exact conclude_later hheard ue _ _
    | tmsi tmsi => exact ⟨(hheard.emit _ _).releaseIdentification ue, rfl⟩

theorem t3470Expired_later (config : NasConfig) (timer : TimerId) :
    LaterTurn d (m.t3470Expired config ue timer) (m'.t3470Expired config ue timer) := by
  unfold t3470Expired
  rw [h.context? ue]
  split
  · exact ⟨h.emit _ _, rfl⟩
  · split
    · exact ⟨h.emit _ _, rfl⟩
    · rename_i p hp
      have hcounted := (h.modifyContext ue fun c => { c with
        procedures := { c.procedures with
          identification := some { p with t3470 := none, expiries := p.expiries + 1 } } }).emit
            (.t3470Expired ue timer (p.expiries + 1)) (.t3470Expired ue timer (p.expiries + 1))
      simp only
      split
      · exact request_later hcounted ue .retransmission
      · exact ⟨hcounted.emit _ _, rfl⟩

theorem retryExpired_later (timer : TimerId) :
    LaterTurn d (m.retryExpired ue timer) (m'.retryExpired ue timer) := by
  unfold retryExpired
  rw [h.specific? ue]
  split
  · exact ⟨h.emit _ _, rfl⟩
  · exact ⟨(h.modifyContext ue _).emit _ _, rfl⟩

theorem lowerLayerFailed_later : LaterTurn d (m.lowerLayerFailed ue) (m'.lowerLayerFailed ue) := by
  unfold lowerLayerFailed
  rw [h.identification? ue]
  split
  · exact ⟨h.emit _ _, rfl⟩
  · exact ⟨h.emit _ _, rfl⟩

theorem abort_later : LaterTurn d (m.abort ue) (m'.abort ue) := by
  unfold abort
  rw [h.identification? ue]
  split
  · exact ⟨h, rfl⟩
  · exact ⟨(h.releaseIdentification ue).emit _ _, rfl⟩

omit ue in
theorem begin_later (config : NasConfig) (msg : Message) :
    LaterTurn d (m.begin config msg) (m'.begin config msg) := by
  cases msg with
  | start ue requested parent => exact start_later h ue requested parent
  | complete ue identity => exact complete_later h ue identity
  | expired e =>
      obtain ⟨timer, ue, kind⟩ := e
      cases kind with
      | t3470 => exact t3470Expired_later h ue config timer
      | specificRetry => exact retryExpired_later h ue timer
  | lowerLayerFailure ue => exact lowerLayerFailed_later h ue
  | nonDelivery ue => exact request_later h ue .redelivery
  | abort ue => exact abort_later h ue

theorem followExhaustion_later : LaterTurn d (m.followExhaustion ue) (m'.followExhaustion ue) := by
  unfold followExhaustion
  rw [h.store]
  split
  · exact ⟨h.emit _ _, rfl⟩
  · exact ⟨h.emit _ _, rfl⟩

end

section

variable (h : m.Later ⟨0⟩ m') (ue : UeId)

include h

theorem armT3470_later (interval : Duration) :
    (m.armT3470 interval ue).Later ⟨0⟩ (m'.armT3470 interval ue) := by
  unfold armT3470
  rw [h.identification? ue]
  split
  · rename_i p hp
    obtain ⟨htimer, hstarted⟩ := (h.stopTimers p.t3470.toList).startTimer ue .t3470 interval
    simp only [htimer]
    exact (hstarted.modifyContext ue _).emit _ _
  · exact h.emit _ _

theorem requestSucceeded_later (purpose : RequestPurpose) :
    LaterTurn ⟨0⟩ (m.requestSucceeded ue purpose) (m'.requestSucceeded ue purpose) := by
  cases purpose with
  | start => exact ⟨h, rfl⟩
  | retransmission => exact ⟨h, rfl⟩
  | redelivery => exact ⟨h.emit _ _, rfl⟩

theorem parkParent_later (interval : Duration) (parent : Option ProcedureId) (old : UeId) :
    (m.parkParent interval ue parent old).1.Later ⟨0⟩ (m'.parkParent interval ue parent old).1 ∧
      (m'.parkParent interval ue parent old).2 = (m.parkParent interval ue parent old).2 := by
  unfold parkParent
  rw [h.context? ue]
  split
  · exact ⟨h.emit _ _, rfl⟩
  · split
    · exact ⟨h.emit _ _, rfl⟩
    · rename_i s hs
      obtain ⟨htimer, hstarted⟩ :=
        (h.stopTimers s.retryTimer.toList).startTimer ue .specificRetry interval
      have hnow : ((m'.stopTimers s.retryTimer.toList).startTimer ue .specificRetry
          interval).2.timers.now = ((m.stopTimers s.retryTimer.toList).startTimer ue .specificRetry
            interval).2.timers.now := congrArg Timers.now hstarted.timers
      simp only [htimer, hnow]
      split
      · exact ⟨(hstarted.modifyContext ue _).emit _ _, rfl⟩
      · exact ⟨hstarted.modifyContext ue _, rfl⟩

theorem displace_later (interval : Duration) (parent : Option ProcedureId) (holder : Holder) :
    (m.displace interval ue parent holder).1.Later ⟨0⟩ (m'.displace interval ue parent holder).1 ∧
      (m'.displace interval ue parent holder).2 = (m.displace interval ue parent holder).2 := by
  cases holder with
  | context old => exact parkParent_later (h.modifyContext old _) ue interval parent old
  | application old => exact parkParent_later h ue interval parent old

end

/-- A later turn that starts no timer may be taken at any time, and every other one at the same. -/
theorem resume_later (h : m.Later d m') (config : NasConfig) (n : Notification)
    {next : Resumption} (hd : next.startsTimer = true → d = ⟨0⟩) :
    LaterTurn d (m.resume config n next .accepted) (m'.resume config n next .accepted) := by
  cases next with
  | requested ue purpose =>
      cases hd rfl
      exact requestSucceeded_later (armT3470_later h ue _) ue purpose
  | displaced claim holder =>
      cases hd rfl
      obtain ⟨hlater, hcrash⟩ :=
        displace_later h claim.ue config.retryInterval claim.parent holder
      simp only [resume]
      generalize m.displace _ _ _ _ = displaced at hlater hcrash
      generalize m'.displace _ _ _ _ = displaced' at hlater hcrash
      obtain ⟨m₁, crash⟩ := displaced
      obtain ⟨m₁', _⟩ := displaced'
      cases hcrash
      cases crash with
      | none => exact conclude_later hlater claim.ue _ _
      | some crash => exact ⟨hlater, rfl⟩
  | exhausted ue => exact followExhaustion_later (h.deleteProcedures ue) ue
  | failed ue => exact ⟨h.deleteProcedures ue, rfl⟩
  | _ => exact ⟨h, rfl⟩

/-- A handler starts no timer after its second notification. -/
theorem startsTimer_of_resume (m : Mme) {config : NasConfig} {n n' : Notification}
    {next next' : Resumption} (h : (m.resume config n next .accepted).2 = .publish n' next') :
    next'.startsTimer = false := by
  cases next with
  | requested ue purpose =>
      cases purpose with
      | start =>
          cases h
          rfl
      | retransmission => cases h
      | redelivery => cases h
  | displaced claim holder =>
      simp only [resume] at h
      split at h
      · cases h
        rfl
      · cases h
  | exhausted ue =>
      simp only [resume, followExhaustion] at h
      split at h
      · cases h
        rfl
      · cases h
        rfl
  | _ => cases h

end Mme

end Emm
