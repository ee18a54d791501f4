import Emm.Proofs.Edit

/-!
Timers while the clock stands. Main statements: `still_begin`, `still_resume` and `still_apply`, by
which neither a handler nor the application layer makes a timer due.
-/

namespace Emm

/-- The clock stands, and no timer is due that was not armed before. -/
structure Timers.Still (t t' : Timers) : Prop where
  now : t'.now = t.now
  due : ∀ a ∈ t'.armed, t'.isDue a = true → a ∈ t.armed

namespace Timers.Still

variable {t t' t'' : Timers}

theorem refl (t : Timers) : t.Still t := ⟨rfl, fun _ ha _ => ha⟩

theorem trans (h : t.Still t') (h' : t'.Still t'') : t.Still t'' where
  now := h'.now.trans h.now
  due a ha hdue := by
    refine h.due a (h'.due a ha hdue) ?_
    simpa [isDue, h'.now] using hdue

theorem of_eq (h : t' = t) : t.Still t' := by
  rw [h]
  exact refl t

theorem filter (t : Timers) (p : ArmedTimer → Bool) :
    t.Still { t with armed := t.armed.filter p } :=
  ⟨rfl, fun _ ha _ => (List.mem_filter.1 ha).1⟩

theorem start (t : Timers) (ue : UeId) (kind : TimerKind) {interval : Duration}
    (hinterval : 0 < interval.millis) : t.Still (t.start ue kind interval) where
  now := rfl
  due a ha hdue := by
    rcases List.mem_append.1 ha with ha | ha
    · exact ha
    · have hlater : t.now.millis < (deadline t.now interval).millis := by
        unfold deadline Instant.after?
        split
        · exact Nat.lt_add_of_pos_right hinterval
        · exact Nat.lt_add_of_pos_right (by decide)
      rw [List.mem_singleton.1 ha] at hdue
      exact absurd (of_decide_eq_true hdue) (Nat.not_le_of_lt hlater)

end Timers.Still

theorem NasConfig.validate_eq_ok_iff {config : NasConfig} :
    config.validate = .ok () ↔
      config.t3470Seconds ≠ 0 ∧ config.maxRetransmissions ≠ 0 ∧ config.retrySeconds ≠ 0 := by
  unfold validate
  split
  · exact iff_of_false nofun fun h => h.1 ‹_›
  · split
    · exact iff_of_false nofun fun h => h.2.1 ‹_›
    · split
      · exact iff_of_false nofun fun h => h.2.2 ‹_›
      · exact iff_of_true rfl ⟨‹_›, ‹_›, ‹_›⟩

theorem NasConfig.intervals_pos {config : NasConfig} (h : config.validate = .ok ()) :
    0 < config.t3470Interval.millis ∧ 0 < config.retryInterval.millis := by
  have hpos : ∀ s : UInt64, s ≠ 0 → 0 < (Duration.ofSeconds s).millis := by
    intro s hs
    have hnat : s.toNat ≠ 0 := fun h => hs (UInt64.toNat_inj.1 h)
    simp only [Duration.ofSeconds]
    omega
  obtain ⟨ht3470, _, hretry⟩ := validate_eq_ok_iff.1 h
  exact ⟨hpos _ ht3470, hpos _ hretry⟩

namespace Mme

variable (m : Mme) (ue : UeId)

theorem still_stopTimers (ids : List TimerId) : m.timers.Still (m.stopTimers ids).timers := by
  rw [timers_stopTimers]
  exact .filter m.timers _

theorem still_releaseIdentification : m.timers.Still (m.releaseIdentification ue).timers := by
  unfold releaseIdentification
  split
  · exact still_stopTimers (m.setIdentification ue none) _
  · exact .refl _

theorem still_deleteProcedures : m.timers.Still (m.deleteProcedures ue).timers := by
  unfold deleteProcedures
  split
  · exact still_stopTimers (m.modifyContext ue _) _
  · exact .refl _

theorem still_tearDown : m.timers.Still (m.tearDown ue).timers := by
  unfold tearDown unregister
  split
  · have hstopped := still_stopTimers (m.removeContext ue)
    rw [timers_removeContext] at hstopped
    exact hstopped _
  · exact .refl _

theorem still_armT3470 {interval : Duration} (hinterval : 0 < interval.millis) :
    m.timers.Still (m.armT3470 interval ue).timers := by
  unfold armT3470
  split
  · exact (m.still_stopTimers _).trans (.start _ ue .t3470 hinterval)
  · exact .refl _

theorem still_parkParent {interval : Duration} (hinterval : 0 < interval.millis)
    (parent : Option ProcedureId) (old : UeId) :
    m.timers.Still (m.parkParent interval ue parent old).1.timers := by
  unfold parkParent
  split
  · exact .refl _
  · split
    · exact .refl _
    · rename_i s _
      have hstarted := (m.still_stopTimers s.retryTimer.toList).trans
        (.start _ ue .specificRetry hinterval)
      simp only
      split
      · exact hstarted
      · exact hstarted

theorem still_displace {interval : Duration} (hinterval : 0 < interval.millis)
    (parent : Option ProcedureId) (holder : Holder) :
    m.timers.Still (m.displace interval ue parent holder).1.timers := by
  cases holder with
  | context old => exact still_parkParent (m.modifyContext old _) ue hinterval parent old
  | application old => exact still_parkParent m ue hinterval parent old

theorem timers_requestFailed (purpose : RequestPurpose) (e : IdentificationError) :
    (m.requestFailed ue purpose e).1.timers = m.timers := by
  unfold requestFailed
  split
  · rfl
  · rfl
  · split <;> rfl

theorem timers_request (purpose : RequestPurpose) :
    (m.request ue purpose).1.timers = m.timers := by
  unfold request
  split
  · exact timers_requestFailed (m.emit _) ue purpose _
  · split
    · exact timers_requestFailed m ue purpose _
    · rfl

theorem timers_enterIdentification (c : Context) (requested : IdentityType)
    (parent : Option ProcedureId) :
    (m.enterIdentification ue c requested parent).timers = m.timers := by
  unfold enterIdentification
  split <;> rfl

theorem timers_start (requested : IdentityType) (parent : Option ProcedureId) :
    (m.start ue requested parent).1.timers = m.timers := by
  unfold start
  split
  · rfl
  · split
    · rfl
    · split
      · rfl
      · exact (timers_request _ ue .start).trans (m.timers_enterIdentification ue _ _ _)

theorem timers_findHolder (imsi : Imsi) : (m.findHolder ue imsi).1.timers = m.timers := by
  have happlication : ∀ m : Mme, (m.findApplicationHolder ue imsi).1.timers = m.timers := by
    intro m
    unfold findApplicationHolder
    split <;> rfl
  unfold findHolder
  split
  · split
    · rfl
    · exact happlication _
  · exact happlication m

theorem still_settleImsi (claim : Claim) : m.timers.Still (m.settleImsi claim).1.timers := by
  have hfound := m.timers_findHolder claim.ue claim.imsi
  unfold settleImsi
  split
  · rename_i m₁ holder heq
    rw [heq] at hfound
    exact .of_eq hfound
  · rename_i m₁ heq
    rw [heq] at hfound
    split
    · rename_i m₂ hassign
      have hassigned : m₂.timers = m₁.timers := by
        unfold assign at hassign
        split at hassign
        · cases hassign
          exact timers_claim _ _ _
        · cases hassign
      have hreleased := still_releaseIdentification m₂ claim.ue
      rw [hassigned, hfound] at hreleased
      exact hreleased
    · rename_i e _
      have hreleased := still_releaseIdentification
        (m₁.emit (.imsiUnresolved claim.ue claim.imsi e)) claim.ue
      rw [timers_emit, hfound] at hreleased
      exact hreleased

theorem still_complete (identity : MobileIdentity) :
    m.timers.Still (m.complete ue identity).1.timers := by
  unfold complete
  simp only [identification?_emit]
  split
  · exact .refl _
  · rename_i p hp
    generalize hheard : Mme.modifyContext _ ue (noteEquipment identity) = m₁
    have hstopped : m.timers.Still m₁.timers := by
      rw [← hheard]
      exact still_stopTimers ((m.emit _).setIdentification ue _) p.t3470.toList
    cases identity with
    | imsi imsi => exact hstopped.trans (still_settleImsi m₁ _)
    | imei imei => exact hstopped.trans (still_releaseIdentification m₁ ue)
    | imeisv imeisv => exact hstopped.trans (still_releaseIdentification m₁ ue)
    | tmsi tmsi => exact hstopped.trans (still_releaseIdentification (m₁.emit _) ue)

theorem timers_t3470Expired (config : NasConfig) (timer : TimerId) :
    (m.t3470Expired config ue timer).1.timers = m.timers := by
  unfold t3470Expired
  split
  · rfl
  · split
    · rfl
    · simp only
      split
      · exact timers_request _ ue .retransmission
      · rfl

theorem timers_retryExpired (timer : TimerId) :
    (m.retryExpired ue timer).1.timers = m.timers := by
  unfold retryExpired
  split <;> rfl

theorem still_begin (config : NasConfig) (msg : Message) :
    m.timers.Still (m.begin config msg).1.timers := by
  cases msg with
  | start ue requested parent => exact .of_eq (m.timers_start ue requested parent)
  | complete ue identity => exact m.still_complete ue identity
  | expired e =>
      obtain ⟨timer, ue, kind⟩ := e
      cases kind with
      | t3470 => exact .of_eq (m.timers_t3470Expired ue config timer)
      | specificRetry => exact .of_eq (m.timers_retryExpired ue timer)
  | lowerLayerFailure ue =>
      simp only [Mme.begin, lowerLayerFailed]
      split <;> exact .refl _
  | nonDelivery ue => exact .of_eq (m.timers_request ue .redelivery)
  | abort ue =>
      simp only [Mme.begin, abort]
      split
      · exact .refl _
      · exact m.still_releaseIdentification ue

/-- A timer that a handler starts is not due while the clock stands. -/
theorem still_resume {config : NasConfig} (ht3470 : 0 < config.t3470Interval.millis)
    (hretry : 0 < config.retryInterval.millis) (n : Notification) (next : Resumption)
    (d : Delivery) : m.timers.Still (m.resume config n next d).1.timers := by
  have hnoted : (m.noteRefusal n d).timers = m.timers := by
    cases d <;> rfl
  have hdeleted : ∀ ue, m.timers.Still ((m.noteRefusal n d).deleteProcedures ue).timers := by
    intro ue
    rw [← hnoted]
    exact still_deleteProcedures _ ue
  unfold resume
  split
  · rename_i ue purpose
    refine (m.still_armT3470 ue ht3470).trans (.of_eq ?_)
    cases purpose <;> rfl
  · exact .of_eq (m.timers_requestFailed _ _ _)
  · exact .refl _
  · exact .refl _
  · rename_i claim holder
    have hdisplaced := m.still_displace claim.ue hretry claim.parent holder
    split
    · rename_i m₁ heq
      rw [heq] at hdisplaced
      exact hdisplaced.trans (still_releaseIdentification m₁ claim.ue)
    · rename_i m₁ crash heq
      rw [heq] at hdisplaced
      exact hdisplaced
  · exact still_releaseIdentification (m.emit _) _
  · exact .of_eq hnoted
  · exact .refl _
  · exact .refl _
  · exact .refl _
  · exact .refl _
  · rename_i ue
    refine (hdeleted ue).trans (.of_eq ?_)
    unfold followExhaustion
    split <;> rfl
  · exact hdeleted _
  · exact .of_eq hnoted

theorem still_apply (n : Notification) : m.timers.Still (m.apply n).timers := by
  cases n with
  | procedureConfirmed ue ending =>
      simp only [apply, registerImsi]
      split
      · split <;> exact .refl _
      · exact .refl _
  | teardownSession ue cause => exact still_tearDown (m.emit _) ue
  | applicationTeardown ue =>
      simp only [apply]
      split <;> exact .refl _
  | specificProcedureRetry ue procedure old =>
      simp only [apply, reportOld]
      split <;> exact .refl _
  | _ => exact .refl _

end Mme

end Emm
