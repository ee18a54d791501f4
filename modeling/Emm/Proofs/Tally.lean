import Emm.Proofs.Arming
import Emm.Proofs.Ending

/-!
How often T3470 has expired in vain. The count on a record is the number of expiries of its T3470
since the last order to start that was followed, and it reaches the bound only where the EMM task is
about to announce the end of the identification.

Main statement: `tallies_of_path`.
-/

namespace Emm

/-- How many expiries of T3470 it takes to end an identification. The first one does if the setting
is zero. -/
def NasConfig.bound (config : NasConfig) : Nat := max config.maxRetransmissions.toNat 1

theorem NasConfig.bound_lt (config : NasConfig) : config.bound < UInt32.size := by
  have hlt := config.maxRetransmissions.toNat_lt
  simp only [bound, UInt32.size]
  omega

theorem Identification.toNat_counted {p : Identification} {config : NasConfig}
    (h : p.expiries.toNat < config.bound) :
    p.counted.expiries.toNat = p.expiries.toNat + 1 := by
  have hlt := config.bound_lt
  simp only [UInt32.size] at hlt
  simp only [counted, UInt32.toNat_add, UInt32.toNat_one]
  omega

theorem Identification.counted_lt_iff {p : Identification} {config : NasConfig}
    (h : p.expiries.toNat < config.bound) :
    p.expiries + 1 < config.maxRetransmissions ↔ p.expiries.toNat + 1 < config.bound := by
  have hnext := toNat_counted h
  simp only [counted] at hnext
  rw [UInt32.lt_iff_toNat_lt, hnext]
  simp only [NasConfig.bound] at h ⊢
  omega

/-- What the record asks for, and how often it has done so in vain. -/
def Identification.tally (p : Identification) : IdentityType × UInt32 := (p.requested, p.expiries)

/-- Records may go, and those that stay keep their tallies. -/
def RetainsTallies (records records' : UeId → Option Identification) : Prop :=
  ∀ u q, records' u = some q → ∃ p, records u = some p ∧ q.tally = p.tally

namespace RetainsTallies

variable {records records' records'' : UeId → Option Identification}

theorem of_eq (h : records' = records) : RetainsTallies records records' := by
  intro u q hq
  rw [h] at hq
  exact ⟨q, hq, rfl⟩

theorem trans (h : RetainsTallies records records') (h' : RetainsTallies records' records'') :
    RetainsTallies records records'' := by
  intro u r hr
  obtain ⟨q, hq, htally⟩ := h' u r hr
  obtain ⟨p, hp, htally'⟩ := h u q hq
  exact ⟨p, hp, htally.trans htally'⟩

theorem update {ue : UeId} {r : Option Identification}
    (hr : ∀ q, r = some q → ∃ p, records ue = some p ∧ q.tally = p.tally) :
    RetainsTallies records (Function.update records ue r) := by
  intro u q hq
  rw [Function.update_apply] at hq
  split at hq
  · rename_i hu
    rw [hu]
    exact hr q hq
  · exact ⟨q, hq, rfl⟩

theorem release (records : UeId → Option Identification) (ue : UeId) :
    RetainsTallies records (Function.update records ue none) :=
  update nofun

end RetainsTallies

theorem Resumed.retainsTallies {config : NasConfig} {m : Mme}
    {records : UeId → Option Identification} {next : Resumption} {d : Delivery} {p : Progress}
    (h : Resumed config m records next d p) : RetainsTallies m.identification? records := by
  cases h with
  | settled _ _ hrecords => exact .of_eq hrecords
  | unsent _ hrecords => exact .of_eq hrecords
  | stuck _ hrecords => exact .of_eq hrecords
  | sent _ hrecords =>
      rw [hrecords]
      refine .update fun q hq => ?_
      obtain ⟨p, hp, rfl⟩ := Option.map_eq_some_iff.1 hq
      exact ⟨p, hp, rfl⟩
  | ended _ _ hrecords | exhausted _ _ hrecords | failed _ hrecords =>
      rw [hrecords]
      exact .release _ _

namespace Mme

variable (m : Mme) (ue u : UeId)

/-- The record that `u` has after a first turn: it was there before and its tally is the same, or
the message is an order to start, or the expiry of the record's timer. -/
inductive TalliesFirst (m : Mme) (msg : Message) (u : UeId) (q : Identification) : Prop
  | kept {p : Identification} (hp : m.identification? u = some p) (htally : q.tally = p.tally)
      (hrestart : ∀ requested parent, msg = .start u requested parent → m.Rejects msg)
      (hcount : ∀ timer, msg = .expired ⟨timer, u, .t3470⟩ → m.Rejects msg)
  | restarted {parent : Option ProcedureId} (hmsg : msg = .start u q.requested parent)
      (haccepted : ¬m.Rejects msg) (hzero : q.expiries = 0)
  | counted {timer : TimerId} {p : Identification} (hmsg : msg = .expired ⟨timer, u, .t3470⟩)
      (haccepted : ¬m.Rejects msg) (hp : m.identification? u = some p) (hq : q = p.counted)

theorem tallies_of_retained {m' : Mme} {msg : Message}
    (hretains : RetainsTallies m.identification? m'.identification?)
    (hstart : ∀ requested parent, msg ≠ .start u requested parent)
    (hexpired : ∀ timer, msg ≠ .expired ⟨timer, u, .t3470⟩) {q : Identification}
    (hq : m'.identification? u = some q) : m.TalliesFirst msg u q := by
  obtain ⟨p, hp, htally⟩ := hretains u q hq
  exact .kept hp htally (fun _ _ h => absurd h (hstart _ _)) fun _ h => absurd h (hexpired _)

theorem settleImsi_retainsTallies (claim : Claim) :
    RetainsTallies m.identification? (m.settleImsi claim).1.identification? := by
  obtain ⟨_, _, hsame⟩ | ⟨_, _, _, _, _, hreleased⟩ := m.settleImsi_cases claim
  · exact .of_eq hsame
  · rw [hreleased]
    exact .release _ _

theorem complete_retainsTallies (identity : MobileIdentity) :
    RetainsTallies m.identification? (m.complete ue identity).1.identification? := by
  unfold complete
  simp only [identification?_emit]
  split
  · exact .of_eq rfl
  · rename_i p hp
    obtain ⟨c, hc, _⟩ := (identification?_eq_some_iff m ue p).1 hp
    generalize hheard : Mme.modifyContext _ ue (noteEquipment identity) = m₁
    have hrecords : m₁.identification? =
        Function.update m.identification? ue (some { p with t3470 := none }) := by
      rw [← hheard, identification?_modifyContext _ ue fun c => by cases identity <;> rfl,
        identification?_stopTimers]
      exact identification?_setIdentification (m.emit _) ue hc _
    have hretains : RetainsTallies m.identification? m₁.identification? := by
      rw [hrecords]
      refine .update fun q hq => ⟨p, hp, ?_⟩
      cases hq
      rfl
    refine hretains.trans ?_
    cases identity with
    | imsi imsi => exact m₁.settleImsi_retainsTallies _
    | imei _ | imeisv _ =>
        simp only [conclude, identification?_releaseIdentification]
        exact .release _ _
    | tmsi _ =>
        simp only [identification?_releaseIdentification, identification?_emit]
        exact .release _ _

variable {m ue}

theorem not_rejects_start {requested : IdentityType} {parent : Option ProcedureId}
    (h : ¬m.Rejects (.start ue requested parent)) :
    requested.isRequestable = true ∧
      ∃ c, m.context? ue = some c ∧ c.state.admitsIdentification = true := by
  simpa only [Rejects, not_or, Bool.not_eq_false, not_forall, exists_prop] using h

theorem not_rejects_t3470 {timer : TimerId} (h : ¬m.Rejects (.expired ⟨timer, ue, .t3470⟩)) :
    ∃ c p, m.context? ue = some c ∧ c.procedures.identification = some p ∧
      p.t3470 = some timer := by
  simp only [Rejects, Decidable.not_not, handle?_t3470] at h
  obtain ⟨p, hp, htimer⟩ := Option.bind_eq_some_iff.1 h
  obtain ⟨c, hc, hrecord⟩ := (identification?_eq_some_iff m ue p).1 hp
  exact ⟨c, p, hc, hrecord, htimer⟩

theorem Differs.identification_of_ne {c : Context} {ps : Procedures} {t : Timers} {m₁ : Mme}
    (h : m.Differs ue c ps t m₁) {u : UeId} (hu : u ≠ ue) :
    m₁.identification? u = m.identification? u := by
  simp only [identification?, h.others u hu]

theorem Restarts.identification {c : Context} {requested : IdentityType}
    {parent : Option ProcedureId} {m₁ : Mme} (h : m.Restarts ue c requested parent m₁) :
    (∃ q, m₁.identification? ue = some q ∧ q.tally = (requested, 0)) ∧
      ∀ u, u ≠ ue → m₁.identification? u = m.identification? u := by
  cases hp : c.procedures.identification with
  | none =>
      have hfresh := h.fresh hp
      exact ⟨⟨_, hfresh.identification, rfl⟩, fun u hu => hfresh.identification_of_ne hu⟩
  | some p =>
      have hpending := h.pending p hp
      exact ⟨⟨_, hpending.identification, rfl⟩, fun u hu => hpending.identification_of_ne hu⟩

theorem tallies_start {requested : IdentityType} {parent : Option ProcedureId}
    (haccepted : ¬m.Rejects (.start ue requested parent)) {q : Identification}
    (hq : (m.start ue requested parent).1.identification? u = some q) :
    m.TalliesFirst (.start ue requested parent) u q := by
  obtain ⟨hrequest, c, hc, hadmits⟩ := not_rejects_start haccepted
  obtain ⟨m₁, hstart, hrestarts⟩ := start_restarts hrequest hc hadmits parent
  obtain ⟨⟨q', hq', htally⟩, hothers⟩ := hrestarts.identification
  rw [hstart] at hq
  by_cases hu : u = ue
  · subst hu
    cases hq'.symm.trans hq
    simp only [Identification.tally, Prod.mk.injEq] at htally
    rw [← htally.1] at haccepted ⊢
    exact .restarted rfl haccepted htally.2
  · rw [hothers u hu] at hq
    refine .kept hq rfl (fun _ _ h => ?_) fun _ h => nomatch h
    cases h
    exact absurd rfl hu

theorem t3470Expired_counts (config : NasConfig) {timer : TimerId} {c : Context}
    {p : Identification} (hc : m.context? ue = some c)
    (hp : c.procedures.identification = some p) (htimer : p.t3470 = some timer) :
    m.Differs ue c { c.procedures with identification := some p.counted } m.timers
      (m.t3470Expired config ue timer).1 := by
  by_cases hbelow : p.expiries + 1 < config.maxRetransmissions
  · obtain ⟨m', heq, hdiffers⟩ := t3470Expired_of_current hc hp htimer hbelow
    rw [heq]
    exact hdiffers
  · obtain ⟨m', heq, hdiffers⟩ := t3470Expired_of_last hc hp htimer hbelow
    rw [heq]
    exact hdiffers

theorem tallies_t3470Expired {config : NasConfig} {timer : TimerId}
    (haccepted : ¬m.Rejects (.expired ⟨timer, ue, .t3470⟩)) {q : Identification}
    (hq : (m.t3470Expired config ue timer).1.identification? u = some q) :
    m.TalliesFirst (.expired ⟨timer, ue, .t3470⟩) u q := by
  obtain ⟨c, p, hc, hp, htimer⟩ := not_rejects_t3470 haccepted
  have hdiffers := t3470Expired_counts config hc hp htimer
  by_cases hu : u = ue
  · subst hu
    rw [hdiffers.identification] at hq
    cases hq
    exact .counted rfl haccepted ((identification?_eq_some_iff m u p).2 ⟨c, hc, hp⟩) rfl
  · rw [hdiffers.identification_of_ne hu] at hq
    refine .kept hq rfl (fun _ _ h => nomatch h) fun _ h => ?_
    cases h
    exact absurd rfl hu

theorem tallies_begin (m : Mme) (config : NasConfig) (msg : Message) {u : UeId}
    {q : Identification} (hq : (m.begin config msg).1.identification? u = some q) :
    m.TalliesFirst msg u q := by
  by_cases hrejects : m.Rejects msg
  · have hsame := ((begin_ignores_iff m config msg).2 hrejects).1
    have hrecord : m.identification? u = some q := by
      simpa only [identification?, hsame.context?] using hq
    exact .kept hrecord rfl (fun _ _ _ => hrejects) fun _ _ => hrejects
  cases msg with
  | start ue requested parent => exact tallies_start u hrejects hq
  | complete ue identity =>
      refine m.tallies_of_retained u (m.complete_retainsTallies ue identity) ?_ ?_ hq <;> simp
  | expired e =>
      obtain ⟨timer, ue, kind⟩ := e
      cases kind with
      | t3470 => exact tallies_t3470Expired u hrejects hq
      | specificRetry =>
          have hsame : (m.retryExpired ue timer).1.identification? = m.identification? := by
            unfold retryExpired
            split
            · rfl
            · exact m.identification?_setSpecific ue _
          refine m.tallies_of_retained u (.of_eq hsame) ?_ ?_ hq <;> simp
  | lowerLayerFailure ue =>
      have hsame : (m.lowerLayerFailed ue).1.identification? = m.identification? := by
        unfold lowerLayerFailed
        split <;> rfl
      refine m.tallies_of_retained u (.of_eq hsame) ?_ ?_ hq <;> simp
  | nonDelivery ue =>
      have hsame : (m.request ue .redelivery).1.identification? = m.identification? := by
        cases hp : m.identification? ue with
        | none =>
            obtain ⟨_, _, _, hsame⟩ := m.request_of_none ue .redelivery hp
            exact hsame
        | some p =>
            obtain ⟨_, _, heq⟩ := m.request_of_some ue .redelivery hp
            rw [heq]
      refine m.tallies_of_retained u (.of_eq hsame) ?_ ?_ hq <;> simp
  | abort ue =>
      have hretains : RetainsTallies m.identification? (m.abort ue).1.identification? := by
        unfold abort
        split
        · exact .of_eq rfl
        · rw [identification?_emit, identification?_releaseIdentification]
          exact .release _ _
      refine m.tallies_of_retained u hretains ?_ ?_ hq <;> simp

theorem TalliesFirst.of_emit {e : Log.Event} {msg : Message} {u : UeId} {q : Identification}
    (h : (m.emit e).TalliesFirst msg u q) : m.TalliesFirst msg u q := by
  cases h with
  | kept hp htally hrestart hcount =>
      refine .kept hp htally (fun requested parent hmsg => ?_) fun timer hmsg => ?_
      · exact (m.rejects_emit e msg).1 (hrestart requested parent hmsg)
      · exact (m.rejects_emit e msg).1 (hcount timer hmsg)
  | restarted hmsg haccepted hzero =>
      exact .restarted hmsg (fun h => haccepted ((m.rejects_emit e msg).2 h)) hzero
  | counted hmsg haccepted hp hq =>
      exact .counted hmsg (fun h => haccepted ((m.rejects_emit e msg).2 h)) hp hq

end Mme

namespace Moment

/-- The EMM task takes an order to identify the UE by `requested` that it can follow. -/
def Restarts (x : Moment) (ue : UeId) (requested : IdentityType) : Prop :=
  x.move = .receive ∧ ∃ parent rest,
    x.before.inbox.queue = .message (.start ue requested parent) :: rest ∧
      ¬x.before.mme.Rejects (.start ue requested parent)

/-- The EMM task takes the expiry of the T3470 that the UE's record names. -/
def Counts (x : Moment) (ue : UeId) : Prop := ∃ timer, x.ActsOn ⟨timer, ue, .t3470⟩

end Moment

/-- In the course of the moves the EMM task has taken an order to identify the UE by `requested`,
and after the last such order so many expiries of the T3470 on record. -/
inductive Tallied (ue : UeId) : List Moment → IdentityType → Nat → Prop
  | restarted {ms : List Moment} {x : Moment} {requested : IdentityType}
      (hx : x.Restarts ue requested) : Tallied ue (ms ++ [x]) requested 0
  | counted {ms : List Moment} {x : Moment} {requested : IdentityType} {k : Nat}
      (h : Tallied ue ms requested k) (hx : x.Counts ue) : Tallied ue (ms ++ [x]) requested (k + 1)
  | passed {ms : List Moment} {x : Moment} {requested : IdentityType} {k : Nat}
      (h : Tallied ue ms requested k) (hrestart : ∀ requested, ¬x.Restarts ue requested)
      (hcount : ¬x.Counts ue) : Tallied ue (ms ++ [x]) requested k

namespace System

variable {s s' : System} {a : Move} {ms : List Moment} {ue : UeId}

/-- The count on a record has reached the bound only where the EMM task is about to announce the end
of the identification, and it has not gone beyond. -/
def Bounded (s : System) : Prop :=
  ∀ ue p, s.mme.identification? ue = some p →
    p.expiries.toNat < s.config.bound ∨ p.expiries.toNat = s.config.bound ∧
      ∃ subject n, s.emm = .publishing subject n (.exhausted ue)

theorem Bounded.below (hs : s.Bounded) (hemm : s.emm = .receiving) {p : Identification}
    (hp : s.mme.identification? ue = some p) : p.expiries.toNat < s.config.bound := by
  refine (hs ue p hp).resolve_right ?_
  rintro ⟨_, _, _, hpublishing⟩
  rw [hemm] at hpublishing
  cases hpublishing

theorem bounded_aside (hspares : s.SparesRecords a) (hreceive : a ≠ .receive)
    (hpublish : a ≠ .publish) (hstep : s.step? a = some s') (hs : s.Bounded) : s'.Bounded := by
  intro ue q hq
  rw [config_of_step hstep, (traffic_of_step hreceive hpublish hstep).1]
  refine hs ue q ?_
  rcases records_step hreceive hpublish hspares hstep ue with hsame | ⟨hnone, _⟩
  · rw [← hsame]
    exact hq
  · rw [hnone] at hq
    cases hq

theorem bounded_publish (hstep : s.step? .publish = some s') (hs : s.Bounded) : s'.Bounded := by
  obtain ⟨subject, n, next, d, m, p, hemm, hrecords, _, hresumed, _, _⟩ := turn_of_publish hstep
  intro ue q hq
  have hretains := hresumed.retainsTallies
  rw [hrecords] at hretains
  obtain ⟨r, hr, htally⟩ := hretains ue q hq
  simp only [Identification.tally, Prod.mk.injEq] at htally
  rw [config_of_step hstep, htally.2]
  refine .inl ((hs ue r hr).resolve_right ?_)
  -- Once the end has been announced the record is gone.
  rintro ⟨_, subject', n', hexhausted⟩
  cases hemm.symm.trans hexhausted
  cases hresumed with
  | settled hlast => exact hlast
  | exhausted _ _ hreleased =>
      rw [hreleased, Function.update_self] at hq
      cases hq

/-- A handler's first turn leaves the count below the bound, unless it has just been reached. -/
theorem bound_first (hs : s.Bounded) (hemm : s.emm = .receiving) {msg : Message}
    {q : Identification} (hq : s.mme.TalliesFirst msg ue q) :
    q.expiries.toNat < s.config.bound ∨ ∃ timer p, msg = .expired ⟨timer, ue, .t3470⟩ ∧
      ¬s.mme.Rejects msg ∧ s.mme.identification? ue = some p ∧
      p.expiries.toNat + 1 = s.config.bound ∧ q = p.counted := by
  cases hq with
  | kept hp htally =>
      simp only [Identification.tally, Prod.mk.injEq] at htally
      rw [htally.2]
      exact .inl (hs.below hemm hp)
  | restarted hmsg haccepted hzero =>
      rw [hzero]
      exact .inl (Nat.lt_of_lt_of_le Nat.zero_lt_one (Nat.le_max_right _ _))
  | @counted timer p hmsg haccepted hp hq =>
      subst hmsg hq
      have hlt := hs.below hemm hp
      rw [Identification.toNat_counted hlt]
      rcases Nat.lt_or_ge (p.expiries.toNat + 1) s.config.bound with hless | hreached
      · exact .inl hless
      · exact .inr ⟨timer, p, rfl, haccepted, hp, Nat.le_antisymm hlt hreached, rfl⟩

theorem exhausted_of_bound (rest : Channel Message) {timer : TimerId} {p : Identification}
    (haccepted : ¬s.mme.Rejects (.expired ⟨timer, ue, .t3470⟩))
    (hp : s.mme.identification? ue = some p) (hbound : p.expiries.toNat + 1 = s.config.bound) :
    ∃ n, ({ s with inbox := rest }.beginMessage (.expired ⟨timer, ue, .t3470⟩)).emm =
      .publishing ue n (.exhausted ue) := by
  obtain ⟨c, p', hc, hp', htimer⟩ := Mme.not_rejects_t3470 haccepted
  obtain ⟨c', hc', hrecord⟩ := (Mme.identification?_eq_some_iff s.mme ue p).1 hp
  cases hc.symm.trans hc'
  cases hp'.symm.trans hrecord
  have hlast : ¬p.expiries + 1 < s.config.maxRetransmissions := by
    rw [Identification.counted_lt_iff (by omega), hbound]
    exact Nat.lt_irrefl _
  have hreceived : (s.mme.emit (.exchanged .received
      (Message.expired ⟨timer, ue, .t3470⟩).primitive ue)).context? ue = some c := hc
  obtain ⟨m', heq, _⟩ := Mme.t3470Expired_of_last hreceived hp' htimer hlast
  exact ⟨_, (beginMessage_of_publish (.expired ⟨timer, ue, .t3470⟩)
    (s := { s with inbox := rest }) heq).2⟩

theorem bounded_receive (hstep : s.step? .receive = some s') (hs : s.Bounded) : s'.Bounded := by
  intro ue q hq
  rw [config_of_step hstep]
  obtain ⟨hemm, ⟨msg, rest, hqueue, hs'⟩ | ⟨_, ⟨log, hlog⟩, _⟩⟩ := receive?_eq_some hstep
  · rw [hs', beginMessage_eq, identification?_follow] at hq
    have hfirst := (Mme.tallies_begin _ s.config msg hq).of_emit
    rcases bound_first hs hemm hfirst with hbelow | ⟨timer, p, rfl, haccepted, hp, hbound, rfl⟩
    · exact .inl hbelow
    · obtain ⟨n, hn⟩ := exhausted_of_bound { s.inbox with queue := rest } haccepted hp hbound
      rw [Identification.toNat_counted (hs.below hemm hp), hbound]
      exact .inr ⟨rfl, ue, n, by rw [hs']; exact hn⟩
  · rw [hlog] at hq
    exact .inl (hs.below hemm hq)

theorem bounded_step (hspares : s.SparesRecords a) (hstep : s.step? a = some s')
    (hs : s.Bounded) : s'.Bounded := by
  by_cases hreceive : a = .receive
  · subst hreceive
    exact bounded_receive hstep hs
  by_cases hpublish : a = .publish
  · subst hpublish
    exact bounded_publish hstep hs
  · exact bounded_aside hspares hreceive hpublish hstep hs

/-- The tally on a record is that of the history. It has reached the bound only where the EMM task
is about to announce the end of the identification. -/
structure Tallies (ms : List Moment) (s : System) : Prop where
  bus : s.bus.Live
  records : ∀ ue p, s.mme.identification? ue = some p →
    Tallied ue ms p.requested p.expiries.toNat ∧
      (p.expiries.toNat < s.config.bound ∨ p.expiries.toNat = s.config.bound ∧
        ∃ subject n, s.emm = .publishing subject n (.exhausted ue))

theorem not_restarts (ha : a ≠ .receive) (requested : IdentityType) :
    ¬Moment.Restarts ⟨s, a, s'⟩ ue requested :=
  fun h => ha h.1

theorem not_counts (ha : a ≠ .receive) : ¬Moment.Counts ⟨s, a, s'⟩ ue := by
  rintro ⟨timer, hhand, _⟩
  cases a with
  | receive => exact ha rfl
  | _ => cases hhand

theorem tallied_kept {p q : Identification} (h : Tallied ue ms p.requested p.expiries.toNat)
    (htally : q.tally = p.tally) : Tallied ue ms q.requested q.expiries.toNat := by
  simp only [Identification.tally, Prod.mk.injEq] at htally
  rwa [htally.1, htally.2]

theorem Tallies.bounded (hs : Tallies ms s) : s.Bounded :=
  fun ue p hp => (hs.records ue p hp).2

theorem tallies_aside (hok : s.OnAir a) (hreceive : a ≠ .receive) (hpublish : a ≠ .publish)
    (hstep : s.step? a = some s') (hs : Tallies ms s) : Tallies (ms ++ [⟨s, a, s'⟩]) s' := by
  have hbounded := bounded_step hok.sparesRecords hstep hs.bounded
  refine ⟨bus_live_of_onAir hok hstep hs.bus, fun ue q hq => ⟨?_, hbounded ue q hq⟩⟩
  have hsame : s.mme.identification? ue = some q := by
    rcases records_step hreceive hpublish hok.sparesRecords hstep ue with hsame | ⟨hnone, _⟩
    · rw [← hsame]
      exact hq
    · rw [hnone] at hq
      cases hq
  exact (hs.records ue q hsame).1.passed (not_restarts hreceive) (not_counts hreceive)

theorem tallies_publish (hstep : s.step? .publish = some s') (hbus : s'.bus.Live)
    (hs : Tallies ms s) : Tallies (ms ++ [⟨s, .publish, s'⟩]) s' := by
  obtain ⟨_, _, _, _, _, _, _, hrecords, _, hresumed, _, _⟩ := turn_of_publish hstep
  have hretains := hresumed.retainsTallies
  rw [hrecords] at hretains
  refine ⟨hbus, fun ue q hq => ⟨?_, bounded_publish hstep hs.bounded ue q hq⟩⟩
  obtain ⟨r, hr, htally⟩ := hretains ue q hq
  exact (tallied_kept (hs.records ue r hr).1 htally).passed (not_restarts nofun) (not_counts nofun)

theorem head_of_counts (h : Moment.Counts ⟨s, a, s'⟩ ue) :
    ∃ timer rest, s.inbox.queue = .message (.expired ⟨timer, ue, .t3470⟩) :: rest ∧
      ¬s.mme.Rejects (.expired ⟨timer, ue, .t3470⟩) := by
  obtain ⟨timer, hhand, haccepted⟩ := h
  cases a with
  | receive =>
      simp only [expiryAtHand] at hhand
      split at hhand
      · rename_i msg rest hqueue
        cases msg with
        | expired e =>
            cases hhand
            exact ⟨timer, rest, hqueue, haccepted⟩
        | _ => cases hhand
      · cases hhand
  | _ => cases hhand

theorem tallied_first (s' : System) {msg : Message} {rest : List (Envelope Message)}
    (hs : Tallies ms s) (hemm : s.emm = .receiving) (hqueue : s.inbox.queue = .message msg :: rest)
    {q : Identification} (hq : s.mme.TalliesFirst msg ue q) :
    Tallied ue (ms ++ [⟨s, .receive, s'⟩]) q.requested q.expiries.toNat := by
  cases hq with
  | kept hp htally hrestart hcount =>
      refine (tallied_kept (hs.records ue _ hp).1 htally).passed ?_ ?_
      · rintro requested ⟨_, parent, rest', hqueue', haccepted⟩
        cases hqueue.symm.trans hqueue'
        exact haccepted (hrestart requested parent rfl)
      · intro hcounts
        obtain ⟨timer, rest', hqueue', haccepted⟩ := head_of_counts hcounts
        cases hqueue.symm.trans hqueue'
        exact haccepted (hcount timer rfl)
  | restarted hmsg haccepted hzero =>
      subst hmsg
      rw [hzero]
      exact .restarted ⟨rfl, _, rest, hqueue, haccepted⟩
  | @counted timer p hmsg haccepted hp hq =>
      subst hmsg hq
      rw [Identification.toNat_counted (hs.bounded.below hemm hp)]
      refine (hs.records ue p hp).1.counted ⟨timer, ?_, haccepted⟩
      simp [expiryAtHand, hqueue, Message.expiry?]

theorem tallies_receive (hstep : s.step? .receive = some s') (hbus : s'.bus.Live)
    (hs : Tallies ms s) : Tallies (ms ++ [⟨s, .receive, s'⟩]) s' := by
  refine ⟨hbus, fun ue q hq => ⟨?_, bounded_receive hstep hs.bounded ue q hq⟩⟩
  obtain ⟨hemm, ⟨msg, rest, hqueue, hs'⟩ | ⟨hover, ⟨log, hlog⟩, _⟩⟩ := receive?_eq_some hstep
  · rw [hs', beginMessage_eq, identification?_follow] at hq
    exact tallied_first s' hs hemm hqueue (Mme.tallies_begin _ s.config msg hq).of_emit
  · rw [hlog] at hq
    refine (hs.records ue q hq).1.passed ?_ ?_
    · rintro requested ⟨_, parent, rest, hqueue, _⟩
      exact hover.queue_ne _ _ hqueue
    · intro hcounts
      obtain ⟨timer, rest, hqueue, _⟩ := head_of_counts hcounts
      exact hover.queue_ne _ _ hqueue

theorem tallies_of_path {config : NasConfig} {inboxCapacity busCapacity : Nat}
    (path : Path OnAir (idle config inboxCapacity busCapacity) ms s) : Tallies ms s := by
  induction path with
  | nil => exact ⟨⟨rfl, rfl, by simp [idle]⟩, fun ue p hp => nomatch hp⟩
  | @snoc ms s s' a path hok hstep ih =>
      have hbus := bus_live_of_onAir hok hstep ih.bus
      by_cases hreceive : a = .receive
      · subst hreceive
        exact tallies_receive hstep hbus ih
      by_cases hpublish : a = .publish
      · subst hpublish
        exact tallies_publish hstep hbus ih
      · exact tallies_aside hok hreceive hpublish hstep ih

end System

end Emm
