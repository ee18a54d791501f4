import Emm.Proofs.Deferral
import Emm.Proofs.Interruption

/-!
However the handler of a response fares, the identification is over when it is done. The
channel may be closed when it publishes, and the application layer may remove the very context
while it waits.

Main statement: `completion_releases`.
-/

namespace Emm

/-- What the handler of a response returns if it would return `r` once its last notification has
been taken. -/
def Delivery.result (r : Except IdentificationError Completion) :
    Delivery → Except IdentificationError Completion
  | accepted => r
  | refused e => .error (.dispatch e)

/-- What the handler of a response returns after its last notification. -/
def Resumption.result? : Resumption → Delivery → Option (Except IdentificationError Completion)
  | unresolved e, _ => some (.error e)
  | violated ue, d => some (d.result (.error (.protocolViolation ue)))
  | confirmed completion, d => some (d.result (.ok completion))
  | _, _ => none

/-- Handling came to its last notification `n` at once: in the first turn the record `p` was
released with its timer, the context of the UE was `c` but for that, and after it nothing was
changed. -/
structure Handling.EndsAtOnce (h : Handling) (m : Mme) (ue : UeId) (c : Context)
    (p : Identification) (n : Notification) (r : Except IdentificationError Completion)
    (x : Stop) : Prop where
  stops : h.stops = [x]
  outcome : h.outcome = .completed (x.delivery.result r)
  announced : x.notification = n
  released : m.Differs ue c { c.procedures with identification := none }
    (m.timers.without p.t3470.toList) x.waiting
  settled : x.resuming.SameButLog h.after

/-- While a handler waits nobody but the application layer is at work. -/
def OnlyApplication (between : Nat → Interlude) : Prop :=
  ∀ k m, Relation.ReflTransGen Application m ((between k).others m)

/-- An armed timer that may be left over from the identification `p` of `ue`: one that was armed
before and is not the T3470 of `p`, or a new one on which the parent waits. -/
def ArmedTimer.Outlasts (a : ArmedTimer) (m : Mme) (ue : UeId) (p : Identification) : Prop :=
  a ∈ m.timers.armed ∧ p.t3470 ≠ some a.id ∨ a.expiry = ⟨m.timers.nextId, ue, .specificRetry⟩

/-- The identification `p` of `ue` was under way, and is over: its record is gone, its T3470 is
not armed, and its end was announced once, with the last notification that was offered. -/
structure Handling.Releases (h : Handling) (m : Mme) (ue : UeId) (p : Identification) : Prop where
  record : h.after.identification? ue = none
  timers : ∀ a ∈ h.after.timers.armed, a.Outlasts m ue p
  announced : ∃ earlier last, h.stops = earlier ++ [last] ∧
    last.notification.ending? = some (ue, p.previousState) ∧
    (∀ x ∈ earlier, x.notification.isTerminal = false) ∧ last.resuming.SameButLog h.after

theorem Handling.Releases.cons {h : Handling} {m : Mme} {ue : UeId} {p : Identification}
    (hreleases : h.Releases m ue p) {x : Stop}
    (hx : x.notification.isTerminal = false) :
    Handling.Releases { h with stops := x :: h.stops } m ue p where
  record := hreleases.record
  timers := hreleases.timers
  announced := by
    obtain ⟨earlier, last, hstops, hending, hquiet, hsame⟩ := hreleases.announced
    refine ⟨x :: earlier, last, congrArg (x :: ·) hstops, hending, ?_, hsame⟩
    intro y hy
    rcases List.mem_cons.1 hy with rfl | hy
    · exact hx
    · exact hquiet y hy

/-- Handling was given up because the order to tear `holder` down was refused, at `x`; the end was
announced at `y`. When the order was made no more than the T3470 of the record `p` had been stopped,
and after it no more is done than to release the record. -/
structure Handling.Withdraws (h : Handling) (m : Mme) (ue : UeId) (c : Context)
    (p : Identification) (holder : Holder) (e : BusError) (x y : Stop) : Prop where
  stops : h.stops = [x, y]
  outcome : h.outcome = .completed (.error (.dispatch e))
  ordered : x.notification = holder.teardown
  untouched : m.Hears ue c p x.waiting
  released : x.resuming.Drops ue x.reached
  undisturbed : x.resuming = x.waiting →
    m.Differs ue c { c.procedures with identification := none }
      (m.timers.without p.t3470.toList) x.reached
  announced : y.notification = .procedureAborted ue
    { notify := false, free := true, previousState := p.previousState } .resolutionFailed
  settled : y.resuming.SameButLog h.after

namespace Mme

variable {m m₁ m₂ : Mme} {ue : UeId} {c : Context} {p : Identification} {imsi : Imsi}
  {config : NasConfig} {between : Nat → Interlude}

/-- Timers may have been disarmed, and the UE may have lost its record. -/
structure Recedes (m : Mme) (ue : UeId) (m' : Mme) : Prop where
  now : m'.timers.now = m.timers.now
  timers : m.timers.Fewer m'.timers
  record : m.identification? ue = none → m'.identification? ue = none

theorem Recedes.refl (m : Mme) (ue : UeId) : m.Recedes ue m := ⟨rfl, .refl _, id⟩

theorem Recedes.trans (h : m.Recedes ue m₁) (h' : m₁.Recedes ue m₂) : m.Recedes ue m₂ where
  now := h'.now.trans h.now
  timers := h.timers.trans h'.timers
  record hm := h'.record (h.record hm)

theorem SameButLog.recedes (h : m.SameButLog m₁) (ue : UeId) : m.Recedes ue m₁ := by
  rw [h]
  exact ⟨rfl, .refl _, id⟩

theorem fewer_tearDown (m : Mme) (ue : UeId) : m.timers.Fewer (m.tearDown ue).timers := by
  unfold tearDown unregister
  split
  · have hstopped := fewer_stopTimers (m.removeContext ue)
    rw [timers_removeContext] at hstopped
    exact hstopped _
  · exact .refl _

theorem recedes_tearDown (m : Mme) (u ue : UeId) : m.Recedes ue (m.tearDown u) where
  now := (m.still_tearDown u).now
  timers := m.fewer_tearDown u
  record h := by
    rw [identification?_tearDown]
    by_cases hu : ue = u
    · rw [hu, Function.update_self]
    · rwa [Function.update_of_ne hu]

theorem recedes_application (h : Application m m₁) (ue : UeId) : m.Recedes ue m₁ := by
  cases h with
  | log log => exact ⟨rfl, .refl _, id⟩
  | register hc hcarried => exact ⟨rfl, .refl _, id⟩
  | unregister u log => exact ⟨rfl, .refl _, id⟩
  | tearDown u e => exact ((m.sameButLog_emit e).recedes ue).trans (recedes_tearDown _ u ue)

theorem recedes_stop (hothers : OnlyApplication between) (m : Mme) (ue : UeId) (k : Nat)
    (n : Notification) (d : Delivery) :
    m.Recedes ue (((between k).others m).offered n d) := by
  have hwork := hothers k m
  generalize (between k).others m = m₁ at hwork ⊢
  have hdone : m.Recedes ue m₁ := by
    induction hwork with
    | refl => exact .refl m ue
    | tail _ h ih => exact ih.trans (recedes_application h ue)
  exact hdone.trans ((sameButLog_offered m₁ n d).recedes ue)

theorem carryOutAmid_result (m : Mme) (config : NasConfig) (between : Nat → Interlude)
    (n : Notification) (next : Resumption) {r : Except IdentificationError Completion}
    (hresult : next.result? (between 0).delivery = some r) :
    ∃ m', m.carryOutAmid config between (.publish n next) =
        ⟨m', [m.stopAt config (between 0) n next], .completed r⟩ ∧
      (m.stopAt config (between 0) n next).resuming.SameButLog m' := by
  have hturn : ∃ m', (((between 0).others m).offered n (between 0).delivery).resume config n next
      (between 0).delivery = (m', .done (.completed r)) ∧
        (((between 0).others m).offered n (between 0).delivery).SameButLog m' := by
    generalize ((between 0).others m).offered n (between 0).delivery = m₁
    generalize (between 0).delivery = d at hresult ⊢
    cases next with
    | unresolved e =>
        cases hresult
        cases d with
        | accepted => exact ⟨_, rfl, .refl _⟩
        | refused e => exact ⟨_, rfl, sameButLog_emit _ _⟩
    | violated ue | confirmed completion =>
        cases d with
        | accepted | refused e =>
            cases hresult
            exact ⟨_, rfl, .refl _⟩
    | _ => cases hresult
  obtain ⟨m', hturn, hsame⟩ := hturn
  refine ⟨m', ?_, hsame⟩
  rw [carryOutAmid_publish m config between n next hturn, carryOutAmid_done]

theorem Recedes.outlasts (h : m₁.Recedes ue m₂) (hm₁ : ∀ a ∈ m₁.timers.armed, a.Outlasts m ue p) :
    ∀ a ∈ m₂.timers.armed, a.Outlasts m ue p :=
  fun a ha => hm₁ a (h.timers.armed.subset ha)

theorem releases_of_ending (config : NasConfig) (hothers : OnlyApplication between)
    (n : Notification) (next : Resumption) (hending : n.ending? = some (ue, p.previousState))
    (hresult : ∀ d, (next.result? d).isSome) (hrecord : m₁.identification? ue = none)
    (htimers : ∀ a ∈ m₁.timers.armed, a.Outlasts m ue p) :
    (∃ r, (m₁.carryOutAmid config between (.publish n next)).outcome = .completed r) ∧
      (m₁.carryOutAmid config between (.publish n next)).Releases m ue p := by
  obtain ⟨r, hr⟩ := Option.isSome_iff_exists.1 (hresult (between 0).delivery)
  obtain ⟨m', hcarried, hsame⟩ := m₁.carryOutAmid_result config between n next hr
  rw [hcarried]
  have hrecedes := (recedes_stop hothers m₁ ue 0 n (between 0).delivery).trans (hsame.recedes ue)
  refine ⟨⟨r, rfl⟩, hrecedes.record hrecord, hrecedes.outlasts htimers, ?_⟩
  exact ⟨[], m₁.stopAt config (between 0) n next, rfl, hending,
    fun _ h => (List.not_mem_nil h).elim, hsame⟩

theorem outlasts_without (m : Mme) (ue : UeId) (p : Identification) :
    ∀ a ∈ (m.timers.without p.t3470.toList).armed, a.Outlasts m ue p := by
  intro a ha
  obtain ⟨harmed, hother⟩ := List.mem_filter.1 ha
  refine .inl ⟨harmed, fun htimer => ?_⟩
  simp [htimer] at hother

theorem ends_at_once (config : NasConfig) (hothers : OnlyApplication between)
    {identity : MobileIdentity} {n : Notification} {next : Resumption}
    {r : Except IdentificationError Completion}
    (hbegun : m.complete ue identity = (m₁, .publish n next))
    (hending : n.ending? = some (ue, p.previousState))
    (hresult : ∀ d, next.result? d = some (d.result r))
    (hreleased : m.Differs ue c { c.procedures with identification := none }
      (m.timers.without p.t3470.toList) m₁) :
    ((∃ r, (m.handleAmid config between (.complete ue identity)).outcome = .completed r) ∧
        (m.handleAmid config between (.complete ue identity)).Releases m ue p) ∧
      ∃ x, (m.handleAmid config between (.complete ue identity)).EndsAtOnce m ue c p n r x := by
  obtain ⟨m', hcarried, hsame⟩ := m₁.carryOutAmid_result config between n next
    (hresult (between 0).delivery)
  have hreleases := releases_of_ending config hothers n next hending
    (fun d => by rw [hresult d]; rfl) hreleased.identification
    (hreleased.timers ▸ outlasts_without m ue p)
  rw [handleAmid_eq m config between (.complete ue identity) hbegun]
  rw [hcarried] at hreleases ⊢
  exact ⟨hreleases, _, rfl, rfl, rfl, hreleased, hsame⟩

theorem Differs.note {ps : Procedures} {t : Timers} (h : m.Differs ue c ps t m₁)
    (identity : MobileIdentity) :
    m.Differs ue (noteEquipment identity c) ps t
      (m₁.modifyContext ue (noteEquipment identity)) where
  context := by
    rw [context?_modifyContext, if_pos rfl, h.context, Option.map_some]
    cases identity <;> rfl
  others u hu := by rw [context?_modifyContext, if_neg hu, h.others u hu]
  index := h.index
  nextProcedure := h.nextProcedure
  registry := h.registry
  timers := h.timers

section Heard

variable (hc : m.context? ue = some c) (hp : c.procedures.identification = some p)

include hc

theorem heard (p : Identification) (identity : MobileIdentity) :
    m.Differs ue (noteEquipment identity c)
      { c.procedures with identification := some { p with t3470 := none } }
      (m.timers.without p.t3470.toList)
      ((((m.emit (.responseReceived ue identity)).setIdentification ue
        (some { p with t3470 := none })).stopTimers p.t3470.toList).modifyContext ue
          (noteEquipment identity)) :=
  ((((Differs.refl hc).emit (.responseReceived ue identity)).setIdentification
    (some { p with t3470 := none })).stopTimers p.t3470.toList).note identity

include hp

theorem complete_of_equipment (identity : MobileIdentity)
    (hequipment : identity.type = .imei ∨ identity.type = .imeisv) :
    ∃ m₁, m.complete ue identity =
        (m₁, .publish (.procedureConfirmed ue
          { notify := true, free := true, previousState := p.previousState })
          (.confirmed .confirmed)) ∧
      m.Differs ue (noteEquipment identity c) { c.procedures with identification := none }
        (m.timers.without p.t3470.toList) m₁ := by
  have hrecord := (identification?_eq_some_iff m ue p).2 ⟨c, hc, hp⟩
  have hreleased := (heard hc p identity).release rfl
  rw [Option.toList_none, Timers.without_nil] at hreleased
  refine ⟨_, ?_, hreleased⟩
  unfold complete
  simp only [identification?_emit, hrecord]
  cases identity with
  | imei i | imeisv i => rfl
  | imsi imsi | tmsi tmsi => simp [MobileIdentity.type] at hequipment

theorem complete_of_tmsi (tmsi : UInt32) :
    ∃ m₁, m.complete ue (.tmsi tmsi) =
        (m₁, .publish (.procedureAborted ue
          { notify := false, free := true, previousState := p.previousState } .protocolViolation)
          (.violated ue)) ∧
      m.Differs ue c { c.procedures with identification := none }
        (m.timers.without p.t3470.toList) m₁ := by
  have hrecord := (identification?_eq_some_iff m ue p).2 ⟨c, hc, hp⟩
  have hreleased := ((heard hc p (.tmsi tmsi)).emit (.responseCarriesTmsi ue)).release rfl
  rw [Option.toList_none, Timers.without_nil] at hreleased
  refine ⟨_, ?_, hreleased⟩
  unfold complete
  simp only [identification?_emit, hrecord]

end Heard

theorem outlasts_of_displaced {interval : Duration} {parent : Option ProcedureId} {holder : Holder}
    {crash : Option Crash} (hm : m₁.timers.nextId = m.timers.nextId)
    (htimers : ∀ a ∈ m₁.timers.armed, a.Outlasts m ue p)
    (hdisplace : m₁.displace interval ue parent holder = (m₂, crash)) :
    ∀ a ∈ m₂.timers.armed, a.Outlasts m ue p := by
  intro a ha
  have hdisplaced := m₁.timers_displace ue interval parent holder
  rw [hdisplace] at hdisplaced
  obtain hsame | hstarted := hdisplaced
  · rw [hsame] at ha
    exact htimers a ha
  · obtain hold | hnew := List.mem_append.1 (hstarted.armed.subset ha)
    · exact htimers a hold
    · right
      rw [List.mem_singleton.1 hnew, hm]

theorem isTerminal_teardown (holder : Holder) : holder.teardown.isTerminal = false := by
  cases holder <;> rfl

theorem displace_of_absent (interval : Duration) (parent : Option ProcedureId) (holder : Holder)
    (habsent : m₁.context? ue = none) :
    ∃ e, m₁.displace interval ue parent holder = ((m₁.blame holder).emit e, none) ∧
      ((m₁.blame holder).emit e).context? ue = none := by
  have hblamed : (m₁.blame holder).context? ue = none := by
    cases holder with
    | context old => rw [blame, context?_modifyContext, habsent, Option.map_none, ite_self]
    | application old => exact habsent
  have hnone : (m₁.blame holder).specific? ue = none := by simp [specific?, hblamed]
  obtain ⟨e, hparked⟩ := parkParent_of_no_parent interval holder.ue
    fun q hq (_ : parent = some q.id) => (Option.some_ne_none q (hq.symm.trans hnone)).elim
  exact ⟨e, (displace_eq _ _ _ _ _).trans hparked, hblamed⟩

theorem resume_displaced_of_absent (config : NasConfig) (n : Notification) (claim : Claim)
    (holder : Holder) (habsent : m₁.context? claim.ue = none) :
    (m₁.blame holder).SameButLog
      (m₁.resume config n (.displaced claim holder) .accepted).1 := by
  obtain ⟨e, hdisplace, hgone⟩ := displace_of_absent config.retryInterval claim.parent holder
    habsent
  have hresumed : (m₁.resume config n (.displaced claim holder) .accepted).1 =
      ((m₁.blame holder).emit e).releaseIdentification claim.ue := by
    simp only [resume, hdisplace]
    rfl
  rw [hresumed]
  exact (sameButLog_emit _ e).trans ((drops_releaseIdentification _ claim.ue).absent hgone)

theorem releases_after (config : NasConfig) (hothers : OnlyApplication between) {n : Notification}
    {next : Resumption} (hending : n.ending? = some (ue, p.previousState))
    (hresult : ∀ d, (next.result? d).isSome) (htimers : ∀ a ∈ m₁.timers.armed, a.Outlasts m ue p)
    {x : Stop} (hx : x.notification.isTerminal = false) {h : Handling}
    (hh : h = (m₁.releaseIdentification ue).carryOutAmid config (fun k => between (k + 1))
      (.publish n next)) :
    (∃ r, h.outcome = .completed r) ∧
      Handling.Releases { h with stops := x :: h.stops } m ue p := by
  have hrecord : (m₁.releaseIdentification ue).identification? ue = none := by
    rw [identification?_releaseIdentification, Function.update_self]
  obtain ⟨houtcome, hreleases⟩ := releases_of_ending config (fun k => hothers (k + 1)) n next
    hending hresult hrecord
    fun a ha => htimers a ((m₁.fewer_releaseIdentification ue).armed.subset ha)
  rw [hh]
  exact ⟨houtcome, hreleases.cons hx⟩

section Collision

variable (hothers : OnlyApplication between) (hheard : m.Hears ue c p m₁) (imsi : Imsi)
  (holder : Holder)

include hothers hheard

theorem outlasts_at_teardown (n : Notification) (d : Delivery) :
    (((between 0).others m₁).offered n d).timers.now = m.timers.now ∧
      (((between 0).others m₁).offered n d).timers.nextId = m.timers.nextId ∧
      ∀ a ∈ (((between 0).others m₁).offered n d).timers.armed, a.Outlasts m ue p := by
  have hresuming := recedes_stop hothers m₁ ue 0 n d
  refine ⟨?_, ?_, ?_⟩
  · rw [hresuming.now, hheard.timers]
    rfl
  · rw [hresuming.timers.nextId, hheard.timers]
    rfl
  · apply hresuming.outlasts
    rw [hheard.timers]
    exact outlasts_without m ue p

theorem withdraws_of_refused (config : NasConfig) {e : BusError}
    (hrefused : (between 0).delivery = .refused e) :
    ∃ h, m₁.carryOutAmid config between (.publish holder.teardown
        (.displaced ⟨ue, imsi, p.parent, p.previousState⟩ holder)) = h ∧
      ((∃ r, h.outcome = .completed r) ∧ h.Releases m ue p) ∧
      ∃ x y, h.Withdraws m ue c p holder e x y := by
  let x := m₁.stopAt config (between 0) holder.teardown
    (.displaced ⟨ue, imsi, p.parent, p.previousState⟩ holder)
  let m₂ := x.resuming.emit (.imsiUnresolved ue imsi (.dispatch e))
  let n : Notification := .procedureAborted ue
    { notify := false, free := true, previousState := p.previousState } .resolutionFailed
  have hturn : x.resuming.resume config holder.teardown
      (.displaced ⟨ue, imsi, p.parent, p.previousState⟩ holder) (between 0).delivery =
        (m₂.releaseIdentification ue, .publish n (.unresolved (.dispatch e))) := by
    rw [hrefused]
    rfl
  have hcarried := m₁.carryOutAmid_publish config between _ _ hturn
  obtain ⟨m', hended, hsame⟩ := (m₂.releaseIdentification ue).carryOutAmid_result config
    (fun k => between (k + 1)) n (.unresolved (.dispatch e)) rfl
  have hreached : x.reached = m₂.releaseIdentification ue := congrArg Prod.fst hturn
  let y := (m₂.releaseIdentification ue).stopAt config (between 1) n (.unresolved (.dispatch e))
  refine ⟨_, hcarried, ?_, x, y, ?_⟩
  · have htimers : ∀ a ∈ m₂.timers.armed, a.Outlasts m ue p :=
      (outlasts_at_teardown hothers hheard holder.teardown (between 0).delivery).2.2
    exact releases_after (x := x) config hothers rfl (fun _ => rfl) htimers
      (isTerminal_teardown holder) rfl
  · rw [hended]
    refine ⟨rfl, rfl, rfl, hheard, ?_, ?_, rfl, hsame⟩
    · rw [hreached]
      exact (drops_releaseIdentification m₂ ue).of_sameButLog (sameButLog_emit _ _)
    · intro hstill
      have hdiffers := (hheard.emit (.imsiUnresolved ue imsi (.dispatch e))).release rfl
      rw [Option.toList_none, Timers.without_nil] at hdiffers
      rw [hreached]
      simp only [m₂, hstill]
      exact hdiffers

/-- The teardown is accepted: the parent is parked and the record released, unless the UE has lost
its context by then. -/
theorem releases_of_accepted (config : NasConfig) (haccepted : (between 0).delivery = .accepted) :
    ∃ h, m₁.carryOutAmid config between (.publish holder.teardown
        (.displaced ⟨ue, imsi, p.parent, p.previousState⟩ holder)) = h ∧
      ((∃ r, h.outcome = .completed r) ∧ h.Releases m ue p ∨
        h.outcome = .crashed .deadlineOverflow ∧
          m.timers.now.after? config.retryInterval = none) ∧
      ∃ x rest, h.stops = x :: rest ∧ x.notification = holder.teardown ∧
        m.Hears ue c p x.waiting ∧
        (x.resuming.context? ue = none → (x.resuming.blame holder).SameButLog x.reached) := by
  let claim : Claim := ⟨ue, imsi, p.parent, p.previousState⟩
  let x := m₁.stopAt config (between 0) holder.teardown (.displaced claim holder)
  obtain ⟨hnow, hnext, htimers⟩ : x.resuming.timers.now = m.timers.now ∧
      x.resuming.timers.nextId = m.timers.nextId ∧
        ∀ a ∈ x.resuming.timers.armed, a.Outlasts m ue p :=
    outlasts_at_teardown hothers hheard holder.teardown (between 0).delivery
  have hlost : x.resuming.context? ue = none → (x.resuming.blame holder).SameButLog x.reached := by
    intro habsent
    have hblamed := resume_displaced_of_absent config holder.teardown claim holder habsent
    rw [← haccepted] at hblamed
    exact hblamed
  obtain ⟨m₂, crash, hdisplace⟩ : ∃ m₂ crash, x.resuming.displace config.retryInterval ue p.parent
      holder = (m₂, crash) := ⟨_, _, rfl⟩
  have hleft := outlasts_of_displaced hnext htimers hdisplace
  cases crash with
  | some crash =>
      have hturn : x.resuming.resume config holder.teardown (.displaced claim holder)
          (between 0).delivery = (m₂, .done (.crashed crash)) := by
        rw [haccepted]
        simp only [resume, claim, hdisplace]
      refine ⟨_, m₁.carryOutAmid_publish config between _ _ hturn, .inr ⟨?_, ?_⟩, x, _, rfl, rfl,
        hheard, hlost⟩
      · cases crash
        rw [carryOutAmid_done]
      · have hoverflow := x.resuming.crash_of_displace ue (congrArg Prod.snd hdisplace)
        rwa [hnow] at hoverflow
  | none =>
      have hturn : x.resuming.resume config holder.teardown (.displaced claim holder)
          (between 0).delivery = (m₂.releaseIdentification ue, .publish (.procedureConfirmed ue
            { notify := false, free := true, previousState := p.previousState })
            (.confirmed (.deferred holder.ue))) := by
        rw [haccepted]
        simp only [resume, claim, hdisplace]
        rfl
      refine ⟨_, m₁.carryOutAmid_publish config between _ _ hturn, .inl ?_, x, _, rfl, rfl,
        hheard, hlost⟩
      exact releases_after (x := x) config hothers rfl (fun d => by cases d <;> rfl) hleft
        (isTerminal_teardown holder) rfl

end Collision

/-- Handling of a response with `imsi` from `ue`, whose context was `c`. -/
structure SettlesImsi (between : Nat → Interlude) (m : Mme) (ue : UeId) (c : Context)
    (p : Identification) (imsi : Imsi) (h : Handling) : Prop where
  refused : ∀ holder e, Found m ue imsi (some holder) → (between 0).delivery = .refused e →
    ∃ x y, h.Withdraws m ue c p holder e x y
  /-- If the UE loses its context at the first stop, only the holder takes note of the collision. -/
  interrupted : ∀ holder, Found m ue imsi (some holder) → (between 0).delivery = .accepted →
    ∃ x rest, h.stops = x :: rest ∧ x.notification = holder.teardown ∧
      m.Hears ue c p x.waiting ∧
      (x.resuming.context? ue = none → (x.resuming.blame holder).SameButLog x.reached)
  confirmed : Found m ue imsi none → ∃ x, h.stops = [x] ∧
    x.notification = .procedureConfirmed ue
      { notify := true, free := true, previousState := p.previousState } ∧
    m.Confirms ue c p imsi x.waiting ∧ x.resuming.SameButLog h.after

/-- What becomes of a response depends on the identity that it carries. -/
def Answers (between : Nat → Interlude) (m : Mme) (ue : UeId) (c : Context) (p : Identification)
    (h : Handling) : MobileIdentity → Prop
  | .imsi imsi => SettlesImsi between m ue c p imsi h
  | .imei i => ∃ x, h.EndsAtOnce m ue { c with imei := some i } p
      (.procedureConfirmed ue { notify := true, free := true, previousState := p.previousState })
      (.ok .confirmed) x
  | .imeisv i => ∃ x, h.EndsAtOnce m ue { c with imeisv := some i } p
      (.procedureConfirmed ue { notify := true, free := true, previousState := p.previousState })
      (.ok .confirmed) x
  | .tmsi _ => ∃ x, h.EndsAtOnce m ue c p
      (.procedureAborted ue { notify := false, free := true, previousState := p.previousState }
        .protocolViolation) (.error (.protocolViolation ue)) x

/-- The handler of a response from `ue`, whose context was `c`, has been carried through. -/
structure Completes (config : NasConfig) (between : Nat → Interlude) (m : Mme) (ue : UeId)
    (c : Context) (p : Identification) (identity : MobileIdentity) (h : Handling) : Prop where
  /-- When it returns, the identification is over. It does not if a retry has to be scheduled beyond
  what the clock can express. -/
  ended : (∃ r, h.outcome = .completed r) ∧ h.Releases m ue p ∨
    h.outcome = .crashed .deadlineOverflow ∧ m.timers.now.after? config.retryInterval = none
  answered : Answers between m ue c p h identity

theorem completes_of_holder (hothers : OnlyApplication between) (hc : m.context? ue = some c)
    (hp : c.procedures.identification = some p) {holder : Holder}
    (hfound : Found m ue imsi (some holder)) (config : NasConfig) :
    Completes config between m ue c p (.imsi imsi)
      (m.handleAmid config between (.complete ue (.imsi imsi))) := by
  obtain ⟨m₁, hbegun, hheard⟩ := complete_of_holder hc hp hfound
  rw [handleAmid_eq m config between (.complete ue (.imsi imsi)) hbegun]
  have unique : ∀ holder', Found m ue imsi (some holder') → holder' = holder :=
    fun _ hfound' => Option.some.inj (hfound'.unique hfound)
  have hconfirmed : ¬Found m ue imsi none := by
    intro hnobody
    cases hnobody.unique hfound
  cases hd : (between 0).delivery with
  | refused e =>
      obtain ⟨_, rfl, hended, hwithdraws⟩ := withdraws_of_refused hothers hheard imsi holder
        config hd
      refine ⟨.inl hended, ?_, ?_, fun hnobody => absurd hnobody hconfirmed⟩
      · intro holder' e' hfound' hd'
        cases unique holder' hfound'
        cases hd.symm.trans hd'
        exact hwithdraws
      · intro holder' _ hd'
        cases hd.symm.trans hd'
  | accepted =>
      obtain ⟨_, rfl, hended, hstops⟩ := releases_of_accepted hothers hheard imsi holder config hd
      refine ⟨hended, ?_, ?_, fun hnobody => absurd hnobody hconfirmed⟩
      · intro holder' e' _ hd'
        cases hd.symm.trans hd'
      · intro holder' hfound' _
        cases unique holder' hfound'
        exact hstops

theorem completes_of_nobody (hothers : OnlyApplication between) (hc : m.context? ue = some c)
    (hp : c.procedures.identification = some p) (hfound : Found m ue imsi none)
    (config : NasConfig) :
    Completes config between m ue c p (.imsi imsi)
      (m.handleAmid config between (.complete ue (.imsi imsi))) := by
  obtain ⟨m₁, hbegun, hconfirms⟩ := complete_of_nobody hc hp hfound
  rw [handleAmid_eq m config between (.complete ue (.imsi imsi)) hbegun]
  have hrecord : m₁.identification? ue = none := by
    rw [identification?, hconfirms.context]
    rfl
  have hholder : ∀ holder, ¬Found m ue imsi (some holder) := by
    intro holder hfound'
    cases hfound'.unique hfound
  let n : Notification := .procedureConfirmed ue
    { notify := true, free := true, previousState := p.previousState }
  have hended := releases_of_ending (p := p) config hothers n (.confirmed .confirmed) rfl
    (fun _ => rfl) hrecord (hconfirms.timers ▸ outlasts_without m ue p)
  obtain ⟨m', hcarried, hsame⟩ := m₁.carryOutAmid_result config between n
    (.confirmed .confirmed) rfl
  rw [hcarried] at hended ⊢
  refine ⟨.inl hended, ?_, ?_, ?_⟩
  · intro holder _ hfound'
    exact absurd hfound' (hholder holder)
  · intro holder hfound'
    exact absurd hfound' (hholder holder)
  · intro _
    exact ⟨_, rfl, rfl, hconfirms, hsame⟩

/-- A UE with an identification under way answers with an identity of any kind. Meanwhile the
application layer may do what it likes, and the channel may be closed before any of the handler's
notifications. When the handler returns the identification is over, and a teardown that was refused,
a context that is gone or an end that could not be announced has changed nothing else. -/
theorem completion_releases (config : NasConfig) (hothers : OnlyApplication between)
    (hc : m.context? ue = some c) (hp : c.procedures.identification = some p)
    (identity : MobileIdentity) :
    Completes config between m ue c p identity
      (m.handleAmid config between (.complete ue identity)) := by
  cases identity with
  | imsi imsi =>
      obtain ⟨_, hfound⟩ := m.findHolder_found ue imsi
      generalize (m.findHolder ue imsi).2 = holder? at hfound
      cases holder? with
      | none => exact completes_of_nobody hothers hc hp hfound config
      | some holder => exact completes_of_holder hothers hc hp hfound config
  | imei i =>
      obtain ⟨m₁, hbegun, hreleased⟩ := complete_of_equipment hc hp (.imei i) (.inl rfl)
      obtain ⟨hended, hends⟩ := ends_at_once (r := .ok .confirmed) config hothers hbegun rfl
        (fun _ => rfl) hreleased
      exact ⟨.inl hended, hends⟩
  | imeisv i =>
      obtain ⟨m₁, hbegun, hreleased⟩ := complete_of_equipment hc hp (.imeisv i) (.inr rfl)
      obtain ⟨hended, hends⟩ := ends_at_once (r := .ok .confirmed) config hothers hbegun rfl
        (fun _ => rfl) hreleased
      exact ⟨.inl hended, hends⟩
  | tmsi t =>
      obtain ⟨m₁, hbegun, hreleased⟩ := complete_of_tmsi hc hp t
      obtain ⟨hended, hends⟩ := ends_at_once (r := .error (.protocolViolation ue)) config hothers
        hbegun rfl (fun _ => rfl) hreleased
      exact ⟨.inl hended, hends⟩

/-- The holder's teardown is refused, and the UE that claims its IMSI has been torn down itself. -/
theorem completion_releases_torn_down :
    ∃ (config : NasConfig) (m : Mme) (between : Nat → Interlude) (ue old : UeId) (imsi : Imsi)
      (c : Context) (p : Identification) (h : Handling) (x y : Stop),
      m.context? ue = some c ∧ c.procedures.identification = some p ∧ p.t3470.isSome ∧
      between = (fun _ => ⟨fun m => (m.emit (.contextGone ue)).tearDown ue, .refused .closed⟩) ∧
      m.handleAmid config between (.complete ue (.imsi imsi)) = h ∧
      h.Withdraws m ue c p (.context old) .closed x y ∧ h.Releases m ue p := by
  let imsi : Imsi := ⟨[0, 0, 1, 0, 1, 0], by decide⟩
  let s := ((System.idle {} 4 8).walk? (fun _ _ => True)
    [.act (.insert { ue := ⟨1⟩, state := .registered, imsi := some imsi }),
      .act (.insert { ue := ⟨2⟩, state := .deregistered }),
      .send (.start ⟨2⟩ .imsi none), .receive, .publish, .publish]).get (by decide +kernel)
  let c := (s.mme.context? ⟨2⟩).get (by decide +kernel)
  let p : Identification :=
    { id := ⟨1⟩, ue := ⟨2⟩, requested := .imsi, t3470 := some ⟨1⟩, parent := none,
      previousState := .deregistered }
  have hc : s.mme.context? ⟨2⟩ = some c := (Option.some_get _).symm
  have hp : c.procedures.identification = some p := by decide +kernel
  have hfound : Found s.mme ⟨2⟩ imsi (some (.context ⟨1⟩)) :=
    .context (by decide +kernel) (by decide) (by decide +kernel)
  let between : Nat → Interlude := fun _ =>
    ⟨fun m => (m.emit (.contextGone ⟨2⟩)).tearDown ⟨2⟩, .refused .closed⟩
  have hothers : OnlyApplication between := fun _ m => .single (.tearDown ⟨2⟩ _)
  have hcompletes := completion_releases s.config hothers hc hp (.imsi imsi)
  obtain ⟨x, y, hwithdraws⟩ := hcompletes.answered.refused (.context ⟨1⟩) .closed hfound rfl
  obtain ⟨_, hreleases⟩ := hcompletes.ended.resolve_right fun ⟨hcrashed, _⟩ => by
    cases hwithdraws.outcome.symm.trans hcrashed
  exact ⟨s.config, s.mme, between, ⟨2⟩, ⟨1⟩, imsi, c, p, _, x, y, hc, hp, rfl, rfl, rfl, hwithdraws,
    hreleases⟩

end Mme

end Emm
