import Emm.Proofs.Timekeeping

/-!
Which messages come to nothing. Main statements: `begin_ignores_iff`, by which a handler leaves the
shared state as it was and publishes nothing exactly if it finds nothing to act on; and
`received_ignored_iff`, which says the same of the EMM task.
-/

namespace Emm

namespace Mme

/-- Contexts, tables, timers and counters are the same. There may be more in the log. -/
def SameButLog (m m' : Mme) : Prop := m' = { m with log := m'.log }

/-- There is nothing for the message to act on: an order to start asks for what cannot be requested,
or for a UE that has no context or is in no state to be identified; an expiry is not that of the
timer on record; and any other message is about a UE without an identification. -/
def Rejects (m : Mme) : Message → Prop
  | .start ue requested _ =>
      requested.isRequestable = false ∨
        ∀ c, m.context? ue = some c → c.state.admitsIdentification = false
  | .expired e => m.handle? e.ue e.kind ≠ some e.timer
  | .complete ue _ | .lowerLayerFailure ue | .nonDelivery ue | .abort ue =>
      m.identification? ue = none

/-- The turn is the last one, and it leaves everything but the log as it was. -/
def Ignores (m : Mme) (turn : Mme × Progress) : Prop :=
  m.SameButLog turn.1 ∧ ∀ ue, System.phaseAfter ue turn.2 = .receiving

theorem SameButLog.refl (m : Mme) : m.SameButLog m := rfl

theorem SameButLog.trans {m m' m'' : Mme} (h : m.SameButLog m') (h' : m'.SameButLog m'') :
    m.SameButLog m'' := by
  unfold SameButLog at *
  rw [h', h]

theorem SameButLog.context? {m m' : Mme} (h : m.SameButLog m') (ue : UeId) :
    m'.context? ue = m.context? ue := by
  rw [h]
  rfl

theorem SameButLog.symm {m m' : Mme} (h : m.SameButLog m') : m'.SameButLog m := by
  unfold SameButLog
  rw [h]

variable (m : Mme) (ue : UeId)

theorem sameButLog_emit (e : Log.Event) : m.SameButLog (m.emit e) := rfl

theorem not_ignores_publish (m' : Mme) (n : Notification) (next : Resumption) :
    ¬m.Ignores (m', .publish n next) := by
  intro h
  cases h.2 n.ue

theorem Ignores.after {m m' : Mme} {turn : Mme × Progress} (h : m.SameButLog m')
    (hturn : m'.Ignores turn) : m.Ignores turn :=
  ⟨h.trans hturn.1, hturn.2⟩

theorem requestFailed_ignores (purpose : RequestPurpose) (e : IdentificationError) :
    m.Ignores (m.requestFailed ue purpose e) := by
  unfold requestFailed
  split
  · exact ⟨.refl m, fun _ => rfl⟩
  · exact ⟨m.sameButLog_emit _, fun _ => rfl⟩
  · split
    · exact ⟨m.sameButLog_emit _, fun _ => rfl⟩
    · exact ⟨m.sameButLog_emit _, fun _ => rfl⟩

theorem request_ignores_iff (purpose : RequestPurpose) :
    m.Ignores (m.request ue purpose) ↔ m.identification? ue = none := by
  cases hp : m.identification? ue with
  | none =>
      refine iff_of_true ?_ rfl
      unfold request
      split
      · exact .after (m.sameButLog_emit _) (requestFailed_ignores _ ue purpose _)
      · rename_i c hc
        rw [(identification?_eq_none m ue hc).1 hp]
        exact requestFailed_ignores m ue purpose _
  | some p =>
      refine iff_of_false ?_ nofun
      obtain ⟨n, _, heq⟩ := request_of_some m ue purpose hp
      rw [heq]
      exact m.not_ignores_publish _ _ _

theorem start_ignores_iff (requested : IdentityType) (parent : Option ProcedureId) :
    m.Ignores (m.start ue requested parent) ↔ m.Rejects (.start ue requested parent) := by
  unfold start
  split
  · rename_i hrefused
    exact iff_of_true ⟨.refl m, fun _ => rfl⟩ (.inl (by simpa using hrefused))
  · rename_i hrequestable
    split
    · rename_i habsent
      refine iff_of_true ⟨.refl m, fun _ => rfl⟩ (.inr fun c hc => ?_)
      cases habsent.symm.trans hc
    · rename_i c hc
      split
      · rename_i hinadmissible
        refine iff_of_true ⟨.refl m, fun _ => rfl⟩ (.inr fun c' hc' => ?_)
        cases hc.symm.trans hc'
        simpa using hinadmissible
      · rename_i hadmits
        refine iff_of_false ?_ ?_
        · obtain ⟨q, hrecords, _⟩ := identification?_enterIdentification m ue hc requested parent
          have hentered : ((m.enterIdentification ue c requested parent).emit
              (.initiating ue requested)).identification? ue = some q := by
            rw [identification?_emit, hrecords, Function.update_self]
          obtain ⟨n, _, heq⟩ := request_of_some _ ue .start hentered
          rw [heq]
          exact m.not_ignores_publish _ _ _
        · rintro (hrefused | hinadmissible)
          · simp [hrefused] at hrequestable
          · exact hadmits (by simp [hinadmissible c hc])

theorem settleImsi_publishes (claim : Claim) :
    ∃ m' n next, m.settleImsi claim = (m', .publish n next) := by
  unfold settleImsi
  split
  · exact ⟨_, _, _, rfl⟩
  · split
    · exact ⟨_, _, _, rfl⟩
    · exact ⟨_, _, _, rfl⟩

theorem complete_ignores_iff (identity : MobileIdentity) :
    m.Ignores (m.complete ue identity) ↔ m.identification? ue = none := by
  unfold complete
  simp only [identification?_emit]
  split
  · rename_i hnone
    exact iff_of_true ⟨(m.sameButLog_emit _).trans (sameButLog_emit _ _), fun _ => rfl⟩ hnone
  · rename_i p hp
    refine iff_of_false ?_ (by simp [hp])
    generalize Mme.modifyContext _ ue (noteEquipment identity) = m₁
    cases identity with
    | imsi imsi =>
        obtain ⟨m', n, next, heq⟩ := settleImsi_publishes m₁ ⟨ue, imsi, p.parent, p.previousState⟩
        simp only [heq]
        exact m.not_ignores_publish _ _ _
    | imei imei => exact m.not_ignores_publish _ _ _
    | imeisv imeisv => exact m.not_ignores_publish _ _ _
    | tmsi tmsi => exact m.not_ignores_publish _ _ _

theorem lowerLayerFailed_ignores_iff :
    m.Ignores (m.lowerLayerFailed ue) ↔ m.identification? ue = none := by
  unfold lowerLayerFailed
  split
  · rename_i hnone
    exact iff_of_true ⟨m.sameButLog_emit _, fun _ => rfl⟩ hnone
  · rename_i p hp
    exact iff_of_false (m.not_ignores_publish _ _ _) (by simp [hp])

/-- An abort publishes nothing, but it releases the record. -/
theorem abort_ignores_iff : m.Ignores (m.abort ue) ↔ m.identification? ue = none := by
  unfold abort
  split
  · rename_i hnone
    exact iff_of_true ⟨.refl m, fun _ => rfl⟩ hnone
  · rename_i p hp
    refine iff_of_false ?_ (by simp [hp])
    rintro ⟨hsame, _⟩
    have hreleased : (m.releaseIdentification ue).identification? ue = m.identification? ue := by
      have hcontext := hsame.context? ue
      rw [context?_emit] at hcontext
      rw [identification?, hcontext]
      rfl
    rw [identification?_releaseIdentification, Function.update_self, hp] at hreleased
    cases hreleased

theorem expired_ignores_iff (config : NasConfig) (e : Expiry) :
    m.Ignores (m.begin config (.expired e)) ↔ m.handle? e.ue e.kind ≠ some e.timer := by
  constructor
  · rintro ⟨hsame, _⟩
    have hstruck := System.handle?_begin_expired m config e
    rwa [handle?, hsame.context?] at hstruck
  · intro hstale
    obtain ⟨timer, ue, kind⟩ := e
    cases kind with
    | t3470 =>
        rw [handle?_t3470] at hstale
        simp only [Mme.begin, t3470Expired]
        split
        · exact ⟨m.sameButLog_emit _, fun _ => rfl⟩
        · rename_i c hc
          split
          · exact ⟨m.sameButLog_emit _, fun _ => rfl⟩
          · rename_i p hfound
            obtain ⟨hp, htimer⟩ := Option.filter_eq_some_iff.1 hfound
            have hident := (identification?_eq_some_iff m ue p).2 ⟨c, hc, hp⟩
            simp [hident] at hstale
            exact absurd (by simpa using htimer) hstale
    | specificRetry =>
        rw [handle?_specificRetry] at hstale
        simp only [Mme.begin, retryExpired]
        split
        · exact ⟨m.sameButLog_emit _, fun _ => rfl⟩
        · rename_i p hfound
          obtain ⟨hp, htimer⟩ := Option.filter_eq_some_iff.1 hfound
          simp [hp] at hstale
          exact absurd (by simpa using htimer) hstale

theorem begin_ignores_iff (config : NasConfig) (msg : Message) :
    m.Ignores (m.begin config msg) ↔ m.Rejects msg := by
  cases msg with
  | start ue requested parent => exact start_ignores_iff m ue requested parent
  | complete ue identity => exact complete_ignores_iff m ue identity
  | expired e => exact expired_ignores_iff m config e
  | lowerLayerFailure ue => exact lowerLayerFailed_ignores_iff m ue
  | nonDelivery ue => exact request_ignores_iff m ue .redelivery
  | abort ue => exact abort_ignores_iff m ue

theorem abort_abort : (m.abort ue).1.abort ue = ((m.abort ue).1, .done (.aborted false)) := by
  have hreleased : (m.abort ue).1.identification? ue = none := by
    unfold abort
    split
    · assumption
    · rw [identification?_emit, identification?_releaseIdentification, Function.update_self]
  generalize (m.abort ue).1 = m' at hreleased
  unfold abort
  rw [hreleased]

theorem rejects_emit (e : Log.Event) (msg : Message) : (m.emit e).Rejects msg ↔ m.Rejects msg := by
  cases msg <;> rfl

end Mme

namespace System

theorem sameButLog_follow (s : System) (ue : UeId) (p : Progress) :
    s.mme.SameButLog (s.follow ue p).mme := by
  rcases mme_follow s ue p with h | ⟨e, h⟩
  · rw [h]
    exact .refl _
  · rw [h]
    exact s.mme.sameButLog_emit e

theorem received_ignored_iff {s : System} {msg : Message} {rest : List (Envelope Message)}
    (hemm : s.emm = .receiving) (hqueue : s.inbox.queue = .message msg :: rest) :
    (∃ s', s.receive? = some s' ∧ s.mme.SameButLog s'.mme ∧ s'.emm = .receiving ∧
        s'.bus = s.bus) ↔ s.mme.Rejects msg := by
  have hreceive : s.receive? =
      some ({ s with inbox := { s.inbox with queue := rest } }.beginMessage msg) := by
    simp [receive?, hemm, Channel.receive, hqueue]
  have hreceived : s.mme.SameButLog (s.mme.emit (.exchanged .received msg.primitive msg.ue)) :=
    s.mme.sameButLog_emit _
  rw [hreceive, ← s.mme.rejects_emit (.exchanged .received msg.primitive msg.ue) msg,
    ← Mme.begin_ignores_iff _ s.config msg, beginMessage_eq]
  simp only
  generalize Mme.begin _ s.config msg = turn
  constructor
  · rintro ⟨s', hs', hsame, hphase, _⟩
    cases hs'
    refine ⟨?_, fun ue => ?_⟩
    · exact hreceived.symm.trans (hsame.trans (sameButLog_follow _ msg.ue turn.2).symm)
    · rw [emm_follow] at hphase
      cases hprogress : turn.2 with
      | done outcome =>
          rw [hprogress] at hphase
          cases outcome with
          | crashed crash => cases hphase
          | started result | completed result | handled | aborted found => rfl
      | publish n next =>
          rw [hprogress] at hphase
          cases hphase
  · rintro ⟨hsame, hphase⟩
    refine ⟨_, rfl, ?_, ?_, bus_follow _ _ _⟩
    · exact (hreceived.trans hsame).trans (sameButLog_follow _ msg.ue turn.2)
    · rw [emm_follow]
      exact hphase msg.ue

end System

end Emm
