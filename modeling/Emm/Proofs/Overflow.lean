import Emm.Proofs.Deferral
import Emm.Proofs.Interruption
import Emm.Proofs.Quiescence
import Emm.Proofs.Standstill

/-!
Where arithmetic can fail. The count on a record is compared with the bound each time it has gone
up, and no interval is too long for a timer; but the time at which a parked procedure is to be
resumed is a reading of the clock, and the clock may be unable to express it. Main statement:
`crashes_iff_outruns`, by which nothing else makes a handler crash, in whichever state and whatever
comes between its notifications.
-/

namespace Emm

namespace Mme

variable {m : Mme} {ue : UeId} {interval : Duration} {parent : Option ProcedureId} {q : Specific}

/-- A procedure that would have to wait beyond the end of the clock has its retry timer running when
the handler crashes. -/
theorem parkParent_of_overflow (old : UeId) (hq : m.specific? ue = some q)
    (hoverflow : m.timers.now.after? interval = none) :
    m.parkParent interval ue (some q.id) old =
      (((m.stopTimers q.retryTimer.toList).startTimer ue .specificRetry interval).2.setSpecific ue
        (some { q with retryTimer := some m.timers.nextId }), some .deadlineOverflow) := by
  have hfound : (m.context? ue).bind (·.procedures.specific? q.id) = some q := by
    rw [find_specific, hq]
    simp
  unfold parkParent
  simp only [hfound, timers_startTimer, timers_stopTimers, Timers.start, hoverflow,
    fst_startTimer]

theorem parkParent_crashes_iff (old : UeId) :
    (∃ crash, (m.parkParent interval ue parent old).2 = some crash) ↔
      (∃ q, m.specific? ue = some q ∧ parent = some q.id) ∧
        m.timers.now.after? interval = none := by
  by_cases hparent : ∃ q, m.specific? ue = some q ∧ parent = some q.id
  · obtain ⟨q, hq, rfl⟩ := hparent
    cases hdeadline : m.timers.now.after? interval with
    | none =>
        rw [parkParent_of_overflow old hq hdeadline]
        exact iff_of_true ⟨_, rfl⟩ ⟨⟨q, hq, rfl⟩, rfl⟩
    | some deadline =>
        rw [parkParent_of_parent old hq hdeadline]
        exact iff_of_false nofun nofun
  · obtain ⟨e, heq⟩ := parkParent_of_no_parent interval old
      fun q hq hid => hparent ⟨q, hq, hid⟩
    rw [heq]
    exact iff_of_false nofun fun h => hparent h.1

theorem displace_crashes_iff (holder : Holder) :
    (∃ crash, (m.displace interval ue parent holder).2 = some crash) ↔
      (∃ q, m.specific? ue = some q ∧ parent = some q.id) ∧
        m.timers.now.after? interval = none := by
  have hspecific : (m.blame holder).specific? = m.specific? := by
    cases holder with
    | context old => exact m.specific?_modifyContext old fun _ => rfl
    | application old => rfl
  rw [displace_eq, parkParent_crashes_iff, hspecific, timers_blame]

variable {config : NasConfig} {between : Nat → Interlude} {msg : Message}

theorem carryOutAmid_sound {p : Progress} (hsound : p.IsSound) (hnone : p.displacing? = none)
    (crash : Crash) : (m.carryOutAmid config between p).outcome ≠ .crashed crash := by
  induction hrank : p.rank using Nat.strong_induction_on generalizing m between p with
  | h rank ih =>
      cases p with
      | done outcome =>
          rw [carryOutAmid_done]
          rintro rfl
          exact hsound crash rfl
      | publish n next =>
          obtain ⟨m₁, p, hturn⟩ : ∃ m₁ p, m.resumeAmid config (between 0) n next = (m₁, p) :=
            ⟨_, _, rfl⟩
          rw [carryOutAmid_publish m config between n next hturn]
          rw [resumeAmid] at hturn
          generalize ((between 0).others m).offered n (between 0).delivery = r at hturn
          generalize (between 0).delivery = d at hturn
          have hlower := r.resume_rank_le config n next d
          have haside := (r.resume_aside config n next d).displacing
          have hresumed := r.resume_resumed config n next d
          rw [hturn] at hlower haside hresumed
          have hsound₁ : p.IsSound := by
            refine hresumed.isSound_or_stuck.resolve_right ?_
            rintro ⟨⟨claim, holder, rfl⟩, _⟩
            cases hnone
          exact ih p.rank (hrank ▸ Nat.lt_succ_of_le hlower) hsound₁ haside rfl

theorem displaced_crashes_iff (claim : Claim) (holder : Holder) (n : Notification) :
    (∃ crash, (m.carryOutAmid config between (.publish n (.displaced claim holder))).outcome =
        .crashed crash) ↔
      (between 0).delivery = .accepted ∧
        (∃ q, ((between 0).others m).specific? claim.ue = some q ∧ claim.parent = some q.id) ∧
        ((between 0).others m).timers.now.after? config.retryInterval = none := by
  obtain ⟨m₁, p, hturn⟩ : ∃ m₁ p,
      m.resumeAmid config (between 0) n (.displaced claim holder) = (m₁, p) := ⟨_, _, rfl⟩
  rw [carryOutAmid_publish m config between _ _ hturn]
  simp only [resumeAmid] at hturn
  generalize (between 0).others m = r at hturn ⊢
  cases hdelivery : (between 0).delivery with
  | refused e =>
      rw [hdelivery] at hturn
      cases hturn
      refine iff_of_false ?_ nofun
      rintro ⟨crash, hcrash⟩
      exact carryOutAmid_sound (Progress.isSound_publish _ _) rfl crash hcrash
  | accepted =>
      rw [hdelivery] at hturn
      have hiff : (∃ crash, ((r.offered n .accepted).displace config.retryInterval claim.ue
          claim.parent holder).2 = some crash) ↔ _ := displace_crashes_iff holder
      simp only [resume] at hturn
      split at hturn
      · rename_i m₂ hdisplace
        rw [hdisplace] at hiff
        cases hturn
        refine iff_of_false ?_ fun h => ?_
        · rintro ⟨crash, hcrash⟩
          exact carryOutAmid_sound (Progress.isSound_publish _ _) rfl crash hcrash
        · obtain ⟨_, hcrash⟩ := hiff.2 h.2
          cases hcrash
      · rename_i m₂ crash hdisplace
        rw [hdisplace] at hiff
        cases hturn
        rw [carryOutAmid_done]
        exact iff_of_true ⟨crash, rfl⟩ ⟨rfl, hiff.1 ⟨crash, rfl⟩⟩

/-- The UE answers with an IMSI that `holder` is found to own, and the order to tear that one down
is taken. When the handler goes on, the UE still runs the procedure `q` for which it has been
identified, and the time at which `q` is to be resumed lies beyond what the clock can express. -/
structure Outruns (m : Mme) (config : NasConfig) (between : Nat → Interlude) (ue : UeId)
    (imsi : Imsi) (holder : Holder) (q : Specific) : Prop where
  parent : (m.identification? ue).bind (·.parent) = some q.id
  found : Found m ue imsi (some holder)
  taken : (between 0).delivery = .accepted
  running : ((between 0).others (m.complete ue (.imsi imsi)).1).specific? ue = some q
  overflow : ((between 0).others (m.complete ue (.imsi imsi)).1).timers.now.after?
    config.retryInterval = none

theorem handleAmid_crashes_iff :
    (∃ crash, (m.handleAmid config between msg).outcome = .crashed crash) ↔
      ∃ ue imsi holder q, msg = .complete ue (.imsi imsi) ∧
        m.Outruns config between ue imsi holder q := by
  by_cases hcollides : ∃ ue imsi p holder, msg = .complete ue (.imsi imsi) ∧
      m.identification? ue = some p ∧ Found m ue imsi (some holder)
  · obtain ⟨ue, imsi, p, holder, rfl, hp, hfound⟩ := hcollides
    obtain ⟨c, hc, hrecord⟩ := (identification?_eq_some_iff m ue p).1 hp
    obtain ⟨m₁, hcomplete, _⟩ := complete_of_holder hc hrecord hfound
    have hbegin : m.begin config (.complete ue (.imsi imsi)) = _ := hcomplete
    rw [handleAmid_eq m config between _ hbegin, displaced_crashes_iff]
    constructor
    · rintro ⟨htaken, ⟨q, hq, hparent⟩, hoverflow⟩
      refine ⟨ue, imsi, holder, q, rfl, ?_, hfound, htaken, ?_, ?_⟩
      · rw [hp]
        exact hparent
      · rw [hcomplete]
        exact hq
      · rw [hcomplete]
        exact hoverflow
    · rintro ⟨_, _, _, q, ⟨⟩, houtruns⟩
      have hparent := houtruns.parent
      have hrunning := houtruns.running
      have hoverflow := houtruns.overflow
      rw [hp] at hparent
      rw [hcomplete] at hrunning hoverflow
      exact ⟨houtruns.taken, ⟨q, hrunning, hparent⟩, hoverflow⟩
  · -- The message is another one, or it finds nobody in the way of its IMSI.
    refine iff_of_false ?_ ?_
    · rintro ⟨crash, hcrash⟩
      obtain ⟨m₁, p, hbegin⟩ : ∃ m₁ p, m.begin config msg = (m₁, p) := ⟨_, _, rfl⟩
      have hsound := (m.begin_begun config msg).isSound
      have hsettles := m.begin_settles config msg
      rw [hbegin] at hsound hsettles
      rw [handleAmid_eq m config between msg hbegin] at hcrash
      refine carryOutAmid_sound hsound ?_ crash hcrash
      cases hsettles with
      | aside haside => exact haside.displacing
      | takes hp htakes =>
          cases htakes with
          | displaces hfound => exact absurd ⟨_, _, _, _, rfl, hp, hfound⟩ hcollides
          | assigns => rfl
    · rintro ⟨ue, imsi, holder, q, rfl, houtruns⟩
      obtain ⟨p, hp, _⟩ := Option.bind_eq_some_iff.1 houtruns.parent
      exact hcollides ⟨ue, imsi, p, holder, rfl, hp, houtruns.found⟩

end Mme

namespace System

variable {config : NasConfig} {inboxCapacity busCapacity : Nat} {ms : List Moment} {s : System}

/-- Whatever state a run with usable settings has led to, and whatever others do at the stops of the
handler, a message or an expiry makes it crash in one case only: there is a collision to sort out,
and the time at which the parent is to be resumed lies beyond what the clock can express. The count
of expiries never comes round: it stays within the bound, and below it where it is to go up. -/
theorem crashes_iff_outruns
    (path : Path SparesRecords (idle config inboxCapacity busCapacity) ms s)
    (hvalid : config.validate = .ok ()) :
    (∀ msg between, (∃ crash, (s.mme.handleAmid config between msg).outcome = .crashed crash) ↔
      ∃ ue imsi holder q, msg = .complete ue (.imsi imsi) ∧
        s.mme.Outruns config between ue imsi holder q) ∧
    ∀ ue p, s.mme.identification? ue = some p →
      p.expiries ≤ config.maxRetransmissions ∧
        (s.emm = .receiving → p.expiries < config.maxRetransmissions ∧
          p.counted.expiries.toNat = p.expiries.toNat + 1) := by
  refine ⟨fun msg between => Mme.handleAmid_crashes_iff, fun ue p hp => ?_⟩
  have hbounded : s.Bounded :=
    path.induct nofun fun _ _ _ hok hstep hs => bounded_step hok hstep hs
  have hconfig : s.config = config := config_of_path path
  have hbound : config.bound = config.maxRetransmissions.toNat := by
    have hpos : config.maxRetransmissions.toNat ≠ 0 := fun hzero =>
      (NasConfig.validate_eq_ok_iff.1 hvalid).2.1 (UInt32.toNat_inj.1 hzero)
    simp only [NasConfig.bound]
    omega
  refine ⟨?_, fun hemm => ?_⟩
  · have hle := hbounded ue p hp
    rw [hconfig, hbound] at hle
    rw [UInt32.le_iff_toNat_le]
    omega
  · have hbelow := hbounded.below hemm hp
    refine ⟨?_, Identification.toNat_counted hbelow⟩
    rw [hconfig, hbound] at hbelow
    exact UInt32.lt_iff_toNat_lt.2 hbelow

/-- With a retry interval of one second the attach of UE 2 is parked until UE 1 has gone, and no
handler crashes. -/
theorem crashes_iff_outruns_of_second :
    ∃ ms s imsi q p, Path SparesRecords (idle {} 4 8) ms s ∧
      Found s.mme ⟨2⟩ imsi (some (.context ⟨1⟩)) ∧ s.mme.specific? ⟨2⟩ = some q ∧
      s.mme.identification? ⟨2⟩ = some p ∧ p.parent = some q.id ∧
      (∀ crash, (s.mme.handleAmid {} (fun _ => .still) (.complete ⟨2⟩ (.imsi imsi))).outcome ≠
        .crashed crash) ∧
      p.counted.expiries.toNat = p.expiries.toNat + 1 := by
  let x : Imsi := ⟨[0, 0, 1, 0, 1, 0], by decide⟩
  let s := ((idle {} 4 8).walk? SparesRecords
    [.act (.insert { ue := ⟨1⟩, state := .registered, imsi := some x }),
      .act (.insert { ue := ⟨2⟩, state := .registered }), .act (.beginSpecific ⟨2⟩ .attach),
      .send (.start ⟨2⟩ .imsi (some ⟨1⟩)), .receive, .publish, .publish]).get (by decide +kernel)
  obtain ⟨ms, path⟩ : ∃ ms, Path SparesRecords (idle {} 4 8) ms s :=
    Path.of_walk? (Option.some_get _).symm
  obtain ⟨hcrash, hcount⟩ := crashes_iff_outruns path rfl
  let q := (s.mme.specific? ⟨2⟩).get (by decide +kernel)
  let p := (s.mme.identification? ⟨2⟩).get (by decide +kernel)
  have hp : s.mme.identification? ⟨2⟩ = some p := (Option.some_get _).symm
  have hfound : Found s.mme ⟨2⟩ x (some (.context ⟨1⟩)) :=
    .context (by decide +kernel) (by decide) (by decide +kernel)
  refine ⟨ms, s, x, q, p, path, hfound, (Option.some_get _).symm, hp, by decide +kernel, ?_,
    ((hcount ⟨2⟩ p hp).2 (by decide +kernel)).2⟩
  intro crash houtcome
  obtain ⟨_, _, _, _, hmsg, houtruns⟩ := (hcrash _ _).1 ⟨crash, houtcome⟩
  cases hmsg
  have hoverflow := houtruns.overflow
  revert hoverflow
  decide +kernel

instance (phase : EmmPhase) (crash : Mme.Crash) : Decidable (phase = .crashed crash) :=
  match phase with
  | .crashed crash' => decidable_of_iff (crash' = crash) (EmmPhase.crashed.injEq .. ▸ .rfl)
  | .receiving | .publishing .. | .stopped => .isFalse nofun

/-- The longest retry interval is a usable setting, and the EMM task crashes with it as soon as a UE
whose attach waits for its identification answers with the IMSI of another one. -/
theorem crash_with_usable_settings :
    ∃ (config : NasConfig) (s s₁ s₂ : System) (imsi : Imsi), config.validate = .ok () ∧
      Reachable InService (idle config 4 8) s ∧
      s.inbox.queue = [.message (.complete ⟨2⟩ (.imsi imsi))] ∧
      s.step? .receive = some s₁ ∧ s₁.step? .publish = some s₂ ∧
      s₂.emm = .crashed .deadlineOverflow := by
  let x : Imsi := ⟨[0, 0, 1, 0, 1, 0], by decide⟩
  let config : NasConfig := { retrySeconds := 18446744073709551615 }
  let s := ((idle config 4 8).walk? InService
    [.act (.insert { ue := ⟨1⟩, state := .registered }),
      .act (.insert { ue := ⟨2⟩, state := .registered }),
      .send (.start ⟨1⟩ .imsi none), .receive, .publish, .publish,
      .send (.complete ⟨1⟩ (.imsi x)), .receive, .publish,
      .act (.beginSpecific ⟨2⟩ .attach),
      .send (.start ⟨2⟩ .imsi (some ⟨2⟩)), .receive, .publish, .publish,
      .send (.complete ⟨2⟩ (.imsi x))]).get (by decide +kernel)
  let s₁ := (s.step? .receive).get (by decide +kernel)
  let s₂ := (s₁.step? .publish).get (by decide +kernel)
  exact ⟨config, s, s₁, s₂, x, rfl, Path.of_walk? (Option.some_get _).symm, by decide +kernel,
    (Option.some_get _).symm, (Option.some_get _).symm, by decide +kernel⟩

end System

end Emm
