import Emm.Proofs.Interruption
import Emm.Proofs.Residue

/-!
The end after the last retransmission. When T3470 has expired as often as the bound allows, the
handler announces the end, deletes the procedures of the UE and has the UE torn down: its session if
it has a context when the handler goes on, else what the application layer keeps for it.

Main statement: `exhaustion_tears_down_once`.
-/

namespace Emm

/-- The expiry of `timer` is that of the T3470 on the UE's record `p`, and it is the last one that
the bound allows. -/
structure Mme.Exhausts (m : Mme) (config : NasConfig) (ue : UeId) (timer : TimerId)
    (p : Identification) : Prop where
  record : m.identification? ue = some p
  current : p.t3470 = some timer
  bound : ¬p.expiries + 1 < config.maxRetransmissions

/-- The order that follows the end of an identification given up after the last retransmission. -/
def Mme.followUp (m : Mme) (ue : UeId) : Notification :=
  if (m.context? ue).isSome then .teardownSession ue .implicitlyDetached
  else .applicationTeardown ue

namespace Mme

variable {m m₁ m₂ : Mme} {ue : UeId} {config : NasConfig} {between : Nat → Interlude}

theorem sameButLog_noteRefusal (m : Mme) (n : Notification) (d : Delivery) :
    m.SameButLog (m.noteRefusal n d) := by
  cases d with
  | accepted => exact .refl m
  | refused e => exact m.sameButLog_emit _

theorem clears_noteRefusal (m : Mme) (ue : UeId) (n : Notification) (d : Delivery) :
    m.Clears ue ((m.noteRefusal n d).deleteProcedures ue) :=
  (clears_deleteProcedures _ ue).of_sameButLog (m.sameButLog_noteRefusal n d)

theorem resume_exhausted (m : Mme) (config : NasConfig) (n : Notification) (d : Delivery)
    (ue : UeId) :
    ∃ m', m.resume config n (.exhausted ue) d = (m', .publish (m.followUp ue) .finished) ∧
      m.Clears ue m' := by
  have hcleared := m.clears_noteRefusal ue n d
  have hpresent := hcleared.isSome_context?
  simp only [resume]
  generalize (m.noteRefusal n d).deleteProcedures ue = m₁ at hcleared hpresent
  unfold followExhaustion followUp
  rw [contains_eq_isSome, ← hpresent]
  split
  · exact ⟨_, rfl, hcleared.log (m₁.sameButLog_emit _)⟩
  · exact ⟨_, rfl, hcleared.log (m₁.sameButLog_emit _)⟩

theorem carryOutAmid_finished (m : Mme) (config : NasConfig) (between : Nat → Interlude)
    (n : Notification) :
    ∃ m', m.carryOutAmid config between (.publish n .finished) =
        ⟨m', [m.stopAt config (between 0) n .finished], .handled⟩ ∧
      (m.stopAt config (between 0) n .finished).resuming.SameButLog m' := by
  have hlast := m.carryOutAmid_publish config between n .finished rfl
  rw [carryOutAmid_done] at hlast
  exact ⟨_, hlast, sameButLog_noteRefusal _ n _⟩

/-- The stops of the handler of the last expiry: at `x` it announces the end, and at `y` it orders
the UE to be torn down. Once it goes on after `x` it deletes the procedures of the UE. -/
structure GivesUp (config : NasConfig) (between : Nat → Interlude) (m : Mme) (ue : UeId)
    (p : Identification) (x y : Stop) (h : Handling) : Prop where
  stops : h.stops = [x, y]
  outcome : h.outcome = .handled
  announced : x.notification = .procedureAborted ue
    { notify := false, free := true, previousState := p.previousState } .retransmissionExceeded
  decided : ∃ c, m.context? ue = some c ∧
    m.Differs ue c { c.procedures with identification := some p.counted } m.timers x.waiting
  resuming : x.resuming =
    ((between 0).others x.waiting).offered x.notification (between 0).delivery
  cleared : x.resuming.Clears ue x.reached
  ordering : y.waiting = x.reached
  followed : y.notification = x.resuming.followUp ue
  settled : y.resuming.SameButLog h.after
  deliveries : x.delivery = (between 0).delivery ∧ y.delivery = (between 1).delivery

theorem givesUp_of_exhausts {timer : TimerId} {p : Identification}
    (hlast : m.Exhausts config ue timer p) (between : Nat → Interlude) :
    ∃ x y, GivesUp config between m ue p x y
      (m.handleAmid config between (.expired ⟨timer, ue, .t3470⟩)) := by
  obtain ⟨c, hc, hp⟩ := (identification?_eq_some_iff m ue p).1 hlast.record
  obtain ⟨m₁, hbegun, hcounted⟩ := t3470Expired_of_last hc hp hlast.current hlast.bound
  let n : Notification := .procedureAborted ue
    { notify := false, free := true, previousState := p.previousState } .retransmissionExceeded
  let x := m₁.stopAt config (between 0) n (.exhausted ue)
  obtain ⟨m₂, hturn, hcleared⟩ := x.resuming.resume_exhausted config n (between 0).delivery ue
  obtain ⟨m₃, hended, hsame⟩ := m₂.carryOutAmid_finished config (fun k => between (k + 1))
    (x.resuming.followUp ue)
  have hreached : x.reached = m₂ := congrArg Prod.fst hturn
  rw [handleAmid_eq m config between (.expired ⟨timer, ue, .t3470⟩) hbegun,
    carryOutAmid_publish m₁ config between n (.exhausted ue) hturn, hended]
  refine ⟨x, m₂.stopAt config (between 1) (x.resuming.followUp ue) .finished, rfl, rfl, rfl,
    ⟨c, hc, hcounted⟩, rfl, ?_, hreached.symm, rfl, hsame, rfl, rfl⟩
  rw [hreached]
  exact hcleared

end Mme

namespace System

variable {s s₁ s₂ s₃ s' : System} {ue : UeId} {n : Notification}

theorem taken?_eq_some {x : Moment} (h : x.taken? = some n) :
    x.move = .take ∧ ∃ rest, x.before.bus.queue = .message n :: rest := by
  unfold Moment.taken? at h
  split at h
  · rename_i hmove hqueue
    cases h
    exact ⟨hmove, _, hqueue⟩
  · cases h

theorem receive_exhausts {timer : TimerId} {p : Identification} {inbox : List (Envelope Message)}
    (hemm : s.emm = .receiving)
    (hqueue : s.inbox.queue = .message (.expired ⟨timer, ue, .t3470⟩) :: inbox)
    (hlast : s.mme.Exhausts s.config ue timer p) (hreceive : s.step? .receive = some s₁) :
    s₁.emm = .publishing ue (.procedureAborted ue
      { notify := false, free := true, previousState := p.previousState } .retransmissionExceeded)
      (.exhausted ue) := by
  obtain ⟨c, hc, hp⟩ := (Mme.identification?_eq_some_iff s.mme ue p).1 hlast.record
  obtain ⟨m', hexpired, _⟩ := Mme.t3470Expired_of_last (m := s.mme.emit _) hc hp hlast.current
    hlast.bound
  have hbegun : s₁ = _ := Option.some.inj (hreceive.symm.trans (receive_message hemm hqueue))
  rw [hbegun]
  exact (beginMessage_of_publish (s := { s with inbox := { s.inbox with queue := inbox } })
    (.expired ⟨timer, ue, .t3470⟩) hexpired).2

theorem publish_exhausted (hemm : s.emm = .publishing ue n (.exhausted ue))
    (hstep : s.step? .publish = some s') :
    s'.emm = .publishing ue (s.mme.followUp ue) .finished ∧ s.mme.Clears ue s'.mme := by
  obtain ⟨d, t, p, hturn, _, rfl⟩ := goes_on hemm hstep
  obtain ⟨m', hresume, hcleared⟩ := (s.mme.offered n d).resume_exhausted s.config n d ue
  have hsame := s.mme.sameButLog_offered n d
  have hfollowUp : (s.mme.offered n d).followUp ue = s.mme.followUp ue := by
    rw [Mme.followUp, hsame.context?]
    rfl
  cases hturn.symm.trans hresume
  exact ⟨hfollowUp ▸ rfl, hcleared.of_sameButLog hsame⟩

/-- In the wired MME nothing is left of the UE once the order to tear it down has been handled. -/
theorem free_after_exhaustion {config : NasConfig} {inboxCapacity busCapacity : Nat}
    {timer : TimerId} {p : Identification} {inbox : List (Envelope Message)} {s₄ s₅ : System}
    {mid₁ mid₂ ms : List Moment}
    (h : Reachable InService (idle config inboxCapacity busCapacity) s) (hemm : s.emm = .receiving)
    (hqueue : s.inbox.queue = .message (.expired ⟨timer, ue, .t3470⟩) :: inbox)
    (hlast : s.mme.Exhausts s.config ue timer p)
    (path : Path (fun s a => s.InService a ∧ a.stores? ≠ some ue) s
      (⟨s, .receive, s₁⟩ :: (mid₁ ++ ⟨s₂, .publish, s₃⟩ :: (mid₂ ++ ⟨s₄, .publish, s₅⟩ :: ms))) s')
    (hquiet : ∀ x ∈ mid₁ ++ mid₂, x.move ≠ .publish)
    (hpublished : Moment.published? ⟨s₄, .publish, s₅⟩ = some n)
    (htaken : ∃ x ∈ ms, x.taken? = some n) :
    n = s₂.mme.followUp ue ∧ s'.mme.FreeOf ue := by
  obtain ⟨ms₀, path₀⟩ := h
  have hsplit : Path _ s ([] ++ ⟨s, .receive, s₁⟩ :: _) s' := path
  obtain ⟨_, hok, hreceive, path₁⟩ := hsplit.split
  obtain ⟨waiting₁, hok₂, hpublish₂, path₃⟩ := path₁.split
  obtain ⟨waiting₂, hok₄, hpublish₄, path₅⟩ := path₃.split
  have reached₃ := ((path₀.snoc hok.1 hreceive).append (waiting₁.mono fun _ _ h => h.1)).snoc hok₂.1
    hpublish₂
  have reached₅ := (reached₃.append (waiting₂.mono fun _ _ h => h.1)).snoc hok₄.1 hpublish₄
  have hemm₂ := still_waiting waiting₁ (receive_exhausts hemm hqueue hlast hreceive)
    fun x hx => hquiet x (List.mem_append_left _ hx)
  obtain ⟨hemm₃, hcleared⟩ := publish_exhausted hemm₂ hpublish₂
  have hemm₄ := still_waiting waiting₂ hemm₃ fun x hx => hquiet x (List.mem_append_right _ hx)
  obtain ⟨_, _, _, hordered⟩ := published?_eq_some hpublished
  cases hordered.symm.trans hemm₄
  refine ⟨rfl, ?_⟩
  cases hc : s₂.mme.context? ue with
  | none =>
      have habsent := ((hcleared.absent hc).context? ue).trans hc
      exact free_of_absent ⟨_, reached₃⟩ habsent path₃
  | some c =>
      obtain ⟨x, hx, htaken⟩ := htaken
      obtain ⟨hmove, rest, hnext⟩ := taken?_eq_some htaken
      obtain ⟨pre, post, rfl⟩ := List.append_of_mem hx
      obtain ⟨before, hokx, htake, after⟩ := path₅.split
      have reached := (reached₅.append (before.mono fun _ _ h => h.1)).snoc hokx.1 htake
      rw [hmove] at htake
      rw [Mme.followUp, hc] at hnext
      exact free_of_absent ⟨_, reached⟩ (absent_of_take hnext htake) after

end System

/-- Exhaustion is followed by exactly one order to tear the UE down. Whatever others do to the
shared state at the handler's stops, and whether or not its notifications are taken, it announces
the end and then orders the session to be torn down if the UE has a context when the handler goes
on, and else the application layer to let go of the UE.

In the wired MME nothing is left of the UE once the application task has handled the order, unless
a context has been stored for the UE again. -/
theorem exhaustion_tears_down_once :
    (∀ (config : NasConfig) (m : Mme) (ue : UeId) (timer : TimerId) (p : Identification)
      (between : Nat → Interlude), m.Exhausts config ue timer p →
      ∃ x y, Mme.GivesUp config between m ue p x y
          (m.handleAmid config between (.expired ⟨timer, ue, .t3470⟩)) ∧
        ((∀ k, (between k).delivery = .accepted) →
          (m.handleAmid config between (.expired ⟨timer, ue, .t3470⟩)).published =
            [.procedureAborted ue
              { notify := false, free := true, previousState := p.previousState }
              .retransmissionExceeded, x.resuming.followUp ue])) ∧
    (∀ (config : NasConfig) (inboxCapacity busCapacity : Nat) (s s₁ s₂ s₃ s₄ s₅ s' : System)
      (ue : UeId) (timer : TimerId) (p : Identification) (inbox : List (Envelope Message))
      (n : Notification) (mid₁ mid₂ ms : List Moment),
      Reachable System.InService (.idle config inboxCapacity busCapacity) s →
      s.emm = .receiving → s.inbox.queue = .message (.expired ⟨timer, ue, .t3470⟩) :: inbox →
      s.mme.Exhausts s.config ue timer p →
      Path (fun s a => s.InService a ∧ a.stores? ≠ some ue) s
        (⟨s, .receive, s₁⟩ ::
          (mid₁ ++ ⟨s₂, .publish, s₃⟩ :: (mid₂ ++ ⟨s₄, .publish, s₅⟩ :: ms))) s' →
      (∀ x ∈ mid₁ ++ mid₂, x.move ≠ .publish) →
      Moment.published? ⟨s₄, .publish, s₅⟩ = some n → (∃ x ∈ ms, x.taken? = some n) →
      n = s₂.mme.followUp ue ∧ s'.mme.FreeOf ue) := by
  constructor
  · intro config m ue timer p between hlast
    obtain ⟨x, y, hgivesUp⟩ := Mme.givesUp_of_exhausts hlast between
    refine ⟨x, y, hgivesUp, fun hopen => ?_⟩
    obtain ⟨hx, hy⟩ := hgivesUp.deliveries
    rw [Handling.published, hgivesUp.stops]
    simp [hx, hy, hopen, hgivesUp.announced, hgivesUp.followed]
  · intro config inboxCapacity busCapacity s s₁ s₂ s₃ s₄ s₅ s' ue timer p inbox n mid₁ mid₂ ms h
      hemm hqueue hlast path hquiet hpublished htaken
    exact System.free_after_exhaustion h hemm hqueue hlast path hquiet hpublished htaken

/-- The UE is torn down by its owner while the handler waits to announce the end. -/
theorem exhaustion_tears_down_once_gone :
    ∃ s₂ s' : System, s₂.mme.followUp ⟨1⟩ = .applicationTeardown ⟨1⟩ ∧ s'.handled = 2 ∧
      s'.bus.queue = [] ∧ s'.mme.FreeOf ⟨1⟩ := by
  let ok := fun (s : System) (a : Move) => s.InService a ∧ a.stores? ≠ some ⟨1⟩
  let s := ((System.idle { maxRetransmissions := 1 } 4 8).walk? System.InService
    [.act (.insert { ue := ⟨1⟩, state := .registered }), .send (.start ⟨1⟩ .imsi none), .receive,
      .publish, .publish, .take, .take, .advance ⟨6000⟩, .fire ⟨1⟩, .deliver]).get
        (by decide +kernel)
  let s₁ := (s.step? .receive).get (by decide +kernel)
  let s₂ := (s₁.step? (.tearDown ⟨1⟩)).get (by decide +kernel)
  let s₃ := (s₂.step? .publish).get (by decide +kernel)
  let s₅ := (s₃.step? .publish).get (by decide +kernel)
  let s₆ := (s₅.step? .take).get (by decide +kernel)
  let s' := (s₆.step? .take).get (by decide +kernel)
  let p : Identification :=
    { id := ⟨1⟩, ue := ⟨1⟩, requested := .imsi, t3470 := some ⟨1⟩, parent := none,
      previousState := .registered }
  have hreachable : Reachable System.InService (.idle { maxRetransmissions := 1 } 4 8) s :=
    Path.of_walk? (Option.some_get _).symm
  have hlast : s.mme.Exhausts s.config ⟨1⟩ ⟨1⟩ p :=
    ⟨by decide +kernel, rfl, by decide +kernel⟩
  have path₁ : Path ok s₅ [⟨s₅, .take, s₆⟩, ⟨s₆, .take, s'⟩] s' :=
    .cons (by decide +kernel) (Option.some_get _).symm
      (.cons (by decide +kernel) (Option.some_get _).symm .nil)
  have path : Path ok s (⟨s, .receive, s₁⟩ :: ([⟨s₁, .tearDown ⟨1⟩, s₂⟩] ++ ⟨s₂, .publish, s₃⟩ ::
      ([] ++ ⟨s₃, .publish, s₅⟩ :: [⟨s₅, .take, s₆⟩, ⟨s₆, .take, s'⟩]))) s' :=
    .cons (by decide +kernel) (Option.some_get _).symm
      (.cons (by decide +kernel) (Option.some_get _).symm
        (.cons (by decide +kernel) (Option.some_get _).symm
          (.cons (by decide +kernel) (Option.some_get _).symm path₁)))
  have htaken : Moment.taken? ⟨s₆, .take, s'⟩ = some (.applicationTeardown ⟨1⟩) := by
    decide +kernel
  obtain ⟨hordered, hfree⟩ := exhaustion_tears_down_once.2 _ 4 8 s s₁ s₂ s₃ s₃ s₅ s' ⟨1⟩ ⟨1⟩ p [] _
    _ _ _ hreachable (by decide +kernel) (by decide +kernel) hlast path (by simp)
    (by decide +kernel : Moment.published? ⟨s₃, .publish, s₅⟩ = some (.applicationTeardown ⟨1⟩))
    ⟨_, List.mem_cons_of_mem _ (List.mem_singleton_self _), htaken⟩
  exact ⟨s₂, s', hordered.symm, by decide +kernel, by decide +kernel, hfree⟩

end Emm
