import Emm.Proofs.Bookkeeping

/-!
The program as it is wired: expiries come from the timers, contexts are stored blank and under new
identifiers, and the application task alone removes them. `Wired` says so of a run.

Main statement: `sound_step`. In a wired run the ledger of timers stays sound.
-/

namespace Emm

/-- What the owner of the contexts may do to the shared state: store a context without procedures
for a UE that has none, begin a specific procedure where no retry timer would be lost, change the
state or the security context of a UE, and stop all timers for good. -/
def Mme.Admits (m : Mme) : Bench.Action → Prop
  | .insert c => m.context? c.ue = none ∧ c.procedures = {}
  | .beginSpecific ue _ => m.handle? ue .specificRetry = none
  | .contains _ | .setState .. | .setSecurity .. | .takeProcedureId | .findSpecific .. => True
  | .stopAllTimers => True
  | _ => False

instance (m : Mme) : (action : Bench.Action) → Decidable (m.Admits action)
  | .insert _ => inferInstanceAs (Decidable (_ ∧ _))
  | .beginSpecific .. => inferInstanceAs (Decidable (_ = _))
  | .contains _ | .setState .. | .setSecurity .. | .takeProcedureId | .findSpecific ..
  | .stopAllTimers => .isTrue trivial
  | .remove _ | .removeHeld .. | .setImsi .. | .claim .. | .register .. | .unregister _
  | .endSpecific _ | .endIdentification _ | .endAll _ | .armRetry .. | .startTimer ..
  | .stopTimer _ => .isFalse id

namespace System

/-- In the program as it is wired nobody but the timers sends expiries. -/
def Wired (s : System) : Move → Prop
  | .send msg => msg.expiry? = none
  | .act action => s.mme.Admits action
  | _ => True

/-- No identifier is used twice: the counter, which starts at one, has not come round to zero. -/
def FreshIds (s : System) : Prop := s.mme.timers.nextId.val ≠ 0

instance (s : System) : (a : Move) → Decidable (s.Wired a)
  | .send _ => inferInstanceAs (Decidable (_ = _))
  | .act action => inferInstanceAs (Decidable (s.mme.Admits action))
  | .receive | .publish | .take | .discard | .fire _ | .deliver | .advance _ | .askEmmToStop
  | .askAppToStop | .closeBus | .tearDown _ => .isTrue trivial

instance (s : System) : Decidable s.FreshIds := inferInstanceAs (Decidable (_ ≠ _))

/-- The moves of the program as it is wired, as long as the identifiers of timers last. -/
def InService (s : System) (a : Move) : Prop := s.Wired a ∧ s.FreshIds

instance (s : System) (a : Move) : Decidable (s.InService a) := inferInstanceAs (Decidable (_ ∧ _))

/-- The expiries on their way to the EMM task, inside its inbox or before it. -/
def undelivered (s : System) : List Expiry :=
  s.expiries ++ s.inbox.queue.filterMap fun e => e.payload?.bind (·.expiry?)

theorem mem_undelivered {s : System} {e : Expiry} :
    e ∈ s.undelivered ↔ e ∈ s.expiries ∨ .message (.expired e) ∈ s.inbox.queue := by
  have hexpiry : ∀ msg : Message, msg.expiry? = some e ↔ msg = .expired e := by
    intro msg
    cases msg <;> simp [Message.expiry?]
  have hqueued : (∃ x ∈ s.inbox.queue, (x.payload?.bind (·.expiry?)) = some e) ↔
      .message (.expired e) ∈ s.inbox.queue := by
    constructor
    · rintro ⟨_ | _, hmem, heq⟩
      · rename_i msg
        rw [← (hexpiry msg).1 heq]
        exact hmem
      · cases heq
    · intro hmem
      exact ⟨_, hmem, rfl⟩
  rw [undelivered, List.mem_append, List.mem_filterMap, hqueued]

end System

namespace Ledger

variable {occasion : Occasion} {l l' : Ledger} {due : List Expiry}

theorem Entries.sound (h : Entries occasion l l') (hnext : occasion.nextId.val ≠ 0)
    (hdue : ∀ e, occasion.expiry = some e → e ∈ due) (hl : l.Sound due) : l'.Sound due := by
  induction h with
  | refl => exact hl
  | tail _ hentry ih =>
      cases hentry with
      | drop ue kinds => exact ih.drop ue kinds
      | start interval hfree hid => exact ih.start interval hfree (by rwa [hid])
      | take hoccasion hhandle => exact ih.take (hdue _ hoccasion) hhandle

theorem Entries.covered (h : Entries occasion l l') (hnext : occasion.nextId.val ≠ 0)
    (hdue : ∀ e, occasion.expiry = some e → e ∈ due) (hl : l.Sound due)
    (hcovered : l.Covered due) : l'.Covered due := by
  induction h with
  | refl => exact hcovered
  | tail hentries hentry ih =>
      cases hentry with
      | drop ue kinds => exact ih.drop (Entries.sound hentries hnext hdue hl) ue kinds
      | start interval hfree hid => exact ih.start _ _ interval
      | take hoccasion hhandle => exact ih.take _

end Ledger

namespace Mme

variable (m : Mme)

theorem ledger_insertContext {c : Context} (habsent : m.context? c.ue = none)
    (hblank : c.procedures = {}) : (m.insertContext c).ledger = m.ledger := by
  refine Ledger.ext (fun u k => ?_) (timers_insertContext m c)
  simp only [ledger, handle?, context?_insertContext]
  split
  · rename_i hu
    subst hu
    cases k <;> simp [habsent, hblank, Procedures.timer?]
  · rfl

theorem ledger_beginSpecific {ue : UeId} (kind : SpecificKind)
    (hidle : m.handle? ue .specificRetry = none) :
    (m.beginSpecific ue kind).2.ledger = m.ledger := by
  refine Ledger.ext (fun u k => ?_) rfl
  have hcontext : (m.beginSpecific ue kind).2.context? u = _ :=
    Store.context?_beginSpecific m.store ue u kind
  simp only [ledger, handle?, hcontext]
  split
  · rename_i hu
    subst hu
    cases k with
    | t3470 => rw [Option.bind_map]; rfl
    | specificRetry =>
        have hnone : (m.store.context? u).bind (·.procedures.timer? .specificRetry) = none := hidle
        cases hc : m.store.context? u with
        | none => simp [context?, hc]
        | some c =>
            rw [hc] at hnone
            rw [context?, hc]
            exact hnone.symm
  · rfl

theorem ledger_onContext {ue : UeId} {f : Context → Context}
    (hf : ∀ c, (f c).procedures = c.procedures) (reply : Context → Bench.ActionReply) :
    (Bench.onContext m ue f reply).1.ledger = m.ledger := by
  unfold Bench.onContext
  split
  · exact m.ledger_modifyContext ue hf
  · rfl

theorem ledger_act {action : Bench.Action} (h : m.Admits action) :
    (action.run m).1.ledger = m.ledger ∨
      action = .stopAllTimers ∧
        (action.run m).1.ledger = { m.ledger with timers := m.timers.stopAll } := by
  cases action with
  | insert c => exact .inl (m.ledger_insertContext h.1 h.2)
  | beginSpecific ue kind => exact .inl (m.ledger_beginSpecific kind h)
  | contains ue => exact .inl rfl
  | setState ue state => exact .inl (m.ledger_onContext (fun _ => by rfl) _)
  | setSecurity ue security => exact .inl (m.ledger_onContext (fun _ => by rfl) _)
  | takeProcedureId => exact .inl rfl
  | findSpecific ue id => exact .inl (m.ledger_onContext (fun _ => by rfl) _)
  | stopAllTimers => exact .inr ⟨rfl, rfl⟩
  | _ => exact h.elim

end Mme

/-- What a move may do to the ledger of timers, the firing of a timer apart. -/
inductive Ledger.Posting (occasion : Occasion) (l : Ledger) : Move → Ledger → Prop
  | entries {a : Move} {l' : Ledger} (h : Entries occasion l l') : Posting occasion l a l'
  | advance (d : Duration) :
      Posting occasion l (.advance d) { l with timers := l.timers.advance d }
  | stopAll : Posting occasion l (.act .stopAllTimers) { l with timers := l.timers.stopAll }

theorem Change.posting {occasion : Occasion} {m m' : Mme} {a : Move} (h : Change occasion m a m')
    (hfire : ∀ id, a ≠ .fire id) (hact : ∀ action, a = .act action → m.Admits action) :
    Ledger.Posting occasion m.ledger a m'.ledger := by
  have same : ∀ {l'}, l' = m.ledger → Ledger.Posting occasion m.ledger a l' := by
    rintro _ rfl
    exact .entries .refl
  have tornDown : ∀ {m₁ : Mme} ue, m₁.ledger = m.ledger →
      Ledger.Posting occasion m.ledger a (m₁.tearDown ue).ledger := by
    intro m₁ ue heq
    rcases m₁.ledger_tearDown ue with h | h
    · exact same (h.trans heq)
    · rw [h, heq]
      exact .entries (.single (.drop ue _))
  cases h with
  | edits _ h => exact .entries h.entries
  | log log => exact same rfl
  | apply h =>
      cases h with
      | log log => exact same rfl
      | register hc hcarried => exact same rfl
      | unregister ue log => exact same rfl
      | tearDown ue e => exact tornDown ue rfl
  | fire ha hdue => exact absurd rfl (hfire _)
  | advance d => exact .advance d
  | tearDown ue => exact tornDown ue rfl
  | act action =>
      obtain heq | ⟨rfl, heq⟩ := m.ledger_act (hact action rfl)
      · exact same heq
      · rw [heq]
        exact .stopAll

namespace System

variable {s s' : System} {a : Move}

theorem queue_follow_subset (s : System) (ue : UeId) (p : Progress) :
    ∀ e ∈ (s.follow ue p).inbox.queue, e ∈ s.inbox.queue := by
  intro e he
  rw [inbox_follow] at he
  split at he
  · cases he
  · exact he

theorem undelivered_follow_subset (s : System) (ue : UeId) (p : Progress) :
    ∀ e ∈ (s.follow ue p).undelivered, e ∈ s.undelivered := by
  intro e he
  rw [mem_undelivered, expiries_follow] at he
  exact mem_undelivered.2 (he.imp_right (queue_follow_subset s ue p _))

theorem undelivered_subset (hok : s.Wired a) (hstep : s.step? a = some s')
    (hfire : ∀ id, a ≠ .fire id) : ∀ e ∈ s'.undelivered, e ∈ s.undelivered := by
  intro e he
  by_cases hreceive : a = .receive
  · subst hreceive
    obtain ⟨_, ⟨msg, rest, hqueue, rfl⟩ | ⟨_, _, _, hempty, _, hexpiries⟩⟩ :=
      receive?_eq_some hstep
    · have htaken := undelivered_follow_subset _ _ _ e he
      rw [mem_undelivered] at htaken ⊢
      rw [hqueue]
      exact htaken.imp_right (List.mem_cons_of_mem _)
    · rw [mem_undelivered, hempty, hexpiries] at he
      exact mem_undelivered.2 (.inl (he.resolve_right nofun))
  by_cases hpublish : a = .publish
  · subst hpublish
    obtain ⟨ue, n, next, s₁, d, _, hoffer, rfl⟩ := publish?_eq_some hstep
    have htaken := undelivered_follow_subset _ _ _ e he
    obtain ⟨bus, _, rfl, _⟩ | ⟨_, rfl, _⟩ := offer?_eq_some hoffer
    · exact htaken
    · exact htaken
  rw [mem_undelivered] at he ⊢
  cases (traffic_of_step hreceive hpublish hstep).2 with
  | still hinbox hexpiries => rwa [hinbox, hexpiries] at he
  | fired hinbox hexpiries => exact absurd rfl (hfire _)
  | delivered hexpiries hsend =>
      obtain ⟨_, _, _, hinbox⟩ := Channel.send_eq_ok hsend
      simp only [hinbox, List.mem_append, List.mem_singleton, Envelope.message.injEq,
        Message.expired.injEq] at he
      rw [hexpiries, List.mem_cons]
      tauto
  | dropped hexpiries hinbox hclosed =>
      rw [hexpiries, List.mem_cons]
      rw [hinbox] at he
      exact he.imp_left .inr
  | @sent msg hinbox hexpiries =>
      -- in a wired run nobody but the timers sends expiries
      have hne : .message (.expired e) ≠ Envelope.message msg := by
        rintro ⟨⟩
        cases hok
      simpa [hinbox, hexpiries, hne] using he
  | asked hinbox hexpiries => simpa [hinbox, hexpiries] using he

theorem expiryAtHand_undelivered {e : Expiry} (h : s.expiryAtHand a = some e) :
    e ∈ s.undelivered := by
  cases a with
  | receive =>
      simp only [expiryAtHand] at h
      split at h
      · rename_i msg rest hqueue
        refine mem_undelivered.2 (.inr ?_)
        cases msg with
        | expired x =>
            cases h
            rw [hqueue]
            exact List.mem_cons_self
        | _ => cases h
      · cases h
  | _ => cases h

theorem posting_of_step (hok : s.Wired a) (hstep : s.step? a = some s')
    (hfire : ∀ id, a ≠ .fire id) :
    Ledger.Posting (s.occasion a) s.mme.ledger a s'.mme.ledger := by
  refine (step_change hstep).posting hfire ?_
  rintro action rfl
  exact hok

theorem sound_step (hok : s.Wired a) (hids : s.FreshIds) (hstep : s.step? a = some s')
    (hs : s.mme.ledger.Sound s.undelivered) : s'.mme.ledger.Sound s'.undelivered := by
  by_cases hfire : ∃ id, a = .fire id
  · obtain ⟨id, rfl⟩ := hfire
    obtain ⟨b, hb, rfl, _, rfl⟩ := fireOne?_eq_some hstep
    refine (Ledger.Sound.fire hs hb).mono ?_
    intro e he
    simp only [undelivered, List.mem_append, List.mem_cons, List.not_mem_nil, or_false] at he ⊢
    tauto
  · have hother : ∀ id, a ≠ .fire id := fun id ha => hfire ⟨id, ha⟩
    have hposting := posting_of_step hok hstep hother
    refine Ledger.Sound.mono ?_ (undelivered_subset hok hstep hother)
    generalize s'.mme.ledger = l' at hposting
    cases hposting with
    | entries h => exact h.sound hids (fun e he => expiryAtHand_undelivered he) hs
    | advance d => exact hs.advance d
    | stopAll => exact hs.stopAll

/-- In every state of a wired run, as long as identifiers last, the ledger of timers is sound. -/
theorem sound_of_reachable {ok : System → Move → Prop} {config : NasConfig}
    {inboxCapacity busCapacity : Nat} (hok : ∀ s a, ok s a → s.Wired a ∧ s.FreshIds)
    (h : Reachable ok (idle config inboxCapacity busCapacity) s) :
    s.mme.ledger.Sound s.undelivered := by
  obtain ⟨ms, path⟩ := h
  refine path.induct (P := fun s => s.mme.ledger.Sound s.undelivered) ?_
    fun s s' a ha hstep hs => ?_
  · exact ⟨nofun, List.nodup_nil, nofun, nofun, nofun⟩
  · exact sound_step (hok s a ha).1 (hok s a ha).2 hstep hs

end System

end Emm
