import Emm.Proofs.Retransmission

/-!
Handling when others get in between. A handler that waits for its notification to be taken goes on
in whatever state it then finds, and what it has offered may be refused. `Mme.handleAmid` carries a
message through to its end for any choice of both.

Main statements: `handle_eq_handleAmid`, for a handler in whose way nobody gets, and
`handled_amid`, by which this is how the EMM task handles a message in any run of the system.
-/

namespace Emm

/-- What comes between a handler's stop at a notification and its going on. -/
structure Interlude where
  /-- What others do to the shared state. -/
  others : Mme → Mme
  delivery : Delivery

/-- Nobody does anything but take the notification. -/
def Interlude.still : Interlude := ⟨id, .accepted⟩

/-- A handler's stop at a notification. -/
structure Stop where
  notification : Notification
  delivery : Delivery
  /-- The shared state when the handler begins to wait. -/
  waiting : Mme
  /-- The shared state in which it goes on. -/
  resuming : Mme
  /-- The shared state at the end of the turn that follows. -/
  reached : Mme

/-- How a message has been handled, from the first turn to the last. -/
structure Handling where
  after : Mme
  stops : List Stop
  outcome : Outcome

namespace Handling

/-- What the handler has offered, be it taken or not. -/
def attempted (h : Handling) : List Notification := h.stops.map (·.notification)

def published (h : Handling) : List Notification :=
  (h.stops.filter fun x => x.delivery = .accepted).map (·.notification)

end Handling

namespace Mme

/-- A notification that has been taken is logged. -/
def offered (m : Mme) (n : Notification) : Delivery → Mme
  | .accepted => m.emit (.exchanged .sent n.primitive n.ue)
  | .refused _ => m

def resumeAmid (m : Mme) (config : NasConfig) (i : Interlude) (n : Notification)
    (next : Resumption) : Mme × Progress :=
  ((i.others m).offered n i.delivery).resume config n next i.delivery

def stopAt (m : Mme) (config : NasConfig) (i : Interlude) (n : Notification) (next : Resumption) :
    Stop where
  notification := n
  delivery := i.delivery
  waiting := m
  resuming := (i.others m).offered n i.delivery
  reached := (m.resumeAmid config i n next).1

/-- Carries handling on to its end. What comes at the handler's stops is `between 0`, `between 1`
and so on. -/
def carryOutAmid (config : NasConfig) (between : Nat → Interlude) (m : Mme) : Progress → Handling
  | .done outcome => ⟨m, [], outcome⟩
  | .publish n next =>
      let rest := (m.resumeAmid config (between 0) n next).1.carryOutAmid config
        (fun k => between (k + 1)) (m.resumeAmid config (between 0) n next).2
      { rest with stops := m.stopAt config (between 0) n next :: rest.stops }
termination_by p => p.rank
decreasing_by exact Nat.lt_succ_of_le (resume_rank_le _ _ _ _ _)

def handleAmid (m : Mme) (config : NasConfig) (between : Nat → Interlude) (msg : Message) :
    Handling :=
  let (m, p) := m.begin config msg
  m.carryOutAmid config between p

variable (m : Mme) (config : NasConfig) (between : Nat → Interlude)

theorem sameButLog_offered (n : Notification) (d : Delivery) : m.SameButLog (m.offered n d) := by
  cases d with
  | accepted => exact m.sameButLog_emit _
  | refused e => exact .refl m

@[simp]
theorem carryOutAmid_done (outcome : Outcome) :
    m.carryOutAmid config between (.done outcome) = ⟨m, [], outcome⟩ := by
  rw [carryOutAmid]

theorem carryOutAmid_publish (n : Notification) (next : Resumption) {m₁ : Mme} {p : Progress}
    (hturn : m.resumeAmid config (between 0) n next = (m₁, p)) :
    m.carryOutAmid config between (.publish n next) =
      { m₁.carryOutAmid config (fun k => between (k + 1)) p with
        stops := m.stopAt config (between 0) n next ::
          (m₁.carryOutAmid config (fun k => between (k + 1)) p).stops } := by
  rw [carryOutAmid, hturn]

theorem handleAmid_eq (msg : Message) {m₁ : Mme} {p : Progress}
    (hbegin : m.begin config msg = (m₁, p)) :
    m.handleAmid config between msg = m₁.carryOutAmid config between p := by
  simp only [handleAmid, hbegin]

theorem carryOut_eq_carryOutAmid (p : Progress) :
    m.carryOut config p =
      let h := m.carryOutAmid config (fun _ => .still) p
      (h.after, h.attempted, h.outcome) := by
  induction hrank : p.rank using Nat.strong_induction_on generalizing m p with
  | h rank ih =>
      cases p with
      | done outcome =>
          rw [carryOut, carryOutAmid_done]
          rfl
      | publish n next =>
          obtain ⟨m₁, p, hturn⟩ : ∃ m₁ p, (m.emit (.exchanged .sent n.primitive n.ue)).resume
              config n next .accepted = (m₁, p) := ⟨_, _, rfl⟩
          have hlower := (m.emit (.exchanged .sent n.primitive n.ue)).resume_rank_le config n next
            .accepted
          rw [hturn] at hlower
          rw [carryOut, carryOutAmid_publish m config (fun _ => .still) n next hturn]
          simp only [hturn, ih p.rank (hrank ▸ Nat.lt_succ_of_le hlower) m₁ p rfl]
          rfl

theorem handle_eq_handleAmid (msg : Message) :
    m.handle config msg =
      let h := m.handleAmid config (fun _ => .still) msg
      (h.after, h.attempted, h.outcome) :=
  carryOut_eq_carryOutAmid _ config _

end Mme

def Moment.offered? (x : Moment) : Option Notification :=
  match x.move, x.before.emm with
  | .publish, .publishing _ n _ => some n
  | _, _ => none

/-- What came at the stop is what others did in a run. -/
def Stop.Within (ok : System → Move → Prop) (x : Stop) : Prop :=
  ∃ s₁ mid s₂, Path (fun s a => ok s a ∧ s.PastEmm a) s₁ mid s₂ ∧ s₁.mme = x.waiting ∧
    x.resuming = s₂.mme.offered x.notification x.delivery

namespace System

variable {ok : System → Move → Prop} {s s' s₁ : System} {ms : List Moment} {ue : UeId}

theorem first_publish (path : Path ok s ms s') (hunread : ∀ x ∈ ms, x.move ≠ .receive) :
    Path (fun s a => ok s a ∧ s.PastEmm a) s ms s' ∨
      ∃ mid s₂ s₃ rest, ms = mid ++ ⟨s₂, .publish, s₃⟩ :: rest ∧
        Path (fun s a => ok s a ∧ s.PastEmm a) s mid s₂ := by
  induction path with
  | nil => exact .inl .nil
  | @snoc ms s s' a _ hok hstep ih =>
      obtain hothers | ⟨mid, s₂, s₃, rest, rfl, hothers⟩ :=
        ih fun x hx => hunread x (List.mem_append_left _ hx)
      · by_cases hpublish : a = .publish
        · subst hpublish
          exact .inr ⟨ms, s, s', [], rfl, hothers⟩
        · have hreceive := hunread ⟨s, a, s'⟩ (List.mem_append_right _ (List.mem_singleton_self _))
          refine .inl (hothers.snoc ⟨hok, ?_⟩ hstep)
          cases a with
          | receive => exact hreceive rfl
          | publish => exact hpublish rfl
          | _ => trivial
      · exact .inr ⟨mid, s₂, s₃, rest ++ [⟨s, a, s'⟩], by simp, hothers⟩

theorem still_waiting {n : Notification} {next : Resumption} (path : Path ok s ms s')
    (hemm : s.emm = .publishing ue n next) (hquiet : ∀ x ∈ ms, x.move ≠ .publish) :
    s'.emm = .publishing ue n next := by
  induction path with
  | nil => exact hemm
  | @snoc ms s s' a _ _ hstep ih =>
      have hwaits := ih fun x hx => hquiet x (List.mem_append_left _ hx)
      have hpublish := hquiet ⟨s, a, s'⟩ (List.mem_append_right _ (List.mem_singleton_self _))
      have hreceive : a ≠ .receive := by
        rintro rfl
        simp [step?, receive?, hwaits] at hstep
      rw [(traffic_of_step hreceive hpublish hstep).1, hwaits]

theorem publishing_follow {s : System} {ue u : UeId} {p : Progress} {n : Notification}
    {next : Resumption} (h : (s.follow ue p).emm = .publishing u n next) : p = .publish n next := by
  rw [emm_follow] at h
  cases p with
  | publish n' next' =>
      cases h
      rfl
  | done outcome => cases outcome <;> cases h

theorem eq_of_nil (path : Path ok s [] s') : s' = s := by
  generalize hms : ([] : List Moment) = ms at path
  cases path with
  | nil => rfl
  | snoc => simp at hms

theorem before_eq {x : Moment} (path : Path ok s (x :: ms) s') : x.before = s := by
  have hsplit : Path ok s ([] ++ x :: ms) s' := path
  exact eq_of_nil hsplit.split.1

theorem offered?_others (path : Path (fun s a => ok s a ∧ s.PastEmm a) s ms s') :
    ms.filterMap Moment.offered? = [] := by
  induction path with
  | nil => rfl
  | @snoc ms s s' a _ hok _ ih =>
      rw [List.filterMap_append, ih]
      cases a with
      | publish => exact hok.2.elim
      | _ => rfl

theorem goes_on {n : Notification} {next : Resumption} (hemm : s.emm = .publishing ue n next)
    (hstep : s.step? .publish = some s') :
    ∃ (d : Delivery) (s₁ : System) (p : Progress),
      (s.mme.offered n d).resume s.config n next d = (s₁.mme, p) ∧ s₁.config = s.config ∧
      s' = s₁.follow ue p := by
  obtain ⟨_, _, _, s₁, d, hemm', hoffer, rfl⟩ := publish?_eq_some hstep
  cases hemm.symm.trans hemm'
  obtain ⟨bus, _, rfl, rfl⟩ | ⟨_, rfl, rfl⟩ := offer?_eq_some hoffer
  · let t := (s.mme.offered n .accepted).resume s.config n next .accepted
    exact ⟨.accepted, { s with bus, mme := t.1 }, t.2, rfl, rfl, resume_eq _ ue n next _⟩
  · let t := s₁.mme.resume s₁.config n next (.refused .closed)
    exact ⟨.refused .closed, { s₁ with mme := t.1 }, t.2, rfl, rfl, resume_eq _ ue n next _⟩

/-- From a turn of the EMM task on, to the end of its handler. -/
theorem carried_amid {p : Progress} (path : Path ok (s.follow ue p) ms s')
    (hbusy : ∀ x ∈ ms, ∃ u n next, x.before.emm = .publishing u n next)
    (hended : ∀ u n next, s'.emm ≠ .publishing u n next) :
    ∃ between, (s.mme.carryOutAmid s.config between p).after.SameButLog s'.mme ∧
      s'.emm = phaseAfter ue (.done (s.mme.carryOutAmid s.config between p).outcome) ∧
      (s.mme.carryOutAmid s.config between p).attempted = ms.filterMap Moment.offered? ∧
      ∀ x ∈ (s.mme.carryOutAmid s.config between p).stops, x.Within ok := by
  -- the rank falls with every turn, whatever comes in between
  induction hrank : p.rank using Nat.strong_induction_on generalizing s p ms with
  | h rank ih =>
      cases p with
      | done outcome =>
          cases ms with
          | nil =>
              cases eq_of_nil path
              refine ⟨fun _ => .still, ?_⟩
              rw [Mme.carryOutAmid_done]
              exact ⟨sameButLog_follow s ue _, emm_follow s ue _, rfl,
                fun _ h => (List.not_mem_nil h).elim⟩
          | cons x ms =>
              obtain ⟨u, n, next, hemm⟩ := hbusy x (List.mem_cons_self ..)
              rw [before_eq path] at hemm
              cases publishing_follow hemm
      | publish n next =>
          -- a handler is at work all along, so no other message is received
          have hunread : ∀ x ∈ ms, x.move ≠ .receive := by
            intro x hx hmove
            obtain ⟨u, n, next, hemm⟩ := hbusy x hx
            obtain ⟨pre, post, rfl⟩ := List.append_of_mem hx
            obtain ⟨_, _, hstep, _⟩ := path.split
            rw [hmove] at hstep
            simp [step?, receive?, hemm] at hstep
          obtain hothers | ⟨mid, s₂, s₃, rest, rfl, hothers⟩ := first_publish path hunread
          · have hwaits := still_publishing (hothers.mono fun _ _ h => h.2)
            exact absurd hwaits (hended ue n next)
          · obtain ⟨_, _, hstep, path₃⟩ := path.split
            have hwaits : s₂.emm = .publishing ue n next :=
              still_publishing (hothers.mono fun _ _ h => h.2)
            have hconfig : s₂.config = s.config :=
              (config_of_path hothers).trans (config_follow s ue _)
            obtain ⟨d, t, p, hturn, hsame, rfl⟩ := goes_on hwaits hstep
            have hlower := (s₂.mme.offered n d).resume_rank_le s₂.config n next d
            have hbusy₃ : ∀ x ∈ rest, ∃ u n next, x.before.emm = .publishing u n next :=
              fun x hx => hbusy x (List.mem_append_right _ (List.mem_cons_of_mem _ hx))
            rw [hturn] at hlower
            obtain ⟨between, hafter, hphase, hattempted, hstops⟩ :=
              ih p.rank (hrank ▸ Nat.lt_succ_of_le hlower) path₃ hbusy₃ rfl
            rw [hsame, hconfig] at hafter hphase hattempted hstops
            rw [hconfig] at hturn
            let between' : Nat → Interlude := fun k => k.casesOn ⟨fun _ => s₂.mme, d⟩ between
            have hcarried := s.mme.carryOutAmid_publish s.config between' n next hturn
            refine ⟨between', ?_⟩
            rw [hcarried]
            refine ⟨hafter, hphase, ?_, ?_⟩
            · have hoffered : Moment.offered? ⟨s₂, .publish, t.follow ue p⟩ = some n := by
                simp [Moment.offered?, hwaits]
              rw [List.filterMap_append, offered?_others hothers, List.nil_append,
                List.filterMap_cons, hoffered, ← hattempted]
              rfl
            · intro x hx
              rcases List.mem_cons.1 hx with rfl | hx
              · exact ⟨_, mid, s₂, hothers, rfl, rfl⟩
              · exact hstops x hx

/-- In a run in which others move as they like, the EMM task handles a message as `Mme.handleAmid`
has it for some choice of what comes at the stops. -/
theorem handled_amid {msg : Message} {inbox : List (Envelope Message)}
    (hemm : s.emm = .receiving) (hqueue : s.inbox.queue = .message msg :: inbox)
    (path : Path ok s (⟨s, .receive, s₁⟩ :: ms) s')
    (hbusy : ∀ x ∈ ms, ∃ u n next, x.before.emm = .publishing u n next)
    (hended : ∀ u n next, s'.emm ≠ .publishing u n next) :
    ∃ between h, h = (s.mme.emit (.exchanged .received msg.primitive msg.ue)).handleAmid s.config
        between msg ∧
      h.after.SameButLog s'.mme ∧ s'.emm = phaseAfter msg.ue (.done h.outcome) ∧
      h.attempted = ms.filterMap Moment.offered? ∧ ∀ x ∈ h.stops, x.Within ok := by
  have hsplit : Path ok s ([] ++ ⟨s, .receive, s₁⟩ :: ms) s' := path
  obtain ⟨_, _, hreceive, path₁⟩ := hsplit.split
  have hbegun : s₁ = _ := Option.some.inj (hreceive.symm.trans (receive_message hemm hqueue))
  rw [hbegun, beginMessage_eq] at path₁
  obtain ⟨between, h⟩ := carried_amid path₁ hbusy hended
  exact ⟨between, _, rfl, h⟩

end System

end Emm
