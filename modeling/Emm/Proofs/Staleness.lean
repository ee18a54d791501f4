import Emm.Proofs.Rejection

/-!
Expiries that come too late. A timer has one identifier, its expiry is delivered once, and what has
been struck off a record does not come back to it. Main statement: `stale_events_ignored`. What a
handler finds nothing to act on changes nothing; no two expiries of one timer are acted on, and none
of a timer that is off its record; and a second abort does nothing.
-/

namespace Emm

namespace Timers

/-- What becomes of the timers: some are disarmed, one is started under the identifier that is next,
or time goes on. -/
inductive Turn (next : TimerId) (t : Timers) : Timers → Prop
  | disarm (p : ArmedTimer → Bool) : Turn next t { t with armed := t.armed.filter p }
  | start (ue : UeId) (kind : TimerKind) (interval : Duration) (hnext : t.nextId = next) :
      Turn next t (t.start ue kind interval)
  | advance (d : Duration) : Turn next t (t.advance d)

abbrev Turns (next : TimerId) : Timers → Timers → Prop := Relation.ReflTransGen (Turn next)

/-- The identifier has been given to a timer, as far as the counter has not come round. -/
def Issued (t : Timers) (id : TimerId) : Prop := t.nextId.val = 0 ∨ id.val < t.nextId.val

/-- There is at most one timer of the identifier, armed or `elsewhere`, and none before the
identifier has been given out. -/
structure Single (t : Timers) (id : TimerId) (elsewhere : Nat) : Prop where
  once : t.armed.countP (fun a => a.id = id) + elsewhere ≤ 1
  issued : 0 < t.armed.countP (fun a => a.id = id) + elsewhere → t.Issued id

variable {t t' : Timers} {next id : TimerId} {elsewhere : Nat}

theorem Issued.ne_next (h : t.Issued id) (hnext : t.nextId.val ≠ 0) : id ≠ t.nextId := by
  rintro rfl
  exact absurd (h.resolve_left hnext) (UInt64.lt_irrefl _)

theorem Issued.turn (h : Turn next t t') (hnext : next.val ≠ 0) (ht : t.Issued id) :
    t'.Issued id := by
  cases h with
  | disarm p => exact ht
  | start ue kind interval heq =>
      rw [← heq] at hnext
      exact Ledger.issued_next (.inl (ht.resolve_left hnext))
  | advance d => exact ht

theorem Issued.turns (h : Turns next t t') (hnext : next.val ≠ 0) (ht : t.Issued id) :
    t'.Issued id := by
  induction h with
  | refl => exact ht
  | tail _ hturn ih => exact ih.turn hturn hnext

namespace Single

theorem mono {fewer : Nat} (h : t.Single id elsewhere) (hle : fewer ≤ elsewhere) :
    t.Single id fewer where
  once := by
    have honce := h.once
    omega
  issued hpos := h.issued (by omega)

theorem turn (h : Turn next t t') (hnext : next.val ≠ 0) (ht : t.Single id elsewhere) :
    t'.Single id elsewhere := by
  have honce := ht.once
  cases h with
  | disarm p =>
      have hfewer : (t.armed.filter p).countP (fun a => a.id = id) ≤
          t.armed.countP (fun a => a.id = id) :=
        List.filter_sublist.countP_le
      constructor
      · simp only
        omega
      · intro hpos
        exact ht.issued (by simp only at hpos; omega)
  | start ue kind interval heq =>
      have hstart : (t.start ue kind interval).armed.countP (fun a => a.id = id) =
          t.armed.countP (fun a => a.id = id) + if t.nextId = id then 1 else 0 := by
        by_cases hid : t.nextId = id <;> simp [Timers.start, ArmedTimer.id, hid]
      rw [← heq] at hnext
      constructor
      · rw [hstart]
        split
        · -- A timer of that identifier would have been started before its time.
          rename_i hid
          have hnone : ¬0 < t.armed.countP (fun a => a.id = id) + elsewhere := fun hpos =>
            (ht.issued hpos).ne_next hnext hid.symm
          omega
        · omega
      · rw [hstart]
        intro hpos
        split at hpos
        · rename_i hid
          exact Ledger.issued_next (.inr hid.symm)
        · exact (ht.issued (by omega)).turn (.start ue kind interval rfl) hnext
  | advance d => exact ⟨ht.once, ht.issued⟩

theorem turns (h : Turns next t t') (hnext : next.val ≠ 0) (ht : t.Single id elsewhere) :
    t'.Single id elsewhere := by
  induction h with
  | refl => exact ht
  | tail _ hturn ih => exact ih.turn hturn hnext

theorem fire (ht : t.Single id elsewhere) {a : ArmedTimer} (ha : a ∈ t.armed) :
    (t.stop a.id).Single id (elsewhere + if a.id = id then 1 else 0) := by
  have hcount : (t.stop a.id).armed.countP (fun b => b.id = id) + (if a.id = id then 1 else 0) ≤
      t.armed.countP (fun b => b.id = id) := by
    split
    · rename_i hid
      have hnone : (t.stop a.id).armed.countP (fun b => b.id = id) = 0 := by
        simp [Timers.stop, List.countP_eq_zero, hid]
      have hpos : 0 < t.armed.countP (fun b => b.id = id) :=
        List.countP_pos_iff.2 ⟨a, ha, by simpa using hid⟩
      omega
    · exact List.filter_sublist.countP_le
  have honce := ht.once
  constructor
  · omega
  · intro hpos
    exact ht.issued (by omega)

end Single

end Timers

namespace Ledger

variable {occasion : Occasion} {l l' : Ledger}

theorem Entries.turns (h : Entries occasion l l') :
    Timers.Turns occasion.nextId l.timers l'.timers := by
  induction h with
  | refl => exact .refl
  | tail _ hentry ih =>
      cases hentry with
      | drop ue kinds => exact ih.tail (.disarm _)
      | start interval hfree hnext => exact ih.tail (.start _ _ interval hnext)
      | take hoccasion hhandle => exact ih

theorem Entries.handle (h : Entries occasion l l') {ue : UeId} {kind : TimerKind} {id : TimerId}
    (hid : l'.handle ue kind = some id) : l.handle ue kind = some id ∨ id = occasion.nextId := by
  induction h with
  | refl => exact .inl hid
  | tail _ hentry ih =>
      cases hentry with
      | drop u kinds =>
          simp only [Ledger.drop] at hid
          split at hid
          · cases hid
          · exact ih hid
      | start interval hfree hnext =>
          simp only [Ledger.start] at hid
          split at hid
          · cases hid
            exact .inr hnext
          · exact ih hid
      | take hoccasion hhandle =>
          simp only [Ledger.take] at hid
          split at hid
          · cases hid
          · exact ih hid

end Ledger

namespace Mme

variable (m : Mme) (ue : UeId)

theorem turns_tearDown (next : TimerId) : Timers.Turns next m.timers (m.tearDown ue).timers := by
  rcases m.ledger_tearDown ue with h | h
  · have htimers : (m.tearDown ue).timers = m.timers := congrArg Ledger.timers h
    rw [htimers]
  · have htimers : (m.tearDown ue).timers = _ := congrArg Ledger.timers h
    rw [htimers]
    exact .single (.disarm _)

theorem handle?_tearDown {u : UeId} {kind : TimerKind} {id : TimerId}
    (hid : (m.tearDown ue).handle? u kind = some id) : m.handle? u kind = some id := by
  obtain ⟨c, hc, htimer⟩ := Option.bind_eq_some_iff.1 hid
  rw [context?_tearDown] at hc
  split at hc
  · cases hc
  · exact Option.bind_eq_some_iff.2 ⟨c, hc, htimer⟩

theorem timers_onContext (f : Context → Context) (reply : Context → Bench.ActionReply) :
    (Bench.onContext m ue f reply).1.timers = m.timers := by
  unfold Bench.onContext
  split <;> rfl

theorem turns_act (action : Bench.Action) :
    Timers.Turns m.timers.nextId m.timers (action.run m).1.timers := by
  have same : ∀ {t : Timers}, t = m.timers → Timers.Turns m.timers.nextId m.timers t := by
    rintro _ rfl
    exact .refl
  cases action with
  | insert c => exact same (m.timers_insertContext c)
  | remove ue =>
      simp only [Bench.Action.run]
      split
      · exact same (m.timers_removeContext ue)
      · exact .refl
  | removeHeld ue cause =>
      simp only [Bench.Action.run]
      split
      · exact same (m.timers_removeContext ue)
      · exact .refl
  | contains ue => exact .refl
  | setState ue state => exact same (m.timers_onContext ue _ _)
  | setSecurity ue security => exact same (m.timers_onContext ue _ _)
  | setImsi ue imsi => exact same (m.timers_onContext ue _ _)
  | claim imsi ue => exact same (m.timers_claim ue imsi)
  | register imsi ue => exact .refl
  | unregister ue => exact .refl
  | takeProcedureId => exact .refl
  | beginSpecific ue kind => exact .refl
  | endSpecific ue => exact same (m.timers_onContext ue _ _)
  | endIdentification ue => exact same (m.timers_onContext ue _ _)
  | endAll ue => exact same (m.timers_onContext ue _ _)
  | findSpecific ue id => exact same (m.timers_onContext ue _ _)
  | armRetry ue interval =>
      simp only [Bench.Action.run]
      split
      · exact .single (.start ue .specificRetry interval rfl)
      · exact .single (.start ue .specificRetry interval rfl)
  | startTimer ue kind interval => exact .single (.start ue kind interval rfl)
  | stopTimer id =>
      simp only [Bench.Action.run, timers_stopTimer]
      exact .single (.disarm _)
  | stopAllTimers =>
      have hnone : m.timers.stopAll =
          { m.timers with armed := m.timers.armed.filter fun _ => false } := by
        simp [Timers.stopAll]
      simp only [Bench.Action.run, hnone]
      exact .single (.disarm _)

theorem handle?_onContext {f : Context → Context} (reply : Context → Bench.ActionReply)
    (hf : ∀ c kind id, (f c).procedures.timer? kind = some id →
      c.procedures.timer? kind = some id)
    {u : UeId} {kind : TimerKind} {id : TimerId}
    (hid : (Bench.onContext m ue f reply).1.handle? u kind = some id) :
    m.handle? u kind = some id := by
  unfold Bench.onContext at hid
  split at hid
  · obtain ⟨c, hc, htimer⟩ := Option.bind_eq_some_iff.1 hid
    rw [context?_modifyContext] at hc
    split at hc
    · obtain ⟨c', hc', rfl⟩ := Option.map_eq_some_iff.1 hc
      exact Option.bind_eq_some_iff.2 ⟨c', hc', hf c' kind id htimer⟩
    · exact Option.bind_eq_some_iff.2 ⟨c, hc, htimer⟩
  · exact hid

theorem handle?_act (action : Bench.Action) {u : UeId} {kind : TimerKind} {id : TimerId}
    (hid : (action.run m).1.handle? u kind = some id) :
    m.handle? u kind = some id ∨
      (∃ interval, action = .armRetry u interval ∧ id = m.timers.nextId) ∨
        ∃ c, action = .insert c ∧ c.ue = u ∧ c.procedures.timer? kind = some id := by
  have kept : ∀ {m' : Mme}, (∀ c, m'.context? u = some c → m.context? u = some c) →
      m'.handle? u kind = some id → m.handle? u kind = some id := by
    intro m' hcontext h
    obtain ⟨c, hc, htimer⟩ := Option.bind_eq_some_iff.1 h
    exact Option.bind_eq_some_iff.2 ⟨c, hcontext c hc, htimer⟩
  have removed : ∀ ue c, (m.removeContext ue).context? u = some c → m.context? u = some c := by
    intro ue c hc
    rw [context?_removeContext] at hc
    split at hc
    · cases hc
    · exact hc
  cases action with
  | insert c =>
      obtain ⟨c', hc', htimer⟩ := Option.bind_eq_some_iff.1 hid
      have hcontext := (m.context?_insertContext u c).symm.trans hc'
      split at hcontext
      · rename_i hu
        cases hcontext
        exact .inr (.inr ⟨c, rfl, hu.symm, htimer⟩)
      · exact .inl (Option.bind_eq_some_iff.2 ⟨c', hcontext, htimer⟩)
  | remove ue =>
      simp only [Bench.Action.run] at hid
      split at hid
      · exact .inl (kept (removed ue) hid)
      · exact .inl hid
  | removeHeld ue cause =>
      simp only [Bench.Action.run] at hid
      split at hid
      · exact .inl (kept (removed ue) hid)
      · exact .inl hid
  | contains ue => exact .inl hid
  | setState ue state =>
      refine .inl (m.handle?_onContext ue _ ?_ hid)
      exact fun _ _ _ h => h
  | setSecurity ue security =>
      refine .inl (m.handle?_onContext ue _ ?_ hid)
      exact fun _ _ _ h => h
  | setImsi ue imsi =>
      refine .inl (m.handle?_onContext ue _ ?_ hid)
      exact fun _ _ _ h => h
  | claim imsi ue => exact .inl (kept (fun c hc => (m.context?_claim ue u imsi).symm.trans hc) hid)
  | register imsi ue => exact .inl hid
  | unregister ue => exact .inl hid
  | takeProcedureId => exact .inl hid
  | beginSpecific ue kind' =>
      obtain ⟨c, hc, htimer⟩ := Option.bind_eq_some_iff.1 hid
      have hcontext := (Store.context?_beginSpecific m.store ue u kind').symm.trans hc
      split at hcontext
      · obtain ⟨c', hc', rfl⟩ := Option.map_eq_some_iff.1 hcontext
        refine .inl (Option.bind_eq_some_iff.2 ⟨c', hc', ?_⟩)
        cases kind with
        | t3470 => exact htimer
        | specificRetry => cases htimer
      · exact .inl (Option.bind_eq_some_iff.2 ⟨c, hcontext, htimer⟩)
  | endSpecific ue =>
      refine .inl (m.handle?_onContext ue _ ?_ hid)
      intro c k i h
      cases k with
      | t3470 => exact h
      | specificRetry => cases h
  | endIdentification ue =>
      refine .inl (m.handle?_onContext ue _ ?_ hid)
      intro c k i h
      cases k with
      | t3470 => cases h
      | specificRetry => exact h
  | endAll ue =>
      refine .inl (m.handle?_onContext ue _ ?_ hid)
      intro c k i h
      cases k <;> cases h
  | findSpecific ue id =>
      refine .inl (m.handle?_onContext ue _ ?_ hid)
      exact fun _ _ _ h => h
  | armRetry ue interval =>
      simp only [Bench.Action.run] at hid
      split at hid
      · rename_i p hp
        obtain ⟨c, hc, _⟩ := m.context_of_specific? ue hp
        have hset := (Mme.handle?_setSpecific (m.startTimer ue .specificRetry interval).2 ue u kind
          hc (some { p with retryTimer := some m.timers.nextId })).symm.trans hid
        split at hset
        · rename_i hsame
          cases hset
          exact .inr (.inl ⟨interval, by rw [hsame.1], rfl⟩)
        · exact .inl hset
      · exact .inl hid
  | startTimer ue kind' interval => exact .inl hid
  | stopTimer timer =>
      exact .inl (kept (fun c hc => (m.context?_stopTimers u [timer]).symm.trans hc) hid)
  | stopAllTimers => exact .inl hid

end Mme

namespace System

variable {s s' : System} {a : Move}

theorem turns_of_step (hstep : s.step? a = some s') :
    Timers.Turns s.mme.timers.nextId s.mme.timers s'.mme.timers := by
  have hchange := step_change hstep
  generalize s'.mme = m' at hchange
  cases hchange with
  | edits _ h => exact h.entries.turns
  | log log => exact .refl
  | apply h =>
      cases h with
      | log log => exact .refl
      | register hc hcarried => exact .refl
      | unregister ue log => exact .refl
      | tearDown ue e => exact Mme.turns_tearDown (s.mme.emit e) ue _
  | fire ha hdue => exact .single (.disarm _)
  | advance d => exact .single (.advance d)
  | tearDown ue => exact s.mme.turns_tearDown ue _
  | act action => exact s.mme.turns_act action

theorem handle?_of_step (hstep : s.step? a = some s') {ue : UeId} {kind : TimerKind}
    {id : TimerId} (hid : s'.mme.handle? ue kind = some id) :
    s.mme.handle? ue kind = some id ∨ id = s.mme.timers.nextId ∨
      ∃ c, a = .act (.insert c) ∧ c.ue = ue ∧ c.procedures.timer? kind = some id := by
  have hchange := step_change hstep
  generalize s'.mme = m' at hchange hid
  cases hchange with
  | edits _ h => exact (h.entries.handle hid).imp_right .inl
  | log log => exact .inl hid
  | apply h =>
      cases h with
      | log log => exact .inl hid
      | register hc hcarried => exact .inl hid
      | unregister u log => exact .inl hid
      | tearDown u e => exact .inl (Mme.handle?_tearDown (s.mme.emit e) u hid)
  | fire ha hdue => exact .inl hid
  | advance d => exact .inl hid
  | tearDown u => exact .inl (s.mme.handle?_tearDown u hid)
  | act action =>
      refine (s.mme.handle?_act action hid).imp_right (.imp ?_ ?_)
      · rintro ⟨_, _, hnext⟩
        exact hnext
      · rintro ⟨c, rfl, hc⟩
        exact ⟨c, rfl, hc⟩

/-- Nobody but the timers sends expiries, and no identifier of a timer is used twice. -/
def TimersOnly (s : System) (a : Move) : Prop :=
  (a matches .send (.expired _)) = false ∧ s.FreshIds

instance (s : System) (a : Move) : Decidable (s.TimersOnly a) :=
  inferInstanceAs (Decidable (_ ∧ _))

end System

namespace Moment

/-- The expiry is taken, and there is something for it to act on. -/
def ActsOn (x : Moment) (e : Expiry) : Prop :=
  x.before.expiryAtHand x.move = some e ∧ ¬x.before.mme.Rejects (.expired e)

/-- The timer goes off the record on which it is. -/
def StrikesOff (x : Moment) (e : Expiry) : Prop :=
  x.before.mme.handle? e.ue e.kind = some e.timer ∧ x.after.mme.handle? e.ue e.kind ≠ some e.timer

/-- A context is stored that has the timer on record. -/
def StoresRecord (x : Moment) (e : Expiry) : Prop :=
  ∃ c, x.move = .act (.insert c) ∧ c.ue = e.ue ∧ c.procedures.timer? e.kind = some e.timer

end Moment

namespace System

variable {s s' : System} {a : Move} {ms : List Moment}

theorem countP_undelivered_follow (s : System) (ue : UeId) (progress : Progress)
    (p : Expiry → Bool) :
    (s.follow ue progress).undelivered.countP p ≤ s.undelivered.countP p := by
  rw [undelivered, undelivered, expiries_follow, inbox_follow]
  split
  · simp [Channel.close]
  · exact Nat.le_refl _

theorem countP_undelivered (hsend : (a matches .send (.expired _)) = false)
    (hfire : ∀ id, a ≠ .fire id) (hstep : s.step? a = some s') (p : Expiry → Bool) :
    s'.undelivered.countP p + (s.expiryAtHand a).toList.countP p ≤ s.undelivered.countP p := by
  by_cases hreceive : a = .receive
  · subst hreceive
    obtain ⟨_, ⟨msg, rest, hqueue, rfl⟩ | ⟨hover, _, _, hempty, _, hexpiries⟩⟩ :=
      receive?_eq_some hstep
    -- the expiry at hand is the head of the inbox, and gone from there afterwards
    · have hrest : s.undelivered.countP p =
          { s with inbox := { s.inbox with queue := rest } }.undelivered.countP p +
            (s.expiryAtHand .receive).toList.countP p := by
        cases hmsg : msg.expiry? with
        | none => simp [undelivered, expiryAtHand, hqueue, Envelope.payload?, hmsg]
        | some e =>
            simp only [undelivered, expiryAtHand, hqueue, Envelope.payload?, hmsg,
              List.filterMap_cons, Option.bind_some, Option.toList_some, List.countP_append,
              List.countP_cons, List.countP_nil]
            omega
      rw [hrest, beginMessage_eq]
      exact Nat.add_le_add_right (countP_undelivered_follow _ msg.ue _ p) _
    · have hnone : s.expiryAtHand .receive = none := by
        simp only [expiryAtHand]
        split
        · rename_i hqueue
          exact absurd hqueue (hover.queue_ne _ _)
        · rfl
      simp [undelivered, hempty, hexpiries, hnone]
  have hhand : s.expiryAtHand a = none := by
    cases a with
    | receive => exact absurd rfl hreceive
    | _ => rfl
  rw [hhand]
  by_cases hpublish : a = .publish
  · subst hpublish
    obtain ⟨ue, n, next, s₁, d, _, hoffer, rfl⟩ := publish?_eq_some hstep
    obtain ⟨bus, _, rfl, _⟩ | ⟨_, rfl, _⟩ := offer?_eq_some hoffer
    · exact countP_undelivered_follow _ ue _ p
    · exact countP_undelivered_follow _ ue _ p
  cases (traffic_of_step hreceive hpublish hstep).2 with
  | still hinbox hexpiries => simp [undelivered, hinbox, hexpiries]
  | fired hinbox hexpiries => exact absurd rfl (hfire _)
  | delivered hexpiries hsent =>
      obtain ⟨_, _, _, hinbox⟩ := Channel.send_eq_ok hsent
      simp only [undelivered, hinbox, hexpiries, Envelope.payload?, Message.expiry?,
        List.filterMap_append, List.filterMap_cons, List.filterMap_nil, Option.bind_some,
        Option.toList_none, List.countP_append, List.countP_cons, List.countP_nil]
      omega
  | dropped hexpiries hinbox hclosed =>
      simp only [undelivered, hinbox, hexpiries, Option.toList_none, List.countP_append,
        List.countP_cons, List.countP_nil]
      omega
  | @sent msg hinbox hexpiries =>
      have hnone : msg.expiry? = none := by
        cases msg with
        | expired e => cases hsend
        | _ => rfl
      simp [undelivered, hinbox, hexpiries, Envelope.payload?, hnone]
  | asked hinbox hexpiries => simp [undelivered, hinbox, hexpiries, Envelope.payload?]

/-- How many of the timer's expiries have been taken. -/
def taken (ms : List Moment) (id : TimerId) : Nat :=
  ms.countP fun x => (x.before.expiryAtHand x.move).any fun e => e.timer = id

theorem taken_snoc (id : TimerId) :
    taken (ms ++ [⟨s, a, s'⟩]) id =
      taken ms id + (s.expiryAtHand a).toList.countP fun e => e.timer = id := by
  rw [taken, taken, List.countP_append]
  cases hhand : s.expiryAtHand a <;> simp [List.countP_cons, hhand]

/-- A timer is armed, on its way to the EMM task, or taken, and one of these only. -/
theorem single_step (hok : s.TimersOnly a) (hstep : s.step? a = some s') {id : TimerId}
    (hs : s.mme.timers.Single id
      ((s.undelivered.countP fun e => e.timer = id) + taken ms id)) :
    s'.mme.timers.Single id
      ((s'.undelivered.countP fun e => e.timer = id) + taken (ms ++ [⟨s, a, s'⟩]) id) := by
  by_cases hfire : ∃ timer, a = .fire timer
  · obtain ⟨timer, rfl⟩ := hfire
    obtain ⟨b, hb, rfl, _, rfl⟩ := fireOne?_eq_some hstep
    refine (hs.fire hb).mono ?_
    rw [taken_snoc]
    by_cases hid : b.expiry.timer = id
    · simp only [undelivered, expiryAtHand, Option.toList_none, List.countP_append, ArmedTimer.id,
        hid, List.countP_cons, List.countP_nil, decide_true, if_true]
      omega
    · simp only [undelivered, expiryAtHand, Option.toList_none, List.countP_append, ArmedTimer.id,
        hid, List.countP_cons, List.countP_nil, decide_false, Bool.false_eq_true, if_false]
      omega
  · have hother : ∀ timer, a ≠ .fire timer := fun timer ha => hfire ⟨timer, ha⟩
    have hfewer := countP_undelivered hok.1 hother hstep fun e => e.timer = id
    refine (hs.turns (turns_of_step hstep) hok.2).mono ?_
    rw [taken_snoc]
    omega

theorem single_of_path {config : NasConfig} {inboxCapacity busCapacity : Nat}
    (path : Path TimersOnly (idle config inboxCapacity busCapacity) ms s) (id : TimerId) :
    s.mme.timers.Single id ((s.undelivered.countP fun e => e.timer = id) + taken ms id) := by
  induction path with
  | nil => exact ⟨Nat.zero_le 1, fun hpos => absurd hpos (Nat.lt_irrefl 0)⟩
  | snoc _ hok hstep ih => exact single_step hok hstep ih

/-- What is off a record stays off it, unless it comes back with a context. -/
theorem struck_of_path {s₀ : System} (path : Path TimersOnly s₀ ms s) {e : Expiry}
    (hissued : s₀.mme.timers.Issued e.timer)
    (hstruck : s₀.mme.handle? e.ue e.kind ≠ some e.timer) :
    s.mme.timers.Issued e.timer ∧
      (s.mme.handle? e.ue e.kind = some e.timer → ∃ z ∈ ms, z.StoresRecord e) := by
  induction path with
  | nil => exact ⟨hissued, fun h => absurd h hstruck⟩
  | @snoc _ s s' a _ hok hstep ih =>
      refine ⟨ih.1.turns (turns_of_step hstep) hok.2, fun hid => ?_⟩
      obtain hbefore | hnext | hstored := handle?_of_step hstep hid
      · obtain ⟨z, hz, hstores⟩ := ih.2 hbefore
        exact ⟨z, List.mem_append_left _ hz, hstores⟩
      · exact absurd hnext (ih.1.ne_next hok.2)
      · exact ⟨⟨s, a, s'⟩, by simp, hstored⟩

/-- Messages that find nothing to act on leave no trace but in the log, and only those. Of all
expiries of a timer one is acted on at most, and none once the timer is off the record that it was
on, whatever procedures have been started since; unless somebody stores a context with the timer
on record again. An abort after an abort does nothing and says so. -/
theorem stale_events_ignored :
    (∀ (s : System) (msg : Message) (rest : List (Envelope Message)), s.emm = .receiving →
        s.inbox.queue = .message msg :: rest →
          ((∃ s', s.receive? = some s' ∧ s.mme.SameButLog s'.mme ∧ s'.emm = .receiving ∧
              s'.bus = s.bus) ↔ s.mme.Rejects msg)) ∧
      (∀ config inboxCapacity busCapacity ms s,
        Path TimersOnly (idle config inboxCapacity busCapacity) ms s →
          (∀ pre x mid y post e e', ms = pre ++ x :: (mid ++ y :: post) →
              x.ActsOn e → y.ActsOn e' → e'.timer ≠ e.timer) ∧
            ∀ pre x mid y post e, ms = pre ++ x :: (mid ++ y :: post) →
              x.before.mme.timers.Issued e.timer → x.StrikesOff e → y.ActsOn e →
                ∃ z ∈ mid, z.StoresRecord e) ∧
        ∀ (m : Mme) (config : NasConfig) (ue : UeId),
          (m.begin config (.abort ue)).1.begin config (.abort ue) =
            ((m.begin config (.abort ue)).1, .done (.aborted false)) := by
  refine ⟨fun s msg rest => received_ignored_iff, ?_, fun m config ue => m.abort_abort ue⟩
  intro config inboxCapacity busCapacity ms s path
  constructor
  · rintro pre x mid y post e e' rfl hx hy htimer
    have honce := (single_of_path path e.timer).once
    have htwice : 2 ≤ taken (pre ++ x :: (mid ++ y :: post)) e.timer := by
      simp only [taken, List.countP_append, List.countP_cons, hx.1, hy.1, Option.any_some, htimer,
        decide_true, if_true]
      omega
    omega
  · rintro pre x mid y post e rfl hissued hx hy
    obtain ⟨_, hok, hstep, hrest⟩ := path.split
    have hlater : x.after.mme.timers.Issued e.timer := hissued.turns (turns_of_step hstep) hok.2
    exact (struck_of_path hrest.split.1 hlater hx.2).2 (not_not.1 hy.2)

/-- A timer fires, and while its expiry is queued behind an order to start, the identification is
started anew with another timer. -/
theorem stale_events_ignored_restarted :
    ∃ x y : Moment, ∃ e, x.StrikesOff e ∧ y.before.expiryAtHand y.move = some e ∧ ¬y.ActsOn e := by
  let s₀ := ((idle {} 4 8).walk? TimersOnly
    [.act (.insert { ue := ⟨1⟩, state := .deregistered }), .send (.start ⟨1⟩ .imsi none), .receive,
      .publish, .publish, .advance ⟨6000⟩, .fire ⟨1⟩, .send (.start ⟨1⟩ .imsi none), .deliver,
      .receive]).get (by decide +kernel)
  let s₁ := (s₀.step? .publish).get (by decide +kernel)
  let s₂ := (s₁.step? .publish).get (by decide +kernel)
  let s₃ := (s₂.step? .receive).get (by decide +kernel)
  obtain ⟨ms, path⟩ : ∃ ms, Path TimersOnly (idle {} 4 8) ms s₀ :=
    Path.of_walk? (Option.some_get _).symm
  have rest : Path TimersOnly s₀ (⟨s₀, .publish, s₁⟩ :: ([⟨s₁, .publish, s₂⟩] ++
      [⟨s₂, .receive, s₃⟩])) s₃ :=
    .cons (by decide +kernel) (Option.some_get _).symm <|
      .cons (by decide +kernel) (Option.some_get _).symm <|
        .cons (by decide +kernel) (Option.some_get _).symm .nil
  have hstruck : Moment.StrikesOff ⟨s₀, .publish, s₁⟩ ⟨⟨1⟩, ⟨1⟩, .t3470⟩ :=
    ⟨by decide +kernel, by decide +kernel⟩
  have hissued : s₀.mme.timers.Issued ⟨1⟩ := .inr (by decide +kernel)
  refine ⟨⟨s₀, .publish, s₁⟩, ⟨s₂, .receive, s₃⟩, ⟨⟨1⟩, ⟨1⟩, .t3470⟩, hstruck, by decide +kernel,
    ?_⟩
  intro hacts
  obtain ⟨z, hz, c, hmove, _⟩ := (stale_events_ignored.2.1 _ _ _ _ _ (path.append rest)).2
    ms _ [⟨s₁, .publish, s₂⟩] _ [] _ rfl hissued hstruck hacts
  rw [List.mem_singleton.1 hz] at hmove
  cases hmove

end System

end Emm
