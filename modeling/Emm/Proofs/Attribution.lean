import Emm.Proofs.Staleness

/-!
Where identifiers of timers lead. A handler knows a timer by the identifier that is on record for
the UE. Main statement: `attributed_step`. As long as stored contexts bring no timers of others, no
identifier on the record of a UE leads to an armed timer of another.
-/

namespace Emm

namespace Ledger

/-- No two armed timers have one identifier, and none that is on the record of one UE is that of an
armed timer of another. -/
structure Attributed (l : Ledger) : Prop where
  distinct : (l.timers.armed.map (·.id)).Nodup
  issued : ∀ a ∈ l.timers.armed, l.timers.Issued a.id
  recorded : ∀ ue kind id, l.handle ue kind = some id →
    l.timers.Issued id ∧ ∀ a ∈ l.timers.armed, a.id = id → a.expiry.ue = ue

variable {l l' : Ledger} {ue : UeId} {next : TimerId} {t : Timers}

namespace Attributed

theorem fewer (h : l.Attributed)
    (hhandle : ∀ ue kind id, l'.handle ue kind = some id → l.handle ue kind = some id)
    (harmed : l'.timers.armed.Sublist l.timers.armed)
    (hnext : l'.timers.nextId = l.timers.nextId) : l'.Attributed where
  distinct := (harmed.map _).nodup h.distinct
  issued a ha := by
    rw [Timers.Issued, hnext]
    exact h.issued a (harmed.subset ha)
  recorded ue kind id hid := by
    obtain ⟨hissued, hown⟩ := h.recorded ue kind id (hhandle ue kind id hid)
    refine ⟨?_, fun a ha => hown a (harmed.subset ha)⟩
    rw [Timers.Issued, hnext]
    exact hissued

theorem drop (h : l.Attributed) (ue : UeId) (kinds : List TimerKind) :
    (l.drop ue kinds).Attributed := by
  refine h.fewer (fun u k id hid => ?_) List.filter_sublist rfl
  simp only [Ledger.drop] at hid
  split at hid
  · cases hid
  · exact hid

theorem take (h : l.Attributed) (e : Expiry) : (l.take e).Attributed := by
  refine h.fewer (fun u k id hid => ?_) (.refl _) rfl
  simp only [Ledger.take] at hid
  split at hid
  · cases hid
  · exact hid

/-- What comes on the record of a UE is a timer that has been started, and of no other UE. -/
theorem rerecord (h : l.Attributed) {handle : UeId → TimerKind → Option TimerId}
    (hhandle : ∀ u k id, handle u k = some id → l.handle u k = some id ∨
      l.timers.Issued id ∧ ∀ a ∈ l.timers.armed, a.id = id → a.expiry.ue = u) :
    Attributed ⟨handle, l.timers⟩ :=
  ⟨h.distinct, h.issued, fun u k id hid => (hhandle u k id hid).elim (h.recorded u k id) fun h => h⟩

theorem turn (h : l.Attributed) (hturn : Timers.Turn next l.timers t) (hnext : next.val ≠ 0) :
    Attributed ⟨l.handle, t⟩ := by
  have hlater : ∀ {id}, l.timers.Issued id → t.Issued id := fun hid => hid.turn hturn hnext
  cases hturn with
  | disarm p => exact h.fewer (fun _ _ _ hid => hid) List.filter_sublist rfl
  | start ue kind interval heq =>
      rw [← heq] at hnext
      refine ⟨?_, fun a ha => ?_, fun u k id hid => ?_⟩
      · simp only [Timers.start, List.map_append]
        refine List.nodup_append.2 ⟨h.distinct, List.nodup_singleton _, ?_⟩
        rintro id hid _ (_ | ⟨_, ⟨⟩⟩)
        obtain ⟨a, ha, rfl⟩ := List.mem_map.1 hid
        exact (h.issued a ha).ne_next hnext
      · rcases mem_armed_start.1 ha with ha | rfl
        · exact hlater (h.issued a ha)
        · exact issued_next (.inr rfl)
      · obtain ⟨hissued, hown⟩ := h.recorded u k id hid
        refine ⟨hlater hissued, fun a ha haid => ?_⟩
        rcases mem_armed_start.1 ha with ha | rfl
        · exact hown a ha haid
        · exact absurd haid.symm (hissued.ne_next hnext)
  | advance d => exact ⟨h.distinct, h.issued, h.recorded⟩

theorem turns (h : l.Attributed) (hturns : Timers.Turns next l.timers t) (hnext : next.val ≠ 0) :
    Attributed ⟨l.handle, t⟩ := by
  induction hturns with
  | refl => exact h
  | tail _ hturn ih => exact ih.turn hturn hnext

theorem of_next (h : l.Attributed) (hnext : l.timers.nextId.val ≠ 0) {kind : TimerKind}
    {interval : Duration} :
    (l.timers.start ue kind interval).Issued l.timers.nextId ∧
      ∀ a ∈ (l.timers.start ue kind interval).armed, a.id = l.timers.nextId →
        a.expiry.ue = ue := by
  refine ⟨issued_next (.inr rfl), fun a ha haid => ?_⟩
  rcases mem_armed_start.1 ha with ha | rfl
  · exact absurd haid ((h.issued a ha).ne_next hnext)
  · rfl

theorem start (h : l.Attributed) (ue : UeId) (kind : TimerKind) (interval : Duration)
    (hnext : l.timers.nextId.val ≠ 0) : (l.start ue kind interval).Attributed := by
  refine (h.turn (.start ue kind interval rfl) hnext).rerecord fun u k id hid => ?_
  split at hid
  · rename_i hsame
    cases hid
    rw [hsame.1]
    exact .inr (h.of_next hnext)
  · exact .inl hid

end Attributed

theorem Entries.attributed {occasion : Occasion} (h : Entries occasion l l')
    (hnext : occasion.nextId.val ≠ 0) (hl : l.Attributed) : l'.Attributed := by
  induction h with
  | refl => exact hl
  | tail _ hentry ih =>
      cases hentry with
      | drop ue kinds => exact ih.drop ue kinds
      | start interval hfree hid => exact ih.start _ _ interval (by rwa [hid])
      | take hoccasion hhandle => exact ih.take _

end Ledger

instance (t : Timers) (id : TimerId) : Decidable (t.Issued id) :=
  inferInstanceAs (Decidable (_ ∨ _))

/-- The timers that a context has on record have been started, and not for other UEs. -/
def Mme.OwnsTimers (m : Mme) (c : Context) : Prop :=
  ∀ id ∈ c.procedures.recordedTimers, m.timers.Issued id ∧
    ∀ a ∈ m.timers.armed, a.id = id → a.expiry.ue = c.ue

instance (m : Mme) (c : Context) : Decidable (m.OwnsTimers c) :=
  inferInstanceAs (Decidable (∀ id ∈ _, _ ∧ ∀ a ∈ _, _ → _))

theorem Procedures.mem_recordedTimers {p : Procedures} {kind : TimerKind} {id : TimerId}
    (h : p.timer? kind = some id) : id ∈ p.recordedTimers := by
  cases kind with
  | t3470 =>
      have hid : p.identification.bind (·.t3470) = some id := h
      simp [recordedTimers, hid]
  | specificRetry =>
      have hid : p.specific.bind (·.retryTimer) = some id := h
      simp [recordedTimers, hid]

namespace Mme

theorem attributed_act (m : Mme) {action : Bench.Action} (hnext : m.timers.nextId.val ≠ 0)
    (hbrings : ∀ c, action = .insert c → m.OwnsTimers c) (h : m.ledger.Attributed) :
    (action.run m).1.ledger.Attributed := by
  refine (h.turns (m.turns_act action) hnext).rerecord fun u kind id hid => ?_
  obtain hbefore | ⟨interval, rfl, rfl⟩ | ⟨c, rfl, rfl, hc⟩ := m.handle?_act action hid
  · exact .inl hbefore
  · have htimers : (Bench.Action.run m (.armRetry u interval)).1.timers =
        m.timers.start u .specificRetry interval := by
      simp only [Bench.Action.run]
      split <;> rfl
    right
    simp only [htimers]
    exact h.of_next hnext
  · have htimers : (Bench.Action.run m (.insert c)).1.timers = m.timers :=
      m.timers_insertContext c
    right
    simp only [htimers]
    exact hbrings c rfl id (Procedures.mem_recordedTimers hc)

end Mme

namespace System

variable {s s' : System} {a : Move}

/-- A context that is stored has only timers of its own on record. -/
def StoresOwnTimers (s : System) : Move → Prop
  | .act (.insert c) => s.mme.OwnsTimers c
  | _ => True

instance (s : System) : (a : Move) → Decidable (s.StoresOwnTimers a)
  | .act (.insert c) => inferInstanceAs (Decidable (s.mme.OwnsTimers c))
  | .act (.remove _) | .act (.removeHeld ..) | .act (.contains _) | .act (.setState ..)
  | .act (.setSecurity ..) | .act (.setImsi ..) | .act (.claim ..) | .act (.register ..)
  | .act (.unregister _) | .act .takeProcedureId | .act (.beginSpecific ..) | .act (.endSpecific _)
  | .act (.endIdentification _) | .act (.endAll _) | .act (.findSpecific ..)
  | .act (.armRetry ..) | .act (.startTimer ..) | .act (.stopTimer _) | .act .stopAllTimers
  | .receive | .publish | .take | .discard | .fire _ | .deliver | .advance _ | .send _
  | .askEmmToStop | .askAppToStop | .closeBus | .tearDown _ => .isTrue trivial

theorem attributed_step (hids : s.FreshIds) (hstores : s.StoresOwnTimers a)
    (hstep : s.step? a = some s') (hs : s.mme.ledger.Attributed) : s'.mme.ledger.Attributed := by
  have tornDown : ∀ {m : Mme} ue, m.ledger.Attributed → (m.tearDown ue).ledger.Attributed := by
    intro m ue hm
    rcases m.ledger_tearDown ue with h | h
    · rwa [h]
    · rw [h]
      exact hm.drop ue _
  have hchange := step_change hstep
  generalize s'.mme = m' at hchange
  cases hchange with
  | edits _ h => exact h.entries.attributed hids hs
  | log log => exact hs
  | apply h =>
      cases h with
      | log log => exact hs
      | register hc hcarried => exact hs
      | unregister ue log => exact hs
      | tearDown ue e => exact tornDown ue hs
  | fire ha hdue => exact hs.turn (.disarm _) hids
  | advance d => exact hs.turn (.advance d) hids
  | tearDown ue => exact tornDown ue hs
  | act action =>
      refine s.mme.attributed_act hids ?_ hs
      rintro c rfl
      exact hstores

end System

end Emm
