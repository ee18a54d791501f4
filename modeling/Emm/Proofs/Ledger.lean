import Mathlib.Data.List.Nodup
import Emm.Proofs.Run

/-!
Timers and the records of them. A `Ledger` is all that matters: which timers are armed, and which
timer each context has on record. Handlers, teardowns and expiries change it in three ways only.

Main statements: `Ledger.Sound` and `Ledger.Covered` are kept by all three and by the firing of a
timer. So every armed timer is on record, and every timer on record is armed or its expiry is on
its way.
-/

namespace Emm

/-- The timer on record for the procedure that timers of this kind serve. -/
def Procedures.timer? (p : Procedures) : TimerKind → Option TimerId
  | .t3470 => p.identification.bind (·.t3470)
  | .specificRetry => p.specific.bind (·.retryTimer)

/-- The timers, and those that are on record for each UE. -/
structure Ledger where
  handle : UeId → TimerKind → Option TimerId
  timers : Timers

namespace Ledger

/-- Strikes the timers of these kinds off the record of `ue` and stops them. -/
def drop (l : Ledger) (ue : UeId) (kinds : List TimerKind) : Ledger where
  handle u k := if u = ue ∧ k ∈ kinds then none else l.handle u k
  timers := { l.timers with
    armed := l.timers.armed.filter fun a => a.id ∉ kinds.filterMap (l.handle ue) }

/-- Starts a timer and puts it on record. -/
def start (l : Ledger) (ue : UeId) (kind : TimerKind) (interval : Duration) : Ledger where
  handle u k := if u = ue ∧ k = kind then some l.timers.nextId else l.handle u k
  timers := l.timers.start ue kind interval

/-- Strikes a timer that has expired off the record. -/
def take (l : Ledger) (e : Expiry) : Ledger where
  handle u k := if u = e.ue ∧ k = e.kind then none else l.handle u k
  timers := l.timers

/-- Disarms a timer that fires. Its record stays until the expiry is handled. -/
def fire (l : Ledger) (id : TimerId) : Ledger := { l with timers := l.timers.stop id }

/-- Armed timers are on record under identifiers of their own, and differ from those that have
fired. The counter of identifiers is ahead of all of them until it has come round. -/
structure Sound (l : Ledger) (due : List Expiry) : Prop where
  recorded : ∀ a ∈ l.timers.armed, l.handle a.expiry.ue a.expiry.kind = some a.id
  distinct : (l.timers.armed.map (·.id)).Nodup
  issued : ∀ a ∈ l.timers.armed, l.timers.nextId.val = 0 ∨ a.id.val < l.timers.nextId.val
  issuedDue : ∀ e ∈ due, l.timers.nextId.val = 0 ∨ e.timer.val < l.timers.nextId.val
  spent : ∀ e ∈ due, ∀ a ∈ l.timers.armed, a.id ≠ e.timer

/-- A timer on record is armed, or its expiry is among those on their way. -/
def Covered (l : Ledger) (due : List Expiry) : Prop :=
  ∀ ue kind id, l.handle ue kind = some id →
    (∃ a ∈ l.timers.armed, a.expiry = ⟨id, ue, kind⟩) ∨ ⟨id, ue, kind⟩ ∈ due

theorem mem_armed_drop {l : Ledger} {ue : UeId} {kinds : List TimerKind} {a : ArmedTimer} :
    a ∈ (l.drop ue kinds).timers.armed ↔
      a ∈ l.timers.armed ∧ ∀ k ∈ kinds, l.handle ue k ≠ some a.id := by
  simp [drop, List.mem_filterMap]

theorem mem_armed_start {l : Ledger} {ue : UeId} {kind : TimerKind} {interval : Duration}
    {a : ArmedTimer} :
    a ∈ (l.start ue kind interval).timers.armed ↔
      a ∈ l.timers.armed ∨
        a = ⟨⟨l.timers.nextId, ue, kind⟩, Timers.deadline l.timers.now interval⟩ := by
  simp [start, Timers.start]

theorem mem_armed_fire {l : Ledger} {id : TimerId} {a : ArmedTimer} :
    a ∈ (l.fire id).timers.armed ↔ a ∈ l.timers.armed ∧ a.id ≠ id := by
  simp [fire, Timers.stop]

theorem issued_next {id next : TimerId} (h : id.val < next.val ∨ id = next) :
    next.next.val = 0 ∨ id.val < next.next.val := by
  have hle : id.val.toNat ≤ next.val.toNat := by
    rcases h with h | rfl
    · exact Nat.le_of_lt (UInt64.lt_iff_toNat_lt.1 h)
    · exact Nat.le_refl _
  have hbound := next.val.toNat_lt
  have hnext : next.next.val.toNat = (next.val.toNat + 1) % 2 ^ 64 := by
    simp [TimerId.next]
  rw [← UInt64.toNat_inj, UInt64.lt_iff_toNat_lt, hnext]
  simp only [UInt64.toNat_zero]
  omega

namespace Sound

variable {l : Ledger} {due due' : List Expiry}

theorem mono (h : l.Sound due) (hsub : ∀ e ∈ due', e ∈ due) : l.Sound due' where
  recorded := h.recorded
  distinct := h.distinct
  issued := h.issued
  issuedDue e he := h.issuedDue e (hsub e he)
  spent e he := h.spent e (hsub e he)

theorem eq_of_id (h : l.Sound due) {a b : ArmedTimer} (ha : a ∈ l.timers.armed)
    (hb : b ∈ l.timers.armed) (hid : a.id = b.id) : a = b :=
  List.inj_on_of_nodup_map h.distinct ha hb hid

theorem eq_of_same_record (h : l.Sound due) {a b : ArmedTimer} (ha : a ∈ l.timers.armed)
    (hb : b ∈ l.timers.armed) (hue : a.expiry.ue = b.expiry.ue)
    (hkind : a.expiry.kind = b.expiry.kind) : a = b := by
  have hrecorded := h.recorded a ha
  rw [hue, hkind, h.recorded b hb] at hrecorded
  exact h.eq_of_id ha hb (Option.some.inj hrecorded).symm

theorem length_armed_le_one (h : l.Sound due) (ue : UeId) (kind : TimerKind) :
    (l.timers.armed.filter fun a => a.expiry.ue = ue ∧ a.expiry.kind = kind).length ≤ 1 := by
  have hmem : ∀ a ∈ l.timers.armed.filter fun a => a.expiry.ue = ue ∧ a.expiry.kind = kind,
      a ∈ l.timers.armed ∧ a.expiry.ue = ue ∧ a.expiry.kind = kind := by
    intro a ha
    simpa using List.mem_filter.1 ha
  have hnodup := h.distinct.of_map.filter fun a =>
    decide (a.expiry.ue = ue ∧ a.expiry.kind = kind)
  revert hmem hnodup
  generalize l.timers.armed.filter _ = matching
  intro hmem hnodup
  match matching with
  | [] => exact Nat.zero_le 1
  | [_] => exact Nat.le_refl 1
  | a :: b :: rest =>
      obtain ⟨ha, hue, hkind⟩ := hmem a (by simp)
      obtain ⟨hb, hue', hkind'⟩ := hmem b (by simp)
      have hab := h.eq_of_same_record ha hb (hue.trans hue'.symm) (hkind.trans hkind'.symm)
      subst hab
      simp at hnodup

theorem drop (h : l.Sound due) (ue : UeId) (kinds : List TimerKind) :
    (l.drop ue kinds).Sound due where
  recorded a ha := by
    obtain ⟨harmed, hkept⟩ := mem_armed_drop.1 ha
    have hrecorded := h.recorded a harmed
    have hother : ¬(a.expiry.ue = ue ∧ a.expiry.kind ∈ kinds) := by
      rintro ⟨rfl, hkind⟩
      exact hkept _ hkind hrecorded
    simpa [Ledger.drop, hother] using hrecorded
  distinct := (List.filter_sublist.map _).nodup h.distinct
  issued a ha := h.issued a (mem_armed_drop.1 ha).1
  issuedDue := h.issuedDue
  spent e he a ha := h.spent e he a (mem_armed_drop.1 ha).1

theorem start (h : l.Sound due) {ue : UeId} {kind : TimerKind} (interval : Duration)
    (hfree : l.handle ue kind = none) (hnext : l.timers.nextId.val ≠ 0) :
    (l.start ue kind interval).Sound due := by
  -- the identifiers given out so far lie below the counter
  have hnew : ∀ a ∈ l.timers.armed, a.id ≠ l.timers.nextId := by
    intro a ha heq
    have hlt := (h.issued a ha).resolve_left hnext
    rw [heq] at hlt
    exact absurd hlt (UInt64.lt_irrefl _)
  constructor
  · intro a ha
    rcases mem_armed_start.1 ha with ha | rfl
    · have hrecorded := h.recorded a ha
      have hother : ¬(a.expiry.ue = ue ∧ a.expiry.kind = kind) := by
        rintro ⟨rfl, rfl⟩
        rw [hfree] at hrecorded
        cases hrecorded
      simpa [Ledger.start, hother] using hrecorded
    · simp [Ledger.start, ArmedTimer.id]
  · simp only [Ledger.start, Timers.start, List.map_append]
    refine List.nodup_append.2 ⟨h.distinct, List.nodup_singleton _, ?_⟩
    rintro id hid _ (_ | ⟨_, ⟨⟩⟩)
    obtain ⟨a, ha, rfl⟩ := List.mem_map.1 hid
    exact hnew a ha
  · intro a ha
    rcases mem_armed_start.1 ha with ha | rfl
    · exact issued_next (.inl ((h.issued a ha).resolve_left hnext))
    · exact issued_next (.inr rfl)
  · intro e he
    exact issued_next (.inl ((h.issuedDue e he).resolve_left hnext))
  · intro e he a ha
    rcases mem_armed_start.1 ha with ha | rfl
    · exact h.spent e he a ha
    · intro heq
      have hlt := (h.issuedDue e he).resolve_left hnext
      rw [← heq] at hlt
      exact absurd hlt (UInt64.lt_irrefl _)

/-- An expiry on its way is that of no armed timer, so its record is not missed by one. -/
theorem take (h : l.Sound due) {e : Expiry} (he : e ∈ due)
    (hhandle : l.handle e.ue e.kind = some e.timer) : (l.take e).Sound due where
  recorded a ha := by
    have hrecorded := h.recorded a ha
    have hother : ¬(a.expiry.ue = e.ue ∧ a.expiry.kind = e.kind) := by
      rintro ⟨hue, hkind⟩
      rw [hue, hkind, hhandle] at hrecorded
      exact h.spent e he a ha (Option.some.inj hrecorded).symm
    simpa [Ledger.take, hother] using hrecorded
  distinct := h.distinct
  issued := h.issued
  issuedDue := h.issuedDue
  spent := h.spent

theorem fire (h : l.Sound due) {a : ArmedTimer} (ha : a ∈ l.timers.armed) :
    (l.fire a.id).Sound (a.expiry :: due) where
  recorded b hb := h.recorded b (mem_armed_fire.1 hb).1
  distinct := (List.filter_sublist.map _).nodup h.distinct
  issued b hb := h.issued b (mem_armed_fire.1 hb).1
  issuedDue := by
    rintro e (_ | ⟨_, he⟩)
    · exact h.issued a ha
    · exact h.issuedDue e he
  spent := by
    rintro e (_ | ⟨_, he⟩) b hb
    · exact (mem_armed_fire.1 hb).2
    · exact h.spent e he b (mem_armed_fire.1 hb).1

theorem advance (h : l.Sound due) (d : Duration) :
    Ledger.Sound { l with timers := l.timers.advance d } due :=
  ⟨h.recorded, h.distinct, h.issued, h.issuedDue, h.spent⟩

theorem stopAll (h : l.Sound due) : Ledger.Sound { l with timers := l.timers.stopAll } due :=
  ⟨nofun, List.nodup_nil, nofun, h.issuedDue, fun _ _ => nofun⟩

end Sound

namespace Covered

variable {l : Ledger} {due due' : List Expiry}

theorem mono (h : l.Covered due) (hsub : ∀ e ∈ due, e ∈ due') : l.Covered due' := by
  intro ue kind id hid
  exact (h ue kind id hid).imp_right (hsub _)

theorem drop (h : l.Covered due) (hsound : l.Sound due) (ue : UeId) (kinds : List TimerKind) :
    (l.drop ue kinds).Covered due := by
  intro u k id hid
  simp only [Ledger.drop] at hid
  split at hid
  · cases hid
  · rename_i hother
    refine (h u k id hid).imp_left ?_
    rintro ⟨a, ha, hexpiry⟩
    refine ⟨a, mem_armed_drop.2 ⟨ha, ?_⟩, hexpiry⟩
    intro k' hk' hhandle
    -- A timer stopped along with the others would have two records under one identifier.
    have hid' : a.id = id := by simp [ArmedTimer.id, hexpiry]
    rw [hid'] at hhandle
    rcases h ue k' id hhandle with ⟨b, hb, hexpiry'⟩ | hdue
    · have hab : a = b := hsound.eq_of_id ha hb (by simp [ArmedTimer.id, hexpiry, hexpiry'])
      subst hab
      cases hexpiry.symm.trans hexpiry'
      exact hother ⟨rfl, hk'⟩
    · exact hsound.spent _ hdue a ha hid'

theorem start (h : l.Covered due) (ue : UeId) (kind : TimerKind) (interval : Duration) :
    (l.start ue kind interval).Covered due := by
  intro u k id hid
  simp only [Ledger.start] at hid
  split at hid
  · rename_i hsame
    obtain ⟨rfl, rfl⟩ := hsame
    cases hid
    exact .inl ⟨_, mem_armed_start.2 (.inr rfl), rfl⟩
  · refine (h u k id hid).imp_left ?_
    rintro ⟨a, ha, hexpiry⟩
    exact ⟨a, mem_armed_start.2 (.inl ha), hexpiry⟩

theorem take (h : l.Covered due) (e : Expiry) : (l.take e).Covered due := by
  intro u k id hid
  simp only [Ledger.take] at hid
  split at hid
  · cases hid
  · exact h u k id hid

theorem fire (h : l.Covered due) (hsound : l.Sound due) {a : ArmedTimer}
    (ha : a ∈ l.timers.armed) : (l.fire a.id).Covered (a.expiry :: due) := by
  intro u k id hid
  rcases h u k id hid with ⟨b, hb, hexpiry⟩ | hdue
  · by_cases hba : b = a
    · subst hba
      exact .inr (by simp [hexpiry])
    · refine .inl ⟨b, mem_armed_fire.2 ⟨hb, fun hid => ?_⟩, hexpiry⟩
      exact hba (hsound.eq_of_id hb ha hid)
  · exact .inr (List.mem_cons_of_mem _ hdue)

theorem settle (h : l.Covered due) {e : Expiry} (hhandle : l.handle e.ue e.kind ≠ some e.timer)
    (hsub : ∀ x ∈ due, x = e ∨ x ∈ due') : l.Covered due' := by
  intro u k id hid
  refine (h u k id hid).imp_right fun hdue => ?_
  refine (hsub _ hdue).resolve_left ?_
  rintro rfl
  exact hhandle hid

end Covered

end Ledger

end Emm
