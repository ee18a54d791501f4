import Emm.Proofs.Exhaustion

/-!
What an abort deletes. Where an identification is given up its end is announced first, and only
then are the procedures of the UE deleted. While the handler waits to announce the end others may
work on the store; it deletes what it finds when it goes on.

Main statements: `abort_deletes_what_it_finds`, by which nothing is deleted but what was on record
for the UE when the handler decided or has been brought since; and `begun_meanwhile_deleted`, where
that is an attach begun since.
-/

namespace Emm

def Procedures.ids (ps : Procedures) : List ProcedureId :=
  (ps.specific.map (·.id)).toList ++ (ps.identification.map (·.id)).toList

/-- A procedure `id` is on record for the UE. -/
def Mme.Runs (m : Mme) (ue : UeId) (id : ProcedureId) : Prop :=
  ∃ c, m.context? ue = some c ∧ id ∈ c.procedures.ids

instance (m : Mme) (ue : UeId) (id : ProcedureId) : Decidable (m.Runs ue id) :=
  inferInstanceAs (Decidable (∃ c ∈ m.context? ue, id ∈ c.procedures.ids))

namespace Bench.Action

/-- The action stores a context, removes one, or begins a specific procedure. -/
def OnStore : Action → Prop
  | insert _ | remove _ | removeHeld .. | beginSpecific .. => True
  | _ => False

/-- The action puts a procedure `id` on record for the UE. -/
def Brings (m : Mme) (ue : UeId) (id : ProcedureId) : Action → Prop
  | insert c => c.ue = ue ∧ id ∈ c.procedures.ids
  | beginSpecific u _ => u = ue ∧ (m.context? ue).isSome ∧ id = m.store.nextProcedure
  | _ => False

end Bench.Action

namespace Mme

def perform (m : Mme) (actions : List Bench.Action) : Mme :=
  actions.foldl (fun m a => (a.run m).1) m

/-- One of the actions puts a procedure `id` on record for the UE. -/
def Brought (m : Mme) (ue : UeId) (id : ProcedureId) : List Bench.Action → Prop
  | [] => False
  | a :: actions => a.Brings m ue id ∨ (a.run m).1.Brought ue id actions

/-- Handling of the message comes to give up the identification `p` of the UE, and to delete its
procedures. -/
inductive Aborts (m : Mme) (config : NasConfig) (ue : UeId) (p : Identification) : Message → Prop
  | failure (hrecord : m.identification? ue = some p) :
      Aborts m config ue p (.lowerLayerFailure ue)
  | exhaustion {timer : TimerId} (hlast : m.Exhausts config ue timer p) :
      Aborts m config ue p (.expired ⟨timer, ue, .t3470⟩)

end Mme

/-- At `x` the handler announces the end of the identification `p` of the UE, which is still on
record. In the turn that follows it deletes the procedures of the UE that it finds, and in later
ones nothing. -/
structure Handling.Deletes (h : Handling) (m : Mme) (ue : UeId) (p : Identification)
    (i : Interlude) (x : Stop) (later : List Stop) : Prop where
  stops : h.stops = x :: later
  announced : x.notification.ending? = some (ue, p.previousState)
  decided : ∃ c q, m.context? ue = some c ∧ c.procedures.identification = some p ∧
    q.Continues p ∧
    m.Differs ue c { c.procedures with identification := some q } m.timers x.waiting
  resuming : x.resuming = (i.others x.waiting).offered x.notification i.delivery
  cleared : x.resuming.Clears ue x.reached
  settled : later = [] ∧ h.after = x.reached ∨
    ∃ y, later = [y] ∧ y.waiting = x.reached ∧ y.resuming.SameButLog h.after

namespace Mme

variable {m m₁ m₂ : Mme} {ue u : UeId} {id : ProcedureId} {p : Identification}
  {config : NasConfig} {between : Nat → Interlude}

theorem runs_congr (h : m₁.context? ue = m.context? ue) : m₁.Runs ue id ↔ m.Runs ue id := by
  rw [Runs, Runs, h]

theorem Runs.of_run {a : Bench.Action} (hstore : a.OnStore) (hruns : (a.run m).1.Runs ue id) :
    m.Runs ue id ∨ a.Brings m ue id := by
  obtain ⟨c, hc, hid⟩ := hruns
  cases a with
  | insert stored =>
      simp only [Bench.Action.run, context?_insertContext] at hc
      split at hc
      · rename_i hue
        cases hc
        exact .inr ⟨hue.symm, hid⟩
      · exact .inl ⟨c, hc, hid⟩
  | remove u | removeHeld u cause =>
      left
      simp only [Bench.Action.run] at hc
      split at hc
      · rw [context?_removeContext] at hc
        split at hc
        · cases hc
        · exact ⟨c, hc, hid⟩
      · exact ⟨c, hc, hid⟩
  | beginSpecific u kind =>
      have hbegun : (m.beginSpecific u kind).2.context? ue = _ :=
        m.store.context?_beginSpecific u ue kind
      simp only [Bench.Action.run] at hc
      rw [hbegun] at hc
      split at hc
      · rename_i hue
        obtain ⟨before, hbefore, rfl⟩ := Option.map_eq_some_iff.1 hc
        rcases List.mem_append.1 hid with hnew | hold
        · refine .inr ⟨hue.symm, Option.isSome_of_eq_some hbefore, ?_⟩
          simpa using hnew
        · exact .inl ⟨before, hbefore, List.mem_append_right _ hold⟩
      · exact .inl ⟨c, hc, hid⟩
  | _ => exact hstore.elim

theorem Runs.of_perform {actions : List Bench.Action} (hstore : ∀ a ∈ actions, a.OnStore)
    (hruns : (m.perform actions).Runs ue id) : m.Runs ue id ∨ m.Brought ue id actions := by
  induction actions generalizing m with
  | nil => exact .inl hruns
  | cons a actions ih =>
      have hfirst := hstore a (List.mem_cons_self ..)
      rcases ih (fun b hb => hstore b (List.mem_cons_of_mem _ hb)) hruns with hrun | hbrought
      · exact (hrun.of_run hfirst).imp_right .inl
      · exact .inr (.inr hbrought)

theorem Clears.not_runs (h : m.Clears ue m₁) (id : ProcedureId) : ¬m₁.Runs ue id := by
  rintro ⟨c₁, hc₁, hid⟩
  cases hc : m.context? ue with
  | none =>
      rw [(h.absent hc).context?, hc] at hc₁
      cases hc₁
  | some c =>
      rw [(h.present c hc).context] at hc₁
      cases hc₁
      simp [Procedures.ids] at hid

theorem Clears.runs_iff (h : m.Clears ue m₁) (hu : u ≠ ue) : m₁.Runs u id ↔ m.Runs u id := by
  cases hc : m.context? ue with
  | none => exact runs_congr ((h.absent hc).context? u)
  | some c => exact runs_congr ((h.present c hc).others u hu)

theorem Differs.runs_iff {c : Context} {q : Identification} {t : Timers}
    (h : m.Differs ue c { c.procedures with identification := some q } t m₁)
    (hc : m.context? ue = some c) (hp : c.procedures.identification = some p)
    (hq : q.Continues p) : m₁.Runs ue id ↔ m.Runs ue id := by
  simp [Runs, h.context, hc, Procedures.ids, hp, hq.1]

def failureStop (m : Mme) (config : NasConfig) (ue : UeId) (p : Identification) (i : Interlude) :
    Stop :=
  (m.emit (.lowerLayerFailure ue)).stopAt config i
    (.procedureAborted ue { notify := false, free := true, previousState := p.previousState }
      .lowerLayerFailure) (.failed ue)

theorem deletes_of_failure (hrecord : m.identification? ue = some p) (config : NasConfig)
    (between : Nat → Interlude) :
    (m.handleAmid config between (.lowerLayerFailure ue)).Deletes m ue p (between 0)
      (m.failureStop config ue p (between 0)) [] := by
  obtain ⟨c, hc, hp⟩ := (identification?_eq_some_iff m ue p).1 hrecord
  let n : Notification := .procedureAborted ue
    { notify := false, free := true, previousState := p.previousState } .lowerLayerFailure
  have hbegun : m.begin config (.lowerLayerFailure ue) =
      (m.emit (.lowerLayerFailure ue), .publish n (.failed ue)) := by
    simp only [begin, lowerLayerFailed, hrecord]
    rfl
  have hcarried := (m.emit (.lowerLayerFailure ue)).carryOutAmid_publish config between n
    (.failed ue) rfl
  rw [carryOutAmid_done] at hcarried
  rw [handleAmid_eq m config between _ hbegun, hcarried]
  refine ⟨rfl, rfl, ⟨c, p, hc, hp, ⟨rfl, rfl⟩, ?_⟩, rfl, ?_, .inl ⟨rfl, rfl⟩⟩
  · rw [← hp]
    exact (Differs.refl hc).emit (.lowerLayerFailure ue)
  · exact clears_noteRefusal _ ue n (between 0).delivery

theorem deletes_of_exhaustion {timer : TimerId} (hlast : m.Exhausts config ue timer p)
    (between : Nat → Interlude) :
    ∃ x y, (m.handleAmid config between (.expired ⟨timer, ue, .t3470⟩)).Deletes m ue p (between 0)
      x [y] := by
  obtain ⟨x, y, h⟩ := givesUp_of_exhausts hlast between
  obtain ⟨c, hc, hcounted⟩ := h.decided
  have hp : c.procedures.identification = some p := by
    simpa [identification?, hc] using hlast.record
  exact ⟨x, y, h.stops, h.announced ▸ rfl, ⟨c, p.counted, hc, hp, ⟨rfl, rfl⟩, hcounted⟩,
    h.resuming, h.cleared, .inr ⟨y, rfl, h.ordering, h.settled⟩⟩

theorem deletes_of_aborts {msg : Message} (habort : m.Aborts config ue p msg)
    (between : Nat → Interlude) :
    ∃ x later, (m.handleAmid config between msg).Deletes m ue p (between 0) x later := by
  cases habort with
  | failure hrecord =>
      exact ⟨_, [], deletes_of_failure hrecord config between⟩
  | exhaustion hlast =>
      obtain ⟨x, y, h⟩ := deletes_of_exhaustion hlast between
      exact ⟨x, [y], h⟩

/-- Whatever is done to the store while the handler waits to announce the end of the identification,
no record is deleted but those of the UE. What is deleted was recorded when the handler decided, or
has been brought since; nothing that has been brought is spared. -/
theorem abort_deletes_what_it_finds {msg : Message} (habort : m.Aborts config ue p msg)
    {actions : List Bench.Action} (hstore : ∀ a ∈ actions, a.OnStore)
    (hwork : (between 0).others = (·.perform actions)) :
    ∃ x later, (m.handleAmid config between msg).Deletes m ue p (between 0) x later ∧
      (∀ u id, x.resuming.Runs u id → ¬x.reached.Runs u id →
        u = ue ∧ (m.Runs ue id ∨ x.waiting.Brought ue id actions)) ∧
      ∀ id, ¬x.reached.Runs ue id := by
  obtain ⟨x, later, h⟩ := deletes_of_aborts habort between
  refine ⟨x, later, h, ?_, h.cleared.not_runs⟩
  intro u id hruns hgone
  obtain rfl : u = ue := by
    by_contra hu
    exact hgone ((h.cleared.runs_iff hu).2 hruns)
  refine ⟨rfl, ?_⟩
  obtain ⟨c, q, hc, hp, hq, hdiffers⟩ := h.decided
  have hfound : (x.waiting.perform actions).Runs u id := by
    rw [h.resuming, hwork] at hruns
    exact (runs_congr ((sameButLog_offered _ _ _).context? u)).1 hruns
  exact (hfound.of_perform hstore).imp_left (hdiffers.runs_iff hc hp hq).1

/-- Two UEs begin to attach while the end of the identification of one of them is announced. -/
theorem abort_deletes_what_it_finds_of_two :
    ∃ (config : NasConfig) (m : Mme) (between : Nat → Interlude) (p : Identification) (h : Handling)
      (x : Stop) (later : List Stop), h = m.handleAmid config between (.lowerLayerFailure ⟨1⟩) ∧
      h.Deletes m ⟨1⟩ p (between 0) x later ∧
      x.resuming.Runs ⟨1⟩ ⟨2⟩ ∧ x.resuming.Runs ⟨2⟩ ⟨3⟩ ∧
      ¬x.reached.Runs ⟨1⟩ ⟨2⟩ ∧ x.reached.Runs ⟨2⟩ ⟨3⟩ := by
  let s := ((System.idle {} 4 8).walk? (fun _ _ => True)
    [.act (.insert { ue := ⟨1⟩, state := .registered }),
      .act (.insert { ue := ⟨2⟩, state := .deregistered }),
      .send (.start ⟨1⟩ .imsi none), .receive, .publish, .publish]).get (by decide +kernel)
  let p : Identification :=
    { id := ⟨1⟩, ue := ⟨1⟩, requested := .imsi, t3470 := some ⟨1⟩, parent := none,
      previousState := .registered }
  let actions : List Bench.Action := [.beginSpecific ⟨1⟩ .attach, .beginSpecific ⟨2⟩ .attach]
  let between : Nat → Interlude := fun _ => ⟨(·.perform actions), .accepted⟩
  have hrecord : s.mme.identification? ⟨1⟩ = some p := by decide +kernel
  have hstore : ∀ a ∈ actions, a.OnStore := by simp [actions, Bench.Action.OnStore]
  have hruns : (s.mme.failureStop {} ⟨1⟩ p (between 0)).resuming.Runs ⟨1⟩ ⟨2⟩ ∧
      (s.mme.failureStop {} ⟨1⟩ p (between 0)).resuming.Runs ⟨2⟩ ⟨3⟩ := by
    decide +kernel
  obtain ⟨x, later, h, hremoved, hgone⟩ :=
    abort_deletes_what_it_finds (.failure hrecord) hstore (rfl : (between 0).others = _)
  have hstop := h.stops.symm.trans (deletes_of_failure hrecord {} between).stops
  obtain ⟨rfl, rfl⟩ := List.cons.inj hstop
  refine ⟨{}, s.mme, between, p, _, _, _, rfl, h, hruns.1, hruns.2, hgone ⟨2⟩, ?_⟩
  by_contra hspared
  cases (hremoved ⟨2⟩ ⟨3⟩ hruns.2 hspared).1

/-- An attach that is begun while the end of the identification waits to be announced is deleted,
in the context that was there before as in one that has been stored in its place. -/
theorem begun_meanwhile_deleted :
    ∃ (config : NasConfig) (m : Mme) (ue : UeId) (p : Identification) (attach : Specific),
      m.Aborts config ue p (.lowerLayerFailure ue) ∧ m.specific? ue = none ∧
      ¬m.Runs ue attach.id ∧
      ∀ actions ∈ [[Bench.Action.beginSpecific ue .attach],
          [.remove ue, .insert { ue, state := .registered }, .beginSpecific ue .attach]],
        ∃ h x, h = m.handleAmid config (fun _ => ⟨(·.perform actions), .accepted⟩)
            (.lowerLayerFailure ue) ∧
          h.Deletes m ue p ⟨(·.perform actions), .accepted⟩ x [] ∧
          x.resuming.specific? ue = some attach ∧ ¬h.after.Runs ue attach.id := by
  let s := ((System.idle {} 4 8).walk? (fun _ _ => True)
    [.act (.insert { ue := ⟨1⟩, state := .registered }), .send (.start ⟨1⟩ .imsi none), .receive,
      .publish, .publish]).get (by decide +kernel)
  let p : Identification :=
    { id := ⟨1⟩, ue := ⟨1⟩, requested := .imsi, t3470 := some ⟨1⟩, parent := none,
      previousState := .registered }
  let attach : Specific := { id := ⟨2⟩, kind := .attach }
  have hrecord : s.mme.identification? ⟨1⟩ = some p := by decide +kernel
  have hbegun : ∀ actions ∈ [[Bench.Action.beginSpecific ⟨1⟩ .attach],
      [.remove ⟨1⟩, .insert { ue := ⟨1⟩, state := .registered }, .beginSpecific ⟨1⟩ .attach]],
      (s.mme.failureStop {} ⟨1⟩ p ⟨(·.perform actions), .accepted⟩).resuming.specific? ⟨1⟩ =
        some attach := by
    decide +kernel
  refine ⟨{}, s.mme, ⟨1⟩, p, attach, .failure hrecord, by decide +kernel, by decide +kernel, ?_⟩
  intro actions hactions
  have h := deletes_of_failure hrecord {} fun _ => ⟨(·.perform actions), .accepted⟩
  refine ⟨_, _, rfl, h, hbegun actions hactions, ?_⟩
  obtain ⟨_, hafter⟩ | ⟨_, hlater, _⟩ := h.settled
  · rw [hafter]
    exact h.cleared.not_runs _
  · cases hlater

end Mme

end Emm
