import Emm.Proofs.Parking
import Emm.Proofs.Rejection

/-!
The removal of a context that another party still holds. The holder may be in the middle of a change
of the context, or may only have looked it up. The contents go to the remover all the same, and what
stays with the holder is blank.

Main statement: `removal_while_held`. To the remover and to the store it makes no difference whether
anybody holds the context, but that the holder's change comes first; and what a handler does to the
context that it is left with starts and stops no timer.
-/

namespace Emm

theorem Table.erase_modify {κ ν : Type} [DecidableEq κ] (t : Table κ ν) (k : κ) (f : ν → ν) :
    (t.modify k f).erase k = t.erase k := by
  simp only [erase, modify, mk.injEq]
  induction t.entries with
  | nil => rfl
  | cons e es ih =>
      by_cases he : e.1 = k
      · simpa [he] using ih
      · simpa [he] using ih

theorem Table.modify_of_get?_eq_none {κ ν : Type} [DecidableEq κ] {t : Table κ ν} {k : κ}
    (h : t.get? k = none) (f : ν → ν) : t.modify k f = t := by
  have hkeys : ∀ e ∈ t.entries, e.1 ≠ k := by
    rw [get?, Option.map_eq_none_iff, List.find?_eq_none] at h
    simpa using h
  obtain ⟨entries, hnodup⟩ := t
  simp only [modify, mk.injEq]
  refine (List.map_congr_left fun e he => ?_).trans (List.map_id _)
  exact if_neg (hkeys e he)

/-- No identity of the UE is in the context, and no procedure. -/
structure Context.Blank (c : Context) : Prop where
  imsi : c.imsi = none
  imei : c.imei = none
  imeisv : c.imeisv = none
  procedures : c.procedures = {}

namespace Mme

/-- Removes the context of the UE and gives it away. If another party holds it, that party first
finishes its change. -/
def withdraw (m : Mme) (ue : UeId) (holder : Option (Context → Context)) : Mme × Option Context :=
  match m.context? ue with
  | none => (m, none)
  | some c =>
      (m.removeContext ue,
        match holder with
        | none => some c
        | some change => some (Store.part c change).removed)

/-- What a bench is told of a removal. -/
def report (outcome : Mme × Option Context) : Mme × Bench.ActionReply :=
  (outcome.1, outcome.2.elim .absent .removed)

/-- The context of the UE is gone, and so are the entries of the index that named the UE. All the
rest is as it was in `m`. -/
structure Without (m' m : Mme) (ue : UeId) : Prop where
  context : ∀ u, m'.context? u = if u = ue then none else m.context? u
  owner : ∀ imsi, m'.store.owner? imsi = (m.store.owner? imsi).filter (· ≠ ue)
  nextProcedure : m'.store.nextProcedure = m.store.nextProcedure
  registry : m'.registry = m.registry
  timers : m'.timers = m.timers

/-- The shared state as it looks to a party that has got hold of `c` as the context of the UE. -/
def holding (m : Mme) (ue : UeId) (c : Context) : Mme :=
  { m with store := { m.store with contexts := m.store.contexts.insert ue c } }

/-- What a handler may do to the context of the UE while it holds it, with the timers that it starts
and stops there. Only the start of an identification, which concerns no timer, is left out. -/
inductive Grip (ue : UeId) : (Mme → Mme) → Prop
  /-- A response is taken, an expiry, a failure of the lower layers, a request lost in a handover,
  or an abort. -/
  | handle (config : NasConfig) {msg : Message} (hue : msg.ue = ue)
      (hstart : ∀ requested parent, msg ≠ .start ue requested parent) :
      Grip ue fun m => (m.begin config msg).1
  | arm (interval : Duration) : Grip ue fun m => m.armT3470 interval ue
  | park (interval : Duration) (parent : Option ProcedureId) (old : UeId) :
      Grip ue fun m => (m.parkParent interval ue parent old).1
  | release : Grip ue fun m => m.releaseIdentification ue
  | delete : Grip ue fun m => m.deleteProcedures ue

/-- No procedure is on record for the UE. -/
def Vacant (m : Mme) (ue : UeId) : Prop := ∀ c, m.context? ue = some c → c.procedures = {}

variable {m m' : Mme} {ue : UeId}

theorem contains_modifyContext (m : Mme) (ue : UeId) (f : Context → Context) :
    (m.modifyContext ue f).store.contains ue = m.store.contains ue := by
  rw [contains_eq_isSome, contains_eq_isSome, context?_modifyContext, if_pos rfl, Option.isSome_map]

theorem removeContext_modifyContext (hpresent : m.store.contains ue = true)
    (f : Context → Context) : (m.modifyContext ue f).removeContext ue = m.removeContext ue := by
  have herase : (m.modifyContext ue f).store.remove ue = m.store.remove ue := by
    have hcontains : (m.modifyContext ue f).store.contains ue = true := by
      rw [contains_modifyContext, hpresent]
    rw [Store.remove, Store.remove, if_pos hcontains, if_pos hpresent]
    simp only [modifyContext, Store.modify, Table.erase_modify]
  rw [removeContext, removeContext, contains_modifyContext, hpresent, if_pos rfl, if_pos rfl,
    herase]
  rfl

theorem withdraw_of_absent (h : m.context? ue = none) (holder : Option (Context → Context)) :
    m.withdraw ue holder = (m, none) := by
  rw [withdraw, h]

/-- That somebody holds the context makes no difference to the remover and to the store, but that
the holder's change comes first. -/
theorem withdraw_held (m : Mme) (ue : UeId) (change : Context → Context) :
    m.withdraw ue (some change) = (m.modifyContext ue change).withdraw ue none := by
  have hchanged : (m.modifyContext ue change).context? ue = (m.context? ue).map change := by
    rw [context?_modifyContext, if_pos rfl]
  cases hc : m.context? ue with
  | none =>
      have hsame : m.modifyContext ue change = m := by
        rw [modifyContext, Store.modify, Table.modify_of_get?_eq_none hc]
      rw [hsame, withdraw_of_absent hc, withdraw_of_absent hc]
  | some c =>
      have hpresent : m.store.contains ue = true := by
        rw [contains_eq_isSome, hc]
        rfl
      rw [hc, Option.map_some] at hchanged
      simp only [withdraw, hc, hchanged, removeContext_modifyContext hpresent]
      rfl

theorem withdraw_of_present {c : Context} (h : m.context? ue = some c)
    (holder : Option (Context → Context)) :
    m.withdraw ue holder = (m.removeContext ue, some (holder.elim c fun change => change c)) := by
  simp only [withdraw, h]
  cases holder with
  | none => rfl
  | some change => rfl

theorem without_removeContext {c : Context} (h : m.context? ue = some c) :
    (m.removeContext ue).Without m ue where
  context u := context?_removeContext m ue u
  owner imsi := by
    rw [owner?_removeContext, contains_eq_isSome, h, Option.isSome_some, if_pos rfl]
  nextProcedure := by
    simp only [removeContext, Store.remove]
    split <;> rfl
  registry := registry_removeContext m ue
  timers := timers_removeContext m ue

theorem run_remove (m : Mme) (ue : UeId) :
    (Bench.Action.remove ue).run m = report (m.withdraw ue none) := by
  cases hc : m.context? ue with
  | none => simp [Bench.Action.run, report, withdraw_of_absent hc, hc]
  | some c => simp [Bench.Action.run, report, withdraw_of_present hc, hc]

theorem run_removeHeld (m : Mme) (ue : UeId) (cause : EmmCause) :
    (Bench.Action.removeHeld ue cause).run m =
      report (m.withdraw ue (some fun c => { c with cause := some cause })) := by
  cases hc : m.context? ue with
  | none => simp [Bench.Action.run, report, withdraw_of_absent hc, hc]
  | some c => simp [Bench.Action.run, report, withdraw_of_present hc, hc, Store.part]

theorem Vacant.identification? (h : m.Vacant ue) : m.identification? ue = none := by
  cases hc : m.context? ue with
  | none => rw [Mme.identification?, hc, Option.bind_none]
  | some c => rw [Mme.identification?, hc, Option.bind_some, h c hc]

theorem Vacant.specific? (h : m.Vacant ue) : m.specific? ue = none := by
  cases hc : m.context? ue with
  | none => rw [Mme.specific?, hc, Option.bind_none]
  | some c => rw [Mme.specific?, hc, Option.bind_some, h c hc]

theorem Vacant.log (h : m.Vacant ue) (hsame : m.SameButLog m') : m'.Vacant ue := by
  intro c hc
  rw [hsame.context?] at hc
  exact h c hc

theorem vacant_holding (m : Mme) (ue : UeId) (c : Context) (change : Context → Context) :
    (m.holding ue (Store.part c change).leftover).Vacant ue := by
  intro c' hc'
  have hleft : (m.holding ue (Store.part c change).leftover).context? ue =
      some (Store.part c change).leftover := by
    rw [context?, Store.context?, holding, Table.get?_insert, if_pos rfl]
  cases hleft.symm.trans hc'
  rfl

theorem Vacant.handle? (h : m.Vacant ue) (kind : TimerKind) : m.handle? ue kind = none := by
  cases kind with
  | t3470 => rw [handle?_t3470, h.identification?, Option.bind_none]
  | specificRetry => rw [handle?_specificRetry, h.specific?, Option.bind_none]

theorem Vacant.rejects (h : m.Vacant ue) {msg : Message} (hue : msg.ue = ue)
    (hstart : ∀ requested parent, msg ≠ .start ue requested parent) : m.Rejects msg := by
  subst hue
  cases msg with
  | start ue requested parent => exact absurd rfl (hstart requested parent)
  | expired e =>
      have hnone := h.handle? e.kind
      intro hrecorded
      cases hnone.symm.trans hrecorded
  | complete ue identity => exact h.identification?
  | lowerLayerFailure ue => exact h.identification?
  | nonDelivery ue => exact h.identification?
  | abort ue => exact h.identification?

theorem Vacant.parkParent (h : m.Vacant ue) (interval : Duration) (parent : Option ProcedureId)
    (old : UeId) : m.SameButLog (m.parkParent interval ue parent old).1 := by
  unfold Mme.parkParent
  split
  · exact m.sameButLog_emit _
  · rename_i id
    have hnone : (m.context? ue).bind (·.procedures.specific? id) = none := by
      rw [find_specific, h.specific?]
      rfl
    rw [hnone]
    exact m.sameButLog_emit _

theorem Vacant.deleteProcedures (h : m.Vacant ue) :
    (m.deleteProcedures ue).timers = m.timers ∧ (m.deleteProcedures ue).Vacant ue := by
  unfold Mme.deleteProcedures
  split
  · rename_i c hc
    rw [h c hc]
    refine ⟨timers_modifyContext m ue _, ?_⟩
    intro c' hc'
    change (m.modifyContext ue _).context? ue = some c' at hc'
    rw [context?_modifyContext, if_pos rfl, hc, Option.map_some] at hc'
    cases hc'
    rfl
  · exact ⟨rfl, h⟩

/-- Nothing that a handler does to a context without procedures starts or stops a timer, and the
context stays without procedures. -/
theorem Grip.inert {k : Mme → Mme} (hk : Grip ue k) (h : m.Vacant ue) :
    (k m).timers = m.timers ∧ (k m).Vacant ue := by
  have hsame : ∀ {m'}, m.SameButLog m' → m'.timers = m.timers ∧ m'.Vacant ue := by
    intro m' hlog
    refine ⟨?_, h.log hlog⟩
    rw [hlog]
  cases hk with
  | handle config hue hstart =>
      exact hsame ((begin_ignores_iff m config _).2 (h.rejects hue hstart)).1
  | arm interval =>
      apply hsame
      show m.SameButLog (m.armT3470 interval ue)
      rw [armT3470, h.identification?]
      exact m.sameButLog_emit _
  | park interval parent old => exact hsame (h.parkParent interval parent old)
  | release =>
      apply hsame
      show m.SameButLog (m.releaseIdentification ue)
      rw [releaseIdentification, h.identification?]
      exact .refl m
  | delete => exact h.deleteProcedures

theorem timers_of_grips {ks : List (Mme → Mme)} (hks : ∀ k ∈ ks, Grip ue k) (h : m.Vacant ue) :
    (ks.foldl (fun m k => k m) m).timers = m.timers := by
  induction ks generalizing m with
  | nil => rfl
  | cons k ks ih =>
      obtain ⟨htimers, hvacant⟩ := (hks k (List.mem_cons_self ..)).inert h
      rw [List.foldl_cons, ih (fun l hl => hks l (List.mem_cons_of_mem _ hl)) hvacant, htimers]

/-- What removals do, whether or not another party holds the context. On a bench they are the two
removals that can be scripted. A holder's change comes first, and apart from that it makes no
difference to the outcome and to the state that there is a holder. The remover is given the whole
context; that and the index entries of the UE are what goes, and a second removal finds nothing. The
holder is left with a context that has no identity and no procedure, and whatever handlers do to it
while it is theirs, they start and stop no timer. -/
theorem removal_while_held (m : Mme) (ue : UeId) (change : Context → Context) :
    (Bench.Action.remove ue).run m = report (m.withdraw ue none) ∧
      (∀ cause, (Bench.Action.removeHeld ue cause).run m =
        report (m.withdraw ue (some fun c => { c with cause := some cause }))) ∧
      m.withdraw ue (some change) = (m.modifyContext ue change).withdraw ue none ∧
      m.withdraw ue (some id) = m.withdraw ue none ∧
      (m.context? ue = none → ∀ holder, m.withdraw ue holder = (m, none)) ∧
      ∀ c, m.context? ue = some c →
        (∀ holder, (m.withdraw ue holder).2 = some (holder.elim c fun change => change c) ∧
          (m.withdraw ue holder).1.Without m ue ∧
          ∀ again, (m.withdraw ue holder).1.withdraw ue again = ((m.withdraw ue holder).1, none)) ∧
        (Store.part c change).leftover.Blank ∧
        ∀ (m₁ : Mme) (ks : List (Mme → Mme)), (∀ k ∈ ks, Grip ue k) →
          (ks.foldl (fun m k => k m) (m₁.holding ue (Store.part c change).leftover)).timers =
            m₁.timers := by
  refine ⟨run_remove m ue, run_removeHeld m ue, withdraw_held m ue change, ?_, ?_, ?_⟩
  · cases hc : m.context? ue with
    | none => rw [withdraw_of_absent hc, withdraw_of_absent hc]
    | some c =>
        rw [withdraw_of_present hc, withdraw_of_present hc]
        rfl
  · intro habsent holder
    exact withdraw_of_absent habsent holder
  · intro c hc
    refine ⟨?_, ⟨rfl, rfl, rfl, rfl⟩, ?_⟩
    · intro holder
      rw [withdraw_of_present hc]
      have hwithout := without_removeContext hc
      refine ⟨rfl, hwithout, fun again => ?_⟩
      apply withdraw_of_absent
      rw [hwithout.context, if_pos rfl]
    · intro m₁ ks hks
      exact timers_of_grips hks (vacant_holding m₁ ue c change)

/-- A UE is removed in the middle of its identification, while the collision of another UE notes the
cause on it. The remover gets the cause, the IMSI and the timer; the request and the expiry that
come too late for the holder leave the only armed timer alone. -/
theorem removal_while_held_identifying :
    ∃ (m : Mme) (c : Context) (x : Imsi) (change : Context → Context) (arm expire : Mme → Mme),
      c.imsi = some x ∧ m.store.owner? x = some ⟨1⟩ ∧ m.timers.armed.length = 1 ∧
      (m.withdraw ⟨1⟩ (some change)).2 = some { c with cause := some .illegalUe } ∧
      c.procedures.recordedTimers = [⟨1⟩] ∧
      (m.withdraw ⟨1⟩ (some change)).1.store.owner? x = none ∧
      (expire (arm ((m.withdraw ⟨1⟩ (some change)).1.holding ⟨1⟩
        (Store.part c change).leftover))).timers = m.timers := by
  let x : Imsi := ⟨[0, 0, 1, 0, 1, 0], by decide⟩
  let p : Identification :=
    { id := ⟨1⟩, ue := ⟨1⟩, requested := .imsi, t3470 := some ⟨1⟩, parent := none,
      previousState := .registered }
  let c : Context :=
    { ue := ⟨1⟩, state := .registered, imsi := some x, procedures := { identification := some p } }
  let m : Mme := ((({} : Mme).insertContext c).startTimer ⟨1⟩ .t3470 ⟨3000⟩).2
  let change : Context → Context := fun c => { c with cause := some .illegalUe }
  let arm : Mme → Mme := fun m => m.armT3470 ⟨3000⟩ ⟨1⟩
  let expire : Mme → Mme := fun m => (m.begin {} (.expired ⟨⟨1⟩, ⟨1⟩, .t3470⟩)).1
  have hc : m.context? ⟨1⟩ = some c := by decide +kernel
  obtain ⟨_, _, _, _, _, hpresent⟩ := m.removal_while_held ⟨1⟩ change
  obtain ⟨hremoved, _, hinert⟩ := hpresent c hc
  obtain ⟨hgiven, hwithout, _⟩ := hremoved (some change)
  have hgrips : ∀ k ∈ [arm, expire], Grip ⟨1⟩ k := by
    intro k hk
    rcases List.mem_cons.1 hk with rfl | hk
    · exact .arm _
    · cases List.mem_singleton.1 hk
      exact .handle {} rfl nofun
  refine ⟨m, c, x, change, arm, expire, rfl, by decide +kernel, by decide +kernel, hgiven, rfl,
    ?_, ?_⟩
  · rw [hwithout.owner]
    decide +kernel
  · rw [← hwithout.timers]
    exact hinert _ [arm, expire] hgrips

end Mme

end Emm
