import Emm.Proofs.Frame
import Emm.Proofs.Succession

/-!
Teardowns that follow one another. The application layer has two ways of letting a UE go, and each
of them cleans tables of its own: with its session a UE loses its context and whatever names it,
while the other teardown, or a session torn down without a context, touches the registry only.
`Mme.clear` is the state that both leave behind, as a function of the UEs concerned.

Main statement: `teardowns_settle`, by which nothing but the set of teardowns counts, and not their
order or number.
-/

namespace Emm

inductive TeardownKind
  | session
  | application
deriving DecidableEq

def Notification.teardown? : Notification → Option (TeardownKind × UeId)
  | teardownSession ue _ => some (.session, ue)
  | applicationTeardown ue => some (.application, ue)
  | _ => none

namespace Notification

theorem removed?_eq_some_iff (n : Notification) (ue : UeId) :
    n.removed? = some ue ↔ n.teardown? = some (.session, ue) := by
  cases n <;> simp [removed?, teardown?]

theorem tornDown?_eq_some_iff (n : Notification) (ue : UeId) :
    n.tornDown? = some ue ↔
      n.teardown? = some (.session, ue) ∨ n.teardown? = some (.application, ue) := by
  cases n <;> simp [tornDown?, teardown?]

theorem mem_removed_iff (ns : List Notification) (ue : UeId) :
    ue ∈ ns.filterMap removed? ↔ (.session, ue) ∈ ns.filterMap teardown? := by
  simp only [List.mem_filterMap, removed?_eq_some_iff]

theorem mem_tornDown_iff (ns : List Notification) (ue : UeId) :
    ue ∈ ns.filterMap tornDown? ↔
      (.session, ue) ∈ ns.filterMap teardown? ∨ (.application, ue) ∈ ns.filterMap teardown? := by
  simp only [List.mem_filterMap, tornDown?_eq_some_iff, and_or_left, exists_or]

end Notification

namespace Table

variable {κ : Type u} {ν : Type v}

def filterKeys (t : Table κ ν) (p : κ → Bool) : Table κ ν where
  entries := t.entries.filter fun e => p e.1
  nodup_keys := (List.filter_sublist.map Prod.fst).nodup t.nodup_keys

theorem eq_of_entries {t t' : Table κ ν} (h : t.entries = t'.entries) : t = t' := by
  cases t
  cases t'
  cases h
  rfl

theorem filterKeys_filterKeys (t : Table κ ν) (p q : κ → Bool) :
    (t.filterKeys p).filterKeys q = t.filterKeys fun k => p k && q k :=
  eq_of_entries (by simp [filterKeys, List.filter_filter, Bool.and_comm])

theorem filterValues_filterValues (t : Table κ ν) (p q : ν → Bool) :
    (t.filterValues p).filterValues q = t.filterValues fun v => p v && q v :=
  eq_of_entries (by simp [filterValues, List.filter_filter, Bool.and_comm])

theorem filterValues_eq_self {t : Table κ ν} {p : ν → Bool} (h : ∀ e ∈ t.entries, p e.2 = true) :
    t.filterValues p = t :=
  eq_of_entries (List.filter_eq_self.2 h)

variable [DecidableEq κ]

theorem get?_filterKeys (t : Table κ ν) (p : κ → Bool) (k : κ) :
    (t.filterKeys p).get? k = if p k then t.get? k else none := by
  apply Option.ext
  intro v
  rw [get?_eq_some_iff_mem]
  simp [filterKeys, ← get?_eq_some_iff_mem, and_comm]

theorem filterKeys_eq_self {t : Table κ ν} {p : κ → Bool}
    (h : ∀ k, (t.get? k).isSome → p k = true) : t.filterKeys p = t := by
  refine eq_of_entries (List.filter_eq_self.2 fun e he => h e.1 ?_)
  rw [(t.get?_eq_some_iff_mem e.1 e.2).2 he]
  rfl

end Table

namespace Store

variable (s : Store) (gone : List UeId)

/-- The store without the contexts of the UEs in `gone`. The index no longer names those of them
that had one. -/
def clear : Store :=
  { s with
    contexts := s.contexts.filterKeys fun ue => ue ∉ gone
    index := s.index.filterValues fun owner => ¬(owner ∈ gone ∧ s.contains owner) }

theorem context?_clear (ue : UeId) :
    (s.clear gone).context? ue = if ue ∈ gone then none else s.context? ue := by
  simp [clear, context?, Table.get?_filterKeys]

theorem owner?_clear (imsi : Imsi) :
    (s.clear gone).owner? imsi =
      (s.owner? imsi).filter fun ue => ¬(ue ∈ gone ∧ (s.context? ue).isSome) :=
  Table.get?_filterValues _ _ _

theorem contains_clear (ue : UeId) :
    (s.clear gone).contains ue = (decide (ue ∉ gone) && s.contains ue) := by
  rw [contains_eq_isSome, context?_clear, contains_eq_isSome]
  by_cases h : ue ∈ gone <;> simp [h]

theorem clear_nil : s.clear [] = s := by
  rw [clear, Table.filterKeys_eq_self fun _ _ => by simp,
    Table.filterValues_eq_self fun _ _ => by simp]

theorem clear_clear (later : List UeId) : (s.clear gone).clear later = s.clear (gone ++ later) := by
  have hcontexts : (s.clear gone).contexts.filterKeys (fun ue => ue ∉ later) =
      s.contexts.filterKeys fun ue => ue ∉ gone ++ later := by
    rw [clear, Table.filterKeys_filterKeys]
    simp
  have hindex : (s.clear gone).index.filterValues
        (fun owner => ¬(owner ∈ later ∧ (s.clear gone).contains owner)) =
      s.index.filterValues fun owner => ¬(owner ∈ gone ++ later ∧ s.contains owner) := by
    simp only [contains_clear]
    rw [clear, Table.filterValues_filterValues]
    congr 1
    funext owner
    by_cases hgone : owner ∈ gone <;> simp [hgone]
  simp only [clear] at hcontexts hindex ⊢
  rw [hcontexts, hindex]

theorem remove_eq_clear (ue : UeId) : s.remove ue = s.clear [ue] := by
  cases hpresent : s.contains ue with
  | true =>
      have hcontexts : s.contexts.erase ue = s.contexts.filterKeys fun u => u ∉ [ue] :=
        Table.eq_of_entries (by simp [Table.erase, Table.filterKeys])
      have hindex : s.index.filterValues (fun owner => owner ≠ ue) =
          s.index.filterValues fun owner => ¬(owner ∈ [ue] ∧ s.contains owner) := by
        congr 1
        funext owner
        by_cases howner : owner = ue <;> simp [howner, hpresent]
      rw [remove, if_pos hpresent, clear, hcontexts, hindex]
  | false =>
      have hcontexts : s.contexts.filterKeys (fun u => u ∉ [ue]) = s.contexts := by
        refine Table.filterKeys_eq_self fun u hu => ?_
        have : u ≠ ue := by
          rintro rfl
          rw [contains, Table.contains, hu] at hpresent
          cases hpresent
        simpa using this
      have hindex : s.index.filterValues (fun owner => ¬(owner ∈ [ue] ∧ s.contains owner)) =
          s.index := by
        refine Table.filterValues_eq_self fun e _ => ?_
        by_cases howner : e.2 = ue <;> simp [howner, hpresent]
      rw [remove, hpresent, if_neg Bool.false_ne_true, clear, hcontexts, hindex]

end Store

namespace Registry

variable (r : Registry) (gone : List UeId)

/-- The registry without the UEs in `gone`. -/
def clear : Registry := ⟨r.owners.filterValues fun owner => owner ∉ gone⟩

theorem owner?_clear (imsi : Imsi) :
    (r.clear gone).owner? imsi = (r.owner? imsi).filter fun ue => ue ∉ gone :=
  Table.get?_filterValues _ _ _

theorem clear_nil : r.clear [] = r := by
  rw [clear, Table.filterValues_eq_self fun _ _ => by simp]

theorem clear_clear (later : List UeId) : (r.clear gone).clear later = r.clear (gone ++ later) := by
  simp only [clear, Table.filterValues_filterValues, List.mem_append, not_or, Bool.decide_and]

theorem unregister_eq_clear (ue : UeId) : r.unregister ue = r.clear [ue] := by
  simp [unregister, clear]

theorem clear_of_not_names {ue : UeId} (h : r.names ue = false) : r.clear [ue] = r := by
  rw [clear, Table.filterValues_eq_self]
  intro e he
  have := List.any_eq_false.1 h e he
  simpa using this

end Registry

namespace Timers

theorem without_congr (t : Timers) {ids ids' : List TimerId} (h : ∀ id, id ∈ ids ↔ id ∈ ids') :
    t.without ids = t.without ids' := by
  simp only [without, h]

end Timers

namespace Mme

variable (m : Mme) (gone named : List UeId)

/-- The timers on record for the UEs in `gone`. -/
def recorded : List TimerId :=
  gone.flatMap fun ue => (m.context? ue).toList.flatMap (·.procedures.recordedTimers)

theorem mem_recorded (id : TimerId) :
    id ∈ m.recorded gone ↔
      ∃ ue ∈ gone, ∃ c, m.context? ue = some c ∧ id ∈ c.procedures.recordedTimers := by
  simp [recorded]

/-- What is left when the sessions of the UEs in `gone` are torn down, and the application layer has
let go of those in `named`. -/
def clear : Mme :=
  { m with
    store := m.store.clear gone
    registry := m.registry.clear named
    timers := m.timers.without (m.recorded gone) }

theorem context?_clear (ue : UeId) :
    (m.clear gone named).context? ue = if ue ∈ gone then none else m.context? ue :=
  m.store.context?_clear gone ue

theorem clear_nil : m.clear [] [] = m := by
  simp [clear, Store.clear_nil, Registry.clear_nil, recorded]

/-- A UE that is gone has no timer on record, so those of its context are stopped once. -/
theorem clear_clear (gone' named' : List UeId) :
    (m.clear gone named).clear gone' named' = m.clear (gone ++ gone') (named ++ named') := by
  have hrecorded : ∀ id, id ∈ m.recorded gone ++ (m.clear gone named).recorded gone' ↔
      id ∈ m.recorded (gone ++ gone') := by
    intro id
    simp only [List.mem_append, mem_recorded, context?_clear]
    constructor
    · rintro (⟨ue, hue, h⟩ | ⟨ue, hue, h⟩)
      · exact ⟨ue, .inl hue, h⟩
      · split at h
        · simp at h
        · exact ⟨ue, .inr hue, h⟩
    · rintro ⟨ue, hue | hue, h⟩
      · exact .inl ⟨ue, hue, h⟩
      · by_cases hgone : ue ∈ gone
        · exact .inl ⟨ue, hgone, h⟩
        · refine .inr ⟨ue, hue, ?_⟩
          rw [if_neg hgone]
          exact h
  have htimers : (m.clear gone named).timers.without ((m.clear gone named).recorded gone') =
      m.timers.without (m.recorded (gone ++ gone')) :=
    (m.timers.without_without _ _).trans (m.timers.without_congr hrecorded)
  rw [clear, htimers]
  simp only [clear, Store.clear_clear, Registry.clear_clear]

theorem clear_congr {gone gone' named named' : List UeId} (hgone : ∀ ue, ue ∈ gone ↔ ue ∈ gone')
    (hnamed : ∀ ue, ue ∈ named ↔ ue ∈ named') : m.clear gone named = m.clear gone' named' := by
  have htimers : m.timers.without (m.recorded gone) = m.timers.without (m.recorded gone') :=
    m.timers.without_congr fun id => by simp only [mem_recorded, hgone]
  rw [clear, htimers]
  simp only [clear, Store.clear, Registry.clear, hgone, hnamed]

theorem SameButLog.clear {m m' : Mme} (h : m.SameButLog m') (gone named : List UeId) :
    (m.clear gone named).SameButLog (m'.clear gone named) := by
  rw [h]
  rfl

theorem SameButLog.of_parts {m m' : Mme} (hstore : m'.store = m.store)
    (hregistry : m'.registry = m.registry) (htimers : m'.timers = m.timers) :
    m.SameButLog m' := by
  cases m
  cases m'
  cases hstore
  cases hregistry
  cases htimers
  rfl

theorem store_removeContext (ue : UeId) : (m.removeContext ue).store = m.store.clear [ue] := by
  rw [← Store.remove_eq_clear, removeContext]
  split
  · rfl
  · rename_i habsent
    rw [Store.remove, if_neg habsent]

theorem tearDown_clears (ue : UeId) : (m.clear [ue] [ue]).SameButLog (m.tearDown ue) := by
  have hregistry : (m.tearDown ue).registry = m.registry.clear [ue] := by
    rw [registry_tearDown, Registry.unregister_eq_clear]
  cases hc : m.context? ue with
  | some c =>
      have hafter : m.tearDown ue =
          ((m.removeContext ue).stopTimers c.procedures.recordedTimers).unregister ue := by
        simp only [tearDown, hc]
      refine .of_parts ?_ hregistry ?_
      · rw [hafter]
        exact (store_stopTimers _ _).trans (m.store_removeContext ue)
      · rw [hafter]
        refine (timers_stopTimers _ _).trans ?_
        simp [clear, recorded, hc, Timers.without]
  | none =>
      have habsent : m.store.clear [ue] = m.store := by
        rw [← Store.remove_eq_clear, Store.remove, contains_eq_isSome, hc]
        rfl
      have hafter : m.tearDown ue = (m.emit (.contextAlreadyRemoved ue)).unregister ue := by
        simp only [tearDown, hc]
      refine .of_parts ?_ hregistry ?_
      · rw [hafter]
        exact habsent.symm
      · rw [hafter]
        simp [clear, recorded, hc, unregister]

theorem apply_clears {n : Notification} (hn : n.teardown?.isSome) :
    (m.clear n.removed?.toList n.tornDown?.toList).SameButLog (m.apply n) := by
  cases n with
  | teardownSession ue cause =>
      exact ((m.sameButLog_emit _).clear [ue] [ue]).trans (tearDown_clears _ ue)
  | applicationTeardown ue =>
      have hstore : m.store.clear [] = m.store := m.store.clear_nil
      have hrecorded : m.recorded [] = [] := rfl
      simp only [Notification.removed?, Notification.tornDown?, Option.toList_none,
        Option.toList_some, clear, hstore, hrecorded, Timers.without_nil, apply]
      split
      · rw [← Registry.unregister_eq_clear]
        rfl
      · rename_i hnames
        rw [Registry.clear_of_not_names _ (by simpa using hnames)]
        exact SameButLog.refl m
  | _ => cases hn

theorem teardowns_clear {ns : List Notification} (hns : ∀ n ∈ ns, n.teardown?.isSome) :
    (m.clear (ns.filterMap Notification.removed?)
      (ns.filterMap Notification.tornDown?)).SameButLog (ns.foldl apply m) := by
  induction ns generalizing m with
  | nil =>
      rw [List.filterMap_nil, List.filterMap_nil, clear_nil]
      exact SameButLog.refl m
  | cons n ns ih =>
      have hfirst := m.apply_clears (hns n List.mem_cons_self)
      have hrest := ih (m.apply n) fun n' hn' => hns n' (List.mem_cons_of_mem n hn')
      have happend : ∀ f : Notification → Option UeId,
          (n :: ns).filterMap f = (f n).toList ++ ns.filterMap f := by
        intro f
        cases hf : f n <;> simp [hf]
      rw [happend, happend, ← clear_clear, List.foldl_cons]
      exact (hfirst.clear _ _).trans hrest

/-- After any teardowns the contexts of the UEs whose session was torn down are gone, with their
index entries and the timers on record for them; the registry no longer names any of the UEs. All
else is as before, and teardowns of the same kinds and UEs in another list leave the same. -/
theorem teardowns_settle {ns : List Notification} (hns : ∀ n ∈ ns, n.teardown?.isSome) :
    let ordered := ns.filterMap Notification.teardown?
    let after := ns.foldl apply m
    (∀ ue, after.context? ue = if (.session, ue) ∈ ordered then none else m.context? ue) ∧
    (∀ imsi, after.store.owner? imsi = (m.store.owner? imsi).filter fun ue =>
      ¬((.session, ue) ∈ ordered ∧ (m.context? ue).isSome)) ∧
    (∀ imsi, after.registry.owner? imsi = (m.registry.owner? imsi).filter fun ue =>
      (.session, ue) ∉ ordered ∧ (.application, ue) ∉ ordered) ∧
    (∃ ids, after.timers = m.timers.without ids ∧ ∀ id, id ∈ ids ↔
      ∃ ue c, (.session, ue) ∈ ordered ∧ m.context? ue = some c ∧
        id ∈ c.procedures.recordedTimers) ∧
    ∀ ns' : List Notification, (∀ n ∈ ns', n.teardown?.isSome) →
      (∀ t, t ∈ ns'.filterMap Notification.teardown? ↔ t ∈ ordered) →
        after.SameButLog (ns'.foldl apply m) := by
  intro ordered after
  have hafter := m.teardowns_clear hns
  have hstore : after.store = m.store.clear (ns.filterMap Notification.removed?) :=
    congrArg Mme.store hafter
  have hregistry : after.registry = m.registry.clear (ns.filterMap Notification.tornDown?) :=
    congrArg Mme.registry hafter
  have htimers : after.timers =
      m.timers.without (m.recorded (ns.filterMap Notification.removed?)) :=
    congrArg Mme.timers hafter
  refine ⟨fun ue => ?_, fun imsi => ?_, fun imsi => ?_, ⟨_, htimers, fun id => ?_⟩, ?_⟩
  · rw [hafter.context? ue, context?_clear]
    simp only [Notification.mem_removed_iff, ordered]
  · rw [hstore, Store.owner?_clear]
    simp only [Notification.mem_removed_iff, ordered]
    rfl
  · rw [hregistry, Registry.owner?_clear]
    simp only [Notification.mem_tornDown_iff, not_or, ordered]
  · simp only [mem_recorded, Notification.mem_removed_iff, exists_and_left, ordered]
  · intro ns' hns' hsame
    have hremoved : ∀ ue, ue ∈ ns.filterMap Notification.removed? ↔
        ue ∈ ns'.filterMap Notification.removed? := fun ue => by
      rw [Notification.mem_removed_iff, Notification.mem_removed_iff, hsame]
    have htornDown : ∀ ue, ue ∈ ns.filterMap Notification.tornDown? ↔
        ue ∈ ns'.filterMap Notification.tornDown? := fun ue => by
      rw [Notification.mem_tornDown_iff, Notification.mem_tornDown_iff, hsame, hsame]
    have hafter' := m.teardowns_clear hns'
    rw [← m.clear_congr hremoved htornDown] at hafter'
    exact hafter.symm.trans hafter'

/-- A session torn down twice among other teardowns, and an entry of the index that outlives the
session of a UE without a context. -/
theorem teardowns_settle_of_duplicates :
    ∃ (m : Mme) (ns ns' : List Notification) (x y : Imsi) (ids : List TimerId),
      ns.length = 4 ∧ ns'.length = 3 ∧ (m.context? ⟨1⟩).isSome ∧ (m.context? ⟨2⟩).isSome ∧
      (ns.foldl apply m).SameButLog (ns'.foldl apply m) ∧
      (ns.foldl apply m).context? ⟨1⟩ = none ∧
      (ns.foldl apply m).context? ⟨2⟩ = m.context? ⟨2⟩ ∧
      (ns.foldl apply m).store.owner? x = none ∧
      (ns.foldl apply m).store.owner? y = some ⟨9⟩ ∧
      (ns.foldl apply m).registry.owner? y = none ∧
      (ns.foldl apply m).timers = m.timers.without ids ∧ ⟨1⟩ ∈ ids ∧ ⟨2⟩ ∉ ids := by
  let x : Imsi := ⟨[0, 0, 1, 0, 1, 0], by decide⟩
  let y : Imsi := ⟨[0, 0, 1, 0, 1, 1], by decide⟩
  let p : Identification :=
    { id := ⟨1⟩, ue := ⟨1⟩, requested := .imsi, t3470 := some ⟨1⟩, parent := none,
      previousState := .registered }
  let c : Context :=
    { ue := ⟨1⟩, state := .registered, imsi := some x, procedures := { identification := some p } }
  let stored : Mme :=
    ((({} : Mme).insertContext c).insertContext { ue := ⟨2⟩, state := .registered }).claim y ⟨9⟩
  let m : Mme :=
    ({ stored with registry := stored.registry.register y ⟨2⟩ }.startTimer ⟨1⟩ .t3470
      ⟨3000⟩).2.startTimer ⟨2⟩ .t3470 ⟨3000⟩ |>.2
  let ns : List Notification :=
    [.teardownSession ⟨1⟩ .illegalUe, .applicationTeardown ⟨2⟩, .teardownSession ⟨9⟩ .illegalUe,
      .teardownSession ⟨1⟩ .implicitlyDetached]
  let ns' : List Notification :=
    [.teardownSession ⟨9⟩ .illegalUe, .teardownSession ⟨1⟩ .illegalUe, .applicationTeardown ⟨2⟩]
  have hns : ∀ n ∈ ns, n.teardown?.isSome := by decide
  obtain ⟨hcontexts, hindex, hregistry, ⟨ids, htimers, hids⟩, hsame⟩ := m.teardowns_settle hns
  refine ⟨m, ns, ns', x, y, ids, rfl, rfl, by decide +kernel, by decide +kernel,
    hsame ns' (by decide) ?_, ?_, ?_, ?_, ?_, ?_, htimers, ?_, ?_⟩
  · intro t
    simp only [ns, ns', Notification.teardown?, List.filterMap_cons, List.filterMap_nil,
      List.mem_cons, List.not_mem_nil]
    grind
  · rw [hcontexts]
    rfl
  · rw [hcontexts]
    rfl
  · rw [hindex]
    decide +kernel
  · rw [hindex]
    decide +kernel
  · rw [hregistry]
    decide +kernel
  · exact (hids ⟨1⟩).2 ⟨⟨1⟩, c, by decide, by decide +kernel, by decide⟩
  · rw [hids]
    rintro ⟨ue, d, hordered, hd, hrecorded⟩
    have hue : ue = ⟨1⟩ ∨ ue = ⟨9⟩ := by
      simp only [ns, Notification.teardown?, List.filterMap_cons, List.filterMap_nil,
        List.mem_cons, Prod.mk.injEq] at hordered
      grind
    rcases hue with rfl | rfl
    · have hc : m.context? ⟨1⟩ = some c := by decide +kernel
      cases hc.symm.trans hd
      exact absurd hrecorded (by decide)
    · have hnone : m.context? ⟨9⟩ = none := by decide +kernel
      cases hnone.symm.trans hd

end Mme

end Emm
