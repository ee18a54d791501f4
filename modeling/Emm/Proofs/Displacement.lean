import Emm.Proofs.Settlement

/-!
Whom a collision displaces. When a UE that carries an IMSI is identified under another one, the
index keeps the entry of the former. Main statements: `displaced_once_carried`, by which whoever is
displaced for an IMSI carries it, or did so before it was identified under another; and
`displaced_without_imsi`, a run in which a UE is torn down for an IMSI that it carries no more.
-/

namespace Emm

namespace Moment

/-- A response gives the UE another IMSI in place of the one that it carries. -/
def Reidentifies (x : Moment) (ue : UeId) (imsi : Imsi) : Prop :=
  ∃ other rest, x.move = .receive ∧
    x.before.inbox.queue = .message (.complete ue (.imsi other)) :: rest ∧ other ≠ imsi ∧
    x.before.mme.imsi? ue = some imsi ∧ x.after.mme.imsi? ue = some other

def Removes (x : Moment) (ue : UeId) : Prop :=
  (x.before.mme.context? ue).isSome ∧ x.after.mme.context? ue = none

/-- The move is not one of the EMM task. -/
def Outside (x : Moment) : Prop := x.move ≠ .receive ∧ x.move ≠ .publish

end Moment

namespace System

variable {s s' : System} {a : Move} {ms : List Moment}

/-- Contexts are stored without an IMSI and for UEs that have none. Nobody but the tasks removes a
context, writes an IMSI or writes one of the tables of owners. -/
def BringsNoImsi (s : System) : Move → Prop
  | .act (.insert c) => c.imsi = none ∧ s.mme.context? c.ue = none
  | .act action => action.movesOwners = false
  | _ => True

instance (s : System) : (a : Move) → Decidable (s.BringsNoImsi a)
  | .act (.insert _) => inferInstanceAs (Decidable (_ ∧ _))
  | .act (.remove _) | .act (.removeHeld ..) | .act (.contains _) | .act (.setState ..)
  | .act (.setSecurity ..) | .act (.setImsi ..) | .act (.claim ..) | .act (.register ..)
  | .act (.unregister _) | .act .takeProcedureId | .act (.beginSpecific ..) | .act (.endSpecific _)
  | .act (.endIdentification _) | .act (.endAll _) | .act (.findSpecific ..)
  | .act (.armRetry ..) | .act (.startTimer ..) | .act (.stopTimer _) | .act .stopAllTimers =>
      inferInstanceAs (Decidable (_ = false))
  | .receive | .publish | .take | .discard | .fire _ | .deliver | .advance _ | .send _
  | .askEmmToStop | .askAppToStop | .closeBus | .tearDown _ => .isTrue trivial

theorem BringsNoImsi.stores_or_stays {action : Bench.Action}
    (hok : s.BringsNoImsi (.act action)) :
    (∃ c, action = .insert c ∧ c.imsi = none ∧ s.mme.context? c.ue = none) ∨
      action.movesOwners = false := by
  cases action with
  | insert c => exact .inl ⟨c, rfl, hok⟩
  | _ => exact .inr hok

end System

/-- What others than the EMM task do to contexts and index. -/
inductive Upkeep (m m' : Mme) : Prop
  | none (hcarried : ∀ ue, (m'.context? ue).map (·.imsi) = (m.context? ue).map (·.imsi))
      (hindex : ∀ imsi, m'.store.owner? imsi = m.store.owner? imsi)
  | tearDown (ue : UeId) (hcontext : ∀ u, m'.context? u = if u = ue then .none else m.context? u)
      (hindex : ∀ imsi, m'.store.owner? imsi =
        if m.store.contains ue then (m.store.owner? imsi).filter (· ≠ ue)
        else m.store.owner? imsi)
  | store {c : Context} (hblank : c.imsi = .none) (hnew : m.context? c.ue = .none)
      (hcontext : ∀ u, m'.context? u = if u = c.ue then some c else m.context? u)
      (hindex : ∀ imsi, m'.store.owner? imsi = m.store.owner? imsi)

namespace System

variable {s s' : System} {a : Move} {ms : List Moment}

theorem upkeep_of_step (hok : s.BringsNoImsi a) (hreceive : a ≠ .receive) (hpublish : a ≠ .publish)
    (hstep : s.step? a = some s') : Upkeep s.mme s'.mme := by
  have hchange := step_change hstep
  generalize s'.mme = m' at hchange
  cases hchange with
  | edits ha _ => exact (ha.elim hreceive hpublish).elim
  | log log => exact .none (fun _ => rfl) fun _ => rfl
  | apply h =>
      cases h with
      | log log => exact .none (fun _ => rfl) fun _ => rfl
      | register hc hcarried => exact .none (fun _ => rfl) fun _ => rfl
      | unregister ue log => exact .none (fun _ => rfl) fun _ => rfl
      | tearDown ue e =>
          exact .tearDown ue (fun u => Mme.context?_tearDown _ ue u)
            fun imsi => Mme.owner?_tearDown _ ue imsi
  | fire ha hdue => exact .none (fun _ => rfl) fun _ => rfl
  | advance d => exact .none (fun _ => rfl) fun _ => rfl
  | tearDown ue =>
      exact .tearDown ue (fun u => s.mme.context?_tearDown ue u)
        fun imsi => s.mme.owner?_tearDown ue imsi
  | act action =>
      obtain ⟨c, rfl, hblank, hnew⟩ | hstays := hok.stores_or_stays
      · refine .store hblank hnew (fun u => s.mme.context?_insertContext u c) fun imsi => ?_
        refine (s.mme.owner?_insertContext imsi c).trans (if_neg ?_)
        rw [hblank]
        exact nofun
      · have hsame := s.mme.sameOwners_action hstays
        exact .none hsame.carried hsame.index

theorem carried_of_upkeep {m m' : Mme} {ue : UeId} {imsi : Imsi} (h : Upkeep m m')
    (hcarried : m.imsi? ue = some imsi) : m'.imsi? ue = some imsi ∨ m'.context? ue = none := by
  obtain ⟨c, hc, himsi⟩ := (Mme.imsi?_eq_some_iff m ue imsi).1 hcarried
  cases h with
  | none hsame _ =>
      have hcontext := hsame ue
      rw [hc] at hcontext
      obtain ⟨c', hc', himsi'⟩ := Option.map_eq_some_iff.1 hcontext
      exact .inl ((Mme.imsi?_eq_some_iff m' ue imsi).2 ⟨c', hc', himsi'.trans himsi⟩)
  | tearDown u hcontext _ =>
      by_cases hu : ue = u
      · exact .inr ((hcontext ue).trans (if_pos hu))
      · have hkept := (hcontext ue).trans (if_neg hu)
        exact .inl (by rwa [Mme.imsi?, hkept])
  | @store c' _ hnew hcontext _ =>
      have hne : ue ≠ c'.ue := by
        rintro rfl
        rw [hnew] at hc
        cases hc
      have hkept := (hcontext ue).trans (if_neg hne)
      exact .inl (by rwa [Mme.imsi?, hkept])

/-- The index names UEs with contexts, and each under an IMSI that it carries or was once given
another in place of. -/
def Traced (ms : List Moment) (m : Mme) : Prop :=
  ∀ imsi ue, m.store.owner? imsi = some ue →
    (m.context? ue).isSome ∧ (m.imsi? ue = some imsi ∨ ∃ x ∈ ms, x.Reidentifies ue imsi)

theorem Traced.later {m : Mme} (h : Traced ms m) (x : Moment) : Traced (ms ++ [x]) m := by
  intro imsi ue hindex
  obtain ⟨hlive, htraced⟩ := h imsi ue hindex
  exact ⟨hlive, htraced.imp_right fun ⟨y, hy, hre⟩ => ⟨y, List.mem_append_left _ hy, hre⟩⟩

theorem Traced.of_sameOwners {m m' : Mme} (h : m.SameOwners m') (hm : Traced ms m) :
    Traced ms m' := by
  intro imsi ue hindex
  rw [h.index] at hindex
  rw [h.isSome_context?, h.imsi?]
  exact hm imsi ue hindex

theorem Traced.of_upkeep {m m' : Mme} (h : Upkeep m m') (hm : Traced ms m) : Traced ms m' := by
  intro imsi ue hindex
  -- Only a teardown takes a context away, and it takes the entries of the UE along.
  have hkept : m.store.owner? imsi = some ue ∧ (m'.context? ue).isSome := by
    cases h with
    | none hcarried hsame =>
        rw [hsame] at hindex
        have hlive := congrArg Option.isSome (hcarried ue)
        simp only [Option.isSome_map] at hlive
        exact ⟨hindex, hlive.trans (hm imsi ue hindex).1⟩
    | tearDown u hcontext hfiltered =>
        rw [hfiltered] at hindex
        rw [hcontext]
        split at hindex
        · obtain ⟨howner, hne⟩ := Option.filter_eq_some_iff.1 hindex
          rw [if_neg (by simpa using hne)]
          exact ⟨howner, (hm imsi ue howner).1⟩
        · rename_i habsent
          have hlive := (hm imsi ue hindex).1
          rw [if_neg (by rintro rfl; exact habsent hlive)]
          exact ⟨hindex, hlive⟩
    | store _ _ hcontext hsame =>
        rw [hsame] at hindex
        rw [hcontext]
        split
        · exact ⟨hindex, rfl⟩
        · exact ⟨hindex, (hm imsi ue hindex).1⟩
  obtain ⟨_, hcarried | htraced⟩ := hm imsi ue hkept.1
  · refine ⟨hkept.2, .inl ((carried_of_upkeep h hcarried).resolve_right fun hnone => ?_)⟩
    rw [hnone] at hkept
    cases hkept.2
  · exact ⟨hkept.2, .inr htraced⟩

theorem traced_step (hok : s.BringsNoImsi a) (hstep : s.step? a = some s')
    (hs : Traced ms s.mme) : Traced (ms ++ [⟨s, a, s'⟩]) s'.mme := by
  by_cases ha : a = .receive ∨ a = .publish
  · cases settled_of_step ha hstep with
    | aside howners _ _ => exact (hs.of_sameOwners howners).later _
    | displaces _ _ _ howners _ => exact (hs.of_sameOwners howners).later _
    | @assigns _ ue other rest p hqueue hp hfound howners hemm =>
        refine Traced.of_sameOwners howners fun imsi u hindex => ?_
        obtain ⟨c, hc, _⟩ := (Mme.identification?_eq_some_iff s.mme ue p).1 hp
        have hcontext :
            (s.mme.assigned ue other).context? ue = some { c with imsi := some other } := by
          simp [Mme.assigned, hc]
        have hgiven : (s.mme.assigned ue other).imsi? ue = some other :=
          (Mme.imsi?_eq_some_iff _ ue other).2 ⟨_, hcontext, rfl⟩
        rw [Mme.assigned, Mme.owner?_claim, Mme.owner?_modifyContext] at hindex
        split at hindex
        · rename_i hi
          cases hindex
          rw [hi, hcontext]
          exact ⟨rfl, .inl hgiven⟩
        · rename_i hne
          obtain ⟨hlive, htraced⟩ := hs imsi u hindex
          by_cases hu : u = ue
          · subst hu
            rw [hcontext]
            refine ⟨rfl, .inr ?_⟩
            obtain hcarried | ⟨x, hx, hre⟩ := htraced
            · refine ⟨⟨s, .receive, s'⟩, by simp, other, rest, rfl, hqueue, Ne.symm hne, hcarried,
                ?_⟩
              exact (howners.imsi? u).trans hgiven
            · exact ⟨x, by simp [hx], hre⟩
          · have hkept : (s.mme.assigned ue other).context? u = s.mme.context? u := by
              simp [Mme.assigned, hu]
            rw [Mme.imsi?, hkept]
            exact (hs.later _) imsi u hindex
  · obtain ⟨hreceive, hpublish⟩ := not_or.1 ha
    exact (hs.of_upkeep (upkeep_of_step hok hreceive hpublish hstep)).later _

/-- The holder carries the IMSI that is claimed, or was once given another in its place, or was
removed while the handler that found it waited. -/
def Implicated (ms : List Moment) (m : Mme) (claim : Claim) (old : UeId) : Prop :=
  claim.ue ≠ old ∧
    (m.imsi? old = some claim.imsi ∨ (∃ x ∈ ms, x.Reidentifies old claim.imsi) ∨
      ∃ pre x post, ms = pre ++ x :: post ∧ x.Removes old ∧ ∀ y ∈ x :: post, y.Outside)

/-- Whom the EMM task waits to tear down is a holder that stands in the way of a claim. -/
structure Justified (ms : List Moment) (s : System) : Prop where
  traced : Traced ms s.mme
  condemned : ∀ old, s.emm.condemned? = some old →
    ∃ claim, s.emm.displacing? = some (claim, .context old)
  implicated : ∀ claim old, s.emm.displacing? = some (claim, .context old) →
    Implicated ms s.mme claim old

theorem Implicated.outside {claim : Claim} {old : UeId} (hreceive : a ≠ .receive)
    (hpublish : a ≠ .publish) (hupkeep : Upkeep s.mme s'.mme)
    (h : Implicated ms s.mme claim old) :
    Implicated (ms ++ [⟨s, a, s'⟩]) s'.mme claim old := by
  obtain ⟨hne, hcarried | ⟨x, hx, hre⟩ | ⟨pre, x, post, rfl, hremoves, houtside⟩⟩ := h
  · refine ⟨hne, (carried_of_upkeep hupkeep hcarried).imp_right fun hnone => .inr ?_⟩
    obtain ⟨c, hc, _⟩ := (Mme.imsi?_eq_some_iff s.mme old claim.imsi).1 hcarried
    refine ⟨ms, ⟨s, a, s'⟩, [], rfl, ⟨by simp [hc], hnone⟩, ?_⟩
    rintro y (_ | ⟨_, ⟨⟩⟩)
    exact ⟨hreceive, hpublish⟩
  · exact ⟨hne, .inr (.inl ⟨x, List.mem_append_left _ hx, hre⟩)⟩
  · refine ⟨hne, .inr (.inr ⟨pre, x, post ++ [⟨s, a, s'⟩], by simp, hremoves, ?_⟩)⟩
    intro y hy
    rw [← List.cons_append, List.mem_append, List.mem_singleton] at hy
    rcases hy with hy | rfl
    · exact houtside y hy
    · exact ⟨hreceive, hpublish⟩

theorem justified_step (hok : s.BringsNoImsi a) (hstep : s.step? a = some s')
    (hs : Justified ms s) : Justified (ms ++ [⟨s, a, s'⟩]) s' := by
  have htraced := traced_step hok hstep hs.traced
  by_cases ha : a = .receive ∨ a = .publish
  · cases settled_of_step ha hstep with
    | aside _ hdisplacing hcondemned =>
        refine ⟨htraced, fun old h => ?_, fun claim old h => ?_⟩
        · cases hcondemned.symm.trans h
        · cases hdisplacing.symm.trans h
    | @displaces _ ue imsi rest p holder _ _ hfound howners hemm =>
        cases hfound with
        | @context old hindex hne hlive =>
            refine ⟨htraced, fun u h => ?_, fun claim u h => ?_⟩
            · rw [hemm] at h ⊢
              cases h
              exact ⟨_, rfl⟩
            · rw [hemm] at h
              cases h
              refine ⟨Ne.symm hne, ?_⟩
              rw [howners.imsi?]
              -- the index names the holder: it carries the IMSI, or has got another one since
              obtain hcarried | htrace := ((hs.traced.later _) imsi old hindex).2
              · exact .inl hcarried
              · exact .inr (.inl htrace)
        | application _ _ _ =>
            refine ⟨htraced, fun u h => ?_, fun claim u h => ?_⟩
            · rw [hemm] at h
              cases h
            · rw [hemm] at h
              cases h
    | assigns _ _ _ _ hemm =>
        refine ⟨htraced, fun u h => ?_, fun claim u h => ?_⟩
        · rw [hemm] at h
          cases h
        · rw [hemm] at h
          cases h
  · obtain ⟨hreceive, hpublish⟩ := not_or.1 ha
    have hemm := (traffic_of_step hreceive hpublish hstep).1
    refine ⟨htraced, fun old h => ?_, fun claim old h => ?_⟩
    · rw [hemm] at h ⊢
      exact hs.condemned old h
    · rw [hemm] at h
      exact (hs.implicated claim old h).outside hreceive hpublish
        (upkeep_of_step hok hreceive hpublish hstep)

theorem justified_of_path {config : NasConfig} {inboxCapacity busCapacity : Nat}
    (path : Path BringsNoImsi (idle config inboxCapacity busCapacity) ms s) : Justified ms s := by
  induction path with
  | nil => exact ⟨nofun, nofun, nofun⟩
  | snoc _ hok hstep ih => exact justified_step hok hstep ih

/-- However the tasks, the timers and the owner of the contexts take turns, an index entry is one of
a UE that carries the IMSI, or did so until a response gave it another; and so is whoever the EMM
task waits to tear down as an illegal UE, unless it was removed while the task waited. -/
theorem displaced_once_carried {config : NasConfig} {inboxCapacity busCapacity : Nat}
    (path : Path BringsNoImsi (idle config inboxCapacity busCapacity) ms s) :
    (∀ imsi ue, s.mme.store.owner? imsi = some ue →
        (s.mme.context? ue).isSome ∧
          (s.mme.imsi? ue = some imsi ∨ ∃ x ∈ ms, x.Reidentifies ue imsi)) ∧
      ∀ subject old next, s.emm = .publishing subject (.teardownSession old .illegalUe) next →
        ∃ claim, next = .displaced claim (.context old) ∧ claim.ue ≠ old ∧
          (s.mme.imsi? old = some claim.imsi ∨ (∃ x ∈ ms, x.Reidentifies old claim.imsi) ∨
            ∃ pre x post, ms = pre ++ x :: post ∧ x.Removes old ∧ ∀ y ∈ x :: post, y.Outside) := by
  have hs := justified_of_path path
  refine ⟨hs.traced, ?_⟩
  intro subject old next hemm
  obtain ⟨claim, hdisplacing⟩ := hs.condemned old (by rw [hemm]; rfl)
  have himplicated := hs.implicated claim old hdisplacing
  rw [hemm] at hdisplacing
  refine ⟨claim, ?_, himplicated⟩
  cases next with
  | displaced claim' holder =>
      cases hdisplacing
      rfl
  | _ => cases hdisplacing

/-- The first UE is identified under one IMSI and then under another, and the second UE under the
one that the first had before. -/
theorem exists_path_to_stale_collision :
    ∃ ms s, Path BringsNoImsi (idle {} 4 8) ms s ∧
      s.emm.condemned? = some ⟨1⟩ ∧
      s.emm.displacing? = some
        (⟨⟨2⟩, ⟨[0, 0, 1, 0, 1, 0], by decide⟩, none, .deregistered⟩, .context ⟨1⟩) ∧
      s.mme.store.owner? ⟨[0, 0, 1, 0, 1, 0], by decide⟩ = some ⟨1⟩ ∧
      s.mme.imsi? ⟨1⟩ = some ⟨[9, 9, 9, 9, 9, 9], by decide⟩ := by
  let s := ((idle {} 4 8).walk? BringsNoImsi
    [.act (.insert { ue := ⟨1⟩, state := .deregistered }),
      .act (.insert { ue := ⟨2⟩, state := .deregistered }),
      .send (.start ⟨1⟩ .imsi none), .receive, .publish, .publish,
      .send (.complete ⟨1⟩ (.imsi ⟨[0, 0, 1, 0, 1, 0], by decide⟩)), .receive, .publish,
      .take, .take, .take,
      .send (.start ⟨1⟩ .imsi none), .receive, .publish, .publish,
      .send (.complete ⟨1⟩ (.imsi ⟨[9, 9, 9, 9, 9, 9], by decide⟩)), .receive, .publish,
      .take, .take, .take,
      .send (.start ⟨2⟩ .imsi none), .receive, .publish, .publish,
      .send (.complete ⟨2⟩ (.imsi ⟨[0, 0, 1, 0, 1, 0], by decide⟩)), .receive]).get
        (by decide +kernel)
  obtain ⟨ms, path⟩ : ∃ ms, Path BringsNoImsi (idle {} 4 8) ms s :=
    Path.of_walk? (Option.some_get _).symm
  exact ⟨ms, s, path, by decide +kernel, by decide +kernel, by decide +kernel, by decide +kernel⟩

/-- The holder that is torn down for an IMSI need not carry it: after a UE has been identified
under another IMSI the index still names it under the former. -/
theorem displaced_without_imsi :
    ∃ s claim old, Reachable BringsNoImsi (idle {} 4 8) s ∧ s.emm.condemned? = some old ∧
      s.emm.displacing? = some (claim, .context old) ∧
      s.mme.store.owner? claim.imsi = some old ∧ (s.mme.context? old).isSome ∧
      s.mme.imsi? old ≠ some claim.imsi := by
  obtain ⟨ms, s, path, hcondemned, hdisplacing, hindex, hcarried⟩ := exists_path_to_stale_collision
  obtain ⟨c, hc, _⟩ := (Mme.imsi?_eq_some_iff _ _ _).1 hcarried
  refine ⟨s, _, ⟨1⟩, ⟨ms, path⟩, hcondemned, hdisplacing, hindex, by simp [hc], ?_⟩
  rw [hcarried]
  decide

/-- The entry that stands in the way of the second UE goes back to a moment in which the first was
given another IMSI. -/
theorem displaced_once_carried_reidentified :
    ∃ ms s, Path BringsNoImsi (idle {} 4 8) ms s ∧ s.emm.condemned? = some ⟨1⟩ ∧
      ∃ x ∈ ms, x.Reidentifies ⟨1⟩ ⟨[0, 0, 1, 0, 1, 0], by decide⟩ := by
  obtain ⟨ms, s, path, hcondemned, _, hindex, hcarried⟩ := exists_path_to_stale_collision
  refine ⟨ms, s, path, hcondemned, ?_⟩
  obtain ⟨_, hstill | hre⟩ := (displaced_once_carried path).1 _ ⟨1⟩ hindex
  · rw [hcarried] at hstill
    exact absurd hstill (by decide)
  · exact hre

end System

end Emm
