import Emm.Proofs.Exchange

/-!
A UE claims an IMSI that others own, and claims it again until it has it. Main statement:
`imsi_handed_over`. The claim is confirmed at the latest when it is made for the third time, and
whoever stood in its way has been torn down by then.
-/

namespace Emm

theorem Mme.identification?_apply (m : Mme) {n : Notification} (h : n.removed? = none) :
    (m.apply n).identification? = m.identification? :=
  Mme.identification?_congr fun u => by rw [Mme.context?_apply, if_neg (by simp [h])]

theorem Mme.start_of_admits (m : Mme) {ue : UeId} {c : Context} (hc : m.context? ue = some c)
    (hadmits : c.state.admitsIdentification = true) (parent : Option ProcedureId) :
    ∃ (m' : Mme) (n : Notification), n.requests? = some ue ∧
      m.start ue .imsi parent = (m', .publish n (.requested ue .start)) ∧
      (m'.identification? ue).isSome := by
  obtain ⟨q, hrecords, _⟩ := m.identification?_enterIdentification ue hc .imsi parent
  have hentered : ((m.enterIdentification ue c .imsi parent).emit
      (.initiating ue .imsi)).identification? ue = some q := by
    rw [identification?_emit, hrecords, Function.update_self]
  obtain ⟨n, hrequest, heq⟩ := request_of_some _ ue .start hentered
  refine ⟨_, n, hrequest, ?_, by rw [hentered]; rfl⟩
  rw [← heq]
  simp [start, hc, hadmits, IdentityType.isRequestable]

namespace System

variable {s s₁ s' : System} {ue : UeId} {imsi : Imsi} {parent : Option ProcedureId}
  {ms : List Moment} {a : Move}

/-- Who has been torn down, the earliest first. -/
def tornDownIn (ms : List Moment) : List UeId := (takenIn ms).filterMap (·.tornDown?)

theorem identified_step {m₀ : Mme} {ns : List Notification}
    (hs : Plays m₀ (ns, .started (.ok ())) ms s) (hns : ∀ n ∈ ns, n.removed? = none)
    (hok : s.OfProgram a) (hstep : s.step? a = some s')
    (h : (s.mme.identification? ue).isSome) : (s'.mme.identification? ue).isSome := by
  obtain ⟨queued, coming, hqueue, hparts, _, ended, hphase, _⟩ := hs.progress
  obtain rfl | rfl := hs.publish_or_take hok hstep
  · obtain ⟨subject, n, next, m, p, hemm, hrecords, _, hresumed, _⟩ :=
      turn_of_accepted hs.running.bus hstep
    rw [hemm] at hphase
    obtain ⟨hscript⟩ | _ := hphase
    obtain ⟨rest, hnext, _⟩ := Progress.script?_publish.1 hscript
    rw [← hrecords] at h
    generalize s'.mme.identification? = records at hresumed ⊢
    -- no turn of a script that ends in a start gives the record up
    cases hresumed with
    | settled _ _ hsame => rwa [hsame]
    | sent _ hupdated =>
        rw [hupdated, Function.update_apply]
        split
        · rename_i hue
          rw [Option.isSome_map, ← hue]
          exact h
        · exact h
    | ended _ _ _ => cases hnext
    | stuck _ hsame => rwa [hsame]
    | exhausted _ _ _ => cases hnext
    | failed _ _ => cases hnext
  · obtain ⟨_, _, _, _, ⟨n, rest, htaken, hmme, _⟩ | ⟨hover, _⟩⟩ := takeNotification?_eq_some hstep
    · have hmem : n ∈ ns := by
        have hqueued : Envelope.message n ∈ queued.map .message := by
          rw [← hqueue, htaken]
          exact List.mem_cons_self
        obtain ⟨_, hn, heq⟩ := List.mem_map.1 hqueued
        cases heq
        have hns : ns = takenIn ms ++ (queued ++ coming) := hparts.symm
        simp [hns, hn]
      rw [hmme, Mme.identification?_apply _ (hns n hmem)]
      exact h
    · exact absurd hover hs.running.bus.not_over

theorem identified_of_path (hs : s.AtRest) {msg : Message} {ns : List Notification}
    (hscript : (s.turnOf msg).2.script? = some (ns, .started (.ok ())))
    (hns : ∀ n ∈ ns, n.removed? = none) (hbegun : ((s.turnOf msg).1.identification? ue).isSome)
    (path : Path OfProgram (s.addressed msg) ms s') :
    ms = [] ∨ (s'.mme.identification? ue).isSome := by
  induction path with
  | nil => exact .inl rfl
  | snoc path hok hstep ih =>
      right
      obtain ⟨rfl, rfl⟩ | hplays := plays_of_path hs hscript path
      · obtain ⟨_, rfl⟩ := first_move hs hok hstep
        rw [identification?_follow]
        exact hbegun
      · refine identified_step hplays hns hok hstep (ih.resolve_left ?_)
        rintro rfl
        obtain ⟨_, _, _, _, hlength, _⟩ := hplays.progress
        simp at hlength
        omega

theorem state?_turnOf (s : System) (msg : Message) :
    (s.turnOf msg).1.state? = s.mme.state? :=
  (Mme.begin_edits (s.mme.emit _) s.config msg).state?

theorem exchange_start (hs : s.AtRest) {c : Context} (hc : s.mme.context? ue = some c)
    (hadmits : c.state.admitsIdentification = true)
    (h : Exchange (.start ue .imsi parent) s ms s') :
    s.mme.Alike s'.mme ∧ (s'.mme.identification? ue).isSome ∧ tornDownIn ms = [] := by
  have howners : s.mme.SameOwners (s.turnOf (.start ue .imsi parent)).1 :=
    (s.mme.sameOwners_emit _).trans (Mme.start_aside _ ue .imsi parent).owners
  have hstate := state?_turnOf s (.start ue .imsi parent)
  obtain ⟨m₀, n, hrequest, hturn, hidentified⟩ := Mme.start_of_admits
    (s.mme.emit (.exchanged .received (Message.start ue .imsi parent).primitive ue)) hc hadmits
      parent
  have hturn : s.turnOf (.start ue .imsi parent) = (m₀, .publish n (.requested ue .start)) := hturn
  obtain ⟨requested, security, rfl⟩ : ∃ requested security,
      n = .sendIdentityRequest ue requested security := by
    cases n with
    | sendIdentityRequest u requested security =>
        cases hrequest
        exact ⟨requested, security, rfl⟩
    | _ => cases hrequest
  have hscript : (s.turnOf (.start ue .imsi parent)).2.script? =
      some ([.sendIdentityRequest ue requested security, .procedureStarted ue],
        .started (.ok ())) := by
    rw [hturn]
    rfl
  obtain ⟨htaken, _, halike⟩ := exchange_plays hs hscript h
  rw [hturn] at howners hstate halike
  refine ⟨.trans ⟨howners, hstate⟩ (.trans ?_ halike), ?_, ?_⟩
  · exact (m₀.alike_emit _).trans (Mme.alike_emit _ _)
  · obtain ⟨path, _, hms⟩ := h.path hs
    have hbegun : ((s.turnOf (.start ue .imsi parent)).1.identification? ue).isSome := by
      rw [hturn]
      exact hidentified
    have hstill := identified_of_path hs hscript (by simp [Notification.removed?]) hbegun path
    exact hstill.resolve_left hms
  · rw [tornDownIn, htaken]
    rfl

/-- How the system comes to rest after a response with an IMSI: the claim is put off and whoever
was found to own the IMSI is torn down, or the UE has the IMSI. -/
theorem exchange_complete (hs : s.AtRest) {p : Identification}
    (hp : s.mme.identification? ue = some p) (h : Exchange (.complete ue (.imsi imsi)) s ms s') :
    (∃ holder, Found s.mme ue imsi (some holder) ∧
        outcomesIn ms = [.completed (.ok (.deferred holder.ue))] ∧
        tornDownIn ms = [holder.ue] ∧ (s.mme.apply holder.teardown).Alike s'.mme) ∨
      Found s.mme ue imsi none ∧ outcomesIn ms = [.completed (.ok .confirmed)] ∧
        tornDownIn ms = [] ∧ ∃ ending : Ending, ending.notify = true ∧
          ((s.mme.assigned ue imsi).apply (.procedureConfirmed ue ending)).Alike s'.mme := by
  have hreceived := s.mme.sameOwners_emit
    (.exchanged .received (Message.complete ue (.imsi imsi)).primitive ue)
  have hstate := state?_turnOf s (.complete ue (.imsi imsi))
  have htakes : (s.mme.emit _).Takes ue imsi p (s.turnOf (.complete ue (.imsi imsi))) :=
    Mme.complete_takes _ ue imsi hp
  have hplays : ∀ script, (s.turnOf (.complete ue (.imsi imsi))).2.script? = some script →
      takenIn ms = script.1 ∧ outcomesIn ms = [script.2] ∧
        ((s.turnOf (.complete ue (.imsi imsi))).1.applyAll script.1).Alike s'.mme :=
    fun script hscript => exchange_plays hs hscript h
  generalize s.turnOf (.complete ue (.imsi imsi)) = turn at hstate htakes hplays
  cases htakes with
  | @displaces holder m₀ hfound howners =>
      left
      obtain ⟨htaken, houtcomes, halike⟩ := hplays _ rfl
      refine ⟨holder, hfound.of_sameOwners hreceived, houtcomes, ?_, ?_⟩
      · rw [tornDownIn, htaken, List.filterMap_cons_some holder.tornDown?_teardown]
        rfl
      · have hbefore : s.mme.Alike m₀ := ⟨hreceived.trans howners, hstate⟩
        exact (hbefore.apply holder.teardown).trans halike
  | @assigns m₀ hfound howners =>
      right
      obtain ⟨htaken, houtcomes, halike⟩ := hplays _ rfl
      refine ⟨hfound.of_sameOwners hreceived, houtcomes, ?_,
        ⟨true, true, p.previousState⟩, rfl, .trans ?_ halike⟩
      · rw [tornDownIn, htaken]
        rfl
      · have hassigned : (s.mme.assigned ue imsi).Alike m₀ :=
          ⟨(hreceived.assigned ue imsi).trans howners,
            hstate.trans (s.mme.state?_assigned ue imsi).symm⟩
        exact hassigned.apply _

/-- A UE claims an IMSI over and over until its claim is confirmed: it is to be identified, and it
answers with the IMSI, and each time the system comes to rest. `outcomes` are those of the answers,
pass by pass, and `torn` are the UEs that have been torn down. -/
inductive Passes (ue : UeId) (imsi : Imsi) (s₀ : System) :
    List (List Outcome) → List UeId → System → Prop
  | nil : Passes ue imsi s₀ [] [] s₀
  | snoc {outcomes : List (List Outcome)} {torn : List UeId} {s s₁ s₂ : System}
      {parent : Option ProcedureId} {ms₁ ms₂ : List Moment}
      (passes : Passes ue imsi s₀ outcomes torn s)
      (hagain : ∀ pass ∈ outcomes, .completed (.ok .confirmed) ∉ pass)
      (hstart : Exchange (.start ue .imsi parent) s ms₁ s₁)
      (hcomplete : Exchange (.complete ue (.imsi imsi)) s₁ ms₂ s₂) :
      Passes ue imsi s₀ (outcomes ++ [outcomesIn ms₂]) (torn ++ tornDownIn ms₁ ++ tornDownIn ms₂) s₂

/-- The one outcome of a pass that is put off to have `old` torn down. -/
def putOffFor (old : UeId) : List Outcome := [.completed (.ok (.deferred old))]

/-- Where passes lead: all were put off, or all but the last. -/
inductive Pursued (ue : UeId) (imsi : Imsi) (m : Mme) (torn : List UeId) :
    List (List Outcome) → Mme → Prop
  | putOff {m' : Mme} (h : m.PutOff ue imsi torn m') :
      Pursued ue imsi m torn (torn.map putOffFor) m'
  | confirmed {m₁ m' : Mme} {ending : Ending} (h : m.PutOff ue imsi torn m₁)
      (hnotify : ending.notify = true)
      (halike : ((m₁.assigned ue imsi).apply (.procedureConfirmed ue ending)).Alike m') :
      Pursued ue imsi m torn (torn.map putOffFor ++ [[.completed (.ok .confirmed)]]) m'

variable {outcomes : List (List Outcome)} {torn : List UeId}

theorem Passes.atRest (hs : s.AtRest) (passes : Passes ue imsi s outcomes torn s') :
    s'.AtRest := by
  cases passes with
  | nil => exact hs
  | snoc _ _ _ hcomplete =>
      obtain ⟨_, _, _, hrest⟩ := hcomplete
      exact hrest

/-- What one more pass comes to after passes that were all put off. -/
theorem pursued_of_pass {m : Mme} {c : Context} {ms₁ ms₂ : List Moment} {s₂ : System}
    (hs : s.AtRest) (hc : m.context? ue = some c) (hadmits : c.state.admitsIdentification = true)
    (hput : m.PutOff ue imsi torn s.mme) (hstart : Exchange (.start ue .imsi parent) s ms₁ s₁)
    (hcomplete : Exchange (.complete ue (.imsi imsi)) s₁ ms₂ s₂) :
    Pursued ue imsi m (torn ++ tornDownIn ms₁ ++ tornDownIn ms₂)
      (torn.map putOffFor ++ [outcomesIn ms₂]) s₂.mme := by
  have hstate : s.mme.state? ue = some c.state := by
    rw [hput.state, Mme.state?, hc]
    rfl
  obtain ⟨c₁, hc₁, hsame⟩ := Option.map_eq_some_iff.1 hstate
  obtain ⟨halike, hidentified, hspared⟩ :=
    exchange_start hs hc₁ (by rw [hsame]; exact hadmits) hstart
  obtain ⟨p, hp⟩ := Option.isSome_iff_exists.1 hidentified
  have hrest : s₁.AtRest := by
    obtain ⟨_, _, _, hrest⟩ := hstart
    exact hrest
  have hput₁ := hput.of_alike halike
  rw [hspared, List.append_nil]
  obtain ⟨holder, hfound, houtcomes, htorn, halike₂⟩ |
    ⟨hfound, houtcomes, htorn, ending, hnotify, halike₂⟩ := exchange_complete hrest hp hcomplete
  · have hput₂ := (hput₁.snoc hfound).of_alike halike₂
    have hmap : torn.map putOffFor ++ [[.completed (.ok (.deferred holder.ue))]] =
        (torn ++ [holder.ue]).map putOffFor := by
      simp [putOffFor]
    rw [htorn, houtcomes, hmap]
    exact .putOff hput₂
  · rw [htorn, List.append_nil, houtcomes]
    exact .confirmed hput₁ hnotify halike₂

theorem pursued_of_passes (hs : s.AtRest) {c : Context} (hc : s.mme.context? ue = some c)
    (hadmits : c.state.admitsIdentification = true)
    (passes : Passes ue imsi s outcomes torn s') : Pursued ue imsi s.mme torn outcomes s'.mme := by
  induction passes with
  | nil => exact .putOff (.nil s.mme ue imsi)
  | snoc passes hagain hstart hcomplete ih =>
      cases ih with
      | confirmed _ _ _ =>
          exact absurd (List.mem_singleton_self _)
            (hagain _ (List.mem_append_right _ (List.mem_singleton_self _)))
      | putOff hput =>
          exact pursued_of_pass (passes.atRest hs) hc hadmits hput hstart hcomplete

theorem Pursued.putOff_of_index {m m' : Mme} (h : Pursued ue imsi m torn outcomes m')
    (hlive : (m.context? ue).isSome) (hindex : m'.store.owner? imsi ≠ some ue) :
    outcomes = torn.map putOffFor := by
  cases h with
  | putOff _ => rfl
  | confirmed h hnotify halike =>
      have hassigned := Mme.assigned_confirmed (h.isSome_context? hlive) hnotify halike.toSameOwners
      exact absurd hassigned.2.1 hindex

/-- A UE that claims an IMSI has it after three passes at most, whichever tables name others as its
owners. Until then each pass is put off to tear one of these down; the claimant stays as it was, and
one of the others at most loses its context. -/
theorem imsi_handed_over (hs : s.AtRest) {c : Context} (hc : s.mme.context? ue = some c)
    (hadmits : c.state.admitsIdentification = true)
    (passes : Passes ue imsi s outcomes torn s') :
    (∀ parent, ComesToRest s' (.start ue .imsi parent) ∧
        ∀ ms s₁, Exchange (.start ue .imsi parent) s' ms s₁ →
          ComesToRest s₁ (.complete ue (.imsi imsi))) ∧
      (outcomes = torn.map putOffFor ∧ s'.mme.imsi? ue = s.mme.imsi? ue ∨
        outcomes = torn.map putOffFor ++ [[.completed (.ok .confirmed)]] ∧
          s'.mme.imsi? ue = some imsi ∧ s'.mme.store.owner? imsi = some ue ∧
          s'.mme.registry.owner? imsi = some ue) ∧
      torn.length ≤ 2 ∧ ue ∉ torn ∧
      ∃ gone : Option UeId, gone ≠ some ue ∧
        ∀ u, (s'.mme.context? u).isSome ↔ (s.mme.context? u).isSome ∧ gone ≠ some u := by
  have hrest := passes.atRest hs
  refine ⟨fun parent => ⟨comes_to_rest hrest rfl, fun ms s₁ h => ?_⟩, ?_⟩
  · obtain ⟨_, _, _, hrest₁⟩ := h
    exact comes_to_rest hrest₁ rfl
  · have hpursued := pursued_of_passes hs hc hadmits passes
    generalize s'.mme = m' at hpursued ⊢
    cases hpursued with
    | putOff h =>
        obtain ⟨gone, _, hgone⟩ := h.removed
        exact ⟨.inl ⟨rfl, h.carried⟩, h.length_le, h.others, gone, hgone⟩
    | confirmed h hnotify halike =>
        obtain ⟨gone, _, hspared, hlive⟩ := h.removed
        obtain ⟨hcarried, hindex, hregistry, hkept⟩ :=
          Mme.assigned_confirmed (h.isSome_context? (by rw [hc]; rfl)) hnotify halike.toSameOwners
        refine ⟨.inr ⟨rfl, hcarried, hindex, hregistry⟩, h.length_le, h.others, gone, hspared, ?_⟩
        exact fun u => (hkept u).trans (hlive u)

/-- A UE carries an IMSI under which the index names another UE, and the registry a third. -/
def contested (imsi : Imsi) : System :=
  let s := idle {} 1 1
  let m := s.mme.insertContext { ue := ⟨1⟩, state := .registered, imsi := some imsi }
  let m := m.insertContext { ue := ⟨2⟩, state := .registered, imsi := some imsi }
  { s with mme := { m with registry := m.registry.register imsi ⟨3⟩ } }

/-- The system after a pass in which each notification is taken before the next is published. -/
def pass? (s : System) (ue : UeId) (imsi : Imsi) (moves : List Move) : Option System :=
  (s.exchange? (.start ue .imsi none) [.receive, .publish, .take, .publish, .take]).bind
    fun s₁ => s₁.exchange? (.complete ue (.imsi imsi)) moves

theorem Passes.snoc_of_pass? {s₀ : System} {moves : List Move}
    (passes : Passes ue imsi s₀ outcomes torn s)
    (hagain : ∀ pass ∈ outcomes, .completed (.ok .confirmed) ∉ pass)
    (h : s.pass? ue imsi moves = some s') :
    ∃ pass torn', Passes ue imsi s₀ (outcomes ++ [pass]) torn' s' := by
  obtain ⟨s₁, h₁, h₂⟩ := Option.bind_eq_some_iff.1 h
  obtain ⟨ms₁, hstart⟩ := Exchange.of_exchange? h₁
  obtain ⟨ms₂, hcomplete⟩ := Exchange.of_exchange? h₂
  exact ⟨_, _, passes.snoc hagain hstart hcomplete⟩

theorem Pursued.again {m m' : Mme} (h : Pursued ue imsi m torn outcomes m')
    (hlive : (m.context? ue).isSome) (hindex : m'.store.owner? imsi ≠ some ue) :
    ∀ pass ∈ outcomes, .completed (.ok .confirmed) ∉ pass := by
  rw [h.putOff_of_index hlive hindex]
  simp [putOffFor]

/-- A claim that is put off does not make a UE lose an IMSI that it carries already. -/
theorem put_off_with_imsi :
    ∃ ue imsi s c outcomes torn s', s.AtRest ∧ s.mme.context? ue = some c ∧
      c.state.admitsIdentification = true ∧ Passes ue imsi s outcomes torn s' ∧
      (∃ old, outcomes = [putOffFor old]) ∧ s'.mme.imsi? ue = some imsi := by
  let x : Imsi := ⟨[0, 0, 1, 0, 1, 0], by decide⟩
  let s₀ := contested x
  let s₁ := (s₀.pass? ⟨1⟩ x [.receive, .publish, .take, .publish, .take]).get (by decide +kernel)
  have hrest : s₀.AtRest := by decide +kernel
  have passes₀ : Passes ⟨1⟩ x s₀ [] [] s₀ := .nil
  have hpass₁ : s₀.pass? ⟨1⟩ x _ = some s₁ := (Option.some_get _).symm
  obtain ⟨pass, torn, passes⟩ := passes₀.snoc_of_pass? (by simp) hpass₁
  have hput := (pursued_of_passes hrest rfl rfl passes).putOff_of_index (by decide +kernel)
    (by decide +kernel)
  obtain ⟨old, _, hold⟩ := List.map_eq_singleton_iff.1 hput.symm
  exact ⟨⟨1⟩, x, s₀, _, _, torn, s₁, hrest, rfl, rfl, passes, ⟨old, by rw [← hold]; rfl⟩,
    by decide +kernel⟩

/-- The claim is put off for the UE that the index names, then for the one that the registry
names. -/
theorem imsi_handed_over_thrice :
    ∃ ue imsi s outcomes torn s', s.AtRest ∧ Passes ue imsi s outcomes torn s' ∧
      torn.length = 2 ∧ outcomes = torn.map putOffFor ++ [[.completed (.ok .confirmed)]] := by
  let x : Imsi := ⟨[0, 0, 1, 0, 1, 0], by decide⟩
  let s₀ := contested x
  let s₁ := (s₀.pass? ⟨1⟩ x [.receive, .publish, .take, .publish, .take]).get (by decide +kernel)
  let s₂ := (s₁.pass? ⟨1⟩ x [.receive, .publish, .take, .publish, .take]).get (by decide +kernel)
  let s₃ := (s₂.pass? ⟨1⟩ x [.receive, .publish, .take]).get (by decide +kernel)
  have hrest : s₀.AtRest := by decide +kernel
  have hpass₁ : s₀.pass? ⟨1⟩ x _ = some s₁ := (Option.some_get _).symm
  have hpass₂ : s₁.pass? ⟨1⟩ x _ = some s₂ := (Option.some_get _).symm
  have hpass₃ : s₂.pass? ⟨1⟩ x _ = some s₃ := (Option.some_get _).symm
  have passes₀ : Passes ⟨1⟩ x s₀ [] [] s₀ := .nil
  obtain ⟨pass₁, _, passes₁⟩ := passes₀.snoc_of_pass? (by simp) hpass₁
  have hagain₁ := (pursued_of_passes hrest rfl rfl passes₁).again (by decide +kernel)
    (by decide +kernel)
  obtain ⟨pass₂, _, passes₂⟩ := passes₁.snoc_of_pass? hagain₁ hpass₂
  have hagain₂ := (pursued_of_passes hrest rfl rfl passes₂).again (by decide +kernel)
    (by decide +kernel)
  obtain ⟨pass₃, torn, passes₃⟩ := passes₂.snoc_of_pass? hagain₂ hpass₃
  obtain ⟨_, houtcomes, hlength, _⟩ := imsi_handed_over hrest rfl rfl passes₃
  refine ⟨⟨1⟩, x, s₀, _, torn, s₃, hrest, passes₃, ?_⟩
  have hthree : ([] ++ [pass₁] ++ [pass₂] ++ [pass₃]).length = 3 := rfl
  obtain ⟨hput, _⟩ | ⟨hconfirmed, _⟩ := houtcomes
  · rw [hput, List.length_map] at hthree
    omega
  · rw [hconfirmed, List.length_append, List.length_map, List.length_singleton] at hthree
    exact ⟨by omega, hconfirmed⟩

end System

end Emm
