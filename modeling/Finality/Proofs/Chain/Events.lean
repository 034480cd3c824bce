import Finality.Proofs.Chain.Status

/-!
# Events mirror the store

A listener never sees the store.  All it hears are the events that calls answer when they apply a
block or take one back.  From those alone it can keep the status of every poll, without ever
drifting from what is stored.

* `EventBus.heardBy_emitAll`, `Session.bus_run` — every listener hears the events of the calls that
  have succeeded, in order, and nothing else.
* `PollEvent.latest` — what was announced of a poll last; `PollEvent.replay` — what a listener takes
  the statuses to be, which `PollEvent.replay_eq_latest` reads off the latest events.
* `MemoryStore.Announced` — the invariant: the latest event of a poll agrees with what is stored of
  it.  `MemoryStore.Announced.effect` — every effect of a call keeps it.
* `events_mirror_statuses` — the result for all runs.
-/

namespace Finality

variable {S L : Type}

/-! ## What is announced -/

namespace PollEvent

/-- The status of the poll after the event. -/
def status : PollEvent → PollStatus
  | .approved .. => .approved
  | .rejected .. => .rejected
  | .reverted .. => .pending

/-- The account that submitted the poll's transaction. -/
def account : PollEvent → AccountId
  | .approved _ account .. | .rejected _ account .. | .reverted _ account .. => account

/-- The height that was processed. -/
def height : PollEvent → Height
  | .approved _ _ _ height | .rejected _ _ _ height | .reverted _ _ _ height => height

/-- What was announced of a poll last. -/
def latest (key : Hash) (es : List PollEvent) : Option PollEvent :=
  (es.filter fun e => e.poll = key).getLast?

/-- The statuses after one more event. -/
def hear (known : Hash → PollStatus) (e : PollEvent) : Hash → PollStatus :=
  fun key => if key = e.poll then e.status else known key

/-- The statuses that events tell: a poll is undecided until they say otherwise. -/
def replay (es : List PollEvent) : Hash → PollStatus := es.foldl hear fun _ => .pending

/-- The event, if it undoes a decision, undoes the one that was announced of its poll last. -/
def Cancels (before : List PollEvent) : PollEvent → Prop
  | .approved .. | .rejected .. => True
  | .reverted poll account previous height => ∃ e, latest poll before = some e ∧
    e.status.isResolved = true ∧ e.status = previous ∧ e.account = account ∧ e.height = height

@[simp] theorem poll_ofResolved (r : ResolvedPoll) : (ofResolved r).poll = r.key := by
  unfold ofResolved
  split <;> rfl

@[simp] theorem account_ofResolved (r : ResolvedPoll) : (ofResolved r).account = r.account := by
  unfold ofResolved
  split <;> rfl

@[simp] theorem height_ofResolved (r : ResolvedPoll) : (ofResolved r).height = r.height := by
  unfold ofResolved
  split <;> rfl

/-- A decision is announced as it is. -/
theorem status_ofResolved {r : ResolvedPoll} (h : r.status.isResolved = true) :
    (ofResolved r).status = r.status := by
  unfold ofResolved
  cases hstatus : r.status with
  | pending =>
    rw [hstatus] at h
    cases h
  | approved => rfl
  | rejected => rfl

@[simp] theorem poll_ofReverted (r : ResolvedPoll) : (ofReverted r).poll = r.key := rfl

/-- A decision that is announced undoes nothing. -/
theorem cancels_ofResolved (before : List PollEvent) (r : ResolvedPoll) :
    (ofResolved r).Cancels before := by
  unfold ofResolved
  split <;> trivial

/-- Whether an event undoes what it should depends on the latest event of its poll alone. -/
theorem Cancels.of_latest {e : PollEvent} {es fs : List PollEvent} (h : e.Cancels es)
    (hlatest : latest e.poll fs = latest e.poll es) : e.Cancels fs := by
  cases e with
  | approved poll account tally height => trivial
  | rejected poll account tally height => trivial
  | reverted poll account previous height =>
    obtain ⟨d, hd, hsame⟩ := h
    exact ⟨d, hlatest.trans hd, hsame⟩

/-! ## The latest event -/

theorem latest_append (key : Hash) (es fs : List PollEvent) :
    latest key (es ++ fs) = (latest key fs).or (latest key es) := by
  unfold latest
  rw [List.filter_append, List.getLast?_append]

theorem latest_eq_none_iff {key : Hash} {es : List PollEvent} :
    latest key es = none ↔ ∀ e ∈ es, e.poll ≠ key := by
  unfold latest
  rw [List.getLast?_eq_none_iff, List.filter_eq_nil_iff]
  simp

theorem mem_of_latest {key : Hash} {es : List PollEvent} {e : PollEvent}
    (h : latest key es = some e) : e ∈ es ∧ e.poll = key := by
  obtain ⟨he, hpoll⟩ := List.mem_filter.1 (List.mem_of_getLast? h)
  exact ⟨he, of_decide_eq_true hpoll⟩

/-- An event is the latest of its poll if it is the only one. -/
theorem latest_eq_some {e : PollEvent} {es : List PollEvent} (he : e ∈ es)
    (honly : ∀ d ∈ es, d.poll = e.poll → d = e) : latest e.poll es = some e := by
  cases hd : latest e.poll es with
  | none => exact absurd rfl (latest_eq_none_iff.1 hd e he)
  | some d =>
    obtain ⟨hdes, hpoll⟩ := mem_of_latest hd
    rw [honly d hdes hpoll]

/-- What events tell of a poll is what the latest one says. -/
theorem replay_eq_latest (es : List PollEvent) (key : Hash) :
    replay es key = ((latest key es).map status).getD .pending := by
  have hknown : ∀ known : Hash → PollStatus,
      es.foldl hear known key = ((latest key es).map status).getD (known key) := by
    induction es with
    | nil => exact fun _ => rfl
    | cons e es ih =>
      intro known
      rw [List.foldl_cons, ih, ← List.singleton_append, latest_append]
      cases latest key es with
      | some d => rfl
      | none =>
        by_cases hkey : key = e.poll
        · simp [hear, latest, hkey]
        · have hother : e.poll ≠ key := fun heq => hkey heq.symm
          simp [hear, latest, hkey, hother]
  exact hknown _

/-- Events that cancel what they should go on doing so, if the ones that follow do. -/
theorem cancels_append {es fs : List PollEvent}
    (hes : ∀ before e after, es = before ++ e :: after → e.Cancels before)
    (hfs : ∀ before e after, fs = before ++ e :: after → e.Cancels (es ++ before)) :
    ∀ before e after, es ++ fs = before ++ e :: after → e.Cancels before := by
  intro before e after h
  rcases List.append_eq_append_iff.1 h with ⟨mid, rfl, hmid⟩ | ⟨mid, rfl, hmid⟩
  · exact hfs mid e after hmid
  · cases mid with
    | nil =>
      have hcancels := hfs [] e after (by simpa using hmid.symm)
      simpa using hcancels
    | cons d mid =>
      rw [List.cons_append, List.cons.injEq] at hmid
      obtain ⟨rfl, -⟩ := hmid
      exact hes before e mid rfl

end PollEvent

/-! ## What is heard -/

namespace EventBus

theorem heardBy_emit {bus : EventBus} {i : Nat} (hi : i < bus.listeners) (e : PollEvent) :
    (bus.emit e).heardBy i = bus.heardBy i ++ [e] := by
  have hone : (List.range bus.listeners).filter (fun j => j = i) = [i] := by
    rw [List.filter_eq, List.count_range, if_pos hi]
    rfl
  unfold heardBy emit
  rw [List.filter_append, List.map_append, List.filter_map]
  simp only [Function.comp_def, hone, List.map_cons, List.map_nil]

/-- **Every listener** hears every event. -/
theorem heardBy_emitAll {bus : EventBus} {i : Nat} (hi : i < bus.listeners)
    (es : List PollEvent) : (bus.emitAll es).heardBy i = bus.heardBy i ++ es := by
  induction es generalizing bus with
  | nil => simp [emitAll]
  | cons e es ih =>
    have hstep : bus.emitAll (e :: es) = (bus.emit e).emitAll es := rfl
    rw [hstep, @ih (bus.emit e) hi, heardBy_emit hi, List.append_assoc, List.singleton_append]

end EventBus

namespace Session

/-- The events that one call has answered; none if it has failed. -/
def answered : Exchange → List PollEvent
  | ⟨_, .ok (.events es)⟩ => es
  | ⟨_, _⟩ => []

/-- The events of all calls that have succeeded, the first one's first. -/
def events : List Exchange → List PollEvent
  | [] => []
  | x :: rest => events rest ++ answered x

/-- A call tells the listeners what it answers. -/
theorem bus_action {σ : Type} [PollStore σ] [VoteStore σ] [Ledger σ] (c : Call) {f : Follower σ}
    (hemit : f.emitEvents = true) :
    (c.action.start f).2.emitEvents = true ∧
      (c.action.start f).2.bus = f.bus.emitAll (answered ⟨c, (c.action.start f).1⟩) := by
  rw [c.start_action]
  cases c.refusal f with
  | some e => exact ⟨hemit, rfl⟩
  | none =>
    dsimp only
    rcases (c.work f.params f.height).start f.world with ⟨e | reply, world⟩
    · exact ⟨hemit, rfl⟩
    · cases reply with
      | registered p => exact ⟨hemit, rfl⟩
      | voted o => exact ⟨hemit, rfl⟩
      | events es => exact ⟨hemit, if_pos hemit⟩

/-- **Listeners are told** all that was answered, and nothing else. -/
theorem bus_run [PollStore S] [VoteStore S] [Ledger L] {f : Follower (World S L)}
    (hemit : f.emitEvents = true) (steps : List (Step L)) :
    ((start f).run steps).follower.bus
      = f.bus.emitAll (events ((start f).run steps).log) := by
  have hrun : ((start f).run steps).follower.emitEvents = true ∧
      ((start f).run steps).follower.bus = f.bus.emitAll (events ((start f).run steps).log) := by
    refine run_induction (P := fun s => s.follower.emitEvents = true ∧
      s.follower.bus = f.bus.emitAll (events s.log)) ?_ ⟨hemit, rfl⟩ (permits_all steps)
    rintro s st ⟨htells, hbus⟩ -
    cases st with
    | ledger change => exact ⟨htells, hbus⟩
    | call c =>
      obtain ⟨htells', hbus'⟩ := bus_action c htells
      refine ⟨htells', hbus'.trans ?_⟩
      rw [hbus, EventBus.emitAll, EventBus.emitAll, ← List.foldl_append]
      rfl
  exact hrun.2

end Session

/-! ## The invariant -/

namespace MemoryStore

variable {s s' : MemoryStore} {height : Height} {outcomes : Outcomes}

/-- What is announced when polls are decided. -/
def resolvedEvents (outcomes : Outcomes) (height : Height) (s : MemoryStore) : List PollEvent :=
  (outcomes.resolved (s.pollsWhere (·.finishHeight = height)) height).map PollEvent.ofResolved

/-- What is announced when the decisions of a height are undone. -/
def revertedEvents (height : Height) (s : MemoryStore) : List PollEvent :=
  (s.decidedAt height).map fun p => .ofReverted (.ofPoll height p)

theorem mem_resolvedEvents (hs : s.Keyed) {e : PollEvent} :
    e ∈ s.resolvedEvents outcomes height ↔ ∃ p o, s.polls.find? p.key = some p ∧
      p.finishHeight = height ∧ outcomes.find? p.key = some o ∧
      e = .ofResolved ⟨p.key, p.account, o.status, o.tally, height⟩ := by
  unfold resolvedEvents Outcomes.resolved
  simp only [List.mem_map, (sortBy_perm _ _).mem_iff, List.mem_filterMap, Option.map_eq_some_iff,
    hs.mem_pollsWhere, decide_eq_true_iff]
  constructor
  · rintro ⟨_, ⟨p, ⟨hp, hheight⟩, o, ho, rfl⟩, rfl⟩
    exact ⟨p, o, hp, hheight, ho, rfl⟩
  · rintro ⟨p, o, hp, hheight, ho, rfl⟩
    exact ⟨_, ⟨p, ⟨hp, hheight⟩, o, ho, rfl⟩, rfl⟩

/-- The decision of a poll with an outcome is announced. -/
theorem latest_resolvedEvents (hs : s.Keyed) (hdecide : outcomes.Decide height s) {key : Hash}
    {p : Poll} {o : Outcome} (hp : s.polls.find? key = some p)
    (ho : outcomes.find? key = some o) : PollEvent.latest key (s.resolvedEvents outcomes height)
      = some (.ofResolved ⟨key, p.account, o.status, o.tally, height⟩) := by
  obtain ⟨q, hq, hheight⟩ := hdecide.keys.1 (Table.contains_iff.2 ⟨o, ho⟩)
  cases hp.symm.trans hq
  obtain rfl := hs.polls hp
  have hlatest := PollEvent.latest_eq_some
    ((mem_resolvedEvents hs).2 ⟨p, o, hp, hheight, ho, rfl⟩) ?_
  · rwa [PollEvent.poll_ofResolved] at hlatest
  · intro d hd hpoll
    obtain ⟨q, o', hq, -, ho', rfl⟩ := (mem_resolvedEvents hs).1 hd
    simp only [PollEvent.poll_ofResolved] at hpoll
    rw [hpoll] at hq ho'
    cases hp.symm.trans hq
    cases ho.symm.trans ho'
    rfl

/-- Of a transaction without an outcome nothing is announced. -/
theorem latest_resolvedEvents_eq_none (hs : s.Keyed) {key : Hash}
    (ho : outcomes.find? key = none) :
    PollEvent.latest key (s.resolvedEvents outcomes height) = none := by
  rw [PollEvent.latest_eq_none_iff]
  intro e he heq
  obtain ⟨p, o, -, -, ho', rfl⟩ := (mem_resolvedEvents hs).1 he
  simp only [PollEvent.poll_ofResolved] at heq
  rw [heq, ho] at ho'
  cases ho'

theorem mem_revertedEvents (hs : s.Keyed) {e : PollEvent} :
    e ∈ s.revertedEvents height ↔ ∃ p, s.polls.find? p.key = some p ∧
      p.finishHeight = height ∧ p.status.isResolved = true ∧
      e = .ofReverted (.ofPoll height p) := by
  unfold revertedEvents
  simp only [List.mem_map, mem_decidedAt hs]
  constructor
  · rintro ⟨p, ⟨hp, hheight, hresolved⟩, rfl⟩
    exact ⟨p, hp, hheight, hresolved, rfl⟩
  · rintro ⟨p, hp, hheight, hresolved, rfl⟩
    exact ⟨p, ⟨hp, hheight, hresolved⟩, rfl⟩

/-- The undoing of a decision is announced. -/
theorem latest_revertedEvents_ne_none (hs : s.Keyed) {key : Hash} {p : Poll}
    (hp : s.polls.find? key = some p) (hheight : p.finishHeight = height)
    (hresolved : p.status.isResolved = true) :
    PollEvent.latest key (s.revertedEvents height) ≠ none := by
  intro hnone
  obtain rfl := hs.polls hp
  exact PollEvent.latest_eq_none_iff.1 hnone _
    ((mem_revertedEvents hs).2 ⟨p, hp, hheight, hresolved, rfl⟩) rfl

/-- Of a poll that was not decided at the height nothing is announced. -/
theorem latest_revertedEvents_eq_none (hs : s.Keyed) {key : Hash} {p : Poll}
    (hp : s.polls.find? key = some p)
    (hnot : ¬ (p.finishHeight = height ∧ p.status.isResolved = true)) :
    PollEvent.latest key (s.revertedEvents height) = none := by
  rw [PollEvent.latest_eq_none_iff]
  intro e he heq
  obtain ⟨q, hq, hheight, hresolved, rfl⟩ := (mem_revertedEvents hs).1 he
  have hkey : q.key = key := heq
  rw [hkey] at hq
  cases hp.symm.trans hq
  exact hnot ⟨hheight, hresolved⟩

/-- What was announced last of every transaction agrees with what is stored, and decisions were
undone only as they had been announced. -/
structure Announced (es : List PollEvent) (s : MemoryStore) : Prop where
  /-- The decision of a decided poll was announced last. -/
  decided : ∀ {key p}, s.polls.find? key = some p → p.status.isResolved = true →
    PollEvent.latest key es = some (.ofResolved (.ofPoll p.finishHeight p))
  /-- If there is no decided poll, no decision was announced last. -/
  undecided : ∀ {key e}, (∀ p, s.polls.find? key = some p → p.status = .pending) →
    PollEvent.latest key es = some e → e.status = .pending
  /-- What is undone was announced before, and not undone yet. -/
  cancels : ∀ before e after, es = before ++ e :: after → e.Cancels before

namespace Announced

variable {es : List PollEvent}

theorem empty : Announced [] .empty where
  decided h := by cases h
  undecided _ h := by cases h
  cancels before e after h := by
    cases before <;> cases h

/-- If the same polls are decided, the same events are right. -/
theorem of_decided (h : s.Announced es)
    (hdecided : ∀ {key p}, p.status.isResolved = true →
      (s'.polls.find? key = some p ↔ s.polls.find? key = some p)) : s'.Announced es where
  decided hp hresolved := h.decided ((hdecided hresolved).1 hp) hresolved
  undecided := by
    intro key e hpending he
    refine h.undecided (fun p hp => ?_) he
    refine Decidable.byContradiction fun hstatus => ?_
    have hresolved := PollStatus.isResolved_iff.2 hstatus
    exact hstatus (hpending p ((hdecided hresolved).2 hp))
  cancels := h.cancels

/-- What is told of a poll is its stored status. -/
theorem replay_eq (h : s.Announced es) (key : Hash) :
    PollEvent.replay es key = ((s.polls.find? key).map Poll.status).getD .pending := by
  rw [PollEvent.replay_eq_latest]
  have hpending : (∀ p, s.polls.find? key = some p → p.status = .pending) →
      ((PollEvent.latest key es).map PollEvent.status).getD .pending = .pending := by
    intro hnone
    cases he : PollEvent.latest key es with
    | none => rfl
    | some e => exact h.undecided hnone he
  cases hp : s.polls.find? key with
  | none => exact hpending fun p hp' => by cases hp.symm.trans hp'
  | some p =>
    by_cases hstatus : p.status = .pending
    · rw [hpending fun q hq => by cases hp.symm.trans hq; exact hstatus]
      exact hstatus.symm
    · have hresolved := PollStatus.isResolved_iff.2 hstatus
      rw [h.decided hp hresolved]
      exact PollEvent.status_ofResolved hresolved

/-- Polls were decided, and their decisions announced. -/
theorem settle (hs : s.Keyed) (h : s.Announced es) (hdecide : outcomes.Decide height s) :
    (s.settle outcomes).Announced (es ++ s.resolvedEvents outcomes height) := by
  have hsame : ∀ {key}, outcomes.find? key = none →
      PollEvent.latest key (es ++ s.resolvedEvents outcomes height) = PollEvent.latest key es := by
    intro key ho
    rw [PollEvent.latest_append, latest_resolvedEvents_eq_none hs ho, Option.none_or]
  refine ⟨fun {key p} hp hresolved => ?_, fun {key e} hpending he => ?_, ?_⟩
  · rcases find?_settle.1 hp with ⟨q, o, hq, ho, rfl⟩ | ⟨hp', ho⟩
    · obtain ⟨q', hq', hheight⟩ := hdecide.keys.1 (Table.contains_iff.2 ⟨o, ho⟩)
      cases hq.symm.trans hq'
      rw [PollEvent.latest_append, latest_resolvedEvents hs hdecide hq ho, Option.some_or,
        ← hs.polls hq, ← hheight]
      rfl
    · rw [hsame ho]
      exact h.decided hp' hresolved
  · cases ho : outcomes.find? key with
    | none =>
      rw [hsame ho] at he
      exact h.undecided (fun p hp => hpending p (find?_settle.2 (.inr ⟨hp, ho⟩))) he
    | some o =>
      obtain ⟨q, hq, -⟩ := hdecide.keys.1 (Table.contains_iff.2 ⟨o, ho⟩)
      have hstatus := hpending _ (find?_settle.2 (.inl ⟨q, o, hq, ho, rfl⟩))
      exact absurd hstatus (PollStatus.isResolved_iff.1 (hdecide.resolved ho))
  · refine PollEvent.cancels_append h.cancels fun before e after hsplit => ?_
    have he : e ∈ s.resolvedEvents outcomes height := by simp [hsplit]
    obtain ⟨r, -, rfl⟩ := List.mem_map.1 he
    exact PollEvent.cancels_ofResolved _ r

/-- If the decision of a poll was announced last, the event of its undoing is right. -/
theorem cancels_ofReverted (h : s.Announced es) {p : Poll} (hp : s.polls.find? p.key = some p)
    (hresolved : p.status.isResolved = true) :
    (PollEvent.ofReverted (.ofPoll p.finishHeight p)).Cancels es := by
  refine ⟨_, h.decided hp hresolved, ?_, PollEvent.status_ofResolved hresolved,
    PollEvent.account_ofResolved _, PollEvent.height_ofResolved _⟩
  rw [PollEvent.status_ofResolved hresolved]
  exact hresolved

/-- The block was taken back, and with it the decisions of its height. -/
theorem takeBack (hs : s.OnTime height) (hne : height ≠ 0) (h : s.Announced es) :
    (s.takeBack height).Announced (es ++ s.revertedEvents height) := by
  refine ⟨fun {key p} hp hresolved => ?_, fun {key e} hpending he => ?_, ?_⟩
  · -- A poll that is still decided was decided at another height.
    obtain ⟨q, hq, -, rfl⟩ := find?_polls_takeBack.1 hp
    unfold Poll.undecide at hresolved ⊢
    split at hresolved
    · cases hresolved
    · rename_i hother
      rw [if_neg hother, PollEvent.latest_append, latest_revertedEvents_eq_none hs.keyed hq hother,
        Option.none_or]
      exact h.decided hq hresolved
  · rw [PollEvent.latest_append] at he
    cases hlast : PollEvent.latest key (s.revertedEvents height) with
    | some d =>
      rw [hlast] at he
      cases he
      obtain ⟨p, -, -, -, rfl⟩ := (mem_revertedEvents hs.keyed).1 (PollEvent.mem_of_latest hlast).1
      rfl
    | none =>
      rw [hlast] at he
      refine h.undecided (fun p hp => Decidable.byContradiction fun hstatus => ?_) he
      have hresolved := PollStatus.isResolved_iff.2 hstatus
      have hheight : p.finishHeight ≠ height := fun hheight =>
        latest_revertedEvents_ne_none hs.keyed hp hheight hresolved hlast
      -- A poll of the block itself is not decided yet.
      have hcreated : p.createdHeight ≠ height := by
        rintro rfl
        exact hstatus (((hs.polls hp).status hne).2 (hs.polls hp).finish)
      have hundecided : p.undecide height = p := by
        unfold Poll.undecide
        rw [if_neg fun hdecided => hheight hdecided.1]
      exact hstatus (hpending p (find?_polls_takeBack.2 ⟨p, hp, hcreated, hundecided.symm⟩))
  · refine PollEvent.cancels_append h.cancels fun before e after hsplit => ?_
    have he : e ∈ s.revertedEvents height := by simp [hsplit]
    obtain ⟨p, hp, rfl, hresolved, rfl⟩ := (mem_revertedEvents hs.keyed).1 he
    -- No poll is undone twice at one height, so what was announced last is the decision.
    have hnodup : ((s.revertedEvents p.finishHeight).map PollEvent.poll).Nodup := by
      unfold revertedEvents
      rw [List.map_map]
      exact nodup_decidedAt hs.keyed p.finishHeight
    rw [hsplit, List.map_append, List.map_cons, List.nodup_append] at hnodup
    have hfirst : PollEvent.latest p.key before = none := by
      refine PollEvent.latest_eq_none_iff.2 fun d hd heq => ?_
      exact hnodup.2.2 _ (List.mem_map_of_mem hd) _ (List.mem_cons_self ..) heq
    refine (h.cancels_ofReverted hp hresolved).of_latest ?_
    rw [PollEvent.poll_ofReverted, PollEvent.latest_append]
    exact congrArg (fun last => last.or (PollEvent.latest p.key es)) hfirst

/-- **Every effect of a call** keeps the events in step with the store. -/
theorem effect [Ledger L] {f : Follower (World S L)} {c : Call} {reply : Reply}
    {v v' : World MemoryStore L} (hrefusal : c.refusal f = none)
    (hs : v.store.OnTime f.height) (h : v.store.Announced es)
    (heffect : c.Effect f.params f.height v (.ok reply) v') :
    v'.store.Announced (es ++ Session.answered ⟨c, .ok reply⟩) := by
  cases heffect with
  | @registered r l hpasses hledger =>
    unfold Session.answered
    rw [List.append_nil]
    refine h.of_decided fun {key p} hresolved => ?_
    rw [Table.find?_insert]
    split
    · rename_i hkey
      rw [hkey, hpasses.new]
      refine iff_of_false (fun hp => ?_) fun hp => (by cases hp)
      cases hp
      cases hresolved
    · exact Iff.rfl
  | accepted hheight hadmitted hledger =>
    unfold Session.answered
    rw [List.append_nil]
    exact h.of_decided fun _ => Iff.rfl
  | rejected hledger =>
    unfold Session.answered
    rwa [List.append_nil]
  | applied hdecide hledger => exact h.settle hs.keyed hdecide
  | popped hledger =>
    obtain ⟨rfl, hne⟩ := Call.eq_of_refusal_popBlock hrefusal
    exact h.takeBack hs hne

end Announced

end MemoryStore

/-! ## Runs -/

/-- **Every step** keeps the events in step with the store, be it a success or a failure. -/
theorem Session.announced_step [PollStore S] [VoteStore S] [FaithfulStore S] [Ledger L]
    (hsafe : ¬ FaithfulStore.fallible S) {s : Session (World S L)}
    (hs : s.follower.world.view.store.OnTime s.follower.height)
    (h : s.follower.world.view.store.Announced (events s.log)) (st : Step L) :
    (s.step st).follower.world.view.store.Announced (events (s.step st).log) := by
  refine step_keeps hsafe (P := fun log _ store => store.Announced (events log)) hs.keyed h st ?_ ?_
  · intro c e _ _
    have hnothing : events (⟨c, .error e⟩ :: s.log) = events s.log := List.append_nil _
    rwa [hnothing]
  · intro c reply v' _ hrefusal heffect
    exact h.effect hrefusal hs heffect

/-- **A listener's mirror never drifts from the store.**  In every run that starts from an empty
store that does not fail, with any calls in any order, a ledger that may answer, fail and change as
it likes, and listeners that have heard nothing yet:

* every listener has heard the events that the successful calls have answered, in order, and
  nothing else;
* these events tell of every poll the status that is stored of it, and of a transaction without a
  poll that it is undecided;
* an event that undoes a decision names the account, the height and the status of the event that
  was the last one about its poll, and that was a decision. -/
theorem events_mirror_statuses [Ledger L] (f : Follower (World MemoryStore L))
    (hempty : f.world.store = .empty) (hemit : f.emitEvents = true) (hsilent : f.bus.heard = [])
    (steps : List (Step L)) :
    let s := (Session.start f).run steps
    let es := Session.events s.log
    (∀ i < f.bus.listeners, s.follower.bus.heardBy i = es) ∧
    (∀ key, PollEvent.replay es key
      = ((s.follower.world.store.polls.find? key).map Poll.status).getD .pending) ∧
    ∀ before key account previous height after,
      es = before ++ .reverted key account previous height :: after →
      ∃ e, PollEvent.latest key before = some e ∧ e.status.isResolved = true ∧
        e.status = previous ∧ e.account = account ∧ e.height = height := by
  intro s es
  have hsafe : ¬ FaithfulStore.fallible MemoryStore := fun h => h
  have hrun : s.follower.world.store.OnTime s.follower.height ∧
      s.follower.world.store.Announced es :=
    Session.run_keeps
      (P := fun log height store => store.OnTime height ∧ store.Announced (Session.events log))
      (fun height => ⟨MemoryStore.onTime_empty height, .empty⟩)
      (fun s st hs _ => ⟨hs.1.step hsafe st, Session.announced_step hsafe hs.1 hs.2 st⟩)
      hempty (Session.permits_all steps)
  refine ⟨fun i hi => ?_, hrun.2.replay_eq, ?_⟩
  · have hnothing : f.bus.heardBy i = [] := by
      unfold EventBus.heardBy
      rw [hsilent]
      rfl
    show ((Session.start f).run steps).follower.bus.heardBy i = es
    rw [Session.bus_run hemit, EventBus.heardBy_emitAll hi, hnothing, List.nil_append]
  · intro before key account previous height after hsplit
    exact hrun.2.cancels before _ after hsplit

/-- A poll is approved, its block taken back, and the next attempt to apply the block fails at the
ledger: two listeners have heard of the first two. -/
theorem events_mirror_statuses_reverted :
    let f : Follower (World MemoryStore SimulatedLedger) :=
      { Follower.start ⟨.empty, .releasing .zero⟩ .standard 0 with
        bus := EventBus.empty.subscribe.subscribe }
    let steps : List (Step SimulatedLedger) := [.call (.register (.single .zero 2)),
      .call (.castVote .zero ⟨7⟩), .call (.applyBlock 1), .call (.applyBlock 2),
      .call (.popBlock 2), .ledger (SimulatedLedger.failRelease .zero), .call (.applyBlock 2)]
    let s := (Session.start f).run steps
    let es := Session.events s.log
    f.world.store = .empty ∧ f.emitEvents = true ∧ f.bus.heard = [] ∧
    es = [.approved .zero ⟨1⟩ 1 2, .reverted .zero ⟨1⟩ .approved 2] ∧
    s.follower.halt.isSome = true ∧
    (∀ i < f.bus.listeners, s.follower.bus.heardBy i = es) ∧
    (∀ key, PollEvent.replay es key
      = ((s.follower.world.store.polls.find? key).map Poll.status).getD .pending) ∧
    ∀ before key account previous height after,
      es = before ++ .reverted key account previous height :: after →
      ∃ e, PollEvent.latest key before = some e ∧ e.status.isResolved = true ∧
        e.status = previous ∧ e.account = account ∧ e.height = height := by
  exact ⟨rfl, rfl, rfl, by decide +kernel, by decide +kernel,
    events_mirror_statuses _ rfl rfl rfl _⟩

end Finality
