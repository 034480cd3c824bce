import Finality.Proofs.Engine.Outcome
import Finality.Proofs.World
import Mathlib.Logic.Relation

/-!
# Passes over the polls decided by links

`settleLinked` visits the polls decided by links again and again.  All that a visit can do is said
once, and what passes do follows from it.

* `MemoryStore.linkFault`, `Progress.linkFault` — what is wrong with a link, if it must be looked
  up and does not lead to a poll that can be read.
* `Progress.Readable`, `Progress.Breaks` — the links of a poll are read one after another, up to one
  that is not approved.  So the links behind it may be faulty unnoticed, and the others may not.
* `Progress.Decides`, `Progress.Waits`, `visitLinked_yields` — a visit gives an undecided poll the
  outcome that its links call for, or finds it waiting for another one.
* `Progress.Settles`, `Progress.Leads` — one outcome more, and any number of them.
* `passLinked_yields`, `settleLinked_yields` — passes lead on; a pass that decides nothing finds
  every poll waiting, and the passes allowed are enough to come to one.
-/

namespace Finality

variable {S L : Type} {store : MemoryStore} {height : Height}

/-! ## Links that cannot be read -/

/-- What is wrong with a link to a poll that is not being decided: there is no such poll, or it
should have been decided at an earlier height. -/
def MemoryStore.linkFault (s : MemoryStore) (height : Height) (poll link : Hash) :
    Option ConsistencyError :=
  match s.polls.find? link with
  | none => some (.missingLinkedPoll poll link)
  | some q =>
    if q.status = .pending ∧ q.finishHeight < height then
      some (.stalePending link q.finishHeight height)
    else none

theorem MemoryStore.linkFault_of_none {s : MemoryStore} {poll link : Hash}
    (h : s.polls.find? link = none) :
    s.linkFault height poll link = some (.missingLinkedPoll poll link) := by
  simp [linkFault, h]

theorem MemoryStore.linkFault_of_some {s : MemoryStore} {poll link : Hash} {q : Poll}
    (h : s.polls.find? link = some q) :
    s.linkFault height poll link = if q.status = .pending ∧ q.finishHeight < height then
      some (.stalePending link q.finishHeight height) else none := by
  simp [linkFault, h]

namespace Progress

/-- What is wrong with a link: nothing if its poll is being decided. -/
def linkFault (s : Progress) (store : MemoryStore) (height : Height) (poll link : Hash) :
    Option ConsistencyError :=
  if s.outcomes.contains link = true ∨ s.undecided.contains link = true then none
  else store.linkFault height poll link

/-- The links can be read up to one that is not approved, or else to the end. -/
def Readable (s : Progress) (store : MemoryStore) (height : Height) (poll : Hash) :
    List Hash → Prop
  | [] => True
  | link :: rest => s.linkFault store height poll link = none ∧
    (s.tells store link = some .notApproved ∨ s.Readable store height poll rest)

/-- Reading the links comes upon a faulty one before any that is not approved. -/
def Breaks (s : Progress) (store : MemoryStore) (height : Height) (poll : Hash)
    (fault : ConsistencyError) : List Hash → Prop
  | [] => False
  | link :: rest => s.linkFault store height poll link = some fault ∨
    (s.tells store link ≠ some .notApproved ∧ s.Breaks store height poll fault rest)

variable {s s' : Progress} {poll : Hash}

/-- Where reading breaks off there is a faulty link. -/
theorem Breaks.exists_split {fault : ConsistencyError} {links : List Hash}
    (h : s.Breaks store height poll fault links) :
    ∃ before link after, links = before ++ link :: after ∧
      s.linkFault store height poll link = some fault := by
  induction links with
  | nil => exact h.elim
  | cons link rest ih =>
    rcases h with hfault | ⟨-, hrest⟩
    · exact ⟨[], link, rest, rfl, hfault⟩
    · obtain ⟨before, link', after, rfl, hfault⟩ := ih hrest
      exact ⟨link :: before, link', after, rfl, hfault⟩

/-- Giving an undecided poll its outcome makes no difference to what is wrong with links. -/
theorem linkFault_settle {key link : Hash} (o : Outcome) (hkey : s.undecided.contains key = true) :
    (s.settle key o).linkFault store height poll link = s.linkFault store height poll link := by
  have hknown : ((s.settle key o).outcomes.contains link = true ∨
      (s.settle key o).undecided.contains link = true) ↔
      (s.outcomes.contains link = true ∨ s.undecided.contains link = true) := by
    rw [settle, Table.contains_insert, Table.contains_erase]
    by_cases heq : link = key
    · simp [heq, hkey]
    · simp [heq]
  simp only [linkFault, hknown]

/-- Links that can be read can be read later on. -/
theorem Readable.settle {key : Hash} (o : Outcome) (hnone : s.outcomes.find? key = none)
    (hkey : s.undecided.contains key = true) {links : List Hash}
    (h : s.Readable store height poll links) :
    (s.settle key o).Readable store height poll links := by
  induction links with
  | nil => exact h
  | cons link rest ih =>
    refine ⟨(linkFault_settle o hkey).trans h.1, h.2.imp (fun htells => ?_) ih⟩
    exact tells_settle o hnone hkey htells (by simp)

/-! ## Steps -/

/-- The poll is undecided, its links can be read, and this is the outcome that they call for. -/
structure Decides (s : Progress) (store : MemoryStore) (height : Height) (p : Poll) (o : Outcome) :
    Prop where
  /-- The poll has no outcome yet. -/
  undecided : s.undecided.contains p.key = true
  /-- No faulty link keeps it from having one. -/
  readable : s.Readable store height p.key p.links
  /-- The outcome is the right one. -/
  warrants : s.Warrants store p o

/-- If the poll is undecided, all of its links can be read, and one of them is undecided too. -/
def Waits (s : Progress) (store : MemoryStore) (height : Height) (p : Poll) : Prop :=
  s.undecided.contains p.key = true →
    s.Readable store height p.key p.links ∧ ∃ link ∈ p.links, s.undecided.contains link = true

/-- One of these polls gets its outcome. -/
def Settles (linked : List Poll) (store : MemoryStore) (height : Height) (s s' : Progress) : Prop :=
  ∃ p ∈ linked, ∃ o, s.Decides store height p o ∧ s' = s.settle p.key o

/-- Some of these polls, one after another, get their outcomes. -/
abbrev Leads (linked : List Poll) (store : MemoryStore) (height : Height) :
    Progress → Progress → Prop :=
  Relation.ReflTransGen (Settles linked store height)

variable {linked polls : List Poll}

theorem Settles.size_lt (h : Settles linked store height s s') :
    s'.undecided.size < s.undecided.size := by
  obtain ⟨p, -, o, hdecides, rfl⟩ := h
  exact Table.size_erase_lt hdecides.undecided

theorem Leads.size_le (h : Leads linked store height s s') :
    s'.undecided.size ≤ s.undecided.size := by
  induction h with
  | refl => exact Nat.le_refl _
  | tail _ hsettles ih => exact Nat.le_trans (Nat.le_of_lt hsettles.size_lt) ih

/-- What is settled rightly is sound. -/
theorem Settles.sound (h : Settles linked store height s s')
    (hlinked : ∀ p ∈ linked, p ∈ polls)
    (hunique : ∀ p ∈ polls, ∀ q ∈ polls, p.key = q.key → p = q) (hs : s.Sound polls store) :
    s'.Sound polls store := by
  obtain ⟨p, hp, o, hdecides, rfl⟩ := h
  exact hs.settle hunique (hlinked p hp) hdecides.undecided hdecides.warrants

/-- **Passes keep outcomes right.** -/
theorem Leads.sound (h : Leads linked store height s s') (hlinked : ∀ p ∈ linked, p ∈ polls)
    (hunique : ∀ p ∈ polls, ∀ q ∈ polls, p.key = q.key → p = q) (hs : s.Sound polls store) :
    s'.Sound polls store := by
  induction h with
  | refl => exact hs
  | tail _ hsettles ih => exact hsettles.sound hlinked hunique ih

/-- A state in which every poll waits is stuck. -/
theorem stuck_of_waits (h : ∀ p ∈ linked, s.Waits store height p) : s.Stuck linked :=
  fun p hp hundecided => (h p hp hundecided).2

end Progress

/-! ## What passes do -/

/-- The store has failed where it may, or what it holds is faulty in this way. -/
inductive EngineError.Cause (fallible : Prop) (faulty : ConsistencyError → Prop) :
    EngineError → Prop where
  /-- The store has failed. -/
  | store (e : StoreError) (hf : fallible) : Cause fallible faulty (.store e)
  /-- What is stored is faulty. -/
  | fault {e : ConsistencyError} (he : faulty e) : Cause fallible faulty (.consistency e)

/-- How an action that only reads fails: nothing has changed, and there is a cause. -/
abbrev ReadFails (S : Type) [PollStore S] [VoteStore S] [FaithfulStore S]
    (faulty : ConsistencyError → Prop) (v : World MemoryStore L) (e : EngineError)
    (v' : World MemoryStore L) : Prop :=
  v' = v ∧ e.Cause (FaithfulStore.fallible S) faulty

/-- What passes over these polls come upon, from a state on: further on, the links of a poll that is
still undecided cannot be read. -/
def Progress.Obstructed (linked : List Poll) (store : MemoryStore) (height : Height) (s : Progress)
    (fault : ConsistencyError) : Prop :=
  ∃ s', Leads linked store height s s' ∧ ∃ p ∈ linked, s'.undecided.contains p.key = true ∧
    s'.Breaks store height p.key fault p.links

variable [PollStore S] [VoteStore S] [FaithfulStore S] {v : World MemoryStore L}

/-- Faults may be described less closely. -/
theorem ReadFails.mono {faulty faulty' : ConsistencyError → Prop} {e : EngineError}
    {v' : World MemoryStore L} (h : ReadFails S faulty v e v')
    (hfaulty : ∀ fault, faulty fault → faulty' fault) : ReadFails S faulty' v e v' := by
  obtain ⟨hv, hcause⟩ := h
  refine ⟨hv, ?_⟩
  cases hcause with
  | store e hf => exact .store e hf
  | fault he => exact .fault (hfaulty _ he)

theorem countVotes_yields {key : Hash} {Q : Amount → World MemoryStore L → Prop}
    {E : StoreError → World MemoryStore L → Prop}
    (hQ : Q (UInt64.ofNat (v.store.votesOn key).length) v)
    (hf : FaithfulStore.fallible S → ∀ e, E e v) :
    Yields (S := S) (countVotes key) v Q E :=
  .bind (yields_votesOn hf (.pure hQ))

theorem linkState_yields (p : Poll) (s : Progress) (link : Hash) :
    Yields (S := S) (linkState p height s link) v
      (fun state v' => v' = v ∧ s.tells v.store link = some state ∧
        s.linkFault v.store height p.key link = none)
      (ReadFails S (fun fault => s.linkFault v.store height p.key link = some fault) v) := by
  unfold linkState
  split
  · rename_i o ho
    have hknown : s.outcomes.contains link = true := Table.contains_iff.2 ⟨o, ho⟩
    exact .pure ⟨rfl, Progress.tells_of_outcome ho, if_pos (.inl hknown)⟩
  · rename_i hnone
    split
    · rename_i hundecided
      exact .pure ⟨rfl, Progress.tells_of_undecided hnone hundecided, if_pos (.inr hundecided)⟩
    · rename_i hdecided
      have hfault : s.linkFault v.store height p.key link
          = v.store.linkFault height p.key link := by
        refine if_neg fun hknown => ?_
        rw [Table.contains_eq_false_iff.2 hnone] at hknown
        exact hdecided (hknown.resolve_left Bool.false_ne_true)
      rw [hfault]
      refine .bind (.inStore (yields_findPoll (fun hf e => ⟨rfl, .store e hf⟩) ?_))
      split
      · rename_i hmissing
        exact .throw ⟨rfl, .fault (MemoryStore.linkFault_of_none hmissing)⟩
      · rename_i q hq
        have htells := Progress.tells_of_stored hnone (Bool.eq_false_iff.2 hdecided) hq
        rw [MemoryStore.linkFault_of_some hq]
        split
        · rename_i hstatus
          exact .pure ⟨rfl, by rw [htells, hstatus]; rfl, by simp [hstatus]⟩
        · rename_i hstatus
          exact .pure ⟨rfl, by rw [htells, hstatus]; rfl, by simp [hstatus]⟩
        · rename_i hpending
          dsimp only
          split
          · rename_i hstale
            exact .bind (.throw ⟨rfl, .fault (if_pos ⟨hpending, hstale⟩)⟩)
          · rename_i hlater
            exact .pure ⟨rfl, by rw [htells, hpending]; rfl, if_neg fun h => hlater h.2⟩

/-- Links are read up to one that is not approved. -/
theorem judgeLinks_yields (p : Poll) (s : Progress) (links : List Hash) :
    Yields (S := S) (judgeLinks p height s links) v
      (fun verdict v' => v' = v ∧ s.Bears v.store links verdict ∧
        s.Readable v.store height p.key links)
      (ReadFails S (fun fault => s.Breaks v.store height p.key fault links) v) := by
  induction links with
  | nil => exact .pure ⟨rfl, fun _ h => (nomatch h), trivial⟩
  | cons link rest ih =>
    refine .bind ((linkState_yields p s link).mono ?_
      fun _ _ he => ReadFails.mono he fun _ hfault => .inl hfault)
    rintro state v' ⟨rfl, htells, hfault⟩
    have hbreaks : s.tells v'.store link ≠ some .notApproved → ∀ fault,
        s.Breaks v'.store height p.key fault rest →
          s.Breaks v'.store height p.key fault (link :: rest) :=
      fun hnot _ h => .inr ⟨hnot, h⟩
    cases state with
    | approved =>
      refine ih.mono (fun _ _ h => ⟨h.1, ?_, hfault, .inr h.2.2⟩)
        fun _ _ he => ReadFails.mono he (hbreaks (by rw [htells]; simp))
      exact h.2.1.cons_approved htells
    | notApproved => exact .pure ⟨rfl, ⟨link, List.mem_cons_self .., htells⟩, hfault, .inl htells⟩
    | undecided =>
      refine .bind (ih.mono ?_ fun _ _ he => ReadFails.mono he (hbreaks (by rw [htells]; simp)))
      rintro verdict _ ⟨rfl, hverdict, hreadable⟩
      split
      · obtain ⟨other, hother, hnot⟩ := hverdict
        exact .pure ⟨rfl, ⟨other, List.mem_cons_of_mem _ hother, hnot⟩, hfault, .inr hreadable⟩
      · exact .pure ⟨rfl, ⟨link, List.mem_cons_self .., htells⟩, hfault, .inr hreadable⟩

/-- **A visit** to a poll gives it the outcome that its links call for, or finds it waiting. -/
theorem visitLinked_yields (s : Progress) {p : Poll} (hlinked : p.isLinked = true) :
    Yields (S := S) (visitLinked height s p) v
      (fun s' v' => v' = v ∧ (s' = s ∧ s.Waits v.store height p ∨
        ∃ o, s.Decides v.store height p o ∧ s' = s.settle p.key o))
      (ReadFails S (fun fault => s.undecided.contains p.key = true ∧
        s.Breaks v.store height p.key fault p.links) v) := by
  unfold visitLinked
  cases hundecided : s.undecided.contains p.key with
  | false =>
    refine .pure ⟨rfl, .inl ⟨rfl, fun h => ?_⟩⟩
    rw [hundecided] at h
    cases h
  | true =>
    refine .bind ((judgeLinks_yields p s p.links).mono ?_
      fun _ _ he => ReadFails.mono he fun _ hbreaks => ⟨rfl, hbreaks⟩)
    rintro verdict _ ⟨rfl, hverdict, hreadable⟩
    cases verdict with
    | none =>
      obtain ⟨link, hlink, htells⟩ := hverdict
      have hwaits := Progress.contains_undecided_of_tells htells
      exact .pure ⟨rfl, .inl ⟨rfl, fun _ => ⟨hreadable, link, hlink, hwaits⟩⟩⟩
    | some status =>
      refine .bind (.inStore (countVotes_yields ?_ fun hf e => ⟨rfl, .store e hf⟩))
      refine .pure ⟨rfl, .inr ⟨_, ⟨hundecided, hreadable, ?_, fun hnot => ?_, fun _ => hverdict⟩,
        rfl⟩⟩
      · exact .of_length (Poll.isWeighted_of_isLinked hlinked)
      · rw [hlinked] at hnot
        cases hnot

section

variable {linked : List Poll} (hlinked : ∀ p ∈ linked, p.isLinked = true)
include hlinked

/-- A pass decides something, or finds every poll waiting. -/
theorem passLinked_yields (s : Progress) :
    Yields (S := S) (passLinked height linked s) v
      (fun s' v' => v' = v ∧ Progress.Leads linked v.store height s s' ∧
        (s' = s ∧ (∀ p ∈ linked, s.Waits v.store height p) ∨
          s'.undecided.size < s.undecided.size))
      (ReadFails S (s.Obstructed linked v.store height) v) := by
  refine (Yields.foldlM (I := fun (s' : Progress) ahead v' => v' = v ∧
    (∀ p ∈ ahead, p ∈ linked) ∧ Progress.Leads linked v.store height s s' ∧
    (s' = s ∧ (∀ p ∈ linked, p ∈ ahead ∨ s.Waits v.store height p) ∨
      s'.undecided.size < s.undecided.size)) ?_
    ⟨rfl, fun p hp => hp, .refl, .inl ⟨rfl, fun p hp => .inl hp⟩⟩).mono ?_ fun _ _ he => he
  · rintro s' p ahead _ ⟨rfl, hahead, hleads, hsofar⟩
    obtain ⟨hp, hrest⟩ := List.forall_mem_cons.1 hahead
    refine (visitLinked_yields s' (hlinked p hp)).mono ?_
      fun _ _ he => ReadFails.mono he fun _ ⟨hundecided, hbreaks⟩ =>
        ⟨s', hleads, p, hp, hundecided, hbreaks⟩
    rintro s'' v' ⟨rfl, ⟨rfl, hwaits⟩ | ⟨o, hdecides, rfl⟩⟩
    · refine ⟨rfl, hrest, hleads, hsofar.imp_left ?_⟩
      rintro ⟨rfl, hmet⟩
      refine ⟨rfl, fun q hq => ?_⟩
      rcases hmet q hq with hmem | hwaits'
      · rcases List.mem_cons.1 hmem with rfl | hmem
        · exact .inr hwaits
        · exact .inl hmem
      · exact .inr hwaits'
    · have hsettles : Progress.Settles linked v'.store height s' (s'.settle p.key o) :=
        ⟨p, hp, o, hdecides, rfl⟩
      exact ⟨rfl, hrest, hleads.tail hsettles,
        .inr (Nat.lt_of_lt_of_le hsettles.size_lt hleads.size_le)⟩
  · rintro s' v' ⟨hv, -, hleads, hmet⟩
    exact ⟨hv, hleads, hmet.imp_left fun h =>
      ⟨h.1, fun p hp => (h.2 p hp).resolve_left List.not_mem_nil⟩⟩

/-- **Enough passes come to a state in which every poll waits**: each but the last leaves fewer
polls undecided. -/
theorem settleLinked_yields {passes : Nat} {s : Progress} (hpasses : s.undecided.size < passes) :
    Yields (S := S) (settleLinked height linked passes s) v
      (fun s' v' => v' = v ∧ Progress.Leads linked v.store height s s' ∧
        ∀ p ∈ linked, s'.Waits v.store height p)
      (ReadFails S (s.Obstructed linked v.store height) v) := by
  induction passes generalizing s with
  | zero => exact absurd hpasses (Nat.not_lt_zero _)
  | succ passes ih =>
    refine .bind ((passLinked_yields hlinked s).mono ?_ fun _ _ he => he)
    rintro s' _ ⟨rfl, hleads, hpass⟩
    split
    · rename_i hsize
      rcases hpass with ⟨rfl, hwaits⟩ | hless
      · exact .pure ⟨rfl, .refl, hwaits⟩
      · omega
    · rename_i hsize
      rcases hpass with ⟨rfl, -⟩ | hless
      · exact absurd rfl hsize
      · refine (ih (s := s') (by omega)).mono ?_ ?_
        · rintro s'' v' ⟨hv, hleads', hwaits⟩
          exact ⟨hv, hleads.trans hleads', hwaits⟩
        · exact fun _ _ he => ReadFails.mono he fun _ ⟨s'', hleads', hbreaks⟩ =>
            ⟨s'', hleads.trans hleads', hbreaks⟩

end

end Finality
