import Finality.Proofs.Engine.Fixpoint
import Mathlib.Order.Bounds.Basic

/-!
# The order of visits

The polls due at a height are visited by hash.  In another order they would get the same outcomes,
but deciding them may fail in one order and succeed in another: links are read one after another,
up to one that is not approved, so that a faulty link behind it goes unnoticed.  If that link is to
a poll of the same height that is still undecided, reading goes on, and comes upon the fault.

* `Outcomes.Sound.eq_of_isLeast` — the rule leaves no choice of outcomes.
* `Progress.Reached.readable` — the links of whatever is decided have been read.
* `Progress.Breaks.exists_hidden` — what is read in one order and not in another stands behind a
  link that the two orders judge differently.
* `decisions_independent_of_order` — the result: orders that do not fail agree, and one fails where
  another does not only over a faulty link that is hidden like this.
* `visiting_order_decides_failure` — two polls that can be visited in one order only.
-/

namespace Finality

variable {S L : Type} {store : MemoryStore} {height : Height} {polls polls' : List Poll}

/-! ## Outcomes -/

/-- A poll's votes come to one tally. -/
theorem MemoryStore.Gathers.unique {p : Poll} {tally tally' : Amount} (h : store.Gathers p tally)
    (h' : store.Gathers p tally') : tally = tally' := h.tally.trans h'.tally.symm

/-- A tally makes one status of a poll. -/
theorem Poll.Quorate.unique {p : Poll} {status status' : PollStatus} {tally : Amount}
    (h : p.Quorate status tally) (h' : p.Quorate status' tally) : status = status' := by
  obtain ⟨quorum, hquorum, rfl⟩ := h
  obtain ⟨quorum', hquorum', rfl⟩ := h'
  rw [hquorum] at hquorum'
  cases hquorum'
  rfl

namespace Outcomes

variable {o o' : Outcomes}

theorem mem_linkedApprovals {p : Poll} (hp : p ∈ polls) (hlinked : p.isLinked = true)
    {x : Outcome} (hx : o.find? p.key = some x) :
    p.key ∈ o.linkedApprovals polls ↔ x.status = .approved := by
  constructor
  · rintro ⟨q, hq, -, hkey, y, hy, happroved⟩
    rw [hx] at hy
    cases hy
    exact happroved
  · exact fun happroved => ⟨p, hp, hlinked, rfl, x, hx, happroved⟩

/-- Two decisions with the same approvals are the same. -/
theorem status_eq_of_approved_iff {status status' : PollStatus} (h : status.isResolved = true)
    (h' : status'.isResolved = true) (happroved : status = .approved ↔ status' = .approved) :
    status = status' := by
  cases status <;> cases status' <;> simp_all [PollStatus.isResolved]

/-- **The rule leaves no choice**: right outcomes that approve the least closed set are the same in
every order of the polls. -/
theorem Sound.eq_of_isLeast (h : o.Sound polls store) (h' : o'.Sound polls' store)
    (hdue : store.Due height polls) (hdue' : store.Due height polls')
    (hleast : IsLeast {approved | store.ClosedAt height approved} (o.linkedApprovals polls))
    (hleast' : IsLeast {approved | store.ClosedAt height approved} (o'.linkedApprovals polls')) :
    o = o' := by
  have hsame : o.linkedApprovals polls = o'.linkedApprovals polls' := hleast.unique hleast'
  have hkeys : ∀ key, o.contains key = true ↔ o'.contains key = true := fun key => by
    rw [h.keys, h'.keys, hdue.exists_key_iff, hdue'.exists_key_iff]
  refine Table.ext_find? fun key => ?_
  cases hx : o.find? key with
  | none =>
    have hnone := Table.contains_eq_false_iff.2 hx
    have hnone' : o'.contains key = false := by
      rw [Bool.eq_false_iff, ne_eq, ← hkeys key, hnone]
      exact Bool.false_ne_true
    exact (Table.contains_eq_false_iff.1 hnone').symm
  | some x =>
    have hcontains := Table.contains_iff.2 ⟨x, hx⟩
    obtain ⟨x', hx'⟩ := Table.contains_iff.1 ((hkeys key).1 hcontains)
    obtain ⟨p, hp, rfl⟩ := (h.keys key).1 hcontains
    obtain ⟨hfind, hheight⟩ := hdue.stored hp
    have hp' := (hdue'.complete hfind hheight).1
    have hwarrants := h.warrants p hp x hx
    have hwarrants' := h'.warrants p hp' x' hx'
    have htally := hwarrants.gathers.unique hwarrants'.gathers
    have hstatus : x.status = x'.status := by
      cases hlinked : p.isLinked with
      | true =>
        refine status_eq_of_approved_iff hwarrants.resolved hwarrants'.resolved ?_
        rw [← mem_linkedApprovals hp hlinked hx, hsame,
          mem_linkedApprovals hp' hlinked hx']
      | false =>
        have hquorate := hwarrants.votes hlinked
        rw [htally] at hquorate
        exact hquorate.unique (hwarrants'.votes hlinked)
    rw [hx']
    cases x
    cases x'
    cases hstatus
    cases htally
    rfl

end Outcomes

/-! ## Links that are read in one order only -/

namespace Progress

variable {s s' : Progress}

/-- Where all polls due are being decided, the store says what is wrong with a link. -/
theorem Sound.linkFault_eq (hs : s.Sound polls store) (hdue : store.Due height polls)
    {poll link : Hash} :
    s.linkFault store height poll link = store.linkFault height poll link := by
  unfold linkFault
  split
  · rename_i hknown
    obtain ⟨q, hq, hheight⟩ := hdue.exists_key_iff.1 ((hs.keys link).1 hknown)
    rw [MemoryStore.linkFault_of_some hq, if_neg]
    rintro ⟨-, hbelow⟩
    rw [hheight] at hbelow
    exact UInt64.lt_irrefl _ hbelow
  · rfl

/-- The links of a poll stay readable once the poll is decided. -/
theorem Leads.undecided_or_readable {linked : List Poll} (h : Leads linked store height s s')
    (hlinked : ∀ p ∈ linked, p ∈ polls)
    (hunique : ∀ p ∈ polls, ∀ q ∈ polls, p.key = q.key → p = q) (hs : s.Sound polls store)
    {p : Poll} (hp : p ∈ linked) (hundecided : s.undecided.contains p.key = true) :
    s'.undecided.contains p.key = true ∨ s'.Readable store height p.key p.links := by
  induction h with
  | refl => exact .inl hundecided
  | tail hleads hsettles ih =>
    have hsound := Leads.sound hleads hlinked hunique hs
    obtain ⟨q, hq, o, hdecides, rfl⟩ := hsettles
    have hnone := hsound.apart q.key hdecides.undecided
    rcases ih with hundecided | hreadable
    · by_cases hkey : p.key = q.key
      · rw [hunique p (hlinked p hp) q (hlinked q hq) hkey]
        exact .inr (hdecides.readable.settle o hnone hdecides.undecided)
      · rw [settle, Table.contains_erase]
        exact .inl ⟨hkey, hundecided⟩
    · exact .inr (hreadable.settle o hnone hdecides.undecided)

/-- **In the end all links have been read**, up to one that is not approved. -/
theorem Reached.readable (h : s.Reached polls store height) (hdue : store.Due height polls)
    (hwaits : ∀ p ∈ polls.filter Poll.isLinked, s.Waits store height p) {p : Poll} (hp : p ∈ polls)
    (hlinked : p.isLinked = true) : s.Readable store height p.key p.links := by
  obtain ⟨outcomes, hopening, hleads⟩ := h
  have hmem := List.mem_filter.2 ⟨hp, hlinked⟩
  have hundecided : (Progress.opening polls outcomes).undecided.contains p.key = true :=
    (contains_foldl_insert _ _ _).2 (.inl ⟨p, hmem, rfl⟩)
  rcases Leads.undecided_or_readable hleads (fun p hp => (List.mem_filter.1 hp).1) hdue.unique
    hopening hmem hundecided with hundecided | hreadable
  · exact (hwaits p hmem hundecided).1
  · exact hreadable

/-- A fault that is come upon in one state and not in another stands behind a link that is not
approved in the latter. -/
theorem Breaks.exists_hidden (hs : s.Sound polls store) (hdue : store.Due height polls)
    (hs' : s'.Sound polls' store) (hdue' : store.Due height polls') {poll : Hash}
    {fault : ConsistencyError} {links : List Hash} (hbreaks : s.Breaks store height poll fault links)
    (hreadable : s'.Readable store height poll links) :
    ∃ before link after, links = before ++ link :: after ∧
      store.linkFault height poll link = some fault ∧
      ∃ other ∈ before, s'.tells store other = some .notApproved ∧
        s.tells store other ≠ some .notApproved := by
  induction links with
  | nil => exact hbreaks.elim
  | cons link rest ih =>
    obtain ⟨hfault, hread⟩ := hreadable
    rw [hs'.linkFault_eq hdue'] at hfault
    rcases hbreaks with hbreak | ⟨htells, hbreaks⟩
    · rw [hs.linkFault_eq hdue, hfault] at hbreak
      cases hbreak
    · rcases hread with htells' | hread
      · obtain ⟨before, faulty, after, rfl, hfaulty⟩ := hbreaks.exists_split
        rw [hs.linkFault_eq hdue] at hfaulty
        exact ⟨link :: before, faulty, after, rfl, hfaulty, link, List.mem_cons_self .., htells',
          htells⟩
      · obtain ⟨before, faulty, after, rfl, hfaulty, other, hother, hdiffer⟩ := ih hbreaks hread
        exact ⟨link :: before, faulty, after, rfl, hfaulty, other, List.mem_cons_of_mem _ hother,
          hdiffer⟩

/-- **Orders judge a link differently only while its poll is undecided**: it is one that is decided
by links at the same height. -/
theorem Sound.exists_linked_of_tells (hs : s.Sound polls store) (hdue : store.Due height polls)
    (hs' : s'.Sound polls' store) (hdue' : store.Due height polls') {link : Hash}
    (htells : s'.tells store link = some .notApproved)
    (hdiffer : s.tells store link ≠ some .notApproved) :
    ∃ q ∈ polls', q.isLinked = true ∧ q.key = link ∧
      ∃ x, s'.outcomes.find? link = some x ∧ x.status ≠ .approved := by
  have hknown : (s.outcomes.contains link = true ∨ s.undecided.contains link = true) ↔
      (s'.outcomes.contains link = true ∨ s'.undecided.contains link = true) := by
    rw [hs.keys, hs'.keys, hdue.exists_key_iff, hdue'.exists_key_iff]
  cases hx : s'.outcomes.find? link with
  | some x =>
    rw [tells_of_outcome hx] at htells
    have hcontains := Table.contains_iff.2 ⟨x, hx⟩
    obtain ⟨q, hq, rfl⟩ := (hs'.keys link).1 (.inl hcontains)
    cases hlinked : q.isLinked with
    | true =>
      refine ⟨q, hq, hlinked, rfl, x, rfl, fun happroved => ?_⟩
      rw [happroved] at htells
      cases htells
    | false =>
      -- A poll with votes of its own is decided alike before any visit.
      obtain ⟨hfind, hheight⟩ := hdue'.stored hq
      have hmem := (hdue.complete hfind hheight).1
      rcases hknown.2 (.inl hcontains) with hdecided | hundecided
      · obtain ⟨y, hy⟩ := Table.contains_iff.1 hdecided
        have hwarrants := hs.warrants q hmem y hy
        have hwarrants' := hs'.warrants q hq x hx
        have hquorate := hwarrants.votes hlinked
        rw [hwarrants.gathers.unique hwarrants'.gathers] at hquorate
        rw [tells_of_outcome hy, hquorate.unique (hwarrants'.votes hlinked)] at hdiffer
        exact absurd htells hdiffer
      · rw [hs.linked q hmem hundecided] at hlinked
        cases hlinked
  | none =>
    cases hundecided : s'.undecided.contains link with
    | true =>
      rw [tells_of_undecided hx hundecided] at htells
      cases htells
    | false =>
      -- The status that is stored is the same for both.
      have hunknown : ¬ (s.outcomes.contains link = true ∨ s.undecided.contains link = true) := by
        rw [hknown, Table.contains_eq_false_iff.2 hx, hundecided]
        simp
      obtain ⟨hnone, hdecided⟩ := not_or.1 hunknown
      rw [tells, Table.contains_eq_false_iff.1 (Bool.eq_false_iff.2 hnone)] at hdiffer
      rw [tells, hx] at htells
      simp only [hundecided, Bool.false_eq_true, if_false] at htells
      simp only [hdecided] at hdiffer
      exact absurd htells hdiffer

end Progress

/-- Outcomes that are right show no fault in the votes. -/
theorem Outcomes.Sound.not_votesFault {o : Outcomes} (h : o.Sound polls store)
    {fault : ConsistencyError} : ¬ store.VotesFault polls fault := by
  intro hfault
  cases hfault with
  | @overflow p hp hweighted hsum =>
    obtain ⟨x, hx⟩ := Table.contains_iff.1 ((h.keys p.key).2 ⟨p, hp, rfl⟩)
    have hfits := (h.warrants p hp x hx).gathers.fits hweighted
    rw [MemoryStore.gathered, if_pos hweighted] at hfits
    rw [sumWeights?_eq_some_iff.2 ⟨hfits, rfl⟩] at hsum
    cases hsum
  | @malformed p hp hlinked hquorum =>
    obtain ⟨x, hx⟩ := Table.contains_iff.1 ((h.keys p.key).2 ⟨p, hp, rfl⟩)
    obtain ⟨quorum, hquorum', -⟩ := (h.warrants p hp x hx).votes hlinked
    rw [hquorum] at hquorum'
    cases hquorum'

theorem MemoryStore.VotesFault.mono {fault : ConsistencyError} (h : store.VotesFault polls fault)
    (hsub : ∀ p ∈ polls, p ∈ polls') : store.VotesFault polls' fault := by
  cases h with
  | overflow hp hweighted hsum => exact .overflow (hsub _ hp) hweighted hsum
  | malformed hp hlinked hquorum => exact .malformed (hsub _ hp) hlinked hquorum

/-! ## The result -/

section

variable [PollStore S] [VoteStore S] [FaithfulStore S]

/-- **Decisions are independent of the order of visits**, unless a faulty link is hidden.  For every
content of a store that does not fail, every height and any two orders of the polls due at it:

* if the polls can be decided in both orders, they get the same outcomes and tallies;
* if they can be decided in one order and not in the other, a poll that is decided by links has a
  link that leads to no poll, or to one that should have been decided earlier, and before it a link
  to a poll that is decided by links at the same height, and is rejected.  That link is what the
  error says is missing or stale. -/
theorem decisions_independent_of_order (hsafe : ¬ FaithfulStore.fallible S) {w : World S L}
    (hkeyed : w.view.store.Keyed)
    (hpolls : polls.Perm (w.view.store.pollsWhere (·.finishHeight = height)))
    (hpolls' : polls'.Perm (w.view.store.pollsWhere (·.finishHeight = height))) :
    let store := w.view.store
    (∀ o o', ((decidePolls polls height).start w).1 = .ok o →
      ((decidePolls polls' height).start w).1 = .ok o' → o = o') ∧
    ∀ o e, ((decidePolls polls height).start w).1 = .ok o →
      ((decidePolls polls' height).start w).1 = .error e →
      ∃ p ∈ polls, p.model = .transactionApproval ∧
        ∃ before link after fault, p.links = before ++ link :: after ∧
          e = .consistency fault ∧ store.linkFault height p.key link = some fault ∧
          ∃ q ∈ polls, q.model = .transactionApproval ∧ q.key ∈ before ∧
            ∃ x, o.find? q.key = some x ∧ x.status = .rejected := by
  intro store
  have hdue : store.Due height polls := hkeyed.due hpolls
  have hdue' : store.Due height polls' := hkeyed.due hpolls'
  refine ⟨fun o o' hok hok' => ?_, fun o e hok herror => ?_⟩
  · have hstart : (decidePolls polls height).start w = (.ok o, _) := Prod.ext hok rfl
    have hstart' : (decidePolls polls' height).start w = (.ok o', _) := Prod.ext hok' rfl
    obtain ⟨-, hsound, hleast⟩ := (decidePolls_isLeast hdue).of_ok hstart
    obtain ⟨-, hsound', hleast'⟩ := (decidePolls_isLeast hdue').of_ok hstart'
    exact hsound.eq_of_isLeast hsound' hdue hdue' hleast hleast'
  · have hstart : (decidePolls polls height).start w = (.ok o, _) := Prod.ext hok rfl
    have hstart' : (decidePolls polls' height).start w = (.error e, _) := Prod.ext herror rfl
    obtain ⟨-, hsound, -⟩ := (decidePolls_isLeast hdue).of_ok hstart
    obtain ⟨-, s, hreached, hwaits, -, hsame⟩ := (decidePolls_reaches hdue.unique height).of_ok
      hstart
    obtain ⟨-, hcause⟩ := (decidePolls_reaches hdue'.unique height).of_error hstart'
    cases hcause with
    | store e hf => exact absurd hf hsafe
    | @fault fault hfault =>
      rcases hfault with hvotes | ⟨s', hreached', p, hp, -, hbreaks⟩
      · have hsub : ∀ p ∈ polls', p ∈ polls := fun p hp =>
          hpolls.mem_iff.2 (hpolls'.mem_iff.1 hp)
        exact absurd (hvotes.mono hsub) hsound.not_votesFault
      · obtain ⟨hp', hlinked⟩ := List.mem_filter.1 hp
        have hp : p ∈ polls := hpolls.mem_iff.2 (hpolls'.mem_iff.1 hp')
        have hs := hreached.sound hdue.unique
        have hs' := hreached'.sound hdue'.unique
        obtain ⟨before, link, after, hlinks, hfaulty, other, hother, htells, hdiffer⟩ :=
          hbreaks.exists_hidden hs' hdue' hs hdue (hreached.readable hdue hwaits hp hlinked)
        obtain ⟨q, hq, hlinkedq, rfl, x, hx, hnot⟩ :=
          hs'.exists_linked_of_tells hdue' hs hdue htells hdiffer
        have hdecided : s.undecided.contains q.key = false := by
          refine Bool.eq_false_iff.2 fun hundecided => ?_
          rw [hs.apart q.key hundecided] at hx
          cases hx
        rw [← hsame q.key hdecided] at hx
        have hresolved := (hsound.warrants q hq x hx).resolved
        refine ⟨p, hp, of_decide_eq_true hlinked, before, link, after, fault, hlinks, rfl, hfaulty,
          q, hq, of_decide_eq_true hlinkedq, hother, x, hx, ?_⟩
        cases hstatus : x.status with
        | pending =>
          rw [hstatus] at hresolved
          cases hresolved
        | approved => exact absurd hstatus hnot
        | rejected => rfl

end

/-- At height ten a poll links to another one and to nothing, and that other one to a poll that was
rejected. -/
def MemoryStore.dangling : MemoryStore :=
  holding
    [(PollRequest.linking (.filled 1) [.filled 2, .filled 9] 10).toPoll 1,
      (PollRequest.linking (.filled 2) [.filled 3] 10).toPoll 1,
      ((PollRequest.single (.filled 3) 5).toPoll 1).resolve ⟨.filled 3, .rejected, 0⟩]
    []

/-- Descending order hides what ascending order comes upon. -/
theorem decisions_independent_of_order_dangling :
    let w : World MemoryStore SimulatedLedger := ⟨.dangling, .empty⟩
    let due := MemoryStore.dangling.pollsWhere (·.finishHeight = 10)
    MemoryStore.dangling.Keyed ∧ ∃ o, ((decidePolls due.reverse 10).start w).1 = .ok o ∧
      ∃ e, ((decidePolls due 10).start w).1 = .error e ∧
      ∃ p ∈ due.reverse, p.model = .transactionApproval ∧
        ∃ before link after fault, p.links = before ++ link :: after ∧
          e = .consistency fault ∧
          MemoryStore.dangling.linkFault 10 p.key link = some fault ∧
          ∃ q ∈ due.reverse, q.model = .transactionApproval ∧ q.key ∈ before ∧
            ∃ x, o.find? q.key = some x ∧ x.status = .rejected := by
  intro w due
  have hkeyed : MemoryStore.dangling.Keyed := MemoryStore.keyed_holding _ _
  have hdescending : ((decidePolls due.reverse 10).start w).1.toBool = true := by decide +kernel
  have hascending : ((decidePolls due 10).start w).1.toBool = false := by decide +kernel
  rcases hok : ((decidePolls due.reverse 10).start w).1 with e | o
  · rw [hok] at hdescending
    cases hdescending
  · rcases herror : ((decidePolls due 10).start w).1 with e | o'
    · exact ⟨hkeyed, o, rfl, e, rfl, (decisions_independent_of_order (S := MemoryStore)
        (fun h => h) (w := w) hkeyed (List.reverse_perm due) (.refl due)).2 o e hok herror⟩
    · rw [herror] at hascending
      cases hascending

/-- **The order of visits decides over success**: the polls of one height in two orders, of which one
comes upon a link that leads nowhere, and the other rejects both polls. -/
theorem visiting_order_decides_failure :
    let w : World MemoryStore SimulatedLedger := ⟨.dangling, .empty⟩
    let due := MemoryStore.dangling.pollsWhere (·.finishHeight = 10)
    MemoryStore.dangling.Keyed ∧ due.reverse.Perm due ∧
    ((decidePolls due 10).start w).1 =
      .error (.consistency (.missingLinkedPoll (.filled 1) (.filled 9))) ∧
    ((decidePolls due.reverse 10).start w).1.map Table.entries =
      .ok [(.filled 1, ⟨.rejected, 0⟩), (.filled 2, ⟨.rejected, 0⟩)] := by
  refine ⟨MemoryStore.keyed_holding _ _, List.reverse_perm _, by decide +kernel, by decide +kernel⟩

end Finality
