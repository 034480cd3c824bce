import Finality.Proofs.Chain.Status

/-!
# Votes stay with their polls

Polls and votes are taken back by two mechanisms, one going by the height at which a poll was
created and the other by the height at which a vote was cast.  As long as blocks are taken back only
between blocks, the two never part company: every stored vote belongs to a stored poll.

* `Session.midBlock` — whether the block above the chain has contents already but is not applied;
  `Session.PopsBetweenBlocks` — no block is taken back then.
* `Session.VotesKept` — the invariant: no poll or vote is younger than the block that is being
  assembled, and every vote fits the poll that it was cast on (`Vote.Fits`).
* `Session.VotesKept.step` — every step keeps it.
* `votes_belong_to_their_polls` — the result for all runs; `vote_unchanged` — a vote is not changed
  as long as it is stored.
-/

namespace Finality

variable {S L : Type}

/-! ## Votes and polls -/

/-- The vote is one that the poll admits. -/
structure Vote.Fits (x : Vote) (p : Poll) : Prop where
  /-- It was not cast before the poll was created. -/
  created : p.createdHeight ≤ x.height
  /-- It was cast before the poll finishes. -/
  finish : x.height < p.finishHeight
  /-- Its voter is admitted. -/
  whitelist : p.whitelist = [] ∨ x.voter ∈ p.whitelist
  /-- It counts what the poll's model allows. -/
  weight : p.model.Allows x.weight

/-- Whether a vote fits depends on the terms of the poll alone. -/
theorem Vote.Fits.of_terms {x : Vote} {p q : Poll} (h : x.Fits q) (hterms : p.terms = q.terms) :
    x.Fits p := by
  have hq : x.Fits q.terms := ⟨h.created, h.finish, h.whitelist, h.weight⟩
  rw [← hterms] at hq
  exact ⟨hq.created, hq.finish, hq.whitelist, hq.weight⟩

/-- A vote stored after a call was there before, or is new and has just been admitted. -/
theorem Call.Effect.find?_votes [Ledger L] {params : Params} {height : Height} {c : Call}
    {r : Except EngineError Reply} {v v' : World MemoryStore L}
    (h : c.Effect params height v r v') {id : VoteKey} {x : Vote}
    (hx : v'.store.votes.find? id = some x) :
    v.store.votes.find? id = some x ∨
      (v.store.votes.find? id = none ∧ x.id = id ∧ x.height = height + 1 ∧ x.Admitted v.store) := by
  cases h with
  | registered hpasses hledger => exact .inl hx
  | accepted hheight hadmitted hledger =>
    rw [Table.find?_insert] at hx
    split at hx
    · rename_i hid
      cases hx
      exact .inr ⟨by rw [hid]; exact hadmitted.new, hid.symm, hheight, hadmitted⟩
    · exact .inl hx
  | rejected hledger => exact .inl hx
  | applied hdecide hledger => exact .inl hx
  | popped hledger => exact .inl (MemoryStore.find?_votes_takeBack.1 hx).1
  | failed hcause hledger => exact .inl hx

/-! ## Logs -/

namespace Exchange

/-- Whether the exchange has put something into the block that is being assembled. -/
def opens : Exchange → Bool
  | ⟨_, .ok (.registered _)⟩ | ⟨_, .ok (.voted (.accepted _))⟩ => true
  | _ => false

/-- Whether the exchange has applied a block. -/
def closes : Exchange → Bool
  | ⟨.applyBlock _, .ok _⟩ => true
  | _ => false

end Exchange

namespace Session

/-- Whether something was put into a block that has not been applied since. -/
def midBlock : List Exchange → Bool
  | [] => false
  | x :: rest => !x.closes && (x.opens || midBlock rest)

/-- The request with which a transaction was last registered. -/
def requestOf (key : Hash) : List Exchange → Option PollRequest
  | [] => none
  | ⟨.register r, .ok _⟩ :: rest => if r.transaction = key then some r else requestOf key rest
  | _ :: rest => requestOf key rest

theorem midBlock_error (c : Call) (e : NodeError) (log : List Exchange) :
    midBlock (⟨c, .error e⟩ :: log) = midBlock log := by
  cases c <;> simp [midBlock, Exchange.closes, Exchange.opens]

theorem requestOf_error (key : Hash) (c : Call) (e : NodeError) (log : List Exchange) :
    requestOf key (⟨c, .error e⟩ :: log) = requestOf key log := by
  cases c <;> rfl

/-- Blocks are taken back only between blocks. -/
def PopsBetweenBlocks (s : Session (World S L)) : Step L → Prop
  | .call (.popBlock _) => midBlock s.log = false
  | _ => True

instance decidablePopsBetweenBlocks (s : Session (World S L)) :
    (st : Step L) → Decidable (s.PopsBetweenBlocks st)
  | .call (.popBlock _) => inferInstanceAs (Decidable (midBlock s.log = false))
  | .call (.register _) | .call (.castVote ..) | .call (.applyBlock _) | .ledger _ =>
    .isTrue trivial

/-- A block is taken back only when no other is being applied. -/
theorem PopsBetweenBlocks.midBlock {s : Session (World S L)} {c : Call}
    (h : s.PopsBetweenBlocks (.call c)) (height : Height) (hc : c = .popBlock height) :
    midBlock s.log = false := by
  subst hc
  exact h

/-- The height of the youngest block that may have contents. -/
def youngest (log : List Exchange) (height : Height) : Nat :=
  height.toNat + if midBlock log then 1 else 0

theorem youngest_le (log : List Exchange) (height : Height) :
    youngest log height ≤ height.toNat + 1 := by
  unfold youngest
  split <;> omega

/-! ## The invariant -/

/-- No poll or vote is younger than the youngest block; polls have the terms of the request that
registered them; and votes fit the polls that they were cast on. -/
structure VotesKept (log : List Exchange) (height : Height) (s : MemoryStore) : Prop where
  /-- Polls are on time. -/
  onTime : s.OnTime height
  /-- Nothing is younger than the youngest block. -/
  upTo : s.UpTo (youngest log height)
  /-- Polls are those that were registered. -/
  request : ∀ key p, s.polls.find? key = some p →
    ∃ r, requestOf key log = some r ∧ p.terms = r.toPoll p.createdHeight
  /-- Votes fit their polls. -/
  fits : ∀ id x, s.votes.find? id = some x → ∃ p, s.polls.find? x.poll = some p ∧ x.Fits p

namespace VotesKept

theorem empty (height : Height) : VotesKept [] height .empty where
  onTime := MemoryStore.onTime_empty height
  upTo := .empty _
  request _ _ h := by cases h
  fits _ _ h := by cases h

/-- A transaction without a poll has no votes. -/
theorem votesOn_eq_nil {log : List Exchange} {height : Height} {s : MemoryStore}
    (hs : VotesKept log height s) {key : Hash} (hkey : s.polls.find? key = none) :
    s.votesOn key = [] := by
  rw [MemoryStore.votesOn, List.map_eq_nil_iff, List.filter_eq_nil_iff]
  rintro ⟨id, x⟩ he hpoll
  have hx := (s.votes.mem_entries_iff id x).1 he
  obtain ⟨p, hp, -⟩ := hs.fits id x hx
  have hid : x.poll = id.poll := congrArg VoteKey.poll (hs.onTime.keyed.votes hx)
  rw [hid, of_decide_eq_true hpoll, hkey] at hp
  cases hp

/-- A vote that has just been admitted fits its poll. -/
theorem fits_of_admitted {log : List Exchange} {height : Height} {s : MemoryStore}
    (hs : VotesKept log height s) {x : Vote} (hheight : x.height = height + 1)
    (hx : x.Admitted s) : ∃ p, s.polls.find? x.poll = some p ∧ x.Fits p := by
  obtain ⟨p, hp, hrefusal, hallows⟩ := hx.poll
  obtain ⟨hpending, hlate, hadmits⟩ := Poll.refusal_eq_none_iff.1 hrefusal
  refine ⟨p, hp, ?_, hlate, Poll.mem_whitelist_of_admits hadmits, hallows⟩
  rw [hheight, UInt64.le_iff_toNat_le]
  by_cases hnext : height + 1 = 0
  · -- Beyond the greatest height only a poll created there is undecided.
    by_cases hcreated : p.createdHeight = 0
    · rw [hcreated]
      exact Nat.zero_le _
    · have habove := ((hs.onTime.polls hp).status hcreated).1 hpending
      exact absurd habove (Height.not_lt_of_add_one_eq_zero hnext)
  · rw [Height.toNat_add_one hnext]
    exact Nat.le_trans (hs.upTo.polls hp) (youngest_le log height)

/-- With a new poll. -/
theorem registered {log : List Exchange} {height : Height} {s : MemoryStore}
    (hs : VotesKept log height s) {params : Params} {r : PollRequest} {p : Poll}
    (hpasses : r.Passes params (height + 1) s)
    (honTime : MemoryStore.OnTime height
      { s with polls := s.polls.insert r.transaction (r.toPoll (height + 1)) }) :
    VotesKept (⟨.register r, .ok (.registered p)⟩ :: log) height
      { s with polls := s.polls.insert r.transaction (r.toPoll (height + 1)) } := by
  have hnew : (r.toPoll (height + 1)).createdHeight.toNat ≤ height.toNat + 1 :=
    Height.toNat_add_one_le height
  refine ⟨honTime, (hs.upTo.mono (youngest_le log height)).insertPoll _ hnew, ?_, ?_⟩
  · intro key q hq
    rw [Table.find?_insert] at hq
    split at hq
    · rename_i hkey
      cases hq
      exact ⟨r, by rw [requestOf, if_pos hkey.symm], rfl⟩
    · rename_i hkey
      rw [requestOf, if_neg fun h => hkey h.symm]
      exact hs.request key q hq
  · intro id x hx
    obtain ⟨q, hq, hfits⟩ := hs.fits id x hx
    refine ⟨q, ?_, hfits⟩
    rw [Table.find?_insert, if_neg]
    · exact hq
    · intro hkey
      rw [hkey, hpasses.new] at hq
      cases hq

/-- With a new vote. -/
theorem accepted {log : List Exchange} {height : Height} {s : MemoryStore}
    (hs : VotesKept log height s) {y : Vote} {weight : Amount} (hheight : y.height = height + 1)
    (hadmitted : y.Admitted s) :
    VotesKept (⟨.castVote y.poll y.voter, .ok (.voted (.accepted weight))⟩ :: log) height
      { s with votes := s.votes.insert y.id y } := by
  have hnew : y.height.toNat ≤ height.toNat + 1 := by
    rw [hheight]
    exact Height.toNat_add_one_le height
  refine ⟨⟨hs.onTime.keyed.insertVote y, hs.onTime.polls⟩,
    (hs.upTo.mono (youngest_le log height)).insertVote _ hnew, hs.request, ?_⟩
  intro id x hx
  rw [Table.find?_insert] at hx
  split at hx
  · cases hx
    exact hs.fits_of_admitted hheight hadmitted
  · exact hs.fits id x hx

/-- With the next block applied. -/
theorem applied {log : List Exchange} {height : Height} {s : MemoryStore}
    (hs : VotesKept log height s) (hne : height + 1 ≠ 0) {outcomes : Outcomes}
    (honTime : (s.settle outcomes).OnTime (height + 1)) {es : List PollEvent} :
    VotesKept (⟨.applyBlock (height + 1), .ok (.events es)⟩ :: log) (height + 1)
      (s.settle outcomes) := by
  have hyoungest : youngest log height ≤ (height + 1).toNat := by
    rw [Height.toNat_add_one hne]
    exact youngest_le log height
  refine ⟨honTime, (hs.upTo.mono hyoungest).settle outcomes, ?_, ?_⟩
  · intro key p hp
    obtain ⟨q, hq, hterms⟩ := MemoryStore.terms_of_settle hp
    rw [Poll.createdHeight_of_terms hterms, hterms]
    exact hs.request key q hq
  · intro id x hx
    obtain ⟨q, hq, hfits⟩ := hs.fits id x hx
    obtain ⟨p, hp, hterms⟩ := MemoryStore.exists_settle outcomes hq
    exact ⟨p, hp, hfits.of_terms hterms⟩

/-- With the last block taken back, between blocks. -/
theorem popped {log : List Exchange} {height : Height} {s : MemoryStore}
    (hs : VotesKept log height s) (hbetween : midBlock log = false) (hne : height ≠ 0)
    (honTime : (s.takeBack height).OnTime (height - 1)) {es : List PollEvent} :
    VotesKept (⟨.popBlock height, .ok (.events es)⟩ :: log) (height - 1) (s.takeBack height) := by
  have hupTo : s.UpTo height.toNat := by simpa [youngest, hbetween] using hs.upTo
  refine ⟨honTime, (hupTo.takeBack hne).mono (Nat.le_add_right _ _), ?_, ?_⟩
  · intro key p hp
    obtain ⟨q, hq, -, rfl⟩ := MemoryStore.find?_polls_takeBack.1 hp
    have hterms := q.terms_undecide height
    rw [Poll.createdHeight_of_terms hterms, hterms]
    exact hs.request key q hq
  · intro id x hx
    obtain ⟨hx', hother⟩ := MemoryStore.find?_votes_takeBack.1 hx
    obtain ⟨q, hq, hfits⟩ := hs.fits id x hx'
    refine ⟨q.undecide height, ?_, hfits.of_terms (q.terms_undecide _)⟩
    refine MemoryStore.find?_polls_takeBack.2 ⟨q, hq, ?_, rfl⟩
    -- The poll of an older vote is as old as the vote or older.
    intro hcreated
    have hcast := hupTo.votes hx'
    have hle := UInt64.le_iff_toNat_le.1 hfits.created
    rw [hcreated] at hle
    exact hother (UInt64.toNat_inj.1 (Nat.le_antisymm hcast hle))

/-- After a call that has failed. -/
theorem error {log : List Exchange} {height : Height} {s : MemoryStore}
    (hs : VotesKept log height s) (c : Call) (e : NodeError) :
    VotesKept (⟨c, .error e⟩ :: log) height s := by
  have hyoungest : youngest (⟨c, .error e⟩ :: log) height = youngest log height := by
    rw [youngest, youngest, midBlock_error]
  refine ⟨hs.onTime, ?_, ?_, hs.fits⟩
  · rw [hyoungest]
    exact hs.upTo
  · simp only [requestOf_error]
    exact hs.request

/-- What a call that succeeds makes of the invariant. -/
theorem done [Ledger L] {log : List Exchange} {f : Follower (World S L)} {c : Call}
    {reply : Reply} {v v' : World MemoryStore L} (hrefusal : c.refusal f = none)
    (hallowed : ∀ h, c = .popBlock h → midBlock log = false)
    (hs : VotesKept log f.height v.store)
    (h : c.Effect f.params f.height v (.ok reply) v') :
    VotesKept (⟨c, .ok reply⟩ :: log) (c.heightAfter f.height) v'.store := by
  have honTime := hs.onTime.effect hrefusal h
  cases h with
  | registered hpasses hledger => exact hs.registered hpasses honTime
  | accepted hheight hadmitted hledger => exact hs.accepted hheight hadmitted
  | rejected hledger => exact ⟨honTime, hs.upTo, hs.request, hs.fits⟩
  | applied hdecide hledger =>
    obtain ⟨rfl, hne⟩ := Call.eq_of_refusal_applyBlock hrefusal
    exact hs.applied hne honTime
  | popped hledger =>
    obtain ⟨rfl, hne⟩ := Call.eq_of_refusal_popBlock hrefusal
    exact hs.popped (hallowed f.height rfl) hne honTime

/-- **Every step keeps the invariant**, if no block is taken back amid another. -/
theorem step [PollStore S] [VoteStore S] [FaithfulStore S] [Ledger L]
    (hsafe : ¬ FaithfulStore.fallible S) {s : Session (World S L)}
    (hs : VotesKept s.log s.follower.height s.follower.world.view.store) {st : Step L}
    (hallowed : s.PopsBetweenBlocks st) :
    VotesKept (s.step st).log (s.step st).follower.height
      (s.step st).follower.world.view.store := by
  refine step_keeps hsafe hs.onTime.keyed hs st (fun c e _ _ => hs.error c e) ?_
  rintro c reply v' rfl hrefusal h
  exact hs.done hrefusal hallowed.midBlock h

end VotesKept

/-! ## Votes over time -/

section

variable [PollStore S] [VoteStore S] [FaithfulStore S] [Ledger L]

/-- A step leaves a vote as it is, or it is not stored any more. -/
theorem vote_step (hsafe : ¬ FaithfulStore.fallible S) {s : Session (World S L)}
    (hs : s.follower.world.view.store.Keyed) (st : Step L) {id : VoteKey} {x x' : Vote}
    (hx : s.follower.world.view.store.votes.find? id = some x)
    (hx' : (s.step st).follower.world.view.store.votes.find? id = some x') : x' = x := by
  have heffect : ∀ {c : Call} {r : Except EngineError Reply} {v' : World MemoryStore L},
      c.Effect s.follower.params s.follower.height s.follower.world.view r v' →
      v'.store.votes.find? id = some x' → x' = x := by
    intro c r v' h hv'
    rcases h.find?_votes hv' with hold | ⟨hnew, -⟩
    · rw [hx] at hold
      cases hold
      rfl
    · rw [hx] at hnew
      cases hnew
  cases st with
  | ledger change =>
    cases hx.symm.trans hx'
    rfl
  | call c =>
    have hends := c.ends hs hsafe
    change (c.action.start s.follower).2.world.view.store.votes.find? id = some x' at hx'
    rcases hcall : c.action.start s.follower with ⟨r, f'⟩
    rw [hcall] at hends hx'
    cases hends with
    | refused hrefusal =>
      cases hx.symm.trans hx'
      rfl
    | done hrefusal h hparams hheight hhalt => exact heffect h hx'
    | failed hrefusal h hparams hheight hhalt => exact heffect h hx'

/-- **A vote is not changed** by a run throughout which it is stored. -/
theorem vote_unchanged (hsafe : ¬ FaithfulStore.fallible S) {s : Session (World S L)}
    (hs : VotesKept s.log s.follower.height s.follower.world.view.store) {steps : List (Step L)}
    (hsteps : Permits PopsBetweenBlocks s steps) {id : VoteKey} {x : Vote}
    (hx : s.follower.world.view.store.votes.find? id = some x)
    (hstored : ∀ k ≤ steps.length,
      (s.run (steps.take k)).follower.world.view.store.votes.contains id = true) :
    (s.run steps).follower.world.view.store.votes.find? id = some x := by
  induction steps generalizing s with
  | nil => exact hx
  | cons st steps ih =>
    obtain ⟨x', hx'⟩ := Table.contains_iff.1 (hstored 1 (Nat.succ_le_succ (Nat.zero_le _)))
    have hsame : x' = x := vote_step hsafe hs.onTime.keyed st hx hx'
    rw [hsame] at hx'
    exact ih (hs.step hsafe hsteps.1) hsteps.2 hx' fun k hk =>
      hstored (k + 1) (Nat.succ_le_succ hk)

/-- A poll that has just been registered has no votes. -/
theorem votesOn_register (hsafe : ¬ FaithfulStore.fallible S) {s : Session (World S L)}
    (hs : VotesKept s.log s.follower.height s.follower.world.view.store) {r : PollRequest}
    {reply : Reply} (hreply : ((Call.register r).action.start s.follower).1 = .ok reply) :
    (s.call (.register r)).follower.world.view.store.votesOn r.transaction = [] := by
  have hends := (Call.register r).ends hs.onTime.keyed hsafe
  change ((Call.register r).action.start s.follower).2.world.view.store.votesOn r.transaction = []
  rcases hcall : (Call.register r).action.start s.follower with ⟨answer, f'⟩
  rw [hcall] at hends hreply
  cases hreply
  cases hends with
  | done hrefusal heffect hparams hheight hhalt =>
    obtain ⟨hnew, hvotes⟩ := heffect.register_ok
    have hnone := hs.votesOn_eq_nil hnew
    rwa [MemoryStore.votesOn, ← hvotes] at hnone

end

end Session

/-- **Votes never outlive or predate their poll.**  In every run that starts from an empty store,
over a store that does not fail, in which blocks are taken back only between blocks:

* every stored vote belongs to a stored poll, which was registered by the last request for its
  transaction; it was cast after the poll was created and below its finish height, in the block
  that is being assembled at the latest, by a voter whom the request admits, and counts at least
  one, and exactly one where balances are not weighed;
* no voter has two votes on one poll;
* a vote is not changed as long as it is stored, however the run goes on;
* a transaction that is registered starts without votes. -/
theorem votes_belong_to_their_polls [Ledger L] (f : Follower (World MemoryStore L))
    (hempty : f.world.store = .empty) (steps more : List (Step L))
    (hsteps : Session.Permits Session.PopsBetweenBlocks (.start f) (steps ++ more)) :
    let s := (Session.start f).run steps
    let store := s.follower.world.store
    (∀ x ∈ store.votes.values, ∃ p r, store.polls.find? x.poll = some p ∧
      Session.requestOf x.poll s.log = some r ∧ p.terms = r.toPoll p.createdHeight ∧
      p.createdHeight ≤ x.height ∧ x.height < p.finishHeight ∧
      x.height.toNat ≤ s.follower.height.toNat + 1 ∧
      (r.whitelist = [] ∨ x.voter ∈ r.whitelist) ∧
      1 ≤ x.weight ∧ (p.model.isWeighted = false → x.weight = 1)) ∧
    (store.votes.values.map Vote.id).Nodup ∧
    (∀ id x, store.votes.find? id = some x →
      (∀ k ≤ more.length,
        (s.run (more.take k)).follower.world.store.votes.contains id = true) →
      (s.run more).follower.world.store.votes.find? id = some x) ∧
    ∀ r reply, ((Call.register r).action.start s.follower).1 = .ok reply →
      (s.call (.register r)).follower.world.store.votesOn r.transaction = [] := by
  intro s store
  obtain ⟨hbefore, hmore⟩ := Session.permits_append.1 hsteps
  have hsafe : ¬ FaithfulStore.fallible MemoryStore := fun h => h
  have hkept : Session.VotesKept s.log s.follower.height s.follower.world.view.store := by
    refine Session.run_induction
      (P := fun s => Session.VotesKept s.log s.follower.height s.follower.world.view.store)
      (fun s st hs hst => hs.step hsafe hst) ?_ hbefore
    have hview : (Session.start f).follower.world.view.store = .empty := hempty
    rw [hview]
    exact .empty _
  refine ⟨fun x hx => ?_, hkept.onTime.keyed.nodup_map_votes, ?_, ?_⟩
  · obtain ⟨id, hid⟩ := Table.mem_values_iff.1 hx
    obtain ⟨p, hp, hfits⟩ := hkept.fits id x hid
    obtain ⟨r, hr, hterms⟩ := hkept.request x.poll p hp
    have hcast := Nat.le_trans (hkept.upTo.votes hid) (Session.youngest_le _ _)
    have hperm := sortBy_perm compare r.whitelist
    have hlist : p.whitelist = sortBy compare r.whitelist := by
      have hwhitelist := congrArg Poll.whitelist hterms
      exact hwhitelist
    refine ⟨p, r, hp, hr, hterms, hfits.created, hfits.finish, hcast, ?_, ?_, hfits.weight.2⟩
    · refine hfits.whitelist.imp (fun hnil => ?_) fun hmem => ?_
      · rw [hlist] at hnil
        rw [hnil] at hperm
        exact hperm.nil_eq.symm
      · rw [hlist] at hmem
        exact hperm.mem_iff.1 hmem
    · have hne : x.weight.toNat ≠ 0 := fun h0 => hfits.weight.1 (UInt64.toNat_inj.1 h0)
      exact UInt64.le_iff_toNat_le.2 (Nat.one_le_iff_ne_zero.2 hne)
  · intro id x hx hstored
    exact Session.vote_unchanged hsafe hkept hmore hx hstored
  · intro r reply hreply
    exact Session.votesOn_register hsafe hkept hreply

/-- A vote is cast a block after its poll was registered; both blocks are taken back. -/
theorem votes_belong_to_their_polls_popped :
    let f : Follower (World MemoryStore SimulatedLedger) :=
      .start ⟨.empty, .releasing .zero⟩ .standard 0
    let steps : List (Step SimulatedLedger) := [.call (.register (.single .zero 4)),
      .call (.applyBlock 1), .call (.castVote .zero ⟨7⟩), .call (.applyBlock 2)]
    let more : List (Step SimulatedLedger) := [.call (.popBlock 2), .call (.popBlock 1)]
    let s := (Session.start f).run steps
    f.world.store = .empty ∧
    Session.Permits Session.PopsBetweenBlocks (.start f) (steps ++ more) ∧
    s.follower.world.store.votes.values = [⟨.zero, ⟨7⟩, 1, 2⟩] ∧
    (∀ x ∈ s.follower.world.store.votes.values, ∃ p,
      s.follower.world.store.polls.find? x.poll = some p ∧
      p.createdHeight ≤ x.height ∧ x.height < p.finishHeight) ∧
    (s.run more).follower.world.store = .empty := by
  refine ⟨rfl, by decide +kernel, by decide +kernel, fun x hx => ?_, by decide +kernel⟩
  obtain ⟨p, r, hp, -, -, hcreated, hfinish, -⟩ := (votes_belong_to_their_polls _ rfl _
    [.call (.popBlock 2), .call (.popBlock 1)] (by decide +kernel)).1 x hx
  exact ⟨p, hp, hcreated, hfinish⟩

end Finality
