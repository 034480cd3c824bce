import Finality.Proofs.Action
import Finality.Proofs.Store.Memory
import Finality.Store.Faulty

/-!
# Stores that are what a store in memory is

A store is *faithful* if it has contents like those of a store in memory, and each of its calls
does to them, and answers, what the same call does in memory — or fails and leaves them alone.
Whether its calls may fail beyond what the store in memory does is part of what is known about the
store (`fallible`).

* The store in memory is faithful to itself and does not fail.
* `Faulty φ S` is faithful if `S` is, whatever the source of faults decides: a call that is made to
  fail does not reach the store.
-/

namespace Finality

variable {S φ α : Type}

/-- The call `x` does what `y` does in memory, or fails where it may and leaves the contents
alone. -/
def Mirrors (contents : S → MemoryStore) (fallible : Prop) (x : Action S StoreError α)
    (y : Action MemoryStore StoreError α) : Prop :=
  ∀ s, ((x.start s).1, contents (x.start s).2) = y.start (contents s) ∨
    (fallible ∧ ∃ e, (x.start s).1 = .error e ∧ contents (x.start s).2 = contents s)

/-- A store whose calls do what those of a store in memory do, unless they fail. -/
class FaithfulStore (S : Type) [PollStore S] [VoteStore S] where
  /-- What the store holds. -/
  contents : S → MemoryStore
  /-- Whether a call may fail where one in memory does not. -/
  fallible : Prop
  insertPoll (p : Poll) :
    Mirrors contents fallible (PollStore.insertPoll p) (PollStore.insertPoll p)
  findPoll (key : Hash) :
    Mirrors contents fallible (PollStore.findPoll key) (PollStore.findPoll key)
  deletePoll (key : Hash) :
    Mirrors contents fallible (PollStore.deletePoll key) (PollStore.deletePoll key)
  pollsFinishingAt (height : Height) :
    Mirrors contents fallible (PollStore.pollsFinishingAt height)
      (PollStore.pollsFinishingAt height)
  pollsOf (account : AccountId) :
    Mirrors contents fallible (PollStore.pollsOf account) (PollStore.pollsOf account)
  pollsCreatedAt (height : Height) :
    Mirrors contents fallible (PollStore.pollsCreatedAt height) (PollStore.pollsCreatedAt height)
  applyResolutions (rs : List Resolution) :
    Mirrors contents fallible (PollStore.applyResolutions rs) (PollStore.applyResolutions rs)
  countPolls : Mirrors contents fallible PollStore.countPolls PollStore.countPolls
  insertVote (v : Vote) :
    Mirrors contents fallible (VoteStore.insertVote v) (VoteStore.insertVote v)
  findVote (poll : Hash) (voter : AccountId) :
    Mirrors contents fallible (VoteStore.findVote poll voter) (VoteStore.findVote poll voter)
  votesOn (poll : Hash) :
    Mirrors contents fallible (VoteStore.votesOn poll) (VoteStore.votesOn poll)
  deleteVote (poll : Hash) (voter : AccountId) :
    Mirrors contents fallible (VoteStore.deleteVote poll voter) (VoteStore.deleteVote poll voter)
  votesCastAt (height : Height) :
    Mirrors contents fallible (VoteStore.votesCastAt height) (VoteStore.votesCastAt height)

/-- Every call in memory mirrors itself. -/
theorem Mirrors.refl (x : Action MemoryStore StoreError α) : Mirrors id False x x :=
  fun _ => .inl rfl

instance : FaithfulStore MemoryStore where
  contents := id
  fallible := False
  insertPoll _ := .refl _
  findPoll _ := .refl _
  deletePoll _ := .refl _
  pollsFinishingAt _ := .refl _
  pollsOf _ := .refl _
  pollsCreatedAt _ := .refl _
  applyResolutions _ := .refl _
  countPolls := .refl _
  insertVote _ := .refl _
  findVote _ _ := .refl _
  votesOn _ := .refl _
  deleteVote _ _ := .refl _
  votesCastAt _ := .refl _

/-- A call that may be made to fail still mirrors what it mirrored before. -/
theorem Mirrors.call [FaultSource φ] {contents : S → MemoryStore} {fallible : Prop}
    {x : Action S StoreError α} {y : Action MemoryStore StoreError α}
    (h : Mirrors contents fallible x y) (c : StoreCall) :
    Mirrors (fun s : Faulty φ S => contents s.store) True (Faulty.call c x) y := by
  intro s
  rcases hnext : FaultSource.next c s.faults with ⟨_ | e, faults⟩
  · have hcall : (Faulty.call c x).start s
        = ((x.start s.store).1, { faults, store := (x.start s.store).2 }) := by
      simp [Faulty.call, hnext]
    rw [hcall]
    exact (h s.store).imp_right fun hfail => ⟨trivial, hfail.2⟩
  · have hcall : (Faulty.call c x).start s = (.error e, { s with faults }) := by
      simp [Faulty.call, hnext]
    rw [hcall]
    exact .inr ⟨trivial, e, rfl, rfl⟩

instance [FaultSource φ] [PollStore S] [VoteStore S] [FaithfulStore S] :
    FaithfulStore (Faulty φ S) where
  contents s := FaithfulStore.contents s.store
  fallible := True
  insertPoll p := (FaithfulStore.insertPoll p).call _
  findPoll key := (FaithfulStore.findPoll key).call _
  deletePoll key := (FaithfulStore.deletePoll key).call _
  pollsFinishingAt height := (FaithfulStore.pollsFinishingAt height).call _
  pollsOf account := (FaithfulStore.pollsOf account).call _
  pollsCreatedAt height := (FaithfulStore.pollsCreatedAt height).call _
  applyResolutions rs := (FaithfulStore.applyResolutions rs).call _
  countPolls := FaithfulStore.countPolls.call _
  insertVote v := (FaithfulStore.insertVote v).call _
  findVote poll voter := (FaithfulStore.findVote poll voter).call _
  votesOn poll := (FaithfulStore.votesOn poll).call _
  deleteVote poll voter := (FaithfulStore.deleteVote poll voter).call _
  votesCastAt height := (FaithfulStore.votesCastAt height).call _

/-- A batch that names each poll once, and only polls that are stored, is written; or the contents
are as they were, since the store has failed or the batch names a poll that is not stored. -/
theorem applyResolutions_wp [PollStore S] [VoteStore S] [FaithfulStore S] {rs : List Resolution}
    (hrs : (rs.map Resolution.key).Nodup) (s : S) :
    (PollStore.applyResolutions rs).wp
      (fun _ s' => FaithfulStore.contents s' = (FaithfulStore.contents s).write rs ∧
        ∀ r ∈ rs, (FaithfulStore.contents s).polls.contains r.key = true)
      (fun _ s' => FaithfulStore.contents s' = FaithfulStore.contents s ∧
        (FaithfulStore.fallible S ∨
          ∃ r ∈ rs, (FaithfulStore.contents s).polls.contains r.key = false)) s := by
  rcases hx : (PollStore.applyResolutions rs).start s with ⟨r, s'⟩
  rcases FaithfulStore.applyResolutions rs s with hmirror | ⟨hfallible, e, he, hs⟩
  · simp only [hx, PollStore.applyResolutions, Action.start_transaction,
      MemoryStore.applyResolutions_eq hrs] at hmirror
    split at hmirror
    · rename_i hfun
      split at hfun
      · cases hfun
      · rename_i hfind
        cases hfun
        obtain ⟨hr, hs⟩ := Prod.mk.inj hmirror
        cases hr
        refine (Action.wp_of_start_ok hx).2 ⟨hs, fun r hr => ?_⟩
        simpa using List.find?_eq_none.1 hfind r hr
    · rename_i hfun
      split at hfun
      · rename_i missing hfind
        cases hfun
        obtain ⟨hr, hs⟩ := Prod.mk.inj hmirror
        cases hr
        refine (Action.wp_of_start_error hx).2 ⟨hs, .inr ⟨missing, ?_, ?_⟩⟩
        · exact List.mem_of_find?_eq_some hfind
        · simpa using List.find?_some hfind
      · cases hfun
  · rw [hx] at he hs
    cases he
    exact (Action.wp_of_start_error hx).2 ⟨hs, .inl hfallible⟩

end Finality
