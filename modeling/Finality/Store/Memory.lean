import Finality.Store.Interface
import Finality.Table

/-!
# A store in memory

The plainest store: a table of polls by transaction and a table of votes by poll and voter.  Scans
walk the table and keep what fits, so their answers are in the order of the keys.  No call fails
but for the reasons the interface names, and a failing call changes nothing.
-/

namespace Finality

/-- What names a vote: the poll, then the voter. -/
structure VoteKey where
  /-- The poll voted on. -/
  poll : Hash
  /-- The account that votes. -/
  voter : AccountId
deriving DecidableEq

namespace VoteKey

/-- Votes are ordered by poll, those on one poll by voter. -/
instance : Ord VoteKey := ⟨compareLex (compareOn poll) (compareOn voter)⟩

instance : Std.TransOrd VoteKey :=
  inferInstanceAs (Std.TransCmp (compareLex (compareOn poll) (compareOn voter)))

instance : Std.LawfulEqOrd VoteKey where
  eq_of_compare {a b} h := by
    have hc : compareLex (compareOn poll) (compareOn voter) a b = .eq := h
    rw [compareLex_eq_eq] at hc
    have hpoll : a.poll = b.poll := Std.LawfulEqCmp.eq_of_compare hc.1
    have hvoter : a.voter = b.voter := Std.LawfulEqCmp.eq_of_compare hc.2
    cases a
    cases b
    cases hpoll
    cases hvoter
    rfl

end VoteKey

/-- What names this vote. -/
def Vote.id (v : Vote) : VoteKey := ⟨v.poll, v.voter⟩

/-- Polls and votes in memory. -/
structure MemoryStore where
  /-- The polls, each under its transaction. -/
  polls : Table Hash Poll
  /-- The votes, each under its poll and voter. -/
  votes : Table VoteKey Vote
deriving DecidableEq, Inhabited

namespace MemoryStore

/-- The store without polls and votes. -/
def empty : MemoryStore := ⟨∅, ∅⟩

/-! ## Polls -/

/-- The store with one poll more, unless its transaction has one. -/
def insertPoll (p : Poll) (s : MemoryStore) : Except StoreError MemoryStore :=
  if s.polls.contains p.key then .error (.duplicatePoll p.key)
  else .ok { s with polls := s.polls.insert p.key p }

/-- The polls that fit, by hash. -/
def pollsWhere (fits : Poll → Bool) (s : MemoryStore) : List Poll := s.polls.values.filter fits

/-- The polls after one change of status; a change for a missing poll is dropped. -/
def resolve (polls : Table Hash Poll) (r : Resolution) : Table Hash Poll :=
  match polls.find? r.key with
  | some p => polls.insert r.key (p.resolve r)
  | none => polls

/-- The store after all these changes of status, unless one is for a missing poll: the first such
is reported. -/
def applyResolutions (rs : List Resolution) (s : MemoryStore) : Except StoreError MemoryStore :=
  match rs.find? fun r => !s.polls.contains r.key with
  | some r => .error (.missingPoll r.key)
  | none => .ok { s with polls := rs.foldl resolve s.polls }

instance : PollStore MemoryStore where
  insertPoll p := Action.transaction fun s => (insertPoll p s).map ((), ·)
  findPoll key := Action.query fun s => .ok (s.polls.find? key)
  deletePoll key := Action.transaction fun s =>
    .ok (s.polls.contains key, { s with polls := s.polls.erase key })
  pollsFinishingAt height := Action.query fun s => .ok (s.pollsWhere (·.finishHeight = height))
  pollsOf account := Action.query fun s => .ok (s.pollsWhere (·.account = account))
  pollsCreatedAt height := Action.query fun s =>
    .ok ((s.pollsWhere (·.createdHeight = height)).map Poll.key)
  applyResolutions rs := Action.transaction fun s => (applyResolutions rs s).map ((), ·)
  countPolls := Action.query fun s => .ok s.polls.size

/-! ## Votes -/

/-- The store with one vote more, unless its voter has voted on its poll. -/
def insertVote (v : Vote) (s : MemoryStore) : Except StoreError MemoryStore :=
  if s.votes.contains v.id then .error (.duplicateVote v.poll v.voter)
  else .ok { s with votes := s.votes.insert v.id v }

/-- The votes on a poll, by voter. -/
def votesOn (poll : Hash) (s : MemoryStore) : List Vote :=
  (s.votes.entries.filter fun e => e.1.poll = poll).map (·.2)

/-- Poll and voter of the votes cast at a height. -/
def votesCastAt (height : Height) (s : MemoryStore) : List (Hash × AccountId) :=
  (s.votes.values.filter fun v => v.height = height).map fun v => (v.poll, v.voter)

instance : VoteStore MemoryStore where
  insertVote v := Action.transaction fun s => (insertVote v s).map ((), ·)
  findVote poll voter := Action.query fun s => .ok (s.votes.find? ⟨poll, voter⟩)
  votesOn poll := Action.query fun s => .ok (s.votesOn poll)
  deleteVote poll voter := Action.transaction fun s =>
    .ok (s.votes.contains ⟨poll, voter⟩, { s with votes := s.votes.erase ⟨poll, voter⟩ })
  votesCastAt height := Action.query fun s => .ok (s.votesCastAt height)

end MemoryStore

end Finality
