import Finality.Ledger.Interface
import Finality.Store.Interface

/-!
# A store and a ledger together

The engine works on one state that is a store of polls, a store of votes and a ledger at once.  A
`World S L` is such a state, made of a store and a ledger that know nothing of each other.
-/

namespace Finality

/-- A store and a ledger. -/
structure World (S L : Type) where
  /-- The polls and votes. -/
  store : S
  /-- The balances and releases. -/
  ledger : L
deriving Inhabited

namespace World

variable {S L ε α : Type}

/-- An action of the store. -/
def onStore (x : Action S ε α) : Action (World S L) ε α :=
  x.onPart World.store fun store w => { w with store }

/-- An action of the ledger. -/
def onLedger (x : Action L ε α) : Action (World S L) ε α :=
  x.onPart World.ledger fun ledger w => { w with ledger }

instance [PollStore S] : PollStore (World S L) where
  insertPoll p := onStore (PollStore.insertPoll p)
  findPoll key := onStore (PollStore.findPoll key)
  deletePoll key := onStore (PollStore.deletePoll key)
  pollsFinishingAt height := onStore (PollStore.pollsFinishingAt height)
  pollsOf account := onStore (PollStore.pollsOf account)
  pollsCreatedAt height := onStore (PollStore.pollsCreatedAt height)
  applyResolutions rs := onStore (PollStore.applyResolutions rs)
  countPolls := onStore PollStore.countPolls

instance [VoteStore S] : VoteStore (World S L) where
  insertVote v := onStore (VoteStore.insertVote v)
  findVote poll voter := onStore (VoteStore.findVote poll voter)
  votesOn poll := onStore (VoteStore.votesOn poll)
  deleteVote poll voter := onStore (VoteStore.deleteVote poll voter)
  votesCastAt height := onStore (VoteStore.votesCastAt height)

instance [Ledger L] : Ledger (World S L) where
  balanceOf account holding height := onLedger (Ledger.balanceOf account holding height)
  holdingExists kind id := onLedger (Ledger.holdingExists kind id)
  applyRelease transaction := onLedger (Ledger.applyRelease transaction)
  undoRelease transaction := onLedger (Ledger.undoRelease transaction)

end World

end Finality
