import Finality.Params
import Finality.Poll
import Finality.Record.Layout

/-!
# The layouts of the stored records

Polls, votes, resolutions and limits, each as the sequence of its fields in the order of their
declaration.
-/

namespace Finality.Layout

/-- A hash: its 32 bytes. -/
def hash : Layout Hash where
  encode h := h.bytes
  decode bs :=
    if h : 32 ≤ bs.length then
      .ok (⟨bs.take 32, by simp [List.length_take, h]⟩, bs.drop 32)
    else .error .endOfInput

/-- An account: its number. -/
def account : Layout AccountId := word64.imap AccountId.id AccountId.mk

/-- A holding: its number. -/
def holdingId : Layout HoldingId := word64.imap HoldingId.id HoldingId.mk

/-- A kind of holding. -/
def holdingKind : Layout HoldingKind := variant [.native, .asset, .currency]

/-- A voting model. -/
def votingModel : Layout VotingModel :=
  variant [.none, .account, .assetWeighted, .currencyWeighted, .transactionApproval]

/-- A balance floor: its variant, then the holding if the variant has one. -/
def balanceFloor : Layout BalanceFloor where
  encode
    | .none => word32.encode 0
    | .native => word32.encode 1
    | .asset id => word32.encode 2 ++ holdingId.encode id
    | .currency id => word32.encode 3 ++ holdingId.encode id
  decode bs := do
    let (tag, rest) ← word32.decode bs
    if tag = 0 then return (.none, rest)
    else if tag = 1 then return (.native, rest)
    else if tag = 2 then
      let (id, rest) ← holdingId.decode rest
      return (.asset id, rest)
    else if tag = 3 then
      let (id, rest) ← holdingId.decode rest
      return (.currency id, rest)
    else throw (.unknownVariant tag 4)

/-- The status of a poll. -/
def pollStatus : Layout PollStatus := variant [.pending, .approved, .rejected]

/-- A poll. -/
def poll : Layout Poll :=
  imap
    (fun p => (p.key, p.account, p.createdHeight, p.finishHeight, p.model, p.holding, p.minBalance,
      p.floor, p.quorum, p.whitelist, p.links, p.status, p.tally))
    (fun (key, account, createdHeight, finishHeight, model, holding, minBalance, floor, quorum,
        whitelist, links, status, tally) =>
      { key, account, createdHeight, finishHeight, model, holding, minBalance, floor, quorum,
        whitelist, links, status, tally })
    (hash.pair <| account.pair <| word64.pair <| word64.pair <| votingModel.pair <|
      holdingId.option.pair <| word64.pair <| balanceFloor.pair <| word64.option.pair <|
      account.list.pair <| hash.list.pair <| pollStatus.pair word64)

/-- A vote. -/
def vote : Layout Vote :=
  imap (fun v => (v.poll, v.voter, v.weight, v.height))
    (fun (poll, voter, weight, height) => { poll, voter, weight, height })
    (hash.pair <| account.pair <| word64.pair word64)

/-- A change of status. -/
def resolution : Layout Resolution :=
  imap (fun r => (r.key, r.status, r.tally)) (fun (key, status, tally) => { key, status, tally })
    (hash.pair <| pollStatus.pair word64)

/-- The limits on polls. -/
def params : Layout Params :=
  imap (fun p => (p.maxFinishHorizon, p.maxWhitelistSize, p.maxLinks))
    (fun (maxFinishHorizon, maxWhitelistSize, maxLinks) =>
      { maxFinishHorizon, maxWhitelistSize, maxLinks })
    (word64.pair <| word64.pair word64)

end Finality.Layout
