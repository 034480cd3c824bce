import Finality.Node
import Finality.Proofs.Chain.Status
import Finality.Proofs.Ledger.Simulated

/-!
# Reorganisations leave no trace

A chain that is reorganised takes blocks back and applies others in their place.  A `Chronicle`
delivers blocks to a follower and takes them back in any order, and keeps the blocks that survive
with the answers of their last delivery.

* `Follower.deliver` — a block is delivered: the calls that make up its contents, then its
  application, with the tip of the ledger at its height.
* `Follower.Extends` — what a follower is like that has one block more than another, and
  `Follower.Settled.extends_deliver` — delivering a block leads there.
* `Follower.Extends.retract` — taking a block back leads back, but for the tip of the ledger and for
  what listeners have heard (`Follower.bare`).
* `reorganisation_leaves_no_trace` — the result: at the end of a chronicle all is as if only the
  surviving blocks had been delivered.
-/

namespace Finality

/-- A follower over a store in memory and a simulated ledger. -/
abbrev Replica := Follower (World MemoryStore SimulatedLedger)

/-- What a follower has answered. -/
abbrev Answer := Except NodeError Reply

/-- Whether the answer is an error that stops the node. -/
def Answer.isFatal : Answer → Bool
  | .ok _ => false
  | .error e => e.isFatal

/-! ## Blocks -/

/-- What a block may contain. -/
inductive Content where
  /-- The registration of a poll. -/
  | register (r : PollRequest)
  /-- A vote. -/
  | castVote (poll : Hash) (voter : AccountId)
deriving DecidableEq

/-- The call that a content makes. -/
def Content.call : Content → Call
  | .register r => .register r
  | .castVote poll voter => .castVote poll voter

namespace Follower

/-- Makes some calls, one after another, and answers what each has answered. -/
def callAll {σ : Type} [PollStore σ] [VoteStore σ] [Ledger σ] :
    List Call → Follower σ → List Answer × Follower σ
  | [], f => ([], f)
  | c :: cs, f =>
    match c.action.start f with
    | (answer, f) =>
      match callAll cs f with
      | (answers, f) => (answer :: answers, f)

/-- Delivers a block: its contents, and then its application. -/
def deliver (contents : List Content) (f : Replica) : List Answer × Replica :=
  callAll (contents.map Content.call ++ [.applyBlock (f.height + 1)]) (f.setTip (f.height + 1))

/-- Takes the last block back; the tip of the ledger is lowered after it. -/
def retract (f : Replica) : Answer × Replica :=
  match (Call.popBlock f.height).action.start f with
  | (answer, f) => (answer, f.setTip f.height)

end Follower

/-! ## Chronicles -/

/-- A block is delivered or the last one taken back. -/
inductive Delivery where
  /-- A block with these contents is delivered. -/
  | block (contents : List Content)
  /-- The last block is taken back. -/
  | popOff
deriving DecidableEq

/-- A block that survives, with the answers of its last delivery. -/
structure Kept where
  /-- What the block contains. -/
  contents : List Content
  /-- What the follower has answered. -/
  answers : List Answer

/-- What has become of a follower by deliveries. -/
structure Chronicle where
  /-- The follower. -/
  follower : Replica
  /-- The surviving blocks, the last one first. -/
  kept : List Kept
  /-- Everything the follower has answered. -/
  answers : List Answer

namespace Chronicle

/-- Nothing has been delivered. -/
def start (f : Replica) : Chronicle := { follower := f, kept := [], answers := [] }

/-- One more delivery. -/
def deliver (c : Chronicle) : Delivery → Chronicle
  | .block contents =>
    match c.follower.deliver contents with
    | (answers, follower) =>
      { follower, kept := ⟨contents, answers⟩ :: c.kept, answers := answers ++ c.answers }
  | .popOff =>
    match c.follower.retract with
    | (answer, follower) => { follower, kept := c.kept.tail, answers := answer :: c.answers }

/-- Some more deliveries. -/
def run (c : Chronicle) (ds : List Delivery) : Chronicle := ds.foldl deliver c

/-- There is a height left for every block that is delivered, and only blocks that were delivered
are taken back. -/
def Permits : Chronicle → List Delivery → Prop
  | _, [] => True
  | c, .block contents :: ds =>
    c.follower.height + 1 ≠ 0 ∧ Permits (c.deliver (.block contents)) ds
  | c, .popOff :: ds => c.kept ≠ [] ∧ Permits (c.deliver .popOff) ds

instance decidablePermits : (c : Chronicle) → (ds : List Delivery) → Decidable (c.Permits ds)
  | _, [] => .isTrue trivial
  | c, .block contents :: ds =>
    have := decidablePermits (c.deliver (.block contents)) ds
    inferInstanceAs (Decidable (_ ∧ _))
  | c, .popOff :: ds =>
    have := decidablePermits (c.deliver .popOff) ds
    inferInstanceAs (Decidable (_ ∧ _))

/-- The delivery of the surviving blocks alone, once each and in order. -/
def survivors (c : Chronicle) : List Delivery := c.kept.reverse.map fun b => .block b.contents

end Chronicle

/-! ## What does not matter -/

/-- Ledgers that differ in their tips have the same releases. -/
theorem SimulatedLedger.released_of_tip {l l' : SimulatedLedger}
    (h : { l with tip := none } = { l' with tip := none }) : l.released = l'.released := by
  have hreleased := congrArg SimulatedLedger.released h
  exact hreleased

namespace Follower

/-- The follower without its listeners, and without the tip of its ledger, which is set anew for
every block. -/
def bare (f : Replica) : Replica :=
  { world := ⟨f.world.store, { f.world.ledger with tip := none }⟩
    params := f.params
    height := f.height
    halt := f.halt
    emitEvents := false
    bus := .empty }

theorem bare_eq_iff {f g : Replica} : f.bare = g.bare ↔
    f.world.store = g.world.store ∧
    { f.world.ledger with tip := none } = { g.world.ledger with tip := none } ∧
    f.params = g.params ∧ f.height = g.height ∧ f.halt = g.halt := by
  simp only [bare, Follower.mk.injEq, World.mk.injEq, and_true, and_assoc]

theorem callAll_cons {σ : Type} [PollStore σ] [VoteStore σ] [Ledger σ] (c : Call) (cs : List Call)
    (f : Follower σ) :
    callAll (c :: cs) f = ((c.action.start f).1 :: (callAll cs (c.action.start f).2).1,
      (callAll cs (c.action.start f).2).2) := rfl

theorem callAll_append {σ : Type} [PollStore σ] [VoteStore σ] [Ledger σ] (cs cs' : List Call)
    (f : Follower σ) :
    callAll (cs ++ cs') f = ((callAll cs f).1 ++ (callAll cs' (callAll cs f).2).1,
      (callAll cs' (callAll cs f).2).2) := by
  induction cs generalizing f with
  | nil => rfl
  | cons c cs ih =>
    rw [List.cons_append, callAll_cons, ih]
    rfl

theorem callAll_silence {σ : Type} [PollStore σ] [VoteStore σ] [Ledger σ] (cs : List Call)
    (f : Follower σ) : callAll cs f.silence = ((callAll cs f).1, (callAll cs f).2.silence) := by
  induction cs generalizing f with
  | nil => rfl
  | cons c cs ih =>
    rw [callAll_cons, Call.start_silence, ih]
    rfl

/-- What a block brings does not depend on listeners, nor on the tip before it. -/
theorem deliver_bare (contents : List Content) (f : Replica) :
    deliver contents f.bare = ((deliver contents f).1, (deliver contents f).2.silence) :=
  callAll_silence (contents.map Content.call ++ [Call.applyBlock (f.height + 1)])
    (f.setTip (f.height + 1))

theorem deliver_congr {f g : Replica} (h : f.bare = g.bare) (contents : List Content) :
    (deliver contents f).1 = (deliver contents g).1 ∧
      (deliver contents f).2.bare = (deliver contents g).2.bare := by
  have hdeliver := congrArg (deliver contents) h
  rw [deliver_bare, deliver_bare, Prod.mk.injEq] at hdeliver
  have hbare := congrArg bare hdeliver.2
  exact ⟨hdeliver.1, hbare⟩

end Follower

/-! ## Delivering a block -/

/-- What a content brings goes with the block, and the ledger is only asked. -/
theorem Content.dropBlock_effect {L : Type} [Ledger L] {params : Params} {height : Height}
    {c : Content} {reply : Reply} {v v' : World MemoryStore L}
    (h : c.call.Effect params height v (.ok reply) v') :
    v'.store.dropBlock (height + 1) = v.store.dropBlock (height + 1) ∧
      AskedFrom v.ledger v'.ledger := by
  cases c with
  | register r =>
    cases h with
    | registered hpasses hledger =>
      exact ⟨MemoryStore.dropBlock_insertPoll (p := r.toPoll (height + 1)) hpasses.new, hledger⟩
  | castVote poll voter =>
    generalize hc : (Content.castVote poll voter).call = c at h
    cases h with
    | accepted hcast hadmitted hledger =>
      refine ⟨?_, hledger⟩
      rw [← hcast]
      exact MemoryStore.dropBlock_insertVote hadmitted.new
    | rejected hledger => exact ⟨rfl, hledger⟩
    | _ => cases hc

namespace Follower

/-- The follower is between blocks: nothing it has stored is above its height. -/
structure Settled (f : Replica) : Prop where
  /-- Polls are on time. -/
  onTime : f.world.store.OnTime f.height
  /-- Nothing is younger than the last block. -/
  upTo : f.world.store.UpTo f.height.toNat

/-- The second follower is the first amid the assembling of the next block. -/
structure Assembles (f g : Replica) : Prop where
  /-- Polls are on time. -/
  onTime : g.world.store.OnTime f.height
  /-- Without the new block, the store is what it was. -/
  store : g.world.store.dropBlock (f.height + 1) = f.world.store
  /-- Only the tip of the ledger has changed. -/
  ledger : g.world.ledger = { f.world.ledger with tip := some (f.height + 1) }
  /-- The limits are the same. -/
  params : g.params = f.params
  /-- The height is the same. -/
  height : g.height = f.height
  /-- It runs if the first one runs. -/
  halt : g.halt = f.halt

/-- Before the first content. -/
theorem Settled.assembles {f : Replica} (hf : f.Settled) (hnext : f.height + 1 ≠ 0) :
    f.Assembles (f.setTip (f.height + 1)) := by
  have hnat := Height.toNat_add_one hnext
  have hlt : f.height.toNat < (f.height + 1).toNat := by omega
  exact ⟨hf.onTime, hf.upTo.dropBlock_eq_self hlt, rfl, rfl, rfl, rfl⟩

/-- A content that is answered, be it with a refusal, leaves the follower amid the block. -/
theorem Assembles.content {f g : Replica} (h : f.Assembles g) (c : Content)
    (hanswer : Answer.isFatal (c.call.action.start g).1 = false) :
    f.Assembles (c.call.action.start g).2 := by
  have hends := c.call.ends (f := g) h.onTime.keyed fun hf => hf
  have hheightAfter : c.call.heightAfter g.height = g.height := by cases c <;> rfl
  rcases hx : c.call.action.start g with ⟨r, g'⟩
  rw [hx] at hends hanswer
  dsimp only at hends hanswer
  cases hends with
  | refused hrefusal => exact h
  | done hrefusal heffect hparams hheight hhalt =>
    have honTime := MemoryStore.OnTime.effect hrefusal (h.height ▸ h.onTime) heffect
    rw [Call.heightLeft, hheightAfter, h.height] at honTime
    rw [hheightAfter] at hheight
    obtain ⟨hstore, hasked⟩ := Content.dropBlock_effect heffect
    rw [h.height] at hstore
    exact ⟨honTime, hstore.trans h.store, (SimulatedLedger.eq_of_askedFrom hasked).trans h.ledger,
      hparams.trans h.params, hheight.trans h.height, hhalt.trans h.halt⟩
  | failed hrefusal heffect hparams hheight hhalt =>
    have hasked := heffect.askedFrom hanswer
    have hstore : g'.world.store = g.world.store := heffect.store_of_error
    refine ⟨?_, ?_, (SimulatedLedger.eq_of_askedFrom hasked).trans h.ledger,
      hparams.trans h.params, hheight.trans h.height, (hhalt hanswer).trans h.halt⟩
    · rw [hstore]
      exact h.onTime
    · rw [hstore]
      exact h.store

/-- Contents that are answered, each of them, leave the follower amid the block. -/
theorem Assembles.callAll {f g : Replica} (h : f.Assembles g) (contents : List Content)
    (hanswers : ∀ a ∈ (callAll (contents.map Content.call) g).1, Answer.isFatal a = false) :
    f.Assembles (callAll (contents.map Content.call) g).2 := by
  induction contents generalizing g with
  | nil => exact h
  | cons c contents ih =>
    rw [List.map_cons, callAll_cons] at hanswers ⊢
    obtain ⟨hfirst, hrest⟩ := List.forall_mem_cons.1 hanswers
    exact ih (h.content c hfirst) hrest

/-- Nothing is younger than the block that is being assembled. -/
theorem Assembles.upTo {f g : Replica} (hf : f.Settled) (hnext : f.height + 1 ≠ 0)
    (h : f.Assembles g) : g.world.store.UpTo (f.height + 1).toNat := by
  have hnat := Height.toNat_add_one hnext
  have hle : f.height.toNat ≤ (f.height + 1).toNat := by omega
  have hdropped : (g.world.store.dropBlock (f.height + 1)).UpTo f.height.toNat := by
    rw [h.store]
    exact hf.upTo
  exact hdropped.of_dropBlock hle

/-- The second follower is the first with one block more. -/
structure Extends (f g : Replica) : Prop where
  /-- It is between blocks. -/
  settled : g.Settled
  /-- The block is not the first of all. -/
  ne : g.height ≠ 0
  /-- It is one block further. -/
  height : g.height = f.height + 1
  /-- Without the last block, the store is what it was. -/
  store : g.world.store.takeBack g.height = f.world.store
  /-- Nothing of the ledger has changed but the tip and the releases. -/
  ledger : { g.world.ledger with released := f.world.ledger.released, tip := none }
    = { f.world.ledger with tip := none }
  /-- Undoing the approved transactions of the block restores the releases. -/
  released : ∀ l l' : SimulatedLedger, l.released = g.world.ledger.released →
    (undoAll (approvedKeys (g.world.store.decidedAt g.height))).start l = (.ok (), l') →
    l'.released = f.world.ledger.released
  /-- The limits are the same. -/
  params : g.params = f.params
  /-- It runs if the first one runs. -/
  halt : g.halt = f.halt

/-- The block that ends the assembling is applied. -/
theorem Assembles.extends {f g : Replica} (hf : f.Settled) (hnext : f.height + 1 ≠ 0)
    (h : f.Assembles g)
    (hanswer : Answer.isFatal ((Call.applyBlock (f.height + 1)).action.start g).1 = false) :
    f.Extends ((Call.applyBlock (f.height + 1)).action.start g).2 := by
  have hends := (Call.applyBlock (f.height + 1)).ends (f := g) h.onTime.keyed fun hf => hf
  rcases hx : (Call.applyBlock (f.height + 1)).action.start g with ⟨r, g'⟩
  rw [hx] at hends hanswer
  dsimp only at hends hanswer
  cases hends with
  | refused hrefusal =>
    have hfatal := Call.isFatal_of_refusal_applyBlock (h.height ▸ hrefusal) (h.height ▸ hnext)
    rw [Answer.isFatal, hfatal] at hanswer
    cases hanswer
  | failed hrefusal heffect hparams hheight hhalt =>
    have hcause : EngineError.ResolutionCause _ _ False _ := heffect.failsWith
    rw [Answer.isFatal, NodeError.isFatal, hcause.isFatal] at hanswer
    cases hanswer
  | done hrefusal heffect hparams hheight hhalt =>
    have hheight' : g'.height = f.height + 1 := hheight
    have honTime := MemoryStore.OnTime.effect hrefusal (h.height ▸ h.onTime) heffect
    have hpending : ∀ key p, g.world.store.polls.find? key = some p → p.status = .pending →
        p.tally = 0 := fun key p hp => (h.onTime.polls hp).tally
    rw [World.view_memory, World.view_memory] at heffect
    generalize hworld : g'.world = w at heffect
    cases heffect with
    | @applied _ outcomes l hdecide hledger =>
      have hstore : g'.world.store = g.world.store.settle outcomes := congrArg World.store hworld
      have hledger' : g'.world.ledger = l := congrArg World.ledger hworld
      have hrecords := SimulatedLedger.records_of_releaseAll hledger
      have happroved := hdecide.mem_approvedKeys_settle h.onTime.keyed
      have hsettled : g'.Settled := by
        refine ⟨?_, ?_⟩
        · rw [hheight']
          exact honTime
        · rw [hstore, hheight']
          exact (h.upTo hf hnext).settle outcomes
      refine ⟨hsettled, ?_, hheight', ?_, ?_, ?_, hparams.trans h.params, hhalt.trans h.halt⟩
      · rw [hheight']
        exact hnext
      · rw [hstore, hheight', MemoryStore.takeBack_settle hdecide hpending]
        exact h.store
      · rw [hledger', hrecords.frame]
        dsimp only
        rw [h.ledger]
      · intro l₁ l₂ hsame hundo
        rw [hstore, hheight'] at hundo
        rw [hledger'] at hsame
        have hundone := SimulatedLedger.released_of_records hrecords hsame
          (SimulatedLedger.records_of_undoAll hundo) happroved
        rw [hundone, h.ledger]

/-- **Delivering a block** with answers that let the follower run on makes it one block longer. -/
theorem Settled.extends_deliver {f : Replica} (hf : f.Settled) (hnext : f.height + 1 ≠ 0)
    (contents : List Content)
    (hanswers : ∀ a ∈ (deliver contents f).1, Answer.isFatal a = false) :
    f.Extends (deliver contents f).2 := by
  rw [deliver, callAll_append] at hanswers ⊢
  obtain ⟨hcontents, hlast⟩ := List.forall_mem_append.1 hanswers
  have hassembles := (hf.assembles hnext).callAll contents hcontents
  exact hassembles.extends hf hnext (hlast _ (List.mem_cons_self ..))

/-! ## Taking a block back -/

/-- **Taking the last block back** leads back to what the follower was before, but for its listeners
and the tip of the ledger. -/
theorem Extends.retract {f g g' : Replica} (h : f.Extends g) (hsame : g'.bare = g.bare)
    (hanswer : Answer.isFatal (retract g').1 = false) : (retract g').2.bare = f.bare := by
  obtain ⟨hstore, hledger, hparams, hheight, hhalt⟩ := bare_eq_iff.1 hsame
  have hreleased := SimulatedLedger.released_of_tip hledger
  have hne : g'.height ≠ 0 := hheight ▸ h.ne
  have hkeyed : g'.world.view.store.Keyed := hstore ▸ h.settled.onTime.keyed
  have hends := (Call.popBlock g'.height).ends hkeyed fun hf => hf
  unfold Follower.retract at hanswer ⊢
  rcases hx : (Call.popBlock g'.height).action.start g' with ⟨r, g''⟩
  rw [hx] at hends hanswer
  dsimp only at hends hanswer ⊢
  cases hends with
  | refused hrefusal =>
    have hfatal := Call.isFatal_of_refusal_popBlock hrefusal hne
    rw [Answer.isFatal, hfatal] at hanswer
    cases hanswer
  | failed hrefusal heffect hparams' hheight' hhalt' =>
    have hfatal := EngineError.isFatal_of_popping heffect.failsWith
    rw [Answer.isFatal, NodeError.isFatal, hfatal] at hanswer
    cases hanswer
  | done hrefusal heffect hparams' hheight' hhalt' =>
    rw [World.view_memory, World.view_memory] at heffect
    generalize hworld : g''.world = w at heffect
    cases heffect with
    | @popped _ l hundo =>
      have hrecords := SimulatedLedger.records_of_undoAll hundo
      have hback : l.released = f.world.ledger.released := by
        rw [hstore, hheight] at hundo
        exact h.released _ _ hreleased hundo
      refine bare_eq_iff.2 ⟨?_, ?_, hparams'.trans (hparams.trans h.params), ?_,
        hhalt'.trans (hhalt.trans h.halt)⟩
      · show g''.world.store = f.world.store
        rw [hworld, hstore, hheight]
        exact h.store
      · show ({ g''.world.ledger with tip := none } : SimulatedLedger) = _
        rw [hworld]
        show ({ l with tip := none } : SimulatedLedger) = _
        rw [hrecords.frame, hback, ← h.ledger]
        exact congrArg (fun l : SimulatedLedger =>
          ({ l with released := f.world.ledger.released } : SimulatedLedger)) hledger
      · show g''.height = f.height
        rw [hheight', Call.heightAfter, hheight, h.height]
        exact UInt64.add_sub_cancel f.height 1

/-! ## The surviving blocks -/

/-- Being between blocks has nothing to do with listeners and the tip. -/
theorem Settled.of_bare {f g : Replica} (hf : f.Settled) (hsame : g.bare = f.bare) :
    g.Settled := by
  obtain ⟨hstore, -, -, hheight, -⟩ := bare_eq_iff.1 hsame
  refine ⟨?_, ?_⟩
  · rw [hstore, hheight]
    exact hf.onTime
  · rw [hstore, hheight]
    exact hf.upTo

/-- The second follower has come from the first by these blocks, the last one first, and has
answered as noted, whatever was delivered and taken back in between. -/
inductive Rests (f : Replica) : List Kept → Replica → Prop where
  /-- No block is left. -/
  | nil {g : Replica} (hsame : g.bare = f.bare) : Rests f [] g
  /-- The last block was delivered to a follower that had come by the blocks before. -/
  | cons {b : Kept} {rest : List Kept} {g₀ g₁ g : Replica} (hrest : Rests f rest g₀)
      (hdeliver : g₀.deliver b.contents = (b.answers, g₁)) (hextends : g₀.Extends g₁)
      (hsame : g.bare = g₁.bare) : Rests f (b :: rest) g

theorem Rests.of_bare {f g g' : Replica} {ks : List Kept} (h : Rests f ks g)
    (hsame : g'.bare = g.bare) : Rests f ks g' := by
  cases h with
  | nil hsame' => exact .nil (hsame.trans hsame')
  | cons hrest hdeliver hextends hsame' =>
    exact .cons hrest hdeliver hextends (hsame.trans hsame')

theorem Rests.settled {f g : Replica} {ks : List Kept} (hf : f.Settled) (h : Rests f ks g) :
    g.Settled := by
  cases h with
  | nil hsame => exact hf.of_bare hsame
  | cons hrest hdeliver hextends hsame => exact hextends.settled.of_bare hsame

end Follower

namespace Chronicle

theorem deliver_block (c : Chronicle) (contents : List Content) :
    c.deliver (.block contents) =
      { follower := (c.follower.deliver contents).2
        kept := ⟨contents, (c.follower.deliver contents).1⟩ :: c.kept
        answers := (c.follower.deliver contents).1 ++ c.answers } := rfl

theorem deliver_popOff (c : Chronicle) :
    c.deliver .popOff =
      { follower := c.follower.retract.2
        kept := c.kept.tail
        answers := c.follower.retract.1 :: c.answers } := rfl

/-- Answers are kept. -/
theorem answers_subset_run (c : Chronicle) (ds : List Delivery) :
    c.answers ⊆ (c.run ds).answers := by
  induction ds generalizing c with
  | nil => exact List.Subset.refl _
  | cons d ds ih =>
    refine List.Subset.trans ?_ (ih (c.deliver d))
    cases d with
    | block contents => exact List.subset_append_right _ _
    | popOff => exact List.subset_cons_self _ _

/-- **Every delivery** that is answered keeps the follower resting on the surviving blocks. -/
theorem rests_deliver {f : Replica} (hf : f.Settled) {c : Chronicle}
    (hc : Follower.Rests f c.kept c.follower) {d : Delivery} (hpermits : c.Permits [d])
    (hanswers : ∀ a ∈ (c.deliver d).answers, Answer.isFatal a = false) :
    Follower.Rests f (c.deliver d).kept (c.deliver d).follower := by
  cases d with
  | block contents =>
    rw [deliver_block] at hanswers ⊢
    have hanswers' := (List.forall_mem_append.1 hanswers).1
    exact .cons hc rfl ((hc.settled hf).extends_deliver hpermits.1 contents hanswers') rfl
  | popOff =>
    rw [deliver_popOff] at hanswers ⊢
    have hanswer := hanswers _ (List.mem_cons_self ..)
    obtain ⟨g, ks, answers⟩ := c
    cases hc with
    | nil hsame => exact absurd rfl hpermits.1
    | cons hrest hdeliver hextends hsame => exact hrest.of_bare (hextends.retract hsame hanswer)

/-- **Every chronicle** without fatal answers keeps the follower resting on the surviving blocks. -/
theorem rests_run {f : Replica} (hf : f.Settled) {c : Chronicle}
    (hc : Follower.Rests f c.kept c.follower) {ds : List Delivery} (hpermits : c.Permits ds)
    (hanswers : ∀ a ∈ (c.run ds).answers, Answer.isFatal a = false) :
    Follower.Rests f (c.run ds).kept (c.run ds).follower := by
  induction ds generalizing c with
  | nil => exact hc
  | cons d ds ih =>
    have hfirst : ∀ a ∈ (c.deliver d).answers, Answer.isFatal a = false := fun a ha =>
      hanswers a (answers_subset_run (c.deliver d) ds ha)
    have hpermits' : c.Permits [d] ∧ (c.deliver d).Permits ds := by
      cases d with
      | block contents => exact ⟨⟨hpermits.1, trivial⟩, hpermits.2⟩
      | popOff => exact ⟨⟨hpermits.1, trivial⟩, hpermits.2⟩
    exact ih (rests_deliver hf hc hpermits'.1 hfirst) hpermits'.2 hanswers

/-- **Delivering the blocks alone** on which a follower rests gives the same answers and leads to
the same follower. -/
theorem replay {f g : Replica} {ks : List Kept} (h : Follower.Rests f ks g) :
    let c := (start f).run (ks.reverse.map fun b => .block b.contents)
    c.kept = ks ∧ c.follower.bare = g.bare := by
  induction h with
  | nil hsame => exact ⟨rfl, hsame.symm⟩
  | @cons b rest g₀ g₁ g hrest hdeliver hextends hsame ih =>
    obtain ⟨hkept, hbare⟩ := ih
    obtain ⟨hanswers, hfollower⟩ := Follower.deliver_congr hbare b.contents
    rw [hdeliver] at hanswers hfollower
    rw [List.reverse_cons, List.map_append, run, List.foldl_append]
    change (deliver (run (start f) _) (.block b.contents)).kept = _ ∧ _
    rw [deliver_block, hkept, hanswers]
    exact ⟨rfl, hfollower.trans hsame.symm⟩

end Chronicle

/-- **Reorganisations leave no trace.**  A follower over an empty store is delivered any blocks and
takes any back, in any order, and never answers with a fatal error.  Then its polls, its votes, its
height and the records of what is released are those of a follower that is delivered the surviving
blocks alone, once each and in order, and the answers of the last delivery of each surviving block
are the answers of its one delivery there. -/
theorem reorganisation_leaves_no_trace (f : Replica) (hempty : f.world.store = .empty)
    (ds : List Delivery) (hpermits : Chronicle.Permits (.start f) ds)
    (hanswers : ∀ a ∈ ((Chronicle.start f).run ds).answers, a.isFatal = false) :
    let c := (Chronicle.start f).run ds
    let c' := (Chronicle.start f).run c.survivors
    c.kept = c'.kept ∧
      c.follower.world.store = c'.follower.world.store ∧
      c.follower.world.ledger.released = c'.follower.world.ledger.released ∧
      c.follower.height = c'.follower.height := by
  intro c c'
  have hsettled : f.Settled := by
    refine ⟨?_, ?_⟩
    · rw [hempty]
      exact MemoryStore.onTime_empty _
    · rw [hempty]
      exact .empty _
  have hrests : Follower.Rests f c.kept c.follower :=
    Chronicle.rests_run hsettled (.nil rfl) hpermits hanswers
  obtain ⟨hkept, hbare⟩ := Chronicle.replay hrests
  obtain ⟨hstore, hledger, -, hheight, -⟩ := Follower.bare_eq_iff.1 hbare
  have hreleased := SimulatedLedger.released_of_tip hledger
  exact ⟨hkept.symm, hstore.symm, hreleased.symm, hheight.symm⟩

/-- Two blocks are taken back after a release, and the vote is cast by another account then. -/
theorem reorganisation_leaves_no_trace_branch :
    let f : Replica := .start ⟨.empty, .releasing .zero⟩ .standard 0
    let ds : List Delivery := [.block [.register (.single .zero 3)], .block [.castVote .zero ⟨7⟩],
      .block [], .popOff, .popOff, .block [.castVote .zero ⟨8⟩], .block []]
    let c := (Chronicle.start f).run ds
    let c' := (Chronicle.start f).run c.survivors
    f.world.store = .empty ∧ Chronicle.Permits (.start f) ds ∧
    (∀ a ∈ c.answers, a.isFatal = false) ∧
    c.survivors = [.block [.register (.single .zero 3)], .block [.castVote .zero ⟨8⟩],
      .block []] ∧
    c.follower.world.ledger.released.find? .zero = some 3 ∧
    c.kept = c'.kept ∧
      c.follower.world.store = c'.follower.world.store ∧
      c.follower.world.ledger.released = c'.follower.world.ledger.released ∧
      c.follower.height = c'.follower.height := by
  exact ⟨rfl, by decide +kernel, by decide +kernel, by decide +kernel, by decide +kernel,
    reorganisation_leaves_no_trace _ rfl _ (by decide +kernel) (by decide +kernel)⟩

end Finality
