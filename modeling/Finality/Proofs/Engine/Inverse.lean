import Finality.Proofs.Engine.Failure
import Finality.Proofs.Engine.Resolved

/-!
# Resolving, undoing and restoring are inverse to each other

The three are written apart: resolving releases in ascending order, undoing takes back in descending
order, and restoring sorts what the undoing has answered to release it once more.  This file says
that they cancel out, with statuses, tallies and the records of releases all compared.

* `undoHeight_undoes`, `restore_restores` — undoing succeeds where nothing stands in the way of it,
  and so does restoring; and what they do then.
* `World.atTip` — the tip of the ledger may move in between.
* `resolve_undo_restore_cancel` — the result.
-/

namespace Finality

/-! ## Undoing and restoring with success -/

/-- A height can be undone if nothing stands in the way of undoing any of its releases. -/
theorem undoHeight_undoes {v : World MemoryStore SimulatedLedger} (hs : v.store.Keyed)
    {height : Height} (h : ∀ t ∈ approvedKeys (v.store.decidedAt height), v.ledger.Undoable t) :
    ∃ l, (undoHeight height).start v
        = (.ok ((v.store.decidedAt height).map (ResolvedPoll.ofPoll height)),
          ⟨v.store.undecide height, l⟩) ∧
      SimulatedLedger.Records none v.ledger (approvedKeys (v.store.decidedAt height)) l := by
  have hyields := undoHeight_yields (S := MemoryStore) (L := SimulatedLedger) hs height
  rcases hx : (undoHeight height).start v with ⟨e | reverted, ⟨s, l⟩⟩
  · obtain ⟨-, hfallible | ⟨e', rfl, hundo⟩⟩ := hyields.of_error hx
    · exact hfallible.elim
    · obtain ⟨l', hl'⟩ := exists_undoAll_approved hs h
      rw [hl'] at hundo
      cases hundo
  · obtain ⟨rfl, rfl, hundo⟩ := hyields.of_ok hx
    exact ⟨l, rfl, SimulatedLedger.records_of_undoAll hundo⟩

namespace MemoryStore

/-- Restoring the decisions of a height that were undone leaves the polls as they were. -/
theorem write_restorations {s : MemoryStore} (hs : s.Keyed) (height : Height) :
    (s.undecide height).write (s.restorations height) = s := by
  have hpolls : ((s.undecide height).write (s.restorations height)).polls = s.polls := by
    refine Table.ext_find? fun key => ?_
    rw [write, Table.find?_map, undecide, Table.find?_map, Option.map_map]
    cases hp : s.polls.find? key with
    | none => rfl
    | some p => exact congrArg some (restore_undecide hs hp)
  exact congrArg (fun polls => ({ s with polls } : MemoryStore)) hpolls

/-- Decisions are restored on polls that are stored. -/
theorem contains_of_mem_restorations {s : MemoryStore} (hs : s.Keyed) {height : Height}
    {r : Resolution} (hr : r ∈ s.restorations height) :
    (s.undecide height).polls.contains r.key = true := by
  unfold restorations at hr
  rw [List.map_map] at hr
  obtain ⟨p, hp, rfl⟩ := List.mem_map.1 hr
  obtain ⟨hfind, -⟩ := (mem_decidedAt hs).1 hp
  refine Table.contains_iff.2 ⟨p.undecide height, ?_⟩
  show (s.undecide height).polls.find? p.key = _
  rw [undecide, Table.find?_map, hfind]
  rfl

end MemoryStore

/-- What restoring releases is what was approved. -/
theorem mem_restoredKeys_iff {ps : List Poll} {height : Height} {t : Hash} :
    t ∈ restoredKeys (ps.map (ResolvedPoll.ofPoll height)) ↔ t ∈ approvedKeys ps := by
  rw [mem_restoredKeys, mem_approvedKeys]

/-- It releases nothing twice. -/
theorem nodup_restoredKeys {s : MemoryStore} (hs : s.Keyed) (height : Height) :
    (restoredKeys ((s.decidedAt height).map (ResolvedPoll.ofPoll height))).Nodup := by
  refine (sortBy_perm _ _).nodup_iff.2 ?_
  have hkeys : ((s.decidedAt height).map (ResolvedPoll.ofPoll height)).map ResolvedPoll.key
      = (s.decidedAt height).map Poll.key := by
    rw [List.map_map]
    rfl
  have hnodup := MemoryStore.nodup_decidedAt hs height
  rw [← hkeys] at hnodup
  exact hnodup.sublist (List.filter_sublist.map _)

/-- The decisions of a height that were undone can be restored if nothing stands in the way of
releasing what was approved. -/
theorem restore_restores {v : World MemoryStore SimulatedLedger} {s : MemoryStore} (hs : s.Keyed)
    {height : Height} (hstore : v.store = s.undecide height)
    (h : ∀ t ∈ approvedKeys (s.decidedAt height), v.ledger.Releasable t) :
    ∃ l, (restore ((s.decidedAt height).map (ResolvedPoll.ofPoll height))).start v
        = (.ok (), ⟨s, l⟩) ∧
      SimulatedLedger.Records (some (v.ledger.tip.getD 0)) v.ledger
        (restoredKeys ((s.decidedAt height).map (ResolvedPoll.ofPoll height))) l := by
  obtain ⟨l, hl⟩ := SimulatedLedger.exists_releaseAll (nodup_restoredKeys hs height)
    fun t ht => h t (mem_restoredKeys_iff.1 ht)
  have hwrite : v.store.write (s.restorations height) = s := by
    rw [hstore]
    exact MemoryStore.write_restorations hs height
  have hyields : Yields (S := MemoryStore)
      (restore ((s.decidedAt height).map (ResolvedPoll.ofPoll height))) v
      (fun _ v' => v' = ⟨s, l⟩) (fun _ _ => False) := by
    refine commit_yields (MemoryStore.nodup_restorations hs height) (fun r hr => ?_)
      (fun l' hl' => ?_) (fun e l' hl' => ?_) fun hfallible => hfallible.elim
    · rw [hstore]
      exact MemoryStore.contains_of_mem_restorations hs hr
    · cases hl.symm.trans hl'
      exact congrArg (fun store => (⟨store, l⟩ : World MemoryStore SimulatedLedger)) hwrite
    · cases hl.symm.trans hl'
  refine ⟨l, ?_, SimulatedLedger.records_of_releaseAll hl⟩
  rcases hx : (restore ((s.decidedAt height).map (ResolvedPoll.ofPoll height))).start v with
    ⟨e | ⟨⟩, v'⟩
  · exact (hyields.of_error hx).elim
  · rw [show v' = ⟨s, l⟩ from hyields.of_ok hx]

/-! ## One after another -/

/-- The world with the tip of its ledger moved; it may be unknown. -/
def World.atTip {S : Type} (tip : Option Height) (w : World S SimulatedLedger) :
    World S SimulatedLedger :=
  { w with ledger := { w.ledger with tip } }

section

variable {v v₁ : World MemoryStore SimulatedLedger} {height : Height} {outcomes : Outcomes}

/-- Undoing answers the reverse of what resolving has answered. -/
theorem Outcomes.Decide.reverted_eq (hs : v.store.Keyed) (h : outcomes.Decide height v.store) :
    ((v.store.settle outcomes).decidedAt height).map (ResolvedPoll.ofPoll height)
      = (outcomes.resolved (v.store.pollsWhere (·.finishHeight = height)) height).reverse := by
  rw [h.decidedAt_settle hs, h.resolved_eq hs, List.map_reverse]

/-- **Undoing what has just been resolved** leads back to the world before, but for the tip. -/
theorem Outcomes.Decide.undoHeight_cancels (hs : v.store.Keyed)
    (h : outcomes.Decide height v.store) (hstore : v₁.store = v.store.settle outcomes)
    (hrelease : (releaseAll outcomes.approved).start v.ledger = (.ok (), v₁.ledger))
    (htally : ∀ key p, v.store.polls.find? key = some p → p.finishHeight = height → p.tally = 0)
    (hundo : ∀ t ∈ outcomes.approved, t ∉ v.ledger.failingUndos) (tip : Option Height) :
    (undoHeight height).start (v₁.atTip tip)
      = (.ok (outcomes.resolved (v.store.pollsWhere (·.finishHeight = height)) height).reverse,
          v.atTip tip) := by
  have hrecords := SimulatedLedger.records_of_releaseAll hrelease
  have happroved : ∀ t, t ∈ approvedKeys (v₁.store.decidedAt height) ↔ t ∈ outcomes.approved := by
    rw [hstore]
    exact h.mem_approvedKeys_settle hs
  have hundoable : ∀ t ∈ approvedKeys (v₁.store.decidedAt height),
      (v₁.atTip tip).ledger.Undoable t := by
    intro t ht
    have hmem := (happroved t).1 ht
    obtain ⟨hreleased, hallowed⟩ := hrecords.undoable hmem (hundo t hmem)
    exact ⟨hreleased, hallowed⟩
  have hkeyed : v₁.store.Keyed := by
    rw [hstore]
    exact hs.settle outcomes
  obtain ⟨l, hstart, hundone⟩ := undoHeight_undoes (v := v₁.atTip tip) hkeyed hundoable
  have hanswer : (v₁.store.decidedAt height).map (ResolvedPoll.ofPoll height)
      = (outcomes.resolved (v.store.pollsWhere (·.finishHeight = height)) height).reverse := by
    rw [hstore]
    exact h.reverted_eq hs
  have hback : v₁.store.undecide height = v.store := by
    rw [hstore]
    exact MemoryStore.undecide_settle h htally
  have hsame : (v₁.atTip tip).ledger.released = v₁.ledger.released := rfl
  have hreleased : l.released = v.ledger.released :=
    SimulatedLedger.released_of_records hrecords hsame hundone happroved
  have hledger : l = (v.atTip tip).ledger := by
    rw [hundone.frame, hreleased]
    show ({ v₁.ledger with released := v.ledger.released, tip } : SimulatedLedger) = _
    rw [hrecords.frame]
    rfl
  rw [hstart, hledger]
  show (Except.ok ((v₁.store.decidedAt height).map (ResolvedPoll.ofPoll height)),
    (⟨v₁.store.undecide height, _⟩ : World MemoryStore SimulatedLedger)) = _
  rw [hanswer, hback]
  rfl

/-- **Restoring what has just been undone** leads on to the polls that resolving had led to, and to
the same transactions released. -/
theorem Outcomes.Decide.restore_cancels (hs : v.store.Keyed)
    (h : outcomes.Decide height v.store) (hstore : v₁.store = v.store.settle outcomes)
    (hrelease : (releaseAll outcomes.approved).start v.ledger = (.ok (), v₁.ledger))
    (htally : ∀ key p, v.store.polls.find? key = some p → p.finishHeight = height → p.tally = 0)
    (tip : Option Height) :
    ∃ v₃, (restore (outcomes.resolved (v.store.pollsWhere (·.finishHeight = height))
        height).reverse).start (v.atTip tip) = (.ok (), v₃) ∧
      v₃.store = v₁.store ∧ ∀ t, v₃.ledger.isReleased t = v₁.ledger.isReleased t := by
  have happroved := h.mem_approvedKeys_settle hs
  have hreleasable : ∀ t ∈ approvedKeys ((v.store.settle outcomes).decidedAt height),
      (v.atTip tip).ledger.Releasable t := by
    intro t ht
    obtain ⟨hdeferred, hunreleased, hallowed⟩ :=
      SimulatedLedger.releasable_of_releaseAll hrelease t ((happroved t).1 ht)
    exact ⟨hdeferred, hunreleased, hallowed⟩
  obtain ⟨l, hstart, hrecords⟩ := restore_restores (v := v.atTip tip) (hs.settle outcomes)
    (MemoryStore.undecide_settle h htally).symm hreleasable
  rw [h.reverted_eq hs] at hstart
  refine ⟨_, hstart, hstore.symm, fun t => ?_⟩
  have hagain := (hrecords.setsAll nofun).after t
  have hfirst := ((SimulatedLedger.records_of_releaseAll hrelease).setsAll nofun).after t
  show l.isReleased t = _
  rw [hagain, hfirst]
  simp only [mem_restoredKeys_iff, happroved]
  rfl

end

/-- **Resolving, undoing and restoring are exact inverses.**  For every store in which everything
stands under its own key and the polls due at the height have no tally, and every ledger in which no
release of these polls is kept from being undone: if resolving the height succeeds, then undoing it
succeeds as well, answers the same in reverse and leads back to the polls, votes and releases there
were before.  Resolving it once more, with the tip where it was the first time, answers the same and
leads to the same world; and restoring what the undoing has answered leads to the same polls and
votes and the same released transactions, wherever the tip is. -/
theorem resolve_undo_restore_cancel (v : World MemoryStore SimulatedLedger) (hs : v.store.Keyed)
    (height : Height)
    (htally : ∀ key p, v.store.polls.find? key = some p → p.finishHeight = height → p.tally = 0)
    (hundo : ∀ key p, v.store.polls.find? key = some p → p.finishHeight = height →
      key ∉ v.ledger.failingUndos)
    (resolved : List ResolvedPoll)
    (hresolves : ((resolveHeight height).start v).1 = .ok resolved) :
    let v₁ := ((resolveHeight height).start v).2
    ∀ tip, ∃ v₂, (undoHeight height).start (v₁.atTip tip) = (.ok resolved.reverse, v₂) ∧
      v₂.store = v.store ∧ v₂.ledger.released = v.ledger.released ∧
      (resolveHeight height).start (v₂.atTip v.ledger.tip) = (.ok resolved, v₁) ∧
      ∀ tip', ∃ v₃, (restore resolved.reverse).start (v₂.atTip tip') = (.ok (), v₃) ∧
        v₃.store = v₁.store ∧ ∀ t, v₃.ledger.isReleased t = v₁.ledger.isReleased t := by
  intro v₁ tip
  have hstart : (resolveHeight height).start v = (.ok resolved, v₁) := Prod.ext hresolves rfl
  obtain ⟨outcomes, hdecide, rfl, hstore, hrelease⟩ :=
    (resolveHeight_yields (S := MemoryStore) hs height).of_ok hstart
  have hallowed : ∀ t ∈ outcomes.approved, t ∉ v.ledger.failingUndos := by
    intro t ht
    obtain ⟨o, ho, -⟩ := Outcomes.mem_approved.1 ht
    obtain ⟨p, hp, hheight⟩ := hdecide.keys.1 (Table.contains_iff.2 ⟨o, ho⟩)
    exact hundo t p hp hheight
  -- What undoing leaves differs from the first world in its tip at most, so that resolving again is
  -- resolving for the first time.
  exact ⟨v.atTip tip,
    hdecide.undoHeight_cancels hs hstore hrelease htally hallowed tip, rfl, rfl, hstart,
    fun tip' => hdecide.restore_cancels hs hstore hrelease htally tip'⟩

/-- Four polls of all kinds are decided and three of them released; two blocks later that is undone,
and restored. -/
theorem resolve_undo_restore_cancel_mixed :
    let v : World MemoryStore SimulatedLedger := ⟨.mixed, .mixed⟩
    let v₁ := ((resolveHeight 10).start v).2
    v.store.Keyed ∧
    (∀ key p, v.store.polls.find? key = some p → p.finishHeight = 10 → p.tally = 0) ∧
    (∀ key p, v.store.polls.find? key = some p → p.finishHeight = 10 →
      key ∉ v.ledger.failingUndos) ∧
    ∃ resolved, ((resolveHeight 10).start v).1 = .ok resolved ∧
      resolved.map (fun r => (r.key, r.status)) =
        [(.filled 1, .approved), (.filled 2, .approved), (.filled 3, .rejected),
          (.filled 4, .approved)] ∧
      ∃ v₂, (undoHeight 10).start (v₁.atTip (some 12)) = (.ok resolved.reverse, v₂) ∧
        v₂.store = v.store ∧ v₂.ledger.released = v.ledger.released ∧
        (resolveHeight 10).start (v₂.atTip v.ledger.tip) = (.ok resolved, v₁) ∧
        ∀ tip, ∃ v₃, (restore resolved.reverse).start (v₂.atTip tip) = (.ok (), v₃) ∧
          v₃.store = v₁.store ∧ ∀ t, v₃.ledger.isReleased t = v₁.ledger.isReleased t := by
  intro v v₁
  have hkeyed : v.store.Keyed := MemoryStore.keyed_holding _ _
  have htally : ∀ key p, v.store.polls.find? key = some p → p.finishHeight = 10 →
      p.tally = 0 :=
    hkeyed.forall_due (by decide +kernel)
  have hundo : ∀ key p, v.store.polls.find? key = some p → p.finishHeight = 10 →
      key ∉ v.ledger.failingUndos := fun _ _ _ _ => List.not_mem_nil
  have hanswer : ((resolveHeight 10).start v).1.toOption.map
      (fun resolved => resolved.map fun r => (r.key, r.status)) =
        some [(.filled 1, .approved), (.filled 2, .approved), (.filled 3, .rejected),
          (.filled 4, .approved)] := by
    decide +kernel
  rcases hresolves : ((resolveHeight 10).start v).1 with e | resolved
  · rw [hresolves] at hanswer
    cases hanswer
  · rw [hresolves] at hanswer
    exact ⟨hkeyed, htally, hundo, resolved, rfl, Option.some.inj hanswer,
      resolve_undo_restore_cancel v hkeyed 10 htally hundo resolved hresolves (some 12)⟩

end Finality
