import Finality.Proofs.Table
import Finality.Engine.Resolution
import Finality.Store.Memory

/-!
# The contents of a store

The store in memory is what every other store is compared with, so this file says what its
operations do to its two tables.

* `Keyed` — polls and votes stand under their own keys; every operation that the engine uses keeps
  it so.
* `write`, `applyResolutions_eq` — a batch of changes of status that names each poll once, as one
  change of the whole table.
* `undecide`, `dropBlock`, `takeBack` — the store as it was before a block: the decisions of its
  height undone, and its votes and polls gone.
-/

namespace Finality

namespace MemoryStore

/-! ## Keys -/

/-- Every poll stands under its transaction, and every vote under its poll and voter. -/
structure Keyed (s : MemoryStore) : Prop where
  /-- Polls are found under their transaction. -/
  polls : ∀ {key p}, s.polls.find? key = some p → p.key = key
  /-- Votes are found under their poll and voter. -/
  votes : ∀ {id v}, s.votes.find? id = some v → v.id = id

theorem keyed_empty : Keyed empty where
  polls h := by cases h
  votes h := by cases h

theorem Keyed.insertPoll {s : MemoryStore} (hs : s.Keyed) (p : Poll) :
    Keyed { s with polls := s.polls.insert p.key p } where
  polls := by
    intro key q hq
    rw [Table.find?_insert] at hq
    split at hq
    · rename_i hkey
      cases hq
      exact hkey.symm
    · exact hs.polls hq
  votes := hs.votes

theorem Keyed.insertVote {s : MemoryStore} (hs : s.Keyed) (v : Vote) :
    Keyed { s with votes := s.votes.insert v.id v } where
  polls := hs.polls
  votes := by
    intro id w hw
    rw [Table.find?_insert] at hw
    split at hw
    · rename_i hid
      cases hw
      exact hid.symm
    · exact hs.votes hw

/-- A change of every poll that leaves its key alone. -/
theorem Keyed.mapPolls {s : MemoryStore} (hs : s.Keyed) {f : Hash → Poll → Poll}
    (hf : ∀ key p, (f key p).key = p.key) : Keyed { s with polls := s.polls.map f } where
  polls := by
    intro key q hq
    rw [Table.find?_map, Option.map_eq_some_iff] at hq
    obtain ⟨p, hp, rfl⟩ := hq
    rw [hf, hs.polls hp]
  votes := hs.votes

/-! ## Scans -/

theorem mem_pollsWhere {s : MemoryStore} {fits : Poll → Bool} {p : Poll} :
    p ∈ s.pollsWhere fits ↔ (∃ key, s.polls.find? key = some p) ∧ fits p = true := by
  rw [pollsWhere, List.mem_filter, Table.mem_values_iff]

theorem Keyed.mem_pollsWhere {s : MemoryStore} (hs : s.Keyed) {fits : Poll → Bool} {p : Poll} :
    p ∈ s.pollsWhere fits ↔ s.polls.find? p.key = some p ∧ fits p = true := by
  rw [MemoryStore.mem_pollsWhere]
  refine and_congr_left fun _ => ⟨?_, fun h => ⟨_, h⟩⟩
  rintro ⟨key, hp⟩
  rwa [hs.polls hp]

theorem Keyed.nodup_map_pollsWhere {s : MemoryStore} (hs : s.Keyed) (fits : Poll → Bool) :
    ((s.pollsWhere fits).map Poll.key).Nodup := by
  have hvalues : (s.polls.values.map Poll.key).Nodup :=
    Table.nodup_map_values fun e he => hs.polls ((s.polls.mem_entries_iff e.1 e.2).1 he)
  exact hvalues.sublist (List.filter_sublist.map _)

/-- Scans of polls answer them in ascending order. -/
theorem Keyed.ascending_pollsWhere {s : MemoryStore} (hs : s.Keyed) (fits : Poll → Bool) :
    ((s.pollsWhere fits).map Poll.key).Pairwise fun a b => compare a b = .lt := by
  have hvalues : s.polls.values.map Poll.key = s.polls.keys :=
    Table.map_values_eq_keys fun e he => hs.polls ((s.polls.mem_entries_iff e.1 e.2).1 he)
  have hascending := s.polls.ascending_keys
  rw [← hvalues] at hascending
  exact hascending.sublist (List.filter_sublist.map _)

/-- No voter has two votes on one poll. -/
theorem Keyed.nodup_map_votes {s : MemoryStore} (hs : s.Keyed) :
    (s.votes.values.map Vote.id).Nodup :=
  Table.nodup_map_values fun e he => hs.votes ((s.votes.mem_entries_iff e.1 e.2).1 he)

/-- What holds of all polls that a scan for a height finds holds of all that are due at it. -/
theorem Keyed.forall_due {s : MemoryStore} (hs : s.Keyed) {height : Height}
    {P : Hash → Poll → Prop} (h : ∀ p ∈ s.pollsWhere (·.finishHeight = height), P p.key p) :
    ∀ key p, s.polls.find? key = some p → p.finishHeight = height → P key p := by
  intro key p hp hheight
  have hkey := hs.polls hp
  rw [← hkey] at hp ⊢
  exact h p (hs.mem_pollsWhere.2 ⟨hp, decide_eq_true hheight⟩)

theorem mem_pollsCreatedAt {s : MemoryStore} (hs : s.Keyed) {height : Height} {key : Hash} :
    key ∈ (s.pollsWhere (·.createdHeight = height)).map Poll.key
      ↔ ∃ p, s.polls.find? key = some p ∧ p.createdHeight = height := by
  rw [List.mem_map]
  constructor
  · rintro ⟨p, hp, rfl⟩
    obtain ⟨hfind, hfits⟩ := hs.mem_pollsWhere.1 hp
    exact ⟨p, hfind, by simpa using hfits⟩
  · rintro ⟨p, hfind, hheight⟩
    have hkey := hs.polls hfind
    exact ⟨p, hs.mem_pollsWhere.2 ⟨by rwa [hkey], by simpa using hheight⟩, hkey⟩

theorem mem_votesCastAt {s : MemoryStore} (hs : s.Keyed) {height : Height} {poll : Hash}
    {voter : AccountId} :
    (poll, voter) ∈ s.votesCastAt height
      ↔ ∃ v, s.votes.find? ⟨poll, voter⟩ = some v ∧ v.height = height := by
  rw [votesCastAt, List.mem_map]
  constructor
  · rintro ⟨v, hv, hid⟩
    obtain ⟨hvalue, hheight⟩ := List.mem_filter.1 hv
    obtain ⟨id, hfind⟩ := Table.mem_values_iff.1 hvalue
    have : v.id = ⟨poll, voter⟩ := by
      cases hid
      rfl
    refine ⟨v, ?_, by simpa using hheight⟩
    rwa [← this, hs.votes hfind]
  · rintro ⟨v, hfind, hheight⟩
    have hid : v.id = ⟨poll, voter⟩ := hs.votes hfind
    refine ⟨v, List.mem_filter.2 ⟨Table.mem_values_iff.2 ⟨_, hfind⟩, by simpa using hheight⟩, ?_⟩
    rw [Vote.id, VoteKey.mk.injEq] at hid
    rw [hid.1, hid.2]

/-! ## Changes of status -/

/-- The store with these changes of status, as one change of its table of polls. -/
def write (rs : List Resolution) (s : MemoryStore) : MemoryStore :=
  { s with
    polls := s.polls.map fun key p =>
      match rs.find? fun r => r.key = key with
      | some r => p.resolve r
      | none => p }

theorem write_nil (s : MemoryStore) : s.write [] = s := by
  have hpolls : (s.write []).polls = s.polls := by
    refine Table.ext_find? fun key => ?_
    rw [write, Table.find?_map]
    exact Option.map_id' ..
  exact congrArg (fun polls => ({ s with polls } : MemoryStore)) hpolls

theorem find?_resolve (polls : Table Hash Poll) (r : Resolution) (key : Hash) :
    (resolve polls r).find? key
      = (polls.find? key).map fun p => if r.key = key then p.resolve r else p := by
  unfold resolve
  split
  · rename_i p hp
    rw [Table.find?_insert]
    by_cases hkey : key = r.key
    · subst hkey
      simp [hp]
    · simp [hkey, Ne.symm hkey]
  · rename_i hp
    by_cases hkey : r.key = key
    · subst hkey
      simp [hp]
    · simp [hkey]

/-- Changes of status that name each poll once can be made all at once. -/
theorem find?_foldl_resolve {rs : List Resolution} (hrs : (rs.map Resolution.key).Nodup)
    (polls : Table Hash Poll) (key : Hash) :
    (rs.foldl resolve polls).find? key
      = (polls.find? key).map fun p =>
          match rs.find? fun r => r.key = key with
          | some r => p.resolve r
          | none => p := by
  induction rs generalizing polls with
  | nil => simp
  | cons r rs ih =>
    obtain ⟨hr, hrs⟩ := List.nodup_cons.1 hrs
    rw [List.foldl_cons, ih hrs, find?_resolve, Option.map_map]
    congr 1
    funext p
    by_cases hkey : r.key = key
    · have hnone : rs.find? (fun r => r.key = key) = none := by
        refine List.find?_eq_none.2 fun r' hr' hkey' => hr ?_
        rw [hkey, ← of_decide_eq_true hkey']
        exact List.mem_map_of_mem hr'
      simp [hkey, hnone]
    · simp [hkey]

/-- A batch that names each poll once is written, unless it names a poll that is not stored. -/
theorem applyResolutions_eq {rs : List Resolution} (hrs : (rs.map Resolution.key).Nodup)
    (s : MemoryStore) :
    applyResolutions rs s =
      match rs.find? fun r => !s.polls.contains r.key with
      | some r => .error (.missingPoll r.key)
      | none => .ok (s.write rs) := by
  have hpolls : rs.foldl resolve s.polls = (s.write rs).polls :=
    Table.ext_find? fun key => by rw [find?_foldl_resolve hrs, write, Table.find?_map]
  rw [applyResolutions, hpolls]
  rfl

/-! ## Going back -/

end MemoryStore

/-- The poll as it was before it was decided at a height; a poll that was not is left alone. -/
def Poll.undecide (height : Height) (p : Poll) : Poll :=
  if p.finishHeight = height ∧ p.status.isResolved = true then p.resolve p.reset else p

@[simp] theorem Poll.createdHeight_undecide (height : Height) (p : Poll) :
    (p.undecide height).createdHeight = p.createdHeight := by
  unfold undecide
  split <;> rfl

/-- Left approved are the polls approved at other heights. -/
theorem Poll.status_undecide_eq_approved {height : Height} {p : Poll} :
    (p.undecide height).status = .approved ↔ p.status = .approved ∧ p.finishHeight ≠ height := by
  unfold undecide
  split
  · rename_i hdecided
    simp [resolve, reset, hdecided.1]
  · rename_i hnot
    refine ⟨fun happroved => ⟨happroved, fun hheight => hnot ⟨hheight, ?_⟩⟩, fun h => h.1⟩
    rw [happroved]
    rfl

namespace MemoryStore

/-- The store before the polls of a height were decided. -/
def undecide (height : Height) (s : MemoryStore) : MemoryStore :=
  { s with polls := s.polls.map fun _ => Poll.undecide height }

/-- The store without the votes and polls that the block at a height contains. -/
def dropBlock (height : Height) (s : MemoryStore) : MemoryStore :=
  { polls := s.polls.filter fun _ p => p.createdHeight ≠ height
    votes := s.votes.filter fun _ v => v.height ≠ height }

/-- The store as it was before the block at a height. -/
def takeBack (height : Height) (s : MemoryStore) : MemoryStore :=
  (s.undecide height).dropBlock height

/-- Setting the polls decided at a height back to pending, one change for each, undoes the
decisions of the height. -/
theorem write_reset {s : MemoryStore} (hs : s.Keyed) {height : Height} {ps : List Poll}
    (hps : ∀ p, p ∈ ps ↔
      s.polls.find? p.key = some p ∧ p.finishHeight = height ∧ p.status.isResolved = true) :
    s.write (ps.map Poll.reset) = s.undecide height := by
  have hpolls : (s.write (ps.map Poll.reset)).polls = (s.undecide height).polls := by
    refine Table.ext_find? fun key => ?_
    rw [write, undecide, Table.find?_map, Table.find?_map]
    refine Option.map_congr fun p hp => ?_
    have hkey := hs.polls hp
    unfold Poll.undecide
    split
    · rename_i r hr
      obtain ⟨q, hq, rfl⟩ := List.mem_map.1 (List.mem_of_find?_eq_some hr)
      have hfits := List.find?_some hr
      have hqkey : q.key = key := of_decide_eq_true hfits
      obtain ⟨hstored, hdecided⟩ := (hps q).1 hq
      rw [hqkey, hp] at hstored
      cases hstored
      rw [if_pos hdecided]
    · rename_i hnone
      rw [if_neg]
      intro hdecided
      have hmem : p ∈ ps := (hps p).2 ⟨by rwa [hkey], hdecided⟩
      have := List.find?_eq_none.1 hnone p.reset (List.mem_map_of_mem hmem)
      simp [Poll.reset, hkey] at this
  exact congrArg (fun polls => ({ s with polls } : MemoryStore)) hpolls

theorem Keyed.undecide {s : MemoryStore} (hs : s.Keyed) (height : Height) :
    (s.undecide height).Keyed :=
  hs.mapPolls fun _ p => by
    unfold Poll.undecide
    split <;> rfl

/-- Left are the polls that the block did not create. -/
theorem find?_polls_dropBlock {s : MemoryStore} {height : Height} {key : Hash} {p : Poll} :
    (s.dropBlock height).polls.find? key = some p ↔
      s.polls.find? key = some p ∧ p.createdHeight ≠ height := by
  rw [dropBlock, Table.find?_filter, Option.filter_eq_some_iff, decide_eq_true_iff]

/-- Left are the votes that the block does not contain. -/
theorem find?_votes_dropBlock {s : MemoryStore} {height : Height} {id : VoteKey} {x : Vote} :
    (s.dropBlock height).votes.find? id = some x ↔
      s.votes.find? id = some x ∧ x.height ≠ height := by
  rw [dropBlock, Table.find?_filter, Option.filter_eq_some_iff, decide_eq_true_iff]

theorem Keyed.dropBlock {s : MemoryStore} (hs : s.Keyed) (height : Height) :
    (s.dropBlock height).Keyed where
  polls h := hs.polls (find?_polls_dropBlock.1 h).1
  votes h := hs.votes (find?_votes_dropBlock.1 h).1

/-- Dropping a block that has no contents changes nothing. -/
theorem dropBlock_eq_self {s : MemoryStore} {height : Height}
    (hpolls : ∀ key p, s.polls.find? key = some p → p.createdHeight ≠ height)
    (hvotes : ∀ id x, s.votes.find? id = some x → x.height ≠ height) :
    s.dropBlock height = s := by
  have hpolls' : (s.dropBlock height).polls = s.polls := by
    refine Table.ext_find? fun key => ?_
    rw [dropBlock, Table.find?_filter]
    cases hp : s.polls.find? key with
    | none => rfl
    | some p => simp [hpolls key p hp]
  have hvotes' : (s.dropBlock height).votes = s.votes := by
    refine Table.ext_find? fun id => ?_
    rw [dropBlock, Table.find?_filter]
    cases hx : s.votes.find? id with
    | none => rfl
    | some x => simp [hvotes id x hx]
  exact congr (congrArg MemoryStore.mk hpolls') hvotes'

/-- A poll that a block creates goes with the block. -/
theorem dropBlock_insertPoll {s : MemoryStore} {p : Poll} (hnew : s.polls.find? p.key = none) :
    ({ s with polls := s.polls.insert p.key p } : MemoryStore).dropBlock p.createdHeight
      = s.dropBlock p.createdHeight := by
  have hpolls : (s.polls.insert p.key p).filter (fun _ q => q.createdHeight ≠ p.createdHeight)
      = s.polls.filter fun _ q => q.createdHeight ≠ p.createdHeight := by
    refine Table.ext_find? fun key => ?_
    rw [Table.find?_filter, Table.find?_filter, Table.find?_insert]
    split
    · rename_i hkey
      rw [hkey, hnew]
      simp
    · rfl
  rw [dropBlock, dropBlock, hpolls]

/-- A vote that a block contains goes with the block. -/
theorem dropBlock_insertVote {s : MemoryStore} {x : Vote} (hnew : s.votes.find? x.id = none) :
    ({ s with votes := s.votes.insert x.id x } : MemoryStore).dropBlock x.height
      = s.dropBlock x.height := by
  have hvotes : (s.votes.insert x.id x).filter (fun _ y => y.height ≠ x.height)
      = s.votes.filter fun _ y => y.height ≠ x.height := by
    refine Table.ext_find? fun id => ?_
    rw [Table.find?_filter, Table.find?_filter, Table.find?_insert]
    split
    · rename_i hid
      rw [hid, hnew]
      simp
    · rfl
  rw [dropBlock, dropBlock, hvotes]

/-- No poll was created and no vote cast above a height. -/
structure UpTo (n : Nat) (s : MemoryStore) : Prop where
  /-- Polls were created up to it. -/
  polls : ∀ {key p}, s.polls.find? key = some p → p.createdHeight.toNat ≤ n
  /-- Votes were cast up to it. -/
  votes : ∀ {id x}, s.votes.find? id = some x → x.height.toNat ≤ n

namespace UpTo

variable {n m : Nat} {s : MemoryStore}

theorem empty (n : Nat) : UpTo n .empty where
  polls h := by cases h
  votes h := by cases h

theorem mono (h : s.UpTo n) (hle : n ≤ m) : s.UpTo m where
  polls hp := Nat.le_trans (h.polls hp) hle
  votes hx := Nat.le_trans (h.votes hx) hle

theorem insertPoll (h : s.UpTo n) (key : Hash) {p : Poll} (hp : p.createdHeight.toNat ≤ n) :
    ({ s with polls := s.polls.insert key p } : MemoryStore).UpTo n where
  polls hq := by
    rw [Table.find?_insert] at hq
    split at hq
    · cases hq
      exact hp
    · exact h.polls hq
  votes hx := h.votes hx

theorem insertVote (h : s.UpTo n) (id : VoteKey) {x : Vote} (hx : x.height.toNat ≤ n) :
    ({ s with votes := s.votes.insert id x } : MemoryStore).UpTo n where
  polls hp := h.polls hp
  votes hy := by
    rw [Table.find?_insert] at hy
    split at hy
    · cases hy
      exact hx
    · exact h.votes hy

/-- There is nothing to drop of a block above. -/
theorem dropBlock_eq_self (h : s.UpTo n) {height : Height} (hlt : n < height.toNat) :
    s.dropBlock height = s := by
  refine MemoryStore.dropBlock_eq_self ?_ ?_
  · intro key p hp heq
    have hle := h.polls hp
    rw [heq] at hle
    omega
  · intro id x hx heq
    have hle := h.votes hx
    rw [heq] at hle
    omega

/-- What is below without a block is not above the block with it. -/
theorem of_dropBlock {height : Height} (h : (s.dropBlock height).UpTo n) (hle : n ≤ height.toNat) :
    s.UpTo height.toNat where
  polls := by
    intro key p hp
    by_cases hnew : p.createdHeight = height
    · simp [hnew]
    · exact Nat.le_trans (h.polls (find?_polls_dropBlock.2 ⟨hp, hnew⟩)) hle
  votes := by
    intro id x hx
    by_cases hnew : x.height = height
    · simp [hnew]
    · exact Nat.le_trans (h.votes (find?_votes_dropBlock.2 ⟨hx, hnew⟩)) hle

end UpTo

/-- Removing the votes and the polls of a block one after another removes the block. -/
theorem eraseAll_eq_dropBlock {s : MemoryStore} (hs : s.Keyed) (height : Height) :
    ({ polls := s.polls.eraseAll ((s.pollsWhere (·.createdHeight = height)).map Poll.key)
       votes := s.votes.eraseAll ((s.votesCastAt height).map fun id => ⟨id.1, id.2⟩) } :
        MemoryStore)
      = s.dropBlock height := by
  rw [dropBlock, MemoryStore.mk.injEq]
  constructor
  · refine Table.eraseAll_eq_filter fun {key p} hp => ?_
    rw [mem_pollsCreatedAt hs]
    simp [hp]
  · refine Table.eraseAll_eq_filter fun {id v} hv => ?_
    have hmem : id ∈ ((s.votesCastAt height).map fun id => (⟨id.1, id.2⟩ : VoteKey))
        ↔ (id.poll, id.voter) ∈ s.votesCastAt height := by
      rw [List.mem_map]
      exact ⟨fun ⟨i, hi, heq⟩ => heq ▸ hi, fun hi => ⟨_, hi, rfl⟩⟩
    rw [hmem, mem_votesCastAt hs]
    simp [hv]

end MemoryStore

end Finality
