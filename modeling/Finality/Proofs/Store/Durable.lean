import Finality.Proofs.Record.RoundTrip
import Finality.Proofs.Store.Index
import Finality.Proofs.Store.Memory
import Finality.Store.Durable

/-!
# The durable store is a store in memory

`MemoryStore.image` lays a store in memory out as the seven tables of a durable store.  The image of
a store answers every call as the store itself does, and after the call it is the image of what the
store has become.

* `MemoryStore.size_image` — the image has one entry for each poll or vote in each of its tables.
* `Reflects` — one call behaves on the image as another one on the store; one lemma for each call.
* `StoreRequest.reflects`, `StoreRequest.storable` — all calls, and what they keep.
* `durable_store_refines_memory` — sequences of calls, with the store opened again now and then.
-/

namespace Finality

/-! ## Keys -/

/-- A beginning that is as long as the first part is the first part. -/
theorem prefix_append_iff {start part rest : Bytes} (hlength : start.length = part.length) :
    start <+: part ++ rest ↔ part = start := by
  constructor
  · rintro ⟨other, h⟩
    exact (List.append_inj h hlength).1.symm
  · rintro rfl
    exact List.prefix_append _ _

namespace Keys

theorem distinguishes_hash :
    Table.Distinguishes fun (key : Hash) (_ : Poll) => key.bytes :=
  fun _ _ _ _ h => Hash.ext_bytes h

theorem distinguishes_append {part : Poll → Bytes} :
    Table.Distinguishes fun (key : Hash) (p : Poll) => part p ++ key.bytes := by
  intro key p key' p' h
  exact Hash.ext_bytes (List.append_inj' h (by rw [key.length_bytes, key'.length_bytes])).2

theorem distinguishes_vote :
    Table.Distinguishes fun (id : VoteKey) (_ : Vote) => vote id.poll id.voter := by
  rintro ⟨poll, voter⟩ _ ⟨poll', voter'⟩ _ h
  obtain ⟨rfl, rfl⟩ := vote_inj.1 h
  rfl

theorem distinguishes_heightVote :
    Table.Distinguishes fun (id : VoteKey) (x : Vote) => heightVote x.height id.poll id.voter := by
  rintro ⟨poll, voter⟩ _ ⟨poll', voter'⟩ _ h
  obtain ⟨-, rfl, rfl⟩ := heightVote_inj.1 h
  rfl

end Keys

/-! ## The image -/

namespace MemoryStore

/-- The seven tables that show the polls and votes of a store: a record for each, and an empty entry
under each of its composite keys. -/
def image (s : MemoryStore) : Database where
  polls := s.polls.index (fun key _ => key.bytes) fun _ p => Layout.poll.encode p
  pollsByFinish := s.polls.index (fun key p => Keys.heightHash p.finishHeight key) fun _ _ => []
  pollsByAccount := s.polls.index (fun key p => Keys.accountHash p.account key) fun _ _ => []
  pollsByCreation := s.polls.index (fun key p => Keys.heightHash p.createdHeight key) fun _ _ => []
  votes := s.votes.index (fun id _ => Keys.vote id.poll id.voter) fun _ x => Layout.vote.encode x
  votesByHeight :=
    s.votes.index (fun id x => Keys.heightVote x.height id.poll id.voter) fun _ _ => []
  versions :=
    (∅ : Table Bytes Bytes).insert Database.versionKey
      (littleEndian 4 Database.currentVersion.toNat)

/-- **No table of the image has an entry too few or too many**: there is one for each poll or vote,
and one that says the version. -/
theorem size_image (s : MemoryStore) (name : TableName) :
    (s.image.table name).size =
      match name with
      | .polls | .pollsByFinish | .pollsByAccount | .pollsByCreation => s.polls.size
      | .votes | .votesByHeight => s.votes.size
      | .versions => 1 := by
  cases name <;> dsimp only [Database.table, image, Keys.heightHash, Keys.accountHash]
  case polls => exact Table.size_index Keys.distinguishes_hash
  case pollsByFinish => exact Table.size_index Keys.distinguishes_append
  case pollsByAccount => exact Table.size_index Keys.distinguishes_append
  case pollsByCreation => exact Table.size_index Keys.distinguishes_append
  case votes => exact Table.size_index Keys.distinguishes_vote
  case votesByHeight => exact Table.size_index Keys.distinguishes_heightVote
  case versions => rfl

/-- A store that can be laid out without loss. -/
structure Storable (s : MemoryStore) : Prop where
  /-- Everything stands under its own key. -/
  keyed : s.Keyed
  /-- Every poll can be written. -/
  writable : ∀ {key p}, s.polls.find? key = some p → p.Writable

theorem storable_empty : empty.Storable where
  keyed := keyed_empty
  writable h := by cases h

/-- Opening the durable store marks it with the version, once. -/
theorem opened_empty : Database.empty.opened = .ok empty.image := rfl

theorem opened_image (s : MemoryStore) : s.image.opened = .ok s.image := rfl

end MemoryStore

/-! ## Reading -/

theorem readRecord_encode {α : Type} {l : Layout α} {x : α} (h : l.ReadsBack x) :
    Database.readRecord l (l.encode x) = .ok x := by
  have hread := h []
  rw [List.append_nil] at hread
  rw [Database.readRecord, hread]

theorem mapM_eq_ok {α β ε : Type} {f : α → Except ε β} {g : α → β} {xs : List α}
    (h : ∀ x ∈ xs, f x = .ok (g x)) : xs.mapM f = .ok (xs.map g) := by
  induction xs with
  | nil => rfl
  | cons x xs ih =>
    obtain ⟨hx, hxs⟩ := List.forall_mem_cons.1 h
    rw [List.mapM_cons, hx, ih hxs]
    rfl

namespace MemoryStore

variable {s : MemoryStore}

/-- The record of a poll is found under its transaction. -/
theorem find?_image_polls (key : Hash) :
    s.image.polls.find? key.bytes = (s.polls.find? key).map Layout.poll.encode :=
  Table.find?_index Keys.distinguishes_hash key

/-- The record of a vote is found under its poll and voter. -/
theorem find?_image_votes (id : VoteKey) :
    s.image.votes.find? (Keys.vote id.poll id.voter)
      = (s.votes.find? id).map Layout.vote.encode :=
  Table.find?_index Keys.distinguishes_vote id

/-- The poll of a transaction is read from its record. -/
theorem Storable.readPoll (hs : s.Storable) (key : Hash) :
    s.image.readPoll key = .ok (s.polls.find? key) := by
  rw [Database.readPoll, find?_image_polls]
  cases hp : s.polls.find? key with
  | none => rfl
  | some p =>
    dsimp only [Option.map_some]
    rw [readRecord_encode (Layout.readsBack_poll (hs.writable hp))]
    rfl

/-- The vote of an account on a poll is read from its record. -/
theorem readVote_image (poll : Hash) (voter : AccountId) :
    s.image.readVote poll voter = .ok (s.votes.find? ⟨poll, voter⟩) := by
  rw [Database.readVote, find?_image_votes ⟨poll, voter⟩]
  cases s.votes.find? ⟨poll, voter⟩ with
  | none => rfl
  | some x =>
    dsimp only [Option.map_some]
    rw [readRecord_encode (Layout.readsBack_vote x)]
    rfl

/-- Scanning an index of polls meets the polls with the same first part, by hash. -/
theorem mapM_scan_index {α : Type} {part : Poll → Bytes} {start : Bytes} {fits : Poll → Bool}
    {f : Bytes → Except DatabaseError α} {g : Hash → Poll → α}
    (hlength : ∀ p, start.length = (part p).length) (hfits : ∀ p, part p = start ↔ fits p = true)
    (hf : ∀ key p, s.polls.find? key = some p → f (part p ++ key.bytes) = .ok (g key p)) :
    ((s.polls.index (fun key p => part p ++ key.bytes) fun _ _ => []).scan start).mapM
        (fun e => f e.1)
      = .ok ((s.polls.entries.filter fun e => fits e.2).map fun e => g e.1 e.2) := by
  have hscan : (s.polls.index (fun key p => part p ++ key.bytes) fun _ _ => []).scan start
      = (s.polls.entries.filter fun e => fits e.2).map
          fun e => (part e.2 ++ e.1.bytes, ([] : Bytes)) := by
    refine Table.scan_index Keys.distinguishes_append start (fun _ p => fits p) ?_ ?_
    · intro key p
      rw [prefix_append_iff (hlength p), hfits]
    · intro key p key' p' hp hp' hlt
      rw [(hfits p).2 hp, (hfits p').2 hp', compare_append rfl, Std.compare_self]
      exact hlt
  rw [hscan, List.mapM_map]
  refine mapM_eq_ok fun e he => ?_
  exact hf e.1 e.2 ((s.polls.mem_entries_iff e.1 e.2).1 (List.mem_filter.1 he).1)

/-- The polls that an index leads to. -/
theorem Storable.pollsUnder (hs : s.Storable) {part : Poll → Bytes} {start : Bytes}
    {fits : Poll → Bool} (hpart : ∀ p, (part p).length = 8) (hstart : start.length = 8)
    (hfits : ∀ p, part p = start ↔ fits p = true) :
    s.image.pollsUnder (s.polls.index (fun key p => part p ++ key.bytes) fun _ _ => []) start
      = .ok (s.pollsWhere fits) := by
  have hread : ∀ key p, s.polls.find? key = some p →
      s.image.indexedPoll (part p ++ key.bytes) = .ok p := by
    intro key p hp
    rw [Database.indexedPoll, Database.indexedHash, Keys.hashSuffix?_append (hpart p)]
    change (s.image.readPoll key >>= _) = _
    rw [hs.readPoll, hp]
    rfl
  rw [Database.pollsUnder, mapM_scan_index (fun p => hstart.trans (hpart p).symm) hfits hread,
    pollsWhere, Table.values, List.filter_map]
  rfl

theorem Storable.pollsFinishingAt (hs : s.Storable) (height : Height) :
    s.image.pollsUnder s.image.pollsByFinish (heightBytes height)
      = .ok (s.pollsWhere (·.finishHeight = height)) :=
  hs.pollsUnder (fun _ => Keys.length_heightBytes _) (Keys.length_heightBytes _) fun p => by
    rw [decide_eq_true_iff, heightBytes_inj]

theorem Storable.pollsOf (hs : s.Storable) (account : AccountId) :
    s.image.pollsUnder s.image.pollsByAccount account.toBytes
      = .ok (s.pollsWhere (·.account = account)) :=
  hs.pollsUnder (fun _ => length_bigEndian 8 _) (length_bigEndian 8 _) fun p => by
    rw [decide_eq_true_iff, AccountId.toBytes_inj]

/-- The transactions that the index by creation height leads to. -/
theorem Storable.pollsCreatedAt (hs : s.Storable) (height : Height) :
    s.image.pollsCreatedAt height
      = .ok ((s.pollsWhere (·.createdHeight = height)).map Poll.key) := by
  have hlength : ∀ p : Poll,
      (heightBytes height).length = (heightBytes p.createdHeight).length := by simp
  have hfits : ∀ p : Poll, heightBytes p.createdHeight = heightBytes height ↔
      decide (p.createdHeight = height) = true := by
    intro p
    rw [decide_eq_true_iff, heightBytes_inj]
  have hread : ∀ key p, s.polls.find? key = some p →
      Database.indexedHash (heightBytes p.createdHeight ++ key.bytes) = .ok key := by
    intro key p _
    rw [Database.indexedHash, Keys.hashSuffix?_append (Keys.length_heightBytes _)]
  have hscan := mapM_scan_index hlength hfits hread
  rw [Database.pollsCreatedAt]
  refine hscan.trans (congrArg Except.ok ?_)
  rw [pollsWhere, Table.values, List.filter_map, List.map_map]
  refine List.map_congr_left fun e he => ?_
  exact (hs.keyed.polls ((s.polls.mem_entries_iff e.1 e.2).1 (List.mem_filter.1 he).1)).symm

/-- The votes on a poll are read from the records that begin with it. -/
theorem votesOn_image (poll : Hash) : s.image.votesOn poll = .ok (s.votesOn poll) := by
  have hscan : s.image.votes.scan poll.bytes
      = (s.votes.entries.filter fun e => e.1.poll = poll).map
          fun e => (Keys.vote e.1.poll e.1.voter, Layout.vote.encode e.2) := by
    refine Table.scan_index Keys.distinguishes_vote poll.bytes (fun id _ => id.poll = poll) ?_ ?_
    · intro id x
      rw [Keys.vote, prefix_append_iff (by rw [poll.length_bytes, id.poll.length_bytes]),
        decide_eq_true_iff]
      exact ⟨Hash.ext_bytes, congrArg Hash.bytes⟩
    · intro id x id' x' _ _ hlt
      rw [Keys.compare_vote]
      exact hlt
  rw [Database.votesOn, hscan, List.mapM_map]
  exact mapM_eq_ok fun e _ => readRecord_encode (Layout.readsBack_vote e.2)

/-- The votes of a block are read from the index by height. -/
theorem Storable.votesCastAt (hs : s.Storable) (height : Height) :
    s.image.votesCastAt height = .ok (s.votesCastAt height) := by
  have hscan : s.image.votesByHeight.scan (heightBytes height)
      = (s.votes.entries.filter fun e => e.2.height = height).map
          fun e => (Keys.heightVote e.2.height e.1.poll e.1.voter, ([] : Bytes)) := by
    refine Table.scan_index Keys.distinguishes_heightVote (heightBytes height)
      (fun _ x => x.height = height) ?_ ?_
    · intro id x
      rw [Keys.heightVote, prefix_append_iff (by simp), decide_eq_true_iff, heightBytes_inj]
    · intro id x id' x' hx hx' hlt
      rw [of_decide_eq_true hx, of_decide_eq_true hx', Keys.compare_heightVote, Std.compare_self]
      exact hlt
  rw [Database.votesCastAt, hscan, List.mapM_map]
  refine (mapM_eq_ok (g := fun e => (e.1.poll, e.1.voter)) fun e _ => ?_).trans ?_
  · simp only [Function.comp, Keys.drop_heightVote, Keys.splitVote?_vote]
  · rw [MemoryStore.votesCastAt, Table.values, List.filter_map, List.map_map]
    refine congrArg Except.ok (List.map_congr_left fun e he => ?_)
    have hid := hs.keyed.votes ((s.votes.mem_entries_iff e.1 e.2).1 (List.mem_filter.1 he).1)
    rw [← hid]
    rfl

/-! ## Writing -/

/-- Whether a poll is there shows in the table of records. -/
theorem contains_image_polls (key : Hash) :
    s.image.polls.contains key.bytes = s.polls.contains key := by
  rw [Table.contains, Table.contains, find?_image_polls, Option.isSome_map]

/-- Whether a vote is there shows in the table of records. -/
theorem contains_image_votes (id : VoteKey) :
    s.image.votes.contains (Keys.vote id.poll id.voter) = s.votes.contains id := by
  rw [Table.contains, Table.contains, find?_image_votes, Option.isSome_map]

/-- A poll is added with its entries. -/
theorem insertPoll_image (p : Poll) :
    s.image.insertPoll p = (s.insertPoll p).map MemoryStore.image := by
  rw [Database.insertPoll, insertPoll, contains_image_polls]
  cases hp : s.polls.contains p.key with
  | true => rfl
  | false =>
    have hnone := Table.contains_eq_false_iff.1 hp
    refine congrArg Except.ok ?_
    simp only [image, Keys.heightHash, Keys.accountHash]
    rw [Table.index_insert_new Keys.distinguishes_hash hnone,
      Table.index_insert_new Keys.distinguishes_append hnone,
      Table.index_insert_new Keys.distinguishes_append hnone,
      Table.index_insert_new Keys.distinguishes_append hnone]

/-- A poll is removed with its entries. -/
theorem Storable.deletePoll (hs : s.Storable) (key : Hash) :
    s.image.deletePoll key
      = .ok (s.polls.contains key, image { s with polls := s.polls.erase key }) := by
  rw [Database.deletePoll, hs.readPoll]
  cases hp : s.polls.find? key with
  | none =>
    rw [Table.erase_eq_self hp, Table.contains, hp]
    rfl
  | some p =>
    rw [Table.contains, hp]
    refine congrArg (fun db => Except.ok (true, db)) ?_
    simp only [image, Keys.heightHash, Keys.accountHash]
    rw [Table.index_erase Keys.distinguishes_hash hp,
      Table.index_erase Keys.distinguishes_append hp,
      Table.index_erase Keys.distinguishes_append hp,
      Table.index_erase Keys.distinguishes_append hp]

/-- A change of status goes into the record alone, since no index shows the status. -/
theorem image_insert_resolve {key : Hash} {p : Poll} (hp : s.polls.find? key = some p)
    (r : Resolution) :
    image { s with polls := s.polls.insert key (p.resolve r) }
      = { s.image with
          polls := s.image.polls.insert key.bytes (Layout.poll.encode (p.resolve r)) } := by
  have hindex : ∀ part : Poll → Bytes, part (p.resolve r) = part p →
      (s.polls.insert key (p.resolve r)).index (fun key p => part p ++ key.bytes) (fun _ _ => [])
        = s.polls.index (fun key p => part p ++ key.bytes) fun _ _ => [] := by
    intro part hpart
    rw [Table.index_insert Keys.distinguishes_append, hpart, Table.insert_eq_self]
    · exact (Table.find?_index_iff Keys.distinguishes_append).2 ⟨key, p, hp, rfl, rfl⟩
    · intro q hq
      cases hp.symm.trans hq
      rw [hpart]
  simp only [image, Keys.heightHash, Keys.accountHash]
  rw [Table.index_insert Keys.distinguishes_hash fun _ _ => rfl,
    hindex (fun p => heightBytes p.finishHeight) rfl, hindex (fun p => p.account.toBytes) rfl,
    hindex (fun p => heightBytes p.createdHeight) rfl]

/-- One change of status. -/
theorem Storable.applyResolution (hs : s.Storable) (r : Resolution) :
    s.image.applyResolution r =
      if s.polls.contains r.key then .ok (image { s with polls := resolve s.polls r })
      else .error (.missingPoll r.key) := by
  rw [Database.applyResolution, hs.readPoll, Table.contains, resolve]
  cases hp : s.polls.find? r.key with
  | none => rfl
  | some p =>
    rw [image_insert_resolve hp]
    rfl

theorem contains_resolve (polls : Table Hash Poll) (r : Resolution) (key : Hash) :
    (resolve polls r).contains key = polls.contains key := by
  rw [Table.contains, find?_resolve, Option.isSome_map, Table.contains]

/-- Changing a status changes neither keys nor lists. -/
theorem Storable.resolve (hs : s.Storable) (r : Resolution) :
    Storable { s with polls := MemoryStore.resolve s.polls r } where
  keyed := by
    refine ⟨fun {key p} hp => ?_, hs.keyed.votes⟩
    rw [find?_resolve, Option.map_eq_some_iff] at hp
    obtain ⟨q, hq, rfl⟩ := hp
    have hkey := hs.keyed.polls hq
    split <;> exact hkey
  writable := by
    intro key p hp
    rw [find?_resolve, Option.map_eq_some_iff] at hp
    obtain ⟨q, hq, rfl⟩ := hp
    have hq' := hs.writable hq
    split <;> exact ⟨hq'.whitelist, hq'.links⟩

/-- **Changes of status**, one after another, are the batch that is checked first: if a poll is
missing, it is the same one. -/
theorem Storable.applyResolutions (hs : s.Storable) (rs : List Resolution) :
    s.image.applyResolutions rs = (s.applyResolutions rs).map MemoryStore.image := by
  induction rs generalizing s with
  | nil => rfl
  | cons r rs ih =>
    have hcons : s.image.applyResolutions (r :: rs)
        = s.image.applyResolution r >>= Database.applyResolutions rs := List.foldlM_cons
    rw [hcons, hs.applyResolution, MemoryStore.applyResolutions]
    cases hp : s.polls.contains r.key with
    | false =>
      rw [List.find?_cons_of_pos (by simp [hp])]
      rfl
    | true =>
      have hrest := ih (hs.resolve r)
      rw [MemoryStore.applyResolutions] at hrest
      simp only [contains_resolve] at hrest
      rw [List.find?_cons_of_neg (by simp [hp])]
      exact hrest

/-- A vote is added with its entry. -/
theorem insertVote_image (x : Vote) :
    s.image.insertVote x = (s.insertVote x).map MemoryStore.image := by
  have hcontains : s.image.votes.contains (Keys.vote x.poll x.voter) = s.votes.contains x.id :=
    contains_image_votes x.id
  rw [Database.insertVote, insertVote, hcontains]
  cases hx : s.votes.contains x.id with
  | true => rfl
  | false =>
    have hnone := Table.contains_eq_false_iff.1 hx
    refine congrArg Except.ok ?_
    simp only [image]
    rw [Table.index_insert_new Keys.distinguishes_vote hnone,
      Table.index_insert_new Keys.distinguishes_heightVote hnone]
    rfl

/-- A vote is removed with its entry. -/
theorem deleteVote_image (poll : Hash) (voter : AccountId) :
    s.image.deleteVote poll voter
      = .ok (s.votes.contains ⟨poll, voter⟩,
          image { s with votes := s.votes.erase ⟨poll, voter⟩ }) := by
  rw [Database.deleteVote, readVote_image]
  cases hx : s.votes.find? ⟨poll, voter⟩ with
  | none =>
    rw [Table.erase_eq_self hx, Table.contains, hx]
    rfl
  | some x =>
    rw [Table.contains, hx]
    refine congrArg (fun db => Except.ok (true, db)) ?_
    simp only [image]
    rw [Table.index_erase Keys.distinguishes_vote hx,
      Table.index_erase Keys.distinguishes_heightVote hx]

/-! ## What stays storable -/

theorem Storable.insertPoll (hs : s.Storable) {p : Poll} (hp : p.Writable) :
    Storable { s with polls := s.polls.insert p.key p } where
  keyed := hs.keyed.insertPoll p
  writable := by
    intro key q hq
    rw [Table.find?_insert] at hq
    split at hq
    · cases hq
      exact hp
    · exact hs.writable hq

theorem Storable.erasePoll (hs : s.Storable) (key : Hash) :
    Storable { s with polls := s.polls.erase key } := by
  have hold : ∀ {key' p}, (s.polls.erase key).find? key' = some p →
      s.polls.find? key' = some p := by
    intro key' p hp
    rw [Table.find?_erase] at hp
    split at hp
    · cases hp
    · exact hp
  exact ⟨⟨fun hp => hs.keyed.polls (hold hp), hs.keyed.votes⟩, fun hp => hs.writable (hold hp)⟩

theorem Storable.applyResolutions_foldl (hs : s.Storable) (rs : List Resolution) :
    Storable { s with polls := rs.foldl MemoryStore.resolve s.polls } := by
  induction rs generalizing s with
  | nil => exact hs
  | cons r rs ih => exact ih (hs.resolve r)

theorem Storable.insertVote (hs : s.Storable) (x : Vote) :
    Storable { s with votes := s.votes.insert x.id x } where
  keyed := hs.keyed.insertVote x
  writable := hs.writable

theorem Storable.eraseVote (hs : s.Storable) (id : VoteKey) :
    Storable { s with votes := s.votes.erase id } where
  keyed := by
    refine ⟨hs.keyed.polls, fun {id' x} hx => ?_⟩
    rw [Table.find?_erase] at hx
    split at hx
    · cases hx
    · exact hs.keyed.votes hx
  writable := hs.writable

end MemoryStore

/-! ## Calls -/

/-- Started on the image of a store, the one action answers what the other one answers on the
store, and leaves the image of what that leaves. -/
def Reflects {α : Type} (s : MemoryStore) (x : Action Database StoreError α)
    (y : Action MemoryStore StoreError α) : Prop :=
  x.start s.image = ((y.start s).1, (y.start s).2.image)

namespace Reflects

variable {α β : Type} {s : MemoryStore}

theorem map {x : Action Database StoreError α} {y : Action MemoryStore StoreError α}
    (h : Reflects s x y) (f : α → β) :
    Reflects s (do return f (← x)) (do return f (← y)) := by
  rw [Reflects, Action.start_bind, Action.start_bind, h]
  rcases y.start s with ⟨e | a, s'⟩ <;> rfl

theorem reading {f : Database → Except DatabaseError α} {g : MemoryStore → α}
    (h : f s.image = .ok (g s)) :
    Reflects s (Database.reading f) (Action.query fun s => .ok (g s)) := by
  rw [Reflects, Database.reading, Action.start_query, Action.start_query, h]
  rfl

theorem query {f : Database → Except StoreError α} {g : MemoryStore → Except StoreError α}
    (h : f s.image = g s) : Reflects s (Action.query f) (Action.query g) := by
  rw [Reflects, Action.start_query, Action.start_query, h]

theorem transaction {f : Database → Except StoreError (α × Database)}
    {g : MemoryStore → Except StoreError (α × MemoryStore)}
    (h : f s.image = (g s).map fun r => (r.1, r.2.image)) :
    Reflects s (Action.transaction f) (Action.transaction g) := by
  rw [Reflects, Action.start_transaction, Action.start_transaction, h]
  rcases g s with e | ⟨a, s'⟩ <;> rfl

/-- A transaction that answers nothing. -/
theorem transaction_unit {f : Database → Except StoreError Database}
    {g : MemoryStore → Except StoreError MemoryStore}
    (h : f s.image = (g s).map MemoryStore.image) :
    Reflects s (Action.transaction fun db => (f db).map ((), ·))
      (Action.transaction fun s => (g s).map ((), ·)) := by
  refine transaction ?_
  rw [h]
  cases g s <;> rfl

end Reflects

/-- A call of a store with what it is about. -/
inductive StoreRequest where
  /-- Adds a poll. -/
  | insertPoll (p : Poll)
  /-- The poll of a transaction. -/
  | findPoll (key : Hash)
  /-- Removes the poll of a transaction. -/
  | deletePoll (key : Hash)
  /-- The polls that finish at a height. -/
  | pollsFinishingAt (height : Height)
  /-- The polls that an account submitted. -/
  | pollsOf (account : AccountId)
  /-- The transactions whose polls were created at a height. -/
  | pollsCreatedAt (height : Height)
  /-- The undecided polls that finish at a height. -/
  | pendingFinishingAt (height : Height)
  /-- The undecided polls that an account submitted. -/
  | pendingOf (account : AccountId)
  /-- Writes changes of status. -/
  | applyResolutions (rs : List Resolution)
  /-- The number of polls. -/
  | countPolls
  /-- Adds a vote. -/
  | insertVote (x : Vote)
  /-- The vote of an account on a poll. -/
  | findVote (poll : Hash) (voter : AccountId)
  /-- The votes on a poll. -/
  | votesOn (poll : Hash)
  /-- Removes a vote. -/
  | deleteVote (poll : Hash) (voter : AccountId)
  /-- Poll and voter of the votes that the block at a height contains. -/
  | votesCastAt (height : Height)
  /-- The number of votes on a poll. -/
  | countVotes (poll : Hash)

/-- What a store answers if it does not fail. -/
inductive StoreReply where
  /-- It is done. -/
  | done
  /-- The poll asked for. -/
  | poll (p : Option Poll)
  /-- The vote asked for. -/
  | vote (x : Option Vote)
  /-- Whether there was anything to remove. -/
  | removed (existed : Bool)
  /-- The polls asked for. -/
  | polls (ps : List Poll)
  /-- The transactions asked for. -/
  | keys (keys : List Hash)
  /-- The votes asked for. -/
  | votes (xs : List Vote)
  /-- Poll and voter of the votes asked for. -/
  | voteKeys (ids : List (Hash × AccountId))
  /-- How many polls there are. -/
  | pollCount (n : Nat)
  /-- How many votes there are. -/
  | voteCount (n : Amount)
deriving DecidableEq

namespace StoreRequest

/-- The call itself. -/
def action {σ : Type} [PollStore σ] [VoteStore σ] :
    StoreRequest → Action σ StoreError StoreReply
  | .insertPoll p => do PollStore.insertPoll p; return .done
  | .findPoll key => do return .poll (← PollStore.findPoll key)
  | .deletePoll key => do return .removed (← PollStore.deletePoll key)
  | .pollsFinishingAt height => do return .polls (← PollStore.pollsFinishingAt height)
  | .pollsOf account => do return .polls (← PollStore.pollsOf account)
  | .pollsCreatedAt height => do return .keys (← PollStore.pollsCreatedAt height)
  | .pendingFinishingAt height => do return .polls (← Finality.pendingFinishingAt height)
  | .pendingOf account => do return .polls (← Finality.pendingOf account)
  | .applyResolutions rs => do PollStore.applyResolutions rs; return .done
  | .countPolls => do return .pollCount (← PollStore.countPolls)
  | .insertVote x => do VoteStore.insertVote x; return .done
  | .findVote poll voter => do return .vote (← VoteStore.findVote poll voter)
  | .votesOn poll => do return .votes (← VoteStore.votesOn poll)
  | .deleteVote poll voter => do return .removed (← VoteStore.deleteVote poll voter)
  | .votesCastAt height => do return .voteKeys (← VoteStore.votesCastAt height)
  | .countVotes poll => do return .voteCount (← Finality.countVotes poll)

variable {s : MemoryStore}

/-- **Every call** behaves on the image as on the store. -/
theorem reflects (hs : s.Storable) (c : StoreRequest) : Reflects s c.action c.action := by
  cases c with
  | insertPoll p => exact .map (.transaction_unit (s.insertPoll_image p)) _
  | findPoll key => exact .map (.reading (hs.readPoll key)) _
  | deletePoll key =>
    refine .map (.transaction ?_) _
    rw [hs.deletePoll]
    rfl
  | pollsFinishingAt height => exact .map (.reading (hs.pollsFinishingAt height)) _
  | pollsOf account => exact .map (.reading (hs.pollsOf account)) _
  | pollsCreatedAt height => exact .map (.reading (hs.pollsCreatedAt height)) _
  | pendingFinishingAt height =>
    exact .map (.map (.reading (hs.pollsFinishingAt height)) _) _
  | pendingOf account => exact .map (.map (.reading (hs.pollsOf account)) _) _
  | applyResolutions rs => exact .map (.transaction_unit (hs.applyResolutions rs)) _
  | countPolls => exact .map (.query (congrArg Except.ok (s.size_image .polls))) _
  | insertVote x => exact .map (.transaction_unit (s.insertVote_image x)) _
  | findVote poll voter => exact .map (.reading (MemoryStore.readVote_image poll voter)) _
  | votesOn poll => exact .map (.reading (MemoryStore.votesOn_image poll)) _
  | deleteVote poll voter =>
    refine .map (.transaction ?_) _
    rw [MemoryStore.deleteVote_image]
    rfl
  | votesCastAt height => exact .map (.reading (hs.votesCastAt height)) _
  | countVotes poll => exact .map (.map (.reading (MemoryStore.votesOn_image poll)) _) _

/-- A change keeps a store fit to be laid out if it does when it succeeds. -/
theorem storable_write {f : MemoryStore → Except StoreError MemoryStore} {reply : StoreReply}
    (hs : s.Storable) (hf : ∀ s', f s = .ok s' → s'.Storable) :
    ((do Action.transaction fun s => (f s).map ((), ·); return reply :
      Action MemoryStore StoreError StoreReply).start s).2.Storable := by
  rw [Action.start_bind, Action.start_transaction]
  cases h : f s with
  | ok s' => exact hf s' h
  | error e => exact hs

/-- **Every call keeps a store fit to be laid out**, if a poll that it adds can be written. -/
theorem storable (hs : s.Storable) {c : StoreRequest}
    (hc : ∀ p, c = .insertPoll p → p.Writable) :
    ((c.action : Action MemoryStore StoreError StoreReply).start s).2.Storable := by
  cases c with
  | insertPoll p =>
    refine storable_write hs fun s' h => ?_
    rw [MemoryStore.insertPoll] at h
    split at h
    · cases h
    · cases h
      exact hs.insertPoll (hc p rfl)
  | deletePoll key => exact hs.erasePoll key
  | applyResolutions rs =>
    refine storable_write hs fun s' h => ?_
    rw [MemoryStore.applyResolutions] at h
    split at h
    · cases h
    · cases h
      exact hs.applyResolutions_foldl rs
  | insertVote x =>
    refine storable_write hs fun s' h => ?_
    rw [MemoryStore.insertVote] at h
    split at h
    · cases h
    · cases h
      exact hs.insertVote x
  | deleteVote poll voter => exact hs.eraseVote ⟨poll, voter⟩
  | _ => exact hs

end StoreRequest

/-! ## Sequences of calls -/

/-- What is done with a durable store: it is called, or closed and opened again. -/
inductive StoreUse where
  /-- It is called. -/
  | call (c : StoreRequest)
  /-- It is closed and opened again. -/
  | reopen

/-- The answers of a durable store, one after another, and what is left of it; it is lost if it
cannot be opened again. -/
def Database.serve : List StoreUse → Database →
    Except DatabaseError (List (Except StoreError StoreReply) × Database)
  | [], db => .ok ([], db)
  | .call c :: rest, db => do
    let (answers, last) ← serve rest (c.action.start db).2
    return ((c.action.start db).1 :: answers, last)
  | .reopen :: rest, db => do
    let db ← db.opened
    serve rest db

/-- The answers of a store in memory, which cannot be closed, and what is left of it. -/
def MemoryStore.serve : List StoreUse → MemoryStore →
    List (Except StoreError StoreReply) × MemoryStore
  | [], s => ([], s)
  | .call c :: rest, s =>
    let (answers, last) := serve rest (c.action.start s).2
    ((c.action.start s).1 :: answers, last)
  | .reopen :: rest, s => serve rest s

/-- The durable store that is an image serves as the store in memory does. -/
theorem MemoryStore.Storable.serve {s : MemoryStore} (hs : s.Storable) {uses : List StoreUse}
    (huses : ∀ p, .call (.insertPoll p) ∈ uses → p.Writable) :
    s.image.serve uses = .ok ((s.serve uses).1, (s.serve uses).2.image) := by
  induction uses generalizing s with
  | nil => rfl
  | cons use rest ih =>
    have hrest : ∀ p, .call (.insertPoll p) ∈ rest → p.Writable := fun p hp =>
      huses p (List.mem_cons_of_mem _ hp)
    cases use with
    | call c =>
      have hkept := StoreRequest.storable (c := c) hs fun p hc =>
        huses p (by rw [hc]; exact List.mem_cons_self ..)
      rw [Database.serve, StoreRequest.reflects hs c, ih hkept hrest]
      rfl
    | reopen =>
      rw [Database.serve, s.opened_image]
      exact ih hs hrest

/-- **The durable store refines the store in memory.**  Opened for the first time and then used in
any way, with polls whose lists are no longer than memory can hold, and opened again at any time,
it answers every call as a store in memory does, errors included; and what it is left as is, byte
for byte, the image of that store: one record for each poll and vote, one empty entry for each of
them in every index, and the version of the arrangement.  As this holds of all uses, it holds after
every one. -/
theorem durable_store_refines_memory (uses : List StoreUse)
    (huses : ∀ p, .call (.insertPoll p) ∈ uses → p.Writable) :
    let memory := MemoryStore.empty.serve uses
    (do let db ← Database.empty.opened; db.serve uses) = .ok (memory.1, memory.2.image) ∧
    ∀ name, (memory.2.image.table name).size =
      match name with
      | .polls | .pollsByFinish | .pollsByAccount | .pollsByCreation => memory.2.polls.size
      | .votes | .votesByHeight => memory.2.votes.size
      | .versions => 1 := by
  refine ⟨?_, MemoryStore.size_image _⟩
  rw [MemoryStore.opened_empty]
  exact MemoryStore.storable_empty.serve huses

/-- A poll whose keys begin with the greatest bytes there are is added, decided and removed; in
between the store is opened again, a batch of changes is refused because of a missing poll, and a
vote stays behind. -/
theorem durable_store_refines_memory_reopened :
    let key : Hash := ⟨List.replicate 32 255, rfl⟩
    let p : Poll := { (default : Poll) with
      key, account := ⟨18446744073709551615⟩, finishHeight := 18446744073709551615
      whitelist := [⟨7⟩] }
    let approved : Poll := { p with status := .approved, tally := 1 }
    let x : Vote := ⟨key, ⟨7⟩, 1, 18446744073709551615⟩
    let uses : List StoreUse := [
      .call (.insertPoll p), .call (.insertPoll p), .call (.insertVote x), .reopen,
      .call (.pendingFinishingAt 18446744073709551615),
      .call (.applyResolutions [⟨key, .approved, 1⟩, ⟨.zero, .approved, 1⟩]),
      .call (.applyResolutions [⟨key, .approved, 1⟩]), .reopen,
      .call (.pendingOf ⟨18446744073709551615⟩), .call (.pollsOf ⟨18446744073709551615⟩),
      .call (.votesCastAt 18446744073709551615), .call (.deletePoll key), .call .countPolls,
      .call (.votesOn key)]
    (∀ q, .call (.insertPoll q) ∈ uses → q.Writable) ∧
    (do let db ← Database.empty.opened; db.serve uses)
      = .ok ([.ok .done, .error (.duplicatePoll key), .ok .done, .ok (.polls [p]),
          .error (.missingPoll .zero), .ok .done, .ok (.polls []), .ok (.polls [approved]),
          .ok (.voteKeys [(key, ⟨7⟩)]), .ok (.removed true), .ok (.pollCount 0),
          .ok (.votes [x])],
        MemoryStore.image ⟨∅, (∅ : Table VoteKey Vote).insert x.id x⟩) := by
  intro key p approved x uses
  have huses : ∀ q, .call (.insertPoll q) ∈ uses → q.Writable := by
    intro q hq
    have hqp : q = p := by simpa [uses] using hq
    rw [hqp]
    exact ⟨by decide, by decide⟩
  refine ⟨huses, (durable_store_refines_memory uses huses).1.trans ?_⟩
  rfl

end Finality
