import Finality.Proofs.Store.Keys

/-!
# Composite keys and their parts

A composite key is as good as the tuple of its parts.  It is compared like the tuple, part by part
(`Finality.Proofs.Store.Keys`), and it can be taken apart again:

* the big-endian bytes of a number are the only ones of their length (`bigEndian_ofBigEndian`), so
  any eight bytes are those of an account (`AccountId.toBytes_ofBytes`);
* a byte string splits into a poll and a voter if it is their key, and only then
  (`Keys.splitVote?_eq_some_iff`); every byte string of 40 bytes is such a key
  (`Keys.isSome_splitVote?_iff`).

`Keys.composite_keys_embed_order` says both of all four layouts.
-/

namespace Finality

/-! ## Numbers -/

/-- A big-endian byte string is the one form of its number in its width. -/
theorem bigEndian_ofBigEndian (bs : Bytes) : bigEndian bs.length (ofBigEndian bs) = bs := by
  induction bs with
  | nil => rfl
  | cons b bs ih =>
    have hlt := ofBigEndian_lt bs
    have hpos := capacity_pos bs.length
    have hfirst : (b.toNat * capacity bs.length + ofBigEndian bs) / capacity bs.length
        = b.toNat := by
      rw [Nat.mul_comm, Nat.mul_add_div hpos, Nat.div_eq_of_lt hlt, Nat.add_zero]
    -- The other bytes see only what the first one leaves over.
    have hrest : (b.toNat * capacity bs.length + ofBigEndian bs) % capacity bs.length
        = ofBigEndian bs := by
      rw [Nat.mul_comm, Nat.mul_add_mod, Nat.mod_eq_of_lt hlt]
    rw [List.length_cons, bigEndian, ofBigEndian, hfirst, ← bigEndian_mod bs.length, hrest, ih,
      UInt8.ofNat_toNat]

/-- Any eight bytes are those of an account. -/
theorem AccountId.toBytes_ofBytes {bs : Bytes} (hlength : bs.length = 8) :
    (ofBytes bs).toBytes = bs := by
  have hlt : ofBigEndian bs < UInt64.size := by
    rw [← capacity_eight, ← hlength]
    exact ofBigEndian_lt bs
  rw [toBytes, ofBytes, UInt64.toNat_ofNat_of_lt' hlt, ← hlength, bigEndian_ofBigEndian]

namespace Keys

/-! ## Taking keys apart -/

/-- A byte string splits into a poll and a voter just if it is their key. -/
theorem splitVote?_eq_some_iff {key : Bytes} {poll : Hash} {voter : AccountId} :
    splitVote? key = some (poll, voter) ↔ key = vote poll voter := by
  constructor
  · intro hsplit
    rw [splitVote?] at hsplit
    split at hsplit
    · rename_i hlength
      obtain ⟨hash, hhash, hparts⟩ := Option.map_eq_some_iff.1 hsplit
      cases hparts
      have hpoll : key.take 32 = poll.bytes := Hash.ofBytes?_eq_some_iff.1 hhash
      have hvoter : (AccountId.ofBytes (key.drop 32)).toBytes = key.drop 32 :=
        AccountId.toBytes_ofBytes (by rw [List.length_drop, hlength])
      rw [vote, ← hpoll, hvoter, List.take_append_drop]
    · cases hsplit
  · rintro rfl
    exact splitVote?_vote poll voter

/-- The byte strings that split are those of 40 bytes. -/
theorem isSome_splitVote?_iff {key : Bytes} :
    (splitVote? key).isSome = true ↔ key.length = 40 := by
  constructor
  · intro hsome
    obtain ⟨⟨poll, voter⟩, hsplit⟩ := Option.isSome_iff_exists.1 hsome
    rw [splitVote?_eq_some_iff.1 hsplit, length_vote]
  · intro hlength
    have hhash : (key.take 32).length = 32 := by
      rw [List.length_take, hlength]
      rfl
    rw [splitVote?, if_pos hlength, Hash.ofBytes?, dif_pos hhash]
    rfl

/-- **Composite keys embed the order they index.**  Compared byte by byte, two keys of one layout
are in the order of their parts, the first part that differs deciding; so they are equal only if all
their parts are.  The parts are found again: the hash behind a height or an account, which is what
stands in the bytes 8 to 39 of a key; and the poll and the voter of a vote, once a height in front
is dropped.  A key splits into a poll and a voter exactly if it has 40 bytes, and then it is the key
of what it splits into. -/
theorem composite_keys_embed_order (height height' : Height)
    (account account' voter voter' : AccountId) (hash hash' poll poll' : Hash) (key : Bytes) :
    (compare (heightHash height hash) (heightHash height' hash')
        = (compare height height').then (compare hash hash') ∧
      compare (accountHash account hash) (accountHash account' hash')
        = (compare account account').then (compare hash hash') ∧
      compare (vote poll voter) (vote poll' voter')
        = (compare poll poll').then (compare voter voter') ∧
      compare (heightVote height poll voter) (heightVote height' poll' voter')
        = (compare height height').then ((compare poll poll').then (compare voter voter'))) ∧
    ((heightHash height hash = heightHash height' hash' ↔ height = height' ∧ hash = hash') ∧
      (accountHash account hash = accountHash account' hash' ↔
        account = account' ∧ hash = hash') ∧
      (vote poll voter = vote poll' voter' ↔ poll = poll' ∧ voter = voter') ∧
      (heightVote height poll voter = heightVote height' poll' voter' ↔
        height = height' ∧ poll = poll' ∧ voter = voter')) ∧
    (hashSuffix? (heightHash height hash) = some hash ∧
      hashSuffix? (accountHash account hash) = some hash ∧
      (hashSuffix? key = some hash ↔
        ∃ front rest, front.length = 8 ∧ key = front ++ (hash.bytes ++ rest))) ∧
    (splitVote? (vote poll voter) = some (poll, voter) ∧
      splitVote? ((heightVote height poll voter).drop 8) = some (poll, voter)) ∧
    ((splitVote? key).isSome = true ↔ key.length = 40) ∧
    (splitVote? key = some (poll, voter) ↔ key = vote poll voter) := by
  refine ⟨⟨compare_heightHash .., compare_accountHash .., compare_vote .., compare_heightVote ..⟩,
    ⟨heightHash_inj, accountHash_inj, vote_inj, heightVote_inj⟩,
    ⟨hashSuffix?_append (length_heightBytes height) hash,
      hashSuffix?_append account.length_toBytes hash, hashSuffix?_eq_some_iff⟩,
    ⟨splitVote?_vote poll voter, ?_⟩, isSome_splitVote?_iff, splitVote?_eq_some_iff⟩
  rw [drop_heightVote, splitVote?_vote]

/-- Of the heights 255 and 256 the first comes first, although its last byte is the greater one and
the greatest hash stands behind it. -/
example : compare (heightHash 255 ⟨List.replicate 32 255, rfl⟩) (heightHash 256 .zero) = .lt := by
  decide

end Keys

end Finality
