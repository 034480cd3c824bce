import Finality.Hash
import Finality.Account

/-!
# Composite keys

The durable store keeps its entries under byte strings put together from heights, accounts and
hashes.  Numbers are written most significant byte first and every part has a fixed width, so the
byte order of keys is the order of the parts: scanning the keys that start with a height meets its
hashes in ascending order.
-/

namespace Finality

/-- The eight bytes of a height, most significant first. -/
def heightBytes (height : Height) : Bytes := bigEndian 8 height.toNat

namespace Keys

/-- A height, then a hash: 40 bytes. -/
def heightHash (height : Height) (hash : Hash) : Bytes := heightBytes height ++ hash.bytes

/-- An account, then a hash: 40 bytes. -/
def accountHash (account : AccountId) (hash : Hash) : Bytes := account.toBytes ++ hash.bytes

/-- A poll, then a voter: 40 bytes. -/
def vote (poll : Hash) (voter : AccountId) : Bytes := poll.bytes ++ voter.toBytes

/-- A height, then a poll and a voter: 48 bytes. -/
def heightVote (height : Height) (poll : Hash) (voter : AccountId) : Bytes :=
  heightBytes height ++ vote poll voter

/-- The hash in the bytes 8 to 39 of a key, if the key is long enough. -/
def hashSuffix? (key : Bytes) : Option Hash := Hash.ofBytes? ((key.drop 8).take 32)

/-- The poll and the voter that a key of 40 bytes is made of; `none` for any other length. -/
def splitVote? (key : Bytes) : Option (Hash × AccountId) :=
  if key.length = 40 then
    (Hash.ofBytes? (key.take 32)).map fun poll => (poll, AccountId.ofBytes (key.drop 32))
  else none

@[simp] theorem length_heightBytes (height : Height) : (heightBytes height).length = 8 :=
  length_bigEndian 8 _

@[simp] theorem length_vote (poll : Hash) (voter : AccountId) : (vote poll voter).length = 40 := by
  simp [vote, poll.length_bytes]

/-- A height in front of the key of a vote is dropped by dropping eight bytes. -/
@[simp] theorem drop_heightVote (height : Height) (poll : Hash) (voter : AccountId) :
    (heightVote height poll voter).drop 8 = vote poll voter :=
  List.drop_left' (length_heightBytes height)

/-- The hash found in a key is what stands behind its first eight bytes. -/
theorem hashSuffix?_eq_some_iff {key : Bytes} {hash : Hash} :
    hashSuffix? key = some hash ↔
      ∃ front rest, front.length = 8 ∧ key = front ++ (hash.bytes ++ rest) := by
  rw [hashSuffix?, Hash.ofBytes?_eq_some_iff]
  constructor
  · intro htake
    refine ⟨key.take 8, key.drop 40, ?_, ?_⟩
    · have hlength := hash.length_bytes
      rw [← htake, List.length_take, List.length_drop] at hlength
      rw [List.length_take]
      omega
    · have hrest : key.drop 40 = (key.drop 8).drop 32 := by rw [List.drop_drop]
      rw [← htake, hrest, List.take_append_drop, List.take_append_drop]
  · rintro ⟨front, rest, hfront, rfl⟩
    rw [List.drop_left' hfront, List.take_left' hash.length_bytes]

/-- The hash at the end of a key is found. -/
theorem hashSuffix?_append {part : Bytes} (hpart : part.length = 8) (hash : Hash) :
    hashSuffix? (part ++ hash.bytes) = some hash :=
  hashSuffix?_eq_some_iff.2 ⟨part, [], hpart, by rw [List.append_nil]⟩

@[simp] theorem splitVote?_vote (poll : Hash) (voter : AccountId) :
    splitVote? (vote poll voter) = some (poll, voter) := by
  have htake : (vote poll voter).take 32 = poll.bytes := List.take_left' poll.length_bytes
  have hdrop : (vote poll voter).drop 32 = voter.toBytes := List.drop_left' poll.length_bytes
  rw [splitVote?, if_pos (length_vote poll voter), htake, hdrop, Hash.ofBytes?_bytes]
  simp

end Keys

end Finality
