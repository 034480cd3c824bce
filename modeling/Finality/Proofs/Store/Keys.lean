import Finality.Proofs.Table
import Finality.Store.Keys
import Finality.Store.Scan

/-!
# Keys in order

The durable store relies on the order of its keys.  Comparing two composite keys byte by byte is
comparing their parts one after another (`Keys.compare_heightHash`, `Keys.compare_accountHash`,
`Keys.compare_vote`, `Keys.compare_heightVote`), because all parts have a fixed width
(`compare_append`) and the numbers among them are written most significant byte first
(`compare_bigEndian`).  Keys compared in this way are equal only if their parts are
(`eq_iff_of_compare`).

A scan meets exactly the keys that start with the given bytes (`inScanRange_iff`).
-/

namespace Finality

/-! ## Byte strings -/

/-- Where the first parts are equally long, they decide before the second ones. -/
theorem compare_append {a a' : Bytes} (hlength : a.length = a'.length) (b b' : Bytes) :
    compare (a ++ b) (a' ++ b') = (compare a a').then (compare b b') := by
  induction a generalizing a' with
  | nil =>
    cases a' with
    | nil => rfl
    | cons x a' => cases hlength
  | cons x a ih =>
    cases a' with
    | nil => cases hlength
    | cons x' a' =>
      rw [List.cons_append, List.cons_append, List.compare_cons_cons, List.compare_cons_cons,
        ih (Nat.succ.inj hlength), Ordering.then_assoc]

theorem capacity_pos (width : Nat) : 0 < capacity width := by
  induction width with
  | zero => exact Nat.one_pos
  | succ width ih =>
    rw [capacity]
    omega

/-- What does not fit into the width makes no difference. -/
theorem bigEndian_mod (width n : Nat) :
    bigEndian width (n % capacity width) = bigEndian width n := by
  induction width generalizing n with
  | zero => rfl
  | succ width ih =>
    have hwidth : capacity (width + 1) = capacity width * 256 := by rw [capacity, Nat.mul_comm]
    rw [bigEndian, bigEndian, hwidth, Nat.mod_mul_right_div_self, ← ih (n % _),
      Nat.mod_mul_right_mod, ih]
    congr 1
    apply UInt8.toNat_inj.1
    simp

/-- The bytes of a smaller number are below those of a greater one. -/
theorem compare_bigEndian_of_lt {width m n : Nat} (hlt : m < n) (hn : n < capacity width) :
    compare (bigEndian width m) (bigEndian width n) = .lt := by
  induction width generalizing m n with
  | zero =>
    rw [capacity] at hn
    omega
  | succ width ih =>
    have hpos := capacity_pos width
    have hhead : n / capacity width < 256 := (Nat.div_lt_iff_lt_mul hpos).2 hn
    have hle : m / capacity width ≤ n / capacity width := Nat.div_le_div_right (Nat.le_of_lt hlt)
    rw [bigEndian, bigEndian, List.compare_cons_cons]
    rcases Nat.eq_or_lt_of_le hle with heq | hbelow
    · -- The first bytes are equal, and the rest is decided by the remainders.
      have hrest : m % capacity width < n % capacity width := by
        have hm := Nat.div_add_mod m (capacity width)
        have hn := Nat.div_add_mod n (capacity width)
        rw [heq] at hm
        omega
      rw [heq, Std.compare_self, ← bigEndian_mod width m, ← bigEndian_mod width n]
      exact ih hrest (Nat.mod_lt _ hpos)
    · have hfirst : compare (UInt8.ofNat (m / capacity width)) (UInt8.ofNat (n / capacity width))
          = .lt := by
        rw [Std.compare_eq_lt, UInt8.lt_iff_toNat_lt, UInt8.toNat_ofNat_of_lt' hhead,
          UInt8.toNat_ofNat_of_lt' (Nat.lt_trans hbelow hhead)]
        exact hbelow
      rw [hfirst]
      rfl

/-- **The byte order of big-endian numbers is the order of the numbers.** -/
theorem compare_bigEndian {width m n : Nat} (hm : m < capacity width) (hn : n < capacity width) :
    compare (bigEndian width m) (bigEndian width n) = compare m n := by
  rcases Nat.lt_trichotomy m n with hlt | rfl | hgt
  · rw [compare_bigEndian_of_lt hlt hn, Nat.compare_eq_lt.2 hlt]
  · rw [Std.compare_self, Std.compare_self]
  · rw [Nat.compare_eq_gt.2 hgt]
    exact Std.OrientedCmp.gt_of_lt (compare_bigEndian_of_lt hgt hm)

/-! ## The parts of keys -/

theorem compare_toNat (a b : UInt64) : compare a.toNat b.toNat = compare a b := by
  rcases Nat.lt_trichotomy a.toNat b.toNat with hlt | heq | hgt
  · rw [Nat.compare_eq_lt.2 hlt, Std.compare_eq_lt.2 (UInt64.lt_iff_toNat_lt.2 hlt)]
  · rw [UInt64.toNat_inj.1 heq, Std.compare_self, Std.compare_self]
  · rw [Nat.compare_eq_gt.2 hgt, Std.compare_eq_gt.2 (UInt64.lt_iff_toNat_lt.2 hgt)]

theorem compare_word (a b : UInt64) :
    compare (bigEndian 8 a.toNat) (bigEndian 8 b.toNat) = compare a b := by
  rw [compare_bigEndian a.toNat_lt_size b.toNat_lt_size, compare_toNat]

theorem compare_heightBytes (a b : Height) : compare (heightBytes a) (heightBytes b) = compare a b :=
  compare_word a b

theorem AccountId.compare_toBytes (a b : AccountId) : compare a.toBytes b.toBytes = compare a b :=
  compare_word a.id b.id

theorem Hash.compare_bytes (a b : Hash) : compare a.bytes b.bytes = compare a b := rfl

theorem heightBytes_inj {a b : Height} : heightBytes a = heightBytes b ↔ a = b := by
  rw [← Std.compare_eq_iff_eq (a := heightBytes a), compare_heightBytes, Std.compare_eq_iff_eq]

theorem AccountId.toBytes_inj {a b : AccountId} : a.toBytes = b.toBytes ↔ a = b := by
  rw [← Std.compare_eq_iff_eq (a := a.toBytes), compare_toBytes, Std.compare_eq_iff_eq]

/-! ## Composite keys -/

/-- Keys that are compared by two parts are equal just if both parts are. -/
theorem eq_iff_of_compare {α β : Type} [Ord α] [Std.LawfulEqOrd α] [Ord β] [Std.LawfulEqOrd β]
    {key key' : Bytes} {a a' : α} {b b' : β}
    (h : compare key key' = (compare a a').then (compare b b')) :
    key = key' ↔ a = a' ∧ b = b' := by
  rw [← Std.compare_eq_iff_eq (a := key), h, Ordering.then_eq_eq, Std.compare_eq_iff_eq,
    Std.compare_eq_iff_eq]

namespace Keys

/-- Keys of a height and a hash are in the order of the heights, then of the hashes. -/
theorem compare_heightHash (height height' : Height) (hash hash' : Hash) :
    compare (heightHash height hash) (heightHash height' hash')
      = (compare height height').then (compare hash hash') := by
  rw [heightHash, heightHash, compare_append (by simp), compare_heightBytes, Hash.compare_bytes]

/-- Keys of an account and a hash are in the order of the accounts, then of the hashes. -/
theorem compare_accountHash (account account' : AccountId) (hash hash' : Hash) :
    compare (accountHash account hash) (accountHash account' hash')
      = (compare account account').then (compare hash hash') := by
  rw [accountHash, accountHash, compare_append (by simp), AccountId.compare_toBytes,
    Hash.compare_bytes]

/-- Keys of votes are in the order of the polls, then of the voters. -/
theorem compare_vote (poll poll' : Hash) (voter voter' : AccountId) :
    compare (vote poll voter) (vote poll' voter')
      = (compare poll poll').then (compare voter voter') := by
  rw [vote, vote, compare_append (by rw [poll.length_bytes, poll'.length_bytes]),
    Hash.compare_bytes, AccountId.compare_toBytes]

/-- A height in front of the key of a vote is compared first. -/
theorem compare_heightVote_vote (height height' : Height) (poll poll' : Hash)
    (voter voter' : AccountId) :
    compare (heightVote height poll voter) (heightVote height' poll' voter')
      = (compare height height').then (compare (vote poll voter) (vote poll' voter')) := by
  rw [heightVote, heightVote, compare_append (by simp), compare_heightBytes]

/-- Keys of a height and a vote are in the order of the heights, then of the votes. -/
theorem compare_heightVote (height height' : Height) (poll poll' : Hash)
    (voter voter' : AccountId) :
    compare (heightVote height poll voter) (heightVote height' poll' voter')
      = (compare height height').then ((compare poll poll').then (compare voter voter')) := by
  rw [compare_heightVote_vote, compare_vote]

variable {height height' : Height} {account account' voter voter' : AccountId}
  {hash hash' poll poll' : Hash}

theorem heightHash_inj :
    heightHash height hash = heightHash height' hash' ↔ height = height' ∧ hash = hash' :=
  eq_iff_of_compare (compare_heightHash ..)

theorem accountHash_inj :
    accountHash account hash = accountHash account' hash' ↔ account = account' ∧ hash = hash' :=
  eq_iff_of_compare (compare_accountHash ..)

theorem vote_inj : vote poll voter = vote poll' voter' ↔ poll = poll' ∧ voter = voter' :=
  eq_iff_of_compare (compare_vote ..)

theorem heightVote_inj :
    heightVote height poll voter = heightVote height' poll' voter' ↔
      height = height' ∧ poll = poll' ∧ voter = voter' := by
  rw [eq_iff_of_compare (compare_heightVote_vote ..), vote_inj]

end Keys

/-! ## Scans -/

theorem toNat_add_one_byte {b : UInt8} (htop : b ≠ 255) : (b + 1).toNat = b.toNat + 1 := by
  have hbyte := b.toNat_lt
  have hne : b.toNat ≠ 255 := fun h => htop (UInt8.toNat_inj.1 h)
  rw [UInt8.toNat_add]
  simp
  omega

/-- A byte is below the next one. -/
theorem compare_add_one_byte {b : UInt8} (htop : b ≠ 255) : compare b (b + 1) = .lt := by
  rw [Std.compare_eq_lt, UInt8.lt_iff_toNat_lt, toNat_add_one_byte htop]
  omega

/-- There is no byte between a byte and the next one. -/
theorem compare_add_one_byte_ne_lt {b c : UInt8} (htop : b ≠ 255) (hlt : b < c) :
    compare c (b + 1) ≠ .lt := by
  intro hnext
  have hbelow := UInt8.lt_iff_toNat_lt.1 (Std.compare_eq_lt.1 hnext)
  have habove := UInt8.lt_iff_toNat_lt.1 hlt
  rw [toNat_add_one_byte htop] at hbelow
  omega

theorem ne_top_of_lt_byte {b c : UInt8} (hlt : b < c) : b ≠ 255 := by
  rintro rfl
  have hbyte := c.toNat_lt
  have habove : 255 < c.toNat := UInt8.lt_iff_toNat_lt.1 hlt
  omega

/-- Between the beginning and its bound are the keys that agree with it in the first byte and lie
between the rest and its bound. -/
theorem inScanRange_cons (b c : UInt8) (start key : Bytes) :
    inScanRange (b :: start) (c :: key) = (decide (b = c) && inScanRange start key) := by
  unfold inScanRange
  rw [List.compare_cons_cons, upperBound?]
  cases hfirst : compare b c with
  | gt =>
    have hne : b ≠ c := by
      rintro rfl
      rw [Std.compare_self] at hfirst
      cases hfirst
    simp [hne]
  | eq =>
    have heq : b = c := Std.compare_eq_iff_eq.1 hfirst
    subst heq
    cases upperBound? start with
    | some upper => simp [List.compare_cons_cons]
    | none =>
      by_cases htop : b = 255
      · simp [htop]
      · simp [htop, List.compare_cons_cons, compare_add_one_byte htop]
  | lt =>
    have hlt : b < c := Std.compare_eq_lt.1 hfirst
    have hne : b ≠ c := by
      rintro rfl
      exact UInt8.lt_irrefl _ hlt
    cases upperBound? start with
    | some upper =>
      have hgt : compare c b = .gt := Std.OrientedCmp.gt_of_lt hfirst
      simp [List.compare_cons_cons, hgt, hne]
    | none =>
      have htop := ne_top_of_lt_byte hlt
      -- The key is not below the bound, which is the next byte alone.
      have hbound : (compare c (b + 1)).then (compare key []) ≠ .lt := by
        cases hnext : compare c (b + 1) with
        | lt => exact absurd hnext (compare_add_one_byte_ne_lt htop hlt)
        | eq => cases key <;> simp
        | gt => simp
      simp [htop, hne, hbound]

/-- **A scan meets exactly the keys that start with the given bytes.** -/
theorem inScanRange_iff {start key : Bytes} : inScanRange start key = true ↔ start <+: key := by
  induction start generalizing key with
  | nil =>
    have hle : (compare ([] : Bytes) key).isLE = true := by cases key <;> rfl
    simp [inScanRange, upperBound?, hle]
  | cons b start ih =>
    cases key with
    | nil => simp [inScanRange, show compare (b :: start) [] = .gt from rfl]
    | cons c key =>
      rw [inScanRange_cons, Bool.and_eq_true, decide_eq_true_iff, ih, List.cons_prefix_cons]

end Finality
