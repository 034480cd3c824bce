import Finality.Record.Formats

/-!
# Records read back

What a layout writes it also reads, whatever bytes come after: `Layout.ReadsBack` says so of one
value.  The parts that layouts are put together from pass it on, one lemma for each part, and so
polls and votes read back (`readsBack_poll`, `readsBack_vote`).  All that is asked of a poll is
that the lengths of its lists can be written with 64 bits (`Poll.Writable`).
-/

namespace Finality

namespace Layout

variable {α β : Type}

/-- What is written for the value is read as the value, and what comes after it is left. -/
def ReadsBack (l : Layout α) (x : α) : Prop :=
  ∀ rest, l.decode (l.encode x ++ rest) = .ok (x, rest)

/-! ## Parts -/

theorem takeBytes_append {n : Nat} {bs : Bytes} (h : bs.length = n) (rest : Bytes) :
    takeBytes n (bs ++ rest) = .ok (bs, rest) := by
  subst h
  simp [takeBytes]

theorem readsBack_word64 (w : UInt64) : word64.ReadsBack w := by
  intro rest
  have hvalue : ofLittleEndian (littleEndian 8 w.toNat) = w.toNat := by
    rw [ofLittleEndian_littleEndian, capacity_eight, Nat.mod_eq_of_lt w.toNat_lt_size]
  change (takeBytes 8 (littleEndian 8 w.toNat ++ rest) >>= _) = _
  rw [takeBytes_append (length_littleEndian 8 _)]
  change Except.ok (UInt64.ofNat (ofLittleEndian (littleEndian 8 w.toNat)), rest) = _
  rw [hvalue, UInt64.ofNat_toNat]

theorem readsBack_word32 (w : UInt32) : word32.ReadsBack w := by
  intro rest
  have hvalue : ofLittleEndian (littleEndian 4 w.toNat) = w.toNat := by
    rw [ofLittleEndian_littleEndian, capacity_four, Nat.mod_eq_of_lt w.toNat_lt_size]
  change (takeBytes 4 (littleEndian 4 w.toNat ++ rest) >>= _) = _
  rw [takeBytes_append (length_littleEndian 4 _)]
  change Except.ok (UInt32.ofNat (ofLittleEndian (littleEndian 4 w.toNat)), rest) = _
  rw [hvalue, UInt32.ofNat_toNat]

theorem ReadsBack.pair {a : Layout α} {b : Layout β} {x : α} {y : β} (hx : a.ReadsBack x)
    (hy : b.ReadsBack y) : (a.pair b).ReadsBack (x, y) := by
  intro rest
  change (a.decode (a.encode x ++ b.encode y ++ rest) >>= _) = _
  rw [List.append_assoc, hx]
  change (b.decode (b.encode y ++ rest) >>= _) = _
  rw [hy]
  rfl

theorem ReadsBack.imap {toFields : α → β} {ofFields : β → α} {b : Layout β} {x : α}
    (hx : b.ReadsBack (toFields x)) (hfields : ofFields (toFields x) = x) :
    (b.imap toFields ofFields).ReadsBack x := by
  intro rest
  change (b.decode (b.encode (toFields x) ++ rest) >>= _) = _
  rw [hx]
  change Except.ok (ofFields (toFields x), rest) = _
  rw [hfields]

theorem readsBack_option {a : Layout α} {o : Option α} (h : ∀ x, o = some x → a.ReadsBack x) :
    a.option.ReadsBack o := by
  intro rest
  cases o with
  | none => rfl
  | some x =>
    change (a.decode (a.encode x ++ rest) >>= _) = _
    rw [h x rfl]
    rfl

theorem decodeMany_append {a : Layout α} {xs : List α} (h : ∀ x ∈ xs, a.ReadsBack x)
    (rest : Bytes) : decodeMany a xs.length (xs.flatMap a.encode ++ rest) = .ok (xs, rest) := by
  induction xs with
  | nil => rfl
  | cons x xs ih =>
    obtain ⟨hx, hxs⟩ := List.forall_mem_cons.1 h
    rw [List.flatMap_cons, List.append_assoc, List.length_cons, decodeMany, hx]
    change (decodeMany a xs.length (xs.flatMap a.encode ++ rest) >>= _) = _
    rw [ih hxs]
    rfl

theorem readsBack_list {a : Layout α} {xs : List α} (h : ∀ x ∈ xs, a.ReadsBack x)
    (hlength : xs.length < UInt64.size) : a.list.ReadsBack xs := by
  intro rest
  change (word64.decode (word64.encode (UInt64.ofNat xs.length) ++ xs.flatMap a.encode ++ rest)
    >>= _) = _
  rw [List.append_assoc, readsBack_word64]
  change decodeMany a (UInt64.ofNat xs.length).toNat (xs.flatMap a.encode ++ rest) = _
  rw [UInt64.toNat_ofNat_of_lt' hlength, decodeMany_append h]

theorem readsBack_variant [DecidableEq α] {variants : List α}
    (hcount : variants.length < UInt32.size) {x : α} (hx : x ∈ variants) :
    (variant variants).ReadsBack x := by
  intro rest
  have hplace : variants.idxOf x < variants.length := List.idxOf_lt_length_iff.2 hx
  have hfound : variants[variants.idxOf x]? = some x := by
    rw [List.getElem?_eq_getElem hplace, List.getElem_idxOf]
  change (word32.decode (word32.encode (UInt32.ofNat (variants.idxOf x)) ++ rest) >>= _) = _
  rw [readsBack_word32]
  simp only [bind, Except.bind]
  rw [UInt32.toNat_ofNat_of_lt' (Nat.lt_trans hplace hcount), hfound]
  rfl

/-! ## Fields -/

theorem readsBack_hash (h : Hash) : hash.ReadsBack h := by
  intro rest
  have hlength : 32 ≤ (h.bytes ++ rest).length := by simp [h.length_bytes]
  have htake : (h.bytes ++ rest).take 32 = h.bytes := List.take_left' h.length_bytes
  have hdrop : (h.bytes ++ rest).drop 32 = rest := List.drop_left' h.length_bytes
  change (if h' : 32 ≤ (h.bytes ++ rest).length then
    Except.ok ((⟨(h.bytes ++ rest).take 32, _⟩ : Hash), (h.bytes ++ rest).drop 32) else _) = _
  rw [dif_pos hlength, hdrop]
  exact congrArg (fun h => Except.ok (h, rest)) (Hash.ext_bytes htake)

theorem readsBack_account (a : AccountId) : account.ReadsBack a :=
  (readsBack_word64 a.id).imap rfl

theorem readsBack_holdingId (id : HoldingId) : holdingId.ReadsBack id :=
  (readsBack_word64 id.id).imap rfl

theorem readsBack_votingModel (m : VotingModel) : votingModel.ReadsBack m :=
  readsBack_variant (by decide) (by cases m <;> decide)

theorem readsBack_pollStatus (s : PollStatus) : pollStatus.ReadsBack s :=
  readsBack_variant (by decide) (by cases s <;> decide)

theorem readsBack_balanceFloor (floor : BalanceFloor) : balanceFloor.ReadsBack floor := by
  intro rest
  have htag : ∀ tag rest, word32.decode (word32.encode tag ++ rest) = .ok (tag, rest) :=
    readsBack_word32
  have hid : ∀ id, holdingId.decode (holdingId.encode id ++ rest) = .ok (id, rest) :=
    fun id => readsBack_holdingId id rest
  cases floor <;>
    simp [balanceFloor, List.append_assoc, htag, hid, bind, Except.bind, pure, Except.pure]

end Layout

/-! ## Records -/

/-- The lengths of the lists in a poll can be written with 64 bits. -/
structure Poll.Writable (p : Poll) : Prop where
  /-- The whitelist is not too long. -/
  whitelist : p.whitelist.length < UInt64.size
  /-- There are not too many links. -/
  links : p.links.length < UInt64.size

namespace Layout

/-- **Polls read back.** -/
theorem readsBack_poll {p : Poll} (hp : p.Writable) : poll.ReadsBack p := by
  refine ReadsBack.imap ?_ rfl
  refine (readsBack_hash _).pair ?_
  refine (readsBack_account _).pair ?_
  refine (readsBack_word64 _).pair ?_
  refine (readsBack_word64 _).pair ?_
  refine (readsBack_votingModel _).pair ?_
  refine (readsBack_option fun id _ => readsBack_holdingId id).pair ?_
  refine (readsBack_word64 _).pair ?_
  refine (readsBack_balanceFloor _).pair ?_
  refine (readsBack_option fun quorum _ => readsBack_word64 quorum).pair ?_
  refine (readsBack_list (fun a _ => readsBack_account a) hp.whitelist).pair ?_
  refine (readsBack_list (fun link _ => readsBack_hash link) hp.links).pair ?_
  exact (readsBack_pollStatus _).pair (readsBack_word64 _)

/-- **Votes read back.** -/
theorem readsBack_vote (v : Vote) : vote.ReadsBack v := by
  refine ReadsBack.imap ?_ rfl
  refine (readsBack_hash _).pair ?_
  refine (readsBack_account _).pair ?_
  exact (readsBack_word64 _).pair (readsBack_word64 _)

end Layout

end Finality
