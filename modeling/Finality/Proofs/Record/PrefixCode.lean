import Finality.Proofs.Record.RoundTrip

/-!
# Records are a prefix code

Reading a record is exact: it gives a value if and only if what is written for that value comes
first in the byte string.  So nothing that was not written for a value is ever taken for it: what
one value is written as does not even begin what another is written as, and a record that is cut
off, or that has a tag which no variant has, is refused.

* `Layout.Exact` — the law, in a form that the parts of a layout pass on: what fits reads back, and
  what is read fits and was written so.  There is one lemma for each part.
* `RecordFormat`, `Poll.format`, ... — the bytes of each kind of record spelled out, field by field,
  apart from the layouts.
* `Layout.Obeys` — what it means for a layout to be the prefix code of a format.
* `records_are_prefix_codes` — the result for polls, votes, changes of status and limits.
-/

namespace Finality

namespace Layout

variable {α β : Type}

/-- Values that fit read back, and what is read fits and is what was written for it. -/
structure Exact (l : Layout α) (fits : α → Prop) : Prop where
  /-- What is written for a value that fits is read as that value. -/
  readsBack : ∀ x, fits x → l.ReadsBack x
  /-- What is read was written so. -/
  written : ∀ bs x rest, l.decode bs = .ok (x, rest) → fits x ∧ bs = l.encode x ++ rest

theorem bind_eq_ok {ε : Type} {x : Except ε α} {f : α → Except ε β} {b : β} :
    (x >>= f) = .ok b ↔ ∃ a, x = .ok a ∧ f a = .ok b := by
  cases x with
  | error e => simp [bind, Except.bind]
  | ok a => simp [bind, Except.bind]

/-! ## Parts -/

theorem takeBytes_eq_ok {n : Nat} {bs raw rest : Bytes} (h : takeBytes n bs = .ok (raw, rest)) :
    raw.length = n ∧ bs = raw ++ rest := by
  unfold takeBytes at h
  by_cases hlength : n ≤ bs.length
  · rw [if_pos hlength] at h
    cases h
    simp [hlength]
  · rw [if_neg hlength] at h
    cases h

theorem exact_word64 : word64.Exact fun _ => True := by
  refine ⟨fun w _ => readsBack_word64 w, ?_⟩
  intro bs w rest h
  obtain ⟨⟨raw, rest'⟩, htake, hvalue⟩ := bind_eq_ok.1 h
  obtain ⟨hlength, rfl⟩ := takeBytes_eq_ok htake
  cases hvalue
  have hlt : ofLittleEndian raw < UInt64.size := by
    have hlt := ofLittleEndian_lt raw
    rwa [hlength, capacity_eight] at hlt
  refine ⟨trivial, ?_⟩
  show raw ++ rest = littleEndian 8 (UInt64.ofNat (ofLittleEndian raw)).toNat ++ rest
  rw [UInt64.toNat_ofNat_of_lt' hlt, ← hlength, littleEndian_ofLittleEndian]

theorem exact_word32 : word32.Exact fun _ => True := by
  refine ⟨fun w _ => readsBack_word32 w, ?_⟩
  intro bs w rest h
  obtain ⟨⟨raw, rest'⟩, htake, hvalue⟩ := bind_eq_ok.1 h
  obtain ⟨hlength, rfl⟩ := takeBytes_eq_ok htake
  cases hvalue
  have hlt : ofLittleEndian raw < UInt32.size := by
    have hlt := ofLittleEndian_lt raw
    rwa [hlength, capacity_four] at hlt
  refine ⟨trivial, ?_⟩
  show raw ++ rest = littleEndian 4 (UInt32.ofNat (ofLittleEndian raw)).toNat ++ rest
  rw [UInt32.toNat_ofNat_of_lt' hlt, ← hlength, littleEndian_ofLittleEndian]

theorem Exact.pair {a : Layout α} {b : Layout β} {f : α → Prop} {g : β → Prop} (ha : a.Exact f)
    (hb : b.Exact g) : (a.pair b).Exact fun p => f p.1 ∧ g p.2 := by
  refine ⟨fun p hp => (ha.readsBack p.1 hp.1).pair (hb.readsBack p.2 hp.2), ?_⟩
  intro bs p rest h
  obtain ⟨⟨x, mid⟩, hx, h⟩ := bind_eq_ok.1 h
  obtain ⟨⟨y, rest'⟩, hy, h⟩ := bind_eq_ok.1 h
  cases h
  obtain ⟨hfx, rfl⟩ := ha.written _ _ _ hx
  obtain ⟨hgy, rfl⟩ := hb.written _ _ _ hy
  exact ⟨⟨hfx, hgy⟩, (List.append_assoc ..).symm⟩

theorem Exact.imap {toFields : α → β} {ofFields : β → α} {b : Layout β} {g : β → Prop}
    {f : α → Prop} (hb : b.Exact g) (hof : ∀ x, ofFields (toFields x) = x)
    (hto : ∀ y, toFields (ofFields y) = y) (hfits : ∀ x, f x ↔ g (toFields x)) :
    (b.imap toFields ofFields).Exact f := by
  refine ⟨fun x hx => (hb.readsBack _ ((hfits x).1 hx)).imap (hof x), ?_⟩
  intro bs x rest h
  obtain ⟨⟨y, rest'⟩, hy, h⟩ := bind_eq_ok.1 h
  cases h
  obtain ⟨hgy, hwritten⟩ := hb.written _ _ _ hy
  refine ⟨(hfits _).2 (by rwa [hto]), ?_⟩
  show bs = b.encode (toFields (ofFields y)) ++ rest
  rw [hto, hwritten]

theorem Exact.option {a : Layout α} {f : α → Prop} (ha : a.Exact f) :
    a.option.Exact fun o => ∀ x, o = some x → f x := by
  refine ⟨fun o ho => readsBack_option fun x hx => ha.readsBack x (ho x hx), ?_⟩
  intro bs o rest h
  cases bs with
  | nil => cases h
  | cons tag bs =>
    change (if tag = 0 then .ok (none, bs)
      else if tag = 1 then a.decode bs >>= fun r => .ok (some r.1, r.2)
      else .error (.unknownOption tag)) = _ at h
    by_cases hnone : tag = 0
    · rw [if_pos hnone] at h
      cases h
      refine ⟨fun x hx => (by cases hx), ?_⟩
      rw [hnone]
      rfl
    · by_cases hsome : tag = 1
      · rw [if_neg hnone, if_pos hsome] at h
        obtain ⟨⟨x, rest'⟩, hx, h⟩ := bind_eq_ok.1 h
        cases h
        obtain ⟨hfx, rfl⟩ := ha.written _ _ _ hx
        rw [hsome]
        refine ⟨fun y hy => ?_, rfl⟩
        cases hy
        exact hfx
      · rw [if_neg hnone, if_neg hsome] at h
        cases h

theorem Exact.decodeMany_eq_ok {a : Layout α} {f : α → Prop} (ha : a.Exact f) {n : Nat}
    {bs : Bytes} {xs : List α} {rest : Bytes} (h : decodeMany a n bs = .ok (xs, rest)) :
    xs.length = n ∧ (∀ x ∈ xs, f x) ∧ bs = xs.flatMap a.encode ++ rest := by
  induction n generalizing bs xs rest with
  | zero =>
    cases h
    simp
  | succ n ih =>
    obtain ⟨⟨x, mid⟩, hx, h⟩ := bind_eq_ok.1 h
    obtain ⟨⟨ys, rest'⟩, hys, h⟩ := bind_eq_ok.1 h
    cases h
    obtain ⟨hfx, rfl⟩ := ha.written _ _ _ hx
    obtain ⟨hlength, hfits, rfl⟩ := ih hys
    refine ⟨by simp [hlength], ?_, by simp⟩
    intro y hy
    rcases List.mem_cons.1 hy with rfl | hy
    · exact hfx
    · exact hfits y hy

theorem Exact.list {a : Layout α} {f : α → Prop} (ha : a.Exact f) :
    a.list.Exact fun xs => xs.length < UInt64.size ∧ ∀ x ∈ xs, f x := by
  refine ⟨fun xs hxs => readsBack_list (fun x hx => ha.readsBack x (hxs.2 x hx)) hxs.1, ?_⟩
  intro bs xs rest h
  obtain ⟨⟨n, mid⟩, hn, hmany⟩ := bind_eq_ok.1 h
  obtain ⟨-, rfl⟩ := exact_word64.written _ _ _ hn
  obtain ⟨hlength, hfits, rfl⟩ := ha.decodeMany_eq_ok hmany
  refine ⟨⟨?_, hfits⟩, ?_⟩
  · rw [hlength]
    exact n.toNat_lt_size
  · show _ = word64.encode (UInt64.ofNat xs.length) ++ xs.flatMap a.encode ++ rest
    rw [hlength, UInt64.ofNat_toNat, List.append_assoc]

theorem exact_variant [DecidableEq α] {variants : List α} (hcount : variants.length < UInt32.size)
    (hnodup : variants.Nodup) : (variant variants).Exact fun x => x ∈ variants := by
  refine ⟨fun x hx => readsBack_variant hcount hx, ?_⟩
  intro bs x rest h
  obtain ⟨⟨tag, mid⟩, htag, hvalue⟩ := bind_eq_ok.1 h
  obtain ⟨-, rfl⟩ := exact_word32.written _ _ _ htag
  dsimp only at hvalue
  split at hvalue
  · rename_i y hy
    cases hvalue
    obtain ⟨hplace, rfl⟩ := List.getElem?_eq_some_iff.1 hy
    refine ⟨List.getElem_mem hplace, ?_⟩
    show _ = word32.encode (UInt32.ofNat (variants.idxOf variants[tag.toNat])) ++ rest
    rw [hnodup.idxOf_getElem, UInt32.ofNat_toNat]
  · cases hvalue

/-! ## Fields -/

theorem exact_hash : hash.Exact fun _ => True := by
  refine ⟨fun h _ => readsBack_hash h, ?_⟩
  intro bs x rest h
  unfold hash at h
  by_cases hlength : 32 ≤ bs.length
  · simp only [dif_pos hlength] at h
    cases h
    exact ⟨trivial, (List.take_append_drop 32 bs).symm⟩
  · simp only [dif_neg hlength] at h
    cases h

theorem exact_account : account.Exact fun _ => True :=
  exact_word64.imap (fun _ => rfl) (fun _ => rfl) fun _ => Iff.rfl

theorem exact_holdingId : holdingId.Exact fun _ => True :=
  exact_word64.imap (fun _ => rfl) (fun _ => rfl) fun _ => Iff.rfl

theorem exact_votingModel : votingModel.Exact fun m => m ∈ [VotingModel.none, .account,
    .assetWeighted, .currencyWeighted, .transactionApproval] :=
  exact_variant (by decide) (by decide)

theorem exact_pollStatus :
    pollStatus.Exact fun s => s ∈ [PollStatus.pending, .approved, .rejected] :=
  exact_variant (by decide) (by decide)

theorem exact_balanceFloor : balanceFloor.Exact fun _ => True := by
  refine ⟨fun floor _ => readsBack_balanceFloor floor, ?_⟩
  intro bs floor rest h
  obtain ⟨⟨tag, mid⟩, htag, hvalue⟩ := bind_eq_ok.1 h
  obtain ⟨-, rfl⟩ := exact_word32.written _ _ _ htag
  refine ⟨trivial, ?_⟩
  dsimp only at hvalue
  split at hvalue
  · rename_i h0
    cases hvalue
    rw [h0]
    rfl
  · split at hvalue
    · rename_i h1
      cases hvalue
      rw [h1]
      rfl
    · split at hvalue
      · rename_i h2
        obtain ⟨⟨id, rest'⟩, hid, hdone⟩ := bind_eq_ok.1 hvalue
        cases hdone
        obtain ⟨-, rfl⟩ := exact_holdingId.written _ _ _ hid
        rw [h2, ← List.append_assoc]
        rfl
      · split at hvalue
        · rename_i h3
          obtain ⟨⟨id, rest'⟩, hid, hdone⟩ := bind_eq_ok.1 hvalue
          cases hdone
          obtain ⟨-, rfl⟩ := exact_holdingId.written _ _ _ hid
          rw [h3, ← List.append_assoc]
          rfl
        · cases hvalue

/-! ## Records -/

theorem exact_poll : poll.Exact Poll.Writable := by
  have hfields := exact_hash.pair <| exact_account.pair <| exact_word64.pair <| exact_word64.pair <|
    exact_votingModel.pair <| exact_holdingId.option.pair <| exact_word64.pair <|
    exact_balanceFloor.pair <| exact_word64.option.pair <| exact_account.list.pair <|
    exact_hash.list.pair <| exact_pollStatus.pair exact_word64
  refine hfields.imap (fun _ => rfl) (fun _ => rfl) fun p => ?_
  have hmodel : p.model ∈ [VotingModel.none, .account, .assetWeighted, .currencyWeighted,
      .transactionApproval] := by
    cases p.model <;> decide
  have hstatus : p.status ∈ [PollStatus.pending, .approved, .rejected] := by
    cases p.status <;> decide
  constructor
  · intro hp
    simp [hmodel, hstatus, hp.whitelist, hp.links]
  · rintro ⟨-, -, -, -, -, -, -, -, -, hwhitelist, hlinks, -⟩
    exact ⟨hwhitelist.1, hlinks.1⟩

theorem exact_vote : vote.Exact fun _ => True := by
  have hfields := exact_hash.pair <| exact_account.pair <| exact_word64.pair exact_word64
  exact hfields.imap (fun _ => rfl) (fun _ => rfl) fun _ => by simp

theorem exact_resolution : resolution.Exact fun _ => True := by
  have hfields := exact_hash.pair <| exact_pollStatus.pair exact_word64
  refine hfields.imap (fun _ => rfl) (fun _ => rfl) fun r => ?_
  have hstatus : r.status ∈ [PollStatus.pending, .approved, .rejected] := by
    cases r.status <;> decide
  simp [hstatus]

theorem exact_params : params.Exact fun _ => True := by
  have hfields := exact_word64.pair <| exact_word64.pair exact_word64
  exact hfields.imap (fun _ => rfl) (fun _ => rfl) fun _ => by simp

/-! ## What exactness says -/

namespace Exact

variable {l : Layout α} {fits : α → Prop}

/-- A value is read exactly if what is written for it comes first. -/
theorem decode_iff (h : l.Exact fits) {x : α} (hx : fits x) (bs : Bytes) :
    (∃ rest, l.decode bs = .ok (x, rest)) ↔ l.encode x <+: bs := by
  constructor
  · rintro ⟨rest, hread⟩
    exact ⟨rest, (h.written _ _ _ hread).2.symm⟩
  · rintro ⟨rest, rfl⟩
    exact ⟨rest, h.readsBack x hx rest⟩

/-- What is written for a value begins nothing that is written for another. -/
theorem eq_of_prefix (h : l.Exact fits) {x y : α} (hx : fits x) (hy : fits y)
    (hfront : l.encode x <+: l.encode y) : x = y := by
  obtain ⟨rest, hrest⟩ := hfront
  have hreadx := h.readsBack x hx rest
  have hready := h.readsBack y hy []
  rw [List.append_nil, ← hrest, hreadx] at hready
  cases hready
  rfl

/-- Whatever begins with nothing that is written for a value is refused, and nothing else. -/
theorem refused_iff (h : l.Exact fits) (bs : Bytes) :
    (∃ e, l.decode bs = .error e) ↔ ∀ x, fits x → ¬ l.encode x <+: bs := by
  constructor
  · rintro ⟨e, hrefused⟩ x hx hfront
    obtain ⟨rest, hread⟩ := (h.decode_iff hx bs).2 hfront
    rw [hrefused] at hread
    cases hread
  · intro hnone
    rcases hread : l.decode bs with e | ⟨x, rest⟩
    · exact ⟨e, rfl⟩
    · obtain ⟨hx, hwritten⟩ := h.written _ _ _ hread
      exact absurd ⟨rest, hwritten.symm⟩ (hnone x hx)

/-- A record that is cut off is refused. -/
theorem refuses_take (h : l.Exact fits) {x : α} (hx : fits x) {n : Nat}
    (hn : n < (l.encode x).length) : ∃ e, l.decode ((l.encode x).take n) = .error e := by
  refine (h.refused_iff _).2 ?_
  intro y hy hfront
  obtain rfl := h.eq_of_prefix hy hx (hfront.trans (List.take_prefix n _))
  have hle := hfront.length_le
  rw [List.length_take] at hle
  omega

end Exact

/-! ## Tags that mean nothing -/

/-- Behind these fields of a record comes something laid out by `m`: what is wrong with that is what
the record is refused for. -/
def Reaches (l : Layout α) (fields : List Bytes) (m : Layout β) : Prop :=
  ∀ bs e, m.decode bs = .error e → l.decode (fields.flatten ++ bs) = .error e

theorem reaches_imap (toFields : α → β) (ofFields : β → α) (b : Layout β) :
    (b.imap toFields ofFields).Reaches [] b := by
  intro bs e h
  change (b.decode bs >>= _) = _
  rw [h]
  rfl

/-- The first of two values is reached with the pair. -/
theorem Reaches.first {γ : Type} {l : Layout α} {fields : List Bytes} {a : Layout β}
    {b : Layout γ} (h : l.Reaches fields (a.pair b)) : l.Reaches fields a := by
  intro bs e hbs
  apply h
  change (a.decode bs >>= _) = _
  rw [hbs]
  rfl

/-- The second of two values is reached behind the first. -/
theorem Reaches.next {γ : Type} {l : Layout α} {fields : List Bytes} {a : Layout β} {b : Layout γ}
    (h : l.Reaches fields (a.pair b)) {x : β} (hx : a.ReadsBack x) {field : Bytes}
    (hfield : a.encode x = field) : l.Reaches (fields ++ [field]) b := by
  intro bs e hbs
  subst hfield
  have hpair : (a.pair b).decode (a.encode x ++ bs) = .error e := by
    change (a.decode (a.encode x ++ bs) >>= _) = _
    rw [hx]
    change (b.decode bs >>= _) = _
    rw [hbs]
    rfl
  have hl := h _ _ hpair
  simpa using hl

theorem option_refuses (a : Layout α) {tag : UInt8} (h0 : tag ≠ 0) (h1 : tag ≠ 1) (rest : Bytes) :
    a.option.decode (tag :: rest) = .error (.unknownOption tag) := by
  change (if tag = 0 then _ else if tag = 1 then _ else _) = _
  rw [if_neg h0, if_neg h1]

theorem variant_refuses [DecidableEq α] (variants : List α) {tag : UInt32}
    (h : variants.length ≤ tag.toNat) (rest : Bytes) :
    (variant variants).decode (word32.encode tag ++ rest)
      = .error (.unknownVariant tag variants.length) := by
  have hnone : variants[tag.toNat]? = none := List.getElem?_eq_none h
  change (word32.decode (word32.encode tag ++ rest) >>= _) = _
  rw [readsBack_word32]
  simp only [bind, Except.bind, hnone]
  rfl

theorem votingModel_refuses {tag : UInt32} (h : 5 ≤ tag.toNat) (rest : Bytes) :
    votingModel.decode (word32.encode tag ++ rest) = .error (.unknownVariant tag 5) :=
  variant_refuses [VotingModel.none, .account, .assetWeighted, .currencyWeighted,
    .transactionApproval] h rest

theorem pollStatus_refuses {tag : UInt32} (h : 3 ≤ tag.toNat) (rest : Bytes) :
    pollStatus.decode (word32.encode tag ++ rest) = .error (.unknownVariant tag 3) :=
  variant_refuses [PollStatus.pending, .approved, .rejected] h rest

theorem balanceFloor_refuses {tag : UInt32} (h : 4 ≤ tag.toNat) (rest : Bytes) :
    balanceFloor.decode (word32.encode tag ++ rest) = .error (.unknownVariant tag 4) := by
  have hne : ∀ n : UInt32, n.toNat < 4 → tag ≠ n := by
    rintro n hn rfl
    omega
  change (word32.decode (word32.encode tag ++ rest) >>= _) = _
  rw [readsBack_word32]
  simp only [bind, Except.bind, if_neg (hne 0 (by decide)), if_neg (hne 1 (by decide)),
    if_neg (hne 2 (by decide)), if_neg (hne 3 (by decide))]
  rfl

end Layout

/-! ## Formats -/

/-- What a kind of record looks like in bytes. -/
structure RecordFormat (α : Type) where
  /-- The values that can be written. -/
  fits : α → Prop
  /-- The bytes of the fields, in the order of their declaration. -/
  fields : α → List Bytes
  /-- The places of the fields that begin with the number of a variant, and how many variants each
  of them has. -/
  variants : List (Nat × Nat)
  /-- The places of the fields that begin with the byte of an optional value. -/
  options : List Nat

namespace RecordFormat

variable {α : Type}

/-- Eight bytes, least significant first. -/
def word (w : UInt64) : Bytes := littleEndian 8 w.toNat

/-- The number of a variant: four bytes, least significant first. -/
def number (n : Nat) : Bytes := littleEndian 4 n

/-- The byte 0, or the byte 1 and the value. -/
def optional (field : α → Bytes) : Option α → Bytes
  | none => [0]
  | some x => 1 :: field x

/-- The length in eight bytes, then the members. -/
def listed (field : α → Bytes) (xs : List α) : Bytes :=
  word (UInt64.ofNat xs.length) ++ xs.flatMap field

/-- The first fields of a value, as many as this. -/
def before (format : RecordFormat α) (place : Nat) (x : α) : Bytes :=
  ((format.fields x).take place).flatten

end RecordFormat

/-- The number of a voting model. -/
def VotingModel.number : VotingModel → Nat
  | .none => 0
  | .account => 1
  | .assetWeighted => 2
  | .currencyWeighted => 3
  | .transactionApproval => 4

/-- The number of a status. -/
def PollStatus.number : PollStatus → Nat
  | .pending => 0
  | .approved => 1
  | .rejected => 2

/-- The number of a floor, then the holding if there is one. -/
def BalanceFloor.bytes : BalanceFloor → Bytes
  | .none => RecordFormat.number 0
  | .native => RecordFormat.number 1
  | .asset id => RecordFormat.number 2 ++ RecordFormat.word id.id
  | .currency id => RecordFormat.number 3 ++ RecordFormat.word id.id

open RecordFormat in
/-- A poll in bytes. -/
def Poll.format : RecordFormat Poll where
  fits := Poll.Writable
  fields p := [p.key.bytes, word p.account.id, word p.createdHeight, word p.finishHeight,
    number p.model.number, optional (fun id => word id.id) p.holding, word p.minBalance,
    p.floor.bytes, optional word p.quorum, listed (fun a => word a.id) p.whitelist,
    listed Hash.bytes p.links, number p.status.number, word p.tally]
  variants := [(4, 5), (7, 4), (11, 3)]
  options := [5, 8]

open RecordFormat in
/-- A vote in bytes. -/
def Vote.format : RecordFormat Vote where
  fits _ := True
  fields v := [v.poll.bytes, word v.voter.id, word v.weight, word v.height]
  variants := []
  options := []

open RecordFormat in
/-- A change of status in bytes. -/
def Resolution.format : RecordFormat Resolution where
  fits _ := True
  fields r := [r.key.bytes, number r.status.number, word r.tally]
  variants := [(1, 3)]
  options := []

open RecordFormat in
/-- The limits on polls in bytes. -/
def Params.format : RecordFormat Params where
  fits _ := True
  fields p := [word p.maxFinishHorizon, word p.maxWhitelistSize, word p.maxLinks]
  variants := []
  options := []

namespace Layout

variable {α : Type}

/-- The layout writes and reads records of a format, and is exact about it. -/
structure Obeys (l : Layout α) (format : RecordFormat α) : Prop where
  /-- A value is written as its fields, one after another. -/
  encode_eq : ∀ x, l.encode x = (format.fields x).flatten
  /-- Reading gives a value if and only if what is written for it comes first. -/
  decode_iff : ∀ x, format.fits x → ∀ bs,
    (∃ rest, l.decode bs = .ok (x, rest)) ↔ l.encode x <+: bs
  /-- Reading undoes writing, whatever bytes follow, and leaves these. -/
  decode_encode : ∀ x, format.fits x → ∀ rest, l.decode (l.encode x ++ rest) = .ok (x, rest)
  /-- What is written for a value begins nothing that is written for another. -/
  eq_of_prefix : ∀ x y, format.fits x → format.fits y → l.encode x <+: l.encode y → x = y
  /-- A record that is cut off is refused. -/
  refuses_take : ∀ x, format.fits x → ∀ n < (l.encode x).length,
    ∃ e, l.decode ((l.encode x).take n) = .error e
  /-- Refused is exactly what begins with nothing that is written for a value. -/
  refused_iff : ∀ bs, (∃ e, l.decode bs = .error e) ↔ ∀ x, format.fits x → ¬ l.encode x <+: bs
  /-- A record with a number that no variant has is refused. -/
  refuses_variant : ∀ x, format.fits x → ∀ place ∈ format.variants, ∀ tag : UInt32,
    place.2 ≤ tag.toNat → ∀ rest,
    l.decode (format.before place.1 x ++ (RecordFormat.number tag.toNat ++ rest))
      = .error (.unknownVariant tag place.2)
  /-- A record with an optional value behind a byte other than 0 and 1 is refused. -/
  refuses_option : ∀ x, format.fits x → ∀ place ∈ format.options, ∀ tag : UInt8,
    tag ≠ 0 → tag ≠ 1 → ∀ rest,
    l.decode (format.before place x ++ tag :: rest) = .error (.unknownOption tag)

/-- A layout that is exact obeys a format if it writes the fields of the format and refuses the tags
that mean nothing. -/
theorem Exact.obeys {l : Layout α} {format : RecordFormat α} (h : l.Exact format.fits)
    (hencode : ∀ x, l.encode x = (format.fields x).flatten)
    (hvariant : ∀ x, format.fits x → ∀ place ∈ format.variants, ∀ tag : UInt32,
      place.2 ≤ tag.toNat → ∀ rest,
      l.decode (format.before place.1 x ++ (word32.encode tag ++ rest))
        = .error (.unknownVariant tag place.2))
    (hoption : ∀ x, format.fits x → ∀ place ∈ format.options, ∀ tag : UInt8,
      tag ≠ 0 → tag ≠ 1 → ∀ rest,
      l.decode (format.before place x ++ tag :: rest) = .error (.unknownOption tag)) :
    l.Obeys format where
  encode_eq := hencode
  decode_iff _ hx := h.decode_iff hx
  decode_encode := h.readsBack
  eq_of_prefix _ _ hx hy := h.eq_of_prefix hx hy
  refuses_take _ hx _ hn := h.refuses_take hx hn
  refused_iff := h.refused_iff
  refuses_variant := hvariant
  refuses_option := hoption

theorem encode_votingModel (m : VotingModel) :
    votingModel.encode m = RecordFormat.number m.number := by
  cases m <;> rfl

theorem encode_pollStatus (s : PollStatus) :
    pollStatus.encode s = RecordFormat.number s.number := by
  cases s <;> rfl

theorem encode_balanceFloor (floor : BalanceFloor) : balanceFloor.encode floor = floor.bytes := by
  cases floor <;> rfl

theorem encode_optional {a : Layout α} {field : α → Bytes} (h : ∀ x, a.encode x = field x)
    (o : Option α) : a.option.encode o = RecordFormat.optional field o := by
  cases o with
  | none => rfl
  | some x => exact congrArg (1 :: ·) (h x)

theorem encode_poll (p : Poll) : poll.encode p = (Poll.format.fields p).flatten := by
  have hholding : holdingId.option.encode p.holding
      = RecordFormat.optional (fun id => RecordFormat.word id.id) p.holding :=
    encode_optional (fun _ => rfl) p.holding
  have hquorum : word64.option.encode p.quorum
      = RecordFormat.optional RecordFormat.word p.quorum :=
    encode_optional (fun _ => rfl) p.quorum
  simp only [Poll.format, List.flatten_cons, List.flatten_nil, List.append_nil]
  rw [← encode_votingModel, ← encode_balanceFloor, ← encode_pollStatus, ← hholding, ← hquorum]
  rfl

theorem encode_resolution (r : Resolution) :
    resolution.encode r = (Resolution.format.fields r).flatten := by
  simp only [Resolution.format, List.flatten_cons, List.flatten_nil, List.append_nil]
  rw [← encode_pollStatus]
  rfl

/-- Every field of a poll that begins with a tag is reached behind the fields before it. -/
theorem poll_reaches {p : Poll} (hp : p.Writable) :
    poll.Reaches ((Poll.format.fields p).take 4) votingModel ∧
    poll.Reaches ((Poll.format.fields p).take 5) holdingId.option ∧
    poll.Reaches ((Poll.format.fields p).take 7) balanceFloor ∧
    poll.Reaches ((Poll.format.fields p).take 8) word64.option ∧
    poll.Reaches ((Poll.format.fields p).take 11) pollStatus := by
  have hholding := readsBack_option (o := p.holding) fun id _ => readsBack_holdingId id
  have hquorum := readsBack_option (o := p.quorum) fun quorum _ => readsBack_word64 quorum
  have hwhitelist := readsBack_list (fun a _ => readsBack_account a) hp.whitelist
  have hlinks := readsBack_list (fun link _ => readsBack_hash link) hp.links
  have h₀ : poll.Reaches [] (hash.pair _) := reaches_imap _ _ _
  have h₁ := h₀.next (readsBack_hash p.key) rfl
  have h₂ := h₁.next (readsBack_account p.account) rfl
  have h₃ := h₂.next (readsBack_word64 p.createdHeight) rfl
  have h₄ := h₃.next (readsBack_word64 p.finishHeight) rfl
  have h₅ := h₄.next (readsBack_votingModel p.model) (encode_votingModel _)
  have h₆ := h₅.next hholding (encode_optional (fun _ => rfl) _)
  have h₇ := h₆.next (readsBack_word64 p.minBalance) rfl
  have h₈ := h₇.next (readsBack_balanceFloor p.floor) (encode_balanceFloor _)
  have h₉ := h₈.next hquorum (encode_optional (fun _ => rfl) _)
  have h₁₀ := h₉.next hwhitelist rfl
  have h₁₁ := h₁₀.next hlinks rfl
  exact ⟨h₄.first, h₅.first, h₇.first, h₈.first, h₁₁.first⟩

theorem obeys_poll : poll.Obeys Poll.format := by
  refine exact_poll.obeys encode_poll ?_ ?_
  · intro p hp place hplace tag htag rest
    obtain ⟨hmodel, -, hfloor, -, hstatus⟩ := poll_reaches hp
    simp only [Poll.format, List.mem_cons, List.not_mem_nil, or_false] at hplace
    rcases hplace with rfl | rfl | rfl
    · exact hmodel _ _ (votingModel_refuses htag rest)
    · exact hfloor _ _ (balanceFloor_refuses htag rest)
    · exact hstatus _ _ (pollStatus_refuses htag rest)
  · intro p hp place hplace tag h0 h1 rest
    obtain ⟨-, hholding, -, hquorum, -⟩ := poll_reaches hp
    simp only [Poll.format, List.mem_cons, List.not_mem_nil, or_false] at hplace
    rcases hplace with rfl | rfl
    · exact hholding _ _ (option_refuses _ h0 h1 rest)
    · exact hquorum _ _ (option_refuses _ h0 h1 rest)

theorem obeys_vote : vote.Obeys Vote.format := by
  refine exact_vote.obeys (fun v => ?_) ?_ ?_
  · simp only [Vote.format, List.flatten_cons, List.flatten_nil, List.append_nil]
    rfl
  · intro v _ place hplace
    cases hplace
  · intro v _ place hplace
    cases hplace

theorem obeys_resolution : resolution.Obeys Resolution.format := by
  refine exact_resolution.obeys encode_resolution ?_ ?_
  · intro r _ place hplace tag htag rest
    have h₀ : resolution.Reaches [] (hash.pair _) := reaches_imap _ _ _
    have h₁ := h₀.next (readsBack_hash r.key) rfl
    obtain rfl := List.mem_singleton.1 hplace
    exact h₁.first _ _ (pollStatus_refuses htag rest)
  · intro r _ place hplace
    cases hplace

theorem obeys_params : params.Obeys Params.format := by
  refine exact_params.obeys (fun p => ?_) ?_ ?_
  · simp only [Params.format, List.flatten_cons, List.flatten_nil, List.append_nil]
    rfl
  · intro p _ place hplace
    cases hplace
  · intro p _ place hplace
    cases hplace

end Layout

/-- **Records are a prefix code.**  Polls, votes, changes of status and limits are each written as
the bytes of their fields, in the order of their declaration.  Reading gives a value if and only if
what is written for that value comes first, whatever bytes follow; nothing that is written for one
value begins what is written for another; and a record that is cut off, or that has the number of
no variant or a wrong byte before an optional value, is refused.  All that is asked of a poll is
that the lengths of its lists can be written with 64 bits. -/
theorem records_are_prefix_codes :
    Layout.poll.Obeys Poll.format ∧ Layout.vote.Obeys Vote.format ∧
    Layout.resolution.Obeys Resolution.format ∧ Layout.params.Obeys Params.format :=
  ⟨Layout.obeys_poll, Layout.obeys_vote, Layout.obeys_resolution, Layout.obeys_params⟩

end Finality
