import Finality.Proofs.Ledger.Simulated
import Mathlib.Data.List.Nodup

/-!
# What is past stays as it was

A balance at a height is read off what is recorded at or below it: amounts, and releases.  As long
as the tip is above the height, all that happens is recorded above it, and so the balance stays.

* `Operation.Spares` — an operation does not touch what is recorded at or below a height.
* `SamePast` — two ledgers have the same records there: what one such operation keeps
  (`Operation.perform_samePast`), and a run of them (`performAll_samePast`).
* `SamePast.balanceOf_eq` — balances at the height are then the same.
* `Latest`, `received`, `paid` — the balance in terms of what is recorded
  (`baseBalance_latest`, `releasedEffect_eq`, `toNat_clamp`), whatever the order in which the
  releases are listed (`received_perm`, `paid_perm`).
* `releaseInOrder` — releases made one after another, which may be made in any order
  (`releaseInOrder_perm`).
* `past_balances_immutable` — the result.
-/

namespace Finality

namespace SimulatedLedger

/-! ## Operations -/

/-- What can be done to a ledger. -/
inductive Operation where
  /-- A balance is set. -/
  | setBalance (account : AccountId) (holding : Holding) (height : Height) (amount : Amount)
  /-- An asset or a currency is added. -/
  | addHolding (kind : HoldingKind) (id : HoldingId)
  /-- The effect of a transaction is set. -/
  | defer (t : Hash) (transfer : Transfer)
  /-- A release is made to fail. -/
  | failRelease (t : Hash)
  /-- An undoing is made to fail. -/
  | failUndo (t : Hash)
  /-- Nothing is made to fail any more. -/
  | clearFailures (t : Hash)
  /-- The tip moves. -/
  | setTip (height : Height)
  /-- A transaction is to be released. -/
  | applyRelease (t : Hash)
  /-- A release is to be undone. -/
  | undoRelease (t : Hash)

namespace Operation

/-- The ledger after an operation, whether it has succeeded or failed. -/
def perform (l : SimulatedLedger) : Operation → SimulatedLedger
  | .setBalance account holding height amount => l.setBalance account holding height amount
  | .addHolding kind id => l.addHolding kind id
  | .defer t transfer => l.defer t transfer
  | .failRelease t => l.failRelease t
  | .failUndo t => l.failUndo t
  | .clearFailures t => l.clearFailures t
  | .setTip height => l.setTip height
  | .applyRelease t => ((Ledger.applyRelease t).start l).2
  | .undoRelease t => ((Ledger.undoRelease t).start l).2

/-- The operation does not touch what is recorded at or below a height: balances are set above it,
the tip stays above it, and releases that are undone, or whose effect is set anew, are recorded
above it. -/
def Spares (height : Height) (l : SimulatedLedger) : Operation → Prop
  | .setBalance _ _ above _ => height < above
  | .setTip above => height < above
  | .defer t _ | .undoRelease t => ∀ r, l.released.find? t = some r → height < r
  | _ => True

end Operation

/-- The ledger after one operation after another. -/
def performAll (l : SimulatedLedger) (ops : List Operation) : SimulatedLedger :=
  ops.foldl Operation.perform l

/-- Each operation, when its turn comes, spares what is recorded at or below a height. -/
def AllSpare (height : Height) : SimulatedLedger → List Operation → Prop
  | _, [] => True
  | l, op :: ops => op.Spares height l ∧ AllSpare height (op.perform l) ops

/-! ## The same past -/

/-- The second ledger has the same records at or below a height as the first, and all that is
recorded from now on is above it. -/
structure SamePast (height : Height) (l l' : SimulatedLedger) : Prop where
  /-- The same amounts are set there. -/
  history : ∀ account holding k, k ≤ height →
    (l'.history account holding).find? k = (l.history account holding).find? k
  /-- The same releases are recorded there. -/
  released : ∀ t r, r ≤ height → (l'.released.find? t = some r ↔ l.released.find? t = some r)
  /-- Their effects are the same. -/
  deferred : ∀ t r, r ≤ height → l.released.find? t = some r →
    l'.deferred.find? t = l.deferred.find? t
  /-- The tip is above. -/
  tip : ∃ tip, l'.tip = some tip ∧ height < tip

variable {height : Height} {l l' l'' : SimulatedLedger}

theorem SamePast.refl (h : ∃ tip, l.tip = some tip ∧ height < tip) : SamePast height l l where
  history _ _ _ _ := rfl
  released _ _ _ := Iff.rfl
  deferred _ _ _ _ := rfl
  tip := h

theorem SamePast.trans (h : SamePast height l l') (h' : SamePast height l' l'') :
    SamePast height l l'' where
  history account holding k hk :=
    (h'.history account holding k hk).trans (h.history account holding k hk)
  released t r hr := (h'.released t r hr).trans (h.released t r hr)
  deferred t r hr ht :=
    (h'.deferred t r hr ((h.released t r hr).2 ht)).trans (h.deferred t r hr ht)
  tip := h'.tip

/-- **One operation** that spares the past leaves it as it was. -/
theorem Operation.perform_samePast {op : Operation} (hop : op.Spares height l)
    (htip : ∃ tip, l.tip = some tip ∧ height < tip) : SamePast height l (op.perform l) := by
  have hsame := SamePast.refl htip
  cases op with
  | setBalance account holding above amount =>
    refine ⟨fun a h k hk => ?_, hsame.released, hsame.deferred, hsame.tip⟩
    have hne : k ≠ above := by
      rintro rfl
      exact UInt64.not_lt.2 hk hop
    simp only [perform, SimulatedLedger.setBalance]
    split
    · rw [Table.find?_insert, if_neg hne]
    · rfl
  | addHolding kind id => exact ⟨hsame.history, hsame.released, hsame.deferred, hsame.tip⟩
  | defer t transfer =>
    refine ⟨hsame.history, hsame.released, fun u r hr hu => ?_, hsame.tip⟩
    have hne : u ≠ t := by
      rintro rfl
      exact UInt64.not_lt.2 hr (hop r hu)
    simp only [perform, SimulatedLedger.defer]
    rw [Table.find?_insert, if_neg hne]
  | failRelease t => exact ⟨hsame.history, hsame.released, hsame.deferred, hsame.tip⟩
  | failUndo t => exact ⟨hsame.history, hsame.released, hsame.deferred, hsame.tip⟩
  | clearFailures t => exact ⟨hsame.history, hsame.released, hsame.deferred, hsame.tip⟩
  | setTip above => exact ⟨hsame.history, hsame.released, hsame.deferred, above, rfl, hop⟩
  | applyRelease t =>
    rcases hcall : (Ledger.applyRelease t).start l with ⟨e | ⟨⟩, l'⟩
    · have hl : l' = l := applyRelease_error hcall
      simpa only [perform, hcall, hl] using hsame
    · obtain ⟨hreleasable, hl⟩ := applyRelease_ok hcall
      obtain ⟨tip, htip, habove⟩ := htip
      simp only [perform, hcall, hl, htip]
      refine ⟨hsame.history, fun u r hr => ?_, hsame.deferred, tip, rfl, habove⟩
      rw [Table.find?_insert]
      split
      · rename_i hu
        -- The new record is above, and there was none before.
        subst hu
        have hnone := Table.contains_eq_false_iff.1 hreleasable.unreleased
        have hne : tip ≠ r := by
          rintro rfl
          exact UInt64.not_lt.2 hr habove
        simp [hnone, hne]
      · exact Iff.rfl
  | undoRelease t =>
    rcases hcall : (Ledger.undoRelease t).start l with ⟨e | ⟨⟩, l'⟩
    · have hl : l' = l := undoRelease_error hcall
      simpa only [perform, hcall, hl] using hsame
    · obtain ⟨-, hl⟩ := undoRelease_ok hcall
      simp only [perform, hcall, hl]
      refine ⟨hsame.history, fun u r hr => ?_, hsame.deferred, htip⟩
      rw [Table.find?_erase]
      split
      · rename_i hu
        subst hu
        refine iff_of_false (by simp) fun hrecord => ?_
        exact UInt64.not_lt.2 hr (hop r hrecord)
      · exact Iff.rfl

/-- **One operation after another** leaves the past as it was. -/
theorem performAll_samePast {ops : List Operation} (hops : AllSpare height l ops)
    (htip : ∃ tip, l.tip = some tip ∧ height < tip) : SamePast height l (l.performAll ops) := by
  induction ops generalizing l with
  | nil => exact .refl htip
  | cons op ops ih =>
    have hfirst := Operation.perform_samePast hops.1 htip
    exact hfirst.trans (ih hops.2 hfirst.tip)

/-! ## The same balances -/

variable {account : AccountId} {holding : Holding}

theorem SamePast.baseBalance_eq (h : SamePast height l l') :
    l'.baseBalance account holding height = l.baseBalance account holding height := by
  have hamounts : (l'.history account holding).filter (fun k _ => k ≤ height)
      = (l.history account holding).filter fun k _ => k ≤ height := by
    refine Table.ext_find? fun k => ?_
    rw [Table.find?_filter, Table.find?_filter]
    by_cases hk : k ≤ height
    · rw [h.history account holding k hk]
    · refine Option.ext fun a => ?_
      simp [hk]
  exact congrArg (fun t : Table Height Amount => (t.entries.getLast?.map (·.2)).getD 0) hamounts

theorem SamePast.releasedEffect_eq (h : SamePast height l l') :
    l'.releasedEffect account holding height = l.releasedEffect account holding height := by
  have hreleases : l'.released.entries.filter (fun e => e.2 ≤ height)
      = l.released.entries.filter fun e => e.2 ≤ height := by
    refine congrArg Table.entries (Table.ext_find? (t := l'.released.filter fun _ r => r ≤ height)
      (u := l.released.filter fun _ r => r ≤ height) fun t => Option.ext fun r => ?_)
    rw [Table.find?_filter, Table.find?_filter, Option.filter_eq_some_iff,
      Option.filter_eq_some_iff]
    exact and_congr_left fun hr => h.released t r (of_decide_eq_true hr)
  unfold releasedEffect
  rw [hreleases]
  refine List.foldr_ext _ _ 0 fun e he total => ?_
  obtain ⟨hmem, hr⟩ := List.mem_filter.1 he
  rw [h.deferred e.1 e.2 (of_decide_eq_true hr) ((l.released.mem_entries_iff e.1 e.2).1 hmem)]

/-- **Balances** at a height are the same where the past is. -/
theorem SamePast.balanceOf_eq (h : SamePast height l l') {tip : Height} (htip : l.tip = some tip)
    (habove : height < tip) :
    l'.balanceOf account holding height = l.balanceOf account holding height := by
  obtain ⟨tip', htip', habove'⟩ := h.tip
  unfold balanceOf
  rw [h.baseBalance_eq, h.releasedEffect_eq, htip, htip']
  dsimp only
  rw [if_neg (UInt64.lt_asymm habove), if_neg (UInt64.lt_asymm habove')]

/-! ## Balances from what is recorded -/

/-- The latest amount set at or below a height; zero if there is none. -/
def Latest (l : SimulatedLedger) (account : AccountId) (holding : Holding) (height : Height)
    (amount : Amount) : Prop :=
  (∃ k, k ≤ height ∧ (l.history account holding).find? k = some amount ∧
    ∀ k' a, k' ≤ height → (l.history account holding).find? k' = some a → k' ≤ k) ∨
  (amount = 0 ∧ ∀ k, k ≤ height → (l.history account holding).find? k = none)

theorem baseBalance_latest (l : SimulatedLedger) (account : AccountId) (holding : Holding)
    (height : Height) : l.Latest account holding height (l.baseBalance account holding height) := by
  obtain ⟨below, hbelow⟩ :
      ∃ es, es = (l.history account holding).entries.filter fun e => e.1 ≤ height := ⟨_, rfl⟩
  have hbase : l.baseBalance account holding height = (below.getLast?.map (·.2)).getD 0 := by
    rw [hbelow]
    rfl
  have hmem : ∀ k a, (k, a) ∈ below ↔
      (l.history account holding).find? k = some a ∧ k ≤ height := by
    intro k a
    rw [hbelow, List.mem_filter, Table.mem_entries_iff, decide_eq_true_iff]
  have hascending : below.Pairwise fun d e => compare d.1 e.1 = .lt := by
    rw [hbelow]
    exact (l.history account holding).ascending.filter _
  rw [hbase]
  rcases List.eq_nil_or_concat' below with rfl | ⟨front, ⟨k, a⟩, rfl⟩
  · refine .inr ⟨rfl, fun k hk => Option.eq_none_iff_forall_ne_some.2 fun a ha => ?_⟩
    exact List.not_mem_nil ((hmem k a).2 ⟨ha, hk⟩)
  · obtain ⟨hfind, hk⟩ := (hmem k a).1 (by simp)
    refine .inl ⟨k, hk, by simpa using hfind, fun k' a' hk' hfind' => ?_⟩
    rcases List.mem_append.1 ((hmem k' a').2 ⟨hfind', hk'⟩) with hin | hin
    · have hlt := (List.pairwise_append.1 hascending).2.2 _ hin _ (List.mem_cons_self ..)
      exact UInt64.le_of_lt (Std.compare_eq_lt.1 hlt)
    · cases List.mem_singleton.1 hin
      exact UInt64.le_refl _

/-- What an account receives in a holding by the transfers of these transactions. -/
def received (l : SimulatedLedger) (account : AccountId) (holding : Holding) : List Hash → Nat
  | [] => 0
  | t :: ts =>
    (match l.deferred.find? t with
      | some tr => if tr.holding = holding ∧ tr.target = account then tr.amount.toNat else 0
      | none => 0) + received l account holding ts

/-- What an account pays in a holding by the transfers of these transactions. -/
def paid (l : SimulatedLedger) (account : AccountId) (holding : Holding) : List Hash → Nat
  | [] => 0
  | t :: ts =>
    (match l.deferred.find? t with
      | some tr => if tr.holding = holding ∧ tr.source = account then tr.amount.toNat else 0
      | none => 0) + paid l account holding ts

theorem received_perm {ts us : List Hash} (h : ts.Perm us) :
    l.received account holding ts = l.received account holding us := by
  induction h with
  | nil => rfl
  | cons t _ ih => simp only [received, ih]
  | swap t u ts => simp only [received, Nat.add_left_comm]
  | trans _ _ ih ih' => exact ih.trans ih'

theorem paid_perm {ts us : List Hash} (h : ts.Perm us) :
    l.paid account holding ts = l.paid account holding us := by
  induction h with
  | nil => rfl
  | cons t _ ih => simp only [paid, ih]
  | swap t u ts => simp only [paid, Nat.add_left_comm]
  | trans _ _ ih ih' => exact ih.trans ih'

/-- The released transfers add what is received and take away what is paid. -/
theorem foldr_effectOn (l : SimulatedLedger) (account : AccountId) (holding : Holding)
    (es : List (Hash × Height)) :
    es.foldr (fun e total =>
        match l.deferred.find? e.1 with
        | some t => t.effectOn account holding + total
        | none => total) 0
      = (l.received account holding (es.map (·.1)) : Int)
        - l.paid account holding (es.map (·.1)) := by
  induction es with
  | nil => rfl
  | cons e es ih =>
    rw [List.foldr_cons, ih, List.map_cons, received, paid]
    cases l.deferred.find? e.1 with
    | none => simp
    | some t =>
      simp only [Transfer.effectOn]
      by_cases hholding : t.holding = holding
      · by_cases htarget : t.target = account <;> by_cases hsource : t.source = account <;>
          simp [hholding, htarget, hsource] <;> omega
      · simp [hholding]

/-- These are the transactions released at or below a height, each once. -/
def ListsReleases (l : SimulatedLedger) (height : Height) (ts : List Hash) : Prop :=
  ts.Nodup ∧ ∀ t, t ∈ ts ↔ ∃ r, l.released.find? t = some r ∧ r ≤ height

theorem releasedEffect_eq {ts : List Hash} (hts : l.ListsReleases height ts) :
    l.releasedEffect account holding height
      = (l.received account holding ts : Int) - l.paid account holding ts := by
  have hnodup : ((l.released.entries.filter fun e => e.2 ≤ height).map (·.1)).Nodup :=
    l.released.nodup_keys.sublist (List.filter_sublist.map _)
  have hperm : ((l.released.entries.filter fun e => e.2 ≤ height).map (·.1)).Perm ts := by
    refine (List.perm_ext_iff_of_nodup hnodup hts.1).2 fun t => ?_
    rw [hts.2, List.mem_map]
    constructor
    · rintro ⟨⟨t, r⟩, he, rfl⟩
      obtain ⟨hmem, hr⟩ := List.mem_filter.1 he
      exact ⟨r, (l.released.mem_entries_iff t r).1 hmem, of_decide_eq_true hr⟩
    · rintro ⟨r, hfind, hr⟩
      exact ⟨(t, r), List.mem_filter.2 ⟨(l.released.mem_entries_iff t r).2 hfind,
        decide_eq_true hr⟩, rfl⟩
  rw [← received_perm hperm, ← paid_perm hperm]
  exact foldr_effectOn l account holding _

/-- Amounts are cut off at the ends of their range, and nowhere else. -/
theorem toNat_clamp (n : Int) : ((clamp n).toNat : Int) = max 0 (min n (UInt64.size - 1)) := by
  have hlt : min n.toNat (UInt64.size - 1) < UInt64.size :=
    Nat.lt_of_le_of_lt (Nat.min_le_right ..) (by decide)
  rw [clamp, UInt64.toNat_ofNat_of_lt' hlt]
  have hsize : UInt64.size = 18446744073709551616 := rfl
  omega

/-! ## Releases in any order -/

/-- Releases transactions one after another, each in the block at its height. -/
def releaseInOrder (l : SimulatedLedger) :
    List (Hash × Height) → Except LedgerError SimulatedLedger
  | [] => .ok l
  | (t, height) :: rest => do
    let l ← (l.setTip height).applyRelease t
    releaseInOrder l rest

/-- The records of releases after these have been made. -/
def recordAll (released : Table Hash Height) (es : List (Hash × Height)) : Table Hash Height :=
  es.foldl (fun released e => released.insert e.1 e.2) released

/-- The order in which different transactions are recorded does not matter. -/
theorem recordAll_eq_of_perm {es es' : List (Hash × Height)} (hperm : es.Perm es')
    (hnodup : (es.map (·.1)).Nodup) (released : Table Hash Height) :
    recordAll released es = recordAll released es' := by
  refine hperm.foldl_eq' (fun a ha b hb released => ?_) released
  by_cases hkey : a.1 = b.1
  · rw [List.inj_on_of_nodup_map hnodup ha hb hkey]
  · exact released.insert_comm hkey a.2 b.2

theorem applyRelease_eq_ok_iff {t : Hash} :
    l.applyRelease t = .ok l' ↔
      l.Releasable t ∧ l' = { l with released := l.released.insert t (l.tip.getD 0) } := by
  constructor
  · intro h
    refine applyRelease_ok ?_
    show (Action.transaction fun l => (l.applyRelease t).map ((), ·)).start l = _
    rw [Action.start_transaction, h]
    rfl
  · rintro ⟨h, rfl⟩
    simp [applyRelease, h.deferred, h.unreleased, h.allowed]

/-- After a release, nothing stands in the way of the others in whose way nothing stood before. -/
theorem releasable_record {t u : Hash} {record : Height} :
    Releasable u { l with released := l.released.insert t record, tip := some record } ↔
      u ≠ t ∧ l.Releasable u := by
  have hcontains := Table.contains_insert l.released t u record
  constructor
  · intro h
    have hunreleased := h.unreleased
    rw [isReleased, Bool.eq_false_iff, ne_eq, hcontains, not_or] at hunreleased
    exact ⟨hunreleased.1, h.deferred, Bool.eq_false_iff.2 hunreleased.2, h.allowed⟩
  · rintro ⟨hne, h⟩
    refine ⟨h.deferred, ?_, h.allowed⟩
    rw [isReleased, Bool.eq_false_iff, ne_eq, hcontains]
    rintro (heq | hreleased)
    · exact hne heq
    · exact Bool.eq_false_iff.1 h.unreleased hreleased

/-- The first of several releases. -/
theorem releaseInOrder_cons {t : Hash} {record : Height} {es : List (Hash × Height)} :
    l.releaseInOrder ((t, record) :: es) = .ok l' ↔
      l.Releasable t ∧ releaseInOrder
        { l with released := l.released.insert t record, tip := some record } es = .ok l' := by
  have hfirst : ∀ l₁, (l.setTip record).applyRelease t = .ok l₁ ↔ l.Releasable t ∧
      l₁ = { l with released := l.released.insert t record, tip := some record } := by
    intro l₁
    rw [applyRelease_eq_ok_iff]
    exact and_congr_left fun _ => ⟨fun h => ⟨h.1, h.2, h.3⟩, fun h => ⟨h.1, h.2, h.3⟩⟩
  rw [releaseInOrder]
  cases hcall : (l.setTip record).applyRelease t with
  | error e =>
    refine iff_of_false (fun h => by cases h) fun h => ?_
    rw [(hfirst _).2 ⟨h.1, rfl⟩] at hcall
    cases hcall
  | ok l₁ =>
    obtain ⟨hreleasable, rfl⟩ := (hfirst l₁).1 hcall
    exact ⟨fun h => ⟨hreleasable, h⟩, fun h => h.2⟩

/-- **Releases succeed** just if nothing stands in the way of any, and none is made twice; then they
are recorded, each at its height. -/
theorem releaseInOrder_eq_ok_iff {es : List (Hash × Height)} :
    l.releaseInOrder es = .ok l' ↔
      ((es.map (·.1)).Nodup ∧ ∀ e ∈ es, l.Releasable e.1) ∧
        l' = { l with
          released := recordAll l.released es
          tip := (es.getLast?.map (·.2)).or l.tip } := by
  induction es generalizing l with
  | nil => simp [releaseInOrder, recordAll, eq_comm]
  | cons e es ih =>
    obtain ⟨t, record⟩ := e
    have htip : (((t, record) :: es).getLast?.map (·.2)).or l.tip
        = (es.getLast?.map (·.2)).or (some record) := by
      rw [List.getLast?_cons]
      cases es.getLast? <;> rfl
    have hrest : (∀ e ∈ es, Releasable e.1
        { l with released := l.released.insert t record, tip := some record }) ↔
          t ∉ es.map (·.1) ∧ ∀ e ∈ es, l.Releasable e.1 := by
      simp only [releasable_record, List.mem_map]
      constructor
      · intro h
        refine ⟨?_, fun e he => (h e he).2⟩
        rintro ⟨e, he, rfl⟩
        exact (h e he).1 rfl
      · rintro ⟨hnew, h⟩ e he
        exact ⟨fun heq => hnew ⟨e, he, heq⟩, h e he⟩
    rw [releaseInOrder_cons, ih, hrest, htip, List.map_cons, List.nodup_cons, List.forall_mem_cons]
    constructor
    · rintro ⟨ht, ⟨hnodup, hnew, hes⟩, rfl⟩
      exact ⟨⟨⟨hnew, hnodup⟩, ht, hes⟩, rfl⟩
    · rintro ⟨⟨⟨hnew, hnodup⟩, ht, hes⟩, rfl⟩
      exact ⟨ht, ⟨hnodup, hnew, hes⟩, rfl⟩

/-- **Releases may be made in any order**: if they succeed in one, they do in every other, and
nothing but the tip can tell the ledgers apart. -/
theorem releaseInOrder_perm {es es' : List (Hash × Height)} (hperm : es.Perm es')
    (h : l.releaseInOrder es = .ok l') :
    ∃ l'', l.releaseInOrder es' = .ok l'' ∧ ∀ tip, l''.setTip tip = l'.setTip tip := by
  obtain ⟨⟨hnodup, hreleasable⟩, rfl⟩ := releaseInOrder_eq_ok_iff.1 h
  refine ⟨_, releaseInOrder_eq_ok_iff.2 ⟨⟨?_, fun e he => ?_⟩, rfl⟩, fun tip => ?_⟩
  · exact (hperm.map _).nodup_iff.1 hnodup
  · exact hreleasable e (hperm.mem_iff.2 he)
  · simp only [setTip, recordAll_eq_of_perm hperm hnodup]

/-! ## The result -/

/-- **Ledger history below the tip is immutable.**  Whatever is done to a ledger that does not touch
what is recorded at or below a height below the tip — releases made or refused, later ones undone,
balances set above, the tip moved but kept above, failures set and cleared — every balance at that
height is answered, and answered as before.

A balance at a height, which must not be above the tip, is the latest amount set at or below it,
with all that is received and without all that is paid by the transactions released at or below it,
listed in any order, and cut off at the ends of the 64-bit range.  The order in which the
transactions were released makes no difference. -/
theorem past_balances_immutable (l : SimulatedLedger) :
    (∀ tip height ops, l.tip = some tip → height < tip → l.AllSpare height ops →
      ∀ account holding, ∃ balance, l.balanceOf account holding height = .ok balance ∧
        (l.performAll ops).balanceOf account holding height = .ok balance) ∧
    (∀ account holding height ts, (∀ tip, l.tip = some tip → height ≤ tip) →
      l.ListsReleases height ts →
        ∃ base balance, l.Latest account holding height base ∧
          l.balanceOf account holding height = .ok balance ∧
          (balance.toNat : Int) = max (0 : Int) (min
            ((base.toNat : Int) + l.received account holding ts - l.paid account holding ts)
            ((UInt64.size : Int) - 1))) ∧
    (∀ es es' l', es.Perm es' → l.releaseInOrder es = .ok l' →
      ∃ l'', l.releaseInOrder es' = .ok l'' ∧ ∀ tip, l''.setTip tip = l'.setTip tip) := by
  have hanswer : ∀ account holding height, (∀ tip, l.tip = some tip → height ≤ tip) →
      l.balanceOf account holding height = .ok (clamp
        ((l.baseBalance account holding height).toNat
          + l.releasedEffect account holding height)) := by
    intro account holding height hfinal
    unfold balanceOf
    cases htip : l.tip with
    | none => rfl
    | some tip => exact if_neg (UInt64.not_lt.2 (hfinal tip htip))
  refine ⟨?_, ?_, fun es es' l' => releaseInOrder_perm⟩
  · intro tip height ops htip habove hops account holding
    have hpast := performAll_samePast hops ⟨tip, htip, habove⟩
    have hbalance := hanswer account holding height fun tip' htip' => by
      cases htip.symm.trans htip'
      exact UInt64.le_of_lt habove
    exact ⟨_, hbalance, (hpast.balanceOf_eq htip habove).trans hbalance⟩
  · intro account holding height ts hfinal hts
    refine ⟨_, _, l.baseBalance_latest account holding height,
      hanswer account holding height hfinal, ?_⟩
    rw [toNat_clamp, releasedEffect_eq hts, Int.add_sub_assoc]

/-- A ledger at the block at height five.  Account one has had 100 from the start and paid 30 at
height two; it will pay 50 by a second transaction. -/
def busy : SimulatedLedger :=
  { (((empty.setBalance ⟨1⟩ .native 0 100).defer .zero ⟨⟨1⟩, ⟨2⟩, .native, 30⟩).defer .ones
      ⟨⟨1⟩, ⟨2⟩, .native, 50⟩) with
    released := (∅ : Table Hash Height).insert .zero 2
    tip := some 5 }

/-- The second transaction is released at height five, refused the second time, undone, and released
at height nine; a balance is set at height four.  Account one still has 70 at height three, and has
not at height nine. -/
theorem past_balances_immutable_busy :
    let ops : List Operation := [.applyRelease .ones, .applyRelease .ones, .undoRelease .ones,
      .setBalance ⟨1⟩ .native 4 10, .setTip 9, .failUndo .zero, .applyRelease .ones]
    busy.AllSpare 3 ops ∧ busy.balanceOf ⟨1⟩ .native 3 = .ok 70 ∧
      (busy.performAll ops).balanceOf ⟨1⟩ .native 3 = .ok 70 ∧
      (busy.performAll ops).balanceOf ⟨1⟩ .native 9 = .ok 0 := by
  intro ops
  have hspare : busy.AllSpare 3 ops := by
    have hset : (3 : Height) < 4 := by decide
    have htip : (3 : Height) < 9 := by decide
    refine ⟨trivial, trivial, fun r hr => ?_, hset, htip, trivial, trivial, trivial⟩
    cases (show some 5 = some r from hr)
    decide
  have hbefore : busy.balanceOf ⟨1⟩ .native 3 = .ok 70 := by decide +kernel
  obtain ⟨balance, hbalance, hafter⟩ :=
    (past_balances_immutable busy).1 5 3 ops rfl (by decide) hspare ⟨1⟩ .native
  cases hbefore.symm.trans hbalance
  exact ⟨hspare, hbefore, hafter, by decide +kernel⟩

end SimulatedLedger

end Finality
