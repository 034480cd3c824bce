import Finality.Proofs.Action
import Finality.Proofs.Record.PrefixCode
import Finality.Proofs.Store.Durable

/-!
# All or nothing

Whatever bytes its tables hold — records that cannot be read, keys of any length, index entries
without a poll — a call of the durable store either does its work or changes nothing.

* `StoreRequest.atomic` — a call that fails changes nothing.
* `Database.removed_nothing` — neither does a removal that finds nothing.
* `Database.Holds` — the poll that the record under a key can be read as.
  `Database.applyResolution_eq_ok` says what one change of status does to the tables,
  `Database.holds_rewrite` which polls can be read afterwards.
* `Database.Rewritten` — what a batch makes of the tables: the changes of one poll come down to the
  last of them (`Database.rewritten_of_applyResolutions`), and the batch is written just if every
  poll in it can be read (`Database.applyResolutions_ok_iff`).
* `durable_calls_all_or_nothing` — the result for all calls.
-/

namespace Finality

/-- **A call that fails changes nothing.** -/
theorem StoreRequest.atomic (c : StoreRequest) :
    (c.action : Action Database StoreError StoreReply).Atomic := by
  cases c with
  | insertPoll p => exact .map (.transaction _) _
  | findPoll key => exact .map (.query _) _
  | deletePoll key => exact .map (.transaction _) _
  | pollsFinishingAt height => exact .map (.query _) _
  | pollsOf account => exact .map (.query _) _
  | pollsCreatedAt height => exact .map (.query _) _
  | pendingFinishingAt height => exact .map (.map (.query _) _) _
  | pendingOf account => exact .map (.map (.query _) _) _
  | applyResolutions rs => exact .map (.transaction _) _
  | countPolls => exact .map (.query _) _
  | insertVote x => exact .map (.transaction _) _
  | findVote poll voter => exact .map (.query _) _
  | votesOn poll => exact .map (.query _) _
  | deleteVote poll voter => exact .map (.transaction _) _
  | votesCastAt height => exact .map (.query _) _
  | countVotes poll => exact .map (.map (.query _) _) _

namespace Database

/-- Opening the tables, as a call on them. -/
def opening : Action Database DatabaseError Unit :=
  Action.transaction fun db => db.opened.map ((), ·)

/-! ## Removing nothing -/

theorem deletePoll_nothing {hash : Hash} {db db' : Database}
    (h : db.deletePoll hash = .ok (false, db')) : db' = db := by
  unfold deletePoll at h
  cases hread : db.readPoll hash with
  | error e =>
    rw [hread] at h
    cases h
  | ok found =>
    rw [hread] at h
    cases found with
    | none =>
      cases h
      rfl
    | some p => cases h

theorem deleteVote_nothing {poll : Hash} {voter : AccountId} {db db' : Database}
    (h : db.deleteVote poll voter = .ok (false, db')) : db' = db := by
  unfold deleteVote at h
  cases hread : db.readVote poll voter with
  | error e =>
    rw [hread] at h
    cases h
  | ok found =>
    rw [hread] at h
    cases found with
    | none =>
      cases h
      rfl
    | some v => cases h

/-- A removal in a transaction that finds nothing changes nothing if the removal itself does not. -/
theorem start_removal {f : Database → Except DatabaseError (Bool × Database)} {db db' : Database}
    (hf : ∀ db', f db = .ok (false, db') → db' = db)
    (h : (Action.transaction fun db => (f db).mapError toStoreError).start db = (.ok false, db')) :
    db' = db := by
  rw [Action.start_transaction] at h
  cases hfound : f db with
  | error e =>
    rw [hfound] at h
    cases h
  | ok r =>
    obtain ⟨existed, db₁⟩ := r
    rw [hfound] at h
    cases h
    exact hf _ hfound

/-- **A removal that finds nothing changes nothing.** -/
theorem removed_nothing {c : StoreRequest} {db db' : Database}
    (h : c.action.start db = (.ok (.removed false), db')) : db' = db := by
  -- Only the two removals have such an answer.
  cases c with
  | deletePoll key =>
    obtain ⟨existed, s, hcall, hreply⟩ := Action.exists_of_start_bind h
    cases hreply
    exact start_removal (fun _ => deletePoll_nothing) hcall
  | deleteVote poll voter =>
    obtain ⟨existed, s, hcall, hreply⟩ := Action.exists_of_start_bind h
    cases hreply
    exact start_removal (fun _ => deleteVote_nothing) hcall
  | _ =>
    obtain ⟨answer, s, hcall, hreply⟩ := Action.exists_of_start_bind h
    cases hreply

/-! ## One change of status -/

/-- The record under a key can be read as this poll, whatever bytes come after it. -/
def Holds (db : Database) (key : Hash) (p : Poll) : Prop :=
  ∃ bs rest, db.polls.find? key.bytes = some bs ∧ Layout.poll.decode bs = .ok (p, rest)

variable {db db' : Database} {key : Hash} {p q : Poll} {r : Resolution} {rs : List Resolution}

theorem readPoll_eq_some_iff : db.readPoll key = .ok (some p) ↔ db.Holds key p := by
  unfold readPoll Holds readRecord
  cases hfound : db.polls.find? key.bytes with
  | none => simp
  | some bs =>
    rcases hread : Layout.poll.decode bs with e | ⟨q, rest⟩
    · simp [hread, Except.map]
    · simp [hread, Except.map]

theorem Holds.unique (hp : db.Holds key p) (hq : db.Holds key q) : p = q := by
  have hread := readPoll_eq_some_iff.2 hp
  rw [readPoll_eq_some_iff.2 hq] at hread
  cases hread
  rfl

/-- What has been read can be written: its lists are no longer than their lengths say. -/
theorem Holds.writable (hp : db.Holds key p) : p.Writable := by
  obtain ⟨bs, rest, -, hread⟩ := hp
  exact (Layout.exact_poll.written bs p rest hread).1

/-- The tables after one change of status of a poll that was there. -/
def rewrite (db : Database) (r : Resolution) (p : Poll) : Database :=
  { db with polls := db.polls.insert r.key.bytes (Layout.poll.encode (p.resolve r)) }

/-- **One change of status** is written just if its poll can be read. -/
theorem applyResolution_eq_ok :
    db.applyResolution r = .ok db' ↔ ∃ p, db.Holds r.key p ∧ db' = db.rewrite r p := by
  unfold applyResolution
  simp only [← readPoll_eq_some_iff]
  rcases db.readPoll r.key with e | ⟨_ | p⟩
  · simp
  · simp
  · simp [rewrite, eq_comm]

/-- What can be read after a change of status. -/
theorem holds_rewrite (hp : db.Holds r.key p) :
    (db.rewrite r p).Holds key q ↔
      if key = r.key then q = p.resolve r else db.Holds key q := by
  have hback : Layout.poll.decode (Layout.poll.encode (p.resolve r)) = .ok (p.resolve r, []) := by
    have hwritable : (p.resolve r).Writable := ⟨hp.writable.whitelist, hp.writable.links⟩
    simpa using Layout.readsBack_poll hwritable []
  unfold Holds rewrite
  simp only [Table.find?_insert]
  by_cases hkey : key = r.key
  · simp [hkey, hback, eq_comm]
  · have hbytes : key.bytes ≠ r.key.bytes := fun h => hkey (Hash.ext_bytes h)
    simp [hkey, hbytes]

/-! ## Batches -/

/-- The second tables are what a batch of changes makes of the first. -/
structure Rewritten (db : Database) (rs : List Resolution) (db' : Database) : Prop where
  /-- Nothing but records of polls has changed. -/
  frame : db' = { db with polls := db'.polls }
  /-- No other records than those of the polls in the batch have. -/
  kept : ∀ bs : Bytes, (∀ r ∈ rs, r.key.bytes ≠ bs) → db'.polls.find? bs = db.polls.find? bs
  /-- Each of these is what is written for the poll that could be read there, with status and tally
  as the last change of it in the batch says. -/
  written : ∀ front r back, rs = front ++ r :: back → (∀ r' ∈ back, r'.key ≠ r.key) →
    ∃ p, db.Holds r.key p ∧ db'.polls.find? r.key.bytes
      = some (Layout.poll.encode { p with status := r.status, tally := r.tally })

theorem Rewritten.nil (db : Database) : db.Rewritten [] db where
  frame := rfl
  kept _ _ := rfl
  written _ _ _ h := by simp at h

/-- One more change in front of a batch. -/
theorem Rewritten.cons (hp : db.Holds r.key p) (h : (db.rewrite r p).Rewritten rs db') :
    db.Rewritten (r :: rs) db' where
  frame := by rw [h.frame]; rfl
  kept := by
    intro bs hbs
    obtain ⟨hr, hrs⟩ := List.forall_mem_cons.1 hbs
    rw [h.kept bs hrs, rewrite, Table.find?_insert, if_neg (Ne.symm hr)]
  written := by
    intro front r' back hsplit hlast
    cases front with
    | nil =>
      -- The change in front is the last one of its poll.
      cases hsplit
      refine ⟨p, hp, ?_⟩
      rw [h.kept _ fun r' hr' hbytes => hlast r' hr' (Hash.ext_bytes hbytes), rewrite,
        Table.find?_insert, if_pos rfl]
      rfl
    | cons r₀ front =>
      cases hsplit
      obtain ⟨q, hq, hwritten⟩ := h.written front r' back rfl hlast
      rw [holds_rewrite hp] at hq
      by_cases hkey : r'.key = r.key
      · -- It has been changed before, and nothing is left of that.
        rw [if_pos hkey] at hq
        subst hq
        exact ⟨p, hkey ▸ hp, hwritten⟩
      · rw [if_neg hkey] at hq
        exact ⟨q, hq, hwritten⟩

theorem applyResolutions_cons :
    db.applyResolutions (r :: rs) = db.applyResolution r >>= applyResolutions rs :=
  List.foldlM_cons

/-- **What a batch that is written makes of the tables.** -/
theorem rewritten_of_applyResolutions (h : db.applyResolutions rs = .ok db') :
    db.Rewritten rs db' := by
  induction rs generalizing db with
  | nil =>
    cases h
    exact .nil _
  | cons r rs ih =>
    rw [applyResolutions_cons, Layout.bind_eq_ok] at h
    obtain ⟨db₁, hfirst, hrest⟩ := h
    obtain ⟨p, hp, rfl⟩ := applyResolution_eq_ok.1 hfirst
    exact .cons hp (ih hrest)

/-- **A batch is written just if every poll in it can be read.** -/
theorem applyResolutions_ok_iff :
    (∃ db', db.applyResolutions rs = .ok db') ↔ ∀ r ∈ rs, ∃ p, db.Holds r.key p := by
  induction rs generalizing db with
  | nil => exact iff_of_true ⟨_, rfl⟩ (by simp)
  | cons r rs ih =>
    simp only [applyResolutions_cons, Layout.bind_eq_ok, List.forall_mem_cons]
    -- A change keeps readable what was, so the rest does not depend on it.
    have hrest : ∀ p, db.Holds r.key p → ((∃ db', (db.rewrite r p).applyResolutions rs = .ok db') ↔
        ∀ r' ∈ rs, ∃ q, db.Holds r'.key q) := by
      intro p hp
      rw [ih]
      refine forall₂_congr fun r' _ => ?_
      simp only [holds_rewrite hp]
      by_cases hkey : r'.key = r.key
      · rw [hkey]
        simp only [if_true]
        exact iff_of_true ⟨_, rfl⟩ ⟨p, hp⟩
      · simp only [if_neg hkey]
    constructor
    · rintro ⟨db', db₁, hfirst, hwritten⟩
      obtain ⟨p, hp, rfl⟩ := applyResolution_eq_ok.1 hfirst
      exact ⟨⟨p, hp⟩, (hrest p hp).1 ⟨db', hwritten⟩⟩
    · rintro ⟨⟨p, hp⟩, hall⟩
      obtain ⟨db', hwritten⟩ := (hrest p hp).2 hall
      exact ⟨db', _, applyResolution_eq_ok.2 ⟨p, hp, rfl⟩, hwritten⟩

/-- A batch as a call. -/
theorem start_applyResolutions :
    (StoreRequest.applyResolutions rs).action.start db = (.ok .done, db')
      ↔ db.applyResolutions rs = .ok db' := by
  have hcall : (PollStore.applyResolutions rs : Action Database StoreError Unit).start db
      = match db.applyResolutions rs with
        | .ok db' => (.ok (), db')
        | .error e => (.error e, db) := by
    show (Action.transaction fun db => (applyResolutions rs db).map ((), ·)).start db = _
    rw [Action.start_transaction]
    cases db.applyResolutions rs <;> rfl
  show (PollStore.applyResolutions rs >>= fun _ => pure StoreReply.done).start db = _ ↔ _
  rw [Action.start_bind, hcall]
  cases db.applyResolutions rs with
  | error e => simp
  | ok db₁ => simp

end Database

/-! ## All calls -/

/-- **The durable store's calls do all their work or none.**  Whatever bytes the tables hold: a call
that fails leaves all of them as they were, and so does opening them if it fails, and a removal that
finds nothing.  A batch of changes that is written has changed the records of the polls in it and
nothing else, each into what is written for the poll that could be read there, with status and tally
as the last change of it says; and it is written just if all its polls can be read. -/
theorem durable_calls_all_or_nothing (db : Database) :
    (∀ (c : StoreRequest) e db', c.action.start db = (.error e, db') → db' = db) ∧
    (∀ e db', Database.opening.start db = (.error e, db') → db' = db) ∧
    (∀ (c : StoreRequest) db', c.action.start db = (.ok (.removed false), db') → db' = db) ∧
    (∀ rs db', (StoreRequest.applyResolutions rs).action.start db = (.ok .done, db') →
      db.Rewritten rs db') ∧
    (∀ rs, (∃ db', (StoreRequest.applyResolutions rs).action.start db = (.ok .done, db')) ↔
      ∀ r ∈ rs, ∃ p, db.Holds r.key p) := by
  refine ⟨fun c _ _ h => c.atomic.eq_of_error h,
    fun _ _ h => (Action.Atomic.transaction _).eq_of_error h,
    fun _ _ h => Database.removed_nothing h, fun rs db' h => ?_, fun rs => ?_⟩
  · exact Database.rewritten_of_applyResolutions (Database.start_applyResolutions.1 h)
  · simp only [Database.start_applyResolutions]
    exact Database.applyResolutions_ok_iff

/-- Tables as they may be found: a record with a byte too many, one that cannot be read, a foreign
key, an index entry without a poll, and a version that is none. -/
def Database.damaged : Database :=
  { Database.empty with
    polls := ((∅ : Table Bytes Bytes).insert Hash.zero.bytes (Layout.poll.encode default ++ [7])
      |>.insert (List.replicate 32 255) [1, 2, 3]).insert [9] []
    pollsByFinish := (∅ : Table Bytes Bytes).insert (List.replicate 40 1) []
    versions := (∅ : Table Bytes Bytes).insert Database.versionKey [1] }

/-- A batch that decides one poll twice is written, and only its last change is left; one that goes
on to a record that cannot be read is not, and nothing is left of its beginning; the tables are not
opened; and a poll that is not there is not removed. -/
theorem durable_calls_all_or_nothing_damaged :
    let unreadable : Hash := ⟨List.replicate 32 255, rfl⟩
    let missing : Hash := ⟨List.replicate 32 1, rfl⟩
    let approved : Resolution := ⟨.zero, .approved, 1⟩
    let rejected : Resolution := ⟨.zero, .rejected, 2⟩
    let p : Poll := default
    (∃ db', (StoreRequest.applyResolutions [approved, rejected]).action.start Database.damaged
        = (.ok .done, db') ∧
      db'.polls.find? Hash.zero.bytes
        = some (Layout.poll.encode { p with status := .rejected, tally := 2 })) ∧
    ((StoreRequest.applyResolutions [approved, ⟨unreadable, .rejected, 0⟩]).action.start
      Database.damaged) = (.error (.serialization "io error: unexpected end of file"),
        Database.damaged) ∧
    Database.opening.start Database.damaged
      = (.error (.serialization "schema_version has unexpected byte length"), Database.damaged) ∧
    (StoreRequest.deletePoll missing).action.start Database.damaged
      = (.ok (.removed false), Database.damaged) := by
  intro unreadable missing approved rejected p
  obtain ⟨hfails, hopening, hnothing, hwritten, hiff⟩ :=
    durable_calls_all_or_nothing Database.damaged
  have hp : Database.damaged.Holds .zero p := ⟨_, [7], rfl, rfl⟩
  refine ⟨?_, ?_, ?_, ?_⟩
  · obtain ⟨db', hdone⟩ :=
      (hiff [approved, rejected]).2 (by simpa [approved, rejected] using ⟨p, hp⟩)
    obtain ⟨q, hq, hrecord⟩ := (hwritten _ db' hdone).written [approved] rejected [] rfl (by simp)
    cases hp.unique hq
    exact ⟨db', hdone, hrecord⟩
  · have hanswer :
      ((StoreRequest.applyResolutions [approved, ⟨unreadable, .rejected, 0⟩]).action.start
        Database.damaged).1 = .error (.serialization "io error: unexpected end of file") := rfl
    exact Prod.ext hanswer (hfails _ _ _ (Prod.ext hanswer rfl))
  · have hanswer : (Database.opening.start Database.damaged).1
        = .error (.serialization "schema_version has unexpected byte length") := rfl
    exact Prod.ext hanswer (hopening _ _ (Prod.ext hanswer rfl))
  · have hanswer : ((StoreRequest.deletePoll missing).action.start Database.damaged).1
        = .ok (.removed false) := rfl
    exact Prod.ext hanswer (hnothing _ _ (Prod.ext hanswer rfl))

end Finality
