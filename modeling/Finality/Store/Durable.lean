import Finality.Record.Formats
import Finality.Store.Interface
import Finality.Store.Keys
import Finality.Store.Scan

/-!
# The durable store

Polls and votes are kept in seven sorted tables of byte strings:

* `polls`: the record of a poll under the hash of its transaction;
* `pollsByFinish`, `pollsByAccount`, `pollsByCreation`: an empty value under finish height, account
  or creation height, followed by the hash;
* `votes`: the record of a vote under its poll and voter;
* `votesByHeight`: an empty value under the height of a vote, followed by its poll and voter;
* `versions`: the version of this arrangement.

A poll or vote and its entries in the other tables are written and removed together, and a call that
fails changes nothing.  Nothing is taken for granted about the bytes that are found: a record that
cannot be read, a key of the wrong length and an index entry without a poll are reported.
-/

namespace Finality

/-! ## Errors -/

/-- Why the tables cannot be read or written. -/
inductive DatabaseError where
  /-- The storage itself failed. -/
  | backend (what : String)
  /-- Something that must be there is missing. -/
  | notFound (what : String)
  /-- Bytes cannot be read as what they should be. -/
  | serialization (what : String)
  /-- The file system failed. -/
  | io (what : String)
  /-- The tables were arranged by a later version of this library. -/
  | schemaTooNew (found supported : UInt32)
deriving DecidableEq

namespace DatabaseError

/-- The wording of a database error. -/
def message : DatabaseError → String
  | .backend what => "LMDB error: " ++ what
  | .notFound what => "key not found: " ++ what
  | .serialization what => "serialization error: " ++ what
  | .io what => "IO error: " ++ what
  | .schemaTooNew found supported =>
    "database schema version " ++ toString found ++ " is newer than supported version "
      ++ toString supported

/-- The same error as seen by users of the store. -/
def toStoreError : DatabaseError → StoreError
  | .notFound what => .notFound what
  | .serialization what => .serialization what
  | e => .backend e.message

end DatabaseError

/-! ## The tables -/

/-- The seven tables. -/
structure Database where
  /-- Records of polls by hash. -/
  polls : Table Bytes Bytes
  /-- Finish height and hash of each poll. -/
  pollsByFinish : Table Bytes Bytes
  /-- Account and hash of each poll. -/
  pollsByAccount : Table Bytes Bytes
  /-- Creation height and hash of each poll. -/
  pollsByCreation : Table Bytes Bytes
  /-- Records of votes by poll and voter. -/
  votes : Table Bytes Bytes
  /-- Height, poll and voter of each vote. -/
  votesByHeight : Table Bytes Bytes
  /-- The version of the arrangement. -/
  versions : Table Bytes Bytes
deriving DecidableEq, Inhabited

/-- The names of the seven tables. -/
inductive TableName where
  | polls | pollsByFinish | pollsByAccount | pollsByCreation | votes | votesByHeight | versions
deriving DecidableEq

namespace TableName

/-- All seven names. -/
def all : List TableName :=
  [.polls, .pollsByFinish, .pollsByAccount, .pollsByCreation, .votes, .votesByHeight, .versions]

/-- The name under which a table is stored. -/
def text : TableName → String
  | .polls => "polls"
  | .pollsByFinish => "polls_by_finish"
  | .pollsByAccount => "polls_by_account"
  | .pollsByCreation => "polls_by_creation"
  | .votes => "votes"
  | .votesByHeight => "votes_by_height"
  | .versions => "meta"

/-- The table stored under a name. -/
def ofText? (s : String) : Option TableName := all.find? fun n => n.text = s

end TableName

namespace Database

/-- Seven empty tables. -/
def empty : Database := ⟨∅, ∅, ∅, ∅, ∅, ∅, ∅⟩

/-- How many tables there are. -/
def tableCount : UInt32 := 7

/-- A table by its name. -/
def table (db : Database) : TableName → Table Bytes Bytes
  | .polls => db.polls
  | .pollsByFinish => db.pollsByFinish
  | .pollsByAccount => db.pollsByAccount
  | .pollsByCreation => db.pollsByCreation
  | .votes => db.votes
  | .votesByHeight => db.votesByHeight
  | .versions => db.versions

/-- Another table in place of the one with this name. -/
def setTable (db : Database) (name : TableName) (t : Table Bytes Bytes) : Database :=
  match name with
  | .polls => { db with polls := t }
  | .pollsByFinish => { db with pollsByFinish := t }
  | .pollsByAccount => { db with pollsByAccount := t }
  | .pollsByCreation => { db with pollsByCreation := t }
  | .votes => { db with votes := t }
  | .votesByHeight => { db with votesByHeight := t }
  | .versions => { db with versions := t }

/-! ## The version of the arrangement -/

/-- The version that this library writes and reads. -/
def currentVersion : UInt32 := 1

/-- The key of the version in `versions`: the text `schema_version`. -/
def versionKey : Bytes := [115, 99, 104, 101, 109, 97, 95, 118, 101, 114, 115, 105, 111, 110]

/-- The version of the tables; zero if none is recorded. -/
def schemaVersion (db : Database) : Except DatabaseError UInt32 :=
  match db.versions.find? versionKey with
  | none => .ok 0
  | some bs =>
    if bs.length = 4 then .ok (UInt32.ofNat (ofLittleEndian bs))
    else .error (.serialization "schema_version has unexpected byte length")

/-- The tables as they are after opening them: tables of a later version are refused, others are
marked with the current version. -/
def opened (db : Database) : Except DatabaseError Database := do
  let found ← db.schemaVersion
  if currentVersion < found then throw (.schemaTooNew found currentVersion)
  if found < currentVersion then
    let stamp := littleEndian 4 currentVersion.toNat
    return { db with versions := db.versions.insert versionKey stamp }
  return db

/-! ## Reading -/

/-- The value at the front of a record. -/
def readRecord {α : Type} (layout : Layout α) (bs : Bytes) : Except DatabaseError α :=
  match layout.decode bs with
  | .ok (x, _) => .ok x
  | .error e => .error (.serialization e.message)

/-- The poll stored under a hash. -/
def readPoll (db : Database) (hash : Hash) : Except DatabaseError (Option Poll) :=
  match db.polls.find? hash.bytes with
  | none => .ok none
  | some bs => (readRecord Layout.poll bs).map some

/-- The vote stored under a poll and a voter. -/
def readVote (db : Database) (poll : Hash) (voter : AccountId) :
    Except DatabaseError (Option Vote) :=
  match db.votes.find? (Keys.vote poll voter) with
  | none => .ok none
  | some bs => (readRecord Layout.vote bs).map some

/-- The hash in the key of an index entry. -/
def indexedHash (key : Bytes) : Except DatabaseError Hash :=
  match Keys.hashSuffix? key with
  | some hash => .ok hash
  | none => .error (.serialization "index key has unexpected length")

/-- The poll that an index entry points to. -/
def indexedPoll (db : Database) (key : Bytes) : Except DatabaseError Poll := do
  let hash ← indexedHash key
  match ← db.readPoll hash with
  | some p => return p
  | none => throw (.notFound ("indexed poll " ++ hash.toHex))

/-- The polls that the entries of an index point to whose keys start with the given bytes. -/
def pollsUnder (db : Database) (index : Table Bytes Bytes) (start : Bytes) :
    Except DatabaseError (List Poll) :=
  (index.scan start).mapM fun e => db.indexedPoll e.1

/-- The hashes in the keys of the polls created at a height. -/
def pollsCreatedAt (db : Database) (height : Height) : Except DatabaseError (List Hash) :=
  (db.pollsByCreation.scan (heightBytes height)).mapM fun e => indexedHash e.1

/-- The votes stored on a poll. -/
def votesOn (db : Database) (poll : Hash) : Except DatabaseError (List Vote) :=
  (db.votes.scan poll.bytes).mapM fun e => readRecord Layout.vote e.2

/-- Poll and voter of the votes indexed under a height. -/
def votesCastAt (db : Database) (height : Height) :
    Except DatabaseError (List (Hash × AccountId)) :=
  (db.votesByHeight.scan (heightBytes height)).mapM fun e =>
    match Keys.splitVote? (e.1.drop 8) with
    | some pair => .ok pair
    | none => .error (.serialization "vote key has unexpected length")

/-! ## Writing -/

/-- Adds a poll with its three index entries. -/
def insertPoll (p : Poll) (db : Database) : Except StoreError Database :=
  if db.polls.contains p.key.bytes then .error (.duplicatePoll p.key)
  else .ok { db with
    polls := db.polls.insert p.key.bytes (Layout.poll.encode p)
    pollsByFinish := db.pollsByFinish.insert (Keys.heightHash p.finishHeight p.key) []
    pollsByAccount := db.pollsByAccount.insert (Keys.accountHash p.account p.key) []
    pollsByCreation := db.pollsByCreation.insert (Keys.heightHash p.createdHeight p.key) [] }

/-- Removes a poll, and the index entries that its record names; answers whether there was one. -/
def deletePoll (hash : Hash) (db : Database) : Except DatabaseError (Bool × Database) := do
  match ← db.readPoll hash with
  | none => return (false, db)
  | some p =>
    return (true, { db with
      polls := db.polls.erase hash.bytes
      pollsByFinish := db.pollsByFinish.erase (Keys.heightHash p.finishHeight hash)
      pollsByAccount := db.pollsByAccount.erase (Keys.accountHash p.account hash)
      pollsByCreation := db.pollsByCreation.erase (Keys.heightHash p.createdHeight hash) })

/-- Writes one change of status into the record of its poll. -/
def applyResolution (db : Database) (r : Resolution) : Except StoreError Database :=
  match db.readPoll r.key with
  | .error e => .error e.toStoreError
  | .ok none => .error (.missingPoll r.key)
  | .ok (some p) =>
    .ok { db with polls := db.polls.insert r.key.bytes (Layout.poll.encode (p.resolve r)) }

/-- Writes changes of status, one after another, up to the first that fails. -/
def applyResolutions (rs : List Resolution) (db : Database) : Except StoreError Database :=
  rs.foldlM applyResolution db

/-- Adds a vote with its index entry. -/
def insertVote (v : Vote) (db : Database) : Except StoreError Database :=
  let key := Keys.vote v.poll v.voter
  if db.votes.contains key then .error (.duplicateVote v.poll v.voter)
  else .ok { db with
    votes := db.votes.insert key (Layout.vote.encode v)
    votesByHeight := db.votesByHeight.insert (Keys.heightVote v.height v.poll v.voter) [] }

/-- Removes a vote, and the index entry that its record names; answers whether there was one. -/
def deleteVote (poll : Hash) (voter : AccountId) (db : Database) :
    Except DatabaseError (Bool × Database) := do
  match ← db.readVote poll voter with
  | none => return (false, db)
  | some v =>
    return (true, { db with
      votes := db.votes.erase (Keys.vote poll voter)
      votesByHeight := db.votesByHeight.erase (Keys.heightVote v.height poll voter) })

/-! ## The store -/

/-- Reads the tables; what is wrong with them is a store error. -/
def reading {α : Type} (f : Database → Except DatabaseError α) : Action Database StoreError α :=
  Action.query fun db => (f db).mapError DatabaseError.toStoreError

instance : PollStore Database where
  insertPoll p := Action.transaction fun db => (insertPoll p db).map ((), ·)
  findPoll hash := reading (readPoll · hash)
  deletePoll hash := Action.transaction fun db =>
    (deletePoll hash db).mapError DatabaseError.toStoreError
  pollsFinishingAt height := reading fun db => db.pollsUnder db.pollsByFinish (heightBytes height)
  pollsOf account := reading fun db => db.pollsUnder db.pollsByAccount account.toBytes
  pollsCreatedAt height := reading (pollsCreatedAt · height)
  applyResolutions rs := Action.transaction fun db => (applyResolutions rs db).map ((), ·)
  countPolls := Action.query fun db => .ok db.polls.size

instance : VoteStore Database where
  insertVote v := Action.transaction fun db => (insertVote v db).map ((), ·)
  findVote poll voter := reading (readVote · poll voter)
  votesOn poll := reading (votesOn · poll)
  deleteVote poll voter := Action.transaction fun db =>
    (deleteVote poll voter db).mapError DatabaseError.toStoreError
  votesCastAt height := reading (votesCastAt · height)

end Database

end Finality
