/-
# The storage engine

A partition keeps its records in a storage of the `pearl` package. The backend
only opens a storage, writes to it, reads from it and marks keys as deleted, so
the engine enters as a record of these calls. What is assumed of it is stated
once, as `StorageEngine.Lawful`: a storage is a set of records per key, and it
answers a read with one of its newest records for the key. A plain log is such
an engine.
-/

import Mathlib.Data.List.MinMax
import Bob.Common.Types

namespace Bob.Backend

variable {keySize : ℕ}

/-- What a storage says about a key. -/
inductive ReadResult (α : Type)
  | found (value : α)
  | deleted (timestamp : ℕ)
  | notFound
  deriving DecidableEq, Repr

/-- How a call to the engine fails. -/
inductive PearlError
  | workDirUnavailable (message : String)
  | pearl (message : String)
  /-- An error that is not one of the engine's own. -/
  | other (message : String)
  deriving DecidableEq, Repr

namespace PearlError

def text : PearlError → String
  | workDirUnavailable message => message
  | pearl message => message
  | other message => message

/-- A write that fails outside the engine, or for want of the directory, may mean
that the disk is gone. -/
def onWrite : PearlError → Error keySize
  | workDirUnavailable _ => .possibleDiskDisconnection
  | pearl _ => .internal
  | other _ => .possibleDiskDisconnection

def onAccess (e : PearlError) : Error keySize := .storage e.text

end PearlError

/-- How opening a storage fails. -/
inductive OpenError
  | disconnected
  | failed (message : String)
  deriving DecidableEq, Repr

def OpenError.toError : OpenError → Error keySize
  | disconnected => .possibleDiskDisconnection
  | failed message => .storage message

/-- The calls of the engine that the backend makes. -/
structure StorageEngine (keySize : ℕ) where
  Storage : Type
  /-- Open a directory. The argument lists what was written to it so far, one
  storage for each time it was open. -/
  openDir : List Storage → Except OpenError Storage
  write : Storage → BobKey keySize → BobData → Except PearlError Storage
  read : Storage → BobKey keySize → Except PearlError (ReadResult BobData)
  contains : Storage → BobKey keySize → Except PearlError (ReadResult ℕ)
  /-- Mark a key as deleted at a time, everywhere or only if it is present. Returns
  the number of markers. -/
  delete : Storage → BobKey keySize → ℕ → Bool → Except PearlError (Storage × ℕ)
  /-- The filters of a container of storages: whether the child at a position may
  have the key. -/
  mayContain : List (Option Storage) → BobKey keySize → ℕ → Bool

/-! ## Records -/

/-- What is kept for a key: a value, or a deletion marker. -/
inductive Record
  | value (data : BobData)
  | marker (timestamp : ℕ)
  deriving DecidableEq, Repr

namespace Record

def timestamp : Record → ℕ
  | value data => data.bobMeta.timestamp.toNat
  | marker timestamp => timestamp

/-- The answer of a read that finds this record newest. -/
def toRead : Option Record → ReadResult BobData
  | some (value data) => .found data
  | some (marker timestamp) => .deleted timestamp
  | none => .notFound

/-- The answer of an existence check that finds this record newest. -/
def toContains : Option Record → ReadResult ℕ
  | some (value data) => .found data.bobMeta.timestamp.toNat
  | some (marker timestamp) => .deleted timestamp
  | none => .notFound

end Record

/-- What is assumed of the engine. The set of records of a storage is not part of
its interface; it says what the calls do. -/
structure StorageEngine.Lawful (engine : StorageEngine keySize) where
  Holds : engine.Storage → BobKey keySize → Record → Prop
  newest : engine.Storage → BobKey keySize → Option Record
  /-- The key is present, in the sense that matters for a conditional marker. -/
  Present : engine.Storage → BobKey keySize → Prop
  newest_none : ∀ {s key}, newest s key = none → ∀ r, ¬ Holds s key r
  newest_some : ∀ {s key r}, newest s key = some r →
    Holds s key r ∧ ∀ other, Holds s key other → other.timestamp ≤ r.timestamp
  present_of_value : ∀ {s key data}, newest s key = some (.value data) → Present s key
  not_present_of_none : ∀ {s key}, newest s key = none → ¬ Present s key
  read_eq : ∀ s key, engine.read s key = .ok (Record.toRead (newest s key))
  contains_eq : ∀ s key, engine.contains s key = .ok (Record.toContains (newest s key))
  /-- Opening a directory gives back the records that were written to it. -/
  exists_open : ∀ olds, ∃ s, engine.openDir olds = .ok s ∧
    ∀ key r, Holds s key r ↔ ∃ old ∈ olds, Holds old key r
  exists_write : ∀ s key data, ∃ s', engine.write s key data = .ok s' ∧
    ∀ other r, Holds s' other r ↔ Holds s other r ∨ (other = key ∧ r = .value data)
  exists_forced_delete : ∀ s key timestamp, ∃ s' count,
    engine.delete s key timestamp false = .ok (s', count) ∧
    ∀ other r, Holds s' other r ↔ Holds s other r ∨ (other = key ∧ r = .marker timestamp)
  exists_delete : ∀ s key timestamp, ∃ s' count,
    engine.delete s key timestamp true = .ok (s', count) ∧
    ∀ other r, Holds s' other r ↔
      Holds s other r ∨ (Present s key ∧ other = key ∧ r = .marker timestamp)
  mayContain_of_holds : ∀ {storages s key r i}, storages[i]? = some (some s) → Holds s key r →
    engine.mayContain storages key i = true

/-! ## A log as an engine -/

namespace Log

/-- The records of a key, in the order in which they were written. -/
def recordsOf (log : List (BobKey keySize × Record)) (key : BobKey keySize) : List Record :=
  (log.filter fun entry => entry.1 = key).map (·.2)

/-- The newest record of a key; of two with the same timestamp, the later one. -/
def newest (log : List (BobKey keySize × Record)) (key : BobKey keySize) : Option Record :=
  (recordsOf log key).reverse.argmax Record.timestamp

/-- The key has a value that is not deleted. -/
def present (log : List (BobKey keySize × Record)) (key : BobKey keySize) : Bool :=
  match newest log key with
  | some (.value _) => true
  | _ => false

end Log

/-- A storage that appends every record to a log. -/
def logEngine (keySize : ℕ) : StorageEngine keySize where
  Storage := List (BobKey keySize × Record)
  openDir := fun olds => .ok olds.flatten
  write := fun log key data => .ok (log ++ [(key, .value data)])
  read := fun log key => .ok (Record.toRead (Log.newest log key))
  contains := fun log key => .ok (Record.toContains (Log.newest log key))
  delete := fun log key timestamp onlyIfPresented =>
    if onlyIfPresented && !Log.present log key then .ok (log, 0)
    else .ok (log ++ [(key, .marker timestamp)], 1)
  mayContain := fun _ _ _ => true

namespace Log

theorem mem_recordsOf {log : List (BobKey keySize × Record)} {key : BobKey keySize} {r : Record} :
    r ∈ recordsOf log key ↔ (key, r) ∈ log := by
  simp [recordsOf]

theorem mem_recordsOf_append {log : List (BobKey keySize × Record)} {key other : BobKey keySize}
    {r added : Record} :
    r ∈ recordsOf (log ++ [(key, added)]) other ↔
      r ∈ recordsOf log other ∨ (other = key ∧ r = added) := by
  simp [mem_recordsOf]

theorem mem_recordsOf_flatten {olds : List (List (BobKey keySize × Record))}
    {key : BobKey keySize} {r : Record} :
    r ∈ recordsOf olds.flatten key ↔ ∃ old ∈ olds, r ∈ recordsOf old key := by
  simp [mem_recordsOf]

end Log

/-- The log keeps what is assumed of the engine. -/
def logEngine.lawful (keySize : ℕ) : (logEngine keySize).Lawful where
  Holds := fun log key r => r ∈ Log.recordsOf log key
  newest := Log.newest
  Present := fun log key => Log.present log key = true
  newest_none := by
    intro log key absent r member
    have empty := List.reverse_eq_nil_iff.mp (List.argmax_eq_none.mp absent)
    rw [empty] at member
    cases member
  newest_some := by
    intro log key r found
    refine ⟨List.mem_reverse.mp (List.argmax_mem found), fun other member => ?_⟩
    exact List.le_of_mem_argmax (List.mem_reverse.mpr member) found
  present_of_value := by
    intro log key data found
    simp [Log.present, found]
  not_present_of_none := by
    intro log key absent
    simp [Log.present, absent]
  read_eq := fun _ _ => rfl
  contains_eq := fun _ _ => rfl
  exists_open := fun _ => ⟨_, rfl, fun _ _ => Log.mem_recordsOf_flatten⟩
  exists_write := fun _ _ _ => ⟨_, rfl, fun _ _ => Log.mem_recordsOf_append⟩
  exists_forced_delete := fun _ _ _ => ⟨_, _, rfl, fun _ _ => Log.mem_recordsOf_append⟩
  exists_delete := by
    intro log key timestamp
    by_cases present : Log.present log key = true
    · refine ⟨_, _, if_neg (by simp [present]), fun other r => ?_⟩
      rw [and_iff_right present]
      exact Log.mem_recordsOf_append
    · refine ⟨_, _, if_pos (by simp [present]), fun other r => ?_⟩
      simp [present]
  mayContain_of_holds := fun _ _ => rfl

end Bob.Backend
