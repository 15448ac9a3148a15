/-
# Names of partition directories

The directory of a partition is named after the start of the partition and a hash of the
node that made it. A group that starts reads the names in its own directory and makes a
partition of each that it can take apart into a number and a hash. The path of that
partition is made of the number and the hash again.

Taking apart is more liberal than putting together. A sign or zeros in front of the number,
a missing underscore and whatever follows a second underscore are lost. The partition of
such a name has the path of another directory, so what is stored under the name is not
seen.
-/

import Bob.Math.Decimal
import Bob.Math.Words
import Bob.Backend.Restart

namespace Bob.Backend

open Bob.Math

variable {keySize : ℕ} {engine : StorageEngine keySize}

/-! ## Paths -/

/-- A path, with slashes between its components. -/
structure PathBuf where
  text : List Char
  deriving DecidableEq, Repr

namespace PathBuf

/-- A text that begins with a slash takes the place of the path. -/
def push (path : PathBuf) (part : List Char) : PathBuf :=
  if part.head? = some '/' then ⟨part⟩
  else if path.text = [] ∨ path.text.getLast? = some '/' then ⟨path.text ++ part⟩
  else ⟨path.text ++ '/' :: part⟩

/-- What stands between slashes. Nothing and a single dot do not count. -/
def components (path : PathBuf) : List (List Char) :=
  (path.text.splitOn '/').filter fun component => component ≠ [] ∧ component ≠ ['.']

/-- The last component, unless it goes up. -/
def fileName (path : PathBuf) : Option (List Char) :=
  match path.components.getLast? with
  | some ['.', '.'] => none
  | last => last

/-- A single component that is neither a dot nor two. -/
structure IsName (part : List Char) : Prop where
  ne_nil : part ≠ []
  ne_dot : part ≠ ['.']
  ne_dots : part ≠ ['.', '.']
  no_slash : '/' ∉ part

/-- A name that is pushed is the last component. -/
theorem fileName_push {part : List Char} (isName : IsName part) (path : PathBuf) :
    (path.push part).fileName = some part := by
  have relative : ¬ part.head? = some '/' := fun slash =>
    isName.no_slash (List.mem_of_head? slash)
  -- the text is the name, with something up to a slash in front of it
  have pieces : ∃ before, (path.push part).text.splitOn '/' = before ++ [part] := by
    have after (text : List Char) : (text ++ '/' :: part).splitOn '/' =
        text.splitOn '/' ++ [part] := by
      rw [List.splitOn_append_cons_self, List.splitOn_eq_singleton isName.no_slash]
    rw [push, if_neg relative]
    split_ifs with closed
    · rcases closed with empty | slash
      · exact ⟨[], by rw [empty]; exact List.splitOn_eq_singleton isName.no_slash⟩
      · obtain ⟨init, text⟩ := List.getLast?_eq_some_iff.mp slash
        refine ⟨init.splitOn '/', ?_⟩
        rw [text, List.append_assoc]
        exact after init
    · exact ⟨path.text.splitOn '/', after path.text⟩
  obtain ⟨before, pieces⟩ := pieces
  have last : (path.push part).components.getLast? = some part := by
    rw [components, pieces, List.filter_append, List.filter_cons_of_pos
      (by simp [isName.ne_nil, isName.ne_dot]), List.filter_nil, List.getLast?_concat]
  unfold fileName
  split
  · rename_i up
    rw [last] at up
    exact absurd (Option.some.inj up) isName.ne_dots
  · exact last

end PathBuf

/-! ## Names -/

namespace PartitionName

variable {s : String} {name : PartitionName}

/-- The timestamp stands before the first underscore, and the hash between it and the
second. -/
def tryFromString (s : String) : Option PartitionName :=
  match s.toList.splitOn '_' with
  | [] => none
  | timestampString :: rest =>
    let hashString := rest.headD []
    (parseDecimal (2 ^ 64) timestampString).map fun timestamp =>
      ⟨timestamp, String.ofList hashString⟩

def display (name : PartitionName) : String := name.timestamp.repr ++ "_" ++ name.hash

theorem toList_display :
    name.display.toList = Nat.toDigits 10 name.timestamp ++ '_' :: name.hash.toList := by
  rw [display, String.toList_append, String.toList_append, Nat.toList_repr, List.append_assoc]
  rfl

/-- What an accepted name is taken apart into. -/
theorem tryFromString_eq_some (accepted : tryFromString s = some name) :
    name.timestamp < 2 ^ 64 ∧ '_' ∉ name.hash.toList ∧
      ∀ c ∈ name.hash.toList, c ∈ s.toList := by
  unfold tryFromString at accepted
  split at accepted
  · cases accepted
  · rename_i first rest pieces
    obtain ⟨timestamp, read, rfl⟩ := Option.map_eq_some_iff.mp accepted
    refine ⟨lt_of_parseDecimal read, ?_⟩
    rw [String.toList_ofList]
    cases rest with
    | nil => exact ⟨List.not_mem_nil, fun c member => absurd member List.not_mem_nil⟩
    | cons second others =>
      have piece : second ∈ s.toList.splitOn '_' := by
        rw [pieces]
        exact List.mem_cons_of_mem _ List.mem_cons_self
      exact ⟨not_mem_of_mem_splitOn piece, fun c member => mem_of_mem_splitOn piece member⟩

/-- A name is read back from its text if its hash has no underscore. -/
theorem tryFromString_display (small : name.timestamp < 2 ^ 64)
    (free : '_' ∉ name.hash.toList) : tryFromString name.display = some name := by
  have digits : '_' ∉ Nat.toDigits 10 name.timestamp := fun member =>
    absurd (isDigit_of_mem_toDigits member) (by decide)
  have pieces : name.display.toList.splitOn '_' =
      [Nat.toDigits 10 name.timestamp, name.hash.toList] := by
    rw [toList_display, List.splitOn_append_cons_self_of_not_mem digits,
      List.splitOn_eq_singleton free]
  rw [tryFromString, pieces]
  simp only [List.headD_cons, parseDecimal_toDigits small, Option.map_some, String.ofList_toList]

/-- A name of the form in which names are printed: a number without sign or leading zeros,
an underscore, and a hash without one. -/
def WellNamed (s : String) : Prop :=
  ∃ digits hash, s.toList = digits ++ '_' :: hash ∧ PlainDigits digits ∧ '_' ∉ hash

/-- Of the accepted names, those of that form are the ones that are printed again. -/
theorem display_eq_iff (accepted : tryFromString s = some name) :
    name.display = s ↔ WellNamed s := by
  obtain ⟨small, free, -⟩ := tryFromString_eq_some accepted
  constructor
  · rintro rfl
    exact ⟨_, _, toList_display, plainDigits_toDigits _, free⟩
  · rintro ⟨digits, hash, text, plain, free'⟩
    have unsplit : '_' ∉ digits := fun member => absurd (plain.isDigit _ member) (by decide)
    have pieces : s.toList.splitOn '_' = [digits, hash] := by
      rw [text, List.splitOn_append_cons_self_of_not_mem unsplit, List.splitOn_eq_singleton free']
    rw [tryFromString, pieces] at accepted
    obtain ⟨timestamp, read, rfl⟩ := Option.map_eq_some_iff.mp accepted
    apply String.toList_inj.mp
    rw [toList_display, text, plain.eq_toDigits read]
    simp

/-- The text of a name is a single component of a path, if the hash has no slash. -/
theorem isName_display (free : '/' ∉ name.hash.toList) : PathBuf.IsName name.display.toList := by
  have underscore : '_' ∈ name.display.toList := by
    rw [toList_display]
    exact List.mem_append_right _ List.mem_cons_self
  refine ⟨?_, ?_, ?_, ?_⟩
  · exact List.ne_nil_of_mem underscore
  · intro dot
    rw [dot] at underscore
    exact absurd underscore (by decide)
  · intro dots
    rw [dots] at underscore
    exact absurd underscore (by decide)
  · rw [toList_display, List.mem_append, List.mem_cons]
    rintro (digit | slash | inside)
    · exact absurd (isDigit_of_mem_toDigits digit) (by decide)
    · exact absurd slash (by decide)
    · exact free inside

end PartitionName

/-! ## Reading the directory of a group -/

/-- A partition with the path of its directory. -/
structure PearlDirectory (engine : StorageEngine keySize) where
  partition : Partition engine
  diskPath : PathBuf

namespace PearlDirectory

open PartitionName (tryFromString WellNamed)

variable (settings : Settings) (directoryPath : PathBuf)

def createPearlHolder (startTimestamp : ℕ) (hash : String) : PearlDirectory engine :=
  let partitionName : PartitionName := ⟨startTimestamp, hash⟩
  { partition := Restart.createPearlHolder settings partitionName
    diskPath := directoryPath.push partitionName.display.toList }

/-- What is made of an entry of the directory. A name that cannot be read is skipped. -/
def ofEntry (fileName : String) : Option (PearlDirectory engine) :=
  (tryFromString fileName).map fun name =>
    createPearlHolder settings directoryPath name.timestamp name.hash

def readVdiskDirectory (fileNames : List String) : List (PearlDirectory engine) :=
  (fileNames.filterMap (ofEntry settings directoryPath)).insertionSort fun a b =>
    a.partition.holder.startTimestamp ≤ b.partition.holder.startTimestamp

/-- Without their paths, the partitions are those of the names that can be read. -/
theorem map_partition_readVdiskDirectory (fileNames : List String) :
    (readVdiskDirectory settings directoryPath fileNames).map (·.partition) =
      (Restart.readVdiskDirectory settings (fileNames.filterMap tryFromString) :
        List (Partition engine)) := by
  rw [readVdiskDirectory, Restart.readVdiskDirectory, Restart.sortNames]
  have made : fileNames.filterMap (ofEntry settings directoryPath) =
      (fileNames.filterMap tryFromString).map fun name =>
        (createPearlHolder settings directoryPath name.timestamp name.hash :
          PearlDirectory engine) := by
    rw [List.map_filterMap]
    rfl
  rw [made, ← List.map_insertionSort
    (r := fun a b : PartitionName => a.timestamp ≤ b.timestamp), List.map_map]
  · rfl
  · intro a _ b _
    rfl

variable {settings directoryPath} {s : String} {made : PearlDirectory engine}

/-- What an entry is taken apart into is the last component of the path. -/
theorem fileName_of_ofEntry (entry : ofEntry settings directoryPath s = some made)
    (valid : '/' ∉ s.toList) :
    ∃ name, tryFromString s = some name ∧ made.diskPath.fileName = some name.display.toList := by
  obtain ⟨name, accepted, rfl⟩ := Option.map_eq_some_iff.mp entry
  obtain ⟨-, -, inside⟩ := PartitionName.tryFromString_eq_some accepted
  refine ⟨name, accepted, PathBuf.fileName_push ?_ _⟩
  exact PartitionName.isName_display fun slash => valid (inside _ slash)

/-- The partition of an entry has the path of the entry exactly when the entry is named
as partitions are. -/
theorem fileName_eq_iff (entry : ofEntry settings directoryPath s = some made)
    (valid : '/' ∉ s.toList) : made.diskPath.fileName = some s.toList ↔ WellNamed s := by
  obtain ⟨name, accepted, last⟩ := fileName_of_ofEntry entry valid
  rw [last, Option.some.injEq, String.toList_inj, PartitionName.display_eq_iff accepted]

/-- The accepted entries of a directory are the directories that get opened, and no two of
them become one, exactly when each is named as partitions are: a number without sign or
leading zeros, an underscore, and a rest without one. -/
theorem accepted_entries_are_opened_iff (settings : Settings) (directoryPath : PathBuf)
    {fileNames : List String} (valid : ∀ s ∈ fileNames, '/' ∉ s.toList) :
    ((∀ s ∈ fileNames, ∀ made : PearlDirectory engine,
        ofEntry settings directoryPath s = some made →
          made.diskPath.fileName = some s.toList) ∧
      ∀ s ∈ fileNames, ∀ s' ∈ fileNames, ∀ made made' : PearlDirectory engine,
        ofEntry settings directoryPath s = some made →
          ofEntry settings directoryPath s' = some made' → s ≠ s' →
            made.diskPath ≠ made'.diskPath) ↔
    ∀ s ∈ fileNames, (tryFromString s).isSome → WellNamed s := by
  constructor
  · rintro ⟨opened, -⟩ s listed accepted
    obtain ⟨name, hname⟩ := Option.isSome_iff_exists.mp accepted
    have entry : ofEntry settings directoryPath s = some
        (createPearlHolder settings directoryPath name.timestamp name.hash :
          PearlDirectory engine) := Option.map_eq_some_iff.mpr ⟨name, hname, rfl⟩
    exact (fileName_eq_iff entry (valid s listed)).mp (opened s listed _ entry)
  · intro named
    have opened : ∀ s ∈ fileNames, ∀ made : PearlDirectory engine,
        ofEntry settings directoryPath s = some made →
          made.diskPath.fileName = some s.toList := by
      intro s listed made entry
      obtain ⟨name, hname, -⟩ := Option.map_eq_some_iff.mp entry
      refine (fileName_eq_iff entry (valid s listed)).mpr (named s listed ?_)
      rw [hname, Option.isSome_some]
    refine ⟨opened, fun s listed s' listed' made made' entry entry' differ same => differ ?_⟩
    -- equal paths have the same last component
    have last := opened s listed made entry
    rw [same, opened s' listed' made' entry'] at last
    exact String.toList_inj.mp (Option.some.inj last).symm

/-- A name that was printed. -/
theorem printed_entry_is_opened :
    ∃ made : PearlDirectory (logEngine 8),
      ofEntry Group.chronoSettings ⟨"/disk/bob/0".toList⟩ "7_abc" = some made ∧
        made.diskPath.fileName = some "7_abc".toList := by
  have accepted : (ofEntry Group.chronoSettings ⟨"/disk/bob/0".toList⟩ "7_abc" :
      Option (PearlDirectory (logEngine 8))).isSome = true := by decide +kernel
  obtain ⟨made, entry⟩ := Option.isSome_iff_exists.mp accepted
  have printed := (@accepted_entries_are_opened_iff 8 (logEngine 8) Group.chronoSettings
    ⟨"/disk/bob/0".toList⟩ ["7_abc"] (by decide +kernel)).mpr ?_
  · exact ⟨made, entry, printed.1 "7_abc" List.mem_cons_self made entry⟩
  · intro s listed _
    rw [List.mem_singleton.mp listed]
    have digit : ∀ c ∈ ['7'], c.isDigit = true := List.forall_mem_singleton.mpr rfl
    exact ⟨['7'], ['a', 'b', 'c'], by decide +kernel, ⟨by decide, digit, by decide⟩, by decide⟩

/-- Zeros in front of the number are lost, and so is the difference between a name with an
underscore at its end and one without. -/
theorem entries_open_another_directory :
    (ofEntry Group.chronoSettings ⟨"/disk/bob/0".toList⟩ "007_abc" :
        Option (PearlDirectory (logEngine 8))).map (·.diskPath.fileName) =
      some (some "7_abc".toList) ∧
    (ofEntry Group.chronoSettings ⟨"/disk/bob/0".toList⟩ "7" :
        Option (PearlDirectory (logEngine 8))).map (·.diskPath) =
      some ⟨"/disk/bob/0/7_".toList⟩ ∧
    (ofEntry Group.chronoSettings ⟨"/disk/bob/0".toList⟩ "7_" :
        Option (PearlDirectory (logEngine 8))).map (·.diskPath) =
      some ⟨"/disk/bob/0/7_".toList⟩ := by
  decide +kernel

end PearlDirectory

end Bob.Backend
