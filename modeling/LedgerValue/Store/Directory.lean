import LedgerValue.Store.FilePath

/-!
# Directories

A directory holds files and folders at locations below its root. A path is followed move by move:
every move but the last has to lead to a folder. Main statements: what is written is read back
(`read_of_write`, `read_of_save`), and making folders keeps what is there (`get?_makeAlong`).
-/

namespace LedgerValue

/-- A location below the root of a directory: the names on the way. Folders around the root have
one `..` for each level, and the outermost one is `/`. -/
abbrev Location := List String

namespace Location

/-- The location is the root or a folder around it. -/
def isAround (location : Location) : Bool :=
  location.all (· = "..") || location = ["/"]

/-- The folder around a location; the outermost one has none but itself. -/
def above (location : Location) : Location :=
  if location = ["/"] then location
  else if location.all (· = "..") then location ++ [".."]
  else location.dropLast

/-- Where a move leads from a folder, whatever stands there. -/
def follow (location : Location) : Move → Location
  | .here => location
  | .up => location.above
  | .name text => location ++ [text]

/-- The most bytes that a name takes. -/
def nameLimit : Nat := 255

/-- The last name takes more bytes than a name may. -/
def tooLong (location : Location) : Bool :=
  location.getLast?.any fun name => nameLimit < name.utf8ByteSize

end Location

/-- The folder that a path starts at. -/
def FilePath.start (path : FilePath) : Location := if path.absolute then ["/"] else []

/-- What stands at a location. -/
inductive Entry where
  /-- A folder. -/
  | folder
  /-- A file with its bytes. -/
  | file (bytes : List UInt8)
deriving DecidableEq, Repr

/-- The files and folders below a root. -/
structure Directory where
  /-- What stands at each location, the root left out. -/
  entries : List (Location × Entry)

namespace Directory

/-- The directory without files and folders. -/
def empty : Directory := ⟨[]⟩

/-- What stands at a location. The root and the folders around it are always there. -/
def get? (directory : Directory) (location : Location) : Option Entry :=
  if location.isAround then some .folder else directory.entries.lookup location

/-- Puts an entry at a location, in place of what stood there. -/
def replace (location : Location) (entry : Entry) :
    List (Location × Entry) → List (Location × Entry)
  | [] => [(location, entry)]
  | (other, held) :: rest =>
    if other = location then (location, entry) :: rest
    else (other, held) :: replace location entry rest

@[simp]
theorem lookup_replace_self (location : Location) (entry : Entry)
    (entries : List (Location × Entry)) :
    (replace location entry entries).lookup location = some entry := by
  induction entries with
  | nil => simp [replace]
  | cons head rest ih =>
    obtain ⟨other, held⟩ := head
    simp only [replace]
    split
    · simp
    · rename_i hne
      rw [List.lookup_cons, beq_false_of_ne (Ne.symm hne), ih]

theorem lookup_replace_of_ne {location sought : Location} (hne : sought ≠ location)
    (entry : Entry) (entries : List (Location × Entry)) :
    (replace location entry entries).lookup sought = entries.lookup sought := by
  induction entries with
  | nil => rw [replace, List.lookup_cons, beq_false_of_ne hne]
  | cons head rest ih =>
    obtain ⟨other, held⟩ := head
    simp only [replace]
    split
    · rename_i heq
      subst heq
      simp only [List.lookup_cons, beq_false_of_ne hne]
    · simp only [List.lookup_cons, ih]

/-- The directory with an entry at a location, in place of what stood there. -/
def put (directory : Directory) (location : Location) (entry : Entry) : Directory :=
  ⟨replace location entry directory.entries⟩

@[simp]
theorem get?_put_self {directory : Directory} {location : Location}
    (hfree : directory.get? location ≠ some .folder) (entry : Entry) :
    (directory.put location entry).get? location = some entry := by
  unfold get? at hfree ⊢
  split at hfree
  · exact absurd rfl hfree
  · rename_i haround
    rw [if_neg haround]
    exact lookup_replace_self location entry directory.entries

theorem get?_put_of_ne {location sought : Location} (hne : sought ≠ location)
    (directory : Directory) (entry : Entry) :
    (directory.put location entry).get? sought = directory.get? sought := by
  unfold get?
  split
  · rfl
  · exact lookup_replace_of_ne hne entry directory.entries

/-- Goes from a folder to the next one, which has to be there. -/
def enter (directory : Directory) (location : Location) (move : Move) :
    Except FileFault Location :=
  let next := location.follow move
  if next.tooLong then .error .nameTooLong
  else
    match directory.get? next with
    | some .folder => .ok next
    | some (.file _) => .error .notFolder
    | none => .error .notFound

theorem enter_eq_ok_iff {directory : Directory} {location next : Location} {move : Move} :
    directory.enter location move = .ok next ↔
      next = location.follow move ∧ (location.follow move).tooLong = false ∧
        directory.get? (location.follow move) = some .folder := by
  simp only [enter]
  split
  · rename_i hlong
    simp [hlong]
  · rename_i hshort
    split <;> rename_i hentry
    · simp [hentry, hshort, eq_comm]
    all_goals simp [hentry]

/-- Goes through some folders in turn. -/
def walk (directory : Directory) (location : Location) : List Move → Except FileFault Location
  | [] => .ok location
  | move :: rest => (directory.enter location move).bind fun next => directory.walk next rest

/-- The location that a path leads to. Something stands there or not, but the folders on the way
have to be there. -/
def place (directory : Directory) (path : FilePath) : Except FileFault Location :=
  match path.fault?, path.moves.getLast? with
  | some fault, _ => .error fault
  | none, none => .ok path.start
  | none, some last =>
    (directory.walk path.start path.moves.dropLast).map fun location => location.follow last

/-- The bytes of the file that a path leads to. -/
def read (directory : Directory) (path : FilePath) : Except FileFault (List UInt8) :=
  (directory.place path).bind fun location =>
    if location.tooLong then .error .nameTooLong
    else
      match directory.get? location with
      | some .folder => .error .isFolder
      | some (.file bytes) => if path.slash then .error .notFolder else .ok bytes
      | none => .error .notFound

/-- Writes the file that a path leads to, in place of the bytes that it held. -/
def write (directory : Directory) (path : FilePath) (bytes : List UInt8) :
    Except FileFault Directory :=
  (directory.place path).bind fun location =>
    if path.slash || directory.get? location = some .folder then .error .isFolder
    else if location.tooLong then .error .nameTooLong
    else .ok (directory.put location (.file bytes))

theorem write_eq_ok_iff {directory changed : Directory} {path : FilePath} {bytes : List UInt8} :
    directory.write path bytes = .ok changed ↔
      ∃ location, directory.place path = .ok location ∧ path.slash = false ∧
        directory.get? location ≠ some .folder ∧ location.tooLong = false ∧
        changed = directory.put location (.file bytes) := by
  unfold write
  cases directory.place path with
  | error fault => simp [Except.bind]
  | ok location =>
    simp only [Except.bind, Except.ok.injEq, exists_eq_left']
    split
    · rename_i hfolder
      simp only [Bool.or_eq_true, decide_eq_true_eq] at hfolder
      simp only [reduceCtorEq, false_iff]
      rintro ⟨hslash, hfree, -⟩
      exact hfolder.elim (fun htrue => by simp [hslash] at htrue) hfree
    · rename_i hfile
      simp only [Bool.or_eq_true, decide_eq_true_eq, not_or, Bool.not_eq_true] at hfile
      split
      · rename_i hlong
        simp [hlong]
      · rename_i hshort
        simp [hfile.1, hfile.2, hshort, eq_comm]

/-- A file that is written where no folder stands is on no way through the folders. -/
theorem walk_put_file {directory : Directory} {location : Location}
    (hfree : directory.get? location ≠ some .folder) (bytes : List UInt8)
    {moves : List Move} {origin reached : Location}
    (hwalk : directory.walk origin moves = .ok reached) :
    (directory.put location (.file bytes)).walk origin moves = .ok reached := by
  induction moves generalizing origin with
  | nil => exact hwalk
  | cons move rest ih =>
    simp only [walk] at hwalk ⊢
    cases henter : directory.enter origin move with
    | error fault => simp [henter, Except.bind] at hwalk
    | ok next =>
      rw [henter] at hwalk
      obtain ⟨rfl, hshort, hfolder⟩ := enter_eq_ok_iff.mp henter
      have hne : origin.follow move ≠ location := fun heq => hfree (heq ▸ hfolder)
      rw [enter_eq_ok_iff.mpr ⟨rfl, hshort, (get?_put_of_ne hne directory _).trans hfolder⟩]
      exact ih hwalk

theorem place_put_file {directory : Directory} {path : FilePath} {location reached : Location}
    (hfree : directory.get? location ≠ some .folder) (bytes : List UInt8)
    (hplace : directory.place path = .ok reached) :
    (directory.put location (.file bytes)).place path = .ok reached := by
  unfold place at hplace ⊢
  split
  · simp_all
  · simp_all
  · rename_i last hfault hlast
    simp only [hfault, hlast] at hplace
    cases hwalk : directory.walk path.start path.moves.dropLast with
    | error fault => simp [hwalk, Except.map] at hplace
    | ok folder =>
      rw [hwalk] at hplace
      rw [walk_put_file hfree bytes hwalk]
      exact hplace

theorem read_of_write {directory changed : Directory} {path : FilePath} {bytes : List UInt8}
    (hwrite : directory.write path bytes = .ok changed) : changed.read path = .ok bytes := by
  obtain ⟨location, hplace, hslash, hfree, hshort, rfl⟩ := write_eq_ok_iff.mp hwrite
  simp [read, place_put_file hfree bytes hplace, Except.bind, hshort, hslash,
    get?_put_self hfree]

/-- Makes the folders of some moves that are not there, up to the first fault. `made` tells whether
a folder was made before: from then on each folder is made in its turn, and a file stands in the
place of one; before, a file is only on the way if another move follows. -/
def makeAlong (directory : Directory) (location : Location) (made : Bool) :
    List Move → Directory × Option FileFault
  | [] => (directory, none)
  | move :: rest =>
    let next := location.follow move
    if next.tooLong then (directory, some .nameTooLong)
    else
      match directory.get? next with
      | some .folder => directory.makeAlong next made rest
      | some (.file _) =>
        (directory, some (if made || rest.isEmpty then .alreadyExists else .notFolder))
      | none => (directory.put next .folder).makeAlong next true rest

/-- Makes the folders of a path that are not there. Those that were made stay if one cannot be
made. -/
def makeFolders (directory : Directory) (path : FilePath) : Directory × Option FileFault :=
  match path.fault? with
  | some fault => (directory, some fault)
  | none => directory.makeAlong path.start false path.moves

theorem get?_makeAlong {directory : Directory} {location : Location} {entry : Entry}
    (hentry : directory.get? location = some entry) (origin : Location) (made : Bool)
    (moves : List Move) :
    (directory.makeAlong origin made moves).1.get? location = some entry := by
  induction moves generalizing directory origin made with
  | nil => exact hentry
  | cons move rest ih =>
    simp only [makeAlong]
    split
    · exact hentry
    · split
      · exact ih hentry _ made
      · exact hentry
      · rename_i hnone
        have hne : location ≠ origin.follow move := fun heq => by
          rw [heq, hnone] at hentry
          exact absurd hentry (by simp)
        exact ih (by rw [get?_put_of_ne hne, hentry]) _ true

/-- Writes a file after making the folders that it needs. Folders that were made stay if the file
cannot be written. -/
def save (directory : Directory) (path : FilePath) (bytes : List UInt8) :
    Directory × Option FileFault :=
  match directory.makeFolders path.parent with
  | (furnished, some fault) => (furnished, some fault)
  | (furnished, none) =>
    match furnished.write path bytes with
    | .error fault => (furnished, some fault)
    | .ok changed => (changed, none)

theorem read_of_save {directory changed : Directory} {path : FilePath} {bytes : List UInt8}
    (hsave : directory.save path bytes = (changed, none)) : changed.read path = .ok bytes := by
  unfold save at hsave
  split at hsave
  · simp at hsave
  · split at hsave
    · simp at hsave
    · rename_i hwrite
      obtain rfl := (Prod.mk.inj hsave).1
      exact read_of_write hwrite

end Directory

end LedgerValue
