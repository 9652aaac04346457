import LedgerValue.Proofs.Store.Rooted

/-!
# Paths of names

In a rooted directory a path of names alone leads to the location that the names spell. What it
reads is decided by what stands there (`read_ofNames_eq_ok_iff`). Saving it changes the file there
and no other (`get?_of_save_ofNames`, `get?_file_of_save_fault`), and succeeds where the path can be
used, no folder stands there and no file stands on the way (`exists_save_ofNames`).
-/

namespace LedgerValue

namespace FilePath

/-- The relative path of some names, without moves that stay or go up. -/
def ofNames (names : List String) : FilePath := ⟨false, names.map .name, false⟩

/-- The path leads somewhere, and no name takes more bytes than a name may. -/
def IsUsable (path : FilePath) : Prop :=
  path.fault? = none ∧ ∀ move ∈ path.moves, move.text.utf8ByteSize ≤ Location.nameLimit

theorem size_ofNames_append (names : List String) (name : String) :
    (ofNames (names ++ [name])).size = (ofNames names).size + name.utf8ByteSize + 1 := by
  simp [size, ofNames, Move.text]

theorem fault?_eq_none_iff {path : FilePath} :
    path.fault? = none ↔
      (∀ move ∈ path.moves, '\x00' ∉ move.text.toList) ∧ path.size < sizeLimit := by
  rw [fault?]
  split
  · rename_i hnull
    simpa using fun hall => absurd hnull (by simpa using hall)
  · rename_i hnull
    split
    · rename_i hlong
      simp [Nat.not_lt.mpr hlong]
    · rename_i hshort
      simpa [Nat.lt_of_not_le hshort] using hnull

theorem fault?_ofNames_of_append {names : List String} {name : String}
    (hfault : (ofNames (names ++ [name])).fault? = none) : (ofNames names).fault? = none := by
  obtain ⟨hnull, hsize⟩ := fault?_eq_none_iff.mp hfault
  rw [size_ofNames_append] at hsize
  refine fault?_eq_none_iff.mpr ⟨fun move hmem => hnull move ?_, by omega⟩
  simp only [ofNames, List.map_append, List.mem_append] at hmem ⊢
  exact Or.inl hmem

@[simp]
theorem parent_ofNames (names : List String) : (ofNames names).parent = ofNames names.dropLast := by
  have hnames : (names.map Move.name).filter (· ≠ .here) = names.map .name := by
    simp [List.filter_eq_self]
  rw [parent, ofNames, hnames, ofNames, List.map_dropLast]

end FilePath

namespace Location

theorem tooLong_append (location : Location) (name : String) :
    tooLong (location ++ [name]) = decide (nameLimit < name.utf8ByteSize) := by
  simp [tooLong]

end Location

namespace Directory

variable {directory changed : Directory} {location other : Location} {path : FilePath}
  {names : List String} {name : String} {bytes found : List UInt8}

theorem read_eq_ok_iff :
    directory.read path = .ok bytes ↔
      ∃ location, directory.place path = .ok location ∧ path.slash = false ∧
        location.tooLong = false ∧ directory.get? location = some (.file bytes) := by
  rw [read, bind_eq_ok_iff]
  refine exists_congr fun location => and_congr_right fun _ => ?_
  cases location.tooLong <;> cases path.slash <;> rcases directory.get? location with
    _ | _ | _ <;> simp

section Names

theorem get?_folder_of_append (hrooted : directory.Rooted) (further : List String)
    (hfolder : directory.get? (location ++ further) = some .folder) :
    directory.get? location = some .folder := by
  induction further generalizing location with
  | nil => rwa [List.append_nil] at hfolder
  | cons name rest ih =>
    rw [← List.singleton_append, ← List.append_assoc] at hfolder
    exact hrooted location name _ (ih hfolder)

/-- A way through folders that goes by names alone leads where the names say. -/
theorem walk_names_eq_ok_iff {reached : Location} (hrooted : directory.Rooted)
    (hfolder : directory.get? location = some .folder) :
    directory.walk location (names.map .name) = .ok reached ↔
      reached = location ++ names ∧ (∀ name ∈ names, name.utf8ByteSize ≤ Location.nameLimit) ∧
        directory.get? (location ++ names) = some .folder := by
  induction names generalizing location with
  | nil => simp [walk, hfolder, eq_comm]
  | cons name rest ih =>
    rw [List.map_cons, walk, bind_eq_ok_iff, List.forall_mem_cons,
      show location ++ name :: rest = (location ++ [name]) ++ rest by simp]
    constructor
    · rintro ⟨next, henter, hrest⟩
      obtain ⟨rfl, hshort, hnext⟩ := enter_eq_ok_iff.mp henter
      obtain ⟨hreached, hshorts, hlast⟩ := (ih hnext).mp hrest
      rw [Location.follow, Location.tooLong_append, decide_eq_false_iff_not, Nat.not_lt] at hshort
      exact ⟨hreached, ⟨hshort, hshorts⟩, hlast⟩
    · rintro ⟨rfl, ⟨hshort, hshorts⟩, hlast⟩
      have hnext := get?_folder_of_append hrooted rest hlast
      refine ⟨location ++ [name], enter_eq_ok_iff.mpr ⟨rfl, ?_, hnext⟩,
        (ih hnext).mpr ⟨rfl, hshorts, hlast⟩⟩
      rwa [Location.follow, Location.tooLong_append, decide_eq_false_iff_not, Nat.not_lt]

theorem place_ofNames_eq_ok_iff {reached : Location} (hrooted : directory.Rooted) :
    directory.place (.ofNames (names ++ [name])) = .ok reached ↔
      reached = names ++ [name] ∧ (FilePath.ofNames (names ++ [name])).fault? = none ∧
        (∀ name ∈ names, name.utf8ByteSize ≤ Location.nameLimit) ∧
        directory.get? names = some .folder := by
  have hlast : (FilePath.ofNames (names ++ [name])).moves.getLast? = some (.name name) := by
    simp [FilePath.ofNames]
  have hinit : (FilePath.ofNames (names ++ [name])).moves.dropLast = names.map .name := by
    simp [FilePath.ofNames]
  rw [place, hlast, hinit]
  cases (FilePath.ofNames (names ++ [name])).fault? with
  | some fault => simp
  | none =>
    have hroot : directory.get? [] = some .folder := get?_of_isAround rfl
    simp only [FilePath.start, FilePath.ofNames, Bool.false_eq_true, if_false, map_eq_ok_iff,
      walk_names_eq_ok_iff hrooted hroot, List.nil_append, true_and]
    constructor
    · rintro ⟨folder, ⟨rfl, hshort, hthere⟩, rfl⟩
      exact ⟨rfl, hshort, hthere⟩
    · rintro ⟨rfl, hshort, hthere⟩
      exact ⟨names, ⟨rfl, hshort, hthere⟩, rfl⟩

@[simp]
theorem place_ofNames_nil : directory.place (.ofNames []) = .ok [] := rfl

theorem eq_of_place_ofNames {reached : Location} (hrooted : directory.Rooted)
    (hplace : directory.place (.ofNames names) = .ok reached) : reached = names := by
  obtain rfl | ⟨init, last, rfl⟩ := List.eq_nil_or_concat' names
  · exact (Except.ok.inj hplace).symm
  · exact ((place_ofNames_eq_ok_iff hrooted).mp hplace).1

theorem isUsable_ofNames_append :
    (FilePath.ofNames (names ++ [name])).IsUsable ↔
      (FilePath.ofNames (names ++ [name])).fault? = none ∧
        (∀ name ∈ names, name.utf8ByteSize ≤ Location.nameLimit) ∧
        name.utf8ByteSize ≤ Location.nameLimit := by
  simp [FilePath.IsUsable, FilePath.ofNames, Move.text, or_imp, forall_and]

/-- What a path of names reads is decided by what stands at the location that it spells. -/
theorem read_ofNames_eq_ok_iff (hrooted : directory.Rooted) :
    directory.read (.ofNames names) = .ok bytes ↔
      (FilePath.ofNames names).IsUsable ∧ directory.get? names = some (.file bytes) := by
  rw [read_eq_ok_iff]
  obtain rfl | ⟨init, last, rfl⟩ := List.eq_nil_or_concat' names
  · have hroot : directory.get? [] = some .folder := get?_of_isAround rfl
    simp [hroot]
  · simp only [place_ofNames_eq_ok_iff hrooted, isUsable_ofNames_append]
    constructor
    · rintro ⟨location, ⟨rfl, hfault, hshorts, -⟩, -, hshort, hfile⟩
      rw [Location.tooLong_append, decide_eq_false_iff_not, Nat.not_lt] at hshort
      exact ⟨⟨hfault, hshorts, hshort⟩, hfile⟩
    · rintro ⟨⟨hfault, hshorts, hshort⟩, hfile⟩
      refine ⟨init ++ [last], ⟨rfl, hfault, hshorts, hrooted init last _ hfile⟩, rfl, ?_, hfile⟩
      rwa [Location.tooLong_append, decide_eq_false_iff_not, Nat.not_lt]

/-- Where the same files stand at a location, its path reads the same. -/
theorem read_ofNames_congr (hrooted : directory.Rooted) (hchanged : changed.Rooted)
    (hsame : ∀ found, changed.get? names = some (.file found) ↔
      directory.get? names = some (.file found)) :
    changed.read (.ofNames names) = .ok bytes ↔ directory.read (.ofNames names) = .ok bytes := by
  rw [read_ofNames_eq_ok_iff hrooted, read_ofNames_eq_ok_iff hchanged, hsame]

end Names

section Files

theorem get?_file_makeAlong {moves : List Move} {made : Bool} :
    (directory.makeAlong location made moves).1.get? other = some (.file found) ↔
      directory.get? other = some (.file found) := by
  refine ⟨fun hfile => ?_, fun hfile => get?_makeAlong hfile location made moves⟩
  induction moves generalizing directory location made with
  | nil => exact hfile
  | cons move rest ih =>
    simp only [makeAlong] at hfile
    split at hfile
    · exact hfile
    · split at hfile
      · exact ih hfile
      · exact hfile
      · rename_i hnone
        have hput := ih hfile
        have hne : other ≠ location.follow move := by
          rintro rfl
          rw [get?_put_self (by simp [hnone])] at hput
          cases hput
        rwa [get?_put_of_ne hne] at hput

/-- Making folders makes and removes no files. -/
@[simp]
theorem get?_file_makeFolders :
    (directory.makeFolders path).1.get? other = some (.file found) ↔
      directory.get? other = some (.file found) := by
  unfold makeFolders
  split
  · exact Iff.rfl
  · exact get?_file_makeAlong

theorem get?_of_write_ofNames (hrooted : directory.Rooted)
    (hwrite : directory.write (.ofNames names) bytes = .ok changed) :
    changed.get? names = some (.file bytes) ∧
      ∀ other, other ≠ names → changed.get? other = directory.get? other := by
  obtain ⟨location, hplace, -, hfree, -, rfl⟩ := write_eq_ok_iff.mp hwrite
  obtain rfl := eq_of_place_ofNames hrooted hplace
  exact ⟨get?_put_self hfree _, fun other hne => get?_put_of_ne hne directory _⟩

/-- A file that is saved stands where its path says, and no other file changes. -/
theorem get?_of_save_ofNames (hrooted : directory.Rooted)
    (hsave : directory.save (.ofNames names) bytes = (changed, none)) :
    changed.get? names = some (.file bytes) ∧
      ∀ other, other ≠ names → ∀ found, changed.get? other = some (.file found) ↔
        directory.get? other = some (.file found) := by
  have hfurnished := rooted_makeFolders hrooted (FilePath.ofNames names).parent
  have hfiles := fun other found =>
    @get?_file_makeFolders directory other (FilePath.ofNames names).parent found
  rw [save] at hsave
  generalize directory.makeFolders (FilePath.ofNames names).parent = made at *
  obtain ⟨furnished, _ | fault⟩ := made
  · dsimp only at hsave
    split at hsave
    · cases hsave
    · rename_i hwrite
      obtain rfl := (Prod.mk.inj hsave).1
      obtain ⟨hfile, hothers⟩ := get?_of_write_ofNames hfurnished hwrite
      exact ⟨hfile, fun other hne found => by rw [hothers other hne, hfiles]⟩
  · cases hsave

/-- Where a file cannot be saved, no file changes. -/
theorem get?_file_of_save_fault {fault : FileFault}
    (hsave : directory.save path bytes = (changed, some fault)) :
    changed.get? other = some (.file found) ↔ directory.get? other = some (.file found) := by
  have hfiles := @get?_file_makeFolders directory other path.parent found
  rw [save] at hsave
  generalize directory.makeFolders path.parent = made at *
  obtain ⟨furnished, _ | _⟩ := made
  · dsimp only at hsave
    split at hsave
    · obtain rfl := (Prod.mk.inj hsave).1
      exact hfiles
    · cases hsave
  · obtain rfl := (Prod.mk.inj hsave).1
    exact hfiles

/-- No folder stands where the names lead, and no file stands on the way. -/
structure IsClear (directory : Directory) (names : List String) : Prop where
  /-- There is no folder. -/
  free : directory.get? names ≠ some .folder
  /-- There is no file on the way. -/
  way : ∀ before, before <+: names → before ≠ names → ∀ found,
    directory.get? before ≠ some (.file found)

/-- Folders can be made along names that are short enough, if no file stands in the way. -/
theorem exists_makeAlong_names (hfolder : directory.get? location = some .folder)
    (hshort : ∀ name ∈ names, name.utf8ByteSize ≤ Location.nameLimit)
    (hway : ∀ before, before <+: names → ∀ found,
      directory.get? (location ++ before) ≠ some (.file found)) (made : Bool) :
    ∃ furnished, directory.makeAlong location made (names.map .name) = (furnished, none) ∧
      furnished.get? (location ++ names) = some .folder ∧
      ∀ other, ¬other <+: location ++ names → furnished.get? other = directory.get? other := by
  induction names generalizing directory location made with
  | nil => exact ⟨directory, rfl, by rwa [List.append_nil], fun _ _ => rfl⟩
  | cons name rest ih =>
    obtain ⟨hname, hrest⟩ := List.forall_mem_cons.mp hshort
    have hnotLong : (location.follow (.name name)).tooLong = false := by
      rwa [Location.follow, Location.tooLong_append, decide_eq_false_iff_not, Nat.not_lt]
    have hsplit : location ++ name :: rest = (location ++ [name]) ++ rest := by simp
    have hnext : ∀ before, before <+: rest → ∀ found,
        directory.get? (location ++ [name] ++ before) ≠ some (.file found) := by
      intro before hbefore found
      rw [List.append_assoc, List.singleton_append]
      exact hway (name :: before) ((List.prefix_cons_inj name).mpr hbefore) found
    simp only [List.map_cons, makeAlong, hnotLong, Bool.false_eq_true, if_false, hsplit]
    simp only [Location.follow]
    cases hentry : directory.get? (location ++ [name]) with
    | none =>
      have hfree : directory.get? (location ++ [name]) ≠ some .folder := by simp [hentry]
      have hput := get?_put_self hfree .folder
      obtain ⟨furnished, hmade, hlast, hothers⟩ := ih hput hrest (fun before hbefore found => by
        by_cases heq : location ++ [name] ++ before = location ++ [name]
        · simp [heq, hput]
        · rw [get?_put_of_ne heq]
          exact hnext before hbefore found) true
      refine ⟨furnished, hmade, hlast, fun other hother => ?_⟩
      rw [hothers other hother, get?_put_of_ne]
      rintro rfl
      exact hother (List.prefix_append _ rest)
    | some entry =>
      cases entry with
      | folder => exact ih hentry hrest hnext made
      | file found => exact absurd (by simpa using hentry) (hnext [] (List.nil_prefix) found)

/-- Where the way is clear, a usable path can be saved: the folders on the way that are missing are
made. -/
theorem exists_save_ofNames (hrooted : directory.Rooted)
    (husable : (FilePath.ofNames names).IsUsable) (hclear : directory.IsClear names)
    (bytes : List UInt8) :
    ∃ changed, directory.save (.ofNames names) bytes = (changed, none) := by
  have hroot : directory.get? [] = some .folder := get?_of_isAround rfl
  obtain rfl | ⟨init, last, rfl⟩ := List.eq_nil_or_concat' names
  · exact absurd hroot hclear.free
  · obtain ⟨hfault, hshorts, hshort⟩ := isUsable_ofNames_append.mp husable
    have hbeyond : ¬init ++ [last] <+: init := fun hprefix =>
      Nat.not_succ_le_self init.length (by simpa using hprefix.length_le)
    have hway : ∀ before, before <+: init → ∀ found,
        directory.get? ([] ++ before) ≠ some (.file found) := fun before hbefore found =>
      hclear.way before (hbefore.trans (List.prefix_append _ _))
        (fun heq => hbeyond (heq ▸ hbefore)) found
    obtain ⟨furnished, hmade, hfolder, hothers⟩ :=
      exists_makeAlong_names hroot hshorts hway false
    have hfolders : directory.makeFolders (FilePath.ofNames (init ++ [last])).parent =
        (furnished, none) := by
      rw [FilePath.parent_ofNames, List.dropLast_concat, makeFolders,
        FilePath.fault?_ofNames_of_append hfault]
      exact hmade
    have hfurnished : furnished.Rooted := by
      have hrootedFolders := rooted_makeFolders hrooted (FilePath.ofNames (init ++ [last])).parent
      rwa [hfolders] at hrootedFolders
    have hfree : furnished.get? (init ++ [last]) ≠ some .folder := by
      rw [hothers _ hbeyond]
      exact hclear.free
    have hwrite : furnished.write (.ofNames (init ++ [last])) bytes =
        .ok (furnished.put (init ++ [last]) (.file bytes)) := by
      refine write_eq_ok_iff.mpr ⟨_, (place_ofNames_eq_ok_iff hfurnished).mpr
        ⟨rfl, hfault, hshorts, hfolder⟩, rfl, hfree, ?_, rfl⟩
      rwa [Location.tooLong_append, decide_eq_false_iff_not, Nat.not_lt]
    refine ⟨furnished.put (init ++ [last]) (.file bytes), ?_⟩
    rw [save, hfolders]
    dsimp only
    rw [hwrite]

end Files

end Directory

end LedgerValue
