import LedgerValue.Proofs.Outcome
import LedgerValue.Store.Command

/-!
# Directories whose entries stand in folders

In a rooted directory every entry stands in a folder. The empty directory is rooted
(`rooted_empty`), and making folders, writing files and every other step of work keeps a directory
rooted, whatever path it goes by. Main statement: `rooted_step`.
-/

namespace LedgerValue

namespace Location

theorem isAround_of_append {location : Location} {name : String}
    (haround : isAround (location ++ [name]) = true) : location.isAround = true := by
  simp only [isAround, Bool.or_eq_true, decide_eq_true_eq, List.all_append, Bool.and_eq_true]
    at haround ⊢
  rcases haround with ⟨hall, -⟩ | hroot
  · exact Or.inl hall
  · obtain rfl : location = [] := by cases location <;> simp_all
    exact Or.inl rfl

end Location

namespace Directory

variable {directory changed : Directory} {location : Location} {path : FilePath} {name : String}
  {bytes : List UInt8} {entry : Entry} {move : Move}

/-- Every entry stands in a folder. -/
def Rooted (directory : Directory) : Prop :=
  ∀ location name entry, directory.get? (location ++ [name]) = some entry →
    directory.get? location = some .folder

theorem get?_of_isAround (haround : location.isAround = true) :
    directory.get? location = some .folder := if_pos haround

theorem rooted_empty : empty.Rooted := by
  intro location name entry hentry
  rw [get?] at hentry
  split at hentry
  · rename_i haround
    exact get?_of_isAround (Location.isAround_of_append haround)
  · cases hentry

/-- An entry in a folder keeps a directory rooted, unless it stands in the place of a folder. -/
theorem rooted_put (hrooted : directory.Rooted) (hfolder : directory.get? location = some .folder)
    (hfree : directory.get? (location ++ [name]) ≠ some .folder) :
    (directory.put (location ++ [name]) entry).Rooted := by
  have hkeeps : ∀ origin, directory.get? origin = some .folder →
      (directory.put (location ++ [name]) entry).get? origin = some .folder := by
    intro origin horigin
    have hne : origin ≠ location ++ [name] := fun heq => hfree (by rw [← heq, horigin])
    rw [get?_put_of_ne hne, horigin]
  intro origin last held hheld
  by_cases heq : origin ++ [last] = location ++ [name]
  · obtain rfl := (List.append_inj' heq rfl).1
    exact hkeeps origin hfolder
  · rw [get?_put_of_ne heq] at hheld
    exact hkeeps origin (hrooted origin last held hheld)

theorem get?_above (hrooted : directory.Rooted) (hfolder : directory.get? location = some .folder) :
    directory.get? location.above = some .folder := by
  rw [Location.above]
  split
  · exact hfolder
  · split
    · rename_i hall
      exact get?_of_isAround (by rw [Location.isAround, List.all_append, hall]; rfl)
    · obtain rfl | ⟨init, last, rfl⟩ := List.eq_nil_or_concat' location
      · exact hfolder
      · rw [List.dropLast_concat]
        exact hrooted init last _ hfolder

/-- From a folder, every move but one to a name leads to a folder. -/
theorem follow_of_folder (hrooted : directory.Rooted)
    (hfolder : directory.get? location = some .folder) (move : Move) :
    directory.get? (location.follow move) = some .folder ∨
      ∃ name, location.follow move = location ++ [name] := by
  cases move with
  | here => exact Or.inl hfolder
  | up => exact Or.inl (get?_above hrooted hfolder)
  | name text => exact Or.inr ⟨text, rfl⟩

theorem rooted_put_follow (hrooted : directory.Rooted)
    (hfolder : directory.get? location = some .folder)
    (hfree : directory.get? (location.follow move) ≠ some .folder) :
    (directory.put (location.follow move) entry).Rooted := by
  obtain hthere | ⟨name, hname⟩ := follow_of_folder hrooted hfolder move
  · exact absurd hthere hfree
  · rw [hname] at hfree ⊢
    exact rooted_put hrooted hfolder hfree

theorem get?_of_walk {moves : List Move} {origin reached : Location}
    (horigin : directory.get? origin = some .folder)
    (hwalk : directory.walk origin moves = .ok reached) :
    directory.get? reached = some .folder := by
  induction moves generalizing origin with
  | nil =>
    obtain rfl := Except.ok.inj hwalk
    exact horigin
  | cons move rest ih =>
    obtain ⟨next, henter, hrest⟩ := bind_eq_ok_iff.mp hwalk
    obtain ⟨rfl, -, hfolder⟩ := enter_eq_ok_iff.mp henter
    exact ih hfolder hrest

@[simp]
theorem get?_start (path : FilePath) : directory.get? path.start = some .folder := by
  refine get?_of_isAround ?_
  rw [FilePath.start]
  split <;> rfl

theorem rooted_write (hrooted : directory.Rooted)
    (hwrite : directory.write path bytes = .ok changed) : changed.Rooted := by
  obtain ⟨location, hplace, -, hfree, -, rfl⟩ := write_eq_ok_iff.mp hwrite
  rw [place] at hplace
  split at hplace
  · cases hplace
  · obtain rfl := Except.ok.inj hplace
    exact absurd (get?_start path) hfree
  · obtain ⟨folder, hwalk, rfl⟩ := map_eq_ok_iff.mp hplace
    exact rooted_put_follow hrooted (get?_of_walk (get?_start path) hwalk) hfree

theorem rooted_makeAlong (hrooted : directory.Rooted) {moves : List Move} {made : Bool}
    (hfolder : directory.get? location = some .folder) :
    (directory.makeAlong location made moves).1.Rooted := by
  induction moves generalizing directory location made with
  | nil => exact hrooted
  | cons move rest ih =>
    simp only [makeAlong]
    split
    · exact hrooted
    · split
      · rename_i hthere
        exact ih hrooted hthere
      · exact hrooted
      · rename_i hnone
        have hfree : directory.get? (location.follow move) ≠ some .folder := by simp [hnone]
        exact ih (rooted_put_follow hrooted hfolder hfree) (get?_put_self hfree .folder)

theorem rooted_makeFolders (hrooted : directory.Rooted) (path : FilePath) :
    (directory.makeFolders path).1.Rooted := by
  unfold makeFolders
  split
  · exact hrooted
  · exact rooted_makeAlong hrooted (get?_start path)

theorem rooted_save (hrooted : directory.Rooted) (path : FilePath) (bytes : List UInt8) :
    (directory.save path bytes).1.Rooted := by
  have hfurnished := rooted_makeFolders hrooted path.parent
  unfold save
  generalize directory.makeFolders path.parent = made at hfurnished ⊢
  obtain ⟨furnished, fault⟩ := made
  cases fault with
  | some fault => exact hfurnished
  | none =>
    dsimp only
    split
    · exact hfurnished
    · rename_i hwrite
      exact rooted_write hfurnished hwrite

/-- Work keeps a directory rooted, whatever paths it is done on. -/
theorem rooted_step (hrooted : directory.Rooted) (command : Command) :
    (directory.step command).1.Rooted := by
  cases command with
  | load path expected => exact hrooted
  | write path bytes =>
    rw [step]
    split
    · exact hrooted
    · rename_i hwrite
      exact rooted_write hrooted hwrite
  | store path value =>
    change (directory.storeBytes path value).1.Rooted
    cases hencode : Codec.encode value with
    | error error => rwa [storeBytes_of_encode_eq_error hencode]
    | ok text =>
      have hsaved := rooted_save hrooted path (Text.utf8 text)
      rcases hsave : directory.save path (Text.utf8 text) with ⟨changed, _ | fault⟩
      · rwa [storeBytes_of_save hencode hsave, ← congrArg Prod.fst hsave]
      · rwa [storeBytes_of_save_fault hencode hsave, ← congrArg Prod.fst hsave]

end Directory

end LedgerValue
