import LedgerValue.Proofs.Store.Loading
import LedgerValue.Proofs.Store.NamedPath

/-!
# A directory as a map of documents

Over a whole run of steps on paths of names, a path reads the bytes that were last written there,
or what it read at the start if nothing was (`read_step` for one step, `read_after` for a run). What
is loaded is restored from these bytes. A value without a document leaves nothing behind, and a
stored one changes its own file only. Main statement: `documents_of_run`.
-/

namespace LedgerValue

namespace Codec

variable {value : Value} {text : String} {error : CodecError}

theorem hash_of_encode (hencode : encode value = .ok text) :
    hash value = .ok (Sha256.hexDigest (Text.utf8 text)) := by
  rw [encode, mapError_eq_ok_iff] at hencode
  rw [hash, mapError_eq_ok_iff, Canonical.hash, Canonical.writeBytes, hencode]
  rfl

theorem serialization_of_encode (hencode : encode value = .error error) :
    ∃ cause, error = .serialization cause := by
  obtain ⟨cause, -, rfl⟩ := mapError_eq_error_iff.mp hencode
  exact ⟨cause, rfl⟩

end Codec

namespace Directory

/-- The path that a step is about. -/
def Command.path : Command → FilePath
  | .store path _ => path
  | .load path _ => path
  | .write path _ => path

/-- The bytes that a step writes if it succeeds. -/
def Command.written? : Command → Option (List UInt8)
  | .store _ value => (Codec.encode value).toOption.map Text.utf8
  | .load _ _ => none
  | .write _ bytes => some bytes

/-- The bytes that a path holds after a step with its outcome, given those that it held before. -/
def Command.leaves (path : FilePath) (held : Option (List UInt8)) (command : Command) :
    Except CodecError Outcome → Option (List UInt8)
  | .error _ => held
  | .ok _ => if command.path = path then command.written?.or held else held

/-- The directory after some steps. -/
def after (directory : Directory) : List Command → Directory
  | [] => directory
  | command :: rest => (directory.step command).1.after rest

/-- The bytes that a path holds after steps with their outcomes: those last written there, or those
that it held before. -/
def lastWritten (path : FilePath) (held : Option (List UInt8)) :
    List (Command × Except CodecError Outcome) → Option (List UInt8)
  | [] => held
  | (command, outcome) :: rest => lastWritten path (command.leaves path held outcome) rest

variable {directory changed : Directory} {path : FilePath} {names others : List String}
  {value : Value} {expected : Ty} {bytes : List UInt8} {text : String} {command : Command}
  {commands : List Command}

section Steps

/-- A value with a document is stored where its file can be saved. -/
theorem step_store_of_save (hencode : Codec.encode value = .ok text)
    (hsave : directory.save path (Text.utf8 text) = (changed, none)) :
    directory.step (.store path value) = (changed, .ok (.stored (Text.utf8 text))) := by
  rw [step, storeBytes_of_save hencode hsave]
  rfl

theorem step_store_of_save_fault {fault : FileFault} (hencode : Codec.encode value = .ok text)
    (hsave : directory.save path (Text.utf8 text) = (changed, some fault)) :
    directory.step (.store path value) = (changed, .error (.file fault)) := by
  rw [step, storeBytes_of_save_fault hencode hsave]
  rfl

theorem step_store_of_encode_error {error : CodecError}
    (hencode : Codec.encode value = .error error) :
    directory.step (.store path value) = (directory, .error error) := by
  rw [step, storeBytes_of_encode_eq_error hencode]
  rfl

theorem step_write (hwrite : directory.write path bytes = .ok changed) :
    directory.step (.write path bytes) = (changed, .ok .written) := by
  rw [step, hwrite]

theorem step_write_of_fault {fault : FileFault}
    (hwrite : directory.write path bytes = .error fault) :
    directory.step (.write path bytes) = (directory, .error (.file fault)) := by
  rw [step, hwrite]

theorem step_load :
    directory.step (.load path expected) =
      (directory, (directory.load path expected).map .loaded) := rfl

/-- What a step on a path of names does to files: it writes its bytes at the path and leaves every
other file alone, or it fails or is none that writes, and leaves all files alone. -/
theorem step_cases (hrooted : directory.Rooted) (hcommand : command.path = .ofNames others) :
    (∃ bytes outcome, command.written? = some bytes ∧ (directory.step command).2 = .ok outcome ∧
      (directory.step command).1.read (.ofNames others) = .ok bytes ∧
      ∀ other, other ≠ others → ∀ found,
        (directory.step command).1.get? other = some (.file found) ↔
          directory.get? other = some (.file found)) ∨
    ((command.written? = none ∨ ∃ error, (directory.step command).2 = .error error) ∧
      ∀ other found, (directory.step command).1.get? other = some (.file found) ↔
        directory.get? other = some (.file found)) := by
  cases command with
  | load path expected => exact Or.inr ⟨Or.inl rfl, fun _ _ => Iff.rfl⟩
  | write path bytes =>
    obtain rfl : path = .ofNames others := hcommand
    cases hwrite : directory.write (.ofNames others) bytes with
    | error fault =>
      rw [step_write_of_fault hwrite]
      exact Or.inr ⟨Or.inr ⟨_, rfl⟩, fun _ _ => Iff.rfl⟩
    | ok changed =>
      rw [step_write hwrite]
      refine Or.inl ⟨bytes, _, rfl, rfl, read_of_write hwrite, fun other hne found => ?_⟩
      rw [(get?_of_write_ofNames hrooted hwrite).2 other hne]
  | store path value =>
    obtain rfl : path = .ofNames others := hcommand
    cases hencode : Codec.encode value with
    | error error =>
      rw [step_store_of_encode_error hencode]
      exact Or.inr ⟨Or.inr ⟨_, rfl⟩, fun _ _ => Iff.rfl⟩
    | ok text =>
      rcases hsave : directory.save (.ofNames others) (Text.utf8 text) with ⟨changed, _ | fault⟩
      · rw [step_store_of_save hencode hsave]
        refine Or.inl ⟨Text.utf8 text, _, ?_, rfl, read_of_save hsave,
          (get?_of_save_ofNames hrooted hsave).2⟩
        rw [Command.written?, hencode]
        rfl
      · rw [step_store_of_save_fault hencode hsave]
        exact Or.inr ⟨Or.inr ⟨_, rfl⟩, fun _ _ => get?_file_of_save_fault hsave⟩

/-- After a step a path of names reads the bytes that the step wrote there, or what it read
before. -/
theorem read_step (hrooted : directory.Rooted)
    (hcommand : ∃ others, command.path = .ofNames others) :
    ((directory.step command).1.read (.ofNames names)).toOption =
      command.leaves (.ofNames names) (directory.read (.ofNames names)).toOption
        (directory.step command).2 := by
  obtain ⟨others, hothers⟩ := hcommand
  have hsame : (∀ found, (directory.step command).1.get? names = some (.file found) ↔
      directory.get? names = some (.file found)) →
      ((directory.step command).1.read (.ofNames names)).toOption =
        (directory.read (.ofNames names)).toOption := fun hfiles => Option.ext fun bytes => by
    rw [toOption_eq_some_iff, toOption_eq_some_iff,
      read_ofNames_congr hrooted (rooted_step hrooted command) hfiles]
  rcases step_cases hrooted hothers with
    ⟨bytes, outcome, hwritten, houtcome, hread, hfiles⟩ | ⟨hsilent, hfiles⟩
  · rw [houtcome, Command.leaves, hothers]
    split
    · rename_i heq
      rw [← heq, hread, hwritten]
      rfl
    · rename_i hne
      exact hsame (hfiles names fun heq => hne (by rw [heq]))
  · rw [hsame (hfiles names)]
    rcases hsilent with hnone | ⟨error, herror⟩
    · cases (directory.step command).2 with
      | error error => rfl
      | ok outcome => rw [Command.leaves, hnone, Option.none_or, ite_self]
    · rw [herror]
      rfl

end Steps

section Runs

theorem rooted_after (hrooted : directory.Rooted) (commands : List Command) :
    (directory.after commands).Rooted := by
  induction commands generalizing directory with
  | nil => exact hrooted
  | cons command rest ih => exact ih (rooted_step hrooted command)

/-- After some steps on paths of names, such a path reads the bytes last written there, or the same
as before. -/
theorem read_after (hrooted : directory.Rooted)
    (hcommands : ∀ command ∈ commands, ∃ others, command.path = .ofNames others) :
    ((directory.after commands).read (.ofNames names)).toOption =
      lastWritten (.ofNames names) (directory.read (.ofNames names)).toOption
        (commands.zip (directory.run commands)) := by
  induction commands generalizing directory with
  | nil => rfl
  | cons command rest ih =>
    obtain ⟨hcommand, hrest⟩ := List.forall_mem_cons.mp hcommands
    rw [after, run, List.zip_cons_cons, lastWritten, ih (rooted_step hrooted command) hrest,
      read_step hrooted hcommand]

theorem load_of_read_eq_ok (hread : directory.read path = .ok bytes)
    (hutf8 : Text.ofUtf8? bytes = some text) :
    directory.load path expected = Codec.restore text expected := by
  simp only [load, hread, hutf8]

theorem load_of_read_invalid (hread : directory.read path = .ok bytes)
    (hutf8 : Text.ofUtf8? bytes = none) :
    directory.load path expected = .error (.file .invalidData) := by
  simp only [load, hread, hutf8]

theorem exists_load_eq_error (hread : (directory.read path).toOption = none) :
    ∃ fault, directory.load path expected = .error (.file fault) := by
  cases hfault : directory.read path with
  | ok bytes =>
    rw [hfault] at hread
    cases hread
  | error fault => exact ⟨fault, by simp only [load, hfault]⟩

/-- A stored value leaves its document in its file and no other file changed. -/
theorem document_of_step_store {outcome : Outcome} (hrooted : directory.Rooted)
    (hencode : Codec.encode value = .ok text)
    (hstep : directory.step (.store (.ofNames names) value) = (changed, .ok outcome)) :
    outcome = .stored (Text.utf8 text) ∧ changed.read (.ofNames names) = .ok (Text.utf8 text) ∧
      ∀ other, other ≠ names → ∀ found, changed.get? other = some (.file found) ↔
        directory.get? other = some (.file found) := by
  rcases hsave : directory.save (.ofNames names) (Text.utf8 text) with ⟨saved, _ | fault⟩
  · obtain ⟨rfl, heq⟩ := Prod.mk.inj ((step_store_of_save hencode hsave).symm.trans hstep)
    exact ⟨(Except.ok.inj heq).symm, read_of_save hsave, (get?_of_save_ofNames hrooted hsave).2⟩
  · obtain ⟨-, heq⟩ := Prod.mk.inj ((step_store_of_save_fault hencode hsave).symm.trans hstep)
    cases heq

/-- Whatever work was done on paths of names, the directory is a map of documents. A value without a
document is refused and leaves nothing behind. A value with one is stored where its path is clear;
then its file holds the document, whose digest is the digest of the value, and no other file has
changed. Loading changes nothing, and it restores the bytes that were last written at the path. -/
theorem documents_of_run (hrooted : directory.Rooted)
    (hcommands : ∀ command ∈ commands, ∃ names, command.path = .ofNames names) :
    let reached := directory.after commands
    (∀ path value error, Codec.encode value = .error error →
      (∃ cause, error = .serialization cause) ∧
        reached.step (.store path value) = (reached, .error error)) ∧
    (∀ names value text, Codec.encode value = .ok text →
      Codec.hash value = .ok (Sha256.hexDigest (Text.utf8 text)) ∧
      ((FilePath.ofNames names).IsUsable → reached.IsClear names →
        ∃ changed, reached.step (.store (.ofNames names) value) =
          (changed, .ok (.stored (Text.utf8 text)))) ∧
      ∀ changed outcome, reached.step (.store (.ofNames names) value) = (changed, .ok outcome) →
        outcome = .stored (Text.utf8 text) ∧ changed.read (.ofNames names) = .ok (Text.utf8 text) ∧
        ∀ other, other ≠ names → ∀ found, changed.get? other = some (.file found) ↔
          reached.get? other = some (.file found)) ∧
    (∀ path expected, reached.step (.load path expected) =
      (reached, (reached.load path expected).map .loaded)) ∧
    ∀ names expected,
      match lastWritten (.ofNames names) (directory.read (.ofNames names)).toOption
        (commands.zip (directory.run commands)) with
      | none => ∃ fault, reached.load (.ofNames names) expected = .error (.file fault)
      | some bytes =>
        match Text.ofUtf8? bytes with
        | none => reached.load (.ofNames names) expected = .error (.file .invalidData)
        | some text => reached.load (.ofNames names) expected = Codec.restore text expected := by
  intro reached
  have hreached : reached.Rooted := rooted_after hrooted commands
  refine ⟨fun path value error hencode => ⟨Codec.serialization_of_encode hencode,
    step_store_of_encode_error hencode⟩, fun names value text hencode =>
    ⟨Codec.hash_of_encode hencode, fun husable hclear => ?_, fun changed outcome hstep =>
      document_of_step_store hreached hencode hstep⟩,
    fun path expected => step_load, fun names expected => ?_⟩
  · obtain ⟨changed, hsave⟩ := exists_save_ofNames hreached husable hclear (Text.utf8 text)
    exact ⟨changed, step_store_of_save hencode hsave⟩
  · have hread : (reached.read (.ofNames names)).toOption = _ := read_after hrooted hcommands
    rw [← hread]
    split
    · rename_i hnone
      exact exists_load_eq_error hnone
    · rename_i bytes hbytes
      have hread := toOption_eq_some_iff.mp hbytes
      split
      · rename_i hutf8
        exact load_of_read_invalid hread hutf8
      · rename_i text hutf8
        exact load_of_read_eq_ok hread hutf8

/-- A truth value is stored in a folder of its own and loaded as its word, bytes that are no text
are not loaded, and an unknown value does not take the place of what is there. -/
theorem documents_of_run_folder :
    let fee := FilePath.ofText "fees/first.json"
    let note := FilePath.ofText "note.txt"
    let text := "\x7b\"format_version\":1,\"type\":\"bool\",\"value\":true\x7d"
    let commands := [Command.store fee (.bool true), .write note [0xff], .store fee .dynamic]
    let reached := empty.after commands
    empty.Rooted ∧ (∀ command ∈ commands, ∃ names, command.path = .ofNames names) ∧
      Codec.encode (.bool true) = .ok text ∧
      reached.load fee .string = .ok (.string "true") ∧
      reached.load note .string = .error (.file .invalidData) ∧
      reached.step (.store note .dynamic) = (reached, .error (.serialization .unknownValue)) ∧
      ∃ changed, reached.step (.store note (.bool true)) =
        (changed, .ok (.stored (Text.utf8 text))) := by
  intro fee note text commands reached
  have hfee : fee = .ofNames ["fees", "first.json"] := by rfl
  have hnote : note = .ofNames ["note.txt"] := by rfl
  have hcommands : ∀ command ∈ commands, ∃ names, command.path = .ofNames names := by
    simp only [commands, List.forall_mem_cons, List.not_mem_nil, false_imp_iff, implies_true,
      and_true, Command.path]
    exact ⟨⟨_, hfee⟩, ⟨_, hnote⟩, ⟨_, hfee⟩⟩
  have hencode : Codec.encode (.bool true) = .ok text := by rfl
  obtain ⟨hrefused, hstored, -, hloads⟩ := documents_of_run rooted_empty hcommands
  have hloadFee : reached.load fee .string = Codec.restore text .string := by
    have hlast : lastWritten fee (empty.read fee).toOption (commands.zip (empty.run commands)) =
        some (Text.utf8 text) := by rfl
    have hload := hloads ["fees", "first.json"] .string
    rw [← hfee, hlast] at hload
    simpa using hload
  have hloadNote : reached.load note .string = .error (.file .invalidData) := by
    have hlast : lastWritten note (empty.read note).toOption (commands.zip (empty.run commands)) =
        some [0xff] := by rfl
    have hload := hloads ["note.txt"] .string
    rw [← hnote, hlast] at hload
    exact hload
  have hrestore : Codec.restore text .string = .ok (.string "true") := by
    have hjson : Canonical.document (.bool true) =
        .ok (Canonical.assemble (.string "bool") (.bool true)) := rfl
    have hprint : (Canonical.assemble (.string "bool") (.bool true)).print = text := by rfl
    have hdepth : (Canonical.assemble (.string "bool") (.bool true)).depth ≤ Json.maxDepth := by
      decide
    have hvalue : (Value.bool true).WellFormed := trivial
    rw [← hprint, Codec.restore, Codec.decode_print hvalue hjson hdepth]
    rfl
  have hclear : reached.IsClear ["note.txt"] := by
    refine ⟨by decide +kernel, fun before hprefix hne found => ?_⟩
    obtain rfl : before = [] := by simpa [List.prefix_cons_iff, hne] using hprefix
    have hroot : reached.get? [] = some .folder := get?_of_isAround rfl
    simp [hroot]
  refine ⟨rooted_empty, hcommands, hencode, hloadFee.trans hrestore, hloadNote,
    (hrefused note .dynamic _ rfl).2, ?_⟩
  rw [hnote]
  exact (hstored ["note.txt"] (.bool true) text hencode).2.1 ⟨by rfl, by decide +kernel⟩ hclear

end Runs

end Directory

end LedgerValue
