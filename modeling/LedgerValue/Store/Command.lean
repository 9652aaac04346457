import LedgerValue.Store.Codec
import LedgerValue.Store.Directory

/-!
# Work on stored documents

Storing a value makes the folders that its file needs and writes its document. Loading reads a file
as text and restores the value. Main statements: a value that has no document changes nothing
(`storeBytes_of_encode_eq_error`), and the document of a stored value is what loading restores
(`load_of_store`).
-/

namespace LedgerValue.Directory

/-- Stores the document of a value and tells the bytes that were written. Folders that were made
stay if the file cannot be written. -/
def storeBytes (directory : Directory) (path : FilePath) (value : Value) :
    Directory × Except CodecError (List UInt8) :=
  match Codec.encode value with
  | .error error => (directory, .error error)
  | .ok text =>
    let bytes := Text.utf8 text
    match directory.save path bytes with
    | (changed, some fault) => (changed, .error (.file fault))
    | (changed, none) => (changed, .ok bytes)

/-- Stores the document of a value. -/
def store (directory : Directory) (path : FilePath) (value : Value) :
    Directory × Option CodecError :=
  match directory.storeBytes path value with
  | (changed, .error error) => (changed, some error)
  | (changed, .ok _) => (changed, none)

/-- Loads the value of a document and converts it to a type. -/
def load (directory : Directory) (path : FilePath) (expected : Ty) : Except CodecError Value :=
  match directory.read path with
  | .error fault => .error (.file fault)
  | .ok bytes =>
    match Text.ofUtf8? bytes with
    | some text => Codec.restore text expected
    | none => .error (.file .invalidData)

theorem storeBytes_of_encode_eq_error {value : Value} {error : CodecError}
    (hencode : Codec.encode value = .error error) (directory : Directory) (path : FilePath) :
    directory.storeBytes path value = (directory, .error error) := by
  simp [storeBytes, hencode]

theorem storeBytes_of_save {directory changed : Directory} {path : FilePath} {value : Value}
    {text : String} (hencode : Codec.encode value = .ok text)
    (hsave : directory.save path (Text.utf8 text) = (changed, none)) :
    directory.storeBytes path value = (changed, .ok (Text.utf8 text)) := by
  simp [storeBytes, hencode, hsave]

theorem storeBytes_of_save_fault {directory changed : Directory} {path : FilePath} {value : Value}
    {text : String} {fault : FileFault} (hencode : Codec.encode value = .ok text)
    (hsave : directory.save path (Text.utf8 text) = (changed, some fault)) :
    directory.storeBytes path value = (changed, .error (.file fault)) := by
  simp [storeBytes, hencode, hsave]

theorem load_of_store {directory changed : Directory} {path : FilePath} {value : Value}
    {text : String} (hencode : Codec.encode value = .ok text)
    (hstore : directory.store path value = (changed, none)) (expected : Ty) :
    changed.load path expected = Codec.restore text expected := by
  rw [store] at hstore
  rcases hsave : directory.save path (Text.utf8 text) with ⟨saved, _ | fault⟩
  · rw [storeBytes_of_save hencode hsave] at hstore
    obtain rfl : saved = changed := (Prod.mk.inj hstore).1
    simp [load, read_of_save hsave]
  · rw [storeBytes_of_save_fault hencode hsave] at hstore
    simp at hstore

/-- A step of work on a directory. -/
inductive Command where
  /-- Store a value. -/
  | store (path : FilePath) (value : Value)
  /-- Load a value of a type. -/
  | load (path : FilePath) (expected : Ty)
  /-- Write bytes as they are into a folder that is there. -/
  | write (path : FilePath) (bytes : List UInt8)

/-- What a step yields. -/
inductive Outcome where
  /-- The bytes that a value was stored as. -/
  | stored (bytes : List UInt8)
  /-- The value that was loaded. -/
  | loaded (value : Value)
  /-- Bytes were written. -/
  | written

/-- Takes a step. -/
def step (directory : Directory) : Command → Directory × Except CodecError Outcome
  | .store path value =>
    let (changed, stored) := directory.storeBytes path value
    (changed, stored.map .stored)
  | .load path expected => (directory, (directory.load path expected).map .loaded)
  | .write path bytes =>
    match directory.write path bytes with
    | .error fault => (directory, .error (.file fault))
    | .ok changed => (changed, .ok .written)

/-- Takes some steps in turn. -/
def run (directory : Directory) : List Command → List (Except CodecError Outcome)
  | [] => []
  | command :: rest =>
    let (changed, outcome) := directory.step command
    outcome :: run changed rest

end LedgerValue.Directory
