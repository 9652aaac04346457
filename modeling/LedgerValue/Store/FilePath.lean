/-!
# Paths of files

A path says how to go from folder to folder, one move at a time, and not which location is meant:
the move up leaves the folder that was reached, so each folder on the way has to be there. The
moves are the pieces of the text between slashes, the empty ones left out.
-/

namespace LedgerValue

/-- Why a file cannot be used. -/
inductive FileFault where
  /-- There is no file, or no folder to put it in. -/
  | notFound
  /-- The bytes of the file are not text. -/
  | invalidData
  /-- A folder stands where a file is wanted. -/
  | isFolder
  /-- A file stands where a folder is wanted on the way. -/
  | notFolder
  /-- A file stands where a folder is to be made. -/
  | alreadyExists
  /-- A name of the path has a null character. -/
  | invalidPath
  /-- A name or the whole path is too long. -/
  | nameTooLong
deriving DecidableEq, Repr

/-- A move from a folder. -/
inductive Move where
  /-- Stay in the folder. -/
  | here
  /-- Go to the folder around it. -/
  | up
  /-- Go to what has a name in it. -/
  | name (text : String)
deriving DecidableEq, Repr

namespace Move

/-- The move that a piece of a path stands for; an empty piece stands for none. -/
def ofPiece? : List Char → Option Move
  | [] => none
  | ['.'] => some .here
  | ['.', '.'] => some .up
  | piece => some (.name (String.ofList piece))

/-- The text of a move. -/
def text : Move → String
  | .here => "."
  | .up => ".."
  | .name text => text

end Move

/-- A path of a file. -/
structure FilePath where
  /-- The path starts at the outermost folder and not at the root of a directory. -/
  absolute : Bool
  /-- The moves, the first one first. -/
  moves : List Move
  /-- A slash follows the last move, so that it has to lead to a folder. -/
  slash : Bool
deriving DecidableEq, Repr

namespace FilePath

/-- The path that a text names. Slashes divide the moves, and one slash does as much as many. -/
def ofText (text : String) : FilePath where
  absolute := text.toList.head? = some '/'
  moves := (text.toList.splitOn '/').filterMap Move.ofPiece?
  slash := text.toList.getLast? = some '/'

/-- The bytes that a path of single slashes takes. -/
def size (path : FilePath) : Nat :=
  path.moves.foldl (fun total move => total + move.text.utf8ByteSize + 1) 0

/-- The bytes from which on no path is taken. -/
def sizeLimit : Nat := 4096

/-- Why a path leads nowhere in any directory. -/
def fault? (path : FilePath) : Option FileFault :=
  if path.moves.any fun move => move.text.toList.contains '\x00' then some .invalidPath
  else if sizeLimit ≤ path.size then some .nameTooLong
  else none

/-- The path of the folder that holds the file, with the moves that stay left out. -/
def parent (path : FilePath) : FilePath where
  absolute := path.absolute
  moves := (path.moves.filter (· ≠ .here)).dropLast
  slash := false

end FilePath

end LedgerValue
