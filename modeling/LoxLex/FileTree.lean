namespace LoxLex

inductive ReadError
  | nulByte
  | missing
  | notDirectory
  | isDirectory
  | invalidText
  | other (reason : String)
  deriving DecidableEq

def ReadError.message : ReadError → String
  | nulByte      => "file name contained an unexpected NUL byte"
  | missing      => "No such file or directory (os error 2)"
  | notDirectory => "Not a directory (os error 20)"
  | isDirectory  => "Is a directory (os error 21)"
  | invalidText  => "stream did not contain valid UTF-8"
  | other reason => reason

abbrev FileReader := String → Except ReadError ByteArray

-- The files and directories below a working directory, by their paths from there. What leads to one
-- of them is a directory, too.
structure FileTree where
  files       : List (List String × ByteArray)
  directories : List (List String)

namespace FileTree

inductive Place
  | file (bytes : ByteArray)
  | directory (path : List String)
  -- Above the working directory, where nothing is known.
  | outside

variable (tree : FileTree)

def isDirectory (path : List String) : Bool :=
  tree.directories.any path.isPrefixOf ||
    tree.files.any fun (file, _) => path.isPrefixOf file && path != file

def find (path : List String) : Except ReadError Place :=
  match tree.files.lookup path with
  | some bytes => .ok (.file bytes)
  | none       => if tree.isDirectory path then .ok (.directory path) else .error .missing

def enter : Place → String → Except ReadError Place
  | .file _,         _         => .error .notDirectory
  | place,           ""        => .ok place
  | place,           "."       => .ok place
  | .outside,        ".."      => .ok .outside
  | .outside,        _         => .error .missing
  | .directory [],   ".."      => .ok .outside
  | .directory path, ".."      => .ok (.directory path.dropLast)
  | .directory path, component => tree.find (path ++ [component])

def start (path : String) : Place :=
  if path.startsWith "/" then .outside else .directory []

def read : FileReader := fun path => do
  if path.contains '\x00' then
    throw .nulByte
  if path.isEmpty then
    throw .missing
  match ← (path.splitOn "/").foldlM tree.enter (start path) with
  | .file bytes => return bytes
  | _           => throw .isDirectory

end FileTree
end LoxLex
