import DiskGauge.Storage.Place

namespace DiskGauge

-- A leading point counts only in a path that does not start at the root.
structure Path where
  rooted : Bool
  components : List (List Char)
deriving DecidableEq, Repr

namespace Path

def ofChars (path : List Char) : Path :=
  let rooted := path.head? = some '/'
  let all := Text.split '/' path
  let leading := if !rooted && all.head? = some ['.'] then [['.']] else []
  ⟨rooted, leading ++ all.filter fun piece => piece ≠ [] && piece ≠ ['.']⟩

def ofText (path : String) : Path := .ofChars path.toList

def direct (p : Path) : Path := { p with components := p.components.filter (· ≠ ['.']) }

end Path

-- Files by their paths below the folder, each path once.
structure Folder where
  files : List (String × Bytes)
deriving DecidableEq, Repr

namespace Folder

def below (f : Folder) (path : Path) : List (String × Bytes) :=
  f.files.filter fun file => path.components.isPrefixOf (Path.ofText file.1).direct.components

-- Outside of the folder there is nothing.
def place (f : Folder) (path : String) : Place :=
  let wanted := (Path.ofText path).direct
  if path.isEmpty then .unnamed .notFound
  else if wanted.rooted then .absent
  else match (f.below wanted).find? fun file => (Path.ofText file.1).direct = wanted with
    | some file => .file file.2
    | none => if (f.below wanted).isEmpty then .absent else .directory

end Folder

end DiskGauge
