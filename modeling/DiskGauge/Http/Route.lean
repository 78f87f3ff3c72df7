import DiskGauge.Gauge.Core
import DiskGauge.Text.Basic

namespace DiskGauge.Http

inductive Route where
  | health
  | systemHealth
  | views
  | view (name : List Char)
  | slot (name : List Char) (slot : Slot)
  | preferences
  | usage
deriving DecidableEq, Repr

-- The path of a target in origin form, without query and fragment.
def pathOf (target : List Char) : List Char := target.takeWhile fun c => c ≠ '?' && c ≠ '#'

def chars (s : String) : List Char := s.toList

-- A path starts with a slash, so its first segment is empty.
def Route.ofPath? (path : List Char) : Option Route :=
  match Text.split '/' path with
  | [[], a] =>
    if a = chars "health" then some .health
    else if a = chars "views" then some .views
    else if a = chars "preferences" then some .preferences
    else if a = chars "usage" then some .usage
    else none
  | [[], a, b] =>
    if a = chars "system" && b = chars "health" then some .systemHealth
    else if a = chars "views" && !b.isEmpty then some (.view b)
    else none
  | [[], a, b, c] =>
    if a = chars "views" && !b.isEmpty then
      if c = chars "current" then some (.slot b .current)
      else if c = chars "selected" then some (.slot b .selected)
      else none
    else none
  | _ => none

def hexValue? (c : Char) : Option Nat :=
  if '0' ≤ c && c ≤ '9' then some (c.toNat - 0x30)
  else if 'a' ≤ c && c ≤ 'f' then some (c.toNat - 0x57)
  else if 'A' ≤ c && c ≤ 'F' then some (c.toNat - 0x37)
  else none

-- What is no escape stands for itself.
def unescape : List Char → Bytes
  | [] => []
  | '%' :: a :: b :: rest =>
    match hexValue? a, hexValue? b with
    | some x, some y => UInt8.ofNat (x * 16 + y) :: unescape rest
    | _, _ => 0x25 :: unescape (a :: b :: rest)
  | c :: rest => String.utf8EncodeChar c ++ unescape rest

def decodeName? (segment : List Char) : Option String := Utf8.string? (unescape segment)

inductive Operation where
  | read
  | put
  | delete
  | post
deriving DecidableEq, Repr

-- In the order in which they are listed to clients. Reading by HEAD is reading by GET without the body.
def Route.methods : Route → List (String × Operation)
  | .health => [("GET", .read), ("HEAD", .read)]
  | .systemHealth => [("GET", .read), ("HEAD", .read)]
  | .views => [("GET", .read), ("HEAD", .read)]
  | .view _ => [("GET", .read), ("HEAD", .read), ("PUT", .put), ("DELETE", .delete)]
  | .slot _ _ => [("PUT", .put)]
  | .preferences => [("GET", .read), ("HEAD", .read), ("PUT", .put)]
  | .usage => [("POST", .post)]

def Route.operation? (route : Route) (method : String) : Option Operation :=
  (route.methods.find? fun entry => entry.1 = method).map (·.2)

def Route.allow (route : Route) : String := ",".intercalate (route.methods.map (·.1))

end DiskGauge.Http
