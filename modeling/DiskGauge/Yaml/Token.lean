import DiskGauge.Yaml.Cursor
import DiskGauge.Text.Basic

namespace DiskGauge.Yaml

inductive Style where
  | plain
  | literal
  | other
deriving DecidableEq, Repr

-- Escapes in a tag may spell any bytes.
structure TagName where
  handle : List Char
  suffix : Bytes
deriving DecidableEq, Repr

-- Indentation shows as brackets: a block opens with a token of its own and ends with another.
inductive TokenKind where
  | versionDirective (major minor : Nat)
  | tagDirective (handle : List Char) (beginning : Bytes)
  | documentStart
  | documentEnd
  | blockSequence
  | blockMapping
  | blockEnd
  | openSequence
  | closeSequence
  | openMapping
  | closeMapping
  | blockEntry
  | flowEntry
  | key
  | value
  | alias (name : String)
  | anchor (name : String)
  | tag (name : TagName)
  | scalar (style : Style) (text : String)
deriving DecidableEq, Repr

structure Token where
  kind : TokenKind
  start : Mark
  stop : Mark
deriving DecidableEq, Repr

end DiskGauge.Yaml
