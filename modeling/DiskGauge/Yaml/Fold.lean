import DiskGauge.Yaml.Cursor

namespace DiskGauge.Yaml

-- A single line end between two pieces of text is a space; of several the first counts for nothing.
structure Gap where
  blanks : List Char
  -- The first line end, and the ones behind it.
  first : List Char
  more : List Char
  broken : Bool

namespace Gap

def none : Gap := ⟨[], [], [], false⟩

def escaped : Gap := ⟨[], [], [], true⟩

def addBlank (g : Gap) (c : Char) : Gap :=
  if g.broken then g else { g with blanks := g.blanks ++ [c] }

def addBreak (g : Gap) (c : Char) : Gap :=
  if g.broken then { g with more := g.more ++ breakText c }
  else { g with blanks := [], first := breakText c, broken := true }

def text (g : Gap) : List Char :=
  if !g.broken then g.blanks
  else if g.first = ['\n'] then if g.more.isEmpty then [' '] else g.more
  else g.first ++ g.more

-- On a new line a tab may not stand left of the column.
def read (column : Int) (g : Gap) (mark : Mark) : List Char → Option (Gap × Cursor)
  | [] => some (g, ⟨[], mark⟩)
  | c :: rest =>
    if isBlank c then
      if g.broken && mark.column < column && c = '\t' then .none
      else read column (g.addBlank c) (mark.past 1) rest
    else if c = '\r' && rest.head? = some '\n' then
      read column g { mark with index := mark.index + 1 } rest
    else if isBreak c then read column (g.addBreak c) mark.nextLine rest
    else some (g, ⟨c :: rest, mark⟩)

end Gap

end DiskGauge.Yaml
