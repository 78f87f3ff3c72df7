namespace DiskGauge.Probe

namespace NodeId

def hex (bytes : List UInt8) : List Char :=
  bytes.flatMap fun b => [Nat.digitChar (b.toNat / 16), Nat.digitChar (b.toNat % 16)]

-- Sets the bits that tell the version and the variant; all others are random.
def mark (index : Nat) (b : UInt8) : UInt8 :=
  if index = 6 then b &&& 0x0F ||| 0x40
  else if index = 8 then b &&& 0x3F ||| 0x80
  else b

-- The identifier of version 4 that sixteen random bytes make.
def ofBytes (bytes : List UInt8) : String :=
  let digits := hex (bytes.mapIdx mark)
  let group (start count : Nat) := String.ofList ((digits.drop start).take count)
  "-".intercalate [group 0 8, group 8 4, group 12 4, group 16 4, group 20 12]

def isDigit (c : Char) : Bool := ('0' ≤ c && c ≤ '9') || ('a' ≤ c && c ≤ 'f')

def fits (index : Nat) (c : Char) : Bool :=
  if [8, 13, 18, 23].contains index then c = '-'
  else if index = 14 then c = '4'
  else if index = 19 then ['8', '9', 'a', 'b'].contains c
  else isDigit c

def isVersion4 (id : String) : Bool :=
  let chars := id.toList
  chars.length = 36 && (chars.mapIdx fits).all (· = true)

end NodeId

end DiskGauge.Probe
