import MergeTrial.Text.Encoding
import MergeTrial.Json.Printer

/-! Names of runs: random bytes as text, in groups of hexadecimal digits. -/

namespace MergeTrial.RunId

def length : Nat := 16

def marked (random : Bytes) : Bytes :=
  random.mapIdx fun i byte =>
    if i = 6 then byte % 16 + 0x40 else if i = 8 then byte % 64 + 0x80 else byte

def hexText (b : Bytes) : String :=
  String.ofList (b.flatMap fun byte =>
    [Json.hexDigit (byte.toNat / 16), Json.hexDigit (byte.toNat % 16)])

def groups : List Nat → Bytes → List Bytes
  | [], _ => []
  | n :: rest, b => b.take n :: groups rest (b.drop n)

def ofBytes (random : Bytes) : String :=
  "-".intercalate ((groups [4, 2, 2, 2, 6] (marked random)).map hexText)

end MergeTrial.RunId
