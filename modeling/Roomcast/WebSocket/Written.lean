import Roomcast.WebSocket.Frame

/-!
# Written frames

Frames as a client writes them: the shortest form of the length, and a mask of four bytes. Masking
twice is no masking, so reading a frame uses the same operation as writing it.
-/

namespace Roomcast.WebSocket

def Kind.code : Kind → Nat
  | part => 0
  | text => 1
  | binary => 2
  | close => 8
  | ping => 9
  | pong => 10

/-- A number in a fixed number of bytes, the greatest part first. -/
def bigEndian : Nat → Nat → List UInt8
  | 0, _ => []
  | width + 1, n => bigEndian width (n / 256) ++ [UInt8.ofNat n]

def writtenLength (n : Nat) : List UInt8 :=
  if n < 126 then [UInt8.ofNat (128 + n)]
  else if n < 65536 then 254 :: bigEndian 2 n
  else 255 :: bigEndian 8 n

def Packet.bytes (mask : List UInt8) (p : Packet) : List UInt8 :=
  UInt8.ofNat ((if p.final then 128 else 0) + p.kind.code) :: writtenLength p.payload.length ++
    mask ++ applyMask mask p.payload

/-- A message in parts. Only the first part tells the kind. -/
def inParts (kind : Kind) : List (List UInt8) → List Packet
  | [] => []
  | [payload] => [⟨true, kind, payload⟩]
  | payload :: rest => ⟨false, kind, payload⟩ :: inParts .part rest

/-- What closes a connection with a code and a reason. -/
def goodbye (code : Nat) (reason : String) : Packet :=
  ⟨true, .close, bigEndian 2 code ++ Text.Utf8.encode reason⟩

theorem Kind.ofCode?_code (k : Kind) : Kind.ofCode? k.code = some k := by
  cases k <;> rfl

end Roomcast.WebSocket
