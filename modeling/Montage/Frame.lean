/-!
# Frames

The geometry and colour of pictures: `Canvas` is a size in pixels, `Placement` the position of a
picture on a larger canvas, `Color` an RGB colour of eight bits a channel.
-/

namespace Montage

/-- The size of a picture in pixels. -/
structure Canvas where
  width : UInt32
  height : UInt32
  deriving DecidableEq, Repr

/-- The position of the top left corner of a picture on a canvas. -/
structure Placement where
  x : UInt32
  y : UInt32
  deriving DecidableEq, Repr

/-- The top left corner itself. -/
def Placement.origin : Placement := ⟨0, 0⟩

/-- A colour with eight bits a channel. -/
structure Color where
  red : UInt8
  green : UInt8
  blue : UInt8
  deriving DecidableEq, Repr

namespace Color

/-- The two hexadecimal digits of a channel, in capitals. -/
def channelText (n : UInt8) : String :=
  String.ofList [(Nat.digitChar (n.toNat / 16)).toUpper, (Nat.digitChar (n.toNat % 16)).toUpper]

/-- The form of a colour in filter arguments: `0xRRGGBB`. -/
def text (c : Color) : String :=
  "0x" ++ channelText c.red ++ channelText c.green ++ channelText c.blue

end Color

end Montage
