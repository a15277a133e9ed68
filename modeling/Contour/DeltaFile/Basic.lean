import Contour.DeltaFile.Binary
import Contour.DeltaFile.Text
import Contour.Path
import Contour.Text.Case

/-!
# Delta files

A program file is binary if its name has the extension for that, and text otherwise.
-/

namespace Contour.DeltaFile

/-- The extension of binary files. -/
def binaryExtension : String := ".fyc"

/-- Whether a file is binary by its name, in upper or lower case. -/
def isBinaryPath (path : String) : Bool :=
  Contour.Text.sameFolded (Path.extension path) binaryExtension

/-- The bytes of a program in the format that a path asks for. -/
def encode (path : String) (ds : List Delta) : List UInt8 :=
  if isBinaryPath path then Binary.encode ds else Utf8.encode (Text.write ds)

/-- The program in a file, or the message why there is none. -/
def decode (path : String) (bytes : List UInt8) : Except String (List Delta) :=
  if isBinaryPath path then (Binary.decode bytes).mapError Binary.Error.message
  else (Text.read bytes).mapError Text.Error.message

end Contour.DeltaFile
