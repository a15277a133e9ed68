import Contour.DeltaFile.Basic
import Contour.Proofs.DeltaFile.Binary
import Contour.Proofs.DeltaFile.Text

/-!
# Programs in files

A program is read back from the file that it was written to, in the format that the path asks for
(`decode_encode_of_path`): from text always, and from binary up to the length that is read.
-/

namespace Contour.DeltaFile

theorem decode_encode_of_path {path : String} {ds : List Delta}
    (h : isBinaryPath path = false ∨ ds.length ≤ Cbor.maxElements) :
    decode path (encode path ds) = .ok ds := by
  cases hpath : isBinaryPath path with
  | true =>
    have hsize := h.resolve_left (by simp [hpath])
    simp only [decode, encode, hpath, if_true, Binary.decode_encode, if_pos hsize]
    rfl
  | false =>
    simp only [decode, encode, hpath, Bool.false_eq_true, if_false, Text.read_encode_write]
    rfl

end Contour.DeltaFile
