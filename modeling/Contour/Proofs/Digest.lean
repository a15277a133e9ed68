import Contour.Digest
import Contour.Proofs.Decimal
import Contour.Proofs.PrefixFree

/-!
# The text of a digest

A digest is written as the hexadecimal digits of the eight words of the last state. `hex_inj`: the
text gives these words back, so two messages have the same text only if their digests collide.
-/

namespace Contour.Digest

/-- The state after the last block of a message: its digest as words. -/
def final (message : List UInt8) : State :=
  absorb ((pad message).length / 64) initial (pad message)

/-- Two different messages have the same digest. -/
def Collides (m m' : List UInt8) : Prop := m ≠ m' ∧ final m = final m'

/-- The words of a state, in the order in which they are written. -/
def State.words (s : State) : List UInt32 := [s.a, s.b, s.c, s.d, s.e, s.f, s.g, s.h]

theorem State.words_injective : Function.Injective State.words := by
  rintro ⟨a, b, c, d, e, f, g, h⟩ ⟨a', b', c', d', e', f', g', h'⟩ hwords
  simpa [State.words] using hwords

theorem prefixFree_hex : PrefixFree fun w : UInt32 => Decimal.hex 8 w.toNat := by
  refine PrefixFree.of_length (by decide) (fun w => Decimal.length_hex 8 w.toNat) fun w w' h => ?_
  have hmod := Decimal.hex_inj h
  have hw := w.toNat_lt
  have hw' := w'.toNat_lt
  exact UInt32.toNat_inj.mp (by omega)

theorem hex_inj {m m' : List UInt8} (h : hex m = hex m') : final m = final m' := by
  have hdigits := String.ofList_injective h
  exact State.words_injective (prefixFree_hex.flatMap_injective hdigits)

end Contour.Digest
