/-!
# Sizes

A `Size` is a number of bits, blocks, bytes or elements, or a place among them. It is held in a word
of 64 bits, so counting goes on at zero behind the largest number: sums, differences and products of
sizes are taken modulo 2⁶⁴. Comparisons are between the numbers that the words stand for.
-/

namespace ObjectSync

/-- A number of bits, blocks, bytes or elements, or a place among them. -/
abbrev Size := UInt64

end ObjectSync
