/-!
# Bytes as text

The characters of bytes that may be no text.  A byte that belongs to no character stands on its own,
so that a reader who passes over it can go on behind it.
-/

namespace NetWorth.Text

/-- Characters in a row, with `none` for each byte that belongs to no character. -/
abbrev Raw := List (Option Char)

/-- The characters of bytes from a position on. -/
def rawFrom (bytes : ByteArray) (position : Nat) : Raw :=
  if position < bytes.size then
    match bytes.utf8DecodeChar? position with
    | some c => some c :: rawFrom bytes (position + c.utf8Size)
    | none => none :: rawFrom bytes (position + 1)
  else []
termination_by bytes.size - position
decreasing_by
  · have := c.utf8Size_pos
    omega
  · omega

/-- The characters of bytes. -/
def raw (bytes : ByteArray) : Raw :=
  rawFrom bytes 0

end NetWorth.Text
