/-!
# Reading bytes as text

Every row of bytes reads as text: a sequence that is broken off or malformed reads as one
replacement character, and reading goes on with the first byte that cannot belong to it.
-/

namespace ApiBindings.Text

/-- Bounds of a byte. -/
structure ByteRange where
  least : UInt8
  most : UInt8

/-- Whether a byte is within bounds. -/
def ByteRange.has (range : ByteRange) (byte : UInt8) : Bool :=
  range.least ≤ byte && byte ≤ range.most

/-- The bytes that go on with a sequence, where nothing more is known of it. -/
def anyFollower : ByteRange := ⟨0x80, 0xBF⟩

/-- The bytes that must follow a first byte. None may follow a byte that is a character by itself or
starts no sequence. Second bytes are bounded so that each character has one sequence, and surrogates
and values beyond the last character have none. -/
def followers (first : UInt8) : List ByteRange :=
  if first < 0xC2 || 0xF4 < first then []
  else if first < 0xE0 then [anyFollower]
  else if first == 0xE0 then [⟨0xA0, 0xBF⟩, anyFollower]
  else if first == 0xED then [⟨0x80, 0x9F⟩, anyFollower]
  else if first < 0xF0 then [anyFollower, anyFollower]
  else if first == 0xF0 then [⟨0x90, 0xBF⟩, anyFollower, anyFollower]
  else if first == 0xF4 then [⟨0x80, 0x8F⟩, anyFollower, anyFollower]
  else [anyFollower, anyFollower, anyFollower]

/-- The bytes that go on with a sequence as long as they are within bounds. -/
def takeFollowers : List ByteRange → List UInt8 → List UInt8
  | range :: ranges, byte :: rest =>
      if range.has byte then byte :: takeFollowers ranges rest else []
  | _, _ => []

/-- The character of a complete sequence. -/
def sequenceChar (first : UInt8) (rest : List UInt8) : Char :=
  let start := first.toNat % Nat.pow 2 (6 - rest.length)
  Char.ofNat (rest.foldl (fun value byte => 64 * value + byte.toNat % 64) start)

/-- The text of a row of bytes. -/
def decodeLossy : List UInt8 → List Char
  | [] => []
  | first :: rest =>
      let ranges := followers first
      let taken := takeFollowers ranges rest
      let c :=
        if first < 0x80 then Char.ofNat first.toNat
        else if ranges.isEmpty || taken.length < ranges.length then '\ufffd'
        else sequenceChar first taken
      c :: decodeLossy (rest.drop taken.length)
termination_by bytes => bytes.length
decreasing_by simp only [List.length_drop, List.length_cons]; omega

end ApiBindings.Text
