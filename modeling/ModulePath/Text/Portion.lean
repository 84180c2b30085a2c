/-!
# Text files in portions

A text file is read in portions of characters. Its bytes are loaded in blocks and decoded as they
come in, a byte at a time, so bytes that are no text only matter to the portion that they are loaded
for. However a line ends, the text has a line feed there.
-/

set_option autoImplicit false

namespace ModulePath.Text

/-! ## Bytes -/

/-- Where a decoder stands between bytes: what it has of a character, how many bytes are left of it,
and between which bounds the next one is. -/
structure Decoder where
  value : Nat := 0
  left : Nat := 0
  low : Nat := 0x80
  high : Nat := 0xBF

namespace Decoder

/-- Where a decoder stands after the first byte of a character. -/
def first? (b : Nat) : Option Decoder :=
  if b < 0x80 then some { value := b }
  else if b < 0xC2 then none
  else if b < 0xE0 then some { value := b - 0xC0, left := 1 }
  else if b = 0xE0 then some { value := 0, left := 2, low := 0xA0 }
  else if b = 0xED then some { value := 0xD, left := 2, high := 0x9F }
  else if b < 0xF0 then some { value := b - 0xE0, left := 2 }
  else if b = 0xF0 then some { value := 0, left := 3, low := 0x90 }
  else if b < 0xF4 then some { value := b - 0xF0, left := 3 }
  else if b = 0xF4 then some { value := 4, left := 3, high := 0x8F }
  else none

/-- Where a decoder stands after a byte; `none` if the bytes are no text. -/
def step? (d : Decoder) (b : Nat) : Option Decoder :=
  if d.left = 0 then first? b
  else if d.low ≤ b && b ≤ d.high then some { value := 64 * d.value + b % 64, left := d.left - 1 }
  else none

end Decoder

/-- A character of a file, and how many bytes of the file have to be loaded for it. -/
structure Item where
  char : Char
  needs : Nat

/-- The characters of a file, and how many bytes show that it is no text, if it is none. At the end
one more is needed than there are. -/
structure Decoded where
  items : List Item := []
  failsAt : Option Nat := none

/-- Decode bytes of which the first has the number `n`. -/
def decodeFrom (d : Decoder) (n : Nat) : List UInt8 → Decoded
  | [] => ⟨[], if d.left = 0 then none else some n⟩
  | b :: rest =>
    match d.step? b.toNat with
    | none => ⟨[], some n⟩
    | some d =>
      let more := decodeFrom d (n + 1) rest
      if d.left = 0 then { more with items := ⟨Char.ofNat d.value, n⟩ :: more.items } else more

/-- Characters with a line feed at the end of every line. Only what follows a carriage return shows
what it stands for; at the end of the file that is `size` and one more. -/
def unifyItems (size : Nat) : List Item → List Item
  | [] => []
  | ⟨'\r', _⟩ :: ⟨'\n', n⟩ :: rest => ⟨'\n', n⟩ :: unifyItems size rest
  | ⟨'\r', _⟩ :: rest => ⟨'\n', (rest.head?.map Item.needs).getD (size + 1)⟩ :: unifyItems size rest
  | item :: rest => item :: unifyItems size rest

/-! ## Blocks -/

/-- The least number of bytes in a block. -/
def blockSize : Nat := 8192

/-- The number of characters in a portion. -/
def portionSize : Nat := 4096

/-- A file that is being read. -/
structure Reading where
  /-- The number of bytes in the file. -/
  size : Nat
  failsAt : Option Nat
  /-- How many bytes are loaded; at the end one more than there are. -/
  loaded : Nat := 0
  /-- How many bytes the last block had, and how many characters came of it. -/
  lastBlock : Nat × Nat := (0, 0)
  /-- The characters that are loaded and not yet read. -/
  ready : List Char := []
  /-- The characters that are not loaded. -/
  ahead : List Item

namespace Reading

/-- Begin to read a file. -/
def ofBytes (bytes : ByteArray) : Reading :=
  let d := decodeFrom {} 1 bytes.toList
  { size := bytes.size, failsAt := d.failsAt, ahead := unifyItems bytes.size d.items }

/-- The size of the next block when so many characters are wanted: enough bytes if it is like the
last one. -/
def nextBlock (r : Reading) (wanted : Nat) : Nat :=
  max blockSize (max wanted (r.lastBlock.1 * wanted / r.lastBlock.2))

/-- Load a block; `none` if it shows that the file is no text. -/
def load? (r : Reading) (wanted : Nat) : Option Reading :=
  let loaded :=
    if r.loaded < r.size then min r.size (r.loaded + r.nextBlock wanted) else r.size + 1
  if r.failsAt.any (· ≤ loaded) then none
  else
    let known := (r.ahead.takeWhile (·.needs ≤ loaded)).map Item.char
    some { r with
      loaded
      lastBlock := (loaded - r.loaded, known.length)
      ready := r.ready ++ known
      ahead := r.ahead.dropWhile (·.needs ≤ loaded) }

/-- Load blocks until a portion is there or the file ends. -/
def fill? : Nat → Reading → Option Reading
  | 0, r => some r
  | fuel + 1, r =>
    if portionSize ≤ r.ready.length || r.size < r.loaded then some r
    else (r.load? (portionSize - r.ready.length)).bind (fill? fuel)

/-- The portions of a file up to its end, or up to one that is no text; whether there is one. -/
def portions : Nat → Reading → List (List Char) × Bool
  | 0, _ => ([], false)
  | fuel + 1, r =>
    match fill? (r.size + 2) r with
    | none => ([], true)
    | some r =>
      if r.ready.isEmpty then ([], false)
      else
        let more := portions fuel { r with ready := r.ready.drop portionSize }
        (r.ready.take portionSize :: more.1, more.2)

end Reading

/-- The portions of a file up to one that is no text, and whether there is one. -/
def portionsOf (bytes : ByteArray) : List (List Char) × Bool :=
  (Reading.ofBytes bytes).portions (bytes.size + 1)

end ModulePath.Text
