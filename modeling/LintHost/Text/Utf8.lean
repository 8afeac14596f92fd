/-!
# Bytes as text

Files and captured output are bytes; text is what they spell in UTF-8.

* `decode?` reads bytes strictly: anything that is not UTF-8 is refused;
* `decodeLenient` drops what is not UTF-8 and keeps the rest;
* `unifyNewlines` is how text files are read: every line end becomes one line feed;
* `soundStart` is what is read of a text file, chunk by chunk, before something is no UTF-8.
-/

namespace LintHost.Text

/-- The text that the bytes spell, if they are UTF-8. -/
def decode? (bytes : ByteArray) : Option String := String.fromUTF8? bytes

/-- The UTF-8 bytes of a text. -/
def encode (s : String) : ByteArray := s.toUTF8

/-- Whether a byte continues a character that an earlier byte began. -/
def isContinuation (b : UInt8) : Bool := 0x80 ≤ b && b < 0xc0

/-- The character that the bytes begin with and how many bytes it takes, if they begin with one. -/
def leading? : List UInt8 → Option (Char × Nat)
  | [] => none
  | a :: rest =>
    let low (b : UInt8) : Nat := b.toNat % 64
    if a < 0x80 then some (Char.ofNat a.toNat, 1)
    else if a < 0xe0 then match rest with
      | b :: _ =>
        if 0xc2 ≤ a ∧ isContinuation b then
          some (Char.ofNat (a.toNat % 32 * 64 + low b), 2)
        else none
      | _ => none
    else if a < 0xf0 then match rest with
      | b :: c :: _ =>
        let n := a.toNat % 16 * 4096 + low b * 64 + low c
        if isContinuation b ∧ isContinuation c ∧ 0x800 ≤ n ∧ ¬ (0xd800 ≤ n ∧ n < 0xe000) then
          some (Char.ofNat n, 3)
        else none
      | _ => none
    else match rest with
      | b :: c :: d :: _ =>
        let n := a.toNat % 8 * 262144 + low b * 4096 + low c * 64 + low d
        if a < 0xf8 ∧ isContinuation b ∧ isContinuation c ∧ isContinuation d ∧
            0x10000 ≤ n ∧ n < 0x110000 then
          some (Char.ofNat n, 4)
        else none
      | _ => none

/-- The characters that the bytes spell; bytes outside every character are passed over. The
    first argument counts the bytes of the last character that are still to be passed. -/
def lenientFrom : Nat → List UInt8 → List Char
  | _, [] => []
  | skip + 1, _ :: rest => lenientFrom skip rest
  | 0, bytes@(_ :: rest) =>
    match leading? bytes with
    | some (c, n) => c :: lenientFrom (n - 1) rest
    | none => lenientFrom 0 rest

/-- The text that is left of the bytes when all that is not UTF-8 is dropped. -/
def decodeLenient (bytes : ByteArray) : String := String.ofList (lenientFrom 0 bytes.toList)

/-- Every line end, be it `\r\n`, `\r` or `\n`, as one line feed. -/
def unifyNewlines : List Char → List Char
  | [] => []
  | '\r' :: '\n' :: cs => '\n' :: unifyNewlines cs
  | '\r' :: cs => '\n' :: unifyNewlines cs
  | c :: cs => c :: unifyNewlines cs

/-- The text of a file: its bytes read strictly, with line ends unified. -/
def ofFile? (bytes : ByteArray) : Option String :=
  (decode? bytes).map fun s => String.ofList (unifyNewlines s.toList)

/-- The characters up to the first byte that begins none, and the bytes from there on. The first
    argument counts the bytes of the last character that are still to be passed. -/
def strictFrom : Nat → List UInt8 → List Char × List UInt8
  | _, [] => ([], [])
  | skip + 1, _ :: rest => strictFrom skip rest
  | 0, bytes@(_ :: rest) =>
    match leading? bytes with
    | some (c, n) =>
      let (cs, left) := strictFrom (n - 1) rest
      (c :: cs, left)
    | none => ([], bytes)

/-- Whether bytes are the beginning of a character that lacks some. -/
def isBegun (bytes : List UInt8) : Bool :=
  [0x80, 0xbf].any fun b =>
    (leading? (bytes ++ [b, b, b])).any fun (_, length) => bytes.length < length

/-- How many bytes of a file are decoded together. -/
def chunkSize : Nat := 8192

/-- The characters of the chunks before the first in which something is no UTF-8; `begun` is what
    the chunk before has begun. -/
def soundChunks : Nat → List UInt8 → List UInt8 → List Char
  | 0, _, _ => []
  | _, _, [] => []
  | fuel + 1, begun, bytes =>
    let (cs, left) := strictFrom 0 (begun ++ bytes.take chunkSize)
    if left.isEmpty || isBegun left then cs ++ soundChunks fuel left (bytes.drop chunkSize) else []

/-- What is read of a text file before something in it is no UTF-8. A carriage return at the end is
    kept back, since a line feed may follow. -/
def soundStart (bytes : ByteArray) : List Char :=
  let cs := soundChunks (bytes.size + 1) [] bytes.data.toList
  unifyNewlines (if cs.getLast? = some '\r' then cs.dropLast else cs)

end LintHost.Text
