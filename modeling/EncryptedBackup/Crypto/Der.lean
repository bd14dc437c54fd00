/-
The distinguished encoding rules, as far as keys need them: elements of a one-byte tag, a length in
its shortest form and the content, and natural numbers in as few bytes as keep the first bit zero.
-/
import EncryptedBackup.Bytes

namespace EncryptedBackup.Der

/-! ## Elements -/

/-- The tags in use. -/
def integerTag : UInt8 := 0x02
def bitStringTag : UInt8 := 0x03
def octetStringTag : UInt8 := 0x04
def nullTag : UInt8 := 0x05
def objectIdTag : UInt8 := 0x06
def sequenceTag : UInt8 := 0x30

/-- A length: one byte below 128, else the number of its octets and then these. -/
def encodeLength (n : Nat) : Bytes :=
  if n < 128 then [UInt8.ofNat n]
  else
    let m := magnitude n
    UInt8.ofNat (128 + m.length) :: m

/-- An element. -/
def element (tag : UInt8) (content : Bytes) : Bytes :=
  tag :: (encodeLength content.length ++ content)

/-- The greatest length that is read: a byte less than 256 MiB. -/
def maxLength : Nat := 0x0FFFFFFF

/-- The length at the start of a byte string, and what follows it; four octets at most. -/
def readLength? : Bytes → Option (Nat × Bytes)
  | [] => none
  | b :: bs =>
    if b < 128 then some (b.toNat, bs)
    else
      let k := b.toNat - 128
      let n := ofBigEndian (bs.take k)
      if 1 ≤ k ∧ k ≤ 4 ∧ k ≤ bs.length ∧ 128 ≤ n ∧ capacity (k - 1) ≤ n ∧ n ≤ maxLength then
        some (n, bs.drop k)
      else none

/-- The content of the element with this tag at the start of a byte string, and what follows it. -/
def read? (tag : UInt8) : Bytes → Option (Bytes × Bytes)
  | [] => none
  | t :: bs => do
    let (n, rest) ← readLength? bs
    if t = tag ∧ n ≤ rest.length then some (rest.take n, rest.drop n) else none

/-- The content of the element with this tag that is all of a byte string. -/
def readAll? (tag : UInt8) (bs : Bytes) : Option Bytes := do
  let (content, rest) ← read? tag bs
  if rest.isEmpty then some content else none

/-! ## Sequences of elements -/

/-- An element with any tag. -/
structure Element where
  tag : UInt8
  content : Bytes
  deriving DecidableEq

/-- The elements that make up a byte string. -/
def elements? (bs : Bytes) : Option (List Element) :=
  go bs.length bs
where
  /-- The first argument bounds the number of elements. -/
  go : Nat → Bytes → Option (List Element)
    | _, [] => some []
    | 0, _ => none
    | fuel + 1, tag :: bs => do
      let (content, rest) ← read? tag (tag :: bs)
      let elements ← go fuel rest
      some ({ tag, content } :: elements)

/-- The tag number `n`, below 31, of what only its context can tell the meaning of. -/
def contextTag (n : UInt8) (constructed : Bool) : UInt8 :=
  (if constructed then 0xA0 else 0x80) + n

/-- Is this one of these tags, of the constructed kind? -/
def isConstructedContext (tag : UInt8) : Bool :=
  0xA0 ≤ tag && tag ≤ 0xBE

/-- The universal tags in use. -/
def universalTags : List UInt8 :=
  [0x01, 0x02, 0x03, 0x04, 0x05, 0x06, 0x09, 0x0A, 0x0C, 0x12, 0x13, 0x14, 0x15, 0x16, 0x17, 0x18,
    0x1A, 0x1E, 0x30, 0x31]

/-- Is this a tag? Those of other classes than the universal one have a number below 31. -/
def isTag (tag : UInt8) : Bool :=
  tag ∈ universalTags || (0x40 ≤ tag && tag &&& 0x1F != 0x1F)

/-- Is this one element? -/
def isElement (bs : Bytes) : Bool :=
  match elements? bs with
  | some [e] => isTag e.tag
  | _ => false

/-! ## Natural numbers -/

/-- The content of a natural number: its octets, after a zero where the first bit is set or there
are none. -/
def naturalContent (n : Nat) : Bytes :=
  match magnitude n with
  | [] => [0]
  | b :: bs => if b < 128 then b :: bs else 0 :: b :: bs

/-- A natural number. -/
def natural (n : Nat) : Bytes := element integerTag (naturalContent n)

/-- The natural number at the start of a byte string, and what follows it. Negative numbers and
zeros to spare are refused. -/
def readNatural? (bs : Bytes) : Option (Nat × Bytes) := do
  let (content, rest) ← read? integerTag bs
  let n := ofBigEndian content
  if naturalContent n = content then some (n, rest) else none

end EncryptedBackup.Der
