import CalendarFeeds.Digest.Sha1

/-! # Event identifiers — the same name always gives the same identifier

    The identifier of a recurring event is the name-based UUID (version 5) of a URN that holds
    the name of its definition, in the name space of URLs. -/

namespace CalendarFeeds.Identifier

/-- The octets of the name space for URLs. -/
def urlSpace : List UInt8 :=
  [0x6b, 0xa7, 0xb8, 0x11, 0x9d, 0xad, 0x11, 0xd1, 0x80, 0xb4, 0x00, 0xc0, 0x4f, 0xd4, 0x30, 0xc8]

/-- Sets the bits of an octet that tell the version and the variant of a UUID. -/
def mark (index : Nat) (octet : UInt8) : UInt8 :=
  if index = 6 then (octet &&& 0x0f) ||| 0x50
  else if index = 8 then (octet &&& 0x3f) ||| 0x80
  else octet

/-- The octets of the UUID of a name. -/
def octets (name : String) : List UInt8 :=
  ((Sha1.digest (urlSpace ++ name.toUTF8.toList)).take 16).mapIdx mark

/-- A number below 16 in hexadecimal. -/
def hexDigit (n : Nat) : Char :=
  if n < 10 then Char.ofNat (48 + n) else Char.ofNat (87 + n)

/-- An octet in hexadecimal, after a hyphen where the text of a UUID has one. -/
def octetText (index : Nat) (octet : UInt8) : List Char :=
  let hex := [hexDigit (octet.toNat / 16), hexDigit (octet.toNat % 16)]
  if index = 4 ∨ index = 6 ∨ index = 8 ∨ index = 10 then '-' :: hex else hex

/-- The identifier of the definition with a name. -/
def ofName (name : String) : String :=
  String.ofList ((octets ("urn:calripper:recurring:" ++ name)).mapIdx octetText).flatten

end CalendarFeeds.Identifier
