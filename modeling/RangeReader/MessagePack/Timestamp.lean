import RangeReader.Number.BigEndian
import RangeReader.Value.Moment

/-!
# Timestamps

An extension item of type `-1` is a point in time: seconds since the
beginning of 1970, and nanoseconds. It has three forms, told apart by their
length. The shortest has whole seconds in four bytes. The next packs
nanoseconds and seconds into eight, with thirty bits for the nanoseconds. The
longest has nanoseconds in four bytes and then seconds in eight, where they
may be negative.

A point in time is a date of the years 1 to 9999, to the microsecond (`Moment`).
The nanoseconds are rounded to that, which may carry the last moment of the last
year out of it. It is written in the shortest form that has room for it.
-/

namespace RangeReader.MessagePack

/-- The seconds and nanoseconds of a timestamp. -/
structure Timestamp where
  /-- The seconds since the beginning of 1970. -/
  seconds : Int
  /-- The nanoseconds after them. -/
  nanoseconds : Nat
  deriving DecidableEq, Repr

/-- Why bytes are no point in time. -/
inductive TimestampFault where
  /-- There is no form of their length. -/
  | length
  /-- The nanoseconds make a second or more. -/
  | nanoseconds
  /-- The seconds are far from every date. -/
  | range
  /-- The date is of the year after the last one. -/
  | year
  deriving DecidableEq, Repr

namespace Timestamp

/-- The type of the extension items that are timestamps, as a byte. -/
def typeByte : UInt8 := 0xFF

/-- The beginning of the year 1. -/
def first : Int := -62135596800

/-- The beginning of the year 10000. -/
def yearAfterLast : Int := 253402300800

/-- The timestamp of a byte string, by its length. -/
def ofBytes? (bytes : List UInt8) : Option Timestamp :=
  match bytes.length with
  | 4 => some ⟨ofBigEndian bytes, 0⟩
  | 8 =>
    let packed := ofBigEndian bytes
    some ⟨packed % 0x400000000, packed / 0x400000000⟩
  | 12 => some ⟨ofSignedBigEndian (bytes.drop 4), ofBigEndian (bytes.take 4)⟩
  | _ => none

/-- The microseconds of a timestamp, to the nearest one. -/
def micros (t : Timestamp) : Int := t.seconds * 1000000 + ((t.nanoseconds + 500) / 1000 : Nat)

/-- **The point in time of a byte string**, or why it is none. -/
def moment (bytes : List UInt8) : Except TimestampFault Moment :=
  match ofBytes? bytes with
  | none => .error .length
  | some t =>
    if 999999999 < t.nanoseconds then .error .nanoseconds
    else if hrange : t.seconds < first ∨ yearAfterLast < t.seconds then .error .range
    else if hyear : yearAfterLast * 1000000 ≤ t.micros then .error .year
    else .ok {
      micros := t.micros
      first_le := by
        unfold first at hrange
        unfold micros
        omega
      lt_end := by
        unfold yearAfterLast at hyear
        omega }

/-- The timestamp of a point in time. -/
def ofMoment (m : Moment) : Timestamp :=
  ⟨m.micros / 1000000, (m.micros % 1000000).toNat * 1000⟩

/-- **The bytes of a timestamp**, in the shortest form that has room for it. -/
def toBytes (t : Timestamp) : List UInt8 :=
  if 0 ≤ t.seconds ∧ t.seconds < 0x400000000 then
    let packed := t.nanoseconds * 0x400000000 + t.seconds.toNat
    if packed < 0x100000000 then bigEndian 4 packed else bigEndian 8 packed
  else
    bigEndian 4 t.nanoseconds
      ++ bigEndian 8 (if 0 ≤ t.seconds then t.seconds else t.seconds + 0x10000000000000000).toNat

end Timestamp

end RangeReader.MessagePack
