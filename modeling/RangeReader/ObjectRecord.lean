import RangeReader.ObjectId
import RangeReader.Number.IntegerText
import RangeReader.Text.Utf8

/-!
# The metadata record of an object

A record is what the service says about an object, and what a request uses
to describe the object it is for. Its payload is a map. Reading a payload is
lenient about numbers, which services often send as text, and takes bytes for
the text they are in UTF-8; it reports every field that is wrong, in the order
of the fields. The content type has two names, of which the one of the payload
wins. Writing leaves out what is not known.
-/

namespace RangeReader

/-- **What is known about an object.** -/
structure ObjectRecord where
  /-- The bucket that holds the object. -/
  bucket : String
  /-- The name of the object. -/
  name : String
  /-- Its generation. -/
  generation : Option Int
  /-- The generation of its metadata. -/
  metageneration : Option Int
  /-- The tag of its content. -/
  etag : Option String
  /-- Its size in bytes. -/
  size : Option Int
  /-- The type of its content. -/
  contentType : Option String
  deriving DecidableEq, Repr

/-- What is wrong with a field of a payload. -/
inductive FieldProblem where
  /-- The payload is not a map at all. -/
  | notRecord
  /-- A field that must be there is missing. -/
  | missing
  /-- A text is wanted. -/
  | notText
  /-- A text is wanted, and the bytes are not those of one. -/
  | notUtf8
  /-- An integer is wanted, and the value is of no kind that gives one. -/
  | notInteger
  /-- The text is not that of an integer. -/
  | unreadableInteger
  /-- The integer is too large for the form it is given in. -/
  | tooLarge
  /-- The number is not an integer. -/
  | fractional
  /-- The number is infinite or not a number. -/
  | notFinite
  deriving DecidableEq, Repr

/-- The code that names a problem. -/
def FieldProblem.code : FieldProblem → String
  | .notRecord => "model_type"
  | .missing => "missing"
  | .notText => "string_type"
  | .notUtf8 => "string_unicode"
  | .notInteger => "int_type"
  | .unreadableInteger => "int_parsing"
  | .tooLarge => "int_parsing_size"
  | .fractional => "int_from_float"
  | .notFinite => "finite_number"

/-- A field that is wrong, by the name it is read under; a payload that is no
record has no field to name. -/
structure FieldFault where
  /-- The name of the field. -/
  field : Option String
  /-- What is wrong with it. -/
  problem : FieldProblem
  deriving DecidableEq, Repr

namespace ObjectRecord

/-- What is wrong with a field whose text gives no integer. -/
def textProblem : IntegerTextFault → FieldProblem
  | .unreadable => .unreadableInteger
  | .tooLong => .tooLarge

/-- The integer that a double is. It must lie strictly between `-2^63` and
`2^63`, where an integer given as such may have any size. -/
def integerOfDouble (x : Binary64) : Except FieldProblem Int :=
  match x.truncated? with
  | none => .error .notFinite
  | some n =>
    if !x.isIntegral then .error .fractional
    else if n.natAbs < Binary64.magnitudeModulus then .ok n
    else .error .tooLarge

/-- **The integer that a value gives**: booleans, doubles without a fraction
and texts of integers count, as texts or as bytes. -/
def integerOf : Value → Except FieldProblem Int
  | .bool b => .ok (if b then 1 else 0)
  | .int n => .ok n
  | .float x => integerOfDouble x
  | .text s => (IntegerText.read s).mapError textProblem
  | .bytes b =>
    match Text.Utf8.decode b with
    | .ok s => (IntegerText.read s).mapError textProblem
    | .error _ => .error .unreadableInteger
  | _ => .error .notInteger

/-- **The text that a value gives**: a text, or bytes that are one in
UTF-8. -/
def textOf : Value → Except FieldProblem String
  | .text s => .ok s
  | .bytes b => (Text.Utf8.decode b).mapError fun _ => .notUtf8
  | _ => .error .notText

/-- A field that may be missing or null. -/
def optional {α : Type} (read : Value → Except FieldProblem α) :
    Option Value → Except FieldProblem (Option α)
  | none => .ok none
  | some .null => .ok none
  | some v => some <$> read v

/-- A field that must be there. -/
def required {α : Type} (read : Value → Except FieldProblem α) :
    Option Value → Except FieldProblem α
  | none => .error .missing
  | some v => read v

/-- The fault of a field, if it has one. -/
def faultOf {α : Type} (field : String) : Except FieldProblem α → List FieldFault
  | .ok _ => []
  | .error problem => [⟨some field, problem⟩]

/-- The name the content type is read under: the one of the payload where it
is there, even as null. -/
def contentTypeName (entries : List (Value × Value)) : String :=
  if (Value.lookup? entries "contentType").isSome
    || (Value.lookup? entries "content_type").isNone then "contentType" else "content_type"

/-- **The record in a payload**, or every fault of it. -/
def decode : Value → Except (List FieldFault) ObjectRecord
  | .map entries =>
    let value (name : String) : Option Value := Value.lookup? entries name
    let contentTypeName := contentTypeName entries
    let bucket := required textOf (value "bucket")
    let name := required textOf (value "name")
    let generation := optional integerOf (value "generation")
    let metageneration := optional integerOf (value "metageneration")
    let etag := optional textOf (value "etag")
    let size := optional integerOf (value "size")
    let contentType := optional textOf (value contentTypeName)
    match bucket, name, generation, metageneration, etag, size, contentType with
    | .ok bucket, .ok name, .ok generation, .ok metageneration, .ok etag, .ok size,
      .ok contentType =>
      .ok ⟨bucket, name, generation, metageneration, etag, size, contentType⟩
    | _, _, _, _, _, _, _ =>
      .error (faultOf "bucket" bucket ++ faultOf "name" name ++ faultOf "generation" generation
        ++ faultOf "metageneration" metageneration ++ faultOf "etag" etag
        ++ faultOf "size" size ++ faultOf contentTypeName contentType)
  | _ => .error [⟨none, .notRecord⟩]

/-- An entry of a payload, where the field is known. -/
def entry? (name : String) (v : Option Value) : List (Value × Value) :=
  match v with
  | some v => [(.text name, v)]
  | none => []

/-- **The payload of a record**, without the fields that are not known. -/
def encode (r : ObjectRecord) : Value :=
  .map ([(.text "bucket", .text r.bucket), (.text "name", .text r.name)]
    ++ entry? "generation" (r.generation.map .int)
    ++ entry? "metageneration" (r.metageneration.map .int)
    ++ entry? "etag" (r.etag.map .text)
    ++ entry? "size" (r.size.map .int)
    ++ entry? "contentType" (r.contentType.map .text))

/-- **The record that describes an object in a request**: its bucket and
name, and its generation as an integer. -/
def ofObjectId (o : ObjectId) : Except (List FieldFault) ObjectRecord :=
  match optional integerOf (some o.generation) with
  | .ok generation => .ok ⟨o.bucket, o.name, generation, none, none, none, none⟩
  | .error problem => .error [⟨some "generation", problem⟩]

/-- **The identity of the object of a record.** -/
def toObjectId (r : ObjectRecord) : Except ObjectIdFault ObjectId :=
  ObjectId.make r.bucket r.name (r.generation.elim .null .int)

end ObjectRecord

/-! ## Codecs

A codec is a pair of functions between a value and its form on the wire,
either of which may refuse. Two codecs compose when the form of one is the
value of the other; decoding runs through them in the opposite order. -/

/-- A value and its form on the wire. -/
structure Codec (ε α β : Type) where
  /-- The form of a value. -/
  encode : α → Except ε β
  /-- The value of a form. -/
  decode : β → Except ε α

/-- A codec followed by a codec of its form. -/
def Codec.andThen {ε α β γ : Type} (first : Codec ε α β) (second : Codec ε β γ) :
    Codec ε α γ where
  encode a := first.encode a >>= second.encode
  decode c := second.decode c >>= first.decode

/-- Why a conversion between identities, records and payloads refuses. -/
inductive ConversionFault where
  /-- The parts are no identity. -/
  | identity (fault : ObjectIdFault)
  /-- Fields of a payload are wrong. -/
  | fields (faults : List FieldFault)
  deriving DecidableEq, Repr

/-- Identities as records. -/
def identityCodec : Codec ConversionFault ObjectId ObjectRecord where
  encode o := (ObjectRecord.ofObjectId o).mapError .fields
  decode r := r.toObjectId.mapError .identity

/-- Records as payloads. -/
def recordCodec : Codec ConversionFault ObjectRecord Value where
  encode r := .ok r.encode
  decode payload := (ObjectRecord.decode payload).mapError .fields

end RangeReader
