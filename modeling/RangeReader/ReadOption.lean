import RangeReader.Text.Base64
import RangeReader.Digest.Sha256
import RangeReader.Value.Written

/-!
# Options of a read

An option is one condition or instruction that goes with every request of a
read. The four conditions on generations may be given without a value and are
then bound, when the reader is opened, to the object being read; `resolve`
does that once and refuses what is left without a value.

A request depends on the options only kind by kind. The query has at most
one parameter for each condition and for the project, so `QueryParams` has
one field for each and a later option of a kind replaces an earlier one. The
headers have the key of the last key option, and ask for the stored bytes if
any raw option is set.
-/

namespace RangeReader

/-- **The kinds of option.** -/
inductive OptionKind where
  /-- The generation must match. -/
  | generationMatch
  /-- The generation must not match. -/
  | generationNotMatch
  /-- The generation of the metadata must match. -/
  | metagenerationMatch
  /-- The generation of the metadata must not match. -/
  | metagenerationNotMatch
  /-- The project that pays for the request. -/
  | userProject
  /-- The key of an object encrypted with a key of the customer. -/
  | customerKey
  /-- Whether the stored bytes are wanted as they are. -/
  | rawStream
  deriving DecidableEq, Repr, Inhabited

namespace OptionKind

/-- The kinds, in order. -/
def all : List OptionKind :=
  [.generationMatch, .generationNotMatch, .metagenerationMatch, .metagenerationNotMatch,
    .userProject, .customerKey, .rawStream]

/-- The name of a kind in messages. -/
def name : OptionKind → String
  | .generationMatch => "IF_GENERATION_MATCH"
  | .generationNotMatch => "IF_GENERATION_NOT_MATCH"
  | .metagenerationMatch => "IF_METAGENERATION_MATCH"
  | .metagenerationNotMatch => "IF_METAGENERATION_NOT_MATCH"
  | .userProject => "USER_PROJECT"
  | .customerKey => "CUSTOMER_SUPPLIED_KEY"
  | .rawStream => "RETURN_RAW_INPUT_STREAM"

/-- The name of a kind in queries and in saved states. -/
def wireName : OptionKind → String
  | .generationMatch => "ifGenerationMatch"
  | .generationNotMatch => "ifGenerationNotMatch"
  | .metagenerationMatch => "ifMetagenerationMatch"
  | .metagenerationNotMatch => "ifMetagenerationNotMatch"
  | .userProject => "userProject"
  | .customerKey => "customerSuppliedKey"
  | .rawStream => "returnRawInputStream"

/-- The kind of a name in queries and in saved states. -/
def ofWireName? (s : String) : Option OptionKind := all.find? (·.wireName == s)

/-- Whether a kind is a condition on a generation. -/
def isCondition : OptionKind → Bool
  | .generationMatch => true
  | .generationNotMatch => true
  | .metagenerationMatch => true
  | .metagenerationNotMatch => true
  | .userProject => false
  | .customerKey => false
  | .rawStream => false

end OptionKind

/-- **An option of a read.** -/
structure ReadOption where
  /-- The kind of option. -/
  kind : OptionKind
  /-- Its value; null where it is not given. -/
  value : Value
  deriving Inhabited

namespace ReadOption

/-- The option for a key, which is given as bytes or as their base 64
text. -/
def decryptionKey (key : Value) : ReadOption :=
  ⟨.customerKey, match key with
    | .bytes b => .text (Text.Base64.encode b)
    | v => v⟩

/-- **An option made from an argument**, which only the conditions can do
without. -/
def ofArgument? (kind : OptionKind) : Option Value → Option ReadOption
  | some v => some (if kind = .customerKey then decryptionKey v else ⟨kind, v⟩)
  | none => if kind.isCondition then some ⟨kind, .null⟩ else none

/-- Whether two options are equal. -/
def same (a b : ReadOption) : Bool := a.kind == b.kind && a.value.same b.value

/-- The value an option takes from the object being read where it has none
of its own. -/
def bound (kind : OptionKind) (generation metageneration : Value) : Value :=
  match kind with
  | .generationMatch => generation
  | .generationNotMatch => generation
  | .metagenerationMatch => metageneration
  | .metagenerationNotMatch => metageneration
  | _ => .null

/-- An option with its value, or its kind where it has none. -/
def resolveOne (generation metageneration : Value) (o : ReadOption) :
    Except OptionKind ReadOption :=
  if !o.value.isNull then .ok o
  else
    let value := bound o.kind generation metageneration
    if value.isNull then .error o.kind else .ok ⟨o.kind, value⟩

/-- **Options with every value set**, or the kind of the first one that has
none. -/
def resolve (options : List ReadOption) (generation metageneration : Value) :
    Except OptionKind (List ReadOption) :=
  options.mapM (resolveOne generation metageneration)

/-- Whether the stored bytes are wanted as they are. -/
def wantsRaw (options : List ReadOption) : Bool :=
  options.any fun o => o.kind == .rawStream && o.value.truthy

end ReadOption

/-! ## The query -/

/-- **The parameters that options add to a query.** Generations are texts
there; the project is sent as it was given. -/
structure QueryParams where
  /-- The generation that must match. -/
  generationMatch : Option String := none
  /-- The generation that must not match. -/
  generationNotMatch : Option String := none
  /-- The generation of the metadata that must match. -/
  metagenerationMatch : Option String := none
  /-- The generation of the metadata that must not match. -/
  metagenerationNotMatch : Option String := none
  /-- The project that pays. -/
  userProject : Option Value := none

namespace QueryParams

/-- The parameters with those of one more option. -/
def add (q : QueryParams) (o : ReadOption) : QueryParams :=
  match o.kind with
  | .generationMatch => { q with generationMatch := some o.value.plain }
  | .generationNotMatch => { q with generationNotMatch := some o.value.plain }
  | .metagenerationMatch => { q with metagenerationMatch := some o.value.plain }
  | .metagenerationNotMatch => { q with metagenerationNotMatch := some o.value.plain }
  | .userProject => { q with userProject := some o.value }
  | .customerKey => q
  | .rawStream => q

/-- **The parameters of a list of options.** -/
def ofOptions (options : List ReadOption) : QueryParams := options.foldl add {}

/-- The parameters that are set, by name. -/
def toList (q : QueryParams) : List (String × Value) :=
  [(OptionKind.generationMatch.wireName, q.generationMatch.map .text),
    (OptionKind.generationNotMatch.wireName, q.generationNotMatch.map .text),
    (OptionKind.metagenerationMatch.wireName, q.metagenerationMatch.map .text),
    (OptionKind.metagenerationNotMatch.wireName, q.metagenerationNotMatch.map .text),
    (OptionKind.userProject.wireName, q.userProject)].filterMap
      fun (name, v) => v.map fun v => (name, v)

end QueryParams

/-! ## The headers -/

/-- Why a key cannot be sent. -/
inductive KeyFault where
  /-- The key is neither a text nor bytes, but of a type of this name. -/
  | notText (typeName : String)
  /-- The key is a text with characters outside ASCII. -/
  | notAscii
  /-- The key is not base 64. -/
  | encoding (fault : Text.Base64.Fault)
  deriving DecidableEq, Repr

/-- The bytes of a key given as base 64. -/
def keyBytes : Value → Except KeyFault (List UInt8)
  | .text s =>
    if s.toList.all (·.toNat < 0x80) then (Text.Base64.decode s.toList).mapError .encoding
    else .error .notAscii
  | .bytes b => (Text.Base64.decode (b.map fun b => Char.ofNat b.toNat)).mapError .encoding
  | v => .error (.notText v.typeName)

/-- A key as it is sent: unchanged, with the base 64 text of its digest. -/
structure SentKey where
  /-- The key as it was given. -/
  key : Value
  /-- The base 64 text of the SHA-256 digest of the key. -/
  digest : String

/-- **The headers that options add to a request.** -/
structure OptionHeaders where
  /-- The key, where there is one. -/
  key : Option SentKey := none
  /-- Whether the stored bytes are asked for. Accepting compressed content
  stops the service from decompressing it. -/
  acceptGzip : Bool := false

namespace OptionHeaders

/-- The headers with those of one more option. -/
def add (h : OptionHeaders) (o : ReadOption) : Except KeyFault OptionHeaders :=
  match o.kind with
  | .customerKey => do
    let bytes ← keyBytes o.value
    return { h with key := some ⟨o.value, Text.Base64.encode (Sha256.digest bytes)⟩ }
  | .rawStream => .ok { h with acceptGzip := h.acceptGzip || o.value.truthy }
  | _ => .ok h

/-- **The headers of a list of options**, or the fault of the first key that
cannot be sent. -/
def ofOptions (options : List ReadOption) : Except KeyFault OptionHeaders := options.foldlM add {}

/-- The headers that are set, by name. -/
def toList (h : OptionHeaders) : List (String × Value) :=
  (match h.key with
    | some sent =>
      [("x-goog-encryption-algorithm", .text "AES256"), ("x-goog-encryption-key", sent.key),
        ("x-goog-encryption-key-sha256", .text sent.digest)]
    | none => [])
  ++ if h.acceptGzip then [("Accept-Encoding", .text "gzip")] else []

end OptionHeaders

end RangeReader
