import RangeReader.Proofs.Payload
import RangeReader.Proofs.ReadStep

/-!
# Codecs that invert

A record comes back from its payload as it was. The other way round a payload does not:
it may say in many ways what is written in one, so a payload that goes through its
record becomes the canonical one, and stays that from then on.

Where two codecs are composed, the record codec stands behind, and a codec that gives
back all that it is given does not show in a composition
(`Codec.roundTrip_andThen`). So what comes back of an identity from its payload is what
comes back from its record, and there the generation decides. An identity keeps it as
the caller wrote it and a record has an integer, so what comes back has the integer
that the generation gives. A generation kept as a text does not come back as a text,
and one kept as a boolean comes back as an integer that is equal to it.
-/

namespace RangeReader

/-! ## Round trips -/

namespace Codec

variable {ε α β γ : Type}

/-- **What comes back of a value** that goes through its form. -/
def roundTrip (c : Codec ε α β) (a : α) : Except ε α := c.encode a >>= c.decode

/-- **What becomes of a form** that goes through its value. -/
def rewritten (c : Codec ε α β) (b : β) : Except ε β := c.decode b >>= c.encode

/-- **A codec behind that loses nothing does not show.** -/
theorem roundTrip_andThen (first : Codec ε α β) {second : Codec ε β γ}
    (h : ∀ b, second.roundTrip b = .ok b) (a : α) :
    (first.andThen second).roundTrip a = first.roundTrip a := by
  cases hfirst : first.encode a with
  | error e =>
    show (first.encode a >>= second.encode) >>= _ = first.encode a >>= _
    rw [hfirst]
    rfl
  | ok b =>
    calc (first.andThen second).roundTrip a
        = (first.encode a >>= second.encode) >>= fun c => second.decode c >>= first.decode := rfl
      _ = second.encode b >>= fun c => second.decode c >>= first.decode := by rw [hfirst]; rfl
      _ = second.roundTrip b >>= first.decode := (bind_assoc _ _ _).symm
      _ = first.encode a >>= first.decode := by rw [h b, hfirst]

end Codec

/-! ## Records and their payloads -/

theorem decode_recordCodec_eq_ok_iff {payload : Value} {r : ObjectRecord} :
    recordCodec.decode payload = .ok r ↔ ObjectRecord.decode payload = .ok r :=
  mapError_eq_ok_iff

/-- **A record comes back from its payload.** -/
theorem roundTrip_recordCodec (r : ObjectRecord) : recordCodec.roundTrip r = .ok r :=
  decode_recordCodec_eq_ok_iff.mpr r.decode_encode

/-- **A payload becomes the one of its record.** -/
theorem rewritten_recordCodec_eq_ok_iff {payload canonical : Value} :
    recordCodec.rewritten payload = .ok canonical
      ↔ ∃ r, recordCodec.decode payload = .ok r ∧ canonical = r.encode := by
  unfold Codec.rewritten
  rw [bind_eq_ok_iff]
  refine exists_congr fun r => and_congr_right fun _ => ?_
  show Except.ok r.encode = .ok canonical ↔ canonical = r.encode
  rw [Except.ok.injEq, eq_comm]

theorem rewritten_encode (r : ObjectRecord) : recordCodec.rewritten r.encode = .ok r.encode :=
  rewritten_recordCodec_eq_ok_iff.mpr ⟨r, roundTrip_recordCodec r, rfl⟩

/-- **What is left as it is** is what is in canonical form. -/
theorem rewritten_eq_self_iff {payload : Value} :
    recordCodec.rewritten payload = .ok payload
      ↔ ∃ entries, payload = .map entries ∧ ObjectRecord.Canonical entries := by
  constructor
  · intro h
    obtain ⟨r, -, rfl⟩ := rewritten_recordCodec_eq_ok_iff.mp h
    exact ⟨_, r.encode_eq, ObjectRecord.canonical_iff.mpr ⟨r, rfl⟩⟩
  · rintro ⟨entries, rfl, hcanonical⟩
    obtain ⟨r, rfl⟩ := ObjectRecord.canonical_iff.mp hcanonical
    rw [← r.encode_eq]
    exact rewritten_encode r

/-! ## Identities and their records -/

/-- An identity with another generation. -/
def ObjectId.withGeneration (o : ObjectId) (generation : Option Int) : ObjectId :=
  ⟨o.bucket, o.name, generation.elim .null .int, o.bucket_ne, o.name_ne⟩

/-- **What comes back of an identity** has the integer that its generation gives. -/
theorem roundTrip_identityCodec_eq_ok_iff {o back : ObjectId} :
    identityCodec.roundTrip o = .ok back
      ↔ ∃ generation,
        ObjectRecord.GivesOptional ObjectRecord.GivesInteger (some o.generation) generation
          ∧ back = o.withGeneration generation := by
  have hback (generation : Option Int) :
      ObjectRecord.toObjectId ⟨o.bucket, o.name, generation, none, none, none, none⟩
        = .ok (o.withGeneration generation) :=
    Checkpoint.make_self (o.withGeneration generation)
  unfold Codec.roundTrip
  rw [bind_eq_ok_iff]
  constructor
  · rintro ⟨r, hr, hread⟩
    obtain ⟨generation, hgeneration, rfl⟩ :=
      ObjectRecord.ofObjectId_eq_ok_iff.mp (mapError_eq_ok_iff.mp hr)
    have hread := (hback generation).symm.trans (mapError_eq_ok_iff.mp hread)
    exact ⟨generation, hgeneration, (Except.ok.inj hread).symm⟩
  · rintro ⟨generation, hgeneration, rfl⟩
    have hr := ObjectRecord.ofObjectId_eq_ok_iff.mpr ⟨generation, hgeneration, rfl⟩
    exact ⟨_, mapError_eq_ok_iff.mpr hr, mapError_eq_ok_iff.mpr (hback generation)⟩

/-- **An identity comes back** exactly if its generation is what a record has. -/
theorem roundTrip_identityCodec_eq_self_iff {o : ObjectId} :
    identityCodec.roundTrip o = .ok o ↔ o.generation = .null ∨ ∃ n, o.generation = .int n := by
  rw [roundTrip_identityCodec_eq_ok_iff]
  constructor
  · rintro ⟨generation, -, hback⟩
    have hgeneration : o.generation = generation.elim .null .int :=
      congrArg ObjectId.generation hback
    cases generation with
    | none => exact .inl hgeneration
    | some n => exact .inr ⟨n, hgeneration⟩
  · rintro (hnull | ⟨n, hn⟩)
    · refine ⟨none, ?_, ObjectId.eq_of_parts rfl rfl hnull⟩
      rw [hnull]
      exact .null
    · refine ⟨some n, ?_, ObjectId.eq_of_parts rfl rfl hn⟩
      rw [hn]
      exact .given (.int n)

/-- A value that counts as an integer gives it, and equals it. -/
theorem givesInteger_of_asInt? {v : Value} {n : Int} (h : v.asInt? = some n) :
    ObjectRecord.GivesInteger v n ∧ (Value.int n).same v = true := by
  cases v with
  | bool b =>
    cases h
    exact ⟨.bool b, by cases b <;> rfl⟩
  | int m =>
    cases h
    exact ⟨.int n, beq_self_eq_true n⟩
  | _ => cases h

/-- **An identity whose generation counts as an integer comes back** as one that is equal
to it. -/
theorem roundTrip_identityCodec_of_asInt? {o : ObjectId} {n : Int}
    (h : o.generation.asInt? = some n) :
    ∃ back, identityCodec.roundTrip o = .ok back ∧ back.same o = true := by
  obtain ⟨hgives, hsame⟩ := givesInteger_of_asInt? h
  refine ⟨o.withGeneration (some n),
    roundTrip_identityCodec_eq_ok_iff.mpr ⟨some n, .given hgives, rfl⟩, ?_⟩
  show (o.bucket == o.bucket && o.name == o.name && (Value.int n).same o.generation) = true
  rw [beq_self_eq_true, beq_self_eq_true, hsame]
  rfl

/-! ## Both -/

/-- **The codecs invert.**

* A record comes back from its payload.
* A payload that is read becomes one that is read as the same record and stays as it is.
* What is read are the maps that tell the record, whatever else they have and in
  whichever of the accepted ways its fields are told.
* What stays as it is are the payloads in canonical form.
* An identity comes back from its payload exactly if its generation is null or an
  integer.
* One whose generation counts as an integer comes back as one that is equal to it. -/
theorem codecs_invert :
    (∀ r : ObjectRecord, recordCodec.roundTrip r = .ok r)
      ∧ (∀ payload r, recordCodec.decode payload = .ok r →
        ∃ canonical, recordCodec.rewritten payload = .ok canonical
          ∧ recordCodec.decode canonical = .ok r
          ∧ recordCodec.rewritten canonical = .ok canonical)
      ∧ (∀ payload r, recordCodec.decode payload = .ok r
        ↔ ∃ entries, payload = .map entries ∧ ObjectRecord.Tells entries r)
      ∧ (∀ payload, recordCodec.rewritten payload = .ok payload
        ↔ ∃ entries, payload = .map entries ∧ ObjectRecord.Canonical entries)
      ∧ (∀ o : ObjectId, (identityCodec.andThen recordCodec).roundTrip o = .ok o
        ↔ o.generation = .null ∨ ∃ n, o.generation = .int n)
      ∧ ∀ (o : ObjectId) (n : Int), o.generation.asInt? = some n →
        ∃ back, (identityCodec.andThen recordCodec).roundTrip o = .ok back
          ∧ back.same o = true := by
  have hchain (o : ObjectId) :
      (identityCodec.andThen recordCodec).roundTrip o = identityCodec.roundTrip o :=
    Codec.roundTrip_andThen identityCodec roundTrip_recordCodec o
  refine ⟨roundTrip_recordCodec, fun payload r h => ?_, fun payload r => ?_,
    fun payload => rewritten_eq_self_iff, fun o => ?_, fun o n h => ?_⟩
  · exact ⟨r.encode, rewritten_recordCodec_eq_ok_iff.mpr ⟨r, h, rfl⟩, roundTrip_recordCodec r,
      rewritten_encode r⟩
  · rw [decode_recordCodec_eq_ok_iff, ObjectRecord.decode_eq_ok_iff]
  · rw [hchain, roundTrip_identityCodec_eq_self_iff]
  · rw [hchain]
    exact roundTrip_identityCodec_of_asInt? h

/-- A payload that tells its record in most of the ways there are: an integer as a text,
as a double and as a boolean, a text as bytes, a null, the other name of the content
type, and an entry that is not asked for. -/
def samplePayload : Value := .map [
  (.int 7, .list []),
  (.text "kind", .text "object"),
  (.text "content_type", .bytes [0x74, 0x65, 0x78, 0x74]),
  (.text "size", .float ⟨0x4014000000000000⟩),
  (.text "name", .bytes [0xC3, 0xBC]),
  (.text "metageneration", .bool true),
  (.text "generation", .text " +00_1_2.0 "),
  (.text "etag", .null),
  (.text "bucket", .text "b")]

/-- The record that it tells. -/
def sampleRecord : ObjectRecord := ⟨"b", "ü", some 12, some 1, none, some 5, some "text"⟩

theorem decode_samplePayload : recordCodec.decode samplePayload = .ok sampleRecord := by
  decide +kernel

/-- The sample payload becomes another one, which then stays; and an identity comes back
as it was if its generation is an integer, and equal to what it was if it is a boolean. -/
theorem codecs_invert_sample :
    (∃ canonical, recordCodec.decode samplePayload = .ok sampleRecord
        ∧ recordCodec.rewritten samplePayload = .ok canonical
        ∧ canonical ≠ samplePayload
        ∧ recordCodec.decode canonical = .ok sampleRecord
        ∧ recordCodec.rewritten canonical = .ok canonical)
      ∧ (identityCodec.andThen recordCodec).roundTrip (sampleId.withGeneration (some (-5)))
        = .ok (sampleId.withGeneration (some (-5)))
      ∧ ∃ back, (identityCodec.andThen recordCodec).roundTrip
          ⟨"bucket", "name", .bool true, by decide, by decide⟩ = .ok back
        ∧ back.same ⟨"bucket", "name", .bool true, by decide, by decide⟩ = true := by
  obtain ⟨-, hcanonical, -, -, hidentity, hequal⟩ := codecs_invert
  obtain ⟨canonical, hwritten, hread, hstays⟩ := hcanonical _ _ decode_samplePayload
  refine ⟨⟨canonical, decode_samplePayload, hwritten, ?_, hread, hstays⟩,
    (hidentity _).mpr (.inr ⟨-5, rfl⟩), hequal _ 1 rfl⟩
  rintro rfl
  obtain ⟨r, -, hr⟩ := rewritten_recordCodec_eq_ok_iff.mp hwritten
  rw [ObjectRecord.encode, samplePayload] at hr
  simp at hr

end RangeReader
