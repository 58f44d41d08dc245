import Colloquy.Proofs.FieldType.Nesting
import Colloquy.Proofs.Message.Rebuild
import Colloquy.Proofs.Wire.Nesting

/-!
# Messages that a reader takes

Building asks for nothing that decoding refuses, except one thing: a reader
goes only so deep.  A message that was built is read, with its place in the
dialogue, if none of its fields is nested deeper than that, and is refused for
its nesting otherwise.  Field types that stay within the limit keep all messages
of a specification within it.
-/

namespace Colloquy

namespace Envelope

open MessagePack

theorem readField_write_of_lt (field : String × Wire) (rest : Bytes)
    (hdepth : maxNestingDepth < field.2.depth)
    (hsize : (writeField field).length < Bytes.capacity 4) :
    readField (writeField field ++ rest) = .error .tooDeep := by
  simp only [writeField, List.length_append] at hsize
  have hheader : ∀ rest, readToken ((Token.array 2).write ++ rest)
      = .ok (.array 2, rest) :=
    readToken_write_append (.array 2) (show 2 < Bytes.capacity 4 by decide)
  have hname := readText_write field.1 (field.2.write ++ rest) (by omega)
  have hvalue := Wire.read_write_append_of_lt field.2 maxNestingDepth rest hdepth
    (by omega)
  rw [readField, readCouple, writeField, List.append_assoc, List.append_assoc,
    hheader]
  simp only [bind, Except.bind, readPair, hname, hvalue]
  rfl

theorem readBody_write_of_lt {body : List (String × Wire)}
    (hdepth : ∃ field ∈ body, maxNestingDepth < field.2.depth)
    (hsize : (writeBody body).length < Bytes.capacity 4) (rest : Bytes) :
    readBody (writeBody body ++ rest) = .error .tooDeep := by
  rw [writeBody, List.length_append] at hsize
  have hcount : body.length ≤ (body.flatMap writeField).length :=
    length_le_flatMap length_writeField_pos
  have hfits : (Token.array body.length).Fits :=
    show body.length < Bytes.capacity 4 by omega
  have hfields : times readField body.length (body.flatMap writeField ++ rest)
      = .error .tooDeep := by
    apply times_flatMap_eq_error
    · intro field hmem
      have hle := length_writeField_le hmem
      by_cases hfield : field.2.depth ≤ maxNestingDepth
      · exact Or.inl fun rest => readField_write field rest hfield (by omega)
      · exact Or.inr fun rest =>
          readField_write_of_lt field rest (by omega) (by omega)
    · obtain ⟨field, hmem, hfield⟩ := hdepth
      have hle := length_writeField_le hmem
      exact ⟨field, hmem, fun rest =>
        readField_write_of_lt field rest hfield (by omega)⟩
  rw [readBody, writeBody, List.append_assoc, readToken_write_append _ hfits]
  exact hfields

/-- An envelope with a field that is nested too deeply is refused for that. -/
theorem readExact_write_of_lt (envelope : Envelope)
    (hdepth : ∃ field ∈ envelope.body, maxNestingDepth < field.2.depth)
    (hsize : envelope.write.length < Bytes.capacity 4) :
    readExact envelope.write = .error .tooDeep := by
  rw [readExact, exactly, read_write envelope hsize]
  simp only [write, List.length_append] at hsize
  have hbody := readBody_write_of_lt hdepth (by omega) []
  rw [List.append_nil] at hbody
  rw [hbody]
  rfl

end Envelope

/-- No field of a specification has a type that is nested deeper than a reader
goes. -/
def Specification.IsShallow (specification : Specification) : Prop :=
  ∀ performative schema, specification.schema? performative = some schema →
    ∀ field ∈ schema.entries, field.2.levels ≤ maxNestingDepth

namespace Message

variable {source : Source} {specification : Specification}
  {performative : String} {given : List (String × Value)} {routing : Routing}
  {message : Message}

/-- No field is nested deeper than a reader goes. -/
def IsShallow (message : Message) : Prop :=
  ∀ field ∈ message.fields, field.2.toWire.depth ≤ maxNestingDepth

theorem IsShallow.depth_le (hshallow : message.IsShallow) :
    ∀ field ∈ message.toEnvelope.body, field.2.depth ≤ maxNestingDepth := by
  intro field hmem
  obtain ⟨entry, hentry, rfl⟩ := List.mem_map.mp hmem
  exact hshallow entry hentry

/-! ## What can be built can be read -/

/-- The fields of a message that was built fill its schema, though not always
with the values they were written from. -/
theorem exists_fills {schema : Schema} {fields : OrderedMap String Value}
    (hschema : ∀ name type, (name, type) ∈ schema.entries → type.check = .ok ())
    (hgiven : ∀ field ∈ given, field.2.IsProper)
    (hfields : schema.traverse (buildField performative given) = .ok fields) :
    ∃ found, Fills schema (fields.mapValues Value.toWire).entries found := by
  obtain ⟨hkeys, hbuilt⟩ := OrderedMap.traverse_eq_ok_iff_get?.mp hfields
  have hread : ∀ name type, (name, type) ∈ schema.entries → ∃ value,
      interpretField performative (fields.mapValues Value.toWire) name type
        = .ok value := by
    intro name type hfield
    obtain ⟨value, hvalue, hfound⟩ :=
      hbuilt name type (OrderedMap.get?_eq_some_iff.mpr hfield)
    have hwell := FieldType.isWellFormed_of_check type (hschema name type hfield)
    obtain ⟨found, hread⟩ := hwell.reads_of_validate
      (isProper_buildField hgiven hvalue) (buildField_eq_ok_iff.mp hvalue).2
    have hwritten : (name, value.toWire)
        ∈ (fields.mapValues Value.toWire).entries :=
      List.mem_map.mpr ⟨_, OrderedMap.get?_eq_some_iff.mp hfound, rfl⟩
    exact ⟨found, interpretField_eq_ok_iff.mpr ⟨_, hwritten, hread⟩⟩
  obtain ⟨found, hfound⟩ := OrderedMap.exists_traverse hread
  exact ⟨found, fills_iff.mp
    ⟨_, collectBody_entries (declared_of_keys hkeys), hfound⟩⟩

theorem decode_of_isShallow {limit : Nat}
    (hload : Specification.load source = .ok specification)
    (hgiven : ∀ field ∈ given, field.2.IsProper)
    (hbuild : build specification performative given routing = .ok message)
    (hinitiator : routing.reference.initiator ≠ unassigned)
    (hid : startingMessageId ≤ routing.messageId)
    (hsize : message.encode.length < Bytes.capacity 4)
    (hlimit : message.encode.length ≤ limit) (hshallow : message.IsShallow) :
    ∃ found, decode specification limit message.encode = .ok found
      ∧ found.routing = message.routing
      ∧ found.performative = message.performative := by
  obtain ⟨schema, fields, hschema, -, hfields, rfl⟩ :=
    build_eq_ok_iff.mp hbuild
  obtain ⟨found, hfills⟩ := exists_fills
    (fun name type => Specification.check_of_load hload hschema) hgiven hfields
  have hread := Envelope.readExact_write _ hshallow.depth_le hsize
  refine ⟨⟨specification.id, routing, performative, found.entries⟩,
    decode_eq_ok_iff.mpr ⟨hlimit, _, hread, ?_⟩, rfl, rfl⟩
  exact ofEnvelope_eq_ok_iff_fills.mpr
    ⟨rfl, hinitiator, hid, schema, found, hschema, hfills, rfl⟩

theorem decode_of_not_isShallow {limit : Nat}
    (hsize : message.encode.length < Bytes.capacity 4)
    (hlimit : message.encode.length ≤ limit) (hdeep : ¬message.IsShallow) :
    decode specification limit message.encode
      = .error (.payload .tooDeep) := by
  have hfield : ∃ field ∈ message.toEnvelope.body,
      maxNestingDepth < field.2.depth := by
    simp only [IsShallow, not_forall, Nat.not_le] at hdeep
    obtain ⟨field, hmem, hfield⟩ := hdeep
    exact ⟨_, List.mem_map_of_mem hmem, hfield⟩
  have hread := message.toEnvelope.readExact_write_of_lt hfield hsize
  rw [decode, if_neg (Nat.not_lt.mpr hlimit)]
  simp only [encode, hread]
  rfl

/-- No field type of the specification goes too deep, so no message does. -/
theorem isShallow_of_build
    (hload : Specification.load source = .ok specification)
    (htypes : specification.IsShallow)
    (hbuild : build specification performative given routing = .ok message) :
    message.IsShallow := by
  obtain ⟨schema, fields, hschema, -, hfields, rfl⟩ :=
    build_eq_ok_iff.mp hbuild
  intro field hmem
  obtain ⟨type, htype, hbuilt⟩ := OrderedMap.exists_of_mem_traverseEntries
    ((OrderedMap.traverse_eq_ok_iff _).mp hfields) hmem
  have hwell := FieldType.isWellFormed_of_check type
    (Specification.check_of_load hload hschema htype)
  calc field.2.toWire.depth
      ≤ type.levels := hwell.depth_le_levels (buildField_eq_ok_iff.mp hbuilt).2
    _ ≤ maxNestingDepth := htypes performative schema hschema _ htype

/-- A message was built for sending, under a reference with the initiator's half
and with an id that is not below the first one. -/
structure IsBuilt (specification : Specification)
    (given : List (String × Value)) (message : Message) : Prop where
  build : ∃ performative,
    build specification performative given message.routing = .ok message
  initiator : message.routing.reference.initiator ≠ unassigned
  messageId : startingMessageId ≤ message.routing.messageId

/-- What a reader with the given limit makes of a message: it takes it, with its
place in the dialogue, unless a field is nested too deeply for it. -/
structure IsReadUnlessDeep (specification : Specification) (limit : Nat)
    (message : Message) : Prop where
  decode_of_isShallow : message.IsShallow → ∃ found,
    decode specification limit message.encode = .ok found
      ∧ found.routing = message.routing
      ∧ found.performative = message.performative
  decode_of_not_isShallow : ¬message.IsShallow →
    decode specification limit message.encode = .error (.payload .tooDeep)
  isShallow : specification.IsShallow → message.IsShallow

theorem IsBuilt.isReadUnlessDeep {limit : Nat}
    (hbuilt : message.IsBuilt specification given)
    (hload : Specification.load source = .ok specification)
    (hgiven : ∀ field ∈ given, field.2.IsProper)
    (hsize : message.encode.length < Bytes.capacity 4)
    (hlimit : message.encode.length ≤ limit) :
    message.IsReadUnlessDeep specification limit := by
  obtain ⟨⟨performative, hbuild⟩, hinitiator, hid⟩ := hbuilt
  exact {
    decode_of_isShallow :=
      Message.decode_of_isShallow hload hgiven hbuild hinitiator hid hsize hlimit
    decode_of_not_isShallow := Message.decode_of_not_isShallow hsize hlimit
    isShallow := fun htypes => isShallow_of_build hload htypes hbuild }

end Message

end Colloquy
