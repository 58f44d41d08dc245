import Colloquy.Message.Envelope
import Colloquy.Proofs.Wire.RoundTrip

/-!
# Envelopes read back

An envelope is written as an array of six slots and read back slot by slot.
Each slot may be followed by anything, which is what makes them compose.
-/

namespace Colloquy.Envelope

open MessagePack

variable {rest : Bytes}

/-! ## Values -/

theorem readText_write (text : String) (rest : Bytes)
    (hsize : (writeText text).length < Bytes.capacity 4) :
    readText (writeText text ++ rest) = .ok (text, rest) := by
  rw [readText, writeText, readToken_write_append _ (Token.fits_str hsize)]
  rfl

theorem readUInt64_write (number : UInt64) (rest : Bytes) :
    readUInt64 ((Token.uint number).write ++ rest) = .ok (number, rest) := by
  have hfits : (Token.uint number).Fits := trivial
  rw [readUInt64, readToken_write_append _ hfits]
  rfl

/-- Two items behind the header of an array of two. -/
theorem readCouple_write {α β : Type}
    {left : Bytes → Except Fault (α × Bytes)}
    {right : Bytes → Except Fault (β × Bytes)} {first second : Bytes}
    {a : α} {b : β} (hleft : left (first ++ (second ++ rest))
      = .ok (a, second ++ rest))
    (hright : right (second ++ rest) = .ok (b, rest)) :
    readCouple left right ((Token.array 2).write ++ first ++ second ++ rest)
      = .ok ((a, b), rest) := by
  have hheader : readToken ((Token.array 2).write ++ (first ++ (second ++ rest)))
      = .ok (.array 2, first ++ (second ++ rest)) :=
    readToken_write_append (.array 2) (show 2 < Bytes.capacity 4 by decide) _
  rw [readCouple, List.append_assoc, List.append_assoc, hheader]
  simp only [bind, Except.bind, readPair, hleft, hright]
  rfl

theorem readReference_write (reference : Reference) (rest : Bytes)
    (hsize : (writeReference reference).length < Bytes.capacity 4) :
    readReference (writeReference reference ++ rest)
      = .ok (reference, rest) := by
  simp only [writeReference, List.length_append] at hsize
  have hread := readCouple_write
    (readText_write reference.initiator (writeText reference.responder ++ rest)
      (by omega))
    (readText_write reference.responder rest (by omega))
  rw [readReference, writeReference, hread]
  rfl

theorem readField_write (field : String × Wire) (rest : Bytes)
    (hdepth : field.2.depth ≤ maxNestingDepth)
    (hsize : (writeField field).length < Bytes.capacity 4) :
    readField (writeField field ++ rest) = .ok (field, rest) := by
  simp only [writeField, List.length_append] at hsize
  exact readCouple_write
    (readText_write field.1 (field.2.write ++ rest) (by omega))
    (Wire.read_write_append field.2 maxNestingDepth rest hdepth (by omega))

theorem length_writeField_pos (field : String × Wire) :
    0 < (writeField field).length := by
  simp only [writeField, List.length_append]
  have hvalue := field.2.length_write_pos
  omega

theorem length_writeField_le {field : String × Wire}
    {body : List (String × Wire)} (hmem : field ∈ body) :
    (writeField field).length ≤ (body.flatMap writeField).length := by
  induction body with
  | nil => cases hmem
  | cons first others ih =>
    rw [List.flatMap_cons, List.length_append]
    rcases List.mem_cons.mp hmem with rfl | hothers
    · omega
    · have hle := ih hothers
      omega

theorem readBody_write (body : List (String × Wire)) (rest : Bytes)
    (hdepth : ∀ field ∈ body, field.2.depth ≤ maxNestingDepth)
    (hsize : (writeBody body).length < Bytes.capacity 4) :
    readBody (writeBody body ++ rest) = .ok (body, rest) := by
  rw [writeBody, List.length_append] at hsize
  have hcount : body.length ≤ (body.flatMap writeField).length :=
    length_le_flatMap length_writeField_pos
  have hfields : times readField body.length (body.flatMap writeField ++ rest)
      = .ok (body, rest) := by
    refine times_flatMap (fun field hmem rest => ?_) rest
    have hle := length_writeField_le hmem
    exact readField_write field rest (hdepth field hmem) (by omega)
  have hfits : (Token.array body.length).Fits :=
    show body.length < Bytes.capacity 4 by omega
  rw [readBody, writeBody, List.append_assoc, readToken_write_append _ hfits]
  exact hfields

/-! ## Slots -/

/-- Behind five slots that are read back, the body decides. -/
theorem read_write (envelope : Envelope)
    (hsize : envelope.write.length < Bytes.capacity 4) :
    read envelope.write = (do
      let (body, rest) ← readBody (writeBody envelope.body)
      .ok ({ envelope with body }, rest)) := by
  obtain ⟨protocol, reference, messageId, target, performative, body⟩ := envelope
  simp only [write, List.length_append] at hsize
  have hheader : ∀ rest, readToken ((Token.array 6).write ++ rest)
      = .ok (.array 6, rest) :=
    readToken_write_append (.array 6) (show 6 < Bytes.capacity 4 by decide)
  have hprotocol := fun rest => readText_write protocol rest (by omega)
  have hreference := fun rest => readReference_write reference rest (by omega)
  have hperformative := fun rest => readText_write performative rest (by omega)
  have hslots : ({} : Draft).readSlots Slot.all
      (writeText protocol ++ (writeReference reference
        ++ ((Token.uint messageId).write ++ ((Token.uint target).write
          ++ (writeText performative ++ writeBody body)))))
      = (do
        let (body, rest) ← readBody (writeBody body)
        .ok (⟨some protocol, some reference, some messageId, some target,
          some performative, some body⟩, rest)) := by
    simp only [Slot.all, Draft.readSlots, Draft.readSlot, Draft.readOnce, bind,
      Except.bind, hprotocol, hreference, readUInt64_write, hperformative]
    cases readBody (writeBody body) <;> rfl
  have hall : Slot.all.take 6 = Slot.all := rfl
  simp only [write, List.append_assoc, read, hheader, bind, Except.bind, hall,
    hslots]
  cases readBody (writeBody body) <;> rfl

/-- An envelope in which every field is nested within the limit is read back. -/
theorem readExact_write (envelope : Envelope)
    (hdepth : ∀ field ∈ envelope.body, field.2.depth ≤ maxNestingDepth)
    (hsize : envelope.write.length < Bytes.capacity 4) :
    readExact envelope.write = .ok envelope := by
  apply exactly_eq_ok
  rw [read_write envelope hsize]
  simp only [write, List.length_append] at hsize
  have hbody := readBody_write envelope.body [] hdepth (by omega)
  rw [List.append_nil] at hbody
  rw [hbody]
  rfl

end Colloquy.Envelope
