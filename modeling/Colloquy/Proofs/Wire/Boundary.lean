import Colloquy.Proofs.Wire.Nesting

/-!
# Where a tree ends

A tree on the wire says itself where it ends.  A reader that has come to a
verdict keeps it when more bytes arrive: what was read stays read and the new
bytes are left over, and a fault of nesting or of range stays that fault.  Only
"malformed" may be due to bytes that are still missing.  This one property is
kept by every way of putting readers together, so it holds of trees of any
depth.  Main statement: a tree is read back exactly if it is not nested too
deeply, no payload is the beginning of another one, and what follows a payload
is reported as left over.
-/

namespace Colloquy

/-! ## Readers that take what they need -/

namespace Bytes

variable {α β : Type}

/-- A reader that looks at no more bytes than it takes. -/
def IsLocal (read? : Bytes → Option (α × Bytes)) : Prop :=
  ∀ ⦃bytes value rest⦄ (tail : Bytes), read? bytes = some (value, rest) →
    read? (bytes ++ tail) = some (value, rest ++ tail)

theorem isLocal_splitAt? (size : Nat) : IsLocal (splitAt? size) := by
  intro bytes front rest tail hsplit
  obtain ⟨rfl, rfl⟩ := eq_append_of_splitAt? hsplit
  rw [List.append_assoc, splitAt?_append]

theorem isLocal_some (value : α) : IsLocal fun bytes => some (value, bytes) := by
  intro bytes found rest tail hread
  cases hread
  rfl

theorem isLocal_none : IsLocal fun _ => (none : Option (α × Bytes)) := by
  intro bytes found rest tail hread
  cases hread

theorem IsLocal.andThen {read? : Bytes → Option (α × Bytes)}
    {next? : α → Bytes → Option (β × Bytes)} (hread : IsLocal read?)
    (hnext : ∀ value, IsLocal (next? value)) :
    IsLocal fun bytes => read? bytes >>= fun found => next? found.1 found.2 := by
  intro bytes value rest tail hboth
  obtain ⟨⟨first, between⟩, hfirst, hsecond⟩ := Option.bind_eq_some_iff.mp hboth
  show (read? (bytes ++ tail)).bind _ = _
  rw [hread tail hfirst]
  exact hnext first tail hsecond

theorem IsLocal.ite {left? right? : Bytes → Option (α × Bytes)}
    (hleft : IsLocal left?) (hright : IsLocal right?) {test : Prop}
    [Decidable test] :
    IsLocal fun bytes => if test then left? bytes else right? bytes := by
  intro bytes value rest tail hread
  by_cases htest : test
  · simp only [if_pos htest] at hread ⊢
    exact hleft tail hread
  · simp only [if_neg htest] at hread ⊢
    exact hright tail hread

end Bytes

namespace MessagePack

namespace Token

open Bytes

theorem isLocal_readNumber? (width : Nat) : IsLocal (readNumber? width) :=
  (isLocal_splitAt? width).andThen fun digits => isLocal_some (Bytes.toNat digits)

theorem isLocal_readUint? (width : Nat) : IsLocal (readUint? width) :=
  (isLocal_readNumber? width).andThen fun number =>
    isLocal_some (Token.uint number.toUInt64)

theorem isLocal_readSint? (width : Nat) : IsLocal (readSint? width) :=
  (isLocal_readNumber? width).andThen fun number =>
    isLocal_some (Token.sint (Int64.ofInt (Int.bmod number (capacity width))))

theorem isLocal_readText? (size : Nat) : IsLocal (readText? size) :=
  (isLocal_splitAt? size).andThen fun content => isLocal_some (ofContent content)

theorem isLocal_readSizedText? (width : Nat) : IsLocal (readSizedText? width) :=
  (isLocal_readNumber? width).andThen isLocal_readText?

theorem isLocal_readSizedBin? (width : Nat) : IsLocal (readSizedBin? width) :=
  (isLocal_readNumber? width).andThen fun size =>
    (isLocal_splitAt? size).andThen fun content => isLocal_some (Token.bin content)

theorem isLocal_readExt? (size : Nat) : IsLocal (readExt? size) := by
  intro bytes value rest tail hread
  cases bytes with
  | nil => cases hread
  | cons kind bytes =>
    have hcontent : IsLocal fun bytes =>
        splitAt? size bytes >>= fun found => some (Token.ext kind found.1, found.2) :=
      (isLocal_splitAt? size).andThen fun content =>
        isLocal_some (Token.ext kind content)
    exact hcontent tail hread

theorem isLocal_readSizedExt? (width : Nat) : IsLocal (readSizedExt? width) :=
  (isLocal_readNumber? width).andThen isLocal_readExt?

theorem isLocal_readHeader? (header : Nat → Token) (width : Nat) :
    IsLocal (readHeader? header width) :=
  (isLocal_readNumber? width).andThen fun size => isLocal_some (header size)

theorem isLocal_readLong? (lead : Nat) : IsLocal (readLong? lead) := by
  unfold readLong?
  split
  · exact isLocal_some Token.nil
  · exact isLocal_some (Token.bool false)
  · exact isLocal_some (Token.bool true)
  · exact isLocal_readSizedBin? 1
  · exact isLocal_readSizedBin? 2
  · exact isLocal_readSizedBin? 4
  · exact isLocal_readSizedExt? 1
  · exact isLocal_readSizedExt? 2
  · exact isLocal_readSizedExt? 4
  · exact (isLocal_readNumber? 4).andThen fun bits =>
      isLocal_some (Token.float (.ofSingle bits.toUInt32))
  · exact (isLocal_readNumber? 8).andThen fun bits =>
      isLocal_some (Token.float ⟨bits.toUInt64⟩)
  · exact isLocal_readUint? 1
  · exact isLocal_readUint? 2
  · exact isLocal_readUint? 4
  · exact isLocal_readUint? 8
  · exact isLocal_readSint? 1
  · exact isLocal_readSint? 2
  · exact isLocal_readSint? 4
  · exact isLocal_readSint? 8
  · exact isLocal_readExt? 1
  · exact isLocal_readExt? 2
  · exact isLocal_readExt? 4
  · exact isLocal_readExt? 8
  · exact isLocal_readExt? 16
  · exact isLocal_readSizedText? 1
  · exact isLocal_readSizedText? 2
  · exact isLocal_readSizedText? 4
  · exact isLocal_readHeader? .array 2
  · exact isLocal_readHeader? .array 4
  · exact isLocal_readHeader? .map 2
  · exact isLocal_readHeader? .map 4
  · exact isLocal_none

/-- A token is read from its own bytes. -/
theorem isLocal_read? : IsLocal read? := by
  intro bytes token rest tail hread
  cases bytes with
  | nil => cases hread
  | cons first bytes =>
    have hlead : IsLocal fun bytes => read? (first :: bytes) :=
      (isLocal_some (Token.uint first.toUInt64)).ite <|
        (isLocal_some (Token.map (first.toNat - 0x80))).ite <|
        (isLocal_some (Token.array (first.toNat - 0x90))).ite <|
        (isLocal_readText? (first.toNat - 0xA0)).ite <|
        (isLocal_readLong? first.toNat).ite <|
        isLocal_some (Token.sint (Int64.ofInt (first.toNat - 256 : Int)))
    exact hlead tail hread

end Token

/-! ## Readers that know their own faults -/

section Verdicts

variable {α β : Type}

/-- A verdict other than "malformed" stands, whatever follows: there were enough
bytes for it. -/
def IsDecisive (item : Bytes → Except Fault (α × Bytes)) : Prop :=
  ∀ bytes tail, item bytes ≠ .error .malformed →
    item (bytes ++ tail) =
      (item bytes).map fun found => (found.1, found.2 ++ tail)

theorem isDecisive_ok (value : α) :
    IsDecisive fun bytes => .ok (value, bytes) := fun _ _ _ => rfl

theorem isDecisive_error (fault : Fault) :
    IsDecisive fun _ => (.error fault : Except Fault (α × Bytes)) :=
  fun _ _ _ => rfl

theorem IsDecisive.andThen {item : Bytes → Except Fault (α × Bytes)}
    {next : α → Bytes → Except Fault (β × Bytes)} (hitem : IsDecisive item)
    (hnext : ∀ value, IsDecisive (next value)) :
    IsDecisive fun bytes => item bytes >>= fun found => next found.1 found.2 := by
  intro bytes tail hverdict
  cases hread : item bytes with
  | error fault =>
    have hfault : item bytes ≠ .error .malformed := by
      intro hmalformed
      apply hverdict
      simp only [hmalformed, bind, Except.bind]
    simp only [hitem bytes tail hfault, hread, bind, Except.bind, Except.map]
  | ok found =>
    have hfound : item bytes ≠ .error .malformed := by
      rw [hread]
      intro hfault
      cases hfault
    have hlater : next found.1 found.2 ≠ .error .malformed := by
      simpa only [hread, bind, Except.bind] using hverdict
    simp only [hitem bytes tail hfound, hread, bind, Except.bind, Except.map]
    exact hnext found.1 found.2 tail hlater

theorem IsDecisive.ite {left right : Bytes → Except Fault (α × Bytes)}
    (hleft : IsDecisive left) (hright : IsDecisive right) {test : Prop}
    [Decidable test] :
    IsDecisive fun bytes => if test then left bytes else right bytes := by
  intro bytes tail hverdict
  by_cases htest : test
  · simp only [if_pos htest] at hverdict ⊢
    exact hleft bytes tail hverdict
  · simp only [if_neg htest] at hverdict ⊢
    exact hright bytes tail hverdict

theorem isDecisive_readToken : IsDecisive readToken := by
  intro bytes tail hverdict
  rw [readToken] at hverdict ⊢
  cases hread : Token.read? bytes with
  | none =>
    rw [hread] at hverdict
    exact absurd rfl hverdict
  | some found =>
    rw [Token.isLocal_read? tail hread, readToken, hread]
    rfl

theorem isDecisive_readPair {left : Bytes → Except Fault (α × Bytes)}
    {right : Bytes → Except Fault (β × Bytes)} (hleft : IsDecisive left)
    (hright : IsDecisive right) : IsDecisive (readPair left right) :=
  hleft.andThen fun a => hright.andThen fun b => isDecisive_ok (a, b)

theorem isDecisive_times {item : Bytes → Except Fault (α × Bytes)}
    (hitem : IsDecisive item) (count : Nat) : IsDecisive (times item count) := by
  induction count with
  | zero => exact isDecisive_ok []
  | succ count ih =>
    have hboth := hitem.andThen fun value =>
      ih.andThen fun values => isDecisive_ok (value :: values)
    have hsame : times item (count + 1) = fun bytes =>
        item bytes >>= fun found =>
          times item count found.2 >>= fun others =>
            .ok (found.1 :: others.1, others.2) := by
      funext bytes
      rw [times_succ]
      cases item bytes with
      | error fault => rfl
      | ok found =>
        cases hothers : times item count found.2 <;>
          simp only [bind, Except.bind, hothers]
    rw [hsame]
    exact hboth

/-! ## Payloads -/

variable {item : Bytes → Except Fault (α × Bytes)} {bytes : Bytes} {value : α}

theorem exactly_eq_ok_iff :
    exactly item bytes = .ok value ↔ item bytes = .ok (value, []) := by
  rw [exactly, bind_eq_ok_iff]
  constructor
  · rintro ⟨⟨found, rest⟩, hread, hend⟩
    simp only at hend
    split at hend
    · cases hend
      subst rest
      exact hread
    · cases hend
  · intro hread
    exact ⟨(value, []), hread, rfl⟩

/-- What follows a payload is left over. -/
theorem exactly_append (hitem : IsDecisive item)
    (hread : exactly item bytes = .ok value) {tail : Bytes} (htail : tail ≠ []) :
    exactly item (bytes ++ tail) = .error (.trailing tail.length) := by
  rw [exactly_eq_ok_iff] at hread
  have hverdict : item bytes ≠ .error .malformed := by
    rw [hread]
    intro hfault
    cases hfault
  simp only [exactly, hitem bytes tail hverdict, hread, Except.map, bind,
    Except.bind, List.nil_append, if_neg htail]

/-- No payload is the beginning of another one: of its own bytes a reader needs
all. -/
theorem exactly_of_append (hitem : IsDecisive item) {tail : Bytes}
    (hread : exactly item (bytes ++ tail) = .ok value) (htail : tail ≠ []) :
    exactly item bytes = .error .malformed := by
  rw [exactly_eq_ok_iff] at hread
  by_cases hmalformed : item bytes = .error .malformed
  · simp only [exactly, hmalformed, bind, Except.bind]
  · have hwhole := (hitem bytes tail hmalformed).symm.trans hread
    cases hshort : item bytes with
    | error fault =>
      rw [hshort] at hwhole
      cases hwhole
    | ok found =>
      rw [hshort] at hwhole
      have hrest : found.2 ++ tail = [] := congrArg Prod.snd (Except.ok.inj hwhole)
      exact absurd (List.append_eq_nil_iff.mp hrest).2 htail

end Verdicts

end MessagePack

/-! ## Trees -/

namespace Wire

open MessagePack

theorem isDecisive_readContent
    {nested : Option (Bytes → Except Fault (Wire × Bytes))}
    (hnested : ∀ item, nested = some item → IsDecisive item) (token : Token) :
    IsDecisive (readContent nested token) := by
  cases token with
  | nil => exact isDecisive_ok nil
  | bool truth => exact isDecisive_ok (bool truth)
  | uint number =>
    exact (isDecisive_ok (int number.toInt64)).ite
      (isDecisive_error (.outOfRange number))
  | sint number => exact isDecisive_ok (int number)
  | float number => exact isDecisive_ok (float number)
  | str text => exact isDecisive_ok (str text)
  | bin content => exact isDecisive_ok (bin content)
  | ext kind content => exact isDecisive_error .malformed
  | array size =>
    cases nested with
    | none => exact isDecisive_error .tooDeep
    | some item =>
      exact (isDecisive_times (hnested item rfl) size).andThen fun items =>
        isDecisive_ok (array items)
  | map size =>
    cases nested with
    | none => exact isDecisive_error .tooDeep
    | some item =>
      have hitem := hnested item rfl
      have hentry := isDecisive_readPair hitem hitem
      exact (isDecisive_times hentry size).andThen fun entries =>
        isDecisive_ok (map entries)

/-- By induction on the levels: what is inside is read with one level less. -/
theorem isDecisive_read (levels : Nat) : IsDecisive (read levels) := by
  induction levels with
  | zero =>
    refine isDecisive_readToken.andThen (isDecisive_readContent fun item hitem => ?_)
    cases hitem
  | succ levels ih =>
    refine isDecisive_readToken.andThen (isDecisive_readContent fun item hitem => ?_)
    cases hitem
    exact ih

/-- A tree is read back from its bytes as long as it is not nested too deeply;
otherwise, wherever in it that is, they are malformed for this reason.  A payload
that holds a tree is refused as malformed when bytes are missing at its end, and
for what is left over when bytes follow it. -/
theorem readExact_delimits :
    (∀ wire : Wire, wire.write.length < Bytes.capacity 4 →
      (wire.depth ≤ maxNestingDepth → readExact wire.write = .ok wire)
      ∧ (maxNestingDepth < wire.depth →
        readExact wire.write = .error .tooDeep))
    ∧ ∀ bytes wire, readExact bytes = .ok wire →
      (∀ front, front <+: bytes → front ≠ bytes →
        readExact front = .error .malformed)
      ∧ ∀ more, more ≠ [] →
        readExact (bytes ++ more) = .error (.trailing more.length) := by
  refine ⟨fun wire hsize => ⟨fun hdepth => ?_, fun hdepth => ?_⟩,
    fun bytes wire hread => ⟨?_, fun more => ?_⟩⟩
  · apply exactly_eq_ok
    simpa using read_write_append wire maxNestingDepth [] hdepth hsize
  · have hrefused :=
      read_write_append_of_lt wire maxNestingDepth [] hdepth hsize
    rw [List.append_nil] at hrefused
    simp only [readExact, exactly, hrefused, bind, Except.bind]
  · rintro front ⟨missing, rfl⟩ hproper
    apply exactly_of_append (isDecisive_read maxNestingDepth) hread
    rintro rfl
    exact hproper (List.append_nil front).symm
  · exact exactly_append (isDecisive_read maxNestingDepth) hread

/-- Maps inside one another's keys. -/
def keysOf : Nat → Wire
  | 0 => float .nan
  | levels + 1 => map [(keysOf levels, nil)]

theorem readExact_delimits_keysOf :
    readExact (keysOf 64).write = .ok (keysOf 64)
      ∧ readExact (keysOf 65).write = .error .tooDeep
      ∧ readExact (keysOf 64).write.dropLast = .error .malformed
      ∧ readExact ((keysOf 64).write ++ [0xC0, 0xC0]) = .error (.trailing 2) := by
  obtain ⟨htrees, hpayloads⟩ := readExact_delimits
  have hread := (htrees (keysOf 64) (by decide +kernel)).1 (by decide +kernel)
  obtain ⟨hshorter, hmore⟩ := hpayloads (keysOf 64).write (keysOf 64) hread
  exact ⟨hread,
    (htrees (keysOf 65) (by decide +kernel)).2 (by decide +kernel),
    hshorter _ (List.dropLast_prefix _) (by decide +kernel),
    hmore [0xC0, 0xC0] (by decide +kernel)⟩

end Wire

end Colloquy
