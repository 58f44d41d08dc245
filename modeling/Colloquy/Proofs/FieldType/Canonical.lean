import Colloquy.Proofs.FieldType.Reading
import Mathlib.Logic.Function.Iterate

/-!
# One reading settles a value

What a well-formed type reads belongs to it, what is written of its values is
read, and a value that was read once is read again as it is.  For the last, the
tree that is written of a value is compared with the tree that it was read from:
sets are listed in order and records in the order of declaration.  A type that
reads the second tree reads the first one too, so that a union member which was
passed over is passed over again.
-/

namespace Colloquy.FieldType

variable {type : FieldType} {wire : Wire} {value : Value}

/-! ## Values that are read -/

theorem isProper_of_admits {kind : Scalar} (hadmits : kind.admits value = true) :
    value.IsProper := by
  cases kind <;> cases value <;> trivial

/-- What is read at a type belongs to it. -/
theorem IsWellFormed.validate_of_interpret (hwell : type.IsWellFormed)
    (hread : type.interpret wire = .ok value) :
    type.validate value = .ok () ∧ value.IsProper := by
  induction hwell generalizing wire value with
  | scalar kind =>
    obtain ⟨rfl, hadmits⟩ := interpret_scalar_eq_ok_iff.mp hread
    exact ⟨validate_scalar_eq_ok_iff.mpr hadmits, isProper_of_admits hadmits⟩
  | optional _ ih =>
    rcases interpret_optional_eq_ok_iff.mp hread with
      ⟨rfl, rfl⟩ | ⟨before, found, rfl, hfound, rfl⟩
    · exact ⟨rfl, trivial⟩
    · exact ih hfound
  | union _ ih =>
    obtain ⟨earlier, member, later, rfl, -, hmember⟩ :=
      interpret_union_eq_ok_iff.mp hread
    have hmem : member ∈ earlier ++ member :: later := by simp
    obtain ⟨hvalid, hproper⟩ := ih member hmem hmember
    exact ⟨validate_union_eq_ok_iff.mpr ⟨member, hmem, hvalid⟩, hproper⟩
  | set kind =>
    obtain ⟨keys, rfl, rfl, -, hadmits⟩ := interpret_set_eq_ok_iff.mp hread
    refine ⟨forM_eq_ok_iff.mpr fun key hmem => ?_, Key.increasing_sort keys⟩
    exact validateKey_scalar_iff.mpr (hadmits key (Key.mem_sort_iff.mp hmem))
  | @list element _ ih =>
    obtain ⟨items, values, rfl, rfl, hitems⟩ := interpret_list_eq_ok_iff.mp hread
    have hvalues : ∀ value ∈ values, element.validate value = .ok ()
        ∧ value.IsProper := by
      intro value hmem
      obtain ⟨item, -, hitem⟩ := exists_left_of_mem hitems hmem
      exact ih hitem
    exact ⟨forM_eq_ok_iff.mpr fun value hmem => (hvalues value hmem).1,
      Value.areProper_iff.mpr fun value hmem => (hvalues value hmem).2⟩
  | @dict kind content _ ih =>
    obtain ⟨before, entries, rfl, rfl, hnodup, hentries⟩ :=
      interpret_dict_eq_ok_iff.mp hread
    have hvalues : ∀ entry ∈ entries, kind.admits entry.1.toValue = true
        ∧ content.validate entry.2 = .ok () ∧ entry.2.IsProper := by
      intro entry hmem
      obtain ⟨found, -, -, hadmits, hvalue⟩ := exists_left_of_mem hentries hmem
      exact ⟨hadmits, ih hvalue⟩
    refine ⟨validate_dict_eq_ok_iff.mpr fun entry hmem => ?_, hnodup,
      Value.areProperEntries_iff.mpr fun entry hmem => (hvalues entry hmem).2.2⟩
    obtain ⟨hadmits, hvalid, -⟩ := hvalues entry hmem
    exact ⟨validateKey_scalar_iff.mpr hadmits, hvalid⟩
  | struct name hnodup _ ih =>
    obtain ⟨before, values, rfl, rfl, -, hfields⟩ :=
      interpret_struct_eq_ok_iff.mp hread
    refine ⟨validate_struct_eq_ok_iff.mpr ((forall₂_with_mem hfields).imp ?_),
      Value.areProperFields_iff.mpr fun entry hmem => ?_⟩
    · rintro field entry ⟨hfield, -, hname, found, -, hvalue⟩
      exact ⟨hname, (ih field hfield hvalue).1⟩
    · obtain ⟨field, hfield, -, found, -, hvalue⟩ :=
        exists_left_of_mem hfields hmem
      exact (ih field hfield hvalue).2

/-! ## Trees that are written -/

/-- Everything written of a value of the type is read, if not always as that
value. -/
theorem IsWellFormed.reads_of_validate (hwell : type.IsWellFormed)
    (hproper : value.IsProper) (hvalid : type.validate value = .ok ()) :
    type.Reads value.toWire := by
  induction hwell generalizing value with
  | scalar kind =>
    have hadmits := validate_scalar_eq_ok_iff.mp hvalid
    exact ⟨value, interpret_scalar_eq_ok_iff.mpr ⟨rfl, hadmits⟩⟩
  | optional _ ih =>
    cases value with
    | optional inner =>
      cases inner with
      | none => exact ⟨.absent, rfl⟩
      | some inner =>
        have hinner : inner.IsProper := hproper
        obtain ⟨found, hfound⟩ := ih hinner hvalid
        exact ⟨.present found, interpret_optional_eq_ok_iff.mpr
          (Or.inr ⟨inner.toWire, found, rfl, hfound, rfl⟩)⟩
    | _ => cases hvalid
  | union _ ih =>
    obtain ⟨member, hmem, hmember⟩ := validate_union_eq_ok_iff.mp hvalid
    exact reads_union_iff.mpr ⟨member, hmem, ih member hmem hproper hmember⟩
  | set kind =>
    cases value with
    | set keys =>
      refine reads_set_iff.mpr ⟨keys, rfl, Key.nodup_of_increasing hproper, ?_⟩
      intro key hmem
      exact validateKey_scalar_iff.mp (forM_eq_ok_iff.mp hvalid key hmem)
    | _ => cases hvalid
  | list _ ih =>
    cases value with
    | list items =>
      rw [Value.toWire, Value.toWireItems_eq_map]
      refine reads_list_iff.mpr ⟨_, rfl, ?_⟩
      intro wire hmem
      obtain ⟨item, hitem, rfl⟩ := List.mem_map.mp hmem
      exact ih (Value.areProper_iff.mp hproper item hitem)
        (forM_eq_ok_iff.mp hvalid item hitem)
    | _ => cases hvalid
  | dict kind _ ih =>
    cases value with
    | dict entries =>
      rw [validate_dict_eq_ok_iff] at hvalid
      refine reads_dict_iff.mpr ⟨_, rfl, ?_, fun found hmem => ?_⟩
      · rw [keys_toWireEntries]
        exact List.Nodup.map Key.toWire_injective hproper.1
      · rw [Value.toWireEntries_eq_map] at hmem
        obtain ⟨entry, hentry, rfl⟩ := List.mem_map.mp hmem
        obtain ⟨hkey, hvalue⟩ := hvalid entry hentry
        exact ⟨⟨entry.1, rfl, validateKey_scalar_iff.mp hkey⟩,
          ih (Value.areProperEntries_iff.mp hproper.2 entry hentry) hvalue⟩
    | _ => cases hvalid
  | struct name hnodup _ ih =>
    cases value with
    | struct values =>
      have hfields := validate_struct_eq_ok_iff.mp hvalid
      have hnames := map_eq_map_of_forall₂ hfields
      refine (reads_struct_iff hnodup).mpr
        ⟨_, rfl, ?_, fun field hmem => ?_⟩
      · rw [keys_toWireFields, ← hnames]
      · obtain ⟨⟨_, content⟩, hvalue, rfl, hcontent⟩ :=
          exists_right_of_mem hfields hmem
        rw [Value.toWireFields_eq_map]
        refine ⟨content.toWire, List.mem_map.mpr ⟨_, hvalue, rfl⟩, ?_⟩
        exact ih field hmem (Value.areProperFields_iff.mp hproper _ hvalue)
          hcontent
    | _ => cases hvalid

/-! ## Rewritten trees -/

/-- Wire trees before and after one reading: items keep their places, keys of a
set are listed in order, entries of a map may change places. -/
inductive Rewritten : Wire → Wire → Prop
  | same (wire : Wire) : Rewritten wire wire
  | items {before after : List Wire}
    (hitems : List.Forall₂ Rewritten before after) :
    Rewritten (.array before) (.array after)
  | sorted {keys : List Key} (hnodup : keys.Nodup) :
    Rewritten (.array (keys.map Key.toWire))
      (.array ((Key.sort keys).map Key.toWire))
  | entries {before after : List (Wire × Wire)}
    (hkeys : (before.map Prod.fst).Perm (after.map Prod.fst))
    (hvalues : ∀ key left right, (key, left) ∈ before → (key, right) ∈ after →
      Rewritten left right) :
    Rewritten (.map before) (.map after)

theorem eq_of_mem_of_nodup_keys {entries : List (Wire × Wire)}
    (hnodup : (entries.map Prod.fst).Nodup) {key left right : Wire}
    (hleft : (key, left) ∈ entries) (hright : (key, right) ∈ entries) :
    left = right := by
  have heq := List.inj_on_of_nodup_map hnodup hleft hright rfl
  exact congrArg Prod.snd heq

/-- What a type reads is rewritten into what is written of its value. -/
theorem IsWellFormed.rewritten (hwell : type.IsWellFormed)
    (hread : type.interpret wire = .ok value) : Rewritten wire value.toWire := by
  induction hwell generalizing wire value with
  | scalar kind =>
    obtain ⟨rfl, -⟩ := interpret_scalar_eq_ok_iff.mp hread
    exact .same _
  | optional _ ih =>
    rcases interpret_optional_eq_ok_iff.mp hread with
      ⟨rfl, rfl⟩ | ⟨before, found, rfl, hfound, rfl⟩
    · exact .same _
    · exact .items (.cons (.same _) (.cons (ih hfound) .nil))
  | union _ ih =>
    obtain ⟨earlier, member, later, rfl, -, hmember⟩ :=
      interpret_union_eq_ok_iff.mp hread
    exact ih member (by simp) hmember
  | set kind =>
    obtain ⟨keys, rfl, rfl, hnodup, -⟩ := interpret_set_eq_ok_iff.mp hread
    exact .sorted hnodup
  | list _ ih =>
    obtain ⟨items, values, rfl, rfl, hitems⟩ := interpret_list_eq_ok_iff.mp hread
    rw [Value.toWire, Value.toWireItems_eq_map]
    refine .items (List.forall₂_map_right_iff.mpr (hitems.imp ?_))
    exact fun item value hitem => ih hitem
  | dict kind _ ih =>
    obtain ⟨before, entries, rfl, rfl, hnodup, hentries⟩ :=
      interpret_dict_eq_ok_iff.mp hread
    have hafter := List.Nodup.map Key.toWire_injective hnodup
    rw [← keys_toWireEntries] at hafter
    refine .entries (.of_eq ?_) fun key left right hleft hright => ?_
    · rw [keys_of_entries hentries, keys_toWireEntries]
    · obtain ⟨entry, hmem, hkey, -, hvalue⟩ := exists_right_of_mem hentries hleft
      have hentry : (key, entry.2.toWire) ∈ Value.toWireEntries entries := by
        rw [Value.toWireEntries_eq_map]
        exact List.mem_map.mpr ⟨entry, hmem, by rw [← hkey]⟩
      rw [eq_of_mem_of_nodup_keys hafter hright hentry]
      exact ih hvalue
  | @struct name fields hnodup _ ih =>
    obtain ⟨before, values, rfl, rfl, hlength, hfields⟩ :=
      interpret_struct_eq_ok_iff.mp hread
    have hkeys := keys_of_fields hnodup hlength hfields
    have hnames := List.Nodup.map (fun _ _ => Wire.str.inj) hnodup
    have hafter : (Value.toWireFields values).map Prod.fst
        = (fields.map Prod.fst).map Wire.str := by
      rw [keys_toWireFields, map_eq_map_of_forall₂ hfields]
    refine .entries (hafter ▸ hkeys) fun key left right hleft hright => ?_
    rw [Value.toWireFields_eq_map] at hright
    obtain ⟨⟨name, content⟩, hmem, heq⟩ := List.mem_map.mp hright
    cases heq
    obtain ⟨field, hfield, hname, found, hfound, hvalue⟩ :=
      exists_left_of_mem hfields hmem
    rw [hname] at hfound
    rw [eq_of_mem_of_nodup_keys (hkeys.nodup_iff.mpr hnames) hleft
      (mem_of_findField hfound)]
    exact ih field hfield hvalue

theorem kind_of_admits_ne {kind : Scalar} (hadmits : kind.admits value = true) :
    value.toWire.kind ≠ .array ∧ value.toWire.kind ≠ .map := by
  cases kind <;> cases value <;>
    simp_all [Scalar.admits, Value.toWire, Wire.kind]

/-- Only arrays and maps are rewritten. -/
theorem Rewritten.eq_of_kind {before after : Wire}
    (hrewritten : Rewritten before after) (harray : after.kind ≠ .array)
    (hmap : after.kind ≠ .map) : before = after := by
  cases hrewritten with
  | same => rfl
  | items => exact absurd rfl harray
  | sorted => exact absurd rfl harray
  | entries => exact absurd rfl hmap

theorem Rewritten.eq_of_key {before : Wire} {key : Key}
    (hrewritten : Rewritten before key.toWire) : before = key.toWire := by
  cases key <;> exact hrewritten.eq_of_kind Wire.Kind.noConfusion
    Wire.Kind.noConfusion

theorem Rewritten.eq_of_keys {before : List Wire} {keys : List Key}
    (hrewritten : List.Forall₂ Rewritten before (keys.map Key.toWire)) :
    before = keys.map Key.toWire := by
  rw [List.forall₂_map_right_iff] at hrewritten
  rw [← List.forall₂_eq_eq_eq, List.forall₂_map_right_iff]
  exact hrewritten.imp fun _ _ hkey => hkey.eq_of_key

theorem Rewritten.exists_array {before : Wire} {items : List Wire}
    (hrewritten : Rewritten before (.array items)) :
    (∃ earlier, before = .array earlier
        ∧ List.Forall₂ Rewritten earlier items)
      ∨ ∃ keys : List Key, before = .array (keys.map Key.toWire)
        ∧ items = (Key.sort keys).map Key.toWire ∧ keys.Nodup := by
  generalize hafter : Wire.array items = after at hrewritten
  cases hrewritten with
  | same =>
    exact Or.inl ⟨items, hafter.symm,
      List.forall₂_same.mpr fun item _ => .same item⟩
  | items hitems =>
    cases hafter
    exact Or.inl ⟨_, rfl, hitems⟩
  | sorted hnodup =>
    cases hafter
    exact Or.inr ⟨_, rfl, rfl, hnodup⟩
  | entries => cases hafter

theorem Rewritten.exists_map {before : Wire} {entries : List (Wire × Wire)}
    (hrewritten : Rewritten before (.map entries))
    (hnodup : (entries.map Prod.fst).Nodup) :
    ∃ earlier, before = .map earlier
      ∧ (earlier.map Prod.fst).Perm (entries.map Prod.fst)
      ∧ ∀ key left right, (key, left) ∈ earlier → (key, right) ∈ entries →
        Rewritten left right := by
  generalize hafter : Wire.map entries = after at hrewritten
  cases hrewritten with
  | same =>
    refine ⟨entries, hafter.symm, .refl _, fun key left right hleft hright => ?_⟩
    rw [eq_of_mem_of_nodup_keys hnodup hleft hright]
    exact .same right
  | items => cases hafter
  | sorted => cases hafter
  | entries hkeys hvalues =>
    cases hafter
    exact ⟨_, rfl, hkeys, hvalues⟩

theorem map_toWire_inj {left right : List Key} :
    left.map Key.toWire = right.map Key.toWire ↔ left = right :=
  (List.map_injective_iff.mpr Key.toWire_injective).eq_iff

/-- What an optional reads is not a sorted set of keys, unless it was sorted
before. -/
theorem reads_optional_of_rewritten {inner : FieldType} {before after : Wire}
    (hinner : ∀ {earlier later : Wire}, Rewritten earlier later →
      inner.Reads later → inner.Reads earlier)
    (hrewritten : Rewritten before after)
    (hreads : (optional inner).Reads after) :
    (optional inner).Reads before := by
  rcases reads_optional_iff.mp hreads with rfl | ⟨content, rfl, hcontent⟩
  · rcases hrewritten.exists_array with
      ⟨earlier, rfl, hitems⟩ | ⟨keys, rfl, hkeys, hnodup⟩
    · have hfalse : earlier = [Key.bool false].map Key.toWire :=
        Rewritten.eq_of_keys hitems
      rw [hfalse]
      exact hreads
    · have hsorted : [Key.bool false] = Key.sort keys := map_toWire_inj.mp hkeys
      have hperm := Key.perm_sort hnodup
      rw [← hsorted, List.perm_singleton] at hperm
      rw [hperm]
      exact hreads
  · rcases hrewritten.exists_array with
      ⟨earlier, rfl, hitems⟩ | ⟨keys, rfl, hkeys, -⟩
    · obtain ⟨flag, _, hflag, hrest, rfl⟩ := List.forall₂_cons_right_iff.mp hitems
      obtain ⟨inside, _, hinside, hnil, rfl⟩ :=
        List.forall₂_cons_right_iff.mp hrest
      cases hnil
      have htrue : flag = (Key.bool true).toWire := hflag.eq_of_key
      rw [htrue]
      exact reads_optional_iff.mpr
        (Or.inr ⟨inside, rfl, hinner hinside hcontent⟩)
    · -- A set that begins with a true key, its largest, has no second element.
      obtain ⟨flag, _, hsorted, hflag, hrest⟩ := List.map_eq_cons_iff.mp hkeys.symm
      obtain ⟨other, _, rfl, -, -⟩ := List.map_eq_cons_iff.mp hrest
      have htrue : flag = .bool true := Key.toWire_injective hflag
      have hincreasing := Key.increasing_sort keys
      rw [hsorted, htrue] at hincreasing
      have hlt := List.rel_of_pairwise_cons hincreasing List.mem_cons_self
      exact absurd hlt (Key.compare_bool_true_ne_lt other)

/-- A type that reads the tree after a reading reads the one before it, too. -/
theorem IsWellFormed.reads_of_rewritten (hwell : type.IsWellFormed)
    {before after : Wire} (hrewritten : Rewritten before after)
    (hreads : type.Reads after) : type.Reads before := by
  induction hwell generalizing before after with
  | scalar kind =>
    obtain ⟨value, hread⟩ := hreads
    obtain ⟨rfl, hadmits⟩ := interpret_scalar_eq_ok_iff.mp hread
    obtain ⟨harray, hmap⟩ := kind_of_admits_ne hadmits
    rw [hrewritten.eq_of_kind harray hmap]
    exact ⟨value, hread⟩
  | optional _ ih => exact reads_optional_of_rewritten ih hrewritten hreads
  | union _ ih =>
    obtain ⟨member, hmem, hmember⟩ := reads_union_iff.mp hreads
    exact reads_union_iff.mpr ⟨member, hmem, ih member hmem hrewritten hmember⟩
  | set kind =>
    obtain ⟨keys, rfl, hnodup, hadmits⟩ := reads_set_iff.mp hreads
    rcases hrewritten.exists_array with
      ⟨earlier, rfl, hitems⟩ | ⟨others, rfl, hkeys, hothers⟩
    · rw [Rewritten.eq_of_keys hitems]
      exact hreads
    · rw [map_toWire_inj] at hkeys
      subst hkeys
      exact reads_set_iff.mpr ⟨others, rfl, hothers, fun key hmem =>
        hadmits key (Key.mem_sort_iff.mpr hmem)⟩
  | list _ ih =>
    obtain ⟨items, rfl, hitems⟩ := reads_list_iff.mp hreads
    rcases hrewritten.exists_array with
      ⟨earlier, rfl, hrest⟩ | ⟨keys, rfl, rfl, -⟩
    · refine reads_list_iff.mpr ⟨earlier, rfl, fun item hmem => ?_⟩
      obtain ⟨later, hlater, hitem⟩ := exists_right_of_mem hrest hmem
      exact ih hitem (hitems later hlater)
    · refine reads_list_iff.mpr ⟨_, rfl, fun item hmem => hitems item ?_⟩
      obtain ⟨key, hkey, rfl⟩ := List.mem_map.mp hmem
      exact List.mem_map_of_mem (Key.mem_sort_iff.mpr hkey)
  | dict kind _ ih =>
    obtain ⟨entries, rfl, hnodup, hentries⟩ := reads_dict_iff.mp hreads
    obtain ⟨earlier, rfl, hkeys, hvalues⟩ := hrewritten.exists_map hnodup
    refine reads_dict_iff.mpr
      ⟨earlier, rfl, hkeys.nodup_iff.mpr hnodup, fun found hmem => ?_⟩
    obtain ⟨⟨_, later⟩, hlater, rfl⟩ := List.mem_map.mp
      (hkeys.mem_iff.mp (List.mem_map_of_mem hmem))
    obtain ⟨hkey, hvalue⟩ := hentries _ hlater
    exact ⟨hkey, ih (hvalues _ _ _ hmem hlater) hvalue⟩
  | struct name hnodup _ ih =>
    obtain ⟨entries, rfl, hnames, hentries⟩ := (reads_struct_iff hnodup).mp hreads
    have hentryKeys := hnames.nodup_iff.mpr
      (List.Nodup.map (fun _ _ => Wire.str.inj) hnodup)
    obtain ⟨earlier, rfl, hkeys, hvalues⟩ := hrewritten.exists_map hentryKeys
    refine (reads_struct_iff hnodup).mpr
      ⟨earlier, rfl, hkeys.trans hnames, fun field hmem => ?_⟩
    obtain ⟨later, hlater, hread⟩ := hentries field hmem
    obtain ⟨⟨_, found⟩, hfound, rfl⟩ := List.mem_map.mp
      (hkeys.mem_iff.mpr (List.mem_map_of_mem hlater))
    exact ⟨found, hfound, ih field hmem (hvalues _ _ _ hfound hlater) hread⟩

/-! ## Reading again -/

/-- What a value was read as, it is read as again. -/
theorem IsWellFormed.interpret_toWire (hwell : type.IsWellFormed)
    (hread : type.interpret wire = .ok value) :
    type.interpret value.toWire = .ok value := by
  induction hwell generalizing wire value with
  | scalar kind =>
    obtain ⟨rfl, -⟩ := interpret_scalar_eq_ok_iff.mp hread
    exact hread
  | optional _ ih =>
    rcases interpret_optional_eq_ok_iff.mp hread with
      ⟨rfl, rfl⟩ | ⟨before, found, rfl, hfound, rfl⟩
    · rfl
    · exact interpret_optional_toWire (ih hfound)
  | union hmembers ih =>
    obtain ⟨earlier, member, later, rfl, hothers, hmember⟩ :=
      interpret_union_eq_ok_iff.mp hread
    have hmem : member ∈ earlier ++ member :: later := by simp
    -- A member passed over reads what is written now only if it would have read
    -- what stood there before.
    refine interpret_union_eq_ok_iff.mpr
      ⟨earlier, member, later, rfl, fun other hother hreads => ?_,
        ih member hmem hmember⟩
    have hwell := hmembers other (List.mem_append_left _ hother)
    exact hothers other hother (hwell.reads_of_rewritten
      ((hmembers member hmem).rewritten hmember) hreads)
  | set kind =>
    obtain ⟨keys, rfl, rfl, -, hadmits⟩ := interpret_set_eq_ok_iff.mp hread
    exact interpret_set_toWire (Key.increasing_sort keys) fun key hmem =>
      hadmits key (Key.mem_sort_iff.mp hmem)
  | list _ ih =>
    obtain ⟨items, values, rfl, rfl, hitems⟩ := interpret_list_eq_ok_iff.mp hread
    refine interpret_list_toWire fun value hmem => ?_
    obtain ⟨item, -, hitem⟩ := exists_left_of_mem hitems hmem
    exact ih hitem
  | dict kind _ ih =>
    obtain ⟨before, entries, rfl, rfl, hnodup, hentries⟩ :=
      interpret_dict_eq_ok_iff.mp hread
    refine interpret_dict_toWire hnodup fun entry hmem => ?_
    obtain ⟨found, -, -, hadmits, hvalue⟩ := exists_left_of_mem hentries hmem
    exact ⟨hadmits, ih hvalue⟩
  | struct name hnodup _ ih =>
    obtain ⟨before, values, rfl, rfl, -, hfields⟩ :=
      interpret_struct_eq_ok_iff.mp hread
    refine interpret_struct_toWire hnodup ((forall₂_with_mem hfields).imp ?_)
    rintro field entry ⟨hfield, -, hname, found, -, hvalue⟩
    exact ⟨hname, ih field hfield hvalue⟩

/-! ## The canonical value -/

/-- One more way to the wire and back. -/
def reread (type : FieldType) (result : Except TypeError Value) :
    Except TypeError Value := do
  let value ← result
  type.interpret value.toWire

/-- Reading at a well-formed type yields values of that type, reads whatever is
written of such values, and gives a value that no further passes change. -/
theorem interpret_canonical (hcheck : type.check = .ok ()) :
    (∀ wire value, type.interpret wire = .ok value →
      type.validate value = .ok () ∧ value.IsProper)
    ∧ (∀ value : Value, value.IsProper → type.validate value = .ok () →
      ∃ found, type.interpret value.toWire = .ok found)
    ∧ ∀ wire value, type.interpret wire = .ok value →
      type.interpret value.toWire = .ok value
        ∧ ∀ passes, (type.reread)^[passes] (.ok value) = .ok value := by
  have hwell := isWellFormed_of_check type hcheck
  refine ⟨fun wire value => hwell.validate_of_interpret,
    fun value => hwell.reads_of_validate, fun wire value hread => ?_⟩
  have hsettled := hwell.interpret_toWire hread
  exact ⟨hsettled, Function.iterate_fixed hsettled⟩

/-- Any list of numbers without repetitions is taken for a set. -/
def numbers : FieldType := union [set (scalar .int), list (scalar .int)]

/-- A list out of order comes back as a set, and stays one. -/
theorem interpret_canonical_numbers :
    numbers.check = .ok ()
      ∧ numbers.validate (.list [.int 2, .int 1]) = .ok ()
      ∧ numbers.interpret (.array [.int 2, .int 1])
        = .ok (.set [.int 1, .int 2])
      ∧ ∀ passes, (numbers.reread)^[passes] (.ok (.set [.int 1, .int 2]))
        = .ok (.set [.int 1, .int 2]) := by
  have hcheck : numbers.check = .ok () := by decide
  have hread : numbers.interpret (.array [.int 2, .int 1])
      = .ok (.set [.int 1, .int 2]) := rfl
  exact ⟨hcheck, rfl, hread, ((interpret_canonical hcheck).2.2 _ _ hread).2⟩

end Colloquy.FieldType
