import Colloquy.Proofs.FieldType.Membership
import Colloquy.Proofs.Message.Rebuild

/-!
# What building accepts

Building succeeds on the fields that conform to the schema of a performative,
and on no others.  Of what was given only the last value of each name enters,
so pairs of different names may change places, and a message is built again
from its own fields.
-/

namespace Colloquy

/-- A value as a field of the type holds it: of an optional field a bare value
counts as present. -/
def FieldType.wrap (type : FieldType) : Value → Value
  | .optional inner => .optional inner
  | value => if type.isOptional then .present value else value

theorem FieldType.wrap_wrap (type : FieldType) (value : Value) :
    type.wrap (type.wrap value) = type.wrap value := by
  by_cases hoptional : type.isOptional = true <;> cases value <;>
    simp [wrap, hoptional, Value.present]

theorem FieldType.holds_absent {type : FieldType}
    (hoptional : type.isOptional = true) : type.Holds .absent := by
  cases type with
  | optional inner => exact .absent inner
  | _ => cases hoptional

namespace Message

/-- The last of the values that were given under a name. -/
def IsLast (given : List (String × Value)) (name : String) (value : Value) :
    Prop :=
  ∃ before after, given = before ++ (name, value) :: after
    ∧ name ∉ after.map Prod.fst

/-- What was given makes up a speech act of the schema. -/
structure Conforms (schema : Schema) (given : List (String × Value)) : Prop where
  declared : ∀ name ∈ given.map Prod.fst, name ∈ schema.keys
  complete : ∀ name type, schema.get? name = some type →
    type.isOptional = false → name ∈ given.map Prod.fst
  fits : ∀ name type, schema.get? name = some type →
    ∀ value, IsLast given name value → type.Holds (type.wrap value)

/-- What a field holds in the end: the last value given for it, or that it was
left out. -/
inductive Completes (given : List (String × Value)) (name : String)
    (type : FieldType) : Value → Prop
  | last {value : Value} (hlast : IsLast given name value) :
      Completes given name type (type.wrap value)
  | absent (homitted : name ∉ given.map Prod.fst)
      (hoptional : type.isOptional = true) : Completes given name type .absent

variable {specification : Specification} {schema : Schema}
  {performative name : String} {given others : List (String × Value)}
  {routing : Routing} {type : FieldType} {value : Value}

/-! ## The last value of a name -/

theorem lookup_reverse_eq_some_iff :
    OrderedMap.lookup name given.reverse = some value ↔
      IsLast given name value := by
  rw [OrderedMap.lookup_eq_some_iff_first]
  constructor
  · rintro ⟨after, before, hgiven, hafter⟩
    refine ⟨before.reverse, after.reverse, ?_, by simpa using hafter⟩
    rw [List.reverse_eq_iff] at hgiven
    simpa using hgiven
  · rintro ⟨before, after, rfl, hafter⟩
    exact ⟨after.reverse, before.reverse, by simp, by simpa using hafter⟩

theorem lookup_reverse_eq_none_iff :
    OrderedMap.lookup name given.reverse = none ↔
      name ∉ given.map Prod.fst := by
  rw [OrderedMap.lookup_eq_none_iff, List.map_reverse, List.mem_reverse]

theorem IsLast.mem (hlast : IsLast given name value) :
    name ∈ given.map Prod.fst := by
  obtain ⟨before, after, rfl, -⟩ := hlast
  simp

theorem IsLast.unique {other : Value} (hlast : IsLast given name value)
    (hother : IsLast given name other) : other = value := by
  rw [← lookup_reverse_eq_some_iff] at hlast hother
  exact Option.some_inj.mp (hother.symm.trans hlast)

/-! ## Fields one by one -/

theorem completeField_some :
    completeField performative name type (some value) = .ok (type.wrap value) := by
  cases value <;> rfl

theorem completeField_eq_ok_iff_completes :
    completeField performative name type
        (OrderedMap.lookup name given.reverse) = .ok value ↔
      Completes given name type value := by
  constructor
  · intro hcomplete
    cases hfound : OrderedMap.lookup name given.reverse with
    | some last =>
      rw [hfound, completeField_some] at hcomplete
      cases hcomplete
      exact .last (lookup_reverse_eq_some_iff.mp hfound)
    | none =>
      rw [hfound, completeField] at hcomplete
      split at hcomplete
      · rename_i hoptional
        cases hcomplete
        exact .absent (lookup_reverse_eq_none_iff.mp hfound) hoptional
      · cases hcomplete
  · intro hcompletes
    cases hcompletes with
    | last hlast =>
      rw [lookup_reverse_eq_some_iff.mpr hlast, completeField_some]
    | absent homitted hoptional =>
      rw [lookup_reverse_eq_none_iff.mpr homitted, completeField,
        if_pos hoptional]

theorem buildField_eq_ok_iff_completes :
    buildField performative given name type = .ok value ↔
      Completes given name type value ∧ type.Holds value := by
  rw [buildField_eq_ok_iff, completeField_eq_ok_iff_completes,
    FieldType.validate_eq_ok_iff]

/-- What a field holds in the end is left as it is when it is given again. -/
theorem Completes.wrap_eq (hcompletes : Completes given name type value) :
    type.wrap value = value := by
  cases hcompletes with
  | last hlast => exact type.wrap_wrap _
  | absent homitted hoptional => rfl

/-! ## Conformance -/

theorem Conforms.exists_buildField (hconforms : Conforms schema given)
    (hfield : schema.get? name = some type) :
    ∃ value, buildField performative given name type = .ok value := by
  simp only [buildField_eq_ok_iff_completes]
  cases hfound : OrderedMap.lookup name given.reverse with
  | some last =>
    have hlast := lookup_reverse_eq_some_iff.mp hfound
    exact ⟨_, .last hlast, hconforms.fits name type hfield last hlast⟩
  | none =>
    have homitted := lookup_reverse_eq_none_iff.mp hfound
    cases hoptional : type.isOptional with
    | true =>
      exact ⟨_, .absent homitted hoptional, FieldType.holds_absent hoptional⟩
    | false =>
      exact absurd (hconforms.complete name type hfield hoptional) homitted

theorem conforms_of_buildField
    (hdeclared : ∀ name ∈ given.map Prod.fst, name ∈ schema.keys)
    (hfields : ∀ name type, schema.get? name = some type →
      ∃ value, buildField performative given name type = .ok value) :
    Conforms schema given where
  declared := hdeclared
  complete name type hfield hrequired := by
    obtain ⟨value, hbuild⟩ := hfields name type hfield
    obtain ⟨hcompletes, -⟩ := buildField_eq_ok_iff_completes.mp hbuild
    cases hcompletes with
    | last hlast => exact hlast.mem
    | absent homitted hoptional => simp [hrequired] at hoptional
  fits name type hfield value hlast := by
    obtain ⟨found, hbuild⟩ := hfields name type hfield
    obtain ⟨hcompletes, hholds⟩ := buildField_eq_ok_iff_completes.mp hbuild
    cases hcompletes with
    | last hfound => exact hlast.unique hfound ▸ hholds
    | absent homitted hoptional => exact absurd hlast.mem homitted

theorem exists_build_iff :
    (∃ message, build specification performative given routing = .ok message) ↔
      ∃ schema, specification.schema? performative = some schema
        ∧ Conforms schema given := by
  simp only [build_eq_ok_iff, undeclared?_eq_none_iff]
  constructor
  · rintro ⟨message, schema, fields, hschema, hdeclared, hfields, -⟩
    obtain ⟨-, hall⟩ := OrderedMap.traverse_eq_ok_iff_get?.mp hfields
    have hbuilt : ∀ name type, schema.get? name = some type →
        ∃ value, buildField performative given name type = .ok value := by
      intro name type hfield
      obtain ⟨value, hvalue, -⟩ := hall name type hfield
      exact ⟨value, hvalue⟩
    exact ⟨schema, hschema, conforms_of_buildField hdeclared hbuilt⟩
  · rintro ⟨schema, hschema, hconforms⟩
    have hfields : ∃ fields,
        schema.traverse (buildField performative given) = .ok fields :=
      OrderedMap.exists_traverse fun name type hmem =>
        hconforms.exists_buildField (OrderedMap.get?_eq_some_iff.mpr hmem)
    obtain ⟨fields, hfields⟩ := hfields
    exact ⟨_, schema, fields, hschema, hconforms.declared, hfields, rfl⟩

/-! ## Presentation -/

/-- Building asks for nothing but the last value of every name. -/
theorem build_congr (hlast : ∀ name, OrderedMap.lookup name others.reverse
      = OrderedMap.lookup name given.reverse) :
    build specification performative others routing
      = build specification performative given routing := by
  -- Which name is reported depends on nothing but which names there are.
  have hundeclared : ∀ schema : Schema,
      undeclared? schema others = undeclared? schema given := by
    intro schema
    rw [undeclared?, Text.sort_congr fun name => ?_, undeclared?]
    rw [← not_iff_not, ← lookup_reverse_eq_none_iff, hlast,
      lookup_reverse_eq_none_iff]
  have hfield : buildField performative others
      = buildField performative given := by
    funext name type
    rw [buildField, hlast, buildField]
  simp only [build, hundeclared, hfield]

theorem lookup_filter_name (name : String) (pairs : List (String × Value)) :
    OrderedMap.lookup name (pairs.filter fun pair => pair.1 = name)
      = OrderedMap.lookup name pairs := by
  induction pairs with
  | nil => rfl
  | cons pair rest ih =>
    obtain ⟨other, value⟩ := pair
    by_cases hname : name = other
    · simp [OrderedMap.lookup, hname]
    · simp [OrderedMap.lookup, hname, Ne.symm hname, ih]

/-- Pairs of different names may change places. -/
theorem build_of_filter (hpairs : ∀ name,
      others.filter (fun pair => pair.1 = name)
        = given.filter fun pair => pair.1 = name) :
    build specification performative others routing
      = build specification performative given routing := by
  refine build_congr fun name => ?_
  rw [← lookup_filter_name, List.filter_reverse, hpairs, ← List.filter_reverse,
    lookup_filter_name]

theorem build_of_perm (hperm : others.Perm given)
    (hnodup : (given.map Prod.fst).Nodup) :
    build specification performative others routing
      = build specification performative given routing := by
  refine build_congr fun name => Option.ext fun value => ?_
  have hothers : (others.map Prod.fst).Nodup :=
    (hperm.map Prod.fst).nodup_iff.mpr hnodup
  rw [OrderedMap.lookup_reverse_iff_mem hothers,
    OrderedMap.lookup_reverse_iff_mem hnodup, hperm.mem_iff]

/-! ## Messages beside their schema -/

/-- A field of a message: under its declared name, with a value of its type that
leaves nothing to complete. -/
structure IsFieldOf (declared : String × FieldType) (field : String × Value) :
    Prop where
  name : declared.1 = field.1
  wrap : declared.2.wrap field.2 = field.2
  holds : declared.2.Holds field.2

theorem forall₂_of_traverseEntries {entries : List (String × FieldType)}
    {fields : List (String × Value)}
    (hfields : OrderedMap.traverseEntries (buildField performative given) entries
      = .ok fields) : List.Forall₂ IsFieldOf entries fields := by
  induction entries generalizing fields with
  | nil =>
    cases hfields
    exact .nil
  | cons entry rest ih =>
    obtain ⟨value, others, hvalue, hrest, rfl⟩ :=
      (OrderedMap.traverseEntries_cons_eq_ok_iff _).mp hfields
    obtain ⟨hcompletes, hholds⟩ := buildField_eq_ok_iff_completes.mp hvalue
    exact .cons ⟨rfl, hcompletes.wrap_eq, hholds⟩ (ih hrest)

/-- Building keeps values proper. -/
theorem isProper_of_build {message : Message}
    (hgiven : ∀ field ∈ given, field.2.IsProper)
    (hbuild : build specification performative given routing = .ok message) :
    ∀ field ∈ message.fields, field.2.IsProper := by
  obtain ⟨schema, fields, -, -, hfields, rfl⟩ := build_eq_ok_iff.mp hbuild
  intro field hmem
  obtain ⟨type, -, hbuilt⟩ := OrderedMap.exists_of_mem_traverseEntries
    ((OrderedMap.traverse_eq_ok_iff _).mp hfields) hmem
  exact isProper_buildField hgiven hbuilt

theorem exists_forall₂_of_build {message : Message}
    (hbuild : build specification performative given routing = .ok message) :
    ∃ schema, specification.schema? message.performative = some schema
      ∧ List.Forall₂ IsFieldOf schema.entries message.fields := by
  obtain ⟨schema, fields, hschema, -, hfields, rfl⟩ := build_eq_ok_iff.mp hbuild
  exact ⟨schema, hschema,
    forall₂_of_traverseEntries ((OrderedMap.traverse_eq_ok_iff _).mp hfields)⟩

/-- The fields of a message are accepted as they are. -/
theorem build_of_forall₂ {fields : List (String × Value)}
    (hschema : specification.schema? performative = some schema)
    (hfields : List.Forall₂ IsFieldOf schema.entries fields) :
    build specification performative fields routing
      = .ok ⟨specification.id, routing, performative, fields⟩ := by
  have hkeys : schema.keys = fields.map Prod.fst :=
    FieldType.map_eq_map_of_forall₂
      (hfields.imp fun _ _ hfield => ⟨hfield.name, hfield⟩)
  let all : OrderedMap String Value := ⟨fields, hkeys ▸ schema.nodup_keys⟩
  have haccepts : undeclared? schema all.entries = none
      ∧ schema.traverse (buildField performative all.entries) = .ok all := by
    refine accepts_of_complete hkeys.symm fun name type hfield => ?_
    obtain ⟨⟨_, value⟩, hmem, rfl, hwrap, hholds⟩ :=
      FieldType.exists_right_of_mem hfields
        (OrderedMap.get?_eq_some_iff.mp hfield)
    refine ⟨value, OrderedMap.get?_eq_some_iff.mpr hmem, ?_, hholds.validate⟩
    rw [completeField_some, hwrap]
  exact build_eq_ok_iff.mpr
    ⟨schema, all, hschema, haccepts.1, haccepts.2, rfl⟩

/-- A built message is built again from its own fields. -/
theorem build_fields {message : Message}
    (hbuild : build specification performative given routing = .ok message) :
    build specification message.performative message.fields message.routing
      = .ok message := by
  obtain ⟨schema, hschema, hfields⟩ := exists_forall₂_of_build hbuild
  rw [build_of_forall₂ hschema hfields, ← protocol_of_build hbuild]

/-- Building succeeds exactly on what conforms to the schema, and lists the
fields of the schema in its order.  The pairs of one name keep their order;
otherwise the order of what was given changes neither message nor error. -/
theorem build_iff_conforms (specification : Specification)
    (performative : String) (given : List (String × Value)) (routing : Routing) :
    ((∃ message, build specification performative given routing = .ok message) ↔
        ∃ schema, specification.schema? performative = some schema
          ∧ Conforms schema given)
      ∧ (∀ message,
        build specification performative given routing = .ok message →
        ∃ schema, specification.schema? performative = some schema
          ∧ message.protocol = specification.id
          ∧ message.routing = routing
          ∧ message.performative = performative
          ∧ message.fields.map Prod.fst = schema.keys
          ∧ (∀ name type, schema.get? name = some type →
            ∃ value, (name, value) ∈ message.fields
              ∧ Completes given name type value)
          ∧ build specification message.performative message.fields
            message.routing = .ok message)
      ∧ (∀ others, others.Perm given → (given.map Prod.fst).Nodup →
        build specification performative others routing
          = build specification performative given routing)
      ∧ ∀ others, (∀ name, others.filter (fun pair => pair.1 = name)
          = given.filter fun pair => pair.1 = name) →
        build specification performative others routing
          = build specification performative given routing := by
  refine ⟨exists_build_iff, fun message hbuild => ?_,
    fun others hperm hnodup => build_of_perm hperm hnodup,
    fun others hpairs => build_of_filter hpairs⟩
  have hagain := build_fields hbuild
  obtain ⟨schema, fields, hschema, -, hfields, rfl⟩ := build_eq_ok_iff.mp hbuild
  obtain ⟨hkeys, hall⟩ := OrderedMap.traverse_eq_ok_iff_get?.mp hfields
  refine ⟨schema, hschema, rfl, rfl, rfl, hkeys, ?_, hagain⟩
  intro name type hfield
  obtain ⟨value, hvalue, hfound⟩ := hall name type hfield
  exact ⟨value, OrderedMap.get?_eq_some_iff.mp hfound,
    (buildField_eq_ok_iff_completes.mp hvalue).1⟩

/-- A refusal with two reasons, of which the bare one comes too early to count. -/
def reasons : List (String × Value) :=
  [("reason", .str "late"), ("reason", .present (.str "dear"))]

/-- The fields of a proposal, the price last. -/
def offer : List (String × Value) :=
  [("items", .list [.str "apples"]), ("conditions", .str "none"),
    ("price", .float .nan)]

theorem build_iff_conforms_decline :
    let routing : Routing := ⟨⟨"1", "2"⟩, 2, 1⟩
    let refusal : Message := ⟨Negotiation.specification.id, routing, "decline",
      [("reason", .present (.str "dear"))]⟩
    build Negotiation.specification "decline" reasons routing = .ok refusal
      ∧ (∃ schema, Negotiation.specification.schema? "decline" = some schema
        ∧ Conforms schema reasons)
      ∧ build Negotiation.specification "decline" refusal.fields routing
        = .ok refusal
      ∧ build Negotiation.specification "propose" offer.reverse routing
        = build Negotiation.specification "propose" offer routing := by
  intro routing refusal
  have hbuild : build Negotiation.specification "decline" reasons routing
      = .ok refusal := rfl
  obtain ⟨hconforms, hbuilt, -, -⟩ :=
    build_iff_conforms Negotiation.specification "decline" reasons routing
  obtain ⟨-, -, hshuffled, -⟩ :=
    build_iff_conforms Negotiation.specification "propose" offer routing
  obtain ⟨-, -, -, -, -, -, -, hagain⟩ := hbuilt refusal hbuild
  exact ⟨hbuild, hconforms.mp ⟨refusal, hbuild⟩, hagain,
    hshuffled offer.reverse offer.reverse_perm (by decide)⟩

end Message

end Colloquy
