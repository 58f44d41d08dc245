import Colloquy.Negotiation.Act
import Colloquy.Proofs.FieldType.Membership
import Mathlib.Data.Set.List

/-!
# Queries and terms as values

A dictionary lists its entries in the order they were put in, quantities list
theirs by name.  So what is read from a dictionary and written again is the same
but for that order (`Alike`), and what is written is read back as it was.
-/

namespace Colloquy

/-- The same value, the order of the entries of dictionaries apart. -/
inductive Value.Alike : Value → Value → Prop
  | refl (value : Value) : Alike value value
  | dict {entries others : List (Key × Value)} (hperm : entries.Perm others) :
      Alike (.dict entries) (.dict others)
  | cons {name : String} {left right : Value}
      {fields others : List (String × Value)} (hvalue : Alike left right)
      (hrest : Alike (.struct fields) (.struct others)) :
      Alike (.struct ((name, left) :: fields)) (.struct ((name, right) :: others))

section Lists

variable {α β : Type} {f : α → β}

/-- What is undone for every item is undone for a list. -/
theorem mapM_map_eq_some {g : β → Option α}
    (hinverse : ∀ item, g (f item) = some item) (items : List α) :
    (items.map f).mapM g = some items := by
  have hcomp : g ∘ f = fun item => pure (id item) := funext hinverse
  rw [List.mapM_map, hcomp, List.mapM_pure, List.map_id]
  rfl

/-- A list of images is the image of a list. -/
theorem exists_map_eq {images : List β}
    (hall : ∀ image ∈ images, ∃ item, f item = image) :
    ∃ items : List α, items.map f = images :=
  (Set.range_list_map f).ge hall

end Lists

namespace Quantities

variable {name : String} {number : Int64} {entries pairs : List (String × Int64)}
  {value : Value}

/-! ## Order -/

theorem insertEntry_perm (hnew : name ∉ entries.map Prod.fst) :
    (insertEntry name number entries).Perm ((name, number) :: entries) := by
  induction entries with
  | nil => exact .refl _
  | cons first rest ih =>
    rw [List.map_cons, List.mem_cons, not_or] at hnew
    simp only [insertEntry, if_neg hnew.1]
    split
    · exact .refl _
    · exact ((ih hnew.2).cons first).trans (.swap (name, number) first rest)

/-- Without repeated names nothing is replaced. -/
theorem foldl_insert_perm {quantities : Quantities}
    (hnodup : ((pairs ++ quantities.entries).map Prod.fst).Nodup) :
    (pairs.foldl (fun found pair => found.insert pair.1 pair.2)
      quantities).entries.Perm (pairs ++ quantities.entries) := by
  induction pairs generalizing quantities with
  | nil => exact .refl _
  | cons pair rest ih =>
    have hnew : pair.1 ∉ quantities.entries.map Prod.fst := fun hmem => by
      simp only [List.cons_append, List.map_cons, List.nodup_cons,
        List.map_append, List.mem_append, not_or] at hnodup
      exact hnodup.1.2 hmem
    have hmiddle : (rest ++ (quantities.insert pair.1 pair.2).entries).Perm
        (pair :: rest ++ quantities.entries) :=
      ((insertEntry_perm hnew).append_left rest).trans List.perm_middle
    -- What is put in first is among what the rest is put into.
    rw [List.foldl_cons]
    exact (ih ((hmiddle.map Prod.fst).nodup_iff.mpr hnodup)).trans hmiddle

theorem ofList_perm (hnodup : (pairs.map Prod.fst).Nodup) :
    (ofList pairs).entries.Perm pairs := by
  have hperm : (ofList pairs).entries.Perm (pairs ++ []) :=
    foldl_insert_perm (by rwa [show (∅ : Quantities).entries = [] from rfl,
      List.append_nil])
  rwa [List.append_nil] at hperm

theorem nodup_names (quantities : Quantities) :
    (quantities.entries.map Prod.fst).Nodup :=
  List.pairwise_map.mpr (quantities.increasing.imp String.ne_of_lt)

theorem ext_entries {left right : Quantities}
    (hentries : left.entries = right.entries) : left = right := by
  cases left
  cases right
  cases hentries
  rfl

theorem ofList_entries (quantities : Quantities) :
    ofList quantities.entries = quantities :=
  ext_entries <| (ofList_perm quantities.nodup_names).eq_of_pairwise
    (fun _ _ _ _ hlt hgt => absurd hgt (String.lt_asymm hlt))
    (ofList quantities.entries).increasing quantities.increasing

/-! ## Dictionaries of numbers -/

def entryOf (pair : String × Int64) : Key × Value := (.str pair.1, .int pair.2)

theorem ofEntry?_entryOf (pair : String × Int64) :
    ofEntry? (entryOf pair) = some pair := rfl

theorem ofValue?_entries (pairs : List (String × Int64)) :
    ofValue? (.dict (pairs.map entryOf)) = some (ofList pairs) := by
  have hread := mapM_map_eq_some ofEntry?_entryOf pairs
  simp [ofValue?, Value.asDict?, hread]

theorem ofValue?_toValue (quantities : Quantities) :
    ofValue? quantities.toValue = some quantities := by
  have hread := ofValue?_entries quantities.entries
  rwa [ofList_entries] at hread

theorem isProper_entries_iff :
    (Value.dict (pairs.map entryOf)).IsProper ↔ (pairs.map Prod.fst).Nodup := by
  have hkeys : (pairs.map entryOf).map Prod.fst
      = (pairs.map Prod.fst).map Key.str := by
    simp [entryOf]
  have hstr : Function.Injective Key.str := fun _ _ => Key.str.inj
  have hvalues : Value.AreProperEntries (pairs.map entryOf) := by
    refine Value.areProperEntries_iff.mpr fun entry hmem => ?_
    obtain ⟨pair, -, rfl⟩ := List.mem_map.mp hmem
    exact trivial
  rw [Value.IsProper, hkeys, List.nodup_map_iff hstr]
  exact and_iff_left hvalues

theorem isProper_toValue (quantities : Quantities) :
    quantities.toValue.IsProper :=
  isProper_entries_iff.mpr quantities.nodup_names

theorem holds_iff_exists_entries : Negotiation.quantitiesType.Holds value ↔
    ∃ pairs : List (String × Int64), value = .dict (pairs.map entryOf) := by
  constructor
  · intro hholds
    cases hholds with
    | @dict _ _ entries hkeys hvalues =>
      have hentries : ∀ entry ∈ entries, ∃ pair, entryOf pair = entry := by
        rintro ⟨key, value⟩ hmem
        obtain ⟨kind, hkind, hkey⟩ := hkeys _ hmem
        cases hkind
        cases hvalues _ hmem with
        | scalar hvalue =>
          cases key <;> cases value <;> simp_all [Scalar.admits, Key.toValue, entryOf]
      obtain ⟨pairs, rfl⟩ := exists_map_eq hentries
      exact ⟨pairs, rfl⟩
  · rintro ⟨pairs, rfl⟩
    have hmem : ∀ entry ∈ pairs.map entryOf, ∃ pair, entryOf pair = entry := by
      intro entry hmem
      obtain ⟨pair, -, rfl⟩ := List.mem_map.mp hmem
      exact ⟨pair, rfl⟩
    refine .dict (fun entry hentry => ?_) (fun entry hentry => ?_)
    · obtain ⟨pair, rfl⟩ := hmem entry hentry
      exact ⟨.str, rfl, rfl⟩
    · obtain ⟨pair, rfl⟩ := hmem entry hentry
      exact .scalar rfl

theorem holds_toValue (quantities : Quantities) :
    Negotiation.quantitiesType.Holds quantities.toValue :=
  holds_iff_exists_entries.mpr ⟨quantities.entries, rfl⟩

theorem exists_of_holds (hholds : Negotiation.quantitiesType.Holds value)
    (hproper : value.IsProper) :
    ∃ quantities, ofValue? value = some quantities
      ∧ value.Alike quantities.toValue := by
  obtain ⟨pairs, rfl⟩ := holds_iff_exists_entries.mp hholds
  have hperm := ofList_perm (isProper_entries_iff.mp hproper)
  exact ⟨ofList pairs, ofValue?_entries pairs, .dict (hperm.symm.map entryOf)⟩

end Quantities

namespace Negotiation

variable {value : Value}

/-! ## Queries -/

namespace Query

theorem ofValue?_toValue (query : Query) :
    ofValue? query.toValue = some query := by
  simp [ofValue?, toValue, Value.field?, OrderedMap.lookup, Value.asStr?,
    Quantities.ofValue?_toValue]

theorem isProper_toValue (query : Query) : query.toValue.IsProper :=
  ⟨trivial, query.constraints.isProper_toValue, trivial⟩

theorem holds_toValue (query : Query) : queryType.Holds query.toValue := by
  refine .struct rfl ?_
  simp only [List.zip_cons_cons, List.zip_nil_right, List.forall_mem_cons]
  exact ⟨.scalar rfl, query.constraints.holds_toValue, by simp⟩

theorem exists_of_holds (hholds : queryType.Holds value)
    (hproper : value.IsProper) :
    ∃ query, ofValue? value = some query ∧ value.Alike query.toValue := by
  cases hholds with
  | @struct _ _ values hnames hvalues =>
    match values, hnames with
    | [(_, first), (_, second)], hnames =>
      cases hnames
      simp only [List.zip_cons_cons, List.zip_nil_right,
        List.forall_mem_cons] at hvalues
      obtain ⟨hsubject, hconstraints, -⟩ := hvalues
      obtain ⟨constraints, hread, halike⟩ :=
        Quantities.exists_of_holds hconstraints hproper.2.1
      cases hsubject with
      | scalar hadmits =>
        cases first <;> cases hadmits
        rename_i subject
        refine ⟨⟨subject, constraints⟩, ?_,
          .cons (.refl _) (.cons halike (.refl _))⟩
        simp [ofValue?, Value.field?, OrderedMap.lookup, Value.asStr?, hread]

end Query

/-! ## Conditions -/

namespace Conditions

theorem ofValue?_toValue (conditions : Conditions) :
    ofValue? conditions.toValue = some conditions := by
  cases conditions with
  | text content => rfl
  | terms quantities =>
    have hread := quantities.ofValue?_toValue
    rw [toValue, ofValue?, hread]
    · rfl
    · exact fun content hstr => by cases hstr

theorem isProper_toValue (conditions : Conditions) :
    conditions.toValue.IsProper := by
  cases conditions with
  | text content => exact trivial
  | terms quantities => exact quantities.isProper_toValue

theorem holds_toValue (conditions : Conditions) :
    conditionsType.Holds conditions.toValue := by
  cases conditions with
  | text content => exact .member List.mem_cons_self (.scalar rfl)
  | terms quantities =>
    exact .member (List.mem_cons_of_mem _ List.mem_cons_self)
      quantities.holds_toValue

/-- A text is no dictionary, so it does not matter that it is tried first. -/
theorem exists_of_holds (hholds : conditionsType.Holds value)
    (hproper : value.IsProper) :
    ∃ conditions, ofValue? value = some conditions
      ∧ value.Alike conditions.toValue := by
  cases hholds with
  | member hmem hmember =>
    simp only [List.mem_cons, List.not_mem_nil, or_false] at hmem
    rcases hmem with rfl | rfl
    · cases hmember with
      | scalar hadmits =>
        cases value <;> cases hadmits
        rename_i content
        exact ⟨text content, rfl, .refl _⟩
    · obtain ⟨quantities, hread, halike⟩ :=
        Quantities.exists_of_holds hmember hproper
      obtain ⟨pairs, rfl⟩ := Quantities.holds_iff_exists_entries.mp hmember
      exact ⟨terms quantities, congrArg (Option.map terms) hread, halike⟩

end Conditions

/-! ## Prices, items and reasons -/

theorem readTexts?_map (texts : List String) :
    Message.readTexts? (.list (texts.map .str)) = some texts := by
  have hinverse : ∀ text, (Value.str text).asStr? = some text := fun _ => rfl
  have hread := mapM_map_eq_some hinverse texts
  simp [Message.readTexts?, Value.asList?, hread]

theorem readOptionalText?_map (reason : Option String) :
    Message.readOptionalText? (.optional (reason.map .str)) = some reason := by
  cases reason <;> rfl

theorem holds_float_iff : (FieldType.scalar .float).Holds value ↔
    ∃ number, value = .float number := by
  constructor
  · intro hholds
    cases hholds with
    | scalar hadmits =>
      cases value <;> cases hadmits
      exact ⟨_, rfl⟩
  · rintro ⟨number, rfl⟩
    exact .scalar rfl

theorem holds_texts_iff : (FieldType.list (.scalar .str)).Holds value ↔
    ∃ texts : List String, value = .list (texts.map .str) := by
  constructor
  · intro hholds
    cases hholds with
    | @list _ items hitems =>
      have htexts : ∀ item ∈ items, ∃ text, Value.str text = item := by
        intro item hmem
        cases hitems item hmem with
        | scalar hadmits =>
          cases item <;> cases hadmits
          exact ⟨_, rfl⟩
      obtain ⟨texts, rfl⟩ := exists_map_eq htexts
      exact ⟨texts, rfl⟩
  · rintro ⟨texts, rfl⟩
    refine .list fun item hmem => ?_
    obtain ⟨text, -, rfl⟩ := List.mem_map.mp hmem
    exact .scalar rfl

theorem holds_optionalText_iff : (FieldType.optional (.scalar .str)).Holds value ↔
    ∃ reason : Option String, value = .optional (reason.map .str) := by
  constructor
  · intro hholds
    cases hholds with
    | absent => exact ⟨none, rfl⟩
    | @present _ inner hinner =>
      cases hinner with
      | scalar hadmits =>
        cases inner <;> cases hadmits
        exact ⟨some _, rfl⟩
  · rintro ⟨reason, rfl⟩
    cases reason with
    | none => exact .absent _
    | some text => exact .present (.scalar rfl)

end Negotiation

end Colloquy
