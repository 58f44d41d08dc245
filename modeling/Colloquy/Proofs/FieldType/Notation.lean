import Colloquy.Proofs.FieldType.Grammar

/-!
# The notation of types read back

How a type is written is one of the ways in which the grammar derives it: with
every prefix, and with white space behind commas only.

Main statement: what a sound type is written as is read as this type, if every
record in it that does not stand in another one is declared under its own name.
So types that are written alike are the same.
-/

namespace Colloquy

namespace FieldType

/-- Every record that does not stand in another one is declared under its own
name. -/
inductive IsDeclared (types : CustomTypes) : FieldType → Prop
  | scalar (kind : Scalar) : IsDeclared types (scalar kind)
  | optional {inner : FieldType} (hinner : IsDeclared types inner) :
    IsDeclared types (optional inner)
  | union {members : List FieldType}
    (hmembers : ∀ member ∈ members, IsDeclared types member) :
    IsDeclared types (union members)
  | set {element : FieldType} (helement : IsDeclared types element) :
    IsDeclared types (set element)
  | list {element : FieldType} (helement : IsDeclared types element) :
    IsDeclared types (list element)
  | dict {key value : FieldType} (hkey : IsDeclared types key)
    (hvalue : IsDeclared types value) : IsDeclared types (dict key value)
  | struct {name : String} {fields : List (String × FieldType)}
    (hrecord : types.get? name = some ⟨name, fields⟩) :
    IsDeclared types (struct name fields)

section Notation

variable {types : CustomTypes} {type first : FieldType}
  {arguments others : List FieldType} {constructor : Constructor}

/-- Every type constructor is written in front of its arguments in brackets. -/
theorem toList_render_of_takes (htakes : constructor.Takes arguments type) :
    type.render.toList = 'p' :: 't' :: ':' :: constructor.name.toList
      ++ '[' :: ((renderMembers arguments).toList ++ [']']) := by
  cases htakes <;> simp [render, renderMembers, Constructor.name]

/-- What is written behind the first argument is derived as the others. -/
theorem exists_derives_others
    (hothers : ∀ type ∈ others, Derives types (.type type) type.render.toList)
    (first : FieldType) :
    ∃ later, (renderMembers (first :: others)).toList ++ [']']
        = first.render.toList ++ later
      ∧ Derives types (.others others) later := by
  induction others generalizing first with
  | nil => exact ⟨[']'], rfl, .close⟩
  | cons next others ih =>
    have hnext := List.forall_mem_cons.mp hothers
    obtain ⟨later, hlater, hderives⟩ := ih hnext.2 next
    refine ⟨',' :: (' ' :: next.render.toList ++ later), ?_,
      .next (.space (by decide) hnext.1) hderives⟩
    rw [renderMembers]
    simp [hlater]

theorem derives_of_takes (htakes : constructor.Takes (first :: others) type)
    (harguments : ∀ type ∈ first :: others,
      Derives types (.type type) type.render.toList) :
    Derives types (.type type) type.render.toList := by
  have hfirst := List.forall_mem_cons.mp harguments
  obtain ⟨later, hlater, hderives⟩ := exists_derives_others hfirst.2 first
  have hcomposite := Derives.composite .marked htakes
    (.arguments hfirst.1 hderives)
  rw [toList_render_of_takes htakes, hlater]
  exact hcomposite

theorem derives_render
    (hnames : ∀ name ∈ types.keys, ∀ c ∈ name.toList, Text.isWordChar c = true)
    (hdeclared : type.IsDeclared types) (hsound : type.IsSound) :
    Derives types (.type type) type.render.toList := by
  induction hdeclared with
  | scalar kind =>
    have hscalar : (scalar kind).render.toList
        = 'p' :: 't' :: ':' :: kind.name.toList := by
      rw [render, String.toList_append]
      rfl
    rw [hscalar]
    exact .scalar .marked
  | optional hinner ih =>
    cases hsound with
    | optional hinner =>
      exact derives_of_takes (.optional _)
        (List.forall_mem_singleton.mpr (ih hinner))
  | @union members hmembers ih =>
    cases hsound with
    | union hmember hmembers hdistinct =>
      cases members with
      | nil => exact absurd rfl hmember
      | cons first others =>
        exact derives_of_takes (.union _)
          fun member hmem => ih member hmem (hmembers member hmem)
  | set helement ih =>
    cases hsound with
    | @set kind hkind =>
      exact derives_of_takes (.set _)
        (List.forall_mem_singleton.mpr (ih (.scalar kind)))
  | list helement ih =>
    cases hsound with
    | list helement =>
      exact derives_of_takes (.list _)
        (List.forall_mem_singleton.mpr (ih helement))
  | dict hkey hvalue ihkey ihvalue =>
    cases hsound with
    | @dict kind _ hkind hvalue =>
      exact derives_of_takes (.dict _ _) (List.forall_mem_cons.mpr
        ⟨ihkey (.scalar kind), List.forall_mem_singleton.mpr (ihvalue hvalue)⟩)
  | @struct name fields hrecord =>
    have hstruct : (struct name fields).render.toList
        = 'c' :: 't' :: ':' :: name.toList := by
      rw [render, String.toList_append]
      rfl
    have hname := hnames name (OrderedMap.mem_keys_iff.mpr ⟨_, hrecord⟩)
    rw [hstruct]
    exact .custom hname hrecord

theorem parse_render
    (hnames : ∀ name ∈ types.keys, ∀ c ∈ name.toList, Text.isWordChar c = true)
    (hdeclared : type.IsDeclared types) (hcheck : type.check = .ok ()) :
    parse types type.render = .ok type := by
  have hderives := derives_render hnames hdeclared (isSound_of_check type hcheck)
  apply parse_of_denotes _ hcheck
  exact ⟨type.render.toList, [], (List.append_nil _).symm, hderives, nofun⟩

end Notation

end FieldType

/-- If the names under which records are declared are words, what a type is
written as is read as this type, and no other one is written alike.  The types are
those that pass the check and whose records are declared under their own names,
except for the ones inside other records. -/
theorem Specification.parseType_render (types : CustomTypes)
    (hnames : ∀ name ∈ types.keys, ∀ c ∈ name.toList, Text.isWordChar c = true)
    {type : FieldType} (hcheck : type.check = .ok ())
    (hdeclared : type.IsDeclared types) :
    parseType types type.render = .ok type
      ∧ ∀ other : FieldType, other.check = .ok () → other.IsDeclared types →
        other.render = type.render → other = type := by
  have hparse := FieldType.parse_render hnames hdeclared hcheck
  constructor
  · rw [parseType, hparse]
    rfl
  · intro other hother hothers hsame
    have hread := FieldType.parse_render hnames hothers hother
    rw [hsame, hparse] at hread
    exact (Except.ok.inj hread).symm

/-- Queries, or how many of each there are. -/
theorem Specification.parseType_render_query :
    let fields : List (String × FieldType) :=
      [("subject", .scalar .str), ("limit", .optional (.scalar .int))]
    let types : CustomTypes := CustomTypes.set ∅ "Query" fields
    let type : FieldType :=
      .union [.list (.struct "Query" fields), .dict (.scalar .str) (.scalar .int)]
    (∀ name ∈ types.keys, ∀ c ∈ name.toList, Text.isWordChar c = true)
      ∧ type.check = .ok () ∧ type.IsDeclared types
      ∧ type.render = "pt:union[pt:list[ct:Query], pt:dict[pt:str, pt:int]]"
      ∧ parseType types type.render = .ok type := by
  intro fields types type
  have hnames : ∀ name ∈ types.keys, ∀ c ∈ name.toList,
      Text.isWordChar c = true := by
    have hkeys : types.keys = ["Query"] := rfl
    rw [hkeys]
    exact List.forall_mem_singleton.mpr (List.all_eq_true.mp rfl)
  have hcheck : type.check = .ok () := by decide +kernel
  have hdeclared : type.IsDeclared types := by
    apply FieldType.IsDeclared.union
    intro member hmem
    simp only [List.mem_cons, List.not_mem_nil, or_false] at hmem
    cases hmem with
    | inl hlist =>
      rw [hlist]
      exact .list (.struct rfl)
    | inr hdict =>
      rw [hdict]
      exact .dict (.scalar .str) (.scalar .int)
  exact ⟨hnames, hcheck, hdeclared, by decide +kernel,
    (parseType_render types hnames hcheck hdeclared).1⟩

end Colloquy
