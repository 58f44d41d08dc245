import Colloquy.Value

/-!
# Quantities

Named integers, in increasing order of their names and each once, as structured
terms and constraints list them.
-/

namespace Colloquy

structure Quantities where
  entries : List (String × Int64)
  increasing : entries.Pairwise fun a b => a.1 < b.1
  deriving DecidableEq, Repr

namespace Quantities

instance : Inhabited Quantities := ⟨⟨[], .nil⟩⟩

instance : EmptyCollection Quantities := ⟨⟨[], .nil⟩⟩

/-- Put a quantity into its place; one of that name is replaced. -/
def insertEntry (name : String) (number : Int64) :
    List (String × Int64) → List (String × Int64)
  | [] => [(name, number)]
  | entry :: rest =>
    if name < entry.1 then (name, number) :: entry :: rest
    else if name = entry.1 then (name, number) :: rest
    else entry :: insertEntry name number rest

theorem fst_of_mem_insertEntry {name : String} {number : Int64}
    {entries : List (String × Int64)} {entry : String × Int64}
    (hmem : entry ∈ insertEntry name number entries) :
    entry.1 = name ∨ entry ∈ entries := by
  induction entries with
  | nil =>
    rw [insertEntry, List.mem_singleton] at hmem
    exact Or.inl (congrArg Prod.fst hmem)
  | cons first rest ih =>
    simp only [insertEntry] at hmem
    split at hmem
    · rcases List.mem_cons.mp hmem with heq | hrest
      · exact Or.inl (congrArg Prod.fst heq)
      · exact Or.inr hrest
    · split at hmem
      · rcases List.mem_cons.mp hmem with heq | hrest
        · exact Or.inl (congrArg Prod.fst heq)
        · exact Or.inr (List.mem_cons_of_mem _ hrest)
      · rcases List.mem_cons.mp hmem with heq | hrest
        · exact Or.inr (heq ▸ List.mem_cons_self)
        · exact (ih hrest).imp_right (List.mem_cons_of_mem _)

theorem increasing_insertEntry {name : String} {number : Int64}
    {entries : List (String × Int64)}
    (hincreasing : entries.Pairwise fun a b => a.1 < b.1) :
    (insertEntry name number entries).Pairwise fun a b => a.1 < b.1 := by
  induction entries with
  | nil => exact List.pairwise_singleton _ _
  | cons first rest ih =>
    have hhead := (List.pairwise_cons.mp hincreasing).1
    have htail := (List.pairwise_cons.mp hincreasing).2
    simp only [insertEntry]
    split
    · rename_i hlt
      refine List.pairwise_cons.mpr ⟨fun entry hmem => ?_, hincreasing⟩
      rcases List.mem_cons.mp hmem with heq | hrest
      · exact heq ▸ hlt
      · exact String.lt_trans hlt (hhead entry hrest)
    · rename_i hnot
      split
      · rename_i heq
        exact List.pairwise_cons.mpr
          ⟨fun entry hmem => heq ▸ hhead entry hmem, htail⟩
      · rename_i hne
        have hlt : first.1 < name := by
          rcases String.le_total name first.1 with hle | hle
          · exact absurd (String.le_antisymm hle (String.not_lt.mp hnot)) hne
          · refine String.not_le.mp fun hge => ?_
            exact hne (String.le_antisymm hge hle)
        refine List.pairwise_cons.mpr ⟨fun entry hmem => ?_, ih htail⟩
        rcases fst_of_mem_insertEntry hmem with heq | hrest
        · exact heq ▸ hlt
        · exact hhead entry hrest

def insert (quantities : Quantities) (name : String) (number : Int64) :
    Quantities :=
  ⟨insertEntry name number quantities.entries,
    increasing_insertEntry quantities.increasing⟩

/-- The quantities of a list; of several with one name the last one counts. -/
def ofList (entries : List (String × Int64)) : Quantities :=
  entries.foldl (fun quantities entry => quantities.insert entry.1 entry.2) ∅

/-- Quantities as a dictionary from texts to integers. -/
def toValue (quantities : Quantities) : Value :=
  .dict (quantities.entries.map fun entry => (.str entry.1, .int entry.2))

/-- A named integer from a dictionary entry. -/
def ofEntry? : Key × Value → Option (String × Int64)
  | (.str name, .int number) => some (name, number)
  | _ => none

/-- The quantities in a dictionary from texts to integers. -/
def ofValue? (value : Value) : Option Quantities := do
  some (ofList (← (← value.asDict?).mapM ofEntry?))

end Quantities

end Colloquy
