import Msp430.SymbolTable

/-!
Look-up after binding.  Whether a name is bound for the first time or again, the
table afterwards differs from the table before at that name and nowhere else, and it
holds no name twice.
-/

namespace Msp430
namespace SymbolTable

/-- Rewriting the value of one name in place changes look-up at no other name. -/
private theorem lookup_replace (bindings : List (String × Int)) (name other : String)
    (value : Int) :
    (bindings.map (fun binding => if binding.1 = name then (name, value) else binding)).lookup
        other =
      if other = name then (bindings.lookup name).map (fun _ => value)
      else bindings.lookup other := by
  induction bindings with
  | nil =>
      simp
  | cons binding others inductionHypothesis =>
      obtain ⟨key, bound⟩ := binding
      rw [List.map_cons]
      by_cases same : key = name
      · subst key
        by_cases wanted : other = name
        · subst other
          simp
        · have different : (other == name) = false := by
            simpa using wanted
          simp only [if_true, List.lookup_cons, different, wanted, if_false,
            inductionHypothesis]
      · simp only [if_neg same, List.lookup_cons]
        by_cases wanted : other = key
        · subst other
          simp [same]
        · have different : (other == key) = false := by
            simpa using wanted
          have reverse : (name == key) = false := by
            simpa using fun equal => same equal.symm
          simp only [different, reverse, inductionHypothesis]

theorem find?_empty (name : String) : empty.find? name = none := rfl

theorem contains_eq_false_iff (table : SymbolTable) (name : String) :
    table.contains name = false ↔ table.find? name = none := by
  unfold contains
  cases table.find? name <;> simp

/-- Look-up after binding. -/
theorem find?_insert (table : SymbolTable) (name other : String) (value : Int) :
    (table.insert name value).find? other =
      if other = name then some value else table.find? other := by
  unfold insert
  by_cases bound : table.contains name = true
  · rw [if_pos bound]
    unfold find?
    rw [lookup_replace]
    obtain ⟨old, found⟩ := Option.isSome_iff_exists.mp bound
    unfold find? at found
    rw [found]
    rfl
  · rw [if_neg bound]
    have absent : table.find? name = none :=
      (table.contains_eq_false_iff name).mp (Bool.eq_false_iff.mpr bound)
    unfold find? at absent ⊢
    rw [List.lookup_append]
    by_cases wanted : other = name
    · subst other
      simp [absent]
    · have different : (other == name) = false := by
        simpa using wanted
      simp [List.lookup_cons, different, wanted]

theorem insert_of_absent {table : SymbolTable} {name : String}
    (absent : table.contains name = false) (value : Int) :
    table.insert name value = { bindings := table.bindings ++ [(name, value)] } := by
  unfold insert
  rw [absent]
  rfl

/-! ### Names -/

theorem contains_iff_mem_names (table : SymbolTable) (name : String) :
    table.contains name = true ↔ name ∈ table.names := by
  unfold contains find? names
  simp [List.lookup_isSome_iff]

theorem names_insert (table : SymbolTable) (name : String) (value : Int) :
    (table.insert name value).names =
      if table.contains name then table.names else table.names ++ [name] := by
  cases bound : table.contains name with
  | false =>
      rw [insert_of_absent bound]
      exact List.map_append
  | true =>
      have kept : Prod.fst ∘ (fun binding : String × Int =>
          if binding.1 = name then (name, value) else binding) = Prod.fst := by
        funext binding
        by_cases same : binding.1 = name
        · exact (congrArg Prod.fst (if_pos same)).trans same.symm
        · exact congrArg Prod.fst (if_neg same)
      unfold insert names
      rw [if_pos bound, if_pos rfl, List.map_map, kept]

/-- No name is bound twice. -/
theorem nodup_names_insert {table : SymbolTable} (distinct : table.names.Nodup) (name : String)
    (value : Int) : (table.insert name value).names.Nodup := by
  rw [names_insert]
  split
  · exact distinct
  · next absent =>
      rw [List.nodup_append]
      refine ⟨distinct, by simp, ?_⟩
      intro other member new isNew same
      rw [List.mem_singleton.mp isNew] at same
      exact absent ((table.contains_iff_mem_names name).mpr (same ▸ member))

end SymbolTable
end Msp430
