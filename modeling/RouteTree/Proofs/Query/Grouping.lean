import RouteTree.Query.Basic
import Mathlib.Data.List.Induction

/-! # Grouping fields by name

Fields of one name may stand apart in a query. Grouping collects them without losing a value or
changing the order among the values of a name. Where the fields of every name stand together, each
block of them is a group.
-/

namespace RouteTree.Query

/-- The values of the fields with a name. -/
def valuesOf (name : String) (fields : List (String × String)) : List String :=
  (fields.filter fun field => field.1 = name).map Prod.snd

@[simp] theorem valuesOf_append (name : String) (first second : List (String × String)) :
    valuesOf name (first ++ second) = valuesOf name first ++ valuesOf name second := by
  simp [valuesOf]

@[simp] theorem valuesOf_cons (name : String) (field : String × String)
    (rest : List (String × String)) :
    valuesOf name (field :: rest) = (if field.1 = name then [field.2] else []) ++
      valuesOf name rest := by
  by_cases same : field.1 = name <;> simp [valuesOf, same]

/-- Adding a field adds its value at the end of the values of its name. -/
theorem getAll_addTo (raw : String) (groups : List Group) (field : String × String)
    (name : String) :
    getAll ⟨raw, Group.addTo groups field⟩ name =
      getAll ⟨raw, groups⟩ name ++ if field.1 = name then [field.2] else [] := by
  induction groups with
  | nil =>
    by_cases same : field.1 = name <;> simp [getAll, Group.addTo, Group.values, same]
  | cons group rest ih =>
    simp only [getAll, Group.addTo] at ih ⊢
    by_cases merged : group.name = field.1
    · rw [if_pos merged]
      by_cases same : field.1 = name
      · simp [merged, same, Group.values]
      · simp [merged, same]
    · rw [if_neg merged]
      by_cases here : group.name = name
      · have other : ¬ field.1 = name := fun same => merged (here.trans same.symm)
        simp [here, other]
      · simpa [here] using ih

/-- The values of a name are those of its fields, in their order. -/
theorem getAll_group (raw : String) (fields : List (String × String)) (name : String) :
    getAll ⟨raw, group fields⟩ name = valuesOf name fields := by
  have general (groups : List Group) :
      getAll ⟨raw, fields.foldl Group.addTo groups⟩ name =
        getAll ⟨raw, groups⟩ name ++ valuesOf name fields := by
    induction fields generalizing groups with
    | nil => simp [valuesOf]
    | cons field rest ih =>
      rw [List.foldl_cons, ih, getAll_addTo, List.append_assoc, valuesOf_cons]
  exact general []

/-! ## Names once, in the order in which they are first seen -/

theorem nodup_eraseDups {α : Type} [BEq α] [LawfulBEq α] (names : List α) :
    names.eraseDups.Nodup := by
  induction names using List.reverseRecOn with
  | nil => exact List.nodup_nil
  | append_singleton before name ih =>
    rw [List.eraseDups_append]
    by_cases seen : name ∈ before
    · simpa [List.removeAll, seen] using ih
    · have fresh : [name].removeAll before = [name] := by simp [List.removeAll, seen]
      rw [fresh]
      refine List.nodup_append.mpr ⟨ih, by simp [List.eraseDups_cons], ?_⟩
      rintro other earlier _ last rfl
      obtain rfl : other = name := by simpa using List.mem_eraseDups.mp last
      exact seen (List.mem_eraseDups.mp earlier)

theorem eraseDups_of_nodup {α : Type} [BEq α] [LawfulBEq α] {names : List α}
    (distinct : names.Nodup) : names.eraseDups = names := by
  induction names with
  | nil => rfl
  | cons name rest ih =>
    obtain ⟨fresh, distinct⟩ := List.nodup_cons.mp distinct
    have kept : rest.filter (fun other => !other == name) = rest := by
      refine List.filter_eq_self.mpr fun other member => ?_
      have different : other ≠ name := by
        rintro rfl
        exact fresh member
      simpa using different
    rw [List.eraseDups_cons, kept, ih distinct]

/-- The group of a name with the given values, if there are any. -/
def Group.ofValues? (name : String) : List String → Option Group
  | [] => none
  | first :: others => some ⟨name, first, others⟩

theorem Group.name_of_mem_ofValues? {name : String} {values : List String} :
    ∀ group ∈ ofValues? name values, group.name = name := by
  intro group present
  cases values with
  | nil => simp [ofValues?] at present
  | cons first others => rw [← Option.some.inj present]

/-- Only names with values have groups, and each group holds all values of its name. -/
theorem Group.map_filterMap_ofValues? (names : List String) (values : String → List String) :
    (names.filterMap fun name => ofValues? name (values name)).map
        (fun group => (group.name, group.values)) =
      (names.filter fun name => !(values name).isEmpty).map fun name => (name, values name) := by
  induction names with
  | nil => rfl
  | cons name rest ih =>
    rw [List.filterMap_cons, List.filter_cons]
    cases listed : values name with
    | nil => simpa [ofValues?] using ih
    | cons first others => simpa [ofValues?, Group.values, listed] using ih

theorem addTo_of_notMem {groups : List Group} {name : String}
    (absent : name ∉ groups.map Group.name) (value : String) :
    Group.addTo groups (name, value) = groups ++ [⟨name, value, []⟩] := by
  induction groups with
  | nil => rfl
  | cons group rest ih =>
    simp only [List.map_cons, List.mem_cons, not_or] at absent
    rw [Group.addTo, if_neg (Ne.symm absent.1), ih absent.2, List.cons_append]

theorem addTo_last {groups : List Group} {name : String}
    (absent : name ∉ groups.map Group.name) (first : String) (others : List String)
    (value : String) :
    Group.addTo (groups ++ [⟨name, first, others⟩]) (name, value) =
      groups ++ [⟨name, first, others ++ [value]⟩] := by
  induction groups with
  | nil => simp [Group.addTo]
  | cons group rest ih =>
    simp only [List.map_cons, List.mem_cons, not_or] at absent
    rw [List.cons_append, Group.addTo, if_neg (Ne.symm absent.1), ih absent.2, List.cons_append]

/-- A block of fields with a new name becomes one group after all others. -/
theorem foldl_addTo_block {groups : List Group} {name : String}
    (absent : name ∉ groups.map Group.name) (values : List String) :
    (values.map fun value => (name, value)).foldl Group.addTo groups =
      groups ++ (Group.ofValues? name values).toList := by
  have onward (first : String) (others more : List String) :
      (more.map fun value => (name, value)).foldl Group.addTo
          (groups ++ [⟨name, first, others⟩]) = groups ++ [⟨name, first, others ++ more⟩] := by
    induction more generalizing others with
    | nil => simp
    | cons value more ih =>
      rw [List.map_cons, List.foldl_cons, addTo_last absent, ih, List.append_assoc]
      rfl
  cases values with
  | nil => simp [Group.ofValues?]
  | cons first others =>
    rw [List.map_cons, List.foldl_cons, addTo_of_notMem absent, onward]
    rfl

/-- Fields that come in blocks, one for each name, are grouped block by block. -/
theorem group_blocks {names : List String} (distinct : names.Nodup)
    (values : String → List String) :
    group (names.flatMap fun name => (values name).map fun value => (name, value)) =
      names.filterMap fun name => Group.ofValues? name (values name) := by
  have general (groups : List Group) (apart : ∀ name ∈ names, name ∉ groups.map Group.name) :
      (names.flatMap fun name => (values name).map fun value => (name, value)).foldl Group.addTo
          groups =
        groups ++ names.filterMap fun name => Group.ofValues? name (values name) := by
    induction names generalizing groups with
    | nil => simp
    | cons name rest ih =>
      obtain ⟨fresh, distinct⟩ := List.nodup_cons.mp distinct
      rw [List.flatMap_cons, List.foldl_append,
        foldl_addTo_block (apart name List.mem_cons_self), ih distinct, List.filterMap_cons]
      · cases Group.ofValues? name (values name) <;> simp
      · intro other member
        have before := apart other (List.mem_cons_of_mem _ member)
        rw [List.map_append, List.mem_append, not_or]
        refine ⟨before, ?_⟩
        intro present
        obtain ⟨group, listed, rfl⟩ := List.mem_map.mp present
        rw [Group.name_of_mem_ofValues? group (Option.mem_toList.mp listed)] at member
        exact fresh member
  exact general [] (by simp)

end RouteTree.Query
