import RouteTree.Proofs.Query.Grouping
import RouteTree.Proofs.Text.Form

/-! # One query from several sources

Fields can be handed over as they are, in their written form with or without a question mark before
it, or as a mapping. The query is the same each time: its names are those of the fields in the order
in which they are first seen, and each name has the values of all its fields in their order.
-/

namespace RouteTree.Query

/-- A query holds the fields of a list: their names once each, as they are first seen, and under
every name the values of its fields in their order. -/
structure Holds (query : Query) (fields : List (String × String)) : Prop where
  names_eq : query.names = (fields.map Prod.fst).eraseDups
  getAll_eq : ∀ name, query.getAll name = valuesOf name fields

/-! ## Grouped names -/

/-- A name that is new goes to the end, and any other one is there already. -/
theorem names_addTo (groups : List Group) (field : String × String) :
    (Group.addTo groups field).map Group.name =
      if field.1 ∈ groups.map Group.name then groups.map Group.name
      else groups.map Group.name ++ [field.1] := by
  induction groups with
  | nil => rfl
  | cons group rest ih =>
    rw [Group.addTo]
    by_cases merged : group.name = field.1
    · simp [merged]
    · rw [if_neg merged, List.map_cons, ih, List.map_cons]
      by_cases later : field.1 ∈ rest.map Group.name
      · rw [if_pos later, if_pos (List.mem_cons_of_mem _ later)]
      · have absent : field.1 ∉ group.name :: rest.map Group.name :=
          List.not_mem_cons_of_ne_of_not_mem (Ne.symm merged) later
        rw [if_neg later, if_neg absent, List.cons_append]

theorem names_group (fields : List (String × String)) :
    (group fields).map Group.name = (fields.map Prod.fst).eraseDups := by
  induction fields using List.reverseRecOn with
  | nil => rfl
  | append_singleton before field ih =>
    have last : group (before ++ [field]) = Group.addTo (group before) field := by
      simp [group]
    rw [last, names_addTo, ih, List.map_append, List.eraseDups_append]
    simp only [List.mem_eraseDups, List.map_singleton]
    by_cases seen : field.1 ∈ before.map Prod.fst
    · rw [if_pos seen]
      simp [List.removeAll, seen]
    · have fresh : [field.1].removeAll (before.map Prod.fst) = [field.1] := by
        simp [List.removeAll, seen]
      rw [if_neg seen, fresh]
      rfl

/-- A query that was grouped from fields holds them. -/
theorem holds_group (raw : String) (fields : List (String × String)) :
    Holds ⟨raw, group fields⟩ fields :=
  ⟨names_group fields, getAll_group raw fields⟩

/-! ## Written fields -/

theorem withoutMark_of_head?_ne {text : List Char} (unmarked : text.head? ≠ some '?') :
    withoutMark text = text := by
  cases text with
  | nil => rfl
  | cons first rest =>
    rw [withoutMark]
    rintro _ ⟨⟩
    exact unmarked rfl

/-- The query read from encoded fields groups these fields. -/
theorem ofText_encode (fields : List (String × String)) :
    ofText (String.ofList (Text.Form.encode fields)) =
      ⟨String.ofList (Text.Form.encode fields), group fields⟩ := by
  have unmarked : (Text.Form.encode fields).head? ≠ some '?' := fun first =>
    Text.Form.notMem_encode rfl (by decide) (by decide) fields (List.mem_of_mem_head? first)
  simp only [ofText, String.toList_ofList, withoutMark_of_head?_ne unmarked,
    Text.Form.decode_encode]

/-- A question mark before the encoded fields is no part of them. -/
theorem ofText_mark_encode (fields : List (String × String)) :
    ofText ("?" ++ String.ofList (Text.Form.encode fields)) =
      ⟨String.ofList (Text.Form.encode fields), group fields⟩ := by
  have marked : ("?" ++ String.ofList (Text.Form.encode fields)).toList =
      '?' :: Text.Form.encode fields := by simp
  simp only [ofText, marked, withoutMark, Text.Form.decode_encode]

/-! ## Mappings -/

/-- The fields of a mapping, one after another: a single value gives one field, several values give
one each. -/
def fieldsOf : List (String × Entry) → List (String × String)
  | [] => []
  | (name, .single value) :: rest => (name, value) :: fieldsOf rest
  | (_, .several []) :: rest => fieldsOf rest
  | (name, .several (value :: values)) :: rest =>
    (name, value) :: fieldsOf ((name, .several values) :: rest)

theorem fieldsOf_several (name : String) (values : List String)
    (rest : List (String × Entry)) :
    fieldsOf ((name, .several values) :: rest) =
      values.map (fun value => (name, value)) ++ fieldsOf rest := by
  induction values with
  | nil => simp [fieldsOf]
  | cons value values ih => rw [fieldsOf, ih, List.map_cons, List.cons_append]

/-- A mapping is read as the list of its fields. -/
theorem ofMapping_eq (mapping : List (String × Entry)) :
    ofMapping mapping = ofFields (fieldsOf mapping) := by
  have flattened : (mapping.flatMap fun pair =>
      pair.2.values.map fun value => (pair.1, value)) = fieldsOf mapping := by
    induction mapping with
    | nil => simp [fieldsOf]
    | cons entry rest ih =>
      obtain ⟨name, value | values⟩ := entry
      · rw [List.flatMap_cons, ih]
        simp [fieldsOf, Entry.values]
      · rw [List.flatMap_cons, ih, fieldsOf_several]
        rfl
  rw [← flattened]
  rfl

/-- Fields give the same names in the same order with the same values whether they are read from
their written form, with or without a question mark before it, or taken as they are; and so do a
mapping and the list of its fields. -/
theorem sources_agree :
    (∀ fields : List (String × String),
      (ofText (String.ofList (Text.Form.encode fields))).groups = (ofFields fields).groups ∧
        (ofText ("?" ++ String.ofList (Text.Form.encode fields))).groups =
          (ofFields fields).groups ∧
        (ofFields fields).Holds fields) ∧
    ∀ mapping : List (String × Entry),
      (ofMapping mapping).groups = (ofFields (fieldsOf mapping)).groups ∧
        (ofMapping mapping).Holds (fieldsOf mapping) := by
  refine ⟨fun fields => ⟨?_, ?_, holds_group _ fields⟩, fun mapping => ⟨?_, ?_⟩⟩
  · rw [ofText_encode]
    rfl
  · rw [ofText_mark_encode]
    rfl
  · rw [ofMapping_eq]
  · rw [ofMapping_eq]
    exact holds_group _ _

example : (ofText "?a+b=1&c=%3F&=&a+b=").groups =
    (ofFields [("a b", "1"), ("c", "?"), ("", ""), ("a b", "")]).groups := by
  decide

end RouteTree.Query
