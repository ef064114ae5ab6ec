import RouteTree.Query.Probe
import RouteTree.Proofs.Query.Sources

/-! # Queries as ordered multimaps

A text, some bytes, a mapping and a list of fields each stand for fields in an order, and the query
made from them loses none: names come in the order in which they are first seen, and the values of a
name in theirs.

A group cannot be without values. Fields can also be collected in a dictionary of lists, where a new
name is first given the empty list and then its value. There the ways of asking for a name test
different things, namely whether it is present, whether its list holds something, and whether the
list has a first place. They agree because the loop leaves no list empty, which is shown by
`Dictionary.collect_eq`: what the loop makes are the groups.
-/

namespace RouteTree.Query

/-! ## Asking for a name -/

section

variable (query : Query) (name : String)

theorem get?_eq_head? : query.get? name = (query.getAll name).head? := by
  rw [get?, getAll]
  cases query.groups.find? (·.name = name) <;> rfl

theorem contains_iff : query.contains name = true ↔ query.getAll name ≠ [] := by
  have found : (query.groups.find? (·.name = name)).isSome ↔ query.contains name = true := by
    rw [List.find?_isSome, contains, List.any_eq_true]
  rw [← found, getAll]
  cases query.groups.find? (·.name = name) with
  | none => simp
  | some group => simp [Group.values]

variable {query name}

/-- A name that has values is answered with the first of them, whatever it is. -/
theorem item_of_getAll_eq_cons {first : String} {others : List String}
    (listed : query.getAll name = first :: others) :
    query.item name = .ok first ∧ ∀ otherwise, query.getD name otherwise = .text first := by
  have present : query.get? name = some first := by
    rw [get?_eq_head?, listed]
    rfl
  refine ⟨?_, fun otherwise => ?_⟩
  · rw [item, present]
  · rw [getD, present]

theorem item_of_getAll_eq_nil (none : query.getAll name = []) :
    query.item name = .error (.absent name) ∧
      ∀ otherwise, query.getD name otherwise = otherwise := by
  have absent : query.get? name = .none := by
    rw [get?_eq_head?, none]
    rfl
  refine ⟨?_, fun otherwise => ?_⟩
  · rw [item, absent]
  · rw [getD, absent]

end

/-! ## A dictionary of lists -/

/-- Lists of values by name, in the order in which the names were set. A list may be empty. -/
abbrev Dictionary := List (String × List String)

namespace Dictionary

/-- Give a name that is absent the empty list. -/
def settle (dictionary : Dictionary) (name : String) : Dictionary :=
  if name ∈ dictionary.map Prod.fst then dictionary else dictionary ++ [(name, [])]

/-- Add a value at the end of the list of a name. -/
def push (dictionary : Dictionary) (name value : String) : Dictionary :=
  dictionary.map fun entry => if entry.1 = name then (name, entry.2 ++ [value]) else entry

/-- Collect fields one after another. -/
def collect (fields : List (String × String)) : Dictionary :=
  fields.foldl (fun dictionary field => (dictionary.settle field.1).push field.1 field.2) []

/-- Why a dictionary has no first value for a name. -/
inductive Lack where
  /-- The name is absent. -/
  | name
  /-- The name is present, but its list has no first place. -/
  | place
  deriving DecidableEq, Repr

/-- The first place in the list of a name. -/
def first (dictionary : Dictionary) (name : String) : Except Lack String :=
  match dictionary.lookup name with
  | none => .error .name
  | some [] => .error .place
  | some (value :: _) => .ok value

variable {dictionary : Dictionary} {name : String}

theorem push_cons (entry : String × List String) (dictionary : Dictionary) (name value : String) :
    push (entry :: dictionary) name value =
      (if entry.1 = name then (name, entry.2 ++ [value]) else entry) :: dictionary.push name value :=
  rfl

theorem push_append (first second : Dictionary) (name value : String) :
    push (first ++ second) name value = first.push name value ++ second.push name value :=
  List.map_append

theorem push_of_notMem (absent : name ∉ dictionary.map Prod.fst) (value : String) :
    dictionary.push name value = dictionary := by
  refine (List.map_congr_left fun entry listed => ?_).trans (List.map_id _)
  have other : entry.1 ≠ name := by
    rintro rfl
    exact absent (List.mem_map_of_mem listed)
  rw [if_neg other, id]

end Dictionary

/-- A group as an entry of a dictionary. -/
def Group.entry (group : Group) : String × List String :=
  (group.name, group.values)

theorem Group.keys_entry (groups : List Group) :
    (groups.map entry).map Prod.fst = groups.map name := by
  rw [List.map_map]
  rfl

/-- A value is pushed into the group of its name. -/
theorem push_entries_of_mem {groups : List Group} (distinct : (groups.map Group.name).Nodup)
    {name : String} (present : name ∈ groups.map Group.name) (value : String) :
    Dictionary.push (groups.map Group.entry) name value =
      (Group.addTo groups (name, value)).map Group.entry := by
  induction groups with
  | nil => contradiction
  | cons group rest ih =>
    obtain ⟨fresh, distinct⟩ := List.nodup_cons.mp distinct
    rw [Group.addTo]
    by_cases same : group.name = name
    · subst same
      have untouched : Dictionary.push (rest.map Group.entry) group.name value =
          rest.map Group.entry :=
        Dictionary.push_of_notMem (by rwa [Group.keys_entry]) value
      rw [if_pos rfl, List.map_cons, List.map_cons, Dictionary.push_cons, untouched]
      exact congrArg (· :: _) (if_pos rfl)
    · have later : name ∈ rest.map Group.name := by simpa [Ne.symm same] using present
      have onward := ih distinct later
      rw [if_neg same, List.map_cons, List.map_cons, Dictionary.push_cons, onward]
      exact congrArg (· :: _) (if_neg same)

/-- Settling a name and pushing a value is adding the value to the groups. -/
theorem push_settle_entries {groups : List Group} (distinct : (groups.map Group.name).Nodup)
    (name value : String) :
    Dictionary.push (Dictionary.settle (groups.map Group.entry) name) name value =
      (Group.addTo groups (name, value)).map Group.entry := by
  rw [Dictionary.settle, Group.keys_entry]
  by_cases present : name ∈ groups.map Group.name
  · rw [if_pos present, push_entries_of_mem distinct present]
  · have untouched : Dictionary.push (groups.map Group.entry) name value = groups.map Group.entry :=
      Dictionary.push_of_notMem (by rwa [Group.keys_entry]) value
    rw [if_neg present, addTo_of_notMem present, List.map_append, Dictionary.push_append, untouched,
      Dictionary.push_cons, if_pos rfl]
    rfl

/-- The dictionary that collects fields holds their groups. -/
theorem Dictionary.collect_eq (fields : List (String × String)) :
    collect fields = (group fields).map Group.entry := by
  induction fields using List.reverseRecOn with
  | nil => rfl
  | append_singleton before field ih =>
    have distinct : ((group before).map Group.name).Nodup := by
      rw [names_group]
      exact nodup_eraseDups _
    have last : group (before ++ [field]) = Group.addTo (group before) field := by
      simp [group]
    rw [last, ← push_settle_entries distinct, ← ih]
    simp [collect]

/-- In what was collected no list is empty. -/
theorem Dictionary.ne_nil_of_mem_collect {fields : List (String × String)} :
    ∀ entry ∈ collect fields, entry.2 ≠ [] := by
  intro entry listed
  rw [collect_eq] at listed
  obtain ⟨group, _, rfl⟩ := List.mem_map.mp listed
  exact List.cons_ne_nil _ _

theorem lookup_entries (groups : List Group) (name : String) :
    (groups.map Group.entry).lookup name =
      (groups.find? (·.name = name)).map Group.values := by
  induction groups with
  | nil => rfl
  | cons group rest ih =>
    rw [List.map_cons, Group.entry, List.lookup_cons, List.find?_cons, ih]
    by_cases same : group.name = name
    · simp [same]
    · simp [same, beq_eq_false_iff_ne.mpr (Ne.symm same)]

/-- In what was collected, a name that is present has a first value. -/
theorem Dictionary.first_collect (raw : String) (fields : List (String × String)) (name : String) :
    (collect fields).first name = (item ⟨raw, group fields⟩ name).mapError fun _ => Lack.name := by
  rw [first, collect_eq, lookup_entries, item, get?]
  cases (group fields).find? (·.name = name) <;> rfl

/-! ## What queries are made from -/

/-- What a query can be made from. -/
inductive Source where
  | text (written : String)
  | bytes (octets : List UInt8)
  | mapping (entries : List (String × Entry))
  | fields (listed : List (String × String))

namespace Source

/-- The query made from a source. -/
def query : Source → Query
  | .text written => ofText written
  | .bytes octets => ofBytes octets
  | .mapping entries => ofMapping entries
  | .fields listed => ofFields listed

/-- The fields that a source stands for. Each byte is one character. -/
def decoded : Source → List (String × String)
  | .text written => Text.Form.decode (withoutMark written.toList)
  | .bytes octets =>
    Text.Form.decode (withoutMark (octets.map fun byte => Char.ofNat byte.toNat))
  | .mapping entries => fieldsOf entries
  | .fields listed => listed

theorem groups_query (source : Source) : source.query.groups = group source.decoded := by
  cases source with
  | text written => rfl
  | bytes octets => simp only [query, decoded, ofBytes, ofText, String.toList_ofList]
  | mapping entries =>
    rw [query, ofMapping_eq]
    rfl
  | fields listed => rfl

end Source

/-- A query is the ordered multimap of some fields. -/
structure IsMultimapOf (query : Query) (fields : List (String × String)) : Prop where
  /-- A name has the values of its fields in their order. -/
  getAll_eq : ∀ name, query.getAll name = valuesOf name fields
  /-- The names come once each, as they are first seen. -/
  names_eq : query.names = (fields.map Prod.fst).eraseDups
  size_eq : query.size = (fields.map Prod.fst).eraseDups.length
  /-- The groups are the dictionary that collects the fields. -/
  collected : query.groups.map Group.entry = Dictionary.collect fields
  /-- No list of the dictionary is empty. -/
  occupied : ∀ entry ∈ Dictionary.collect fields, entry.2 ≠ []
  /-- The dictionary lacks a first value only where it lacks the name. -/
  first_eq : ∀ name, (Dictionary.collect fields).first name =
    (query.item name).mapError fun _ => Dictionary.Lack.name
  /-- Exactly the names with values are present. -/
  contains_iff : ∀ name, query.contains name = true ↔ query.getAll name ≠ []
  /-- Exactly the names with values can be asked for. -/
  item_iff : ∀ name, (∃ value, query.item name = .ok value) ↔ query.getAll name ≠ []
  /-- Asking for a name is refused for no other reason than that it is absent. -/
  refused : ∀ name error, query.item name = .error error → error = .absent name
  /-- A name that has values is answered with the first one. -/
  first : ∀ name value others, query.getAll name = value :: others →
    query.item name = .ok value ∧ ∀ otherwise, query.getD name otherwise = .text value
  /-- A name without values is answered with what the caller gave. -/
  fallback : ∀ name, query.getAll name = [] → ∀ otherwise, query.getD name otherwise = otherwise

theorem isMultimapOf_group (raw : String) (fields : List (String × String)) :
    IsMultimapOf ⟨raw, group fields⟩ fields where
  getAll_eq := getAll_group raw fields
  names_eq := names_group fields
  size_eq := by rw [← names_group, List.length_map]; rfl
  collected := (Dictionary.collect_eq fields).symm
  occupied := Dictionary.ne_nil_of_mem_collect
  first_eq := Dictionary.first_collect raw fields
  contains_iff := Query.contains_iff _
  item_iff name := by
    cases listed : getAll ⟨raw, group fields⟩ name with
    | nil => simp [(item_of_getAll_eq_nil listed).1]
    | cons value others => simp [(item_of_getAll_eq_cons listed).1]
  refused name error refusal := by
    cases listed : getAll ⟨raw, group fields⟩ name with
    | nil =>
      rw [(item_of_getAll_eq_nil listed).1] at refusal
      exact (Except.error.inj refusal).symm
    | cons value others =>
      rw [(item_of_getAll_eq_cons listed).1] at refusal
      contradiction
  first _ _ _ listed := item_of_getAll_eq_cons listed
  fallback _ none := (item_of_getAll_eq_nil none).2

/-- A mapping is read as if a name with an empty list were not in it. -/
theorem ofMapping_empty (before after : List (String × Entry)) (name : String) :
    ofMapping (before ++ (name, .several []) :: after) = ofMapping (before ++ after) := by
  simp only [ofMapping, List.flatMap_append, List.flatMap_cons, Entry.values, List.map_nil,
    List.nil_append]

/-- A query is the ordered multimap of the fields that its source stands for, and names that a
mapping gives no values do not count. -/
theorem sources_are_multimaps :
    (∀ source : Source, source.query.IsMultimapOf source.decoded) ∧
      ∀ before after name,
        ofMapping (before ++ (name, .several []) :: after) = ofMapping (before ++ after) := by
  refine ⟨fun source => ?_, ofMapping_empty⟩
  have whole : source.query = ⟨source.query.raw, group source.decoded⟩ := by
    rw [← source.groups_query]
  rw [whole]
  exact isMultimapOf_group _ _

example : (Source.text "?b=&a=1&b=2&&a").query.groups =
    [⟨"b", "", ["2"]⟩, ⟨"a", "1", [""]⟩] := by
  decide

end RouteTree.Query
