/-
  Records whose fields have aliases and defaults, and values with a tag.

  What a record gives for its fields is a table by their names (`Json.table`).
  A record that was written gives what was written, whatever the order of its
  entries (`table_present`); a tag is found among the entries (`tagged_perm`).
-/
import Rspm.Lib.Serde

namespace Serde

/-! ## Fields -/

/-- The names of a field: its own, and others that stand for it. -/
structure FieldNames where
  name : String
  aliases : List String := []
deriving DecidableEq

/-- The field that goes by a name. -/
def fieldOf (fields : List FieldNames) (name : String) : Option String :=
  (fields.find? fun field => field.name = name || field.aliases.contains name).map (·.name)

/-- What a record gives for its fields: of a map the entries, none of them twice, and of a
    sequence its elements in the order of the fields. -/
def Json.table (deny : Bool) (fields : List FieldNames) : Json → Option (String → Option Json)
  | .object entries =>
    let known := entries.filterMap fun entry =>
      (fieldOf fields entry.1).map fun name => (name, entry.2)
    if (known.map Prod.fst).Nodup ∧ (deny = true → known.length = entries.length) then
      some fun name => known.lookup name
    else none
  | .array values =>
    if values.length ≤ fields.length then
      some fun name => ((fields.map (·.name)).zip values).lookup name
    else none
  | _ => none

section

variable {α : Type}

/-- A field that must be there. -/
def required (read : Json → Option α) (value : Option Json) : Option α := value.bind read

/-- A field with a default. -/
def withDefault (default : α) (read : Json → Option α) : Option Json → Option α
  | none => some default
  | some value => read value

/-- `Option`: a value, or null. -/
def nullable (read : Json → Option α) : Json → Option (Option α)
  | .null => some none
  | value => (read value).map some

theorem required_some (read : Json → Option α) (value : Json) :
    required read (some value) = read value := rfl

theorem withDefault_some (default : α) (read : Json → Option α) (value : Json) :
    withDefault default read (some value) = read value := rfl

theorem required_eq_some {read : Json → Option α} {value : Option Json} {a : α} :
    required read value = some a ↔ ∃ v, value = some v ∧ read v = some a :=
  Option.bind_eq_some_iff

/-- What a field with a default holds, if its default and what is read hold it. -/
theorem of_withDefault {P : α → Prop} {default : α} {read : Json → Option α}
    {value : Option Json} {a : α} (h : withDefault default read value = some a)
    (hdefault : P default) (hread : ∀ v a, read v = some a → P a) : P a := by
  cases value with
  | none =>
    obtain rfl := Option.some.inj h
    exact hdefault
  | some v => exact hread v a h

theorem nullable_array (read : Json → Option α) (values : List Json) :
    nullable read (.array values) = (read (.array values)).map some := rfl

theorem nullable_string {read : Json → Option α} {text : String} {a : α}
    (h : read (.string text) = some a) : nullable read (.string text) = some (some a) := by
  show (read (.string text)).map some = some (some a)
  rw [h]
  rfl

theorem nullable_eq_some {read : Json → Option α} {value : Json} {a : α}
    (h : nullable read value = some (some a)) : read value = some a := by
  cases value <;> simp_all [nullable]

/-- A field that was written or left out is read as it was. -/
theorem withDefault_map {read : Json → Option (Option α)} {write : α → Json} {value : Option α}
    (h : ∀ a ∈ value, read (write a) = some (some a)) :
    withDefault none read (value.map write) = some value := by
  cases value with
  | none => rfl
  | some a => exact h a rfl

end

/-! ## Records that were written -/

/-- The entries of a record, but for the fields that are left out. -/
def present (fields : List (String × Option Json)) : List (String × Json) :=
  fields.filterMap fun field => field.2.map fun value => (field.1, value)

theorem present_cons (name : String) (value : Option Json) (fields : List (String × Option Json)) :
    present ((name, value) :: fields) =
      (value.map fun value => (name, value)).toList ++ present fields := by
  cases value <;> rfl

theorem map_fst_present (fields : List (String × Option Json)) :
    ((present fields).map Prod.fst).Sublist (fields.map Prod.fst) := by
  induction fields with
  | nil => exact .slnil
  | cons field fields ih =>
    obtain ⟨name, value⟩ := field
    rw [present_cons]
    cases value with
    | none => exact ih.cons name
    | some value => exact ih.cons_cons name

/-- A field of a record that was written is found in it. -/
theorem lookup_present {fields : List (String × Option Json)}
    (hnodup : (fields.map Prod.fst).Nodup) {name : String} {value : Option Json}
    (h : fields.lookup name = some value) : (present fields).lookup name = value := by
  have hmem := (lookup_eq_some hnodup).1 h
  have hpresent : ((present fields).map Prod.fst).Nodup := (map_fst_present fields).nodup hnodup
  cases value with
  | some value =>
    rw [lookup_eq_some hpresent]
    exact List.mem_filterMap.2 ⟨_, hmem, rfl⟩
  | none =>
    rw [List.lookup_eq_none_iff]
    rintro ⟨name', value⟩ hentry
    obtain ⟨⟨name'', value''⟩, hfield, hsome⟩ := List.mem_filterMap.1 hentry
    obtain ⟨value', rfl, heq⟩ := Option.map_eq_some_iff.1 hsome
    obtain ⟨rfl, rfl⟩ := Prod.mk.inj heq
    -- the field that is left out is another one
    have hne : name ≠ name'' := by
      rintro rfl
      rw [(lookup_eq_some hnodup).2 hfield] at h
      cases h
    exact bne_iff_ne.2 hne

/-- No two fields go by one name. -/
def Distinct (fields : List FieldNames) : Prop :=
  (fields.map (·.name)).Nodup ∧ ∀ field ∈ fields, fieldOf fields field.name = some field.name

instance (fields : List FieldNames) : Decidable (Distinct fields) :=
  inferInstanceAs (Decidable (_ ∧ _))

/-- The order of the entries does not matter. -/
theorem table_perm {deny : Bool} {fields : List FieldNames}
    {entries entries' : List (String × Json)} (hperm : entries.Perm entries') :
    (Json.object entries).table deny fields = (Json.object entries').table deny fields := by
  have hknown := hperm.filterMap fun entry =>
    (fieldOf fields entry.1).map fun name => (name, entry.2)
  have hnodup := (hknown.map Prod.fst).nodup_iff
  unfold Json.table
  dsimp only
  rw [← hknown.length_eq, ← hperm.length_eq]
  by_cases h : ((entries.filterMap fun entry =>
      (fieldOf fields entry.1).map fun name => (name, entry.2)).map Prod.fst).Nodup
  · have hlookup : ∀ name, List.lookup name _ = List.lookup name _ :=
      fun _ => lookup_perm hknown h
    simp only [hnodup.1 h, h, true_and, hlookup]
  · simp only [mt hnodup.2 h, h, false_and, if_false]

/-- A record that was written gives what was written. -/
theorem table_present {deny : Bool} {fields : List FieldNames}
    {written : List (String × Option Json)} {entries : List (String × Json)}
    (hfields : Distinct fields) (hwritten : written.map Prod.fst = fields.map (·.name))
    (hperm : entries.Perm (present written)) :
    ∃ field, (Json.object entries).table deny fields = some field ∧
      ∀ name value, written.lookup name = some value → field name = value := by
  have hnodup : (written.map Prod.fst).Nodup := hwritten ▸ hfields.1
  have hknown : (present written).filterMap (fun entry =>
      (fieldOf fields entry.1).map fun name => (name, entry.2)) = present written := by
    have heach : ∀ entry ∈ present written, (fieldOf fields entry.1).map
        (fun name => (name, entry.2)) = some entry := by
      intro entry hentry
      have hname := (map_fst_present written).subset (List.mem_map_of_mem hentry)
      rw [hwritten] at hname
      obtain ⟨field, hfield, hfield'⟩ := List.mem_map.1 hname
      rw [← hfield', hfields.2 field hfield, Option.map_some, hfield']
    rw [List.filterMap_congr heach, List.filterMap_some]
  refine ⟨fun name => (present written).lookup name, ?_, fun name value h =>
    lookup_present hnodup h⟩
  rw [table_perm hperm]
  unfold Json.table
  dsimp only
  rw [hknown, if_pos ⟨(map_fst_present written).nodup hnodup, fun _ => rfl⟩]

/-! ## Tags -/

/-- The tag of a value, and the rest of it. -/
def Json.tagged (tag : String) : Json → Option (Json × Json)
  | .object entries =>
    match entries.filter (·.1 = tag) with
    | [entry] => some (entry.2, .object (entries.filter (·.1 ≠ tag)))
    | _ => none
  | .array (name :: values) => some (name, .array values)
  | _ => none

/-- A tag is found among entries that are not tags. -/
theorem tagged_perm {tag : String} {name : Json} {entries rest : List (String × Json)}
    (hrest : ∀ entry ∈ rest, entry.1 ≠ tag) (hperm : entries.Perm ((tag, name) :: rest)) :
    ∃ rest', rest'.Perm rest ∧ (Json.object entries).tagged tag = some (name, .object rest') := by
  have hnone : rest.filter (·.1 = tag) = [] :=
    List.filter_eq_nil_iff.2 fun entry hentry => by simpa using hrest entry hentry
  have hall : rest.filter (·.1 ≠ tag) = rest :=
    List.filter_eq_self.2 fun entry hentry => by simpa using hrest entry hentry
  have htag := hperm.filter (·.1 = tag)
  rw [List.filter_cons_of_pos (by simp), hnone] at htag
  have hother := hperm.filter (·.1 ≠ tag)
  rw [List.filter_cons_of_neg (by simp), hall] at hother
  refine ⟨_, hother, ?_⟩
  unfold Json.tagged
  dsimp only
  rw [List.perm_singleton.1 htag]

/-- The tag of a record that was written. -/
theorem tagged_present {tag : String} {name : Json} {fields : List FieldNames}
    {written : List (String × Option Json)} {entries : List (String × Json)}
    (htag : tag ∉ fields.map (·.name)) (hwritten : written.map Prod.fst = fields.map (·.name))
    (hperm : entries.Perm ((tag, name) :: present written)) :
    ∃ rest, rest.Perm (present written) ∧
      (Json.object entries).tagged tag = some (name, .object rest) := by
  refine tagged_perm (fun entry hentry => ?_) hperm
  have hname := (map_fst_present written).subset (List.mem_map_of_mem hentry)
  rw [hwritten] at hname
  rintro rfl
  exact htag hname

end Serde
