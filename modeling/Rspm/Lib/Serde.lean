/-
  Values of a self-describing format, and the records that are read from them.

  A record is a map with its fields, in any order and none of them twice, or the
  sequence of its fields.
-/
import Mathlib

namespace Serde

inductive Json where
  | null
  | bool (value : Bool)
  /-- the text of the number -/
  | number (text : String)
  | string (text : String)
  | array (values : List Json)
  | object (entries : List (String × Json))

/-- The fields of a record, by their names; `deny` are the records with `deny_unknown_fields`. -/
def Json.record (deny : Bool) (names : List String) : Json → Option (List Json)
  | .object entries =>
    let known := entries.filter fun entry => names.contains entry.1
    if (known.map Prod.fst).Nodup ∧ (deny = true → known.length = entries.length) then
      names.mapM fun name => known.lookup name
    else none
  | .array values => if values.length = names.length then some values else none
  | _ => none

/-- In a list without duplicate keys, a value is found if it is there. -/
theorem lookup_eq_some {α : Type} {name : String} {value : α} {entries : List (String × α)}
    (h : (entries.map Prod.fst).Nodup) :
    entries.lookup name = some value ↔ (name, value) ∈ entries := by
  induction entries with
  | nil => simp
  | cons entry entries ih =>
    obtain ⟨key, found⟩ := entry
    rw [List.map_cons, List.nodup_cons] at h
    rw [List.lookup_cons, List.mem_cons, Prod.mk.injEq]
    by_cases hkey : name = key
    · subst hkey
      have hout : (name, value) ∉ entries := fun hmem => h.1 (List.mem_map.2 ⟨_, hmem, rfl⟩)
      simp [hout, eq_comm]
    · rw [beq_false_of_ne hkey]
      simp only [hkey, false_and, false_or]
      exact ih h.2

theorem lookup_perm {α : Type} {name : String} {entries entries' : List (String × α)}
    (hperm : entries.Perm entries') (h : (entries.map Prod.fst).Nodup) :
    entries.lookup name = entries'.lookup name := by
  have h' : (entries'.map Prod.fst).Nodup := (hperm.map _).nodup_iff.1 h
  apply Option.ext
  intro value
  rw [lookup_eq_some h, lookup_eq_some h', hperm.mem_iff]

/-- The order of the entries does not matter. -/
theorem record_perm {deny : Bool} {names : List String} {entries entries' : List (String × Json)}
    (hperm : entries.Perm entries') :
    (Json.object entries).record deny names = (Json.object entries').record deny names := by
  have hknown := hperm.filter fun entry => names.contains entry.1
  have hnodup := (hknown.map Prod.fst).nodup_iff
  unfold Json.record
  dsimp only
  rw [← hknown.length_eq, ← hperm.length_eq]
  by_cases h : ((entries.filter fun entry => names.contains entry.1).map Prod.fst).Nodup
  · have hlookup : ∀ name, List.lookup name _ = List.lookup name _ :=
      fun _ => lookup_perm hknown h
    simp only [hnodup.1 h, h, true_and, hlookup]
  · simp only [mt hnodup.2 h, h, false_and, if_false]

end Serde
