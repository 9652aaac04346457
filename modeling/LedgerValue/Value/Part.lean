import LedgerValue.Path
import LedgerValue.Value.WellFormed

/-!
# Parts of values and types

A step leads from a value to one of its parts, and from a type to the type of that part. A position
leads into lists and tuples, and a name, written either way, into maps and objects. Main statements:
a part of a well-formed value is well formed (`wellFormed_of_at?`) and has the type that the same
path leads to in the type of the value (`ty_at?`).
-/

namespace LedgerValue

namespace Ty

/-- The type of the part one step in. -/
def part? : Ty → Step → Option Ty
  | list element, .position _ => some element
  | tuple elements, .position index => elements[index]?
  | map element, .key _ => some element
  | map element, .member _ => some element
  | object attributes, .key name => attributes.lookup name
  | object attributes, .member name => attributes.lookup name
  | _, _ => none

/-- The type of the part at the end of a path. -/
def at? : Ty → Path → Option Ty
  | ty, [] => some ty
  | ty, step :: path => (ty.part? step).bind fun part => part.at? path

end Ty

namespace Value

/-- The part one step in. -/
def part? : Value → Step → Option Value
  | list _ items, .position index => items[index]?
  | tuple items, .position index => items[index]?
  | map _ entries, .key name => entries.lookup name
  | map _ entries, .member name => entries.lookup name
  | object attributes, .key name => attributes.lookup name
  | object attributes, .member name => attributes.lookup name
  | _, _ => none

/-- The part at the end of a path. -/
def at? : Value → Path → Option Value
  | value, [] => some value
  | value, step :: path => (value.part? step).bind fun part => part.at? path

theorem lookup_attributeTys {name : String} {value : Value} {attributes : List (String × Value)}
    (hlookup : attributes.lookup name = some value) :
    (attributeTys attributes).lookup name = some value.ty := by
  rw [attributeTys_eq_mapValues, Record.lookup_mapValues, hlookup, Option.map_some]

theorem wellFormed_of_part? {value part : Value} {step : Step} (hvalue : value.WellFormed)
    (hpart : value.part? step = some part) : part.WellFormed := by
  cases value <;> cases step <;> simp only [part?, reduceCtorEq] at hpart
  case list.position =>
    exact (wellFormed_list_iff.mp hvalue).2.2 _ (List.mem_of_getElem? hpart)
  case tuple.position => exact wellFormed_tuple_iff.mp hvalue _ (List.mem_of_getElem? hpart)
  case map.key | map.member =>
    exact (wellFormed_map_iff.mp hvalue).2.2.2 _ (Record.mem_of_lookup hpart)
  case object.key | object.member =>
    exact (wellFormed_object_iff.mp hvalue).2 _ (Record.mem_of_lookup hpart)

theorem ty_part? {value part : Value} {step : Step} (hvalue : value.WellFormed)
    (hpart : value.part? step = some part) : value.ty.part? step = some part.ty := by
  cases value <;> cases step <;> simp only [part?, reduceCtorEq] at hpart <;>
    simp only [WellFormed] at hvalue <;> simp only [ty, Ty.part?]
  case list.position => rw [hvalue.2.1 _ (List.mem_of_getElem? hpart)]
  case tuple.position => rw [tys_eq_map, List.getElem?_map, hpart, Option.map_some]
  case map.key | map.member => rw [hvalue.2.1 _ (Record.mem_of_lookup hpart)]
  case object.key | object.member => exact lookup_attributeTys hpart

theorem wellFormed_of_at? {value part : Value} {path : Path} (hvalue : value.WellFormed)
    (hpart : value.at? path = some part) : part.WellFormed := by
  induction path generalizing value with
  | nil =>
    obtain rfl := Option.some.inj hpart
    exact hvalue
  | cons step path ih =>
    obtain ⟨next, hnext, hrest⟩ := Option.bind_eq_some_iff.mp hpart
    exact ih (wellFormed_of_part? hvalue hnext) hrest

theorem ty_at? {value part : Value} {path : Path} (hvalue : value.WellFormed)
    (hpart : value.at? path = some part) : value.ty.at? path = some part.ty := by
  induction path generalizing value with
  | nil =>
    obtain rfl := Option.some.inj hpart
    rfl
  | cons step path ih =>
    obtain ⟨next, hnext, hrest⟩ := Option.bind_eq_some_iff.mp hpart
    rw [Ty.at?, ty_part? hvalue hnext, Option.bind_some]
    exact ih (wellFormed_of_part? hvalue hnext) hrest

end Value

end LedgerValue
