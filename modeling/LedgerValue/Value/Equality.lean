import LedgerValue.Value.Basic

/-!
# Raw equality

Two values are raw equal when they have the same state, the same type and the same payload at
every depth. Exact numbers are compared by value, and so are host numbers: the two zeros are
equal, and what is no number differs from itself. Main statement: raw equal values have the same
type (`ty_eq_of_rawEqual`).
-/

namespace LedgerValue.Value

mutual

/-- The values have the same state, type and payload. -/
def rawEqual : Value → Value → Bool
  | null s, null t => s = t
  | unknown s, unknown t => s = t
  | string s, string t => s = t
  | bool a, bool b => a = b
  | hostNumber x, hostNumber y => x.sameValue y
  | number m, number n => m = n
  | amount a, amount b => a = b
  | list s vs, list t ws => s = t && rawEqualItems vs ws
  | map s vs, map t ws => s = t && rawEqualEntries vs ws
  | tuple vs, tuple ws => rawEqualItems vs ws
  | object vs, object ws => rawEqualEntries vs ws
  | foreign c bytes, foreign d others => c = d && bytes = others
  | _, _ => false

/-- The items are raw equal one by one. -/
def rawEqualItems : List Value → List Value → Bool
  | [], [] => true
  | v :: vs, w :: ws => rawEqual v w && rawEqualItems vs ws
  | _, _ => false

/-- The entries have the same names and raw equal values. -/
def rawEqualEntries : List (String × Value) → List (String × Value) → Bool
  | [], [] => true
  | (j, v) :: vs, (k, w) :: ws => j = k && rawEqual v w && rawEqualEntries vs ws
  | _, _ => false

end

mutual

theorem ty_eq_of_rawEqual : ∀ {v w : Value}, rawEqual v w = true → v.ty = w.ty
  | v, w, hequal => by
    cases v <;> cases w <;> simp only [rawEqual, Bool.false_eq_true, Bool.and_eq_true,
      decide_eq_true_eq] at hequal
    case null.null => simpa only [ty] using hequal
    case unknown.unknown => simpa only [ty] using hequal
    case list.list => simp only [ty, hequal.1]
    case map.map => simp only [ty, hequal.1]
    case tuple.tuple => simp only [ty, tys_eq_of_rawEqualItems hequal]
    case object.object => simp only [ty, attributeTys_eq_of_rawEqualEntries hequal]
    case foreign.foreign => simp only [ty, hequal.1]
    all_goals simp only [ty]

theorem tys_eq_of_rawEqualItems :
    ∀ {vs ws : List Value}, rawEqualItems vs ws = true → tys vs = tys ws
  | [], [], _ => rfl
  | [], _ :: _, hequal => by simp [rawEqualItems] at hequal
  | _ :: _, [], hequal => by simp [rawEqualItems] at hequal
  | v :: vs, w :: ws, hequal => by
    simp only [rawEqualItems, Bool.and_eq_true] at hequal
    simp only [tys, ty_eq_of_rawEqual hequal.1, tys_eq_of_rawEqualItems hequal.2]

theorem attributeTys_eq_of_rawEqualEntries :
    ∀ {vs ws : List (String × Value)}, rawEqualEntries vs ws = true →
      attributeTys vs = attributeTys ws
  | [], [], _ => rfl
  | [], _ :: _, hequal => by simp [rawEqualEntries] at hequal
  | _ :: _, [], hequal => by simp [rawEqualEntries] at hequal
  | (j, v) :: vs, (k, w) :: ws, hequal => by
    simp only [rawEqualEntries, Bool.and_eq_true, decide_eq_true_eq] at hequal
    simp only [attributeTys, hequal.1.1, ty_eq_of_rawEqual hequal.1.2,
      attributeTys_eq_of_rawEqualEntries hequal.2]

end

end LedgerValue.Value
