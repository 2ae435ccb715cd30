namespace Phrasebook

abbrev Members (α : Type) := List (String × α)

namespace Members

variable {α : Type}

def get? : Members α → String → Option α
  | [], _ => none
  | (n, a) :: ms, name => if n = name then some a else get? ms name

def put : Members α → String → α → Members α
  | [], name, a => [(name, a)]
  | (n, b) :: ms, name, a => if n = name then (n, a) :: ms else (n, b) :: put ms name a

def putAll (ms new : Members α) : Members α :=
  new.foldl (fun ms (name, a) => ms.put name a) ms

theorem get?_put (ms : Members α) (name other : String) (a : α) :
    get? (put ms name a) other = if name = other then some a else get? ms other := by
  induction ms with
  | nil => simp [put, get?]
  | cons m ms ih => grind [put, get?]

def names (ms : Members α) : List String :=
  ms.map Prod.fst

theorem names_put (ms : Members α) (name : String) (a : α) :
    (ms.put name a).names = if name ∈ ms.names then ms.names else ms.names ++ [name] := by
  induction ms with
  | nil => rfl
  | cons m ms ih => grind [names, put]

theorem nodup_names_put {ms : Members α} (h : ms.names.Nodup) (name : String) (a : α) :
    (ms.put name a).names.Nodup := by
  rw [names_put]
  split
  case isTrue => exact h
  case isFalse hn => exact List.nodup_append.2 ⟨h, by simp, by grind⟩

theorem get?_eq_none_iff {ms : Members α} {name : String} :
    ms.get? name = none ↔ name ∉ ms.names := by
  induction ms with
  | nil => simp [get?, names]
  | cons m ms ih => grind [get?, names]

theorem get?_putAll {new : Members α} (h : new.names.Nodup) (ms : Members α) (name : String) :
    (ms.putAll new).get? name = (new.get? name).or (ms.get? name) := by
  induction new generalizing ms with
  | nil => rfl
  | cons m new ih =>
    obtain ⟨hm, h⟩ := List.nodup_cons.1 h
    calc
      _ = (get? new name).or ((ms.put m.1 m.2).get? name) := ih h _
      _ = (get? (m :: new) name).or (ms.get? name) := by
        rw [get?_put, get?]
        split
        case isTrue hn => rw [get?_eq_none_iff.2 (hn ▸ hm), Option.none_or, Option.some_or]
        case isFalse => rfl

theorem mem_of_get? {ms : Members α} {name : String} {a : α} (h : ms.get? name = some a) :
    (name, a) ∈ ms := by
  induction ms with
  | nil => cases h
  | cons m ms ih => grind [get?]

theorem get?_of_mem {ms : Members α} {name : String} {a : α} (hd : ms.names.Nodup)
    (h : (name, a) ∈ ms) : ms.get? name = some a := by
  induction ms
  case nil => cases h
  case cons m ms ih =>
    obtain ⟨hm, hd⟩ := List.nodup_cons.1 hd
    rcases List.mem_cons.1 h with rfl | h
    case inl => exact if_pos rfl
    case inr =>
      have hn : m.1 ≠ name := fun hn => hm (hn ▸ List.mem_map_of_mem h)
      exact (if_neg hn).trans (ih hd h)

end Members
end Phrasebook
