import Phrasebook.Json.Token

namespace Phrasebook.Json

def Symbol.shown (c : Conversion) : Symbol → Char
  | char d => d
  | half n _ => c.half n

def text (c : Conversion) (s : List Symbol) : String :=
  String.ofList (s.map (Symbol.shown c))

mutual

def value (c : Conversion) : Nat → List Char → Except Fault (Value × List Char)
  | 0, _ => .error .value
  | fuel + 1, source =>
    match source with
    | '"' :: source => do
      let (s, rest) ← string 0 source
      return (.text (text c s), rest)
    | '\x7b' :: source =>
      match skip source with
      | '\x7d' :: rest => .ok (.object [], rest)
      | source => do
        let (ms, rest) ← members c fuel [] source
        return (.object ms, rest)
    | '[' :: source =>
      match skip source with
      | ']' :: rest => .ok (.list [], rest)
      | source => do
        let (vs, rest) ← items c fuel source
        return (.list vs, rest)
    | source =>
      match word? source with
      | some found => .ok found
      | none => number c source

-- Reads members up to the closing brace and writes them one after the other over `ms`.
def members (c : Conversion) :
    Nat → Members Value → List Char → Except Fault (Members Value × List Char)
  | 0, _, _ => .error .name
  | fuel + 1, ms, source =>
    match source with
    | '"' :: source => do
      let (name, source) ← string 0 source
      match skip source with
      | ':' :: source =>
        let (v, source) ← value c fuel (skip source)
        let ms := ms.put (text c name) v
        match skip source with
        | '\x7d' :: rest => return (ms, rest)
        | ',' :: source => members c fuel ms (skip source)
        | _ => throw .comma
      | _ => throw .colon
    | _ => .error .name

def items (c : Conversion) : Nat → List Char → Except Fault (List Value × List Char)
  | 0, _ => .error .value
  | fuel + 1, source => do
    let (v, source) ← value c fuel source
    match skip source with
    | ']' :: rest => return ([v], rest)
    | ',' :: source =>
      let (vs, rest) ← items c fuel (skip source)
      return (v :: vs, rest)
    | _ => throw .comma

end

variable {c : Conversion}

theorem exists_of_bind_eq_ok {α β : Type} {x : Except Fault α} {f : α → Except Fault β} {b : β}
    (h : x >>= f = .ok b) : ∃ a, x = .ok a ∧ f a = .ok b := by
  cases x
  case error => cases h
  case ok a => exact ⟨a, rfl, h⟩

theorem nodup_names_of_members {fuel : Nat} {ms found : Members Value} {source rest : List Char}
    (hd : ms.names.Nodup) (h : members c fuel ms source = .ok (found, rest)) :
    found.names.Nodup := by
  induction fuel generalizing ms source
  case zero => cases h
  case succ fuel ih =>
    unfold members at h
    split at h
    case h_2 => cases h
    case h_1 =>
      obtain ⟨⟨name, source⟩, _, h⟩ := exists_of_bind_eq_ok h
      dsimp only at h
      split at h
      case h_2 => cases h
      case h_1 =>
        obtain ⟨⟨v, source⟩, _, h⟩ := exists_of_bind_eq_ok h
        dsimp only at h
        have hd := Members.nodup_names_put hd (text c name) v
        split at h
        case h_1 =>
          cases h
          exact hd
        case h_2 => exact ih hd h
        case h_3 => cases h

theorem number_ne_object {source rest : List Char} {ms : Members Value} :
    number c source ≠ .ok (.object ms, rest) := by
  intro h
  simp only [number] at h
  split at h
  case h_1 => cases h
  case h_2 =>
    split at h
    case h_1 | h_3 => cases h
    case h_2 =>
      obtain ⟨_, _, h⟩ := exists_of_bind_eq_ok h
      cases h

theorem word?_ne_object {source rest : List Char} {ms : Members Value} :
    word? source ≠ some (.object ms, rest) := by
  intro h
  obtain ⟨⟨word, v⟩, hm, h⟩ := List.exists_of_findSome?_eq_some h
  obtain ⟨_, _, h⟩ := Option.map_eq_some_iff.1 h
  cases h
  simp [words] at hm

theorem nodup_names_of_value {fuel : Nat} {ms : Members Value} {source rest : List Char}
    (h : value c fuel source = .ok (.object ms, rest)) : ms.names.Nodup := by
  cases fuel
  case zero => cases h
  case succ fuel =>
    unfold value at h
    split at h
    case h_1 =>
      obtain ⟨_, _, h⟩ := exists_of_bind_eq_ok h
      cases h
    case h_2 =>
      split at h
      case h_1 =>
        cases h
        exact List.nodup_nil
      case h_2 =>
        obtain ⟨_, hm, h⟩ := exists_of_bind_eq_ok h
        cases h
        refine nodup_names_of_members ?_ hm
        exact List.nodup_nil
    case h_3 =>
      split at h
      case h_1 => cases h
      case h_2 =>
        obtain ⟨_, _, h⟩ := exists_of_bind_eq_ok h
        cases h
    case h_4 =>
      split at h
      case h_1 hw =>
        cases h
        exact absurd hw word?_ne_object
      case h_2 => exact absurd h number_ne_object

-- Every value, member and item takes at least one character, and a list or an object takes two
-- steps for its first, so this fuel is never used up.
def fuel (source : List Char) : Nat :=
  2 * source.length + 1

def read (source : String) (c : Conversion := .standard) : Except Fault Value :=
  match source.toList with
  | '\uFEFF' :: _ => .error .byteOrderMark
  | cs => do
    let (v, rest) ← value c (fuel cs) (skip cs)
    if (skip rest).isEmpty then return v else throw .extra

theorem nodup_names_of_read {source : String} {ms : Members Value}
    (h : read source c = .ok (.object ms)) : ms.names.Nodup := by
  unfold read at h
  split at h
  case h_1 => cases h
  case h_2 =>
    obtain ⟨⟨v, rest⟩, hv, h⟩ := exists_of_bind_eq_ok h
    dsimp only at h
    split at h <;> cases h
    exact nodup_names_of_value hv

end Phrasebook.Json
