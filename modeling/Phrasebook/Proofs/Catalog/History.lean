import Phrasebook.Proofs.Catalog.Entries
import Phrasebook.Proofs.Catalog.Paths

namespace Phrasebook.Catalog

structure Write where
  given : Locale.Given
  locale : Locale
  accepted : given.read = .ok locale
  ns : String
  key : String
  text : String

namespace Write

def place (w : Write) : String × String × String :=
  (w.locale.tag, w.ns, w.key)

def uses (w : Write) (tag ns : String) : Bool :=
  w.locale.tag = tag ∧ w.ns = ns

end Write

def replay (c : Catalog) (history : List Write) : Except Failure Catalog :=
  history.foldlM (fun c w => c.add w.given w.ns w.key (.text w.text)) c

def last? (history : List Write) (place : String × String × String) : Option String :=
  (history.filter (·.place = place)).getLast?.map Write.text

def held? (c : Catalog) (tag ns key : String) : Option Value :=
  (c.tree? tag ns).bind (·.get? key)

structure Same (c c' : Catalog) : Prop where
  spaces : ∀ tag ns, (c.tree? tag ns).isSome = (c'.tree? tag ns).isSome
  entries : ∀ tag ns key, c.held? tag ns key = c'.held? tag ns key

-- A catalog holds just what the history has written.
structure Recalls (c : Catalog) (history : List Write) : Prop where
  spaces : ∀ tag ns, (c.tree? tag ns).isSome = history.any (·.uses tag ns)
  entries : ∀ tag ns key, c.held? tag ns key = (last? history (tag, ns, key)).map .text

variable {c c' : Catalog} {history : List Write}

theorem last?_concat (history : List Write) (w : Write) (place : String × String × String) :
    last? (history ++ [w]) place =
      if w.place = place then some w.text else last? history place := by
  rw [last?, List.filter_append]
  split
  case isTrue h => simp [h]
  case isFalse h => simp [h, last?]

theorem held?_modify (c : Catalog) (w : Write) (tag ns key : String) :
    (c.modify w.locale.tag w.ns (·.put w.key (.text w.text))).held? tag ns key =
      if w.place = (tag, ns, key) then some (.text w.text) else c.held? tag ns key := by
  have hplace : w.place = (tag, ns, key) ↔ (w.locale.tag = tag ∧ w.ns = ns) ∧ w.key = key := by
    simp [Write.place, and_assoc]
  rw [held?, tree?_modify, ite_cond_congr (propext hplace)]
  by_cases h : w.locale.tag = tag ∧ w.ns = ns
  case neg => simp only [h, false_and, if_false, held?]
  case pos =>
    have htree : ((c.tree? w.locale.tag w.ns).getD []).get? key = c.held? tag ns key := by
      rw [held?, h.1, h.2]
      cases c.tree? tag ns <;> rfl
    rw [if_pos h, Option.bind_some, Members.get?_put, htree]
    simp only [h, true_and]

theorem Recalls.add (h : c.Recalls history) (w : Write) :
    ∃ c', c.add w.given w.ns w.key (.text w.text) = .ok c' ∧ c'.Recalls (history ++ [w]) := by
  refine ⟨_, add_of_read w.accepted _, ?_, ?_⟩
  case refine_1 =>
    intro tag ns
    rw [tree?_modify, List.any_append, ← h.spaces, List.any_cons, List.any_nil, Bool.or_false]
    by_cases hw : w.locale.tag = tag ∧ w.ns = ns
    case pos => rw [if_pos hw, Write.uses, decide_eq_true hw, Option.isSome_some, Bool.or_true]
    case neg => rw [if_neg hw, Write.uses, decide_eq_false hw, Bool.or_false]
  case refine_2 =>
    intro tag ns key
    rw [held?_modify, last?_concat, h.entries]
    split <;> rfl

theorem Recalls.replay (h : c.Recalls history) (more : List Write) :
    ∃ c', c.replay more = .ok c' ∧ c'.Recalls (history ++ more) := by
  induction more generalizing c history
  case nil => exact ⟨c, rfl, (List.append_nil history).symm ▸ h⟩
  case cons w more ih =>
    have ⟨c₁, hadd, h₁⟩ := h.add w
    have ⟨c₂, hmore, h₂⟩ := ih h₁
    refine ⟨c₂, ?_, List.append_cons history w more ▸ h₂⟩
    rw [Catalog.replay, List.foldlM_cons, hadd]
    exact hmore

theorem recalls_nil : Recalls {} [] where
  spaces := fun _ _ => rfl
  entries := fun _ _ _ => rfl

theorem exists_replay (history : List Write) :
    ∃ c, replay {} history = .ok c ∧ c.Recalls history :=
  recalls_nil.replay history

theorem walk?_of_flat {tree : Members Value} {key : String} {separator : Option String}
    (h : ∀ name v, tree.get? name = some v → v.members? = none) :
    walk? tree key separator = (tree.get? key).bind Value.text? := by
  have hpath : (do Value.text? (← (Value.object tree).descend? (← Text.path? separator key))) =
      none := by
    refine Option.bind_eq_none_iff.2 fun path hp => ?_
    obtain ⟨name, rest, rfl, hrest⟩ := Text.exists_of_path? hp
    rw [Value.descend?_cons]
    cases hv : Members.get? tree name
    case none => rw [Value.members?, Option.getD_some, hv]; rfl
    case some v =>
      rw [Value.members?, Option.getD_some, hv]
      exact congrArg (Option.bind · _) (Value.descend?_of_leaf (h name v hv) hrest)
  rw [walk?, hpath]
  cases (tree.get? key).bind Value.text? <;> rfl

theorem Recalls.bind_walk? (h : c.Recalls history) (tag ns key : String)
    (separator : Option String) :
    ((c.tree? tag ns).bind fun tree => walk? tree key separator) =
      last? history (tag, ns, key) := by
  have hentry (name : String) := h.entries tag ns name
  cases ht : c.tree? tag ns
  case none =>
    simp only [held?, ht] at hentry
    exact (Option.map_eq_none_iff.1 (hentry key).symm).symm
  case some tree =>
    simp only [held?, ht, Option.bind_some] at hentry
    have hflat : ∀ name v, tree.get? name = some v → v.members? = none := by
      intro name v hv
      obtain ⟨_, _, rfl⟩ := Option.map_eq_some_iff.1 ((hentry name).symm.trans hv)
      rfl
    rw [Option.bind_some, walk?_of_flat hflat, hentry]
    cases last? history (tag, ns, key) <;> rfl

theorem Recalls.retrieve {ι : Type} (h : c.Recalls history) (o : Options ι) (l : Locale)
    (ns key : String) :
    c.retrieve l ns key o =
      (last? history (l.tag, ns, key)).or (last? history (l.language, ns, key)) := by
  simp only [Catalog.retrieve, List.findSome?_cons, List.findSome?_nil, h.bind_walk?]
  cases last? history (l.tag, ns, key) <;> cases last? history (l.language, ns, key) <;> rfl

theorem Recalls.hasNamespace (h : c.Recalls history) {asked : Locale.Given} {l : Locale}
    (ha : asked.read = .ok l) (ns : String) :
    c.hasNamespace asked ns = .ok (history.any (·.uses l.tag ns)) := by
  simp only [Catalog.hasNamespace, ha, ← h.spaces]
  rfl

theorem last?_swap {before after : List Write} {v w : Write} (h : v.place ≠ w.place)
    (place : String × String × String) :
    last? (before ++ v :: w :: after) place = last? (before ++ w :: v :: after) place := by
  simp only [last?, List.filter_append, List.filter_cons]
  by_cases hv : v.place = place
  case neg => simp only [hv, decide_false, if_neg Bool.false_ne_true]
  case pos =>
    have hw : w.place ≠ place := fun hw => h (hv.trans hw.symm)
    simp only [hw, decide_false, if_neg Bool.false_ne_true]

theorem Recalls.same_of_swap {before after : List Write} {v w : Write}
    (hc : c.Recalls (before ++ v :: w :: after)) (hc' : c'.Recalls (before ++ w :: v :: after))
    (h : v.place ≠ w.place) : c.Same c' where
  spaces := fun tag ns => by
    simp only [hc.spaces, hc'.spaces, List.any_append, List.any_cons, Bool.or_left_comm]
  entries := fun tag ns key => by rw [hc.entries, hc'.entries, last?_swap h]

theorem last?_of_last {before after : List Write} {w : Write}
    (h : ∀ v ∈ after, v.place ≠ w.place) :
    last? (before ++ w :: after) w.place = some w.text := by
  have hafter : after.filter (·.place = w.place) = [] :=
    List.filter_eq_nil_iff.2 fun v hv => by simpa using h v hv
  simp [last?, hafter]

-- A catalog that was empty answers from the last write to a place, under the whole tag of a locale
-- or else under its language, whatever the keys look like and however the tags were spelled. Writes
-- to different places do not come in each other's way.
theorem last_writes_decide (history : List Write) :
    ∃ c, replay {} history = .ok c ∧
      (∀ {ι : Type} (o : Options ι) (l : Locale) (ns key : String),
        c.retrieve l ns key o =
          (last? history (l.tag, ns, key)).or (last? history (l.language, ns, key))) ∧
      (∀ (asked : Locale.Given) (l : Locale) (ns : String), asked.read = .ok l →
        ∃ found, c.hasNamespace asked ns = .ok found ∧
          (found = true ↔ ∃ w ∈ history, w.locale.tag = l.tag ∧ w.ns = ns)) ∧
      (∀ before v w after, history = before ++ v :: w :: after → v.place ≠ w.place →
        ∃ c', replay {} (before ++ w :: v :: after) = .ok c' ∧ c.Same c') ∧
      ∀ before w after, history = before ++ w :: after → (∀ v ∈ after, v.place ≠ w.place) →
        ∀ {ι : Type} (o : Options ι) (l : Locale), l.tag = w.locale.tag →
          c.retrieve l w.ns w.key o = some w.text := by
  have ⟨c, hc, h⟩ := exists_replay history
  refine ⟨c, hc, h.retrieve, ?spaces, ?swap, ?kept⟩
  case spaces =>
    intro asked l ns ha
    exact ⟨_, h.hasNamespace ha ns, by simp [Write.uses]⟩
  case swap =>
    rintro before v w after rfl hne
    have ⟨c', hc', h'⟩ := exists_replay (before ++ w :: v :: after)
    exact ⟨c', hc', h.same_of_swap h' hne⟩
  case kept =>
    rintro before w after rfl hafter ι o l hl
    rw [h.retrieve, hl]
    exact congrArg (Option.or · _) (last?_of_last hafter)

theorem spellings_recalled :
    let us : Locale := ⟨"en", some "US"⟩
    let history : List Write :=
      [⟨.tag "en_US", us, by rfl, "talk", "a.b", "one"⟩,
        ⟨.locale ⟨"en", none⟩, _, rfl, "talk", "a", "two"⟩,
        ⟨.tag " en-US ", us, by rfl, "talk", "a.b", "three"⟩]
    let o : Options Empty := .base
    ∃ c, replay {} history = .ok c ∧ c.retrieve us "talk" "a.b" o = some "three" ∧
      c.retrieve us "talk" "a" o = some "two" ∧ c.retrieve ⟨"en", none⟩ "talk" "a.b" o = none ∧
      c.hasNamespace (.tag "en") "talk" = .ok true := by
  intro us history o
  have ⟨c, hc, hr, hn, _, hkept⟩ := last_writes_decide history
  have hasked : (Locale.Given.tag "en").read = .ok ⟨"en", none⟩ := by rfl
  obtain ⟨found, hfound, hiff⟩ := hn _ _ "talk" hasked
  have htrue : found = true := hiff.2 ⟨history[1], by simp [history], rfl, rfl⟩
  refine ⟨c, hc, hkept (history.take 2) history[2] [] rfl (List.forall_mem_nil _) o us rfl,
    ?_, ?_, htrue ▸ hfound⟩
  all_goals
    rw [hr]
    decide +kernel

end Phrasebook.Catalog
