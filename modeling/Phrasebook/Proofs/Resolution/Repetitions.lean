import Mathlib.Data.List.Induction
import Mathlib.Data.List.Nodup
import Phrasebook.Plural.Builtin
import Phrasebook.Proofs.Resolution.Fuel

namespace Phrasebook

variable {ι : Type}

section FirstOccurrences

variable {α β : Type} [BEq α] [LawfulBEq α] {a : α} {l : List α}

theorem eraseDups_concat_of_mem (h : a ∈ l) : (l ++ [a]).eraseDups = l.eraseDups := by
  simp [List.eraseDups_append, List.removeAll, h]

theorem eraseDups_concat_of_not_mem (h : a ∉ l) : (l ++ [a]).eraseDups = l.eraseDups ++ [a] := by
  simp [List.eraseDups_append, List.removeAll, h, List.eraseDups_cons]

theorem nodup_eraseDups (l : List α) : l.eraseDups.Nodup := by
  induction l using List.reverseRecOn
  case nil => exact List.nodup_nil
  case append_singleton l a ih =>
    by_cases h : a ∈ l
    case pos => rwa [eraseDups_concat_of_mem h]
    case neg =>
      rw [eraseDups_concat_of_not_mem h, ← List.concat_eq_append, List.nodup_concat]
      exact ⟨mt List.mem_eraseDups.1 h, ih⟩

theorem eraseDups_of_nodup (h : l.Nodup) : l.eraseDups = l := by
  induction l using List.reverseRecOn
  case nil => rfl
  case append_singleton l a ih =>
    rw [← List.concat_eq_append, List.nodup_concat] at h
    rw [eraseDups_concat_of_not_mem h.1, ih h.2]

theorem eraseDups_eraseDups (l : List α) : l.eraseDups.eraseDups = l.eraseDups :=
  eraseDups_of_nodup (nodup_eraseDups l)

theorem getLast?_eraseDups_concat (h : a ∈ l → l.eraseDups.getLast? = some a) :
    (l ++ [a]).eraseDups.getLast? = some a := by
  by_cases ha : a ∈ l
  case pos => rw [eraseDups_concat_of_mem ha, h ha]
  case neg => rw [eraseDups_concat_of_not_mem ha, List.getLast?_concat]

theorem findSome?_eraseDups (f : α → Option β) (l : List α) :
    l.eraseDups.findSome? f = l.findSome? f := by
  induction l using List.reverseRecOn
  case nil => rfl
  case append_singleton l a ih =>
    by_cases h : a ∈ l
    case neg => rw [eraseDups_concat_of_not_mem h, List.findSome?_append, List.findSome?_append, ih]
    case pos =>
      rw [eraseDups_concat_of_mem h, List.findSome?_append, ih]
      cases hl : l.findSome? f
      case some => rfl
      case none => simp [List.findSome?_eq_none_iff.1 hl a h]

theorem findSome?_congr_eraseDups {l l' : List α} (h : l.eraseDups = l'.eraseDups)
    (f : α → Option β) : l.findSome? f = l'.findSome? f := by
  rw [← findSome?_eraseDups f l, h, findSome?_eraseDups]

end FirstOccurrences

def precedence (separator key : String) : Option String → Option String → List String
  | some c, some s => [key ++ separator ++ c ++ s, key ++ separator ++ c, key ++ s, key]
  | some c, none => [key ++ separator ++ c, key]
  | none, some s => [key ++ s, key]
  | none, none => [key]

section Candidates

variable {o : Options ι} {bag : Bag} {separator key : String} {context suffix : Option String}

theorem variants_eq_precedence :
    variants o key context suffix =
      precedence (o.contextSeparator.textOr "") key context suffix := by
  cases context <;> cases suffix <;> rfl

theorem prefix_of_mem_precedence :
    ∀ k ∈ precedence separator key context suffix, key.toList <+: k.toList := by
  cases context <;> cases suffix <;> simp [precedence]

theorem append_context_ne {c : String} (hc : c ≠ "") (more : String) :
    key ++ separator ++ c ++ more ≠ key := by
  intro h
  have hlen := congrArg String.length h
  simp only [String.length_append] at hlen
  exact hc (String.length_eq_zero_iff.1 (by omega))

theorem getLast?_eraseDups_counted {front : List String} (hf : key ∉ front) (s : String) :
    (front ++ [key ++ s] ++ [key]).eraseDups.getLast? = some key := by
  refine getLast?_eraseDups_concat fun h => ?_
  have hs : key ++ s = key := by simpa [hf, eq_comm] using h
  rw [hs]
  exact getLast?_eraseDups_concat fun h => absurd h hf

-- Of the other variants only the one for an empty suffix can be the key itself, and it stands right
-- in front of it.
theorem getLast?_eraseDups_precedence (hc : ∀ c, context = some c → c ≠ "") :
    (precedence separator key context suffix).eraseDups.getLast? = some key := by
  have hne (c : String) (h : context = some c) (more : String) :
      key ≠ key ++ separator ++ c ++ more := (append_context_ne (hc c h) more).symm
  have hne₀ (c : String) (h : context = some c) : key ≠ key ++ separator ++ c := by
    simpa using hne c h ""
  cases context <;> cases suffix
  case none.none => rfl
  case none.some s => exact getLast?_eraseDups_counted List.not_mem_nil s
  case some.none c =>
    have h : key ∉ [key ++ separator ++ c] := mt List.mem_singleton.1 (hne₀ c rfl)
    exact getLast?_eraseDups_concat fun hk => absurd hk h
  case some.some c s =>
    have h : key ∉ [key ++ separator ++ c ++ s, key ++ separator ++ c] :=
      List.not_mem_cons_of_ne_of_not_mem (hne c rfl s) (mt List.mem_singleton.1 (hne₀ c rfl))
    exact getLast?_eraseDups_counted h s

def Site.suffix? (site : Site ι) (bag : Bag) : Run (Event ι) (Option String) :=
  match bag.count? with
  | none => pure none
  | some count => some <$> site.pluralSuffix count

theorem candidates_eq_bind {site : Site ι} :
    candidates site key bag = (do
      let suffix ← site.suffix? bag
      return (precedence (site.options.contextSeparator.textOr "") key bag.context?
        suffix).eraseDups) := by
  simp only [candidates, variants_eq_precedence, Site.suffix?]
  cases bag.count? <;> rfl

theorem context?_eq_some_iff {c : String} :
    bag.context? = some c ↔ bag.get? "context" = some (.text c) ∧ c ≠ "" := by
  have ht (v : Value) : v.text? = some c ↔ v = .text c := by
    cases v <;> simp [Value.text?]
  simp [Bag.context?, Option.filter_eq_some_iff, Option.bind_eq_some_iff, ht]

theorem count?_eq_some_iff {n : Int} :
    bag.count? = some n ↔ bag.get? "count" = some (.int n) := by
  rw [Bag.count?]
  split
  case h_1 hn => simp [hn]
  case h_2 hn => exact ⟨nofun, fun h => absurd h (hn n)⟩

theorem outcome_suffix? (site : Site ι) (bag : Bag) :
    ∃ suffix, (site.suffix? bag).outcome = .done suffix ∧ (bag.count? = none → suffix = none) ∧
      ∀ count, bag.count? = some count →
        ∃ s, suffix = some s ∧ (site.pluralSuffix count).outcome = .done s := by
  rw [Site.suffix?]
  cases bag.count?
  case none => exact ⟨none, rfl, fun _ => rfl, nofun⟩
  case some count =>
    have hp : ∃ s, (site.pluralSuffix count).outcome = .done s := by
      rw [Site.pluralSuffix]
      cases site.host.rules.rule? site.locale
      case none => exact ⟨"", rfl⟩
      case some rule => exact ⟨rule.suffix count site.options, rfl⟩
    obtain ⟨s, hs⟩ := hp
    refine ⟨some s, Run.outcome_map_eq_done_iff.2 ⟨s, hs, rfl⟩, nofun, ?_⟩
    rintro _ ⟨⟩
    exact ⟨s, rfl, hs⟩

end Candidates

namespace Resolution

open Template

section Search

variable {deeper : Scope → Resolver ι} {site : Site ι} {bag : Bag}

def settling? (deeper : Scope → Resolver ι) (site : Site ι) (bag : Bag)
    (place : String × String) : Option (Outcome (Option (Option String))) :=
  match (search deeper site bag [place]).outcome with
  | .done none => none
  | settled => some settled

theorem outcome_search_cons {place : String × String} {places : List (String × String)} :
    (search deeper site bag (place :: places)).outcome =
      (settling? deeper site bag place).getD (search deeper site bag places).outcome := by
  by_cases ho : ⟨place.1, place.2, bag.context?⟩ ∈ site.chain
  case pos =>
    have h (rest : List (String × String)) :
        search deeper site bag (place :: rest) = _ := if_pos ho
    simp only [settling?, h]
    rfl
  case neg =>
    have h (rest : List (String × String)) :
        search deeper site bag (place :: rest) = _ := if_neg ho
    simp only [settling?, h]
    generalize (find deeper site place.1 place.2 bag).attempt = found
    obtain ⟨events, r | _ | _⟩ := found
    case done =>
      match r with
      | .ok none => rfl
      | .ok (some _) => rfl
      | .error failure =>
        dsimp only [Run.bind_eq, Run.bind]
        generalize recover site place.1 place.2 bag failure = handling
        obtain ⟨_, _ | _ | _⟩ := handling <;> rfl
    all_goals rfl

theorem outcome_search (places : List (String × String)) :
    (search deeper site bag places).outcome =
      (places.findSome? (settling? deeper site bag)).getD (.done none) := by
  induction places
  case nil => rfl
  case cons place places ih =>
    rw [outcome_search_cons, List.findSome?_cons, ih]
    cases settling? deeper site bag place <;> rfl

def everyPlace (nss keys : List String) : List (String × String) :=
  nss.flatMap fun ns => keys.map (ns, ·)

theorem places_eq_everyPlace {o : Options ι} {ns : String} {keys : List String} :
    places o ns keys = everyPlace (ns :: o.fallbacks.value?.getD []) keys :=
  rfl

theorem findSome?_everyPlace {β : Type} (f : String × String → Option β) (nss keys : List String) :
    (everyPlace nss keys).findSome? f =
      nss.findSome? fun ns => keys.findSome? fun key => f (ns, key) := by
  induction nss
  case nil => rfl
  case cons ns nss ih =>
    have hns : (keys.map (ns, ·)).findSome? f = keys.findSome? fun key => f (ns, key) :=
      List.findSome?_map
    rw [everyPlace] at ih ⊢
    rw [List.flatMap_cons, List.findSome?_append, hns, ih, List.findSome?_cons]
    cases keys.findSome? fun key => f (ns, key) <;> rfl

theorem outcome_search_everyPlace {nss nss' keys keys' : List String}
    (hn : nss.eraseDups = nss'.eraseDups) (hk : keys.eraseDups = keys'.eraseDups) :
    (search deeper site bag (everyPlace nss keys)).outcome =
      (search deeper site bag (everyPlace nss' keys')).outcome := by
  simp only [outcome_search, findSome?_everyPlace, findSome?_congr_eraseDups hn,
    findSome?_congr_eraseDups hk]

end Search

section Levels

variable {listNs listKeys : List String → List String} {deeper : Scope → Resolver ι}
  {site : Site ι} {ns key : String} {bag : Bag}

-- Names are listed more or less often, and each one comes first where it came first.
def KeepsFirsts (list : List String → List String) : Prop :=
  ∀ names, (list names).eraseDups = names.eraseDups

def resolveListed (listNs listKeys : List String → List String) (deeper : Scope → Resolver ι)
    (site : Site ι) (ns key : String) (bag : Bag) : Run (Event ι) (Option String) := do
  let suffix ← site.suffix? bag
  let keys := precedence (site.options.contextSeparator.textOr "") key bag.context? suffix
  let nss := ns :: site.options.fallbacks.value?.getD []
  Option.join <$> search deeper site bag (everyPlace (listNs nss) (listKeys keys))

def levelListed (listNs listKeys : List String → List String) (host : Host ι) :
    Nat → Scope → Resolver ι
  | 0 => fun _ _ _ _ _ => .starved
  | fuel + 1 => fun scope raw locale bag options =>
    let key := Key.parse raw options.nsSeparator.value?
    resolveListed listNs listKeys (levelListed listNs listKeys host fuel)
      ⟨host, locale, options, scope.chain⟩ (key.ns.getD (scope.ns.getD "")) key.path bag

theorem outcome_resolveListed (hn : KeepsFirsts listNs) (hk : KeepsFirsts listKeys) :
    (resolveListed listNs listKeys deeper site ns key bag).outcome =
      (resolveIn deeper site ns key bag).outcome := by
  rw [resolveListed, resolveIn, candidates_eq_bind, bind_assoc]
  refine Run.Congruence.ending.bind rfl fun suffix => ?_
  rw [← bind_pure_comp, pure_bind]
  refine Run.Congruence.ending.bind ?_ fun settled => ?_
  case refine_1 =>
    rw [places_eq_everyPlace]
    exact outcome_search_everyPlace (hn _) ((hk _).trans (eraseDups_eraseDups _).symm)
  case refine_2 => cases settled <;> rfl

theorem outcome_levelListed (hn : KeepsFirsts listNs) (hk : KeepsFirsts listKeys) (host : Host ι)
    (n : Nat) (scope : Scope) (raw : String) (l : Locale) (bag : Bag) (o : Options ι) :
    (levelListed listNs listKeys host n scope raw l bag o).outcome =
      (level host n scope raw l bag o).outcome := by
  induction n generalizing scope raw bag
  case zero => rfl
  case succ n ih =>
    have hd : RelatedBelow .ending (levelListed listNs listKeys host n) (level host n)
        ⟨host, l, o, scope.chain⟩ := fun _ _ _ _ _ => ih ..
    exact (outcome_resolveListed hn hk).trans (resolveIn_rel .ending hd)

theorem keepsFirsts_id : KeepsFirsts id :=
  fun _ => rfl

theorem keepsFirsts_eraseDups : KeepsFirsts List.eraseDups :=
  eraseDups_eraseDups

-- The candidates are the variants of the key without repetitions, and the key itself is the last of
-- them. How often levels list a variant or a namespace makes no difference to what comes of them,
-- be it a text, a miss or a failure; they may list all variants, and each namespace just once.
theorem repetitions_make_no_difference (site : Site ι) (ns key : String) (bag : Bag) :
    (∀ c, bag.context? = some c ↔ bag.get? "context" = some (.text c) ∧ c ≠ "") ∧
    (∀ count, bag.count? = some count ↔ bag.get? "count" = some (.int count)) ∧
    (∀ bag' : Bag, bag'.context? = bag.context? → bag'.count? = bag.count? →
      candidates site key bag' = candidates site key bag) ∧
    (∃ suffix keys,
      (bag.count? = none → suffix = none) ∧
      (∀ count, bag.count? = some count →
        ∃ s, suffix = some s ∧ (site.pluralSuffix count).outcome = .done s) ∧
      (candidates site key bag).outcome = .done keys ∧
      keys = (precedence (site.options.contextSeparator.textOr "") key bag.context?
        suffix).eraseDups ∧
      keys.Nodup ∧ (∀ k ∈ keys, key.toList <+: k.toList) ∧ keys.getLast? = some key) ∧
    KeepsFirsts id ∧ KeepsFirsts List.eraseDups ∧
    ∀ listNs listKeys, KeepsFirsts listNs → KeepsFirsts listKeys → ∀ n,
      (resolveListed listNs listKeys (levelListed listNs listKeys site.host n) site ns key
        bag).outcome = (resolveIn (level site.host n) site ns key bag).outcome := by
  refine ⟨fun _ => context?_eq_some_iff, fun _ => count?_eq_some_iff, ?alike, ?named,
    keepsFirsts_id, keepsFirsts_eraseDups, ?listed⟩
  case alike =>
    intro bag' hc hn
    rw [candidates, candidates, hc, hn]
  case named =>
    obtain ⟨suffix, hs, hnone, hsome⟩ := outcome_suffix? site bag
    refine ⟨suffix, _, hnone, hsome, ?_, rfl, nodup_eraseDups _, ?_, ?_⟩
    case refine_1 =>
      rw [candidates_eq_bind]
      exact Run.outcome_bind_eq_done_iff.2 ⟨suffix, hs, rfl⟩
    case refine_2 => exact fun k hk => prefix_of_mem_precedence k (List.mem_eraseDups.1 hk)
    case refine_3 =>
      exact getLast?_eraseDups_precedence fun c hc => (context?_eq_some_iff.1 hc).2
  case listed =>
    intro listNs listKeys hn hk n
    have hd : RelatedBelow .ending (levelListed listNs listKeys site.host n) (level site.host n)
        site := fun _ _ _ _ _ => outcome_levelListed hn hk ..
    exact (outcome_resolveListed hn hk).trans (resolveIn_rel .ending hd)

theorem cup_of_tea_found_once :
    let host : Host Empty :=
      { Host.ofTemplates [("tea", "Tea")] with rules := [("en", Plural.Builtin.notOne)] }
    let o : Options Empty :=
      { contextSeparator := .set "", pluralSuffix := .set "s", fallbacks := .set ["b", "a", "b"] }
    let site : Site Empty := ⟨host, ⟨"en", none⟩, o, []⟩
    let bag : Bag := [("context", .text "s"), ("count", .int (-2))]
    (candidates site "tea" bag).outcome = .done ["teass", "teas", "tea"] ∧
      (candidates site "tea" [("context", .int 1), ("count", .bool true)]).outcome =
        .done ["tea"] ∧
      (resolveListed List.eraseDups id (levelListed List.eraseDups id host 1) site "a" "tea"
        bag).outcome = (resolveIn (level host 1) site "a" "tea" bag).outcome := by
  intro host o site bag
  have ⟨_, _, _, _, hid, honce, hlisted⟩ := repetitions_make_no_difference site "a" "tea" bag
  have ⟨_, _, halike, _⟩ := repetitions_make_no_difference site "a" "tea" []
  refine ⟨by decide +kernel, ?_, hlisted _ _ honce hid 1⟩
  exact congrArg Run.outcome (halike [("context", .int 1), ("count", .bool true)] rfl rfl)

end Levels

end Resolution
end Phrasebook
