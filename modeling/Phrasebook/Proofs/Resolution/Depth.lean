import Phrasebook.Proofs.Resolution.Occurrences
import Phrasebook.Proofs.Template.Scan

namespace Phrasebook

variable {ι : Type}

-- The open templates below which the level of an event lies.
def Event.level (e : Event ι) : List Frame :=
  if e.act.isInside then e.chain.dropLast else e.chain

namespace Resolution

open Template

variable {host : Host ι} {l : Locale} {o : Options ι} {limit : Int} {scope : Scope}

theorem Does.level_eq {site : Site ι} {act : Act ι} (h : Does site act) :
    (Event.mk site.chain act).level = site.chain := by
  cases h <;> rfl

theorem Lookup.Renders.level_eq {u : Lookup ι} {template : String} {e : Event ι}
    (h : u.Renders template e) : e.level = u.site.chain := by
  obtain ⟨act, rfl, ha⟩ := h.exists_act
  rw [Event.level, if_pos ha]
  exact List.dropLast_concat

theorem Occurs.level_cases {events : List (Event ι)} {chain : List Frame} {e : Event ι}
    (h : Occurs host l o events chain e) :
    chain <+: e.level ∧ (e.level = chain ∨
      ∀ limit, o.depthLimit.value? = some limit → e.level.length < limit) := by
  induction h
  case level h => exact ⟨h.level_eq ▸ List.prefix_rfl, .inl h.level_eq⟩
  case rendering h => exact ⟨h.level_eq ▸ List.prefix_rfl, .inl h.level_eq⟩
  case nested hr _ ih =>
    have ⟨hp, hc⟩ := ih
    refine ⟨(List.prefix_append ..).trans hp, .inr ?_⟩
    rcases hc with hc | hc
    case inl => exact hc ▸ hr
    case inr => exact hc

theorem fuel_of_limit (hl : o.depthLimit.value? = some limit) (chain : List Frame) :
    fuel o chain = max 1 (limit - chain.length).toNat := by
  simp only [fuel, hl]

theorem resolver_fed (hl : o.depthLimit.value? = some limit) (raw : String) (bag : Bag) :
    (resolver host scope raw l bag o).Fed := by
  have hf := fuel_of_limit hl scope.chain
  exact level_fed hl (by omega) (by omega) raw bag

theorem level_eq_resolver (hl : o.depthLimit.value? = some limit) {n : Nat} (hn : 0 < n)
    (hle : limit - scope.chain.length ≤ n) (raw : String) (bag : Bag) :
    level host n scope raw l bag o = resolver host scope raw l bag o := by
  have hf := fuel_of_limit hl scope.chain
  exact level_settles_level (by omega) scope raw bag (resolver_fed hl raw bag)

theorem resolve_congr (hl : o.depthLimit.value? = some limit) {deeper deeper' : Scope → Resolver ι}
    (hd : ∀ frame, (scope.chain ++ [frame]).length < limit → ∀ ns raw own,
      deeper ⟨some ns, scope.chain ++ [frame]⟩ raw l own o =
        deeper' ⟨some ns, scope.chain ++ [frame]⟩ raw l own o) (raw : String) (bag : Bag) :
    resolve deeper host scope raw l bag o = resolve deeper' host scope raw l bag o :=
  resolveIn_rel .eq fun frame hr => hd frame (hr limit hl)

theorem resolver_eq_resolve (hl : o.depthLimit.value? = some limit) (raw : String) (bag : Bag) :
    resolver host scope raw l bag o = resolve (resolver host) host scope raw l bag o := by
  have hf := fuel_of_limit hl scope.chain
  rw [resolver]
  obtain ⟨n, hn⟩ := Nat.exists_eq_add_one.2 (fuel_pos o scope.chain)
  rw [hn]
  refine resolve_congr hl (fun frame hlt ns raw own => ?_) raw bag
  rw [List.length_append, List.length_singleton] at hlt
  refine level_eq_resolver hl (by omega) ?_ raw own
  rw [List.length_append, List.length_singleton]
  omega

-- The resolver has the fuel that it needs: more of it changes nothing, and it is the only solution
-- of the equation that says how nested keys are resolved. A level asks for nested keys only below
-- one more template and only if that leaves room; so the levels below it are limited. The tokens
-- in a text are limited by its length.
theorem depth_limit_terminates (host : Host ι) (hl : o.depthLimit.value? = some limit)
    (scope : Scope) (raw : String) (l : Locale) (bag : Bag) :
    let run := resolver host scope raw l bag o
    run.Fed ∧
    (∀ n : Nat, max 1 (limit - scope.chain.length) ≤ n → level host n scope raw l bag o = run) ∧
    run = resolve (resolver host) host scope raw l bag o ∧
    (∀ r, Solves host l o r → r scope raw l bag o = run) ∧
    (∀ deeper deeper' : Scope → Resolver ι,
      (∀ frame, (scope.chain ++ [frame]).length < limit → ∀ ns raw own,
        deeper ⟨some ns, scope.chain ++ [frame]⟩ raw l own o =
          deeper' ⟨some ns, scope.chain ++ [frame]⟩ raw l own o) →
      resolve deeper host scope raw l bag o = resolve deeper' host scope raw l bag o) ∧
    (∀ e ∈ run.events, scope.chain <+: e.level ∧
      (e.level = scope.chain ∨ e.level.length < limit) ∧
      e.level.length - scope.chain.length ≤ max 0 (limit - 1 - scope.chain.length)) ∧
    ∀ text, (o.nestingMarks.split text).marked.length ≤ text.length ∧
      (o.variableMarks.split text).marked.length ≤ text.length := by
  intro run
  refine ⟨resolver_fed hl raw bag, fun n hn => ?_, resolver_eq_resolve hl raw bag, fun r hr => ?_,
    fun _ _ hd => resolve_congr hl hd raw bag, fun e he => ?_,
    fun text => ⟨o.nestingMarks.length_marked_le text, o.variableMarks.length_marked_le text⟩⟩
  case refine_1 => exact level_eq_resolver hl (by omega) (by omega) raw bag
  case refine_2 => exact level_settles_solution hr _ scope raw bag (resolver_fed hl raw bag)
  case refine_3 =>
    have ⟨hp, hc⟩ := (level_traced _ scope raw bag e he).level_cases
    have hc := hc.imp_right fun h => h limit hl
    refine ⟨hp, hc, ?_⟩
    rcases hc with hc | hc
    case inl =>
      rw [hc]
      omega
    case inr => omega

theorem growing_contexts_terminate :
    let host := Host.ofTemplates
      [("key", "$t(key, \x7b\"context\": \"\x7b\x7bcontext\x7d\x7dx\"\x7d)")]
    let o : Options Empty := Options.base.withLimit (.set 4)
    let bag : Bag := [("context", .text "a")]
    let run := resolver host {} "key" ⟨"en", none⟩ bag o
    o.depthLimit.value? = some 4 ∧ run.outcome = .done none ∧
      level host 9 {} "key" ⟨"en", none⟩ bag o = run ∧
      run.events.any (·.level.length = 3) ∧ ∀ e ∈ run.events, e.level.length ≤ 3 := by
  intro host o bag run
  have hl : o.depthLimit.value? = some 4 := rfl
  have h := depth_limit_terminates host hl {} "key" ⟨"en", none⟩ bag
  have ⟨ho, ha⟩ : run.outcome = .done none ∧ run.events.any (·.level.length = 3) := by
    decide +kernel
  refine ⟨rfl, ho, h.2.1 9 (by decide), ha, fun e he => ?_⟩
  have hd := (h.2.2.2.2.2.1 e he).2.2
  simp only [List.length_nil] at hd
  omega

end Resolution
end Phrasebook
