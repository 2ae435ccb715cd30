import Phrasebook.Proofs.Run.Agreement
import Phrasebook.Resolution

namespace Phrasebook

variable {ι : Type}

structure Host.IgnoresLimit (host : Host ι) : Prop where
  retrieve : ∀ l ns key o limit,
    host.retrieve l ns key (o.withLimit limit) = host.retrieve l ns key o
  format : ∀ f v name l o limit,
    host.format f v name l (o.withLimit limit) = host.format f v name l o

def Host.Silent (host : Host ι) (o : Options ι) : Prop :=
  ∀ handler, o.onFailure.value? = some (.handler handler) →
    ∀ l ns key bag failure s, host.failed handler l ns key bag o failure ≠ .ok (some s)

def Site.under (site : Site ι) (limit : Setting Int) (chain : List Frame) : Site ι :=
  { site with options := site.options.withLimit limit, chain }

namespace Site

variable (site : Site ι) (limit : Setting Int) (chain : List Frame)

@[simp]
theorem under_host : (site.under limit chain).host = site.host :=
  rfl

@[simp]
theorem under_locale : (site.under limit chain).locale = site.locale :=
  rfl

@[simp]
theorem under_options : (site.under limit chain).options = site.options.withLimit limit :=
  rfl

end Site

namespace Resolution

open Template

-- Chains of open templates of which the second is not in the way where the first is not.
structure LooserChain (chain chain' : List Frame) : Prop where
  subset : chain' ⊆ chain
  length_le : chain'.length ≤ chain.length

def LooserLimit (limit limit' : Setting Int) : Prop :=
  ∀ m', limit'.value? = some m' → ∃ m, limit.value? = some m ∧ m ≤ m'

theorem LooserChain.concat {chain chain' : List Frame} (h : LooserChain chain chain')
    (frame : Frame) : LooserChain (chain ++ [frame]) (chain' ++ [frame]) where
  subset := by
    intro f hf
    rcases List.mem_append.1 hf with hf | hf
    · exact List.mem_append_left _ (h.subset hf)
    · exact List.mem_append_right _ hf
  length_le := by
    have := h.length_le
    simp only [List.length_append]
    omega

-- Resolvers of nested keys that agree on texts, the second one behind looser guards.
def Loosens (deeper deeper' : Scope → Resolver ι) (o : Options ι) (limit : Setting Int) : Prop :=
  ∀ ns chain chain', LooserChain chain chain' → ∀ raw l bag,
    (deeper ⟨ns, chain⟩ raw l bag o).Agrees (·.isSome)
      (deeper' ⟨ns, chain'⟩ raw l bag (o.withLimit limit))

section Templates

variable {site : Site ι} {limit : Setting Int} {chain : List Frame}

theorem plainText_agrees (hh : site.host.IgnoresLimit) (refuse : Cause → Failure) (value : Value) :
    (format : Option String) →
      (Variable.plainText site refuse value format).Agrees (fun _ => True)
        (Variable.plainText (site.under limit chain) refuse value format)
  | none => .refl _
  | some name => by
    simp only [Variable.plainText, Site.under_options, Options.withLimit_formats]
    cases ((site.options.formats.value?).getD []).get? name
    case none => exact .of_raise
    case some formatter =>
      refine Run.Agrees.seq (.emit rfl) fun _ => ?_
      rw [Site.under_host, Site.under_locale, hh.format]
      exact .refl _

theorem variableText_agrees (hh : site.host.IgnoresLimit) (bag : Bag) (refuse : Cause → Failure)
    (v : Variable) :
    (v.text site bag refuse).Agrees (fun _ => True)
      (v.text (site.under limit chain) bag refuse) := by
  simp only [Variable.text, Site.under_options, Options.withLimit_keySeparator,
    Options.withLimit_escapes]
  split
  case isTrue => exact .of_raise
  case isFalse =>
    split
    case h_1 | h_2 => exact .of_raise
    case h_3 => exact (plainText_agrees hh _ _ _).seq fun _ => .refl _

theorem fill_agrees (hh : site.host.IgnoresLimit) (bag : Bag) (template : String)
    (part : List Char) :
    (fill site bag template part).Agrees (fun _ => True)
      (fill (site.under limit chain) bag template part) :=
  .renderM (fun _ => .refl _) (fun _ => variableText_agrees hh _ _ _) _

theorem interpolate_agrees (hh : site.host.IgnoresLimit) (bag : Bag) (template : String) :
    (interpolate site bag template).Agrees (fun _ => True)
      (interpolate (site.under limit chain) bag template) :=
  .map (fill_agrees hh _ _ _)

theorem interpolateAround_agrees (hh : site.host.IgnoresLimit) (bag : Bag) (template : String) :
    (interpolateAround site bag template).Agrees (fun _ => True)
      (interpolateAround (site.under limit chain) bag template) :=
  .map (.renderM (fill_agrees hh bag template) (fun _ => .refl _) _)

theorem bag_agrees (hh : site.host.IgnoresLimit) (outer : Bag) (refuse : Cause → Failure)
    (n : Nested) :
    (n.bag site outer refuse).Agrees (fun _ => True)
      (n.bag (site.under limit chain) outer refuse) := by
  simp only [Nested.bag]
  split
  case isTrue => exact .refl _
  case isFalse =>
    let plain : Site ι := { site with options := site.options.unescaped }
    have hp : plain.host.IgnoresLimit := hh
    have h : (interpolate plain outer n.inner).Agrees (fun _ => True)
        (interpolate (plain.under limit chain) outer n.inner) := interpolate_agrees hp _ _
    exact h.seq fun _ => .refl _

theorem nestedText_agrees (hh : site.host.IgnoresLimit) {resolve resolve' : Resolver ι}
    (hr : ∀ key bag, (resolve key site.locale bag site.options).Agrees (·.isSome)
      (resolve' key site.locale bag (site.options.withLimit limit)))
    (outer : Bag) (refuse : Cause → Failure) (n : Nested) :
    (n.text site outer resolve refuse).Agrees (fun _ => True)
      (n.text (site.under limit chain) outer resolve' refuse) := by
  simp only [Nested.text]
  split
  case isTrue => exact .of_raise
  case isFalse =>
    refine (bag_agrees hh _ _ _).seq fun inner => Run.Agrees.seq (.emit rfl) fun _ => ?_
    -- Without a text for the key the whole token fails, so only texts have to agree.
    refine (hr n.key inner).bind (fun found _ _ h => ?_) fun found hf => ?_
    all_goals cases found
    case refine_1.none => exact absurd h Run.outcome_raise_ne_done
    case refine_2.none => simp at hf
    case refine_1.some => rfl
    case refine_2.some => exact .refl _

theorem nest_agrees (hh : site.host.IgnoresLimit) {resolve resolve' : Resolver ι}
    (hr : ∀ key bag, (resolve key site.locale bag site.options).Agrees (·.isSome)
      (resolve' key site.locale bag (site.options.withLimit limit)))
    (bag : Bag) (template : String) :
    (nest site bag resolve template).Agrees (fun _ => True)
      (nest (site.under limit chain) bag resolve' template) :=
  .map (.renderM (fun _ => .refl _) (fun _ => nestedText_agrees hh hr _ _ _) _)

end Templates

section Levels

variable {deeper deeper' : Scope → Resolver ι} {site : Site ι} {limit : Setting Int}
  {chain : List Frame}

theorem nested_agrees (hd : Loosens deeper deeper' site.options limit)
    (hl : LooserLimit site.options.depthLimit limit) (hc : LooserChain site.chain chain)
    (ns template key : String) (l : Locale) (bag : Bag) :
    (nested deeper site ns template key l bag site.options).Agrees (·.isSome)
      (nested deeper' (site.under limit chain) ns template key l bag
        (site.options.withLimit limit)) := by
  have h := hd ns site.chain chain hc key l bag
  have hlen : (site.under limit chain).chain.length ≤ site.chain.length := hc.length_le
  simp only [nested, Site.under_options, Options.withLimit_depthLimit]
  cases hm : site.options.depthLimit.value? <;> cases hm' : limit.value?
  case none.none => exact h
  case none.some m' =>
    have ⟨m, hs, _⟩ := hl m' hm'
    exact absurd (hm ▸ hs) nofun
  case some.none m =>
    dsimp only
    split
    case isTrue => exact .of_raise
    case isFalse => exact h
  case some.some m m' =>
    have ⟨_, hs, hle⟩ := hl m' hm'
    cases hm ▸ hs
    dsimp only
    split
    case isTrue => exact .of_raise
    case isFalse =>
      rw [if_neg (by omega)]
      exact h

theorem find_agrees (hh : site.host.IgnoresLimit) (hd : Loosens deeper deeper' site.options limit)
    (hl : LooserLimit site.options.depthLimit limit) (hc : LooserChain site.chain chain)
    (ns key : String) (bag : Bag) :
    (find deeper site ns key bag).Agrees (fun _ => True)
      (find deeper' (site.under limit chain) ns key bag) := by
  refine Run.Agrees.seq (.emit rfl) fun _ => ?_
  simp only [Site.under_host, Site.under_locale, Site.under_options, hh.retrieve]
  refine Run.Agrees.seq (.refl _) fun found => ?_
  cases found
  case none => exact .refl _
  case some template =>
    let frame : Frame := ⟨ns, key, bag.context?⟩
    let inner := site.enter frame
    have hi : inner.host.IgnoresLimit := hh
    have hd' : Loosens deeper deeper' inner.options limit := hd
    have hl' : LooserLimit inner.options.depthLimit limit := hl
    have hc' : LooserChain inner.chain (chain ++ [frame]) := hc.concat frame
    refine Run.Agrees.seq (.emit rfl) fun _ => ?_
    refine (interpolateAround_agrees hi bag template).seq fun filled => ?_
    exact .map (nest_agrees hi (fun key bag => nested_agrees hd' hl' hc' ns template key _ bag) _ _)

theorem recover_ne_some (hs : site.host.Silent site.options) (ns key : String) (bag : Bag)
    (failure : Failure) (s : String) :
    (recover site ns key bag failure).outcome ≠ .done (some s) := by
  intro h
  simp only [recover] at h
  split at h
  case h_1 => exact Run.outcome_raise_ne_done h
  case h_2 handler hh =>
    have ⟨_, _, h⟩ := Run.outcome_bind_eq_done_iff.1 h
    match handler with
    | .warn =>
      have ⟨_, _, h⟩ := Run.outcome_bind_eq_done_iff.1 h
      cases h
    | .handler name =>
      exact hs name hh _ _ _ _ _ _ (Run.outcome_ofExcept_eq_done_iff.1 h)

theorem search_agrees (hh : site.host.IgnoresLimit) (hs : site.host.Silent site.options)
    (hd : Loosens deeper deeper' site.options limit)
    (hl : LooserLimit site.options.depthLimit limit) (hc : LooserChain site.chain chain)
    (bag : Bag) (places : List (String × String)) :
    (search deeper site bag places).Agrees (·.join.isSome)
      (search deeper' (site.under limit chain) bag places) := by
  induction places
  case nil => exact .refl _
  case cons place places ih =>
    simp only [search]
    split
    case isTrue =>
      -- The check against cycles settles the search without a text.
      refine .of_ne fun r hr h => ?_
      have ⟨_, _, h⟩ := Run.outcome_bind_eq_done_iff.1 h
      cases h
      simp at hr
    case isFalse hf =>
      have hf' : ⟨place.1, place.2, bag.context?⟩ ∉ (site.under limit chain).chain :=
        mt (hc.subset ·) hf
      rw [if_neg hf']
      refine (find_agrees hh hd hl hc _ _ _).attempt.bind (fun r b hb h => ?_) fun r hr => ?_
      all_goals cases r
      case refine_1.ok => rfl
      case refine_1.error failure =>
        obtain ⟨found, hf, rfl⟩ := Run.outcome_map_eq_done_iff.1 h
        obtain ⟨s, rfl⟩ := Option.isSome_iff_exists.1 hb
        exact absurd hf (recover_ne_some hs _ _ _ _ _)
      case refine_2.error => simp [Except.toBool] at hr
      case refine_2.ok found =>
        cases found
        case none => exact ih
        case some => exact .refl _

theorem pluralSuffix_agrees (count : Int) :
    (site.pluralSuffix count).Agrees (fun _ => True)
      ((site.under limit chain).pluralSuffix count) := by
  refine Run.Agrees.seq (.emit rfl) fun _ => ?_
  simp only [Site.under_host, Site.under_locale]
  split
  case h_1 => exact Run.Agrees.seq (.emit rfl) fun _ => .refl _
  case h_2 => exact .refl _

theorem candidates_agrees (key : String) (bag : Bag) :
    (candidates site key bag).Agrees (fun _ => True)
      (candidates (site.under limit chain) key bag) := by
  simp only [candidates]
  split
  case h_1 => exact .refl _
  case h_2 count _ =>
    refine Run.Agrees.seq (.map (pluralSuffix_agrees count)) fun _ => ?_
    exact .refl _

theorem resolveIn_agrees (hh : site.host.IgnoresLimit) (hs : site.host.Silent site.options)
    (hd : Loosens deeper deeper' site.options limit)
    (hl : LooserLimit site.options.depthLimit limit) (hc : LooserChain site.chain chain)
    (ns key : String) (bag : Bag) :
    (resolveIn deeper site ns key bag).Agrees (·.isSome)
      (resolveIn deeper' (site.under limit chain) ns key bag) := by
  refine (candidates_agrees key bag).seq fun keys => ?_
  refine (search_agrees hh hs hd hl hc bag _).bind (fun r b hb h => ?_) fun r hr => ?_
  all_goals cases r
  case refine_1.none =>
    have ⟨_, _, h⟩ := Run.outcome_bind_eq_done_iff.1 h
    cases h
    simp at hb
  case refine_1.some settled =>
    cases h
    exact hb
  case refine_2.none => simp at hr
  case refine_2.some => exact .refl _

end Levels

variable {host : Host ι} {o : Options ι} {limit : Setting Int}

theorem Loosens.resolve {deeper deeper' : Scope → Resolver ι} (hh : host.IgnoresLimit)
    (hs : host.Silent o) (hl : LooserLimit o.depthLimit limit)
    (hd : Loosens deeper deeper' o limit) :
    Loosens (resolve deeper host) (resolve deeper' host) o limit :=
  fun _ _ _ hc _ _ bag => resolveIn_agrees hh hs hd hl hc _ _ bag

theorem level_loosens (hh : host.IgnoresLimit) (hs : host.Silent o)
    (hl : LooserLimit o.depthLimit limit) {n n' : Nat} (hn : n ≤ n') :
    Loosens (level host n) (level host n') o limit := by
  induction n generalizing n'
  case zero => exact fun _ _ _ _ _ _ _ => .of_starved
  case succ n ih =>
    obtain _ | n' := n'
    · omega
    · exact (ih (by omega)).resolve hh hs hl

def unguarded (host : Host ι) : Nat → Scope → Resolver ι
  | 0 => fun _ _ _ _ _ => .starved
  | fuel + 1 => fun scope => resolve (unguarded host fuel) host { scope with chain := [] }

theorem unguarded_loosens (hh : host.IgnoresLimit) (hs : host.Silent o)
    (hl : LooserLimit o.depthLimit limit) {n n' : Nat} (hn : n ≤ n') :
    Loosens (level host n) (unguarded host n') o limit := by
  induction n generalizing n'
  case zero => exact fun _ _ _ _ _ _ _ => .of_starved
  case succ n ih =>
    obtain _ | n' := n'
    · omega
    · intro ns chain _ _
      exact (ih (by omega)).resolve hh hs hl ns chain [] ⟨nofun, Nat.zero_le _⟩

-- Guards never put another text in the place of the one that would be found without them.
theorem text_survives_looser_guards (hh : host.IgnoresLimit) (hs : host.Silent o)
    (hl : LooserLimit o.depthLimit limit) {chain chain' : List Frame}
    (hc : LooserChain chain chain') {n n' : Nat} (hn : n ≤ n') (l : Locale) (bag : Bag) :
    (∀ ns raw s calls, (level host n ⟨ns, chain⟩ raw l bag o).Gives s calls →
      (level host n' ⟨ns, chain'⟩ raw l bag (o.withLimit limit)).Gives s calls ∧
      (unguarded host n' ⟨ns, []⟩ raw l bag (o.withLimit .unset)).Gives s calls) ∧
    ∀ ns key s calls, (resolveIn (level host n) ⟨host, l, o, chain⟩ ns key bag).Gives s calls →
      (resolveIn (level host n') ⟨host, l, o.withLimit limit, chain'⟩ ns key bag).Gives s calls ∧
      (resolveIn (unguarded host n') ⟨host, l, o.withLimit .unset, []⟩ ns key bag).Gives s calls
    := by
  have hl₀ : LooserLimit o.depthLimit .unset := nofun
  have hc₀ : LooserChain chain [] := ⟨nofun, Nat.zero_le _⟩
  have hg := level_loosens hh hs hl hn
  have hu := unguarded_loosens hh hs hl₀ hn
  let site : Site ι := ⟨host, l, o, chain⟩
  have hi : site.host.IgnoresLimit := hh
  have hr : site.host.Silent site.options := hs
  refine ⟨fun ns raw s calls h => ⟨?_, ?_⟩, fun ns key s calls h => ⟨?_, ?_⟩⟩
  · exact (hg ns chain chain' hc raw l bag).gives h
  · exact (hu ns chain [] hc₀ raw l bag).gives h
  · exact (resolveIn_agrees hi hr hg hl hc ns key bag).gives h
  · exact (resolveIn_agrees hi hr hu hl₀ hc₀ ns key bag).gives h

theorem greeting_survives_looser_guards :
    let host := Host.ofTemplates
      [("hello", "$t(name, \x7b\"context\": \"b\"\x7d) says \x7b\x7bword\x7d\x7d"),
        ("name_b", "Bo")]
    let bag : Bag := [("word", .text "<hi>")]
    let found := level host 2 ⟨some "talk", [⟨"talk", "page", none⟩]⟩ "hello" ⟨"en", none⟩ bag .base
    found.outcome = .done (some "Bo says &lt;hi&gt;") ∧
      (level host 5 ⟨some "talk", []⟩ "hello" ⟨"en", none⟩ bag
        (Options.base.withLimit .unset)).Gives "Bo says &lt;hi&gt;" found.calls := by
  intro host bag found
  have hh : host.IgnoresLimit := ⟨fun _ _ _ _ _ => rfl, nofun⟩
  have hs : host.Silent .base := nofun
  have hl : LooserLimit (Options.base : Options Empty).depthLimit .unset := nofun
  have hc : LooserChain [⟨"talk", "page", none⟩] [] := ⟨nofun, Nat.zero_le _⟩
  have h : found.outcome = .done (some "Bo says &lt;hi&gt;") := by decide +kernel
  have hn : 2 ≤ 5 := by decide
  exact ⟨h, ((text_survives_looser_guards hh hs hl hc hn _ bag).1 _ _ _ _ ⟨h, rfl⟩).1⟩

end Resolution
end Phrasebook
