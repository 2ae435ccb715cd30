import Phrasebook.Proofs.Resolution.Commitment
import Phrasebook.Proofs.Template.Substitution

namespace Phrasebook

variable {ι : Type}

def Event.opens? (e : Event ι) : Option String :=
  match e.act with
  | .render frame .. => some frame.key
  | _ => none

structure Options.Standard (o : Options ι) : Prop where
  opening : o.opening.textOr "\x7b\x7b" = "\x7b\x7b"
  nestOpening : o.nestOpening.textOr "$t(" = "$t("
  nestClosing : o.nestClosing.textOr ")" = ")"
  nestSeparator : o.nestSeparator.textOr "," = ","
  nsSeparator : o.nsSeparator.value? = some ":"

namespace Resolution

open Template

def reserved : List Char :=
  ['"', '(', ')', '[', ']', '\x7b', '\x7d', ',', ':']

structure PlainKey (key : String) : Prop where
  ne_empty : key ≠ ""
  trimmed : Text.trim key = key
  free : ∀ c ∈ key.toList, c ∉ reserved

structure Literal (text : String) : Prop where
  no_variable : ¬ "\x7b\x7b".toList <:+: text.toList
  no_nesting : ¬ "$t(".toList <:+: text.toList

instance (key : String) : Decidable (PlainKey key) :=
  decidable_of_iff (key ≠ "" ∧ Text.trim key = key ∧ key.toList.all fun c => c ∉ reserved)
    ⟨fun ⟨hn, ht, hf⟩ => ⟨hn, ht, by simpa using hf⟩,
      fun ⟨hn, ht, hf⟩ => ⟨hn, ht, by simpa using hf⟩⟩

instance (text : String) : Decidable (Literal text) :=
  decidable_of_iff ((Text.cut? "\x7b\x7b".toList text.toList).isNone ∧
      (Text.cut? "$t(".toList text.toList).isNone) <| by
    simp only [Option.isNone_iff_eq_none, Text.cut?_eq_none_iff]
    exact ⟨fun ⟨hv, hn⟩ => ⟨hv, hn⟩, fun ⟨hv, hn⟩ => ⟨hv, hn⟩⟩

inductive Ladder where
  | last (key text : String)
  | rung (key before after : String) (rest : Ladder)

namespace Ladder

def key : Ladder → String
  | last key _ => key
  | rung key _ _ _ => key

def template : Ladder → String
  | last _ text => text
  | rung _ before after rest => before ++ "$t(" ++ rest.key ++ ")" ++ after

def text : Ladder → String
  | last _ text => text
  | rung _ before after rest => before ++ rest.text ++ after

def entries : Ladder → List (String × String)
  | last key text => [(key, text)]
  | rung key before after rest => (key, template (rung key before after rest)) :: rest.entries

def keys (L : Ladder) : List String :=
  L.entries.map Prod.fst

def templates (L : Ladder) : List String :=
  L.entries.map Prod.snd

def literals : Ladder → List String
  | last _ text => [text]
  | rung _ before after rest => before :: after :: rest.literals

structure Sound (L : Ladder) : Prop where
  distinct : L.keys.Nodup
  plain : ∀ key ∈ L.keys, PlainKey key
  literal : ∀ text ∈ L.literals, Literal text

variable {L : Ladder} {k before after : String}

theorem keys_last {text : String} : (last k text).keys = [k] :=
  rfl

theorem keys_rung : (rung k before after L).keys = k :: L.keys :=
  rfl

theorem keys_zero (L : Ladder) : L.keys[0]? = some L.key := by
  cases L <;> rfl

theorem Sound.rest (h : (rung k before after L).Sound) : L.Sound where
  distinct := h.distinct.of_cons
  plain := fun key hk => h.plain key (List.mem_cons_of_mem _ hk)
  literal := fun text ht => h.literal text (List.mem_cons_of_mem _ (List.mem_cons_of_mem _ ht))

def StoredIn (L : Ladder) (host : Host ι) (l : Locale) (ns : String) (o : Options ι) : Prop :=
  ∀ p ∈ L.entries, host.retrieve l ns p.1 o = .ok (some p.2)

-- A run for a ladder with room for so many open templates.
structure Climbed (L : Ladder) (limit room : Nat) (run : Run (Event ι) (Option String)) :
    Prop where
  opened : run.events.filterMap Event.opens? = L.keys.take room
  done : L.keys.length ≤ room → run.outcome = .done (some L.text)
  raised : room < L.keys.length → ∃ template key, L.templates[room - 1]? = some template ∧
    L.keys[room]? = some key ∧ run.outcome = .raised (.render (.tooDeep limit) template key)

theorem Climbed.ne_done_none {limit room : Nat} {run : Run (Event ι) (Option String)}
    (h : L.Climbed limit room run) : run.outcome ≠ .done none := by
  rcases Nat.lt_or_ge room L.keys.length with hlt | hle
  case inl =>
    have ⟨_, _, _, _, hr⟩ := h.raised hlt
    exact hr ▸ nofun
  case inr => exact h.done hle ▸ nofun

theorem Climbed.rung {limit room : Nat} {run : Run (Event ι) (Option String)}
    (h : L.Climbed limit (room + 1) run) {e₁ e₂ e₃ : Event ι} (h₁ : e₁.opens? = none)
    (h₂ : e₂.opens? = some k) (h₃ : e₃.opens? = none) :
    (rung k before after L).Climbed limit (room + 2)
      ⟨e₁ :: e₂ :: e₃ :: run.events,
        ((Option.map fun s => before ++ s ++ after) <$> run).outcome⟩ where
  opened := by simp only [List.filterMap_cons, h₁, h₂, h₃, h.opened, keys_rung, List.take_succ_cons]
  done := fun hle => Run.outcome_map_eq_done_iff.2 ⟨_, h.done (Nat.le_of_succ_le_succ hle), rfl⟩
  raised := fun hlt =>
    have ⟨template, key, ht, hk, hr⟩ := h.raised (Nat.lt_of_succ_lt_succ hlt)
    ⟨template, key, ht, hk, Run.outcome_map_eq_raised_iff.2 hr⟩

theorem Climbed.full {limit : Nat} {e₁ e₂ e₃ : Event ι} (h₁ : e₁.opens? = none)
    (h₂ : e₂.opens? = some k) (h₃ : e₃.opens? = none) :
    (Ladder.rung k before after L).Climbed limit 1 ⟨[e₁, e₂, e₃],
      .raised (.render (.tooDeep limit) (template (.rung k before after L)) L.key)⟩ where
  opened := by simp [h₁, h₂, h₃, keys_rung]
  done := fun hle => by
    have hl : 0 < L.keys.length := (List.getElem?_eq_some_iff.1 L.keys_zero).1
    exact absurd (Nat.le_of_succ_le_succ hle) (Nat.not_le.2 hl)
  raised := fun _ => ⟨_, _, rfl, L.keys_zero, rfl⟩

theorem Climbed.last {limit room : Nat} (hpos : 0 < room) {e₁ e₂ : Event ι} {text : String}
    (h₁ : e₁.opens? = none) (h₂ : e₂.opens? = some k) :
    (last k text).Climbed limit room ⟨[e₁, e₂], .done (some text)⟩ where
  opened := by
    have ht : [k].take room = [k] := List.take_of_length_le hpos
    simp [h₁, h₂, keys_last, ht]
  done := fun _ => rfl
  raised := fun hlt => absurd hlt (Nat.not_lt.2 hpos)

end Ladder

section Rung

variable {o : Options ι} {key before after : String}

theorem PlainKey.ne_of_mem {c d : Char} (hk : PlainKey key) (hc : c ∈ key.toList)
    (hd : d ∈ reserved) : c ≠ d := by
  rintro rfl
  exact hk.free c hc hd

theorem PlainKey.not_infix {d : Char} (hk : PlainKey key)
    (hd : d ∈ reserved) : ¬ [d] <:+: key.toList :=
  fun h => hk.ne_of_mem (h.subset List.mem_cons_self) hd rfl

theorem PlainKey.parse_eq (hk : PlainKey key) :
    Key.parse key (some ":") = { ns := none, path := key } := by
  have hc : Text.cut? [':'] key.toList = none :=
    Text.cut?_eq_none_iff.2 (hk.not_infix (by decide))
  have hs : Text.split? (some ":") key = none := by
    simp [Text.split?, Text.present?, Option.filter, hc]
  simp only [Key.parse, hs]

theorem PlainKey.nested_eq (hs : o.Standard) (hk : PlainKey key) :
    Nested.parse o key.toList = ⟨key, ""⟩ := by
  have hc : Text.cut? [','] key.toList = none :=
    Text.cut?_eq_none_iff.2 (hk.not_infix (by decide))
  have ht : String.ofList (Text.trimmed key.toList) = key := hk.trimmed
  simp [Nested.parse, hs.nestSeparator, hc, ht]

theorem split_rung (hs : o.Standard) (hk : PlainKey key) (hb : Literal before)
    (ha : Literal after) :
    o.nestingMarks.split (before ++ "$t(" ++ key ++ ")" ++ after).toList =
      ⟨[(before.toList, key.toList)], after.toList⟩ := by
  have ho : o.nestingMarks.opening = "$t(".toList := congrArg String.toList hs.nestOpening
  have hc : o.nestingMarks.close = Nesting.close? ")".toList {} :=
    congrArg (fun closing : String => Nesting.close? closing.toList {}) hs.nestClosing
  have hcut : Text.cut? o.nestingMarks.opening (before ++ "$t(" ++ key ++ ")" ++ after).toList =
      some (before.toList, key.toList ++ ")".toList ++ after.toList) := by
    have hf : Text.First "$t(".toList before.toList (key.toList ++ ")".toList ++ after.toList) :=
      Text.first_of_absent (by decide) hb.no_nesting
    refine Text.cut?_eq_some_iff.2 ⟨by simp [ho], ho ▸ hf⟩
  have hclose : o.nestingMarks.close (key.toList ++ ")".toList ++ after.toList) =
      some (key.toList, after.toList) := by
    rw [hc]
    exact Nesting.close?_of_free (by decide) (fun c hc => ⟨hk.ne_of_mem hc (by decide),
      hk.ne_of_mem hc (by decide), hk.ne_of_mem hc (by decide), hk.ne_of_mem hc (by decide)⟩) _
  have hrest : Text.cut? o.nestingMarks.opening after.toList = none :=
    Text.cut?_eq_none_iff.2 (ho ▸ ha.no_nesting)
  rw [Marking.split_of_close hcut hclose, Marking.split_of_cut?_eq_none hrest]

theorem plain_of_literal {text : String} (hs : o.Standard) (h : Literal text) : o.Plain text := by
  have hv : o.variableMarks.opening = "\x7b\x7b".toList := congrArg String.toList hs.opening
  have hn : o.nestingMarks.opening = "$t(".toList := congrArg String.toList hs.nestOpening
  refine .of_no_token ?names ?nesting
  case names => exact o.variableMarks.no_token_of_no_opening (hv ▸ h.no_variable)
  case nesting => exact o.nestingMarks.no_token_of_no_opening (hn ▸ h.no_nesting)

variable {site : Site ι} {bag : Bag} {deeper : Scope → Resolver ι} {u : Lookup ι}
  {template : String} {resolve : Resolver ι}

theorem interpolateAround_of_rung (hs : site.options.Standard) (hk : PlainKey key)
    (hb : Literal before) (ha : Literal after) :
    let template := before ++ "$t(" ++ key ++ ")" ++ after
    interpolateAround site bag template = pure template := by
  intro template
  let marks := site.options.nestingMarks
  have hsplit : marks.split template.toList = _ := split_rung hs hk hb ha
  have ht : before.toList ++ marks.token key.toList ++ after.toList = template.toList := by
    rw [← marks.text_split template.toList, hsplit]
    rfl
  have hf (text : String) (h : Literal text) :
      fill site bag template text.toList = pure text.toList :=
    fill_of_plain (plain_of_literal hs h).no_variable template
  have hr : Split.renderM (fill site bag template) (fun c => pure (marks.token c))
      ⟨[], after.toList⟩ = pure after.toList := hf after ha
  calc
    _ = String.ofList <$> pure (before.toList ++ marks.token key.toList ++ after.toList) := by
      rw [interpolateAround, hsplit, Split.renderM_cons, hf before hb, hr]
      rfl
    _ = pure template := by rw [ht, map_pure, String.ofList_toList]

theorem tokenText_of_rung (hs : site.options.Standard) (hk : PlainKey key) :
    tokenText site bag resolve template key.toList = (do
      site.emit (.nest key site.locale bag site.options)
      match ← resolve key site.locale bag site.options with
      | none => .raise (.render (.nestedMissing key) template
          (String.ofList (site.options.nestingMarks.token key.toList)))
      | some s => return s.toList) := by
  have hn : key.isEmpty = false := by simpa using hk.ne_empty
  rw [tokenText, hk.nested_eq hs, Nested.text, hn]
  rfl

theorem nest_of_rung (hs : site.options.Standard) (hk : PlainKey key)
    (hsplit : site.options.nestingMarks.split template.toList =
      ⟨[(before.toList, key.toList)], after.toList⟩)
    {reply : Run (Event ι) (Option String)}
    (hr : resolve key site.locale bag site.options = reply) (hn : reply.outcome ≠ .done none) :
    some <$> nest site bag resolve template =
      ⟨⟨site.chain, .nest key site.locale bag site.options⟩ :: reply.events,
        ((Option.map fun s => before ++ s ++ after) <$> reply).outcome⟩ := by
  have hnest : nest site bag resolve template = String.ofList <$>
    (site.options.nestingMarks.split template.toList).renderM pure
      (tokenText site bag resolve template) := rfl
  have hrest : Split.renderM pure (tokenText site bag resolve template) ⟨[], after.toList⟩ =
      pure after.toList := rfl
  rw [hnest, hsplit, Split.renderM_cons, hrest, tokenText_of_rung hs hk, hr]
  obtain ⟨events, found | failure | _⟩ := reply
  case done =>
    cases found
    case none => exact absurd rfl hn
    case some s =>
      simp [Site.emit, Run.emit, Run.bind_eq, Run.bind, Run.map_done, String.append_assoc]
  case raised => rfl
  case starved => rfl

theorem rendering_of_rung (hs : u.site.options.Standard) (hk : PlainKey key) (hb : Literal before)
    (ha : Literal after) (heq : template = before ++ "$t(" ++ key ++ ")" ++ after)
    (ht : u.stored = .ok (some template)) {reply : Run (Event ι) (Option String)}
    (hr : nested deeper u.inner u.ns template key u.site.locale u.bag u.site.options = reply)
    (hn : reply.outcome ≠ .done none) :
    u.rendering deeper =
      ⟨u.opening template :: ⟨u.inner.chain, .nest key u.site.locale u.bag u.site.options⟩ ::
          reply.events, ((Option.map fun s => before ++ s ++ after) <$> reply).outcome⟩ := by
  have hi : interpolateAround u.inner u.bag template = pure template :=
    heq ▸ @interpolateAround_of_rung _ _ _ _ u.inner _ hs hk hb ha
  have hsplit : u.inner.options.nestingMarks.split template.toList = _ :=
    heq ▸ @split_rung _ u.inner.options _ _ _ hs hk hb ha
  have hnest := @nest_of_rung _ _ _ _ u.inner u.bag _ _ hs hk hsplit _ hr hn
  rw [Lookup.rendering_of_stored ht, hi, pure_bind, hnest, Run.emit_bind]
  rfl

end Rung

section Climb

variable {host : Host ι} {l : Locale} {o : Options ι} {limit : Nat} {ns : String} {bag : Bag}
  (hs : o.Standard) (hl : o.depthLimit.value? = some (limit : Int))
  (hh : o.onFailure.value? = none) (hc : bag.context? = none) (hn : bag.count? = none)

include hs hl hh hc hn

theorem resolver_of_rendering {chain : List Frame} {key : String} {events : List (Event ι)}
    {outcome : Outcome (Option String)} (hk : PlainKey key) :
    let u : Lookup ι := ⟨⟨host, l, o, chain⟩, ns, key, bag⟩
    u.frame ∉ chain → u.rendering (resolver host) = ⟨events, outcome⟩ → outcome ≠ .done none →
      resolver host ⟨some ns, chain⟩ key l bag o = ⟨u.retrieval :: events, outcome⟩ := by
  intro u ho hr hne
  rw [resolver_eq_resolve hl]
  simp only [resolve, hs.nsSeparator, hk.parse_eq, Option.getD_none, Option.getD_some]
  have hstored : u.stored ≠ .ok none := by
    intro h
    cases hr.symm.trans (Lookup.rendering_of_none h)
    exact hne rfl
  have hu := @Lookup.resolveIn_of_bare _ (resolver host) u hc hn ho hstored fun _ _ => hh
  rwa [hr] at hu

theorem resolver_of_rung {chain : List Frame} {key key' before after : String} (hk : PlainKey key)
    (hk' : PlainKey key') (hb : Literal before) (ha : Literal after) :
    let u : Lookup ι := ⟨⟨host, l, o, chain⟩, ns, key, bag⟩
    let template := before ++ "$t(" ++ key' ++ ")" ++ after
    let reply := nested (resolver host) u.inner ns template key' l bag o
    u.frame ∉ chain → u.stored = .ok (some template) → reply.outcome ≠ .done none →
      resolver host ⟨some ns, chain⟩ key l bag o =
        ⟨u.retrieval :: u.opening template :: ⟨u.inner.chain, .nest key' l bag o⟩ :: reply.events,
          ((Option.map fun s => before ++ s ++ after) <$> reply).outcome⟩ := by
  intro u template reply ho ht hne
  have hr := rendering_of_rung hs hk' hb ha rfl ht rfl hne
  refine resolver_of_rendering hs hl hh hc hn hk ho hr fun hd => ?_
  obtain ⟨found, hf, hm⟩ := Run.outcome_map_eq_done_iff.1 hd
  exact hne (Option.map_eq_none_iff.1 hm ▸ hf)

-- Below some open templates there is room for as many more as the limit leaves.
theorem resolver_climbs (L : Ladder) (hL : L.Sound) (hst : L.StoredIn host l ns o)
    {chain : List Frame} {room : Nat} (hroom : chain.length + room = limit) (hpos : 0 < room)
    (hfresh : ∀ key ∈ L.keys, ⟨ns, key, bag.context?⟩ ∉ chain) :
    L.Climbed limit room (resolver host ⟨some ns, chain⟩ L.key l bag o) := by
  induction L generalizing chain room
  case last key text =>
    let u : Lookup ι := ⟨⟨host, l, o, chain⟩, ns, key, bag⟩
    have ht : u.stored = .ok (some text) := hst _ List.mem_cons_self
    have hp : o.Plain text := plain_of_literal hs (hL.literal _ List.mem_cons_self)
    rw [Ladder.key, resolver_of_rendering hs hl hh hc hn (hL.plain _ List.mem_cons_self)
      (hfresh _ List.mem_cons_self) (Lookup.rendering_of_plain ht hp) (by simp)]
    exact .last hpos rfl rfl
  case rung key before after rest ih =>
    let u : Lookup ι := ⟨⟨host, l, o, chain⟩, ns, key, bag⟩
    let template := before ++ "$t(" ++ rest.key ++ ")" ++ after
    have hk : PlainKey rest.key :=
      hL.plain _ (List.mem_cons_of_mem _ (List.mem_of_getElem? rest.keys_zero))
    have hrun := resolver_of_rung hs hl hh hc hn (hL.plain _ List.mem_cons_self) hk
      (hL.literal _ List.mem_cons_self) (hL.literal _ (List.mem_cons_of_mem _ List.mem_cons_self))
      (hfresh _ List.mem_cons_self) (hst _ List.mem_cons_self)
    have hlen : u.inner.chain.length = chain.length + 1 := List.length_append
    have hdepth : u.inner.options.depthLimit.value? = some (limit : Int) := hl
    rcases Nat.eq_or_lt_of_le hpos with rfl | hlt
    case inl =>
      have hr : nested (resolver host) u.inner ns template rest.key l bag o =
          .raise (.render (.tooDeep limit) template rest.key) := by
        have hle : (limit : Int) ≤ u.inner.chain.length := by omega
        simp only [nested, hdepth, if_pos hle]
      rw [Ladder.key, hrun (hr ▸ Run.outcome_raise_ne_done), hr]
      exact .full rfl rfl rfl
    case inr =>
      obtain ⟨room, rfl⟩ := Nat.exists_eq_add_of_le' hlt
      have hr : nested (resolver host) u.inner ns template rest.key l bag o =
          resolver host ⟨some ns, u.inner.chain⟩ rest.key l bag o := by
        have hlt : ¬ (limit : Int) ≤ u.inner.chain.length := by omega
        simp only [nested, hdepth, if_neg hlt]
      have hfresh' : ∀ k ∈ rest.keys, ⟨ns, k, bag.context?⟩ ∉ u.inner.chain := by
        intro k hk hmem
        rcases List.mem_append.1 hmem with hmem | hmem
        case inl => exact hfresh k (List.mem_cons_of_mem _ hk) hmem
        case inr =>
          cases List.mem_singleton.1 hmem
          exact (List.nodup_cons.1 hL.distinct).1 hk
      have hroom' : u.inner.chain.length + (room + 1) = limit := by omega
      have hrest := ih hL.rest (fun p hp => hst p (List.mem_cons_of_mem _ hp)) hroom'
        (Nat.succ_pos room) hfresh'
      rw [Ladder.key, hrun (hr ▸ hrest.ne_done_none), hr]
      exact hrest.rung rfl rfl rfl

end Climb

-- A ladder of no more templates than the limit has a text. Of a longer one, as many templates as
-- the limit says are opened one in the other; the last of them fails for the key that it needs, and
-- without a handler that failure gets out.
theorem ladder_climbed_to_limit (host : Host ι) (l : Locale) {o : Options ι} (hs : o.Standard)
    {limit : Nat} (hpos : 0 < limit) (hl : o.depthLimit.value? = some (limit : Int))
    (hh : o.onFailure.value? = none) (ns : String) {bag : Bag} (hc : bag.context? = none)
    (hn : bag.count? = none) (L : Ladder) (hL : L.Sound) (hst : L.StoredIn host l ns o) :
    let run := resolver host ⟨some ns, []⟩ L.key l bag o
    let n := L.keys.length
    (n ≤ limit → run.outcome = .done (some L.text)) ∧
    (limit < n → ∃ template key, L.templates[limit - 1]? = some template ∧
      L.keys[limit]? = some key ∧
      run.outcome = .raised (.render (.tooDeep limit) template key)) ∧
    run.events.filterMap Event.opens? = L.keys.take limit :=
  have h := resolver_climbs hs hl hh hc hn L hL hst (Nat.zero_add limit) hpos
    fun _ _ => List.not_mem_nil
  ⟨h.done, h.raised, h.opened⟩

theorem three_templates_climbed :
    let L : Ladder := .rung "a" "<" ">" (.rung "b" "[" "]" (.last "c" "C"))
    let host := Host.ofTemplates [("a", "<$t(b)>"), ("b", "[$t(c)]"), ("c", "C")]
    let o (limit : Nat) : Options Empty :=
      { Options.base with depthLimit := .set limit, onFailure := .cleared }
    let run (limit : Nat) := resolver host ⟨some "talk", []⟩ L.key ⟨"en", none⟩ [] (o limit)
    (run 3).outcome = .done (some "<[C]>") ∧
    (run 2).outcome = .raised (.render (.tooDeep 2) "[$t(c)]" "c") ∧
    (run 1).outcome = .raised (.render (.tooDeep 1) "<$t(b)>" "b") := by
  intro L host o run
  have hL : L.Sound := ⟨by decide, by decide +kernel, by decide +kernel⟩
  have hst (limit : Nat) : L.StoredIn host ⟨"en", none⟩ "talk" (o limit) :=
    List.forall_mem_cons.2 ⟨rfl, List.forall_mem_cons.2 ⟨rfl, List.forall_mem_singleton.2 rfl⟩⟩
  have h (limit : Nat) (hpos : 0 < limit) :=
    @ladder_climbed_to_limit _ host ⟨"en", none⟩ (o limit) ⟨rfl, rfl, rfl, rfl, rfl⟩ _ hpos rfl rfl
      "talk" [] rfl rfl L hL (hst limit)
  refine ⟨(h 3 (by decide)).1 (by decide), ?two, ?one⟩
  case two =>
    obtain ⟨_, _, ht, hk, hr⟩ := (h 2 (by decide)).2.1 (by decide)
    cases ht
    cases hk
    exact hr
  case one =>
    obtain ⟨_, _, ht, hk, hr⟩ := (h 1 (by decide)).2.1 (by decide)
    cases ht
    cases hk
    exact hr

end Resolution
end Phrasebook
